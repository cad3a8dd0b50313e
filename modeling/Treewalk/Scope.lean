import Treewalk.Diagnostic
import Treewalk.Value

/-! # Scopes

A `Scope` binds names to values and may be enclosed by another one. All scopes of a run are kept in
a `Forest` and known by their number. A name stands for its nearest binding: the first one on the
chain from a scope outward. Declaring touches only the scope itself, assigning changes the nearest
binding. -/

namespace Treewalk

/-- The bindings of a scope, and the number of the scope around it. A scope binds a name at most
    once. -/
structure Scope where
  bindings : List (String × Value)
  enclosing : Option Nat

namespace Scope

/-- A scope that binds nothing. -/
def empty (enclosing : Option Nat) : Scope := ⟨[], enclosing⟩

/-- The value that a scope itself binds a name to. -/
def find? (s : Scope) (name : String) : Option Value := s.bindings.lookup name

/-- Binds a name in place of its old binding, or else behind all others. -/
def bindIn (name : String) (value : Value) : List (String × Value) → List (String × Value)
  | [] => [(name, value)]
  | (key, old) :: rest =>
    if name == key then (key, value) :: rest else (key, old) :: bindIn name value rest

/-- Binds a name. -/
def bind (s : Scope) (name : String) (value : Value) : Scope :=
  { s with bindings := bindIn name value s.bindings }

/-- Binding a name does not change what encloses the scope. -/
@[simp] theorem enclosing_bind (s : Scope) (name : String) (value : Value) :
    (s.bind name value).enclosing = s.enclosing := rfl

/-- Looking up a name in bindings of which the first is known. -/
theorem lookup_cons_eq_ite (key k : String) (value : Value) (rest : List (String × Value)) :
    ((k, value) :: rest).lookup key = if key = k then some value else rest.lookup key := by
  rw [List.lookup_cons]
  split <;> simp_all

/-- Looking up a name after binding one. -/
theorem lookup_bindIn (name key : String) (value : Value) (bindings : List (String × Value)) :
    (bindIn name value bindings).lookup key = if key = name then some value
      else bindings.lookup key := by
  induction bindings with
  | nil => simp [bindIn, lookup_cons_eq_ite]
  | cons binding rest ih =>
    obtain ⟨k, old⟩ := binding
    -- A name that is bound keeps its place among the bindings, and a new one is put at their end.
    by_cases same : name = k
    · simp only [bindIn, same, beq_self_eq_true, if_true, lookup_cons_eq_ite]
      split <;> rfl
    · simp only [bindIn, beq_eq_false_iff_ne.2 same, Bool.false_eq_true, if_false,
        lookup_cons_eq_ite, ih]
      by_cases here : key = k
      · simp [here, Ne.symm same]
      · simp [here]

/-- After binding a name, it has that value, and all other names have what they had. -/
theorem find?_bind (s : Scope) (name key : String) (value : Value) :
    (s.bind name value).find? key = if key = name then some value else s.find? key :=
  lookup_bindIn name key value s.bindings

end Scope

/-- All scopes of a run, by number. -/
structure Forest where
  scopes : Array Scope

namespace Forest

/-- No scopes. -/
def empty : Forest := ⟨#[]⟩

/-- Number of scopes. -/
def size (f : Forest) : Nat := f.scopes.size

/-- Adds a scope that binds nothing. It gets the next number. -/
def push (f : Forest) (enclosing : Option Nat) : Forest := ⟨f.scopes.push (.empty enclosing)⟩

/-- Keeps the first `n` scopes. -/
def keep (f : Forest) (n : Nat) : Forest := ⟨f.scopes.shrink n⟩

/-- The numbers of the scopes from a scope outward. A scope is younger than the one around it; a
scope that was put around an older one would end the chain. -/
def chain (f : Forest) (scope : Nat) : List Nat :=
  match f.scopes[scope]? with
  | some s =>
    match s.enclosing with
    | some outer => if outer < scope then scope :: f.chain outer else [scope]
    | none => [scope]
  | none => []
termination_by scope

/-- The value that a scope itself binds a name to. -/
def findIn? (f : Forest) (name : String) (scope : Nat) : Option Value :=
  f.scopes[scope]?.bind (·.find? name)

/-- The nearest scope that binds a name. -/
def owner? (f : Forest) (scope : Nat) (name : String) : Option Nat :=
  (f.chain scope).find? fun s => (f.findIn? name s).isSome

/-- The value of the nearest binding of a name. -/
def get? (f : Forest) (scope : Nat) (name : String) : Option Value :=
  (f.chain scope).findSome? (f.findIn? name)

/-- Binds a name in a scope. -/
def declare (f : Forest) (scope : Nat) (name : String) (value : Value) : Forest :=
  ⟨f.scopes.modify scope (·.bind name value)⟩

/-- A new scope adds one to their number. -/
@[simp] theorem size_push (f : Forest) (enclosing : Option Nat) :
    (f.push enclosing).size = f.size + 1 := by
  simp [push, size]

/-- Declaring a variable adds no scope. -/
@[simp] theorem size_declare (f : Forest) (scope : Nat) (name : String) (value : Value) :
    (f.declare scope name value).size = f.size := by
  simp [declare, size]

/-- Declaring leaves what is around each scope as it is. -/
theorem enclosing_declare (f : Forest) (scope s : Nat) (name : String) (value : Value) :
    (f.declare scope name value).scopes[s]?.map Scope.enclosing =
      f.scopes[s]?.map Scope.enclosing := by
  rw [declare, Array.getElem?_modify]
  split
  · cases f.scopes[s]? <;> simp
  · rfl

/-- Declaring leaves the chains as they are. -/
@[simp] theorem chain_declare (f : Forest) (scope s : Nat) (name : String) (value : Value) :
    (f.declare scope name value).chain s = f.chain s := by
  -- The walk reads only what encloses a scope, which a declaration keeps.
  induction s using Nat.strongRecOn with
  | ind s ih =>
    have same := enclosing_declare f scope s name value
    rw [chain, chain]
    cases h : f.scopes[s]? with
    | none =>
      rw [h] at same
      simp [Option.map_eq_none_iff.1 same]
    | some b =>
      rw [h] at same
      obtain ⟨c, hc, he⟩ := Option.map_eq_some_iff.1 same
      rw [hc]
      simp only [he]
      split
      · split
        · rw [ih _ ‹_›]
        · rfl
      · rfl

/-- After declaring a name in a scope of the forest, the scope binds it to the value, and nothing
else is bound differently. -/
theorem findIn?_declare (f : Forest) {scope : Nat} (inside : scope < f.size) (name key : String)
    (value : Value) (s : Nat) :
    (f.declare scope name value).findIn? key s =
      if s = scope ∧ key = name then some value else f.findIn? key s := by
  unfold findIn? declare
  rw [Array.getElem?_modify]
  by_cases here : scope = s
  · subst here
    rw [if_pos rfl, Array.getElem?_eq_getElem inside]
    simp [Scope.find?_bind]
  · simp [here, Ne.symm here]

/-- The fault of a name without binding. -/
def undefinedName (name : Token) : RuntimeError := .atToken name (.undefinedName name.lexeme)

/-- The value of the nearest binding of the name that a token stands for. -/
def lookup (f : Forest) (scope : Nat) (name : Token) : Except RuntimeError Value :=
  match f.get? scope name.lexeme with
  | some value => .ok value
  | none => .error (undefinedName name)

/-- Changes the nearest binding of the name that a token stands for. -/
def assign (f : Forest) (scope : Nat) (name : Token) (value : Value) : Except RuntimeError Forest :=
  match f.owner? scope name.lexeme with
  | some owner => .ok (f.declare owner name.lexeme value)
  | none => .error (undefinedName name)

end Forest

end Treewalk
