import Mathlib.Data.Set.Basic
import Treewalk.Proofs.Scope.Chain
import Treewalk.Proofs.Session.Restoration

/-!
# Which scopes a program writes to

Four kinds of statement change what is bound: declarations of variables and of functions,
assignments and reads. Of the scopes that were there before, only those on the chain of the current
one can be changed, and only the current one can get names that it did not have
(`Machine.Footprint`). Expressions and blocks do not add names even there, and a call of a function
can change no scope but the global one (`Machine.Confined`).

All this is so if every chain of scopes ends at the global one (`Machine.Rooted`): a function runs
in a scope inside of the global one, wherever it is called, and the global scope has to be on the
chain of the caller.
-/

namespace Treewalk

/-! ## Names of scopes -/

namespace Forest

variable {f g : Forest} {scope s : Nat} {name : String} {value : Value}

/-- The names that a scope itself binds. -/
def names (f : Forest) (scope : Nat) : Set String := {name | (f.findIn? name scope).isSome}

/-- A scope that is the same binds the same names. -/
theorem names_congr (h : g.scopes[s]? = f.scopes[s]?) : g.names s = f.names s := by
  ext key
  simp only [names, findIn?, h]

/-- Declaring changes only the scope itself. -/
theorem scopes_declare_of_ne (f : Forest) (name : String) (value : Value) (hne : s ≠ scope) :
    (f.declare scope name value).scopes[s]? = f.scopes[s]? := by
  rw [declare, Array.getElem?_modify, if_neg (Ne.symm hne)]

/-- Declaring takes no name away. -/
theorem names_subset_declare (f : Forest) (scope s : Nat) (name : String) (value : Value) :
    f.names s ⊆ (f.declare scope name value).names s := by
  intro key hkey
  by_cases inside : scope < f.size
  · rw [names, Set.mem_ofPred_eq, findIn?_declare f inside]
    split
    · rfl
    · exact hkey
  · rwa [declare_of_size_le name value (Nat.le_of_not_lt inside)]

/-- Declaring a name again adds no name. -/
theorem names_declare_of_mem (h : name ∈ f.names scope) :
    (f.declare scope name value).names s = f.names s := by
  by_cases inside : scope < f.size
  · ext key
    rw [names, Set.mem_ofPred_eq, findIn?_declare f inside]
    split
    · next same =>
      obtain ⟨rfl, rfl⟩ := same
      exact iff_of_true rfl h
    · rfl
  · rw [declare_of_size_le name value (Nat.le_of_not_lt inside)]

/-- A scope is on its own chain. -/
theorem mem_chain_self (h : scope < f.size) : scope ∈ f.chain scope := by
  rw [chain, Array.getElem?_eq_getElem h]
  dsimp only
  split
  · split <;> simp
  · simp

/-- The nearest scope that binds a name is on the chain and binds it. -/
theorem owner_spec {owner : Nat} (h : f.owner? scope name = some owner) :
    owner ∈ f.chain scope ∧ name ∈ f.names owner :=
  ⟨List.mem_of_find?_eq_some h, List.find?_some (p := fun s => (f.findIn? name s).isSome) h⟩

end Forest

namespace Machine

variable {m m' m₁ m₂ m₃ : Machine} {enclosing : Nat}

/-! ## Chains that end at the global scope -/

/-- The current scope is there, and all chains end at the global scope. -/
structure Rooted (m : Machine) : Prop where
  current : m.current < m.scopes.size
  root {s : Nat} (hs : s < m.scopes.size) : (m.scopes.chain s).getLast? = some globals

/-- Scopes with the same scopes around them have the same chains. -/
theorem SamePlace.chain (h : m.SamePlace m') (s : Nat) : m'.scopes.chain s = m.scopes.chain s := by
  apply Forest.chain_congr
  intro r _
  have hlink := congrArg (·[r]?) h.2
  simpa only [Forest.links, List.getElem?_map, Array.getElem?_toList] using hlink

/-- In the same place there are as many scopes. -/
theorem SamePlace.size (h : m.SamePlace m') : m'.scopes.size = m.scopes.size := by
  rw [← Forest.length_links, h.2, Forest.length_links]

/-- In the same place the current scope still leads to the global one. -/
theorem SamePlace.rooted (h : m.SamePlace m') (hm : m.Rooted) : m'.Rooted where
  current := by
    rw [h.1, h.size]
    exact hm.current
  root {s} hs := by
    rw [h.size] at hs
    rw [h.chain]
    exact hm.root hs

namespace Rooted

/-- The global scope of a rooted machine is one of its scopes. -/
theorem globals_lt (hm : m.Rooted) : globals < m.scopes.size :=
  Nat.lt_of_le_of_lt (Nat.zero_le _) hm.current

/-- The global scope is in the chain of the current one. -/
theorem globals_subset_chain (hm : m.Rooted) : [globals] ⊆ m.scopes.chain m.current :=
  List.cons_subset.2 ⟨List.mem_of_getLast? (hm.root hm.current), List.nil_subset _⟩

/-- The chain of the global scope is that scope alone. -/
theorem chain_globals (hm : m.Rooted) : m.scopes.chain globals = [globals] :=
  Forest.chain_zero hm.globals_lt

/-- A scope around a new one is there. -/
theorem lt_of_enclosing (hm : m.Rooted) (henclosing : enclosing = m.current ∨ enclosing = globals) :
    enclosing < m.scopes.size := by
  obtain rfl | rfl := henclosing
  · exact hm.current
  · exact hm.globals_lt

/-- What is around a new scope is also on the chain of the old one. -/
theorem chain_enclosing_subset (hm : m.Rooted)
    (henclosing : enclosing = m.current ∨ enclosing = globals) :
    m.scopes.chain enclosing ⊆ m.scopes.chain m.current := by
  obtain rfl | rfl := henclosing
  · exact List.Subset.refl _
  · rw [hm.chain_globals]
    exact hm.globals_subset_chain

/-- In a new scope, all chains still end at the global one. -/
theorem enter (hm : m.Rooted) (henclosing : enclosing = m.current ∨ enclosing = globals) :
    (m.enter enclosing).Rooted where
  current := by
    rw [Machine.enter, Forest.size_push]
    exact Nat.lt_succ_self _
  root {s} hs := by
    have hlt := hm.lt_of_enclosing henclosing
    rw [Machine.enter, Forest.size_push] at hs
    rw [Machine.enter]
    obtain hold | rfl : s < m.scopes.size ∨ s = m.scopes.size := by omega
    · rw [Forest.chain_push_of_lt _ hold]
      exact hm.root hold
    · rw [Forest.chain_push_size, if_pos hlt, List.getLast?_cons, hm.root hlt, Option.getD_some]

/-- Which scope is the current one does not matter to the chains. -/
theorem moveTo {s : Nat} (hm : m.Rooted) (hs : s < m.scopes.size) :
    Rooted { m with current := s } where
  current := hs
  root := hm.root

end Rooted

/-! ## Changes within some scopes -/

/-- Nothing is changed but what some of the scopes bind their names to. -/
structure Confined (scopes : List Nat) (m m' : Machine) : Prop where
  aside {s : Nat} (hs : s ∉ scopes) : m'.scopes.scopes[s]? = m.scopes.scopes[s]?
  names (s : Nat) : m'.scopes.names s = m.scopes.names s

namespace Confined

variable {scopes wider : List Nat}

/-- Where no scope changes, changes are confined to any scopes. -/
theorem of_scopes_eq (h : m'.scopes = m.scopes) : Confined scopes m m' where
  aside _ := by rw [h]
  names _ := by rw [h]

/-- Changes one after the other are confined to the same scopes. -/
theorem trans (h₁ : Confined scopes m₁ m₂) (h₂ : Confined scopes m₂ m₃) :
    Confined scopes m₁ m₃ where
  aside hs := (h₂.aside hs).trans (h₁.aside hs)
  names s := (h₂.names s).trans (h₁.names s)

/-- What is confined to some scopes is confined to more. -/
theorem mono (h : Confined scopes m m') (hsub : scopes ⊆ wider) : Confined wider m m' where
  aside hs := h.aside fun hmem => hs (hsub hmem)
  names := h.names

/-- An assignment changes one scope of the chain, which has the name already. -/
theorem assign (m : Machine) (name : String) (value : Value) {owner : Nat}
    (howner : m.scopes.owner? m.current name = some owner) :
    Confined (m.scopes.chain m.current) m
      { m with scopes := m.scopes.declare owner name value } := by
  obtain ⟨hchain, hname⟩ := Forest.owner_spec howner
  constructor
  case aside =>
    intro s hs
    have hne : s ≠ owner := fun heq => hs (heq ▸ hchain)
    exact m.scopes.scopes_declare_of_ne name value hne
  case names => exact fun _ => Forest.names_declare_of_mem hname

end Confined

/-- Nothing is changed but what scopes on the chain of the current one bind their names to, and that
    the current scope may have got more names. -/
structure Footprint (m m' : Machine) : Prop where
  aside {s : Nat} (hs : s ∉ m.scopes.chain m.current) : m'.scopes.scopes[s]? = m.scopes.scopes[s]?
  names {s : Nat} (hs : s ≠ m.current) : m'.scopes.names s = m.scopes.names s
  current : m.scopes.names m.current ⊆ m'.scopes.names m.current

/-- What is confined to the scopes that are seen is within the footprint. -/
theorem Confined.footprint (h : Confined (m.scopes.chain m.current) m m') : m.Footprint m' where
  aside := h.aside
  names _ := h.names _
  current := (h.names _).superset

namespace Footprint

/-- Where no scope changes, the footprint is kept. -/
theorem of_scopes_eq (h : m'.scopes = m.scopes) : m.Footprint m' :=
  (Confined.of_scopes_eq h).footprint

/-- Footprints from the same place add up. -/
theorem trans (hplace : m₁.SamePlace m₂) (h₁ : m₁.Footprint m₂) (h₂ : m₂.Footprint m₃) :
    m₁.Footprint m₃ where
  aside hs := by
    have hs' := hs
    -- Both machines are in the same place, so the scopes aside of the first are aside of the
    -- second.
    rw [← hplace.chain, ← hplace.1] at hs'
    exact (h₂.aside hs').trans (h₁.aside hs)
  names hs := by
    have hs' := hs
    rw [← hplace.1] at hs'
    exact (h₂.names hs').trans (h₁.names hs)
  current := by
    have hsecond := h₂.current
    rw [hplace.1] at hsecond
    exact h₁.current.trans hsecond

/-- A declaration changes the current scope, if it is there. -/
theorem declare (m : Machine) (name : String) (value : Value) :
    m.Footprint { m with scopes := m.scopes.declare m.current name value } := by
  have hother {s : Nat} (hs : s ≠ m.current) := m.scopes.scopes_declare_of_ne name value hs
  constructor
  case aside =>
    intro s hs
    -- Where the current scope is none of the forest, a declaration has no effect at all.
    by_cases hcurrent : m.current < m.scopes.size
    · apply hother
      intro heq
      rw [heq] at hs
      exact hs (Forest.mem_chain_self hcurrent)
    · rw [Forest.declare_of_size_le name value (Nat.le_of_not_lt hcurrent)]
  case names => exact fun hs => Forest.names_congr (hother hs)
  case current => exact m.scopes.names_subset_declare ..

/-- What happens in a new scope is confined to the chain of the scope around it: what the new scope
    gets is given up with it. -/
theorem leave (henclosing : enclosing < m.scopes.size) (h : (m.enter enclosing).Footprint m') :
    Confined (m.scopes.chain enclosing) m (m'.leave m) := by
  have hchain : (m.enter enclosing).scopes.chain m.scopes.size = m.scopes.size ::
      m.scopes.chain enclosing := by
    rw [enter, Forest.chain_push_size, if_pos henclosing]
  have hgone {s : Nat} (hs : m.scopes.size ≤ s) : (m'.leave m).scopes.scopes[s]? =
      m.scopes.scopes[s]? := by
    have hsize : (m'.leave m).scopes.size ≤ s := by
      rw [Machine.leave, Forest.size_keep]
      omega
    exact (Array.getElem?_eq_none hsize).trans (Array.getElem?_eq_none hs).symm
  have hkept {s : Nat} (hs : s < m.scopes.size) :
      (m'.leave m).scopes.scopes[s]? = m'.scopes.scopes[s]? ∧
        (m.enter enclosing).scopes.scopes[s]? = m.scopes.scopes[s]? :=
    ⟨Forest.scopes_keep_of_lt hs, Forest.scopes_push_of_lt _ hs⟩
  -- A scope was there before, or it is given up at the end like the new one.
  constructor
  case aside =>
    intro s hs
    obtain hnew | hold := Nat.lt_or_ge s m.scopes.size
    · have hoff : s ∉ (m.enter enclosing).scopes.chain (m.enter enclosing).current := by
        show s ∉ (m.enter enclosing).scopes.chain m.scopes.size
        rw [hchain]
        exact List.not_mem_cons_of_ne_of_not_mem (Nat.ne_of_lt hnew) hs
      rw [(hkept hnew).1, h.aside hoff, (hkept hnew).2]
    · exact hgone hold
  case names =>
    intro s
    obtain hnew | hold := Nat.lt_or_ge s m.scopes.size
    · rw [Forest.names_congr (hkept hnew).1, h.names (Nat.ne_of_lt hnew),
        Forest.names_congr (hkept hnew).2]
    · exact Forest.names_congr (hgone hold)

end Footprint

/-! ## Statements -/

/-- What a program does to a machine of which all chains end at the global scope leaves a footprint
    only. -/
theorem evolution_footprint :
    Evolution fun m m' => m.SamePlace m' ∧ (m.Rooted → m.Footprint m') where
  refl m := ⟨evolution_samePlace.refl m, fun _ => .of_scopes_eq rfl⟩
  trans h₁ h₂ :=
    ⟨evolution_samePlace.trans h₁.1 h₂.1, fun hm => (h₁.2 hm).trans h₁.1 (h₂.2 (h₁.1.rooted hm))⟩
  newArray m elements := ⟨evolution_samePlace.newArray m elements, fun _ => .of_scopes_eq rfl⟩
  newFunction m name params body :=
    ⟨evolution_samePlace.newFunction m name params body, fun _ => .of_scopes_eq rfl⟩
  store m slot value := ⟨evolution_samePlace.store m slot value, fun _ => .of_scopes_eq rfl⟩
  declare m name value := ⟨evolution_samePlace.declare m name value, fun _ => .declare m name value⟩
  assign m name value _ howner :=
    ⟨evolution_samePlace.assign m name value howner, fun _ =>
      (Confined.assign m name value howner).footprint⟩
  scope henclosing h := by
    refine ⟨evolution_samePlace.scope henclosing h.1, fun hm => ?_⟩
    -- What the new scope itself gets is gone afterwards, so nothing is left of the names that were
    -- added.
    have hinside := (h.2 (hm.enter henclosing)).leave (hm.lt_of_enclosing henclosing)
    exact (hinside.mono (hm.chain_enclosing_subset henclosing)).footprint
  printed m line := by
    refine ⟨evolution_samePlace.printed m line, fun _ => .of_scopes_eq ?_⟩
    unfold printed
    split <;> rfl
  readLine m := ⟨evolution_samePlace.readLine m, fun _ => .of_scopes_eq rfl⟩

/-- A run in a new scope is confined to the chain of the scope around it. -/
theorem confined_inNewScope {α : Type} {run : Run α}
    (henclosing : enclosing = m.current ∨ enclosing = globals)
    (hm : m.Rooted) (hrun : (m.enter enclosing).Rooted →
      (m.enter enclosing).Footprint (run.outcome (m.enter enclosing)).2) :
    Confined (m.scopes.chain enclosing) m ((Run.inNewScope enclosing run).outcome m).2 := by
  rw [Run.outcome_inNewScope]
  exact (hrun (hm.enter henclosing)).leave (hm.lt_of_enclosing henclosing)

/-- A block is confined to the chain of the current scope. -/
theorem confined_block (fuel : Nat) (body : List Stmt) (hm : m.Rooted) :
    Confined (m.scopes.chain m.current) m ((execute fuel (.block body)).outcome m).2 := by
  cases fuel with
  | zero =>
    rw [execute]
    exact .of_scopes_eq rfl
  | succ fuel =>
    rw [execute, Run.outcome_bind, Run.outcome_query]
    exact confined_inNewScope (.inl rfl) hm (evolution_footprint.inOrder fuel body _).2

/-- A call of a function is confined to the global scope. -/
theorem confined_callFunction (fuel : Nat) (f : Closure) (args : List Value) (hm : m.Rooted) :
    Confined [globals] m (m.callFunction fuel f args).2 := by
  have hframe := evolution_footprint.compositional.frame
    (evolution_footprint.compositional.execute fuel) f args (m.enter globals)
  rw [callFunction, Closure.invoke_eq, ← hm.chain_globals]
  exact confined_inNewScope (.inr rfl) hm hframe.2

/-! ## Expressions -/

/-- What expressions do, calls aside, is confined to the chain of the current scope. -/
theorem expressionEvolution_confined : ExpressionEvolution fun m m' =>
    m.SamePlace m' ∧ (m.Rooted → Confined (m.scopes.chain m.current) m m') where
  refl m := ⟨evolution_samePlace.refl m, fun _ => .of_scopes_eq rfl⟩
  trans {m₁ m₂ m₃} h₁ h₂ := by
    refine ⟨evolution_samePlace.trans h₁.1 h₂.1, fun hm => ?_⟩
    have hsecond := h₂.2 (h₁.1.rooted hm)
    rw [h₁.1.chain, h₁.1.1] at hsecond
    exact (h₁.2 hm).trans hsecond
  newArray m elements := ⟨evolution_samePlace.newArray m elements, fun _ => .of_scopes_eq rfl⟩
  store m slot value := ⟨evolution_samePlace.store m slot value, fun _ => .of_scopes_eq rfl⟩
  assign m name value _ howner :=
    ⟨evolution_samePlace.assign m name value howner, fun _ => .assign m name value howner⟩

/-- An expression is confined to the chain of the current scope. -/
theorem confined_evaluate (fuel : Nat) (e : Expr) (hm : m.Rooted) :
    Confined (m.scopes.chain m.current) m ((evaluate fuel e).outcome m).2 := by
  refine (expressionEvolution_confined.expressive.evaluate ?_ fuel e m).2 hm
  intro fuel f args m
  -- A function that is called changes the global scope only, and that is on the chain of every
  -- caller.
  exact ⟨evolution_samePlace.callFunction fuel f args m, fun hm =>
    (confined_callFunction fuel f args hm).mono hm.globals_subset_chain⟩

/-! ## Sessions -/

/-- A machine starts in its global scope. -/
theorem rooted_start (input : List UInt8) (device : Device) : (start input device).Rooted where
  current := by
    show globals < (Forest.empty.push none).size
    rw [Forest.size_push]
    exact Nat.succ_pos _
  root {s} hs := by
    obtain rfl : s = 0 := by
      rw [start, Forest.size_push] at hs
      exact Nat.lt_one_iff.1 hs
    rw [Forest.chain_zero hs]
    rfl

/-- A scope that a host opens has the global one around it. -/
theorem Rooted.openScope (locals : List (String × Value)) (hm : m.Rooted) :
    (m.openScope locals).2.Rooted := by
  have hinside : Rooted { m.enter globals with current := m.current } :=
    (hm.enter (.inr rfl)).moveTo (by
      rw [Machine.enter, Forest.size_push]
      exact Nat.lt_succ_of_lt hm.current)
  have hplace : SamePlace { m.enter globals with current := m.current } (m.openScope locals).2 :=
    ⟨rfl, (links_openScope m locals).trans (Forest.links_push ..).symm⟩
  exact hplace.rooted hinside

/-- In all machines that sessions get to, all chains end at the global scope. -/
theorem Reachable.rooted (h : m.Reachable) : m.Rooted :=
  h.induction rooted_start fun fuel _ => (kept_of_samePlace SamePlace.rooted Rooted.openScope).serve
    fuel

/-- **What a program writes to.** All chains of scopes end at the global one, in every machine that
    a session gets to, and they still do when another scope becomes the current one or a new one is
    entered from there. And in such a machine, whatever is carried out or evaluated and however that
    ends: scopes off the chain of the current one keep their bindings, the others on it keep their
    names, and the current one keeps all that it has and gets more only from a statement that is no
    block. A call of a function changes no scope but the global one. -/
theorem execution_footprint :
    (∀ m : Machine, m.Reachable → m.Rooted) ∧
    ∀ m : Machine, m.Rooted →
      (∀ scope, scope < m.scopes.size → Rooted { m with current := scope }) ∧
      (∀ enclosing, enclosing = m.current ∨ enclosing = globals → (m.enter enclosing).Rooted) ∧
      ∀ fuel,
        (∀ s, ((execute fuel s).outcome m).2.Rooted ∧ m.Footprint ((execute fuel s).outcome m).2) ∧
        (∀ body, Confined (m.scopes.chain m.current) m ((execute fuel (.block body)).outcome m).2) ∧
        (∀ e, Confined (m.scopes.chain m.current) m ((evaluate fuel e).outcome m).2) ∧
        ∀ f args, Confined [globals] m (m.callFunction fuel f args).2 := by
  -- Statements may add names to the current scope; blocks, expressions and calls may not.
  refine ⟨fun m => Reachable.rooted, fun m hm =>
    ⟨fun _ => hm.moveTo, fun _ => hm.enter, fun fuel => ⟨?_, ?_, ?_, ?_⟩⟩⟩
  case refine_1 =>
    intro s
    have hexecute := evolution_footprint.execute fuel s m
    exact ⟨hexecute.1.rooted hm, hexecute.2 hm⟩
  case refine_2 => exact fun body => confined_block fuel body hm
  case refine_3 => exact fun e => confined_evaluate fuel e hm
  case refine_4 => exact fun f args => confined_callFunction fuel f args hm

/-- A declaration in a local scope, whose value is that of an assignment to a global: the local
    scope gets the name, and the global one keeps the names that it has. -/
theorem execution_footprint_in_local_scope :
    let session := (start [] .unlimited).serveAll [(0, .declare "x" .null)]
    let m := session.enter globals
    let name (lexeme : String) : Token := .plain .identifier lexeme (.point 0 1)
    let s : Stmt := .declare (name "y") (some (.assign (name "x") (.literal (.bool true))))
    let m' := ((execute 3 s).outcome m).2
    m.Footprint m' ∧ m'.scopes.findIn? "x" globals = some (.bool true) ∧
      m.scopes.findIn? "y" m.current = none ∧
        m'.scopes.findIn? "y" m.current = some (.bool true) := by
  intro session m name s m'
  -- The local scope is entered from a session, which is how a machine gets there.
  have hsession : session.Rooted := execution_footprint.1 session ⟨[], .unlimited, _, rfl⟩
  have hm : m.Rooted := (execution_footprint.2 session hsession).2.1 globals (.inr rfl)
  exact ⟨(((execution_footprint.2 m hm).2.2 3).1 s).2, by with_unfolding_all rfl, rfl,
    by with_unfolding_all rfl⟩

end Machine

end Treewalk
