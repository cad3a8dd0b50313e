import Mathlib.Data.List.Chain
import Mathlib.Data.List.Nodup
import Treewalk.Proofs.Scope.Chain

/-!
# What is around each scope

The first scope has nothing around it, and each other one has been put into one that was there
before. So who goes outward from a scope, from each to the one around it, comes to the first scope
after finitely many steps and meets no scope twice (`Nested.outward_chain`).

This is the way that a search for a name takes (`Finds`). It always comes to an end, with the
nearest scope that binds the name or behind the first one with none, and looking up and assigning do
what it says (`Nested.answers`).
-/

namespace Treewalk.Forest

variable {f g : Forest} {s outer : Nat}

/-! ## Links -/

/-- What is around each scope, by number. -/
def links (f : Forest) : List (Option Nat) := f.scopes.toList.map Scope.enclosing

/-- A new scope adds its own link behind the others. -/
@[simp] theorem links_push (f : Forest) (enclosing : Option Nat) :
    (f.push enclosing).links = f.links ++ [enclosing] := by
  simp [links, push, Scope.empty]

/-- Declaring a variable changes no link. -/
@[simp] theorem links_declare (f : Forest) (scope : Nat) (name : String) (value : Value) :
    (f.declare scope name value).links = f.links := by
  apply List.ext_getElem?
  intro s
  have henclosing := f.enclosing_declare scope s name value
  simpa only [links, List.getElem?_map, Array.getElem?_toList] using henclosing

/-- There is one link for each scope. -/
theorem length_links (f : Forest) : f.links.length = f.size := by
  rw [links, List.length_map, Array.length_toList, size]

/-- The scopes that are kept keep their links. -/
theorem links_keep (f : Forest) (n : Nat) : (f.keep n).links = f.links.take n := by
  rw [links, links, keep, ← List.map_take]
  simp

/-- The link of a scope is what it is enclosed by. -/
theorem getElem?_links (f : Forest) (s : Nat) : f.links[s]? = f.scopes[s]?.map Scope.enclosing := by
  rw [links, List.getElem?_map, Array.getElem?_toList]

/-- A scope is right inside of another one. -/
def Inside (f : Forest) (inner outer : Nat) : Prop := f.links[inner]? = some (some outer)

/-- What is around a scope is older. -/
structure Layered (f : Forest) : Prop where
  older {inner outer : Nat} (h : f.Inside inner outer) : outer < inner

/-- The chain of a scope starts with the scope. -/
theorem head?_chain (hs : s < f.size) : (f.chain s).head? = some s := by
  rw [chain, Array.getElem?_eq_getElem hs]
  dsimp only
  split
  · split <;> rfl
  · rfl

/-- With nothing around it, a scope is its whole chain. -/
theorem chain_last (h : f.links[s]? = some none) : f.chain s = [s] := by
  rw [getElem?_links] at h
  obtain ⟨scope, hscope, henclosing⟩ := Option.map_eq_some_iff.1 h
  rw [chain, hscope]
  dsimp only
  rw [henclosing]

/-- The chain of a scope goes on with that of the scope around it. -/
theorem Layered.chain_inside (hf : f.Layered) (h : f.Inside s outer) :
    f.chain s = s :: f.chain outer := by
  have hlt := hf.older h
  rw [Inside, getElem?_links] at h
  obtain ⟨scope, hscope, henclosing⟩ := Option.map_eq_some_iff.1 h
  rw [chain, hscope]
  dsimp only
  rw [henclosing]
  exact if_pos hlt

/-! ## Nested scopes -/

/-- The first scope has nothing around it, and each other one has an older one around it. -/
structure Nested (f : Forest) : Prop where
  first : f.links[0]? = some none
  others {s : Nat} (hpos : 0 < s) (hs : s < f.size) : ∃ outer < s, f.Inside s outer

namespace Nested

/-- With the same links, scopes are nested in the same way. -/
theorem of_links_eq (hf : f.Nested) (h : g.links = f.links) : g.Nested where
  first := h ▸ hf.first
  others {s} hpos hs := by
    rw [← length_links, h, length_links] at hs
    obtain ⟨outer, hlt, hinside⟩ := hf.others hpos hs
    exact ⟨outer, hlt, by rwa [Inside, h]⟩

/-- Where scopes are nested, there is the global one. -/
theorem size_pos (hf : f.Nested) : 0 < f.size := by
  rw [← length_links]
  exact (List.getElem?_eq_some_iff.1 hf.first).1

/-- A new scope is put into one that is there. -/
theorem push (hf : f.Nested) (houter : outer < f.size) : (f.push (some outer)).Nested where
  first := by
    rw [links_push, List.getElem?_append_left (length_links f ▸ hf.size_pos)]
    exact hf.first
  others {s} hpos hs := by
    rw [size_push] at hs
    -- An old scope has the link it had, and the new one that to the scope it was put into.
    obtain hold | rfl : s < f.size ∨ s = f.size := by omega
    · obtain ⟨outer', hlt, hinside⟩ := hf.others hpos hold
      refine ⟨outer', hlt, ?_⟩
      rw [Inside, links_push, List.getElem?_append_left (length_links f ▸ hold)]
      exact hinside
    · refine ⟨outer, houter, ?_⟩
      rw [Inside, links_push, ← length_links, List.getElem?_concat_length]

/-- Only the first scope has nothing around it. -/
theorem links_eq_none_iff (hf : f.Nested) (hs : s < f.size) : f.links[s]? = some none ↔ s = 0 := by
  constructor
  · intro hnone
    refine Nat.eq_zero_of_not_pos fun hpos => ?_
    obtain ⟨outer, -, hinside⟩ := hf.others hpos hs
    rw [Inside, hnone] at hinside
    cases hinside
  · rintro rfl
    exact hf.first

/-- In a nested forest every link goes to an older scope. -/
theorem layered (hf : f.Nested) : f.Layered := by
  refine ⟨fun {s outer} h => ?_⟩
  have hs : s < f.size := length_links f ▸ (List.getElem?_eq_some_iff.1 h).1
  -- The first scope has no link, so this is one of the others.
  have hpos : 0 < s := by
    refine Nat.pos_of_ne_zero fun hzero => ?_
    rw [Inside, hzero, hf.first] at h
    cases h
  obtain ⟨outer', hlt, hinside⟩ := hf.others hpos hs
  obtain rfl : outer' = outer := by
    rw [Inside, h] at hinside
    exact (Option.some.inj (Option.some.inj hinside)).symm
  exact hlt

/-- The chain of the global scope is that scope alone. -/
theorem chain_first (hf : f.Nested) : f.chain 0 = [0] := chain_zero hf.size_pos

end Nested

/-! ## Outward -/

/-- No scope on a chain is younger than the one that the chain starts at. -/
theorem le_of_mem_chain {r : Nat} (h : r ∈ f.chain s) : r ≤ s := by
  -- A chain goes on with the chain of an older scope, so it holds nothing that is newer.
  induction s using Nat.strongRecOn with
  | ind s ih =>
    rw [chain] at h
    split at h
    · split at h
      · split at h
        · next outer _ hlt =>
          obtain rfl | h := List.mem_cons.1 h
          · exact Nat.le_refl _
          · exact (ih outer hlt h).trans hlt.le
        · exact (List.mem_singleton.1 h).le
      · exact (List.mem_singleton.1 h).le
    · exact absurd h List.not_mem_nil

/-- The scopes that one meets going outward from a scope to the first one, none of them twice. -/
structure Outward (f : Forest) (s : Nat) (path : List Nat) : Prop where
  head : path.head? = some s
  steps : path.IsChain f.Inside
  last : path.getLast? = some 0
  nodup : path.Nodup

/-- One step outward, and then on. -/
theorem Outward.cons {path : List Nat} (h : f.Outward outer path) (hinside : f.Inside s outer)
    (hs : s ∉ path) : f.Outward s (s :: path) where
  head := rfl
  steps := h.steps.cons fun r hr => by
    obtain rfl := Option.some.inj (h.head.symm.trans hr)
    exact hinside
  last := by rw [List.getLast?_cons, h.last, Option.getD_some]
  nodup := List.nodup_cons.2 ⟨hs, h.nodup⟩

/-- Going outward from a scope leads to the first one. -/
theorem Nested.outward_chain (hf : f.Nested) (hs : s < f.size) : f.Outward s (f.chain s) := by
  induction s using Nat.strongRecOn with
  | ind s ih =>
    obtain rfl | hpos := Nat.eq_zero_or_pos s
    · rw [hf.chain_first]
      exact ⟨rfl, .singleton 0, rfl, List.nodup_singleton 0⟩
    · -- The scope around is older. So it leads on, and the way from there does not come back.
      obtain ⟨outer, hlt, hinside⟩ := hf.others hpos hs
      rw [hf.layered.chain_inside hinside]
      exact (ih outer hlt (hlt.trans hs)).cons hinside fun hmem => hlt.not_ge (le_of_mem_chain hmem)

/-! ## Searches -/

/-- A search for a name outward from a scope, from each scope that does not bind it to the one
    around it. -/
inductive Finds (f : Forest) (name : String) : Nat → Option Nat → Prop where
  | here {s : Nat} (hbound : (f.findIn? name s).isSome) : Finds f name s (some s)
  | outward {s outer : Nat} {owner? : Option Nat} (hunbound : f.findIn? name s = none)
      (hinside : f.Inside s outer) (h : Finds f name outer owner?) : Finds f name s owner?
  | nowhere {s : Nat} (hunbound : f.findIn? name s = none) (hlast : f.links[s]? = some none) :
      Finds f name s none

section

variable {name : String}

/-- A scope that binds a name is its owner as seen from there. -/
theorem owner?_of_bound (hbound : (f.findIn? name s).isSome) : f.owner? s name = some s := by
  obtain ⟨rest, hchain⟩ := List.head?_eq_some_iff.1 (head?_chain (lt_size_of_isSome_findIn? hbound))
  rw [owner?, hchain]
  exact List.find?_cons_of_pos hbound

/-- A scope without a link that does not bind a name has no owner for it. -/
theorem owner?_of_last (hunbound : f.findIn? name s = none) (hlast : f.links[s]? = some none) :
    f.owner? s name = none := by
  rw [owner?, chain_last hlast]
  exact List.find?_cons_of_neg (by simp [hunbound])

namespace Layered

/-- A scope that does not bind a name sees the owner that its enclosing scope sees. -/
theorem owner?_of_inside (hf : f.Layered) (hunbound : f.findIn? name s = none)
    (hinside : f.Inside s outer) : f.owner? s name = f.owner? outer name := by
  rw [owner?, hf.chain_inside hinside]
  exact List.find?_cons_of_neg (by simp [hunbound])

/-- A search comes to an end. -/
theorem finds_owner? (hf : f.Layered) (hs : s < f.size) : f.Finds name s (f.owner? s name) := by
  -- The search stops at a scope that binds the name, or at one without a link, and otherwise goes
  -- on in an older scope.
  induction s using Nat.strongRecOn with
  | ind s ih =>
    cases hbinding : f.findIn? name s with
    | some value =>
      have hbound : (f.findIn? name s).isSome := by rw [hbinding, Option.isSome_some]
      rw [owner?_of_bound hbound]
      exact .here hbound
    | none =>
      obtain ⟨link, hlink⟩ : ∃ link, f.links[s]? = some link := by
        rw [← length_links] at hs
        exact ⟨_, List.getElem?_eq_getElem hs⟩
      cases link with
      | none =>
        rw [owner?_of_last hbinding hlink]
        exact .nowhere hbinding hlink
      | some outer =>
        have hlt := hf.older hlink
        rw [hf.owner?_of_inside hbinding hlink]
        exact .outward hbinding hlink (ih outer hlt (hlt.trans hs))

/-- A search comes to only one end. -/
theorem eq_owner?_of_finds (hf : f.Layered) {owner? : Option Nat} (h : f.Finds name s owner?) :
    owner? = f.owner? s name := by
  induction h with
  | here hbound => exact (owner?_of_bound hbound).symm
  | outward hunbound hinside _ ih =>
    rw [hf.owner?_of_inside hunbound hinside]
    exact ih
  | nowhere hunbound hlast => exact (owner?_of_last hunbound hlast).symm

end Layered

/-- The value of the nearest binding is the one in the nearest scope with a binding. -/
theorem get?_eq_bind (f : Forest) (s : Nat) (name : String) :
    f.get? s name = (f.owner? s name).bind (f.findIn? name) := by
  rw [get?, owner?]
  induction f.chain s with
  | nil => rfl
  | cons r chain ih =>
    rw [List.findSome?_cons]
    cases hbinding : f.findIn? name r with
    | some value => rw [List.find?_cons_of_pos (by simp [hbinding]), Option.bind_some, hbinding]
    | none => rw [List.find?_cons_of_neg (by simp [hbinding]), ih]

end

/-- What it comes to to look for a name from a scope: either there is a nearest scope that binds the
    name, and then looking up gives the value and assigning changes it, or no scope on the way binds
    the name, and then both fail. -/
inductive Answers (f : Forest) (s : Nat) (name : Token) (value : Value) : Prop where
  | bound {owner : Nat} {old : Value} (hfinds : f.Finds name.lexeme s (some owner))
      (hold : f.findIn? name.lexeme owner = some old) (hget : f.get? s name.lexeme = some old)
      (hlookup : f.lookup s name = .ok old)
      (hassign : f.assign s name value = .ok (f.declare owner name.lexeme value))
  | unbound (hfinds : f.Finds name.lexeme s none) (hget : f.get? s name.lexeme = none)
      (hlookup : f.lookup s name = .error (undefinedName name))
      (hassign : f.assign s name value = .error (undefinedName name))

/-- From every scope, a search for a name comes to one end, and getting, looking up and assigning
    the name do what is to be done there. -/
theorem Nested.answers (hf : f.Nested) (hs : s < f.size) (name : Token) (value : Value) :
    f.Answers s name value ∧ ∀ owner? owner?', f.Finds name.lexeme s owner? →
      f.Finds name.lexeme s owner?' →
      owner? = owner?' := by
  refine ⟨?_, fun owner? owner?' h h' => ?_⟩
  -- There is one answer only, since the search that `owner?` makes has it, and finds just what
  -- `Finds` says.
  swap
  · rw [hf.layered.eq_owner?_of_finds h, hf.layered.eq_owner?_of_finds h']
  have hfinds : f.Finds name.lexeme s (f.owner? s name.lexeme) := hf.layered.finds_owner? hs
  have hget := f.get?_eq_bind s name.lexeme
  cases howner : f.owner? s name.lexeme with
  | some owner =>
    have hbound := List.find?_some (p := fun s => (f.findIn? name.lexeme s).isSome) howner
    obtain ⟨old, hold⟩ := Option.isSome_iff_exists.1 hbound
    rw [howner] at hfinds hget
    rw [Option.bind_some, hold] at hget
    refine .bound hfinds hold hget ?_ ?_
    · rw [lookup, hget]
    · rw [assign, howner]
  | none =>
    rw [howner] at hfinds hget
    rw [Option.bind_none] at hget
    refine .unbound hfinds hget ?_ ?_
    · rw [lookup, hget]
    · rw [assign, howner]

end Treewalk.Forest
