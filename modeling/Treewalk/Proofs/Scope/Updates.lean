import Treewalk.Proofs.Machine.Outcome
import Treewalk.Proofs.Scope.Links

/-!
# Who sees an update

Many scopes may be inside of one and the same scope, each at the end of a chain of its own. So an
update of one binding is seen from many scopes, but not from those where the name is bound on the
way. Going outward from a scope, one comes to the updated one or to another binding of the name
first (`Forest.Sees`), and this decides what the name stands for.

All forests are layered that are made by adding scopes, declaring names and assigning to them, in
any order (`Forest.Built.layered`). In these a name has the value that an update gives it exactly in
the scopes that see it (`Forest.updates_declare`, `Forest.updates_assign`). The main statement is
`Forest.updates_seen`.
-/

namespace Treewalk.Forest

/-- Forests that are made from nothing by adding scopes, with nothing around them or inside of one
    that is there, by declaring names and by assigning to them. -/
inductive Built : Forest → Prop where
  | empty : Built .empty
  | root {f : Forest} (hf : Built f) : Built (f.push none)
  | nest {f : Forest} {outer : Nat} (hf : Built f) (houter : outer < f.size) :
      Built (f.push (some outer))
  | declare {f : Forest} {scope : Nat} (hf : Built f) (hscope : scope < f.size) (name : String)
      (value : Value) :
      Built (f.declare scope name value)
  | assign {f g : Forest} {scope : Nat} {name : Token} {value : Value} (hf : Built f)
      (hassign : f.assign scope name value = .ok g) : Built g

/-- Going outward from a scope, one comes to another one, and on the way to none that binds the
    name. -/
inductive Sees (f : Forest) (name : String) (s : Nat) : Nat → Prop where
  | here : Sees f name s s
  | outward {t outer : Nat} (hunbound : f.findIn? name t = none) (hinside : f.Inside t outer)
      (h : Sees f name s outer) : Sees f name s t

/-- An update gives a name a value in some scopes. In all others, and for all other names, looking
    up is as before. -/
structure Updates (f g : Forest) (name : String) (value : Value) (sees : Nat → Prop) : Prop where
  seen {t : Nat} {token : Token} (hname : token.lexeme = name) (ht : sees t) :
    g.lookup t token = .ok value
  others {t : Nat} {token : Token} (h : ¬(token.lexeme = name ∧ sees t)) :
    g.lookup t token = f.lookup t token

variable {f g : Forest} {name key : String} {token : Token} {value : Value} {s t outer owner : Nat}

/-! ## Forests that are built -/

/-- Assigning declares the name again in the nearest scope that binds it. -/
theorem assign_eq_ok_iff :
    f.assign s token value = .ok g ↔
      ∃ owner, f.owner? s token.lexeme = some owner ∧ f.declare owner token.lexeme value = g := by
  unfold assign
  cases f.owner? s token.lexeme <;> simp

/-- With the same links, a forest is layered in the same way. -/
theorem Layered.of_links_eq (hf : f.Layered) (h : g.links = f.links) : g.Layered where
  older {inner outer} hinside := hf.older (by rwa [Inside, ← h])

/-- A new scope is younger than all that are there. -/
theorem Layered.push (hf : f.Layered) {enclosing : Option Nat}
    (h : ∀ outer ∈ enclosing, outer < f.size) : (f.push enclosing).Layered where
  older {inner outer} hinside := by
    rw [Inside, links_push] at hinside
    obtain hlt | heq | hgt := Nat.lt_trichotomy inner f.links.length
    · rw [List.getElem?_append_left hlt] at hinside
      exact hf.older hinside
    · -- This is the new scope, whose number is the former size.
      rw [heq, List.getElem?_concat_length] at hinside
      rw [heq, length_links]
      exact h outer (Option.some.inj hinside)
    · rw [List.getElem?_eq_none (by simpa [Nat.succ_le_iff] using hgt)] at hinside
      cases hinside

/-- However a forest is built, its links go to older scopes. -/
theorem Built.layered (hf : f.Built) : f.Layered := by
  induction hf with
  | empty => exact ⟨fun h => nomatch h⟩
  | root hf ih => exact ih.push fun _ h => nomatch h
  | nest hf houter ih =>
    -- A new scope is put into one that is there already, and so into an older one.
    refine ih.push fun outer h => ?_
    cases h
    exact houter
  | declare hf hscope name value ih => exact ih.of_links_eq (links_declare ..)
  | assign hf hassign ih =>
    obtain ⟨owner, -, rfl⟩ := assign_eq_ok_iff.1 hassign
    exact ih.of_links_eq (links_declare ..)

/-! ## The value of a name, from scope to scope -/

/-- In a scope that binds a name, the value is the one bound there. -/
theorem get?_of_bound (h : f.findIn? name s = some value) : f.get? s name = some value := by
  rw [get?_eq_bind, owner?_of_bound (by rw [h, Option.isSome_some]), Option.bind_some, h]

/-- A scope that does not bind a name has the value that its enclosing scope has. -/
theorem Layered.get?_of_inside (hf : f.Layered) (hunbound : f.findIn? name s = none)
    (hinside : f.Inside s outer) : f.get? s name = f.get? outer name := by
  rw [get?_eq_bind, get?_eq_bind, hf.owner?_of_inside hunbound hinside]

/-- A scope without a link that does not bind a name has no value for it. -/
theorem get?_of_last (hunbound : f.findIn? name s = none) (hlast : f.links[s]? = some none) :
    f.get? s name = none := by
  rw [get?_eq_bind, owner?_of_last hunbound hlast, Option.bind_none]

/-- Outside of the forest no name has a value. -/
theorem get?_of_size_le (h : f.size ≤ s) : f.get? s name = none := by
  rw [get?, chain_of_size_le h, List.findSome?_nil]

/-- Where the value of a name is the same, looking it up is. -/
theorem lookup_congr (h : g.get? t token.lexeme = f.get? t token.lexeme) :
    g.lookup t token = f.lookup t token := by
  rw [lookup, lookup, h]

/-! ## Searches that come to a scope -/

/-- A search ends at a scope that binds the name if it comes there and to no binding before. -/
theorem finds_some_iff :
    f.Finds name t (some owner) ↔ f.Sees name owner t ∧ (f.findIn? name owner).isSome := by
  constructor
  · intro h
    -- The induction on the search asks for any result, so that this one is an owner is kept as an
    -- equation.
    generalize hend : some owner = owner? at h
    induction h with
    | here hbound =>
      cases hend
      exact ⟨.here, hbound⟩
    | outward hunbound hinside _ ih =>
      obtain ⟨hsees, hbound⟩ := ih hend
      exact ⟨.outward hunbound hinside hsees, hbound⟩
    | nowhere _ _ => cases hend
  · rintro ⟨hsees, hbound⟩
    induction hsees with
    | here => exact .here hbound
    | outward hunbound hinside _ ih => exact .outward hunbound hinside ih

/-- A scope that is seen is around the scope that it is seen from. -/
theorem Sees.around (h : f.Sees name s t) : Relation.ReflTransGen f.Inside t s := by
  induction h with
  | here => exact .refl
  | outward _ hinside _ ih => exact .head hinside ih

/-- If some scope around binds a name, a search for the name finds one. -/
theorem Layered.isSome_owner? (hf : f.Layered) (haround : Relation.ReflTransGen f.Inside s owner)
    (hbound : (f.findIn? name owner).isSome) : (f.owner? s name).isSome := by
  induction haround using Relation.ReflTransGen.head_induction_on with
  | refl => rw [owner?_of_bound hbound, Option.isSome_some]
  | @head s outer hinside _ ih =>
    cases hs : f.findIn? name s with
    | some value => rw [owner?_of_bound (by rw [hs, Option.isSome_some]), Option.isSome_some]
    | none => rwa [hf.owner?_of_inside hs hinside]

/-- Assigning succeeds exactly if some scope around binds the name. -/
theorem Layered.exists_assign_iff (hf : f.Layered) (hs : s < f.size) :
    (∃ g, f.assign s token value = .ok g) ↔
      ∃ r, Relation.ReflTransGen f.Inside s r ∧ (f.findIn? token.lexeme r).isSome := by
  constructor
  · rintro ⟨g, hassign⟩
    obtain ⟨owner, howner, -⟩ := assign_eq_ok_iff.1 hassign
    obtain ⟨hsees, hbound⟩ := finds_some_iff.1 (howner ▸ hf.finds_owner? hs)
    exact ⟨owner, hsees.around, hbound⟩
  · rintro ⟨r, haround, hbound⟩
    obtain ⟨owner, howner⟩ := Option.isSome_iff_exists.1 (hf.isSome_owner? haround hbound)
    exact ⟨_, assign_eq_ok_iff.2 ⟨owner, howner, rfl⟩⟩

/-! ## Declaring -/

/-- Where the scope that a name is declared in is seen, the name has the new value. -/
theorem Layered.get?_declare_of_sees (hf : f.Layered) (hs : s < f.size) (h : f.Sees name s t) :
    (f.declare s name value).get? t name = some value := by
  have hself : (f.declare s name value).findIn? name s = some value := by
    rw [findIn?_declare f hs, if_pos ⟨rfl, rfl⟩]
  induction h with
  | here => exact get?_of_bound hself
  | @outward t outer hunbound hinside _ ih =>
    -- Before, nothing was bound here. If this is the updated scope itself, the new binding is.
    by_cases hts : t = s
    · rw [hts]
      exact get?_of_bound hself
    · have hunbound' : (f.declare s name value).findIn? name t = none := by
        rw [findIn?_declare f hs, if_neg fun h => hts h.1, hunbound]
      have hinside' : (f.declare s name value).Inside t outer := by rwa [Inside, links_declare]
      rw [(hf.of_links_eq (links_declare ..)).get?_of_inside hunbound' hinside']
      exact ih

/-- Where another binding comes first, or none at all, the name has the old value. -/
theorem Layered.get?_declare_of_not_sees (hf : f.Layered) (hs : s < f.size)
    (h : ¬ f.Sees name s t) : (f.declare s name value).get? t name = f.get? t name := by
  -- On the way outward, as the scopes around are older.
  induction t using Nat.strongRecOn with
  | ind t ih =>
    have hts : t ≠ s := fun hts => h (hts ▸ .here)
    have hfind : (f.declare s name value).findIn? name t = f.findIn? name t := by
      rw [findIn?_declare f hs, if_neg fun h => hts h.1]
    have hlinks : (f.declare s name value).links = f.links := links_declare ..
    cases hbinding : f.findIn? name t with
    | some old => rw [get?_of_bound hbinding, get?_of_bound (hfind.trans hbinding)]
    | none =>
      have hunbound := hfind.trans hbinding
      cases hlink : f.links[t]? with
      | none =>
        have hout : f.size ≤ t := length_links f ▸ List.getElem?_eq_none_iff.1 hlink
        rw [get?_of_size_le hout, get?_of_size_le (by rwa [size_declare])]
      | some link =>
        cases link with
        | none => rw [get?_of_last hbinding hlink, get?_of_last hunbound (hlinks ▸ hlink)]
        | some outer =>
          have hinside : (f.declare s name value).Inside t outer := by rwa [Inside, hlinks]
          rw [hf.get?_of_inside hbinding hlink,
            (hf.of_links_eq hlinks).get?_of_inside hunbound hinside]
          exact ih outer (hf.older hlink) fun hsees => h (.outward hbinding hlink hsees)

/-- Declaring a name changes no other one. -/
theorem get?_declare_of_ne (hs : s < f.size) (h : key ≠ name) :
    (f.declare s name value).get? t key = f.get? t key := by
  have hsame : (f.declare s name value).findIn? key = f.findIn? key := by
    funext r
    rw [findIn?_declare f hs, if_neg fun hboth => h hboth.2]
  rw [get?, get?, chain_declare, hsame]

/-- A declaration is seen where its scope is. -/
theorem updates_declare (hf : f.Layered) (hs : s < f.size) (name : String) (value : Value) :
    f.Updates (f.declare s name value) name value (f.Sees name s) where
  seen hname ht := by
    rw [lookup, hname, hf.get?_declare_of_sees hs ht]
  others {t token} h := by
    apply lookup_congr
    by_cases hname : token.lexeme = name
    · rw [hname]
      exact hf.get?_declare_of_not_sees hs fun ht => h ⟨hname, ht⟩
    · exact get?_declare_of_ne hs hname

/-- An assignment is seen where the name has the same nearest scope. -/
theorem updates_assign (hf : f.Layered) (hs : s < f.size)
    (hassign : f.assign s token value = .ok g) :
    f.Updates g token.lexeme value fun t =>
      ∃ owner, f.Finds token.lexeme s (some owner) ∧ f.Finds token.lexeme t (some owner) := by
  obtain ⟨owner, howner, rfl⟩ := assign_eq_ok_iff.1 hassign
  have hfinds : f.Finds token.lexeme s (some owner) := howner ▸ hf.finds_owner? hs
  obtain ⟨-, hbound⟩ := finds_some_iff.1 hfinds
  have hinside : owner < f.size := lt_size_of_isSome_findIn? hbound
  -- The scopes with this nearest binding are those that see it.
  have hsame (t : Nat) : (∃ r, f.Finds token.lexeme s (some r) ∧ f.Finds token.lexeme t (some r)) ↔
      f.Sees token.lexeme owner t := by
    constructor
    · rintro ⟨r, hsr, htr⟩
      obtain rfl : r = owner := Option.some.inj ((hf.eq_owner?_of_finds hsr).trans howner)
      exact (finds_some_iff.1 htr).1
    · exact fun hsees => ⟨owner, hfinds, finds_some_iff.2 ⟨hsees, hbound⟩⟩
  have hupdates := updates_declare hf hinside token.lexeme value
  exact ⟨fun hname ht => hupdates.seen hname ((hsame _).1 ht),
    fun h => hupdates.others fun hboth => h ⟨hboth.1, (hsame _).2 hboth.2⟩⟩

/-! ## Looking up -/

/-- A name has the value that it is bound to in the nearest scope that binds it. -/
theorem Layered.get?_eq_some_iff (hf : f.Layered) :
    f.get? t name = some value ↔ ∃ r, f.Finds name t (some r) ∧ f.findIn? name r = some value := by
  rw [get?_eq_bind, Option.bind_eq_some_iff]
  constructor
  · rintro ⟨r, howner, hvalue⟩
    have ht : t < f.size := by
      refine Nat.lt_of_not_le fun hge => ?_
      rw [owner?, chain_of_size_le hge] at howner
      cases howner
    exact ⟨r, howner ▸ hf.finds_owner? ht, hvalue⟩
  · rintro ⟨r, hfinds, hvalue⟩
    exact ⟨r, (hf.eq_owner?_of_finds hfinds).symm, hvalue⟩

/-- Looking up a name succeeds with its value. -/
theorem lookup_eq_ok_iff : f.lookup t token = .ok value ↔ f.get? t token.lexeme = some value := by
  unfold lookup
  cases f.get? t token.lexeme <;> simp

/-- Looking up a name fails just if it has no value, and then by saying that it is undefined. -/
theorem lookup_eq_error_iff :
    f.lookup t token = .error (undefinedName token) ↔ f.get? t token.lexeme = none := by
  unfold lookup
  cases f.get? t token.lexeme <;> simp

/-- An assignment that fails is at fault for the name, and a machine is then as before. -/
theorem assign_eq_error {error : RuntimeError} (hassign : f.assign s token value = .error error) :
    error = undefinedName token ∧ ∀ m : Machine, m.scopes = f → m.current = s →
      (Run.assign token value).outcome m = (.failed error, m) := by
  unfold assign at hassign
  -- With an owner there is no error, so only the case without one is left.
  cases howner : f.owner? s token.lexeme with
  | some owner =>
    rw [howner] at hassign
    cases hassign
  | none =>
    rw [howner] at hassign
    cases hassign
    refine ⟨rfl, ?_⟩
    rintro m rfl rfl
    rw [Run.outcome_assign, howner]

/-- **Who sees an update.** In all forests that are made by adding scopes, declaring names and
    assigning to them, an assignment succeeds exactly if a scope on the way outward binds the name.
    Then it is seen from the scopes that have the same nearest binding of the name, and from no
    others. If it fails, this is because of the undefined name, at its place, and nothing changes. A
    declaration is seen from the scopes from which one comes to its scope and to no other binding of
    the name before. And to get a name and to look it up is to take the value of its nearest
    binding. -/
theorem updates_seen (hf : f.Built) (hs : s < f.size) (token : Token) (value : Value) :
    ((∃ g, f.assign s token value = .ok g) ↔
      ∃ r, Relation.ReflTransGen f.Inside s r ∧ (f.findIn? token.lexeme r).isSome) ∧
    (∀ g, f.assign s token value = .ok g → f.Updates g token.lexeme value fun t =>
      ∃ r, f.Finds token.lexeme s (some r) ∧ f.Finds token.lexeme t (some r)) ∧
    (∀ error, f.assign s token value = .error error →
      error.span = token.span ∧
        error.fault.message = "Undefined variable '" ++ token.lexeme ++ "'." ∧
        ∀ m : Machine, m.scopes = f → m.current = s →
          (Run.assign token value).outcome m = (.failed error, m)) ∧
    f.Updates (f.declare s token.lexeme value) token.lexeme value (f.Sees token.lexeme s) ∧
    ∀ (t : Nat) (name : Token),
      (f.lookup t name = .error (undefinedName name) ↔ f.get? t name.lexeme = none) ∧
      ∀ v, (f.lookup t name = .ok v ↔ f.get? t name.lexeme = some v) ∧
        (f.get? t name.lexeme = some v ↔
          ∃ r, f.Finds name.lexeme t (some r) ∧ f.findIn? name.lexeme r = some v) := by
  have hlayered := hf.layered
  refine ⟨hlayered.exists_assign_iff hs, fun g =>
    updates_assign hlayered hs, fun error hassign => ?_,
      updates_declare hlayered hs token.lexeme value,
    fun t name => ⟨lookup_eq_error_iff, fun v => ⟨lookup_eq_ok_iff, hlayered.get?_eq_some_iff⟩⟩⟩
  obtain ⟨rfl, hsame⟩ := assign_eq_error hassign
  exact ⟨rfl, rfl, hsame⟩

/-- A name is bound in the outermost scope, and again in one of two scopes inside of it. An
    assignment in the other one is seen from the outermost scope, but not where the name is bound
    again. -/
theorem updates_seen_beside_shadow :
    ∃ f : Forest, f.Built ∧ 1 < f.size ∧ ∃ g,
      f.assign 1 (.plain .identifier "x" ⟨0, 1, 1⟩) (.bool true) = .ok g ∧
        g.lookup 0 (.plain .identifier "x" ⟨0, 1, 1⟩) = .ok (.bool true) ∧
        g.lookup 2 (.plain .identifier "x" ⟨0, 1, 1⟩) = f.lookup 2
          (.plain .identifier "x" ⟨0, 1, 1⟩) := by
  have hbuilt : Built (((((Forest.empty.push none).declare 0 "x" .null).push (some 0)).push
    (some 0)).declare 2 "x"
      (.bool false)) :=
    .declare (.nest (.nest (.declare (.root .empty) (by decide) "x" .null) (by decide)) (by decide))
      (by decide) "x" _
  obtain ⟨-, hassign, -⟩ :=
    updates_seen hbuilt (s := 1) (by decide) (.plain .identifier "x" ⟨0, 1, 1⟩) (.bool true)
  refine ⟨_, hbuilt, by decide, _, assign_eq_ok_iff.2 ⟨0, by decide +kernel, rfl⟩, ?_, ?_⟩
  · refine (hassign _ (assign_eq_ok_iff.2 ⟨0, by decide +kernel, rfl⟩)).seen rfl
      ⟨0, ?_, .here (by decide)⟩
    exact .outward (by rfl) (by rfl) (.here (by decide))
  · refine (hassign _ (assign_eq_ok_iff.2 ⟨0, by decide +kernel, rfl⟩)).others fun h => ?_
    -- The nearest binding is the outermost one from the one scope, and the scope's own one from the
    -- other.
    obtain ⟨-, r, hfirst, hsecond⟩ := h
    have hzero : some r = some 0 :=
      (hbuilt.layered.eq_owner?_of_finds hfirst).trans (by decide +kernel)
    have htwo : some r = some 2 :=
      (hbuilt.layered.eq_owner?_of_finds hsecond).trans (by decide +kernel)
    rw [hzero] at htwo
    cases htwo

end Treewalk.Forest
