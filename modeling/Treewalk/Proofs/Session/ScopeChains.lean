import Treewalk.Proofs.Evaluation.Trace
import Treewalk.Proofs.Session.Restoration

/-!
# Scopes lead to the global one

A block makes its scope inside of the current one. A call makes its scope inside of the global one,
wherever the caller is, and the scopes of the caller wait until it is back. A host makes scopes
inside of those that are there. A `Machine.Session` has all machines that there are on the way,
those in the middle of evaluation included, and each of them is `Machine.Grounded`: its scopes are
nested in the global one, and the current one is there.

A run that comes back is at the place where it has started (`Run.Trace.samePlace`), so the scopes
that wait are still there, with the same ones around them. From each moment to the next, scopes are
only added or given up at the young end (`Machine.KeepsLinks`), so what is around a scope does not
change while the scope is there. All this together is `Machine.scopes_lead_to_globals`.
-/

namespace List.IsChain

variable {α : Type} {r : α → α → Prop} {l : List α} {a first last b : α}

/-- A chain goes on with an element that is related to its last one. -/
theorem concat (h : l.IsChain r) (hlast : l.getLast? = some last) (hb : r last b) :
    (l ++ [b]).IsChain r := by
  refine List.isChain_append.2 ⟨h, .singleton b, fun x hx y hy => ?_⟩
  rw [hlast] at hx
  cases hx
  cases hy
  exact hb

/-- A chain may be put between two elements that are related to its ends. -/
theorem between (h : l.IsChain r) (hfirst : l.head? = some first) (hlast : l.getLast? = some last)
    (ha : r a first) (hb : r last b) : (a :: l ++ [b]).IsChain r := by
  refine concat (h.cons fun x hx => ?_) ?_ hb
  · rw [hfirst] at hx
    cases hx
    exact ha
  · rw [List.getLast?_cons, hlast, Option.getD_some]

end List.IsChain

namespace Treewalk

namespace Machine

variable {m m' : Machine} {α : Type} {run : Run α} {states : List Machine}

/-! ## Moments -/

/-- The scopes are nested in the global one, and the current one is among them. -/
structure Grounded (m : Machine) : Prop where
  nested : m.scopes.Nested
  current : m.current < m.scopes.size

/-- Scopes may be made, or the youngest ones given up. What is around a scope that is there before
    and after does not change. -/
def KeepsLinks (m m' : Machine) : Prop :=
  m.scopes.links <+: m'.scopes.links ∨ m'.scopes.links <+: m.scopes.links

/-- Where the links are the same, they are kept. -/
theorem KeepsLinks.of_links_eq (h : m'.scopes.links = m.scopes.links) : m.KeepsLinks m' :=
  .inl (h ▸ List.prefix_refl _)

/-- In the same place there are as many scopes. -/
theorem SamePlace.size_scopes (h : m.SamePlace m') : m'.scopes.size = m.scopes.size := by
  rw [← Forest.length_links, h.2, Forest.length_links]

/-- In the same place a machine is as grounded. -/
theorem Grounded.of_samePlace (hm : m.Grounded) (h : m.SamePlace m') : m'.Grounded where
  nested := hm.nested.of_links_eq h.2
  current := by
    rw [h.1, h.size_scopes]
    exact hm.current

/-- A machine starts with the global scope alone. -/
theorem grounded_start (input : List UInt8) (device : Device) : (start input device).Grounded where
  nested :=
    { first := rfl
      others := fun hpos hs => absurd hs (Nat.not_lt_of_le hpos) }
  current := Nat.one_pos

/-- A single thing that a run does leaves the machine at the same place. -/
theorem samePlace_of_primitive (h : run.Primitive) (m : Machine) :
    m.SamePlace (run.outcome m).2 := by
  -- Only three of them touch the scopes, and they change what is bound, not how scopes are linked.
  cases h with
  | pure a => exact evolution_samePlace.refl m
  | stop reason => cases reason <;> exact evolution_samePlace.refl m
  | query f => exact evolution_samePlace.refl m
  | onHeap span f =>
    rw [Run.outcome_onHeap]
    split <;> exact evolution_samePlace.refl m
  | allocate f => exact ⟨rfl, rfl⟩
  | store slot value => exact evolution_samePlace.store m slot value
  | lookup name =>
    rw [Run.outcome_lookup]
    split <;> exact evolution_samePlace.refl m
  | declare name value => exact evolution_samePlace.declare m name value
  | assign name value =>
    rw [Run.outcome_assign]
    split
    · next owner howner => exact evolution_samePlace.assign m name.lexeme value howner
    · exact evolution_samePlace.refl m
  | print keyword line =>
    rw [Run.outcome_print]
    exact evolution_samePlace.printed m line
  | readLine => exact evolution_samePlace.readLine m

end Machine

namespace Run.Trace

open Machine

variable {m : Machine} {α : Type} {run : Run α} {states : List Machine}

/-- A run with a trace leaves the machine at the same place. -/
theorem samePlace (h : Trace run m states) : m.SamePlace (run.outcome m).2 := by
  induction h with
  | primitive hrun m => exact samePlace_of_primitive hrun m
  | next _ hdone _ hfirst hlater =>
    rw [hdone] at hfirst
    rw [outcome_bind, hdone]
    exact evolution_samePlace.trans hfirst hlater
  -- A run that stops leaves the machine of its first part, where its scopes have been left by now.
  | @stopped _ _ run _ m _ _ hstopped hfirst =>
    rw [outcome_bind]
    cases hout : run.outcome m with
    | mk outcome m' =>
      rw [hout] at hfirst
      cases outcome with
      | done a => exact absurd (congrArg Prod.fst hout) (hstopped a)
      | failed error => exact hfirst
      | unfinished => exact hfirst
  | inScope _ _ hinside =>
    rw [outcome_inScope]
    exact ⟨rfl, hinside.2⟩
  | @inNewScope _ run m enclosing _ henclosing _ hinside =>
    rw [outcome_inScope] at hinside
    rw [outcome_inNewScope]
    exact ⟨rfl, links_leave hinside.2⟩

/-- At every moment of a run, the scopes are nested in the global one. -/
theorem grounded (h : Trace run m states) (hm : m.Grounded) : ∀ m' ∈ states, m'.Grounded := by
  induction h with
  | primitive hrun m =>
    refine List.forall_mem_cons.2 ⟨hm, List.forall_mem_singleton.2 ?_⟩
    exact hm.of_samePlace (samePlace_of_primitive hrun m)
  | next hrun hdone _ hfirst hlater =>
    have hplace := hrun.samePlace
    rw [hdone] at hplace
    exact List.forall_mem_append.2 ⟨hfirst hm, hlater (hm.of_samePlace hplace)⟩
  | stopped _ _ hfirst => exact hfirst hm
  | inScope hscope hrun hinside =>
    have hplace := (Trace.inScope hscope hrun).samePlace
    refine List.forall_mem_append.2 ⟨List.forall_mem_cons.2 ⟨hm, hinside ⟨hm.nested, hscope⟩⟩, ?_⟩
    exact List.forall_mem_singleton.2 (hm.of_samePlace hplace)
  | @inNewScope _ _ m enclosing _ henclosing hrun hinside =>
    have hplace := (Trace.inNewScope henclosing hrun).samePlace
    -- A scope is made inside of the current one or of the global one, both of which are there.
    have houter : enclosing < m.scopes.size := by
      obtain rfl | rfl := henclosing
      · exact hm.current
      · exact hm.nested.size_pos
    have hpushed : Grounded { m with scopes := m.scopes.push (some enclosing) } :=
      ⟨hm.nested.push houter, by
        rw [Forest.size_push]
        exact Nat.lt_succ_of_lt hm.current⟩
    refine List.forall_mem_append.2 ⟨List.forall_mem_cons.2 ⟨hm, hinside hpushed⟩, ?_⟩
    exact List.forall_mem_singleton.2 (hm.of_samePlace hplace)

/-- From one moment of a run to the next, links are kept. -/
theorem keepsLinks (h : Trace run m states) : states.IsChain KeepsLinks := by
  induction h with
  | primitive hrun m =>
    exact .cons_cons (.of_links_eq (samePlace_of_primitive hrun m).2) (.singleton _)
  | @next _ _ _ _ _ m' _ _ _ hrun hdone hnext hfirst hlater =>
    refine List.isChain_append.2 ⟨hfirst, hlater, fun x hx y hy => ?_⟩
    -- The last machine of the one run is the first one of the other.
    rw [hrun.getLast?, hdone] at hx
    rw [hnext.head?] at hy
    cases hx
    cases hy
    exact .of_links_eq rfl
  | stopped _ _ hfirst => exact hfirst
  | inScope hscope hrun hinside =>
    refine hinside.between hrun.head? hrun.getLast? (.of_links_eq rfl) ?_
    rw [outcome_inScope]
    exact .of_links_eq rfl
  | @inNewScope _ run m enclosing _ henclosing hrun hinside =>
    have hplace := hrun.samePlace.2
    -- One scope more at the front of the run inside, and one less behind it.
    refine hinside.between hrun.head? hrun.getLast? (.inl ?_) (.inr ?_)
    · rw [Forest.links_push]
      exact List.prefix_append ..
    · rw [(Trace.inNewScope henclosing hrun).samePlace.2, hplace, Forest.links_push]
      exact List.prefix_append ..

end Run.Trace

namespace Machine

variable {m : Machine} {α : Type} {states : List Machine}

/-- If links are kept from each moment to the next, then what is around a scope is the same at all
    moments from one to another, provided that the scope is there all the time. -/
theorem links_eq_of_isChain (h : states.IsChain KeepsLinks) {i j s : Nat} (hij : i ≤ j)
    (hj : j < states.length)
    (hthere : ∀ k (hk : k < states.length), i ≤ k → k ≤ j → s < states[k].scopes.size) :
    states[i].scopes.links[s]? = states[j].scopes.links[s]? := by
  -- From one moment to the next scopes are added or dropped at the end, and this one stays.
  induction j, hij using Nat.le_induction with
  | base => rfl
  | succ j hij ih =>
    have hkept := List.isChain_iff_getElem.1 h j hj
    have hbefore := hthere j (Nat.lt_of_succ_lt hj) hij (Nat.le_succ j)
    have hafter := hthere (j + 1) hj (Nat.le_succ_of_le hij) (Nat.le_refl _)
    rw [ih (Nat.lt_of_succ_lt hj) fun k hk hik hkj => hthere k hk hik (Nat.le_succ_of_le hkj)]
    rw [← Forest.length_links] at hbefore hafter
    obtain ⟨more, hmore⟩ | ⟨more, hmore⟩ := hkept
    · rw [← hmore, List.getElem?_append_left hbefore]
    · rw [← hmore, List.getElem?_append_left hafter]

/-! ## Sessions -/

/-- A session goes through these machines one after the other, up to the last one. In between, the
    host may make a scope inside of one that is there, bind a name in a scope, and do whatever
    leaves scopes alone. -/
inductive Session : List Machine → Machine → Prop where
  | start (input : List UInt8) (device : Device) : Session [start input device] (start input device)
  | run {states states' : List Machine} {m : Machine} {α : Type} {run : Run α}
      (h : Session states m)
      (hrun : m.Offers run) (htrace : run.Trace m states') :
      Session (states ++ states') (run.outcome m).2
  | openScope {states : List Machine} {m : Machine} {outer : Nat} (h : Session states m)
      (houter : outer < m.scopes.size) :
      Session (states ++ [{ m with scopes := m.scopes.push (some outer) }])
        { m with scopes := m.scopes.push (some outer) }
  | declare {states : List Machine} {m : Machine} (h : Session states m) (scope : Nat)
      (name : String) (value : Value) :
      Session (states ++ [{ m with scopes := m.scopes.declare scope name value }])
        { m with scopes := m.scopes.declare scope name value }
  | aside {states : List Machine} {m m' : Machine} (h : Session states m)
      (hscopes : m'.scopes = m.scopes)
      (hcurrent : m'.current = m.current) : Session (states ++ [m']) m'

/-- Whatever a host can have a machine do has a trace. -/
theorem exists_trace_of_offers {run : Run α} (h : m.Offers run) : ∃ states, run.Trace m states :=
  h.of_compositional Run.compositional_trace fun hscope htrace =>
    htrace.imp' _ fun _ hstates => .inScope hscope hstates

namespace Session

/-- The last machine of a session is the one it has come to. -/
theorem getLast? (h : Session states m) : states.getLast? = some m := by
  cases h with
  | start input device => rfl
  | run h _ htrace => rw [List.getLast?_append, htrace.getLast?, Option.some_or]
  | openScope h _ => exact List.getLast?_concat ..
  | declare h scope name value => exact List.getLast?_concat ..
  | aside h _ _ => exact List.getLast?_concat ..

/-- At every moment of a session, the scopes are nested in the global one. -/
theorem grounded (h : Session states m) : ∀ m' ∈ states, m'.Grounded := by
  induction h with
  | start input device => exact List.forall_mem_singleton.2 (grounded_start input device)
  | run h _ htrace ih =>
    exact List.forall_mem_append.2 ⟨ih, htrace.grounded (ih _ (List.mem_of_getLast? h.getLast?))⟩
  -- The scopes that a host makes are put into scopes that are there, as those of a run are.
  | openScope h houter ih =>
    have hm := ih _ (List.mem_of_getLast? h.getLast?)
    refine List.forall_mem_append.2 ⟨ih, List.forall_mem_singleton.2 ⟨hm.nested.push houter, ?_⟩⟩
    rw [Forest.size_push]
    exact Nat.lt_succ_of_lt hm.current
  | declare h scope name value ih =>
    have hm := ih _ (List.mem_of_getLast? h.getLast?)
    refine List.forall_mem_append.2 ⟨ih, List.forall_mem_singleton.2 (hm.of_samePlace ⟨rfl, ?_⟩)⟩
    exact Forest.links_declare ..
  | aside h hscopes hcurrent ih =>
    have hm := ih _ (List.mem_of_getLast? h.getLast?)
    refine List.forall_mem_append.2 ⟨ih,
      List.forall_mem_singleton.2 (hm.of_samePlace ⟨hcurrent, ?_⟩)⟩
    rw [hscopes]

/-- From one moment of a session to the next, links are kept. -/
theorem keepsLinks (h : Session states m) : states.IsChain KeepsLinks := by
  induction h with
  | start input device => exact .singleton _
  | @run states states' m _ _ h _ htrace ih =>
    refine List.isChain_append.2 ⟨ih, htrace.keepsLinks, fun x hx y hy => ?_⟩
    -- A run starts on the machine that the session has come to.
    rw [h.getLast?] at hx
    rw [htrace.head?] at hy
    cases hx
    cases hy
    exact .of_links_eq rfl
  | @openScope states m outer h houter ih =>
    refine ih.concat h.getLast? (.inl ?_)
    rw [Forest.links_push]
    exact List.prefix_append ..
  | declare h scope name value ih =>
    exact ih.concat h.getLast? (.of_links_eq (Forest.links_declare ..))
  | aside h hscopes _ ih => exact ih.concat h.getLast? (.of_links_eq (by rw [hscopes]))

end Session

/-! ## Requests -/

/-- Some session comes to the machine. -/
def InSession (m : Machine) : Prop := ∃ states, Session states m

namespace InSession

/-- In a session every machine is grounded. -/
theorem grounded (hm : m.InSession) : m.Grounded := by
  obtain ⟨states, h⟩ := hm
  exact h.grounded m (List.mem_of_getLast? h.getLast?)

/-- A run that is offered goes on with the session. -/
theorem run (hm : m.InSession) {run : Run α} (hrun : m.Offers run) :
    (run.outcome m).2.InSession := by
  obtain ⟨states, h⟩ := hm
  obtain ⟨states', htrace⟩ := exists_trace_of_offers hrun
  exact ⟨_, h.run hrun htrace⟩

/-- What leaves the scopes alone goes on with the session. -/
theorem aside (hm : m.InSession) {m' : Machine} (hscopes : m'.scopes = m.scopes)
    (hcurrent : m'.current = m.current) : m'.InSession := by
  obtain ⟨states, h⟩ := hm
  exact ⟨_, h.aside hscopes hcurrent⟩

/-- Declaring a variable in any scope goes on with the session. -/
theorem declare (hm : m.InSession) (scope : Nat) (name : String) (value : Value) :
    InSession { m with scopes := m.scopes.declare scope name value } := by
  obtain ⟨states, h⟩ := hm
  exact ⟨_, h.declare scope name value⟩

/-- Making a scope with some bindings is making a scope, and then binding the names one by one. -/
theorem openScope (hm : m.InSession) (locals : List (String × Value)) :
    (m.openScope locals).2.InSession := by
  have hbind (scope : Nat) (locals : List (String × Value)) {m : Machine} (hm : m.InSession) :
      InSession
        { m with scopes := locals.foldl (fun f l => f.declare scope l.1 l.2) m.scopes } := by
    induction locals generalizing m with
    | nil => exact hm
    | cons l locals ih => exact ih (hm.declare scope l.1 l.2)
  have hpos := hm.grounded.nested.size_pos
  obtain ⟨states, h⟩ := hm
  exact hbind m.scopes.size locals ⟨_, h.openScope hpos⟩

/-- All that a host does goes on with the session. -/
theorem kept : Kept InSession where
  run hrun hm := hm.run hrun
  data _ hm := hm.aside rfl rfl
  openScope locals hm := hm.openScope locals
  declare name value hm := hm.declare globals name value
  clear hm := hm.aside rfl rfl

end InSession

/-- Every machine that requests lead to is one that a session comes to. -/
theorem Reachable.inSession (h : m.Reachable) : m.InSession :=
  h.induction (fun input device => ⟨_, .start input device⟩) fun fuel _ => InSession.kept.serve fuel

/-! ## Main result -/

/-- **Scopes lead to the global one.** Whatever a host can have a machine do has a trace, and
    requests lead to machines that sessions come to. At every moment of a session, also in the
    middle of evaluation: going outward from any scope leads to the global one, without coming to a
    scope twice, and only the global one has nothing around it. So from every scope, a search for a
    name comes to an end, and to only one, and getting, looking up and assigning do what there is to
    do there. And what is around a scope is the same at any two moments between which the scope is
    there. -/
theorem scopes_lead_to_globals :
    (∀ (m : Machine) (α : Type) (run : Run α), m.Offers run → ∃ states, run.Trace m states) ∧
    (∀ m : Machine, m.Reachable → ∃ states, Session states m) ∧
    ∀ states m, Session states m →
      (∀ m' ∈ states, m'.current < m'.scopes.size ∧ ∀ s, s < m'.scopes.size →
        (∃ path, m'.scopes.Outward s path ∧ path.getLast? = some globals) ∧
        (m'.scopes.links[s]? = some none ↔ s = globals) ∧
        ∀ (name : Token) (value : Value), m'.scopes.Answers s name value ∧
          ∀ owner? owner?', m'.scopes.Finds name.lexeme s owner? →
            m'.scopes.Finds name.lexeme s owner?' →
            owner? = owner?') ∧
      ∀ i j s (_ : i ≤ j) (hj : j < states.length),
        (∀ k (hk : k < states.length), i ≤ k → k ≤ j → s < states[k].scopes.size) →
        states[i].scopes.links[s]? = states[j].scopes.links[s]? := by
  refine ⟨fun m α run => exists_trace_of_offers, fun m => Reachable.inSession, fun states m h =>
    ⟨?_, ?_⟩⟩
  · intro m' hm'
    obtain ⟨hnested, hcurrent⟩ := h.grounded m' hm'
    refine ⟨hcurrent, fun s hs => ?_⟩
    have hout := hnested.outward_chain hs
    exact ⟨⟨_, hout, hout.last⟩, hnested.links_eq_none_iff hs, hnested.answers hs⟩
  · exact fun i j s hij hj => links_eq_of_isChain h.keepsLinks hij hj

/-- A host makes a scope and calls a function that consists of an empty block. In this block, four
    scopes are there: the global one, that of the host, that of the call and that of the block. -/
theorem scopes_lead_to_globals_in_block_of_call :
    ∃ states m, Session states m ∧ ∃ m' ∈ states, m'.scopes.links = [none, some 0, some 0, some 2] ∧
      m'.current = 3 ∧ ∃ path, m'.scopes.Outward 3 path := by
  let host : Machine :=
    { start [] .unlimited with scopes := (start [] .unlimited).scopes.push (some 0) }
  let frame := host.enter globals
  let block := frame.enter frame.current
  let f : Closure := ⟨0, .plain .identifier "f" (.point 0 1), [], [.block []]⟩
  -- The trace is put together from inside: the empty body, the block around it, and the call around
  -- that.
  have hempty : Run.Trace (inOrder (execute 0) []) block [block, block] :=
    .primitive (.pure Flow.normal) block
  have hblock : ∃ states, (execute 1 (.block [])).Trace frame states ∧ block ∈ states := by
    rw [execute]
    refine ⟨_, .next (.primitive (.query _) frame) rfl
      (.inNewScope (.inl rfl) (.inScope ?_ hempty)), ?_⟩
    · decide
    · simp
  obtain ⟨inside, htrace, hinside⟩ := hblock
  have hcall : ∃ states, (f.invoke (execute 1) []).Trace host states ∧ block ∈ states := by
    have hbody : Run.Trace (inOrder (execute 1) [.block []]) frame (inside ++ [_, _]) :=
      .next htrace rfl (.primitive (.pure Flow.normal) _)
    refine ⟨_, .inNewScope (.inr rfl) (.inScope ?_ (.next (.primitive (.pure ()) frame) rfl
      (.next hbody rfl (.primitive (.pure Value.null) _)))), ?_⟩
    · decide
    · simp [hinside]
  obtain ⟨states, hstates, hmem⟩ := hcall
  have hopened := @Session.openScope _ _ globals (.start [] .unlimited) Nat.one_pos
  have hsession := hopened.run (.call 1 f []) hstates
  have hall := (scopes_lead_to_globals.2.2 _ _ hsession).1 block (List.mem_append_right _ hmem)
  obtain ⟨path, hpath, -⟩ := (hall.2 3 (by decide)).1
  exact ⟨_, _, hsession, block, List.mem_append_right _ hmem, rfl, rfl, path, hpath⟩

end Machine

end Treewalk
