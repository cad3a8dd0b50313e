import Treewalk.Proofs.Evaluation.Steps
import Treewalk.Proofs.Input.Encoding
import Treewalk.Proofs.Scope.Links
import Treewalk.Proofs.Session.Serving

/-!
# What read statements do

A read statement that has a name to read into takes a line from the input, whatever comes of that
(`Machine.Effect`): the bytes up to the first line break and the line break itself, or all bytes if
there is none (`Input.LineOf`). If it fails, this is all that it has done. If it succeeds, the
nearest binding of the name has another value then, which is what the line stands for. With anything
else to read into it does nothing.

No other step of a run takes anything from the input. So the rest of the input is always what is
behind some of its bytes (`Machine.reads_take_lines`).
-/

namespace Treewalk

namespace Input

/-- The line that some bytes begin with, and what is behind it. -/
inductive LineOf : List UInt8 → List UInt8 → List UInt8 → Prop where
  | ended {content : List UInt8} (h : 10 ∉ content) (rest : List UInt8) :
      LineOf (content ++ 10 :: rest) (content ++ [10]) rest
  | last {line : List UInt8} (h : 10 ∉ line) : LineOf line line []

/-- Without a newline all that is left is the line. -/
theorem nextLine_of_notMem {bytes : List UInt8} (h : 10 ∉ bytes) :
    nextLine bytes = (bytes, []) := by
  induction bytes with
  | nil => rfl
  | cons b bytes ih =>
    obtain ⟨hb, hbytes⟩ := not_or.1 (mt List.mem_cons.2 h)
    rw [nextLine, if_neg (Ne.symm hb), ih hbytes]

/-- What is taken from the input is the line that it begins with. -/
theorem lineOf_nextLine (bytes : List UInt8) :
    LineOf bytes (nextLine bytes).1 (nextLine bytes).2 := by
  by_cases h : 10 ∈ bytes
  · obtain ⟨content, rest, rfl, hcontent⟩ := List.eq_append_cons_of_mem h
    rw [nextLine_append_newline hcontent]
    exact .ended hcontent rest
  · rw [nextLine_of_notMem h]
    exact .last h

/-- What is left behind a line is the end of the input. -/
theorem LineOf.suffix {bytes line rest : List UInt8} (h : LineOf bytes line rest) :
    rest <:+ bytes := by
  cases h with
  | @ended content h rest => exact (List.suffix_cons 10 rest).trans (List.suffix_append content _)
  | last h => exact List.nil_suffix

end Input

namespace Forest

/-- The scope is the nearest one, going outward from another, that binds the name. -/
structure Nearest (f : Forest) (s : Nat) (name : String) (owner : Nat) : Prop where
  bound : (f.findIn? name owner).isSome
  first : ∃ inner outer, f.chain s = inner ++ owner :: outer ∧ ∀ r ∈ inner, f.findIn? name r = none

/-- A scope binds a name to a value. Everything else is as before: its other names, the other
    scopes, and which is inside of which. -/
structure Rebound (f g : Forest) (owner : Nat) (name : String) (value : Value) : Prop where
  binding : g.findIn? name owner = some value
  others {s : Nat} {key : String} (h : ¬(s = owner ∧ key = name)) :
    g.findIn? key s = f.findIn? key s
  links : g.links = f.links

variable {f : Forest} {s owner : Nat} {name : String}

/-- The nearest scope that binds a name is the owner of it. -/
theorem nearest_iff : f.Nearest s name owner ↔ f.owner? s name = some owner := by
  rw [owner?, List.find?_eq_some_iff_append]
  constructor
  · rintro ⟨hbound, inner, outer, hchain, hinner⟩
    exact ⟨hbound, inner, outer, hchain, fun r hr => by simp [hinner r hr]⟩
  · rintro ⟨hbound, inner, outer, hchain, hinner⟩
    exact ⟨hbound, inner, outer, hchain, fun r hr => by simpa using hinner r hr⟩

/-- Declaring a variable rebinds it in its scope, and nothing else. -/
theorem rebound_declare (h : owner < f.size) (name : String) (value : Value) :
    f.Rebound (f.declare owner name value) owner name value where
  binding := by rw [findIn?_declare f h, if_pos ⟨rfl, rfl⟩]
  others hother := by rw [findIn?_declare f h, if_neg hother]
  links := links_declare ..

end Forest

namespace Machine

/-- What a read statement does to a machine, and how it ends. -/
inductive Effect (m : Machine) (kind : ReadKind) (keyword : Token) :
    Expr → Outcome Flow → Machine → Prop where
  | refused {target : Expr} (htarget : ∀ name, target ≠ .name name) :
      Effect m kind keyword target (.failed (.atToken keyword .readTarget)) m
  | unread {name : Token} {line rest : List UInt8} {fault : RuntimeFault}
      (hline : Input.LineOf m.input line rest)
      (hfault : Input.valueOfLine kind line = .error fault) :
      Effect m kind keyword (.name name) (.failed ⟨fault, keyword.span⟩) { m with input := rest }
  | unbound {name : Token} {line rest : List UInt8} {value : Value}
      (hline : Input.LineOf m.input line rest) (hvalue : Input.valueOfLine kind line = .ok value)
      (hname : ∀ s ∈ m.scopes.chain m.current, m.scopes.findIn? name.lexeme s = none) :
      Effect m kind keyword (.name name) (.failed (Forest.undefinedName name))
        { m with input := rest }
  | stored {name : Token} {line rest : List UInt8} {value : Value} {owner : Nat} {scopes : Forest}
      (hline : Input.LineOf m.input line rest) (hvalue : Input.valueOfLine kind line = .ok value)
      (howner : m.scopes.Nearest m.current name.lexeme owner)
      (hrebound : m.scopes.Rebound scopes owner name.lexeme value)
      (hget : scopes.get? m.current name.lexeme = some value) :
      Effect m kind keyword (.name name) (.done .normal) { m with input := rest, scopes }

variable {m m' : Machine} {kind : ReadKind} {keyword : Token} {target : Expr}
  {outcome : Outcome Flow}

/-- Whatever a read does, it leaves an end of the input. -/
theorem Effect.input_suffix (h : m.Effect kind keyword target outcome m') :
    m'.input <:+ m.input := by
  cases h with
  | refused _ => exact List.suffix_refl _
  | unread hline _ => exact hline.suffix
  | unbound hline _ _ => exact hline.suffix
  | stored hline _ _ _ _ => exact hline.suffix

/-- Reading into a name: the line is taken first, and its value is assigned if it has one. -/
theorem outcome_read_name (fuel : Nat) (kind : ReadKind) (keyword name : Token) (m : Machine) :
    (execute (fuel + 1) (.read kind keyword (.name name))).outcome m =
      match Input.valueOfLine kind (Input.nextLine m.input).1 with
      | .error fault =>
        (.failed ⟨fault, keyword.span⟩, { m with input := (Input.nextLine m.input).2 })
      | .ok value =>
        match m.scopes.owner? m.current name.lexeme with
        | none =>
          (.failed (Forest.undefinedName name), { m with input := (Input.nextLine m.input).2 })
        | some owner =>
          (.done .normal,
            { m with
              input := (Input.nextLine m.input).2
              scopes := m.scopes.declare owner name.lexeme value }) := by
  rw [execute]
  simp only [readInto, Run.outcome_bind, Run.outcome_readLine]
  -- The line is taken before it is looked at, so it is gone in all cases.
  cases Input.valueOfLine kind (Input.nextLine m.input).1 with
  | error fault => rfl
  | ok value =>
    simp only [Run.orFail, Run.outcome_pure, Run.outcome_assign]
    cases m.scopes.owner? m.current name.lexeme with
    | none => rfl
    | some owner => rfl

/-- What is no name is refused before anything is read. -/
theorem outcome_read_refused (fuel : Nat) (kind : ReadKind) (keyword : Token)
    (htarget : ∀ name, target ≠ .name name) (m : Machine) :
    (execute (fuel + 1) (.read kind keyword target)).outcome m =
      (.failed (.atToken keyword .readTarget), m) := by
  rw [execute]
  cases target with
  | name name => exact absurd rfl (htarget name)
  | _ => rfl

/-- Carrying out a read statement has this effect. -/
theorem effect_execute (fuel : Nat) (h : (execute (fuel + 1) (.read kind keyword target)).outcome
    m = (outcome, m')) : m.Effect kind keyword target outcome m' := by
  -- Only a read into a name takes a line; any other target is refused before that.
  by_cases htarget : ∃ name, target = .name name
  · obtain ⟨name, rfl⟩ := htarget
    have hline := Input.lineOf_nextLine m.input
    rw [outcome_read_name] at h
    cases hvalue : Input.valueOfLine kind (Input.nextLine m.input).1 with
    | error fault =>
      rw [hvalue] at h
      obtain ⟨rfl, rfl⟩ := Prod.mk.inj h
      exact .unread hline hvalue
    | ok value =>
      rw [hvalue] at h
      cases howner : m.scopes.owner? m.current name.lexeme with
      | none =>
        rw [howner] at h
        obtain ⟨rfl, rfl⟩ := Prod.mk.inj h
        refine .unbound hline hvalue fun s hs => ?_
        have hunbound := List.find?_eq_none.1 howner s hs
        simpa using hunbound
      | some owner =>
        rw [howner] at h
        obtain ⟨rfl, rfl⟩ := Prod.mk.inj h
        have hnearest := Forest.nearest_iff.2 howner
        have hrebound :=
          Forest.rebound_declare (Forest.lt_size_of_isSome_findIn? hnearest.bound) name.lexeme value
        exact .stored hline hvalue hnearest hrebound (Forest.get?_declare_owner howner value)
  · have htarget : ∀ name, target ≠ .name name := fun name hname => htarget ⟨name, hname⟩
    rw [outcome_read_refused fuel kind keyword htarget] at h
    obtain ⟨rfl, rfl⟩ := Prod.mk.inj h
    exact .refused htarget

/-- All that a host can have a machine do has steps. -/
theorem exists_steps_of_offers {α : Type} {run : Run α} (hrun : m.Offers run) :
    ∃ steps, Run.Steps run m steps :=
  hrun.of_compositional Run.compositional_steps fun _ hsteps => hsteps.imp' _ fun _ hrun =>
    .inScope hrun

/-- What a step takes from the input is taken by a read statement, which does nothing but what read
    statements do. -/
structure Reads (step : Run.Step) : Prop where
  others (h : step.reading? = none) : step.after.input = step.before.input
  effect {reading : Run.Reading} (h : step.reading? = some reading) :
    step.before.Effect reading.kind reading.keyword reading.target reading.outcome step.after

/-- A step that a run really takes reads as the rules for steps say. -/
theorem reads_of_sound {step : Run.Step} (h : step.Sound) : Reads step := by
  cases h with
  | read hread =>
    refine ⟨(fun h => nomatch h), ?_⟩
    rintro _ ⟨⟩
    exact effect_execute _ hread
  | other hinput => exact ⟨fun _ => hinput, fun h => nomatch h⟩

/-- A step leaves an end of the input that it started with. -/
theorem Reads.input_suffix {step : Run.Step} (h : Reads step) :
    step.after.input <:+ step.before.input := by
  cases hreading : step.reading? with
  | none => exact h.others hreading ▸ List.suffix_refl _
  | some reading => exact (h.effect hreading).input_suffix

/-- **Reads take whole lines.** Whatever a host has a machine do consists of steps that lead from
    the machine to the one that is left. Before and after each of them the input is what is behind
    some bytes of the first machine's, and only read statements take anything from it. What these do
    besides is to bind a name again: see `Effect`, which all read statements have that are carried
    out at all. -/
theorem reads_take_lines :
    (∀ (m : Machine) {α : Type} (run : Run α), m.Offers run →
      (run.outcome m).2.input <:+ m.input ∧ (∃ steps, Run.Steps run m steps) ∧
        ∀ steps, Run.Steps run m steps → Run.Linked steps m (run.outcome m).2 ∧
          ∀ step ∈ steps, Reads step ∧ step.before.input <:+ m.input ∧
            step.after.input <:+ step.before.input ∧
            (run.outcome m).2.input <:+ step.after.input) ∧
      ∀ (m : Machine) (fuel : Nat) (kind : ReadKind) (keyword : Token) (target : Expr),
        m.Effect kind keyword target ((execute (fuel + 1) (.read kind keyword target)).outcome m).1
          ((execute (fuel + 1) (.read kind keyword target)).outcome m).2 := by
  -- What each step does to the input adds up over the steps in front of it and behind it.
  have hacross {m : Machine} {α : Type} {run : Run α} {steps : List Run.Step}
    (hsteps : Run.Steps run m steps) :
      (run.outcome m).2.input <:+ m.input ∧ ∀ step ∈ steps,
        step.before.input <:+ m.input ∧ (run.outcome m).2.input <:+ step.after.input := by
    refine hsteps.linked.across (R := fun m m' => m'.input <:+ m.input)
      (fun m => List.suffix_refl _)
      (fun h₁ h₂ => h₂.trans h₁) fun step hstep => ?_
    exact (reads_of_sound (hsteps.sound step hstep)).input_suffix
  refine ⟨fun m _ run hrun => ?_, fun m fuel kind keyword target => effect_execute fuel rfl⟩
  obtain ⟨steps, hsteps⟩ := exists_steps_of_offers hrun
  refine ⟨(hacross hsteps).1, ⟨steps, hsteps⟩, fun steps hsteps =>
    ⟨hsteps.linked, fun step hstep => ?_⟩⟩
  have hreads := reads_of_sound (hsteps.sound step hstep)
  obtain ⟨hbefore, hafter⟩ := (hacross hsteps).2 step hstep
  exact ⟨hreads, hbefore, hreads.input_suffix, hafter⟩

end Machine

end Treewalk
