import Treewalk.Proofs.ForStd.Sorting
import Treewalk.Proofs.Grammar.Passage
import Treewalk.Proofs.Grammar.Soundness

/-!
# No token is blamed twice

The parser notes a fault at the token that it is stuck in front of, and recovery drops this token.
The only other fault is noted at an equals sign that has been read. So every note is about a token
of its own among those that are read or dropped, and only the end mark, in front of which nothing
can be dropped, may have more than one (`Blames`, `Parsed.exists_blamed`).
-/

namespace Treewalk

/-- The notes are about tokens in front of `rest`, each about one of its own, or about the end mark
    if nothing is left. -/
def Blames (stop : Token) (tokens rest : List Token) (notes : List Diagnostic) : Prop :=
  ∃ taken blamed : List Token, ∃ ends : Nat, tokens = taken ++ rest ∧ (ends = 0 ∨ rest = []) ∧
    List.Forall₂ (fun d t => ∃ fault, d = .syntactic t fault) notes blamed ∧
    blamed.Subperm (taken ++ List.replicate ends stop)

namespace Blames

variable {stop : Token} {tokens rest rest' : List Token} {notes notes' : List Diagnostic}

/-- Tokens are read or dropped without a note. -/
theorem taken (taken rest : List Token) : Blames stop (taken ++ rest) rest [] :=
  ⟨taken, [], 0, rfl, .inl rfl, .nil, List.nil_subperm⟩

/-- What is blamed in two parts of the tokens, one behind the other, is blamed in both together. -/
theorem trans (h : Blames stop tokens rest notes) (h' : Blames stop rest rest' notes') :
    Blames stop tokens rest' (notes ++ notes') := by
  obtain ⟨taken, blamed, ends, rfl, hends, hnotes, hsub⟩ := h
  obtain ⟨taken', blamed', ends', rfl, hends', hnotes', hsub'⟩ := h'
  -- At the end of the tokens the stop may be blamed any number of times. The first part does so
  -- only if nothing is left for the second one.
  refine ⟨taken ++ taken', blamed ++ blamed', ends + ends', (List.append_assoc ..).symm, ?_,
    List.rel_append hnotes hnotes', ?_⟩
  · obtain rfl | hnil := hends
    · rwa [Nat.zero_add]
    · exact .inr (List.append_eq_nil_iff.1 hnil).2
  · -- The tokens that are blamed come with the stops behind them in each part, and with all stops
    -- at the end in the whole.
    have hperm : (taken ++ List.replicate ends stop ++ (taken' ++ List.replicate ends' stop)).Perm
        (taken ++ taken' ++ List.replicate (ends + ends') stop) := by
      rw [List.append_assoc, List.append_assoc, List.replicate_add]
      refine List.Perm.append_left taken ?_
      rw [← List.append_assoc, ← List.append_assoc]
      exact List.perm_append_comm.append_right _
    exact (hsub.append hsub').trans hperm.subperm

end Blames

/-- Whatever the parser does, no token is blamed twice. -/
theorem Grammar.passage_blames (stop : Token) : Passage stop (Blames stop) where
  refl tokens := .taken [] tokens
  trans := .trans
  read t rest := .taken [t] rest
  target {equals} _ {tokens rest notes} h := by
    -- The equals sign has been read in front of all that has been blamed so far.
    obtain ⟨taken, blamed, ends, rfl, hends, hnotes, hsub⟩ := h
    refine ⟨equals :: taken, blamed ++ [equals], ends, rfl, hends,
      List.rel_append hnotes (.cons ⟨_, rfl⟩ .nil), ?_⟩
    exact (List.perm_append_singleton equals blamed).subperm.trans
      ((List.subperm_cons equals).2 hsub)
  recover rest fault := by
    cases rest with
    | nil => exact ⟨[], [stop], 1, rfl, .inr rfl, .cons ⟨fault, rfl⟩ .nil, List.Subperm.refl _⟩
    | cons t rest =>
      -- The token that is blamed is the first one that is dropped.
      obtain ⟨dropped, hdropped⟩ := resumeBehind_suffix t rest
      refine ⟨t :: dropped, [t], 0, ?_, .inl rfl, .cons ⟨fault, rfl⟩ .nil, ?_⟩
      · rw [List.cons_append, resume, hdropped]
      · rw [List.replicate_zero, List.append_nil, List.singleton_subperm_iff]
        exact List.mem_cons_self

/-- The notes of the parser are about some of the tokens in front of the end mark, none of them more
    than once, and about the end mark as often as need be. -/
theorem Parsed.exists_blamed (tokens : List Token) :
    ∃ blamed : List Token, ∃ ends : Nat,
      List.Forall₂ (fun d t => ∃ fault, d = .syntactic t fault)
        (ofTokens tokens).diagnostics blamed ∧
      blamed.Subperm (front tokens ++ List.replicate ends (stopOf tokens)) := by
  obtain ⟨taken, blamed, ends, htaken, -, hnotes, hsub⟩ :=
    (Grammar.passage_blames (stopOf tokens)).rules.declarations (front tokens)
  rw [List.append_nil] at htaken
  exact ⟨blamed, ends, hnotes, htaken ▸ hsub⟩

end Treewalk
