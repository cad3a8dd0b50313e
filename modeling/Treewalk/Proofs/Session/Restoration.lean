import Treewalk.Proofs.Session.Serving

/-!
# Scopes are restored

However the evaluation of a tree ends, the current scope is afterwards the one that it was before,
and the same scopes are around it. The trees may be any, also such that the parser never makes.

A request of a host may leave a scope behind, but not as the current one. So in a session, the
current scope between two requests is always the global one (`Machine.scope_restored`).
-/

namespace Treewalk

namespace Machine

/-- The current scope is the same one, and so are all scopes and what is around them. -/
def SamePlace (m m' : Machine) : Prop :=
  m'.current = m.current ∧ m'.scopes.links = m.scopes.links

/-- The new scope is the last one, and giving it up leaves those that were there before. -/
theorem links_leave {m m' : Machine} {enclosing : Nat}
    (h : m'.scopes.links = (m.enter enclosing).scopes.links) :
    (m'.leave m).scopes.links = m.scopes.links := by
  rw [leave, Forest.links_keep, h, enter, Forest.links_push, ← Forest.length_links, List.take_left]

/-- What a program does to a machine leaves its place the same. -/
theorem evolution_samePlace : Evolution SamePlace where
  refl _ := ⟨rfl, rfl⟩
  trans h₁ h₂ := ⟨h₂.1.trans h₁.1, h₂.2.trans h₁.2⟩
  newArray _ _ := ⟨rfl, rfl⟩
  newFunction _ _ _ _ := ⟨rfl, rfl⟩
  store _ _ _ := ⟨rfl, rfl⟩
  declare _ _ _ := ⟨rfl, Forest.links_declare ..⟩
  assign _ _ _ _ _ := ⟨rfl, Forest.links_declare ..⟩
  -- Leaving a scope drops the scopes made inside, which are behind those that were there before.
  scope _ h := ⟨rfl, links_leave h.2⟩
  printed m line := by
    unfold printed
    split <;> exact ⟨rfl, rfl⟩
  readLine _ := ⟨rfl, rfl⟩

/-- Statements in another scope leave the current scope as it is. -/
theorem samePlace_executeIn (fuel scope : Nat) (body : List Stmt) (m : Machine) :
    SamePlace m (m.executeIn fuel scope body).2 := by
  rw [executeIn, Run.outcome_inScope]
  exact ⟨rfl, (evolution_samePlace.inOrder fuel body { m with current := scope }).2⟩

/-! ## Sessions -/

/-- What depends on the place alone, and is kept where a host opens a scope, is kept by all that a
    host does. -/
theorem kept_of_samePlace {P : Machine → Prop}
    (hplace : ∀ {m m' : Machine}, m.SamePlace m' → P m → P m')
    (hopen : ∀ {m : Machine} (locals : List (String × Value)), P m → P (m.openScope locals).2) :
    Kept P where
  run hrun hm := hplace (evolution_samePlace.outcome_of_offers (fun h => ⟨rfl, h.2⟩) hrun) hm
  data {m} items hm := by
    have hsame : m.SamePlace (m.ofData items).2 := ⟨rfl, rfl⟩
    exact hplace hsame hm
  openScope := hopen
  declare {m} name value hm := by
    have hsame : m.SamePlace (m.declareGlobal name value) := ⟨rfl, Forest.links_declare ..⟩
    exact hplace hsame hm
  clear {m} hm := by
    have hsame : m.SamePlace m.clearLog := ⟨rfl, rfl⟩
    exact hplace hsame hm

/-- Nothing that a host asks for moves a session to another scope. -/
theorem current_serveAll (requests : List (Nat × Request)) (m : Machine) :
    (m.serveAll requests).current = m.current :=
  -- A scope that the host opens is not the current one.
  (kept_of_samePlace (P := fun m' => m'.current = m.current) (fun h heq => h.1.trans heq)
    fun _ heq => heq).serveAll requests rfl

/-- **Scopes are restored.** Whatever is evaluated, carried out or called on whatever machine, and
    however that ends, the current scope is then the one that it was, with the same scopes around
    it. So in a session the current scope is always the global one when a request has been
    served. -/
theorem scope_restored :
    (∀ fuel e (m : Machine), SamePlace m ((evaluate fuel e).outcome m).2) ∧
    (∀ fuel s (m : Machine), SamePlace m ((execute fuel s).outcome m).2) ∧
    (∀ fuel scope body (m : Machine), SamePlace m (m.executeIn fuel scope body).2) ∧
    (∀ fuel f args (m : Machine), SamePlace m (m.callFunction fuel f args).2) ∧
    (∀ requests (m : Machine), (m.serveAll requests).current = m.current) ∧
    ∀ input device requests, ((start input device).serveAll requests).current = globals :=
  ⟨evolution_samePlace.evaluate, evolution_samePlace.execute, samePlace_executeIn,
    evolution_samePlace.callFunction, current_serveAll,
    fun input device requests => current_serveAll requests (start input device)⟩

end Machine

end Treewalk
