/-
Loops, turn by turn.

A loop is given by what one turn does with the state: it goes on from a new state, or it
ends with a result.  `Ends` is a whole run of the loop, with the states in which a turn
went on.  A run is finite because its derivation is, so that a loop terminates when it has
a run: it has one, and only one, as soon as every turn that goes on lowers a measure
(`exists_ends`), and the measure bounds the number of turns (`Ends.length_le`).
-/
import Mathlib.Init

namespace Loops

/-- What one turn does. -/
inductive Turn (σ ρ : Type)
  | again (s : σ)
  | done (r : ρ)
  deriving DecidableEq

variable {σ ρ : Type} {turn : σ → Turn σ ρ}

/-- The loop from a state, the states in which its turns went on, and the result. -/
inductive Ends (turn : σ → Turn σ ρ) : σ → List σ → ρ → Prop
  | done {s : σ} {r : ρ} (h : turn s = .done r) : Ends turn s [] r
  | again {s s' : σ} {visited : List σ} {r : ρ} (h : turn s = .again s')
      (hrest : Ends turn s' visited r) : Ends turn s (s :: visited) r

/-- There is one run. -/
theorem Ends.unique {s : σ} {visited visited' : List σ} {r r' : ρ}
    (h : Ends turn s visited r) (h' : Ends turn s visited' r') : visited = visited' ∧ r = r' := by
  induction h generalizing visited' with
  | done h =>
      cases h' with
      | done h' =>
          rw [h, Turn.done.injEq] at h'
          exact ⟨rfl, h'⟩
      | again h' _ =>
          rw [h] at h'
          cases h'
  | again h hrest ih =>
      cases h' with
      | done h' =>
          rw [h] at h'
          cases h'
      | again h' hrest' =>
          rw [h, Turn.again.injEq] at h'
          subst h'
          obtain ⟨hvisited, hr⟩ := ih hrest'
          exact ⟨by rw [hvisited], hr⟩

/-- The invariant rule: what holds at the start and survives every turn holds wherever a
turn went on. -/
theorem Ends.invariant {Inv : σ → Prop} (hturn : ∀ s s', Inv s → turn s = .again s' → Inv s')
    {s : σ} {visited : List σ} {r : ρ} (h : Ends turn s visited r) (hs : Inv s) :
    ∀ t ∈ visited, Inv t ∧ ∃ t', turn t = .again t' := by
  induction h with
  | done h => exact fun t ht => absurd ht List.not_mem_nil
  | again h hrest ih => exact List.forall_mem_cons.mpr ⟨⟨hs, _, h⟩, ih (hturn _ _ hs h)⟩

/-- **A measure that every turn lowers ends the loop.** -/
theorem exists_ends {Inv : σ → Prop} {μ : σ → Nat}
    (hturn : ∀ s s', Inv s → turn s = .again s' → Inv s' ∧ μ s' < μ s) {s : σ} (hs : Inv s) :
    ∃ visited r, Ends turn s visited r := by
  induction hμ : μ s using Nat.strongRecOn generalizing s with
  | ind m ih =>
      cases h : turn s with
      | done r => exact ⟨[], r, .done h⟩
      | again s' =>
          obtain ⟨hs', hlt⟩ := hturn s s' hs h
          obtain ⟨visited, r, hrest⟩ := ih (μ s') (hμ ▸ hlt) hs' rfl
          exact ⟨s :: visited, r, .again h hrest⟩

/-- The measure bounds the turns that went on, with what is left of it at the end to spare. -/
theorem Ends.length_le {Inv : σ → Prop} {μ : σ → Nat}
    (hturn : ∀ s s', Inv s → turn s = .again s' → Inv s' ∧ μ s' < μ s) {s : σ}
    {visited : List σ} {r : ρ} (h : Ends turn s visited r) (hs : Inv s) :
    ∃ t, Inv t ∧ turn t = .done r ∧ visited.length + μ t ≤ μ s := by
  induction h with
  | done h => exact ⟨_, hs, h, Nat.le_of_eq (Nat.zero_add _)⟩
  | again h hrest ih =>
      obtain ⟨hs', hlt⟩ := hturn _ _ hs h
      obtain ⟨t, ht, hdone, hlen⟩ := ih hs'
      refine ⟨t, ht, hdone, ?_⟩
      rw [List.length_cons]
      omega

end Loops
