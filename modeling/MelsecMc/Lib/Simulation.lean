/-
Fallible steps, seen through an abstraction.

A step that can fail is simulated by an abstract one when the two do the same thing up to a
map of the states and a map of the failures.  Loops of simulated steps are simulated, so
what the whole loop does can be read off the abstract side.
-/
import Mathlib.Init

namespace Simulation

variable {S A ε ε' ι κ : Type}

/-- A result, seen through the two maps. -/
def trace (abs : S → A) (cls : ε → ε') : Except ε S → Except ε' A
  | .ok s => .ok (abs s)
  | .error e => .error (cls e)

/-- The abstract step does what the step does. -/
def Simulates (abs : S → A) (cls : ε → ε') (step : S → Except ε S) (astep : A → Except ε' A) :
    Prop :=
  ∀ s, astep (abs s) = trace abs cls (step s)

theorem foldlM_singleton (step : S → ι → Except ε S) (s : S) (i : ι) :
    [i].foldlM step s = step s i := by
  rw [List.foldlM_cons]
  cases step s i with
  | ok s' => rfl
  | error e => rfl

/-- A loop of simulated steps. -/
theorem Simulates.foldlM {abs : S → A} {cls : ε → ε'} {step : S → ι → Except ε S}
    {astep : A → κ → Except ε' A} {items : ι → List κ} {l : List ι}
    (h : ∀ i ∈ l, Simulates abs cls (step · i) fun a => (items i).foldlM astep a) :
    Simulates abs cls (fun s => l.foldlM step s) fun a => (l.flatMap items).foldlM astep a := by
  induction l with
  | nil => exact fun s => rfl
  | cons i l ih =>
      intro s
      have hhead := h i List.mem_cons_self s
      have hrest := ih fun j hj => h j (.tail i hj)
      dsimp only at hhead hrest ⊢
      rw [List.flatMap_cons, List.foldlM_append, List.foldlM_cons, hhead]
      cases step s i with
      | error e => rfl
      | ok s' => exact hrest s'

/-- A loop fails in one of its rounds, after rounds that did not. -/
theorem foldlM_eq_error_iff {step : S → ι → Except ε S} {e : ε} {l : List ι} : ∀ {s : S},
    l.foldlM step s = .error e ↔ ∃ before i after s', l = before ++ i :: after ∧
      before.foldlM step s = .ok s' ∧ step s' i = .error e := by
  induction l with
  | nil =>
      intro s
      constructor
      · intro h
        cases h
      · rintro ⟨before, i, after, s', h, -⟩
        exact absurd h (by simp)
  | cons j l ih =>
      intro s
      rw [List.foldlM_cons]
      constructor
      · intro h
        cases hstep : step s j with
        | error e' =>
            rw [hstep] at h
            cases h
            exact ⟨[], j, l, s, rfl, rfl, hstep⟩
        | ok mid =>
            rw [hstep] at h
            obtain ⟨before, i, after, s', hl, hbefore, hi⟩ := ih.mp h
            refine ⟨j :: before, i, after, s', by rw [hl, List.cons_append], ?_, hi⟩
            rw [List.foldlM_cons, hstep]
            exact hbefore
      · rintro ⟨before, i, after, s', hl, hbefore, hi⟩
        cases before with
        | nil =>
            cases hl
            cases hbefore
            rw [hi]
            rfl
        | cons k before =>
            rw [List.cons_append, List.cons.injEq] at hl
            obtain ⟨rfl, hl⟩ := hl
            rw [List.foldlM_cons] at hbefore
            cases hstep : step s j with
            | error e' =>
                rw [hstep] at hbefore
                cases hbefore
            | ok mid =>
                rw [hstep] at hbefore
                exact ih.mpr ⟨before, i, after, s', hl, hbefore, hi⟩

end Simulation
