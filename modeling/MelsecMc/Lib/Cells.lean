/-
What cells hold after a number of calls.

A cell that can be set once keeps the first value it is offered; a cell that is overwritten
holds the last one.  What a call offers does not depend on the state it is made in, so in both
cases the calls alone say what a cell holds in the end.
-/
import Mathlib.Data.List.Basic

namespace Cells

variable {σ ι α : Type} (cell : σ → Option α) {offer : ι → Option α} {step : σ → ι → σ}

/-- The first offer stays. -/
theorem first_write (hstep : ∀ s i, cell (step s i) = (cell s).or (offer i)) (calls : List ι) :
    ∀ s, cell (calls.foldl step s) = (cell s).or (calls.findSome? offer) := by
  induction calls with
  | nil =>
      intro s
      rw [List.foldl_nil, List.findSome?_nil, Option.or_none]
  | cons i calls ih =>
      intro s
      have hor : (i :: calls).findSome? offer = (offer i).or (calls.findSome? offer) := by
        rw [List.findSome?_cons]
        cases offer i with
        | none => exact (Option.none_or ..).symm
        | some a => exact (Option.some_or ..).symm
      rw [List.foldl_cons, ih, hstep, hor, Option.or_assoc]

/-- The last offer is what is left. -/
theorem last_write (hstep : ∀ s i, cell (step s i) = (offer i).or (cell s)) (calls : List ι) :
    ∀ s, cell (calls.foldl step s) = (calls.reverse.findSome? offer).or (cell s) := by
  induction calls with
  | nil =>
      intro s
      rw [List.foldl_nil, List.reverse_nil, List.findSome?_nil, Option.none_or]
  | cons i calls ih =>
      intro s
      have hlast : (i :: calls).reverse.findSome? offer =
          (calls.reverse.findSome? offer).or (offer i) := by
        rw [List.reverse_cons, List.findSome?_append, List.findSome?_singleton]
      rw [List.foldl_cons, ih, hstep, hlast, Option.or_assoc]

end Cells
