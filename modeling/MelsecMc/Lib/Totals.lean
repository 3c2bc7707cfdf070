/-
Totals that may overflow.

A loop adds the amounts of its items to several counters, each of them below a bound.  A
step that cannot hold a sum fails.  Since amounts are not negative, the loop ends with the
exact totals, or it fails and one of them does not fit (`Counts.foldlM`): the order in which
the items come does not matter, and neither does the counter they go to.
-/
import Mathlib.Algebra.BigOperators.Group.List.Basic
import Mathlib.Algebra.GroupWithZero.Nat

namespace Totals

variable {σ ι κ ε : Type}

/-- A step adds the amounts of its item to the counters, or a sum does not fit and it
overflows. -/
def Counts (get : σ → κ → Nat) (bound : Nat) (overflow : ε) (amount : κ → ι → Nat)
    (step : σ → ι → Except ε σ) : Prop :=
  ∀ s i, (∃ s', step s i = .ok s' ∧ ∀ c, get s' c = get s c + amount c i) ∨
    (step s i = .error overflow ∧ ∃ c, bound ≤ get s c + amount c i)

/-- The exact total of a counter. -/
def total (amount : κ → ι → Nat) (l : List ι) (c : κ) : Nat :=
  (l.map (amount c)).sum

@[simp] theorem total_cons (amount : κ → ι → Nat) (i : ι) (l : List ι) (c : κ) :
    total amount (i :: l) c = amount c i + total amount l c := by
  rw [total, List.map_cons, List.sum_cons]
  rfl

namespace Counts

variable {get : σ → κ → Nat} {bound : Nat} {overflow : ε} {amount : κ → ι → Nat}
  {step : σ → ι → Except ε σ}

/-- The whole loop. -/
theorem foldlM (h : Counts get bound overflow amount step) (l : List ι) :
    ∀ s, (∃ s', l.foldlM step s = .ok s' ∧ ∀ c, get s' c = get s c + total amount l c) ∨
      (l.foldlM step s = .error overflow ∧ ∃ c, bound ≤ get s c + total amount l c) := by
  induction l with
  | nil => exact fun s => .inl ⟨s, rfl, fun c => (Nat.add_zero _).symm⟩
  | cons i l ih =>
      intro s
      rw [List.foldlM_cons]
      rcases h s i with ⟨mid, hmid, hget⟩ | ⟨hover, c, hc⟩
      · rw [hmid]
        rcases ih mid with ⟨s', hs', hrest⟩ | ⟨hover, c, hc⟩
        · refine .inl ⟨s', hs', fun c => ?_⟩
          rw [hrest, hget, total_cons, Nat.add_assoc]
        · refine .inr ⟨hover, c, ?_⟩
          rw [hget] at hc
          rw [total_cons]
          omega
      · refine .inr ⟨?_, c, ?_⟩
        · rw [hover]
          rfl
        · rw [total_cons]
          omega

end Counts

end Totals
