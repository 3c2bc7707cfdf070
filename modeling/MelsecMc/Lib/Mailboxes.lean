/-
Messages in flight, in the order in which they were sent.

The messages for different keys travel independently, those for one key in order.  All of
them are kept in one list, so that they can be counted; `box` is what is there for one key,
and `take` takes the oldest message for a key out of the list.
-/
import Mathlib.Data.List.Perm.Basic

namespace Mailboxes

variable {κ μ : Type} [DecidableEq κ]

/-- The messages for a key, oldest first. -/
def box (k : κ) (l : List (κ × μ)) : List μ :=
  l.filterMap fun m => if m.1 = k then some m.2 else none

/-- Take the oldest message for the key. -/
def take (k : κ) : List (κ × μ) → Option (μ × List (κ × μ))
  | [] => none
  | m :: l =>
      if m.1 = k then some (m.2, l)
      else (take k l).map fun taken => (taken.1, m :: taken.2)

@[simp] theorem box_nil (k : κ) : box k ([] : List (κ × μ)) = [] := rfl

theorem box_append (k : κ) (l l' : List (κ × μ)) : box k (l ++ l') = box k l ++ box k l' :=
  List.filterMap_append

theorem box_cons_self (k : κ) (x : μ) (l : List (κ × μ)) : box k ((k, x) :: l) = x :: box k l := by
  rw [box, List.filterMap_cons, if_pos rfl, box]

theorem box_cons_of_ne {k k' : κ} (h : k' ≠ k) (x : μ) (l : List (κ × μ)) :
    box k ((k', x) :: l) = box k l := by
  rw [box, List.filterMap_cons, if_neg h, box]

/-- What `take` takes: the first of its box, and the other boxes are as they were. -/
structure Taken (k : κ) (l : List (κ × μ)) (x : μ) (rest : List (κ × μ)) : Prop where
  own : box k l = x :: box k rest
  others : ∀ k', k' ≠ k → box k' rest = box k' l
  perm : l.Perm ((k, x) :: rest)

theorem taken_of_take {k : κ} {x : μ} {l : List (κ × μ)} :
    ∀ {rest : List (κ × μ)}, take k l = some (x, rest) → Taken k l x rest := by
  induction l with
  | nil =>
      intro rest h
      cases h
  | cons m l ih =>
      intro rest h
      obtain ⟨k', y⟩ := m
      rw [take] at h
      by_cases hk : k' = k
      · rw [if_pos hk, Option.some.injEq, Prod.mk.injEq] at h
        obtain ⟨rfl, rfl⟩ := h
        subst hk
        exact ⟨box_cons_self k' y l, fun k'' hne => (box_cons_of_ne (Ne.symm hne) y l).symm, .rfl⟩
      · rw [if_neg hk] at h
        obtain ⟨⟨x', rest'⟩, htake, heq⟩ := Option.map_eq_some_iff.mp h
        rw [Prod.mk.injEq] at heq
        obtain ⟨rfl, rfl⟩ := heq
        have htaken := ih htake
        refine ⟨?_, ?_, ?_⟩
        · rw [box_cons_of_ne hk, box_cons_of_ne hk, htaken.own]
        · intro k'' hne
          by_cases heq : k' = k''
          · subst heq
            rw [box_cons_self, box_cons_self, htaken.others k' hne]
          · rw [box_cons_of_ne heq, box_cons_of_ne heq, htaken.others k'' hne]
        · exact (htaken.perm.cons (k', y)).trans (.swap _ _ _)

end Mailboxes
