/-
Walking over slots of a fixed width.

A reader goes over `n` cells in slots of `w`.  Where something decodes it takes it and
moves on by a slot; where nothing does it moves on by one cell and tries again.  `Walk` is
such a walk, with what it takes and where.

As long as everything decodes the walk goes from slot to slot.  A slot that does not decode
takes it off the borders, and it is back on the next one exactly when nothing decodes at any
place inside the slot.  So the walk takes the slots that decode, and nothing else, when this
holds of every slot (`walk_slots_iff`).
-/
import Mathlib.Data.List.Range

namespace Strides

variable {α : Type}

/-- The walk from a cell, and what it takes. -/
inductive Walk (decode : Nat → Option α) (w n : Nat) : Nat → List (Nat × α) → Prop
  | stop {p : Nat} (h : n < p + w) : Walk decode w n p []
  | take {p : Nat} {v : α} {taken : List (Nat × α)} (h : p + w ≤ n) (hv : decode p = some v)
      (hrest : Walk decode w n (p + w) taken) : Walk decode w n p ((p, v) :: taken)
  | skip {p : Nat} {taken : List (Nat × α)} (h : p + w ≤ n) (hv : decode p = none)
      (hrest : Walk decode w n (p + 1) taken) : Walk decode w n p taken

/-- The `m` slots from the `k`-th on: where each one that has a value begins, and the value. -/
def slots (value : Nat → Option α) (w k m : Nat) : List (Nat × α) :=
  (List.range' k m).filterMap fun j => (value j).map fun v => (j * w, v)

/-- The slot has the value that decodes where it begins, and if nothing does, nothing decodes
inside it. -/
structure InStep (decode : Nat → Option α) (value : Nat → Option α) (w n j : Nat) : Prop where
  value_eq : value j = decode (j * w)
  inside : decode (j * w) = none → ∀ p, j * w < p → p < (j + 1) * w → p + w ≤ n → decode p = none

variable {decode value : Nat → Option α} {w n : Nat}

theorem slots_succ (k m : Nat) :
    slots value w k (m + 1) =
      ((value k).map fun v => (k * w, v)).toList ++ slots value w (k + 1) m := by
  rw [slots, List.range'_succ, List.filterMap_cons, slots]
  cases value k with
  | none => rfl
  | some v => rfl

theorem mem_slots {k m : Nat} {t : Nat × α} (h : t ∈ slots value w k m) :
    ∃ j, k ≤ j ∧ j < k + m ∧ value j = some t.2 ∧ t.1 = j * w := by
  obtain ⟨j, hj, hv⟩ := List.mem_filterMap.mp h
  obtain ⟨v, hvalue, rfl⟩ := Option.map_eq_some_iff.mp hv
  obtain ⟨hle, hlt⟩ := List.mem_range'_1.mp hj
  exact ⟨j, hle, hlt, hvalue, rfl⟩

theorem le_of_mem_slots {k m : Nat} {t : Nat × α} (h : t ∈ slots value w k m) : k * w ≤ t.1 := by
  obtain ⟨j, hle, -, -, hj⟩ := mem_slots h
  rw [hj]
  exact Nat.mul_le_mul_right w hle

/-- Two lists of values that are the same values from different places have one value from two
places. -/
theorem exists_displaced {l l' : List (Nat × α)} (h : l.map Prod.snd = l'.map Prod.snd)
    (hne : l ≠ l') : ∃ t ∈ l, ∃ t' ∈ l', t.1 ≠ t'.1 ∧ t.2 = t'.2 := by
  induction l generalizing l' with
  | nil =>
      rw [List.map_nil] at h
      exact absurd (List.map_eq_nil_iff.mp h.symm).symm hne
  | cons t l ih =>
      cases l' with
      | nil => cases h
      | cons t' l' =>
          rw [List.map_cons, List.map_cons, List.cons.injEq] at h
          by_cases hplace : t.1 = t'.1
          · have htail : l ≠ l' := by
              rintro rfl
              exact hne (by rw [Prod.ext hplace h.1])
            obtain ⟨u, hu, u', hu', hdisplaced⟩ := ih h.2 htail
            exact ⟨u, .tail t hu, u', .tail t' hu', hdisplaced⟩
          · exact ⟨t, List.mem_cons_self, t', List.mem_cons_self, hplace, h.1⟩

namespace Walk

/-- There is one walk. -/
theorem unique {p : Nat} {taken taken' : List (Nat × α)} (h : Walk decode w n p taken)
    (h' : Walk decode w n p taken') : taken = taken' := by
  induction h generalizing taken' with
  | stop h =>
      cases h' with
      | stop _ => rfl
      | take h' _ _ => omega
      | skip h' _ _ => omega
  | take h hv hrest ih =>
      cases h' with
      | stop h' => omega
      | take _ hv' hrest' =>
          rw [hv, Option.some.injEq] at hv'
          rw [ih hrest', hv']
      | skip _ hv' _ => rw [hv] at hv'; cases hv'
  | skip h hv hrest ih =>
      cases h' with
      | stop h' => omega
      | take _ hv' _ => rw [hv] at hv'; cases hv'
      | skip _ _ hrest' => exact ih hrest'

/-- With slots that are not empty there is a walk from everywhere. -/
theorem total (hw : 1 ≤ w) (p : Nat) : ∃ taken, Walk decode w n p taken := by
  induction hm : n - p using Nat.strongRecOn generalizing p with
  | ind m ih =>
      by_cases h : p + w ≤ n
      · cases hv : decode p with
        | some v =>
            obtain ⟨taken, hrest⟩ := ih (n - (p + w)) (by omega) (p + w) rfl
            exact ⟨_, .take h hv hrest⟩
        | none =>
            obtain ⟨taken, hrest⟩ := ih (n - (p + 1)) (by omega) (p + 1) rfl
            exact ⟨_, .skip h hv hrest⟩
      · exact ⟨[], .stop (Nat.not_le.mp h)⟩

theorem stop_iff {p : Nat} {taken : List (Nat × α)} (h : n < p + w) :
    Walk decode w n p taken ↔ taken = [] := by
  constructor
  · intro hwalk
    exact hwalk.unique (.stop h)
  · rintro rfl
    exact .stop h

theorem take_iff {p : Nat} {v : α} {taken : List (Nat × α)} (h : p + w ≤ n)
    (hv : decode p = some v) :
    Walk decode w n p taken ↔ ∃ rest, taken = (p, v) :: rest ∧ Walk decode w n (p + w) rest := by
  constructor
  · intro hwalk
    cases hwalk with
    | stop h' => omega
    | take _ hv' hrest =>
        rw [hv, Option.some.injEq] at hv'
        exact ⟨_, by rw [hv'], hrest⟩
    | skip _ hv' _ => rw [hv] at hv'; cases hv'
  · rintro ⟨rest, rfl, hrest⟩
    exact .take h hv hrest

theorem skip_iff {p : Nat} {taken : List (Nat × α)} (h : p + w ≤ n) (hv : decode p = none) :
    Walk decode w n p taken ↔ Walk decode w n (p + 1) taken := by
  constructor
  · intro hwalk
    cases hwalk with
    | stop h' => omega
    | take _ hv' _ => rw [hv] at hv'; cases hv'
    | skip _ _ hrest => exact hrest
  · exact .skip h hv

/-- A walk that takes nothing before the cell `p + d` comes to that cell, and nothing decodes
on the way. -/
theorem passes_iff {taken : List (Nat × α)} (d : Nat) :
    ∀ {p : Nat}, (∀ t ∈ taken, p + d ≤ t.1) →
      (Walk decode w n p taken ↔
        (∀ q, p ≤ q → q < p + d → q + w ≤ n → decode q = none) ∧ Walk decode w n (p + d) taken) := by
  induction d with
  | zero =>
      intro p _
      exact ⟨fun hwalk => ⟨fun q _ _ _ => by omega, hwalk⟩, fun h => h.2⟩
  | succ d ih =>
      intro p hbehind
      by_cases h : p + w ≤ n
      · cases hv : decode p with
        | some v =>
            rw [take_iff h hv]
            constructor
            · rintro ⟨rest, rfl, -⟩
              have hle : p + (d + 1) ≤ p := hbehind (p, v) List.mem_cons_self
              omega
            · rintro ⟨hnone, -⟩
              rw [hnone p (Nat.le_refl p) (by omega) h] at hv
              cases hv
        | none =>
            rw [skip_iff h hv, ih fun t ht => (by have hle := hbehind t ht; omega),
              show p + 1 + d = p + (d + 1) by omega]
            refine and_congr_left fun _ => ⟨fun hnone q hq => ?_, fun hnone q hq => hnone q (by omega)⟩
            by_cases hqp : q = p
            · intro _ _
              rw [hqp, hv]
            · exact hnone q (by omega)
      · rw [stop_iff (by omega), stop_iff (by omega)]
        exact ⟨fun htaken => ⟨fun q _ _ _ => by omega, htaken⟩, fun h => h.2⟩

theorem decode_of_mem {p : Nat} {taken : List (Nat × α)} (h : Walk decode w n p taken) :
    ∀ t ∈ taken, decode t.1 = some t.2 := by
  induction h with
  | stop _ => exact fun t ht => absurd ht List.not_mem_nil
  | take _ hv _ ih => exact List.forall_mem_cons.mpr ⟨hv, ih⟩
  | skip _ _ _ ih => exact ih

/-- What is taken is taken from here on. -/
theorem le_of_mem {p : Nat} {taken : List (Nat × α)} (h : Walk decode w n p taken) :
    ∀ t ∈ taken, p ≤ t.1 := by
  induction h with
  | stop _ => exact fun t ht => absurd ht List.not_mem_nil
  | take _ _ _ ih =>
      exact List.forall_mem_cons.mpr ⟨Nat.le_refl _, fun t ht => by have hle := ih t ht; omega⟩
  | skip _ _ _ ih => exact fun t ht => by have hle := ih t ht; omega

end Walk

/-- The walk at the border of a slot, where `rest` is to be taken behind the slot: the slot has
to be in step. -/
theorem walk_slot_iff {k : Nat} {rest : List (Nat × α)} (hroom : k * w + w ≤ n) (hw : 1 ≤ w)
    (hbehind : ∀ t ∈ rest, k * w + w ≤ t.1) :
    Walk decode w n (k * w) (((value k).map fun v => (k * w, v)).toList ++ rest) ↔
      InStep decode value w n k ∧ Walk decode w n (k * w + w) rest := by
  have hnext : (k + 1) * w = k * w + w := Nat.succ_mul k w
  cases hv : decode (k * w) with
  | some v =>
      have hstep : InStep decode value w n k ↔ value k = some v := by
        constructor
        · exact fun h => h.value_eq.trans hv
        · exact fun h => ⟨h.trans hv.symm, fun hnone => (by rw [hv] at hnone; cases hnone)⟩
      rw [Walk.take_iff hroom hv, hstep]
      cases hvalue : value k with
      | none =>
          rw [Option.map_none, Option.toList_none, List.nil_append]
          constructor
          · rintro ⟨rest', rfl, -⟩
            have hle : k * w + w ≤ k * w := hbehind (k * w, v) List.mem_cons_self
            omega
          · rintro ⟨h, -⟩
            cases h
      | some v' =>
          rw [Option.map_some, Option.toList_some, List.singleton_append, Option.some.injEq]
          constructor
          · rintro ⟨rest', heq, hwalk⟩
            rw [List.cons.injEq, Prod.mk.injEq] at heq
            exact ⟨heq.1.2, heq.2 ▸ hwalk⟩
          · rintro ⟨rfl, hwalk⟩
            exact ⟨rest, rfl, hwalk⟩
  | none =>
      cases hvalue : value k with
      | none =>
          rw [Option.map_none, Option.toList_none, List.nil_append, Walk.passes_iff w hbehind]
          refine and_congr_left fun _ => ⟨fun hnone => ⟨by rw [hvalue, hv], fun _ p hp hlt => ?_⟩,
            fun hk q hq hlt hle => ?_⟩
          · exact hnone p (by omega) (by omega)
          · by_cases hqk : q = k * w
            · rw [hqk, hv]
            · exact hk.inside hv q (by omega) (by omega) hle
      | some v' =>
          rw [Option.map_some, Option.toList_some, List.singleton_append, Walk.skip_iff hroom hv]
          constructor
          · intro hwalk
            have hle : k * w + 1 ≤ k * w := hwalk.le_of_mem (k * w, v') List.mem_cons_self
            omega
          · rintro ⟨hk, -⟩
            have heq := hk.value_eq
            rw [hvalue, hv] at heq
            cases heq

/-- **A walk takes the slots that have a value, and nothing else, when each slot is in step.** -/
theorem walk_slots_iff (hw : 1 ≤ w) (m : Nat) :
    ∀ {k : Nat}, n = w * (k + m) →
      (Walk decode w n (k * w) (slots value w k m) ↔
        ∀ j, k ≤ j → j < k + m → InStep decode value w n j) := by
  induction m with
  | zero =>
      intro k hn
      have hend : n < k * w + w := by
        rw [hn, Nat.add_zero, Nat.mul_comm]
        omega
      rw [Walk.stop_iff hend]
      exact ⟨fun _ j _ _ => by omega, fun _ => rfl⟩
  | succ m ih =>
      intro k hn
      have hnext : (k + 1) * w = k * w + w := Nat.succ_mul k w
      have hroom : k * w + w ≤ n := by
        rw [← hnext, hn, Nat.mul_comm]
        exact Nat.mul_le_mul_left w (by omega)
      have hbehind : ∀ t ∈ slots value w (k + 1) m, k * w + w ≤ t.1 := by
        intro t ht
        rw [← hnext]
        exact le_of_mem_slots ht
      rw [slots_succ, walk_slot_iff hroom hw hbehind, ← hnext,
        ih (show n = w * (k + 1 + m) by rw [hn, Nat.add_right_comm, Nat.add_assoc])]
      constructor
      · rintro ⟨hk, h⟩ j hj hlt
        by_cases hjk : j = k
        · rw [hjk]
          exact hk
        · exact h j (by omega) (by omega)
      · exact fun h => ⟨h k (Nat.le_refl k) (by omega), fun j hj hlt => h j (by omega) (by omega)⟩

end Strides
