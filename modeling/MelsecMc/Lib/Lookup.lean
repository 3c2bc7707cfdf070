/-
Scanning a list for an element.

Tables are searched from one end, and what is found depends on the order unless only one
element can be found.  `find?_of_unique` is that case; with distinct keys it is the case of
a search for a key (`find?_key`), from either end.
-/
import Mathlib.Data.List.Nodup

namespace Lookup

variable {α κ : Type}

/-- What a scan finds when nothing else could be found. -/
theorem find?_of_unique {p : α → Bool} {l : List α} {a : α} (hmem : a ∈ l) (ha : p a = true)
    (honly : ∀ b ∈ l, p b = true → b = a) : l.find? p = some a := by
  cases hfind : l.find? p with
  | none => exact absurd ha (List.find?_eq_none.mp hfind a hmem)
  | some b => rw [honly b (List.mem_of_find?_eq_some hfind) (List.find?_some hfind)]

variable [DecidableEq κ] {key : α → κ} {l : List α} {a : α}

theorem find?_key (hdistinct : (l.map key).Nodup) (hmem : a ∈ l) :
    (l.find? fun b => key b = key a) = some a := by
  refine find?_of_unique hmem (decide_eq_true rfl) ?_
  intro b hb hkey
  exact List.inj_on_of_nodup_map hdistinct hb hmem (of_decide_eq_true hkey)

theorem find?_reverse_key (hdistinct : (l.map key).Nodup) (hmem : a ∈ l) :
    (l.reverse.find? fun b => key b = key a) = some a := by
  refine find?_key ?_ (List.mem_reverse.mpr hmem)
  rw [List.map_reverse, List.nodup_reverse]
  exact hdistinct

/-- Taking out the entries of one key does not change what another one is looked up to. -/
theorem lookup_filter_ne {β : Type} {k k' : κ} (h : k' ≠ k) (entries : List (κ × β)) :
    (entries.filter fun entry => entry.1 ≠ k).lookup k' = entries.lookup k' := by
  induction entries with
  | nil => rfl
  | cons entry entries ih =>
      obtain ⟨key, value⟩ := entry
      by_cases hkey : key = k
      · rw [List.filter_cons_of_neg (by simp [hkey]), ih, List.lookup_cons,
          beq_eq_false_iff_ne.mpr (hkey ▸ h)]
      · rw [List.filter_cons_of_pos (by simp [hkey]), List.lookup_cons, List.lookup_cons, ih]

end Lookup
