/-
Trimming.

Trimming takes off the elements of a class from both ends of a list.  What is left is tight:
it neither begins nor ends with such an element; and a tight list with such elements around it
is what trimming leaves (`trim_around`).
-/
import Mathlib.Data.List.DropRight

namespace Trimming

variable {α : Type} (p : α → Bool)

/-- Neither the first nor the last element is of the class. -/
structure Tight (s : List α) : Prop where
  head : ∀ c ∈ s.head?, p c = false
  last : ∀ c ∈ s.getLast?, p c = false

def trim (s : List α) : List α :=
  (s.dropWhile p).rdropWhile p

variable {p}

theorem dropWhile_of_head {s : List α} (h : ∀ c ∈ s.head?, p c = false) : s.dropWhile p = s := by
  cases s with
  | nil => rfl
  | cons c s => rw [List.dropWhile_cons, h c rfl, if_neg Bool.false_ne_true]

/-- A list with elements of the class in front. -/
theorem dropWhile_append {s : List α} (h : ∀ c ∈ s.head?, p c = false) {before : List α}
    (hbefore : ∀ c ∈ before, p c = true) : (before ++ s).dropWhile p = s := by
  rw [List.dropWhile_append_of_pos hbefore, dropWhile_of_head h]

theorem rdropWhile_append {s : List α} (h : ∀ c ∈ s.getLast?, p c = false) {after : List α}
    (hafter : ∀ c ∈ after, p c = true) : (s ++ after).rdropWhile p = s := by
  rw [List.rdropWhile, List.reverse_append, dropWhile_append, List.reverse_reverse]
  · intro c hc
    rw [List.head?_reverse] at hc
    exact h c hc
  · intro c hc
    exact hafter c (List.mem_reverse.mp hc)

/-- **What is around a tight list goes, and nothing of it.** -/
theorem trim_around {s before after : List α} (hs : Tight p s)
    (hbefore : ∀ c ∈ before, p c = true) (hafter : ∀ c ∈ after, p c = true) :
    trim p (before ++ s ++ after) = s := by
  cases s with
  | nil =>
      have hall : ∀ c ∈ before ++ after, p c = true := by
        intro c hc
        exact (List.mem_append.mp hc).elim (hbefore c) (hafter c)
      rw [trim, List.append_nil, List.dropWhile_eq_nil_iff.mpr hall]
      rfl
  | cons c s =>
      rw [trim, List.append_assoc, dropWhile_append (s := c :: s ++ after) hs.head hbefore,
        rdropWhile_append hs.last hafter]

theorem head_dropWhile (s : List α) : ∀ c ∈ (s.dropWhile p).head?, p c = false := by
  intro c hc
  have hhead := List.head?_dropWhile_not p s
  rw [Option.mem_def.mp hc] at hhead
  simpa using hhead

/-- What trimming takes off and what it leaves. -/
theorem exists_around (s : List α) : ∃ before after, s = before ++ trim p s ++ after ∧
    (∀ c ∈ before, p c = true) ∧ (∀ c ∈ after, p c = true) := by
  refine ⟨s.takeWhile p, (s.dropWhile p).rtakeWhile p, ?_, ?_, ?_⟩
  · rw [trim, List.append_assoc, List.rdropWhile_append_rtakeWhile,
      List.takeWhile_append_dropWhile]
  · exact fun c hc => List.mem_takeWhile_imp hc
  · exact fun c hc => List.mem_rtakeWhile_imp hc

/-- A list that ends tight has something taken off in front only. -/
theorem exists_before {s : List α} (h : ∀ c ∈ s.getLast?, p c = false) :
    ∃ before, s = before ++ trim p s ∧ ∀ c ∈ before, p c = true := by
  obtain ⟨before, after, hs, hbefore, hafter⟩ := exists_around (p := p) s
  rcases List.eq_nil_or_concat' after with rfl | ⟨rest, c, rfl⟩
  · rw [List.append_nil] at hs
    exact ⟨before, hs, hbefore⟩
  · have hc : p c = false := by
      refine h c ?_
      rw [hs, ← List.append_assoc, List.getLast?_concat]
      rfl
    rw [hafter c (List.mem_append_right _ List.mem_cons_self)] at hc
    cases hc

/-- What trimming leaves is tight. -/
theorem tight_trim (s : List α) : Tight p (trim p s) where
  head := by
    intro c hc
    -- the last elements go only after the first ones, and leave the new first one
    have hprefix : trim p s <+: s.dropWhile p := List.rdropWhile_prefix p _
    obtain ⟨rest, hrest⟩ := hprefix
    refine head_dropWhile s c ?_
    rw [← hrest, List.head?_append, Option.mem_def.mp hc]
    rfl
  last := by
    intro c hc
    have hlast := head_dropWhile (p := p) (s.dropWhile p).reverse c
    rw [trim, List.rdropWhile, List.getLast?_reverse] at hc
    exact hlast hc

end Trimming
