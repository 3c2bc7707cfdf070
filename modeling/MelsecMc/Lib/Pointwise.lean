/-
Lists related element by element.

A loop that makes one result of each element relates two lists element by element
(`List.Forall₂`).  Such a list of results exists where there is a result for every element, and
two loops in a row relate the elements by the composition.
-/
import Mathlib.Data.List.Forall2

namespace Pointwise

variable {α β γ : Type} {R : α → β → Prop} {S : β → γ → Prop}

/-- There is a list of results when there is a result for each element. -/
theorem exists_forall₂_iff {l : List α} :
    (∃ r, List.Forall₂ R l r) ↔ ∀ a ∈ l, ∃ b, R a b := by
  induction l with
  | nil => exact ⟨fun _ a ha => absurd ha List.not_mem_nil, fun _ => ⟨[], .nil⟩⟩
  | cons a l ih =>
      rw [List.forall_mem_cons, ← ih]
      constructor
      · rintro ⟨r, h⟩
        cases h with
        | cons hb hbs => exact ⟨⟨_, hb⟩, _, hbs⟩
      · rintro ⟨⟨b, hb⟩, bs, hbs⟩
        exact ⟨b :: bs, .cons hb hbs⟩

/-- Each element has its result. -/
theorem exists_result {l : List α} {r : List β} (h : List.Forall₂ R l r) {a : α} (ha : a ∈ l) :
    ∃ b ∈ r, R a b := by
  induction h with
  | nil => exact absurd ha List.not_mem_nil
  | cons hb hbs ih =>
      rcases List.mem_cons.mp ha with rfl | ha
      · exact ⟨_, List.mem_cons_self, hb⟩
      · obtain ⟨b, hmem, hab⟩ := ih ha
        exact ⟨b, .tail _ hmem, hab⟩

/-- Each result is that of an element. -/
theorem exists_element {l : List α} {r : List β} (h : List.Forall₂ R l r) {b : β} (hb : b ∈ r) :
    ∃ a ∈ l, R a b :=
  exists_result h.flip hb

/-- Two steps in a row. -/
theorem exists_forall₂_comp {l : List α} {r : List γ} :
    (∃ m, List.Forall₂ R l m ∧ List.Forall₂ S m r) ↔
      List.Forall₂ (fun a c => ∃ b, R a b ∧ S b c) l r := by
  induction l generalizing r with
  | nil =>
      constructor
      · rintro ⟨m, hm, hr⟩
        cases hm
        cases hr
        exact .nil
      · intro h
        cases h
        exact ⟨[], .nil, .nil⟩
  | cons a l ih =>
      constructor
      · rintro ⟨m, hm, hr⟩
        cases hm with
        | cons hb hbs =>
            cases hr with
            | cons hc hcs => exact .cons ⟨_, hb, hc⟩ (ih.mp ⟨_, hbs, hcs⟩)
      · intro h
        cases h with
        | cons hac hrest =>
            obtain ⟨b, hb, hc⟩ := hac
            obtain ⟨bs, hbs, hcs⟩ := ih.mpr hrest
            exact ⟨b :: bs, .cons hb hbs, .cons hc hcs⟩

theorem mapM_eq_some_iff {f : α → Option β} {l : List α} : ∀ {r : List β},
    l.mapM f = some r ↔ List.Forall₂ (fun a b => f a = some b) l r := by
  induction l with
  | nil =>
      intro r
      rw [List.mapM_nil, List.forall₂_nil_left_iff]
      exact Option.some_inj.trans eq_comm
  | cons a l ih =>
      intro r
      rw [List.mapM_cons, Option.bind_eq_bind, Option.bind_eq_some_iff]
      constructor
      · rintro ⟨b, hb, h⟩
        obtain ⟨bs, hbs, h⟩ := Option.bind_eq_some_iff.mp h
        cases h
        exact .cons hb (ih.mp hbs)
      · intro h
        cases h with
        | cons hb hbs =>
            refine ⟨_, hb, ?_⟩
            rw [ih.mpr hbs]
            rfl

end Pointwise
