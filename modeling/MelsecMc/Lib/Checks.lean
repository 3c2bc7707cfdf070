/-
Checks that decide a property.

A check returns nothing or fails.  `Decides` is its contract: it passes where a property
holds, and where the property does not hold it fails softly, with an error and not with a
crash.  Checks in a row decide the conjunction, and a check over a list decides that the
property holds throughout.
-/
import Mathlib.Init

namespace Checks

variable {ε α : Type} {soft : ε → Prop}

/-- The check passes if the property holds, and fails softly if it does not. -/
def Decides (soft : ε → Prop) (check : Except ε Unit) (p : Prop) : Prop :=
  (check = .ok () ∧ p) ∨ (∃ e, soft e ∧ check = .error e) ∧ ¬ p

namespace Decides

variable {check check' : Except ε Unit} {p q : Prop}

theorem ok_iff (h : Decides soft check p) : check = .ok () ↔ p := by
  rcases h with ⟨hok, hp⟩ | ⟨⟨e, -, he⟩, hp⟩
  · exact ⟨fun _ => hp, fun _ => hok⟩
  · rw [he]
    exact ⟨fun hok => (by cases hok), fun h => absurd h hp⟩

theorem fails (h : Decides soft check p) (hp : ¬ p) : ∃ e, soft e ∧ check = .error e := by
  rcases h with ⟨-, hp'⟩ | ⟨he, -⟩
  · exact absurd hp' hp
  · exact he

theorem pass (hp : p) : Decides soft (.ok ()) p := .inl ⟨rfl, hp⟩

theorem fail {e : ε} (he : soft e) (hp : ¬ p) : Decides soft (.error e) p :=
  .inr ⟨⟨e, he, rfl⟩, hp⟩

theorem congr (h : Decides soft check p) (hpq : p ↔ q) : Decides soft check q := by
  rcases h with ⟨hok, hp⟩ | ⟨he, hp⟩
  · exact .inl ⟨hok, hpq.mp hp⟩
  · exact .inr ⟨he, fun hq => hp (hpq.mpr hq)⟩

/-- One check after another. -/
theorem seq (h : Decides soft check p) (h' : Decides soft check' q) :
    Decides soft (check >>= fun _ => check') (p ∧ q) := by
  rcases h with ⟨hok, hp⟩ | ⟨⟨e, he, hcheck⟩, hp⟩
  · rw [hok]
    exact h'.congr ⟨fun hq => ⟨hp, hq⟩, fun hpq => hpq.2⟩
  · rw [hcheck]
    exact fail he fun hpq => hp hpq.1

/-- A check of every element. -/
theorem forM {each : α → Except ε Unit} {holds : α → Prop} {l : List α}
    (h : ∀ a ∈ l, Decides soft (each a) (holds a)) :
    Decides soft (l.forM each) (∀ a ∈ l, holds a) := by
  induction l with
  | nil => exact pass fun a ha => absurd ha List.not_mem_nil
  | cons a l ih =>
      have hrest := ih fun b hb => h b (.tail a hb)
      exact ((h a List.mem_cons_self).seq hrest).congr List.forall_mem_cons.symm

end Decides

end Checks
