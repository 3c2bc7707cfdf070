/-
Numerals.

A numeral is a non-empty run of digits, the most significant one first; leading zeros do not
change what it denotes.  `Denotes` says so with the positional sum, and a reader that goes from
left to right and multiplies what it has by the base computes that sum (`read_eq_some_iff`).
What a digit is, and which characters are digits, is a parameter.
-/
import Mathlib.Data.List.Forall2
import Mathlib.Data.Nat.Digits.Lemmas
import MelsecMc.Lib.Pointwise

namespace Numerals

variable {α : Type} (digit : α → Option Nat) (base : Nat)

/-- The digits have these values. -/
def Valued (cs : List α) (values : List Nat) : Prop :=
  List.Forall₂ (fun c v => digit c = some v) cs values

/-- The run of digits denotes the number. -/
def Denotes (cs : List α) (n : Nat) : Prop :=
  cs ≠ [] ∧ ∃ values, Valued digit cs values ∧ n = Nat.ofDigits base values.reverse

/-- Read from the left, `acc` standing for the digits before. -/
def read : Nat → List α → Option Nat
  | acc, [] => some acc
  | acc, c :: cs =>
      match digit c with
      | some v => read (acc * base + v) cs
      | none => none

variable {digit base}

theorem Valued.unique {cs : List α} {values values' : List Nat} (h : Valued digit cs values)
    (h' : Valued digit cs values') : values = values' := by
  induction h generalizing values' with
  | nil =>
      cases h'
      rfl
  | cons hv _ ih =>
      cases h' with
      | cons hv' hrest =>
          rw [hv, Option.some.injEq] at hv'
          rw [hv', ih hrest]

theorem Valued.length_eq {cs : List α} {values : List Nat} (h : Valued digit cs values) :
    cs.length = values.length :=
  List.Forall₂.length_eq h

/-- Every character of the run is a digit. -/
theorem Valued.isSome {cs : List α} {values : List Nat} (h : Valued digit cs values) :
    ∀ c ∈ cs, (digit c).isSome := by
  induction h with
  | nil => exact fun c hc => absurd hc List.not_mem_nil
  | cons hv _ ih => exact List.forall_mem_cons.mpr ⟨by rw [hv]; rfl, ih⟩

/-- A numeral denotes one number. -/
theorem Denotes.unique {cs : List α} {n m : Nat} (h : Denotes digit base cs n)
    (h' : Denotes digit base cs m) : n = m := by
  obtain ⟨-, values, hvalues, rfl⟩ := h
  obtain ⟨-, values', hvalues', rfl⟩ := h'
  rw [hvalues.unique hvalues']

theorem Denotes.isSome {cs : List α} {n : Nat} (h : Denotes digit base cs n) :
    ∀ c ∈ cs, (digit c).isSome := by
  obtain ⟨-, values, hvalues, -⟩ := h
  exact hvalues.isSome

/-- What has been read is moved up by the digits that follow. -/
theorem read_eq_some_iff {cs : List α} : ∀ {acc n : Nat},
    read digit base acc cs = some n ↔
      ∃ values, Valued digit cs values ∧
        n = acc * base ^ cs.length + Nat.ofDigits base values.reverse := by
  induction cs with
  | nil =>
      intro acc n
      rw [read, Option.some.injEq]
      constructor
      · rintro rfl
        exact ⟨[], .nil, by simp⟩
      · rintro ⟨values, hvalues, rfl⟩
        cases hvalues
        simp
  | cons c cs ih =>
      intro acc n
      rw [read]
      cases hdigit : digit c with
      | none =>
          constructor
          · intro h
            cases h
          · rintro ⟨values, hvalues, -⟩
            cases hvalues with
            | cons hv _ =>
                rw [hdigit] at hv
                cases hv
      | some v =>
          have hstep : ∀ values : List Nat, values.length = cs.length →
              (acc * base + v) * base ^ cs.length + Nat.ofDigits base values.reverse =
                acc * base ^ (c :: cs).length + Nat.ofDigits base (v :: values).reverse := by
            intro values hlen
            rw [List.reverse_cons, Nat.ofDigits_append, Nat.ofDigits_singleton,
              List.length_reverse, hlen, List.length_cons]
            ring
          dsimp only
          rw [ih]
          constructor
          · rintro ⟨values, hvalues, rfl⟩
            exact ⟨v :: values, .cons hdigit hvalues, hstep values hvalues.length_eq.symm⟩
          · rintro ⟨values, hvalues, rfl⟩
            cases hvalues with
            | cons hv hrest =>
                rw [hdigit, Option.some.injEq] at hv
                rw [← hv]
                exact ⟨_, hrest, (hstep _ hrest.length_eq.symm).symm⟩

/-- From nothing, the reader computes what the numeral denotes. -/
theorem read_zero_iff {cs : List α} {n : Nat} (hne : cs ≠ []) :
    read digit base 0 cs = some n ↔ Denotes digit base cs n := by
  rw [read_eq_some_iff, Denotes, Nat.zero_mul]
  simp only [Nat.zero_add]
  exact ⟨fun h => ⟨hne, h⟩, And.right⟩

/-- With a character for each digit there is a numeral for every number. -/
theorem exists_denotes (hbase : 1 < base) (hdigit : ∀ v < base, ∃ c, digit c = some v) (n : Nat) :
    ∃ cs, Denotes digit base cs n := by
  have hvalues : ∀ v ∈ 0 :: (Nat.digits base n).reverse, ∃ c, digit c = some v := by
    intro v hv
    rcases List.mem_cons.mp hv with rfl | hv
    · exact hdigit 0 (by omega)
    · exact hdigit v (Nat.digits_lt_base hbase (List.mem_reverse.mp hv))
  obtain ⟨cs, hcs⟩ := Pointwise.exists_forall₂_iff.mpr hvalues
  have hne : cs ≠ [] := by
    rintro rfl
    cases hcs
  refine ⟨cs, hne, 0 :: (Nat.digits base n).reverse, hcs.flip, ?_⟩
  rw [List.reverse_cons, List.reverse_reverse, Nat.ofDigits_append, Nat.ofDigits_digits,
    Nat.ofDigits_singleton, Nat.mul_zero, Nat.add_zero]

end Numerals
