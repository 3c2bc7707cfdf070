/-
The string functions, as their users need them.

Each function of the standard library gets the property it is used for: a number parses where
the string is a numeral, with a plus sign or without (`parseUnsigned_eq_some_iff`); a split is
at the first separator; trimming a pair of characters takes off all of them; and in upper case
an ASCII letter is one still, while white space and digits stay as they are.
-/
import MelsecMc.Lib.Trimming
import MelsecMc.Spec.Spellings

namespace MelsecMc

namespace Text

/-! ### Numbers

The standard library accepts a plus sign in front of an unsigned number.  Without it a string
parses exactly when it is a numeral of the base, below the bound.
-/

theorem digits_eq_read (radix : Nat) (cs : Text) : ∀ acc,
    digits radix acc cs = Numerals.read (toDigit radix) radix acc cs := by
  induction cs with
  | nil => exact fun acc => rfl
  | cons c cs ih =>
      intro acc
      rw [digits, Numerals.read]
      cases toDigit radix c with
      | none => rfl
      | some v => exact ih _

/-- The characters that are digits in some base. -/
theorem toDigit_isSome {radix : Nat} {c : Char} (h : (toDigit radix c).isSome) :
    ('0' ≤ c ∧ c ≤ '9') ∨ ('a' ≤ c ∧ c ≤ 'z') ∨ ('A' ≤ c ∧ c ≤ 'Z') := by
  unfold toDigit at h
  dsimp only at h
  split at h
  · rename_i hdec
    exact .inl hdec
  · split at h
    · rename_i hlow
      exact .inr (.inl hlow)
    · split at h
      · rename_i hup
        exact .inr (.inr hup)
      · cases h

/-- In base ten only the decimal digits are. -/
theorem toDigit_ten_isSome {c : Char} (h : (toDigit 10 c).isSome) : '0' ≤ c ∧ c ≤ '9' := by
  unfold toDigit at h
  dsimp only at h
  split at h
  · assumption
  · split at h
    · rename_i hlow
      have hle : 97 ≤ c.toNat := hlow.1
      simp only [Option.isSome_filter, Option.any_some, decide_eq_true_eq] at h
      omega
    · split at h
      · rename_i hup
        have hle : 65 ≤ c.toNat := hup.1
        simp only [Option.isSome_filter, Option.any_some, decide_eq_true_eq] at h
        omega
      · cases h

/-- A numeral has no sign. -/
theorem not_denotes_plus {radix n : Nat} {cs : Text} : ¬ Denotes radix ('+' :: cs) n := by
  intro h
  rcases toDigit_isSome (h.isSome '+' List.mem_cons_self) with hdec | hlow | hup
  · exact absurd hdec (by decide)
  · exact absurd hlow (by decide)
  · exact absurd hup (by decide)

theorem MaybeSigned.eq_of_denotes {radix n : Nat} {ds s : Text} (hs : MaybeSigned ds s)
    (h : Denotes radix s n) : ds = s := by
  cases hs with
  | unsigned => rfl
  | signed => exact absurd h not_denotes_plus

theorem MaybeSigned.eq_or {ds s : Text} (hs : MaybeSigned ds s) : s = ds ∨ s = '+' :: ds := by
  cases hs with
  | unsigned => exact .inl rfl
  | signed => exact .inr rfl

theorem digits_zero_iff {radix n : Nat} {cs : Text} (hne : cs ≠ []) :
    digits radix 0 cs = some n ↔ Denotes radix cs n := by
  rw [digits_eq_read, Numerals.read_zero_iff hne]

theorem parseUnsigned_plus (radix bound : Nat) {rest : Text} (hne : rest ≠ []) :
    parseUnsigned radix bound ('+' :: rest) = (digits radix 0 rest).filter (· < bound) := by
  cases rest with
  | nil => exact absurd rfl hne
  | cons c cs => rfl

theorem parseUnsigned_plain (radix bound : Nat) {s : Text} (hne : s ≠ [])
    (hplus : ∀ rest, s ≠ '+' :: rest) :
    parseUnsigned radix bound s = (digits radix 0 s).filter (· < bound) := by
  unfold parseUnsigned
  cases s with
  | nil => exact absurd rfl hne
  | cons c cs =>
      split
      · rename_i heq
        exact absurd heq (hplus _)
      · rfl

theorem filter_digits_iff {radix bound n : Nat} {cs : Text} (hne : cs ≠ []) :
    (digits radix 0 cs).filter (· < bound) = some n ↔ n < bound ∧ Denotes radix cs n := by
  rw [Option.filter_eq_some_iff, digits_zero_iff hne, decide_eq_true_eq, and_comm]

/-- **A number parses exactly where the string is a numeral below the bound, with a plus sign
or without.** -/
theorem parseUnsigned_eq_some_iff {radix bound n : Nat} {s : Text} :
    parseUnsigned radix bound s = some n ↔
      n < bound ∧ ∃ ds, MaybeSigned ds s ∧ Denotes radix ds n := by
  constructor
  · intro h
    have hne : s ≠ [] := by
      rintro rfl
      cases h
    by_cases hplus : ∃ rest, s = '+' :: rest
    · obtain ⟨rest, rfl⟩ := hplus
      have hrest : rest ≠ [] := by
        rintro rfl
        cases h
      rw [parseUnsigned_plus _ _ hrest, filter_digits_iff hrest] at h
      exact ⟨h.1, rest, .signed, h.2⟩
    · rw [parseUnsigned_plain _ _ hne fun rest heq => hplus ⟨rest, heq⟩, filter_digits_iff hne] at h
      exact ⟨h.1, s, .unsigned, h.2⟩
  · rintro ⟨hlt, ds, hsigned, hds⟩
    have hfilter := (filter_digits_iff hds.1).mpr ⟨hlt, hds⟩
    cases hsigned with
    | unsigned =>
        rw [parseUnsigned_plain _ _ hds.1, hfilter]
        rintro rest rfl
        exact not_denotes_plus hds
    | signed => rw [parseUnsigned_plus _ _ hds.1, hfilter]

/-! ### Splitting and trimming -/

theorem splitOnce_eq_some_iff {sep : Char} {s a b : Text} :
    splitOnce sep s = some (a, b) ↔ s = a ++ sep :: b ∧ sep ∉ a := by
  unfold splitOnce
  constructor
  · intro h
    split at h
    · rename_i hmem
      rw [Option.some.injEq, Prod.mk.injEq] at h
      obtain ⟨rfl, rfl⟩ := h
      refine ⟨?_, fun hsep => ?_⟩
      · have hhead := List.head?_dropWhile_not (fun c => decide (c ≠ sep)) s
        cases hdrop : s.dropWhile (fun c => decide (c ≠ sep)) with
        | nil =>
            have hnone := List.dropWhile_eq_nil_iff.mp hdrop sep hmem
            exact absurd rfl (of_decide_eq_true hnone)
        | cons c rest =>
            rw [hdrop] at hhead
            have hc : c = sep := by simpa using hhead
            rw [List.tail_cons, ← hc, ← hdrop, hc, List.takeWhile_append_dropWhile]
      · have himp := List.mem_takeWhile_imp (p := fun c => decide (c ≠ sep)) hsep
        exact absurd rfl (of_decide_eq_true himp)
    · cases h
  · rintro ⟨rfl, hsep⟩
    have hne : ∀ c ∈ a, decide (c ≠ sep) = true := fun c hc =>
      decide_eq_true fun heq => hsep (heq ▸ hc)
    rw [if_pos (List.mem_append_right a List.mem_cons_self), List.takeWhile_append_of_pos hne,
      List.dropWhile_append_of_pos hne, List.takeWhile_cons, List.dropWhile_cons]
    simp

theorem trimStartPair_pairs (x y : Char) (k : Nat) (s : Text) :
    trimStartPair x y (pairs x y k ++ s) = trimStartPair x y s := by
  induction k with
  | zero => rfl
  | succ k ih =>
      show trimStartPair x y (x :: y :: (pairs x y k ++ s)) = _
      rw [trimStartPair, if_pos ⟨rfl, rfl⟩, ih]

theorem trimStartPair_of_not (x y : Char) {s : Text} (h : ∀ rest, s ≠ x :: y :: rest) :
    trimStartPair x y s = s := by
  match s with
  | [] => rfl
  | [a] => rfl
  | a :: b :: rest =>
      rw [trimStartPair, if_neg]
      rintro ⟨rfl, rfl⟩
      exact h rest rfl

theorem exists_trimStartPair (x y : Char) (s : Text) :
    ∃ k, s = pairs x y k ++ trimStartPair x y s := by
  fun_induction trimStartPair x y s with
  | case1 a b rest hab ih =>
      obtain ⟨k, hk⟩ := ih
      refine ⟨k + 1, ?_⟩
      rw [hab.1, hab.2]
      exact congrArg (x :: y :: ·) hk
  | case2 a b rest hab => exact ⟨0, rfl⟩
  | case3 s hs => exact ⟨0, rfl⟩

theorem reverse_pairs (x y : Char) (k : Nat) : (pairs x y k).reverse = pairs y x k := by
  have hsnoc : ∀ k, pairs y x k ++ [y, x] = pairs y x (k + 1) := by
    intro k
    induction k with
    | zero => rfl
    | succ k ih => exact congrArg (y :: x :: ·) ih
  induction k with
  | zero => rfl
  | succ k ih =>
      rw [pairs, List.reverse_cons, List.reverse_cons, ih, List.append_assoc]
      exact hsnoc k

/-- All pairs at the end go. -/
theorem trimEndPair_pairs (x y : Char) (s : Text) (k : Nat) :
    trimEndPair x y (s ++ pairs x y k) = trimEndPair x y s := by
  rw [trimEndPair, List.reverse_append, reverse_pairs, trimStartPair_pairs, trimEndPair]

theorem trimEndPair_of_not (x y : Char) {s : Text} (h : ∀ front, s ≠ front ++ [x, y]) :
    trimEndPair x y s = s := by
  rw [trimEndPair, trimStartPair_of_not, List.reverse_reverse]
  intro rest hrest
  refine h rest.reverse ?_
  rw [← List.reverse_reverse s, hrest, List.reverse_cons, List.reverse_cons, List.append_assoc]
  rfl

theorem exists_trimEndPair (x y : Char) (s : Text) :
    ∃ k, s = trimEndPair x y s ++ pairs x y k := by
  obtain ⟨k, hk⟩ := exists_trimStartPair y x s.reverse
  refine ⟨k, ?_⟩
  rw [trimEndPair, ← reverse_pairs y x k, ← List.reverse_append, ← hk, List.reverse_reverse]

/-! ### Upper case

Some characters that are no ASCII letters have ASCII letters for an upper case.  Here it matters
that none of them is white space or a digit.
-/

theorem ascii_upper : ∀ n < 128, upperChar (Char.ofNat n) = [asciiUpper (Char.ofNat n)] ∧
    (isAsciiAlphabetic (Char.ofNat n) = true → isAsciiAlphabetic (asciiUpper (Char.ofNat n)) = true ∧
      asciiUpper (asciiUpper (Char.ofNat n)) = asciiUpper (Char.ofNat n)) := by
  decide

theorem toNat_lt_of_alphabetic {c : Char} (h : isAsciiAlphabetic c = true) : c.toNat < 128 := by
  have hrange : (65 ≤ c.toNat ∧ c.toNat ≤ 90) ∨ (97 ≤ c.toNat ∧ c.toNat ≤ 122) :=
    of_decide_eq_true h
  omega

theorem upperChar_of_lt {c : Char} (h : c.toNat < 128) : upperChar c = [asciiUpper c] := by
  have hc := (ascii_upper c.toNat h).1
  rw [Char.ofNat_toNat] at hc
  exact hc

theorem alphabetic_asciiUpper {c : Char} (h : isAsciiAlphabetic c = true) :
    isAsciiAlphabetic (asciiUpper c) = true := by
  have hc := (ascii_upper c.toNat (toNat_lt_of_alphabetic h)).2
  rw [Char.ofNat_toNat] at hc
  exact (hc h).1

theorem asciiUpper_twice {c : Char} (h : isAsciiAlphabetic c = true) :
    asciiUpper (asciiUpper c) = asciiUpper c := by
  have hc := (ascii_upper c.toNat (toNat_lt_of_alphabetic h)).2
  rw [Char.ofNat_toNat] at hc
  exact (hc h).2

/-- White space is its own upper case. -/
theorem upperChar_whitespace {c : Char} (h : isWhitespace c = true) :
    upperChar c = [c] ∧ isAsciiAlphabetic c = false := by
  have hspace := of_decide_eq_true h
  have hlower : ¬ ('a' ≤ c ∧ c ≤ 'z') := by
    intro hrange
    have hcodes : 97 ≤ c.toNat ∧ c.toNat ≤ 122 := hrange
    omega
  have hupper : ¬ ('A' ≤ c ∧ c ≤ 'Z') := by
    intro hrange
    have hcodes : 65 ≤ c.toNat ∧ c.toNat ≤ 90 := hrange
    omega
  refine ⟨?_, decide_eq_false (not_or.mpr ⟨hupper, hlower⟩)⟩
  unfold upperChar
  rw [if_neg hlower]
  split <;> first | rfl | omega

theorem upperChar_digit {c : Char} (h : '0' ≤ c ∧ c ≤ '9') :
    upperChar c = [c] ∧ isAsciiAlphabetic c = false := by
  have hdigits : ∀ n < 58, 48 ≤ n →
      upperChar (Char.ofNat n) = [Char.ofNat n] ∧ isAsciiAlphabetic (Char.ofNat n) = false := by
    decide
  have h0 : ('0' : Char).toNat ≤ c.toNat := h.1
  have h9 : c.toNat ≤ ('9' : Char).toNat := h.2
  have hc := hdigits c.toNat (Nat.lt_succ_of_le h9) h0
  rw [Char.ofNat_toNat] at hc
  exact hc

end Text

end MelsecMc
