/-
Fixed-width little-endian numbers.

A number is written as exactly `w` bytes, least significant first, and a list of
bytes is read back as a base-256 number.  Reading is Mathlib's `Nat.ofDigits`, so
the only thing this file has to supply is the writer and what the two do to each
other: reading what was written gives the number modulo `256 ^ w`, and so the
number itself whenever it fits.  In the other byte order a number is the reverse.
-/
import Mathlib.Data.Nat.Digits.Defs

namespace LittleEndian

/-- The low `w` bytes of `n`, least significant first. -/
def bytes : Nat → Nat → List UInt8
  | 0, _ => []
  | w + 1, n => UInt8.ofNat n :: bytes w (n / 256)

/-- A list of bytes read as a base-256 number, least significant byte first. -/
def value (bs : List UInt8) : Nat :=
  Nat.ofDigits 256 (bs.map UInt8.toNat)

@[simp] theorem bytes_zero (n : Nat) : bytes 0 n = [] := rfl

@[simp] theorem bytes_succ (w n : Nat) :
    bytes (w + 1) n = UInt8.ofNat n :: bytes w (n / 256) := rfl

@[simp] theorem value_nil : value [] = 0 := rfl

@[simp] theorem value_cons (b : UInt8) (bs : List UInt8) :
    value (b :: bs) = b.toNat + 256 * value bs := by
  simp [value, Nat.ofDigits_cons]

@[simp] theorem length_bytes (w n : Nat) : (bytes w n).length = w := by
  induction w generalizing n with
  | zero => rfl
  | succ w ih => rw [bytes_succ, List.length_cons, ih]

/-- Writing drops everything above the width. -/
theorem value_bytes (w n : Nat) : value (bytes w n) = n % 256 ^ w := by
  induction w generalizing n with
  | zero => simp [Nat.mod_one]
  | succ w ih =>
      have hlow : (UInt8.ofNat n).toNat = n % 256 := UInt8.toNat_ofNat'
      rw [bytes_succ, value_cons, ih, hlow, Nat.pow_succ', Nat.mod_mul]

/-- The bytes above the width do not matter. -/
theorem bytes_mod {w k : Nat} (h : w ≤ k) (n : Nat) : bytes w (n % 256 ^ k) = bytes w n := by
  induction w generalizing k n with
  | zero => rfl
  | succ w ih =>
      obtain ⟨k, rfl⟩ : ∃ j, k = j + 1 := ⟨k - 1, by omega⟩
      rw [bytes_succ, bytes_succ, Nat.pow_succ', Nat.mod_mul_right_div_self, ih (by omega)]
      congr 1
      apply UInt8.toNat_inj.mp
      rw [UInt8.toNat_ofNat', UInt8.toNat_ofNat', Nat.mod_mul_right_mod]

end LittleEndian

namespace BigEndian

/-- A list of bytes read as a base-256 number, most significant byte first. -/
def value (bs : List UInt8) : Nat :=
  bs.foldl (fun n b => 256 * n + b.toNat) 0

theorem value_reverse (bs : List UInt8) : value bs.reverse = LittleEndian.value bs := by
  induction bs with
  | nil => rfl
  | cons b bs ih =>
      have hlast : value (bs.reverse ++ [b]) = 256 * value bs.reverse + b.toNat :=
        List.foldl_append
      rw [List.reverse_cons, hlast, ih, LittleEndian.value_cons, Nat.add_comm]

end BigEndian
