/-
Text.

The crate works on `&str` with the standard library's functions.  A string is here the
list of its characters, and each function has the standard library's name and does what
its documentation says, for every Unicode character.
-/

namespace MelsecMc

abbrev Text := List Char

namespace Text

/-- `char::is_ascii_alphabetic` -/
def isAsciiAlphabetic (c : Char) : Bool :=
  ('A' ≤ c ∧ c ≤ 'Z') ∨ ('a' ≤ c ∧ c ≤ 'z')

/-- `char::is_whitespace`: the characters with the property `White_Space`. -/
def isWhitespace (c : Char) : Bool :=
  (0x09 ≤ c.toNat ∧ c.toNat ≤ 0x0D) ∨ c.toNat = 0x20 ∨ c.toNat = 0x85 ∨ c.toNat = 0xA0 ∨
    c.toNat = 0x1680 ∨ (0x2000 ≤ c.toNat ∧ c.toNat ≤ 0x200A) ∨ c.toNat = 0x2028 ∨
    c.toNat = 0x2029 ∨ c.toNat = 0x202F ∨ c.toNat = 0x205F ∨ c.toNat = 0x3000

/-- `str::trim` -/
def trim (s : Text) : Text :=
  ((s.dropWhile isWhitespace).reverse.dropWhile isWhitespace).reverse

/-- The upper case of one character.  Listed are the characters whose upper case contains
an ASCII letter.  Every other one is kept: what it becomes has no ASCII letter, and the
crate looks only at the ASCII letters a result begins with. -/
def upperChar (c : Char) : Text :=
  if 'a' ≤ c ∧ c ≤ 'z' then [Char.ofNat (c.toNat - 32)]
  else
    match c.toNat with
    | 0x00DF => ['S', 'S']
    | 0x0131 => ['I']
    | 0x0149 => [Char.ofNat 0x02BC, 'N']
    | 0x017F => ['S']
    | 0x01F0 => ['J', Char.ofNat 0x030C]
    | 0x1E96 => ['H', Char.ofNat 0x0331]
    | 0x1E97 => ['T', Char.ofNat 0x0308]
    | 0x1E98 => ['W', Char.ofNat 0x030A]
    | 0x1E99 => ['Y', Char.ofNat 0x030A]
    | 0x1E9A => ['A', Char.ofNat 0x02BE]
    | 0xFB00 => ['F', 'F']
    | 0xFB01 => ['F', 'I']
    | 0xFB02 => ['F', 'L']
    | 0xFB03 => ['F', 'F', 'I']
    | 0xFB04 => ['F', 'F', 'L']
    | 0xFB05 => ['S', 'T']
    | 0xFB06 => ['S', 'T']
    | _ => [c]

/-- `str::to_uppercase` -/
def toUppercase (s : Text) : Text :=
  s.flatMap upperChar

/-- `char::to_digit` -/
def toDigit (radix : Nat) (c : Char) : Option Nat :=
  let value :=
    if '0' ≤ c ∧ c ≤ '9' then some (c.toNat - 48)
    else if 'a' ≤ c ∧ c ≤ 'z' then some (c.toNat - 87)
    else if 'A' ≤ c ∧ c ≤ 'Z' then some (c.toNat - 55)
    else none
  value.filter (· < radix)

/-- The number a run of digits denotes, `acc` standing for the digits before it. -/
def digits (radix : Nat) : Nat → Text → Option Nat
  | acc, [] => some acc
  | acc, c :: cs =>
      match toDigit radix c with
      | some d => digits radix (acc * radix + d) cs
      | none => none

/-- `from_str_radix` of an unsigned type with `bound` values: an optional plus sign and at
least one digit.  The checked arithmetic of the standard library fails as soon as the
digits so far exceed the type, which is when all of them do. -/
def parseUnsigned (radix bound : Nat) (s : Text) : Option Nat :=
  let rest := match s with
    | '+' :: rest => rest
    | _ => s
  match rest with
  | [] => none
  | _ => (digits radix 0 rest).filter (· < bound)

/-- `splitn(2, sep)`, when it gives two parts. -/
def splitOnce (sep : Char) (s : Text) : Option (Text × Text) :=
  if sep ∈ s then some (s.takeWhile (· ≠ sep), (s.dropWhile (· ≠ sep)).tail) else none

/-- `trim_start_matches` of a pattern of two characters. -/
def trimStartPair (x y : Char) : Text → Text
  | a :: b :: rest => if a = x ∧ b = y then trimStartPair x y rest else a :: b :: rest
  | s => s

/-- `trim_end_matches` of a pattern of two characters. -/
def trimEndPair (x y : Char) (s : Text) : Text :=
  (trimStartPair y x s.reverse).reverse

/-- `str::contains` -/
def contains (part : Text) : Text → Bool
  | [] => part.isEmpty
  | c :: cs => part.isPrefixOf (c :: cs) || contains part cs

/-- `{n:0width$X}` -/
def hexUpper (width n : Nat) : Text :=
  List.leftpad width '0' ((Nat.toDigits 16 n).map Char.toUpper)

end Text

end MelsecMc
