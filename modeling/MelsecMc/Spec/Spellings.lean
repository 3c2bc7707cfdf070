/-
How numbers, fields and devices are written.

Nothing here is translated from the source.  `docs/commands.md` lists the types a field may
have, and the documentation of `parse_device_and_address` says how a device is written; both
are grammars, and each production here is one of theirs.
-/
import MelsecMc.CommandSpec
import MelsecMc.Device
import MelsecMc.Lib.Numerals

namespace MelsecMc

namespace Text

/-- The run of digits denotes the number, in this base. -/
abbrev Denotes (radix : Nat) : Text → Nat → Prop :=
  Numerals.Denotes (toDigit radix) radix

/-- A string with an optional plus sign before the digits. -/
inductive MaybeSigned (ds : Text) : Text → Prop
  | unsigned : MaybeSigned ds ds
  | signed : MaybeSigned ds ('+' :: ds)

/-- The upper case of an ASCII letter; every other character stays. -/
def asciiUpper (c : Char) : Char :=
  if 'a' ≤ c ∧ c ≤ 'z' then Char.ofNat (c.toNat - 32) else c

/-- `k` times the pair of characters. -/
def pairs (x y : Char) : Nat → Text
  | 0 => []
  | k + 1 => x :: y :: pairs x y k

end Text

/-! ### Fields -/

/-- A width in decimal digits. -/
def IsWidth (ds : Text) (n : Nat) : Prop :=
  Text.Denotes 10 ds n ∧ n < usizeBound

/-- The types a field may have. -/
inductive FieldType : FieldKind → Text → Prop
  | width {ds : Text} {n : Nat} (h : IsWidth ds n) : FieldType (.fixedBytes n true) ds
  | widthLe {ds : Text} {n : Nat} (h : IsWidth ds n) :
      FieldType (.fixedBytes n true) (ds ++ "le".toList)
  | widthBe {ds : Text} {n : Nat} (h : IsWidth ds n) :
      FieldType (.fixedBytes n false) (ds ++ "be".toList)
  | wordsLe : FieldType (.words true) "words_le".toList
  | wordsBe : FieldType (.words false) "words_be".toList
  | bytes : FieldType .bytes "bytes".toList
  | rest : FieldType .bytes "rest".toList
  | dots : FieldType .bytes "..".toList
  | asciiHex : FieldType .asciiHex "ascii_hex".toList

/-- A name, a colon, and a type; the name ends at the first colon. -/
structure IsFieldSpec (s : String) (f : FieldSpec) : Prop where
  name : ':' ∉ f.name.toList
  typ : ∃ typ, s.toList = f.name.toList ++ ':' :: typ ∧ FieldType f.kind typ

/-- Types that are none, and that `parse_field_spec` lets pass. -/
inductive Overlooked : Text → Prop
  | words {rest : Text} (hle : rest ≠ "_le".toList) (hbe : rest ≠ "_be".toList) :
      Overlooked ("words".toList ++ rest)
  | signed {ds : Text} {n : Nat} (h : IsWidth ds n) (be le : Nat) :
      Overlooked ('+' :: ds ++ (Text.pairs 'b' 'e' be ++ Text.pairs 'l' 'e' le))
  | suffixes {ds : Text} {n be le : Nat} (h : IsWidth ds n) (htwo : 2 ≤ be + le) :
      Overlooked (ds ++ (Text.pairs 'b' 'e' be ++ Text.pairs 'l' 'e' le))

/-! ### Response entries -/

/-- What stands between the colons of a response entry: its name, its kind, for two kinds an
option, and anything behind these. -/
inductive ResponseParts : ResponseEntry → List String → Prop
  | wordsLe {name : String} {more : List String} :
      ResponseParts (.blockWords name true) (name :: "blocks_words_le" :: more)
  | wordsBe {name : String} {more : List String} :
      ResponseParts (.blockWords name false) (name :: "blocks_words_be" :: more)
  | bits {name : String} {more : List String} (h : more.head? ≠ some "msb") :
      ResponseParts (.blockBitsPacked name true) (name :: "blocks_bits_packed" :: more)
  | bitsMsb {name : String} {more : List String} :
      ResponseParts (.blockBitsPacked name false) (name :: "blocks_bits_packed" :: "msb" :: more)
  | nibbles {name : String} {more : List String} (h : more.head? ≠ some "low") :
      ResponseParts (.blockNibbles name true) (name :: "blocks_nibbles" :: more)
  | nibblesLow {name : String} {more : List String} :
      ResponseParts (.blockNibbles name false) (name :: "blocks_nibbles" :: "low" :: more)
  | asciiHex {name : String} {more : List String} :
      ResponseParts (.asciiHex name) (name :: "ascii_hex" :: more)

/-- The string spells the entry: its parts with colons between them, and none inside one. -/
def ResponseEntry.SpeltBy (e : ResponseEntry) (rf : String) : Prop :=
  ∃ parts, ResponseParts e parts ∧ (∀ part ∈ parts, ':' ∉ part.toList) ∧
    rf = ":".intercalate parts

/-! ### Devices -/

def NumberBase.radix : NumberBase → Nat
  | .decimal => 10
  | .hexadecimal => 16

/-- A device as it is written: its letters, perhaps white space, and the digits. -/
structure DeviceString where
  letters : Text
  gap : Text
  digits : Text

namespace DeviceString

def text (p : DeviceString) : Text := p.letters ++ p.gap ++ p.digits

/-- The string names the symbol, in any letter case, and the address. -/
structure Names (p : DeviceString) (symbol : String) (base : NumberBase) (addr : Nat) : Prop where
  letters : p.letters ≠ [] ∧ ∀ c ∈ p.letters, Text.isAsciiAlphabetic c = true
  symbol : p.letters.map Text.asciiUpper = symbol.toList.map Text.asciiUpper
  gap : ∀ c ∈ p.gap, Text.isWhitespace c = true
  digits : Text.Denotes base.radix p.digits addr

/-- The letters end where the number begins: white space is between them, or the number begins
with a decimal digit. -/
def Apart (p : DeviceString) : Prop :=
  p.gap ≠ [] ∨ ∃ c ∈ p.digits.head?, '0' ≤ c ∧ c ≤ '9'

end DeviceString

end MelsecMc
