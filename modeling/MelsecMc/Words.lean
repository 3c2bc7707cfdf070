/-
Typed values and words.

`FromWords` and `ToWords` say how a type is read from a slice of words and written to
one; types of two words have the low word first.  `readElements` is the loop of
`read_words_as`, which takes one element after another and moves on by one word when an
element does not decode.
-/
import MelsecMc.Json

namespace MelsecMc

/-- `FromWords` -/
class FromWords (α : Type) where
  /-- `WORDS` -/
  words : Nat
  /-- the value, and how many words of the slice it took -/
  fromWordsSlice : List UInt16 → Except Failure (α × Nat)

/-- `ToWords` -/
class ToWords (α : Type) where
  /-- `WORDS` -/
  words : Nat
  /-- the words so far, with those of the value behind them -/
  toWords : α → List UInt16 → List UInt16

/-- An `f32`, which is its bit pattern. -/
structure F32 where
  bits : UInt32
  deriving DecidableEq, Repr

/-! ### One word -/

/-- A decoder of one word. -/
def oneWord {α : Type} (typeName : String) (decode : UInt16 → α) :
    List UInt16 → Except Failure (α × Nat)
  | [] => protocolError s!"not enough words for {typeName}"
  | w :: _ => .ok (decode w, 1)

instance : FromWords UInt16 where
  words := 1
  fromWordsSlice := oneWord "u16" id

instance : FromWords Int16 where
  words := 1
  fromWordsSlice := oneWord "i16" UInt16.toInt16

/-- The bits of a word, lowest first. -/
def bits16 (w : UInt16) : Vector Bool 16 :=
  Vector.ofFn fun i => ((w >>> UInt16.ofNat i) &&& 0x01) ≠ 0

instance : FromWords (Vector Bool 16) where
  words := 1
  fromWordsSlice := oneWord "bits16" bits16

instance : ToWords UInt16 where
  words := 1
  toWords v out := out ++ [v]

instance : ToWords Int16 where
  words := 1
  toWords v out := out ++ [v.toUInt16]

/-- The word with these bits, lowest first. -/
def word16 (bits : Vector Bool 16) : UInt16 :=
  (List.finRange 16).foldl
    (fun w i => if bits.get i then w ||| ((1 : UInt16) <<< UInt16.ofNat i) else w) 0

instance : ToWords (Vector Bool 16) where
  words := 1
  toWords v out := out ++ [word16 v]

/-! ### Two words -/

/-- A decoder of two words, the low one first. -/
def twoWords {α : Type} (typeName : String) (decode : UInt32 → α) :
    List UInt16 → Except Failure (α × Nat)
  | low :: high :: _ => .ok (decode ((high.toUInt32 <<< 16) ||| low.toUInt32), 2)
  | _ => protocolError s!"not enough words for {typeName}"

/-- The low word and the high word. -/
def splitWords (v : UInt32) : List UInt16 :=
  [(v &&& 0xFFFF).toUInt16, ((v >>> 16) &&& 0xFFFF).toUInt16]

instance : FromWords UInt32 where
  words := 2
  fromWordsSlice := twoWords "u32" id

instance : FromWords Int32 where
  words := 2
  fromWordsSlice := twoWords "i32" UInt32.toInt32

instance : FromWords F32 where
  words := 2
  fromWordsSlice := twoWords "f32" F32.mk

instance : ToWords UInt32 where
  words := 2
  toWords v out := out ++ splitWords v

instance : ToWords Int32 where
  words := 2
  toWords v out := out ++ splitWords v.toUInt32

instance : ToWords F32 where
  words := 2
  toWords v out := out ++ splitWords v.bits

/-! ### Lists of elements -/

/-- The words `write_words_as` hands to `write_words`. -/
def flattenWords {α : Type} [ToWords α] (values : List α) : List UInt16 :=
  values.foldl (fun flat v => ToWords.toWords v flat) []

/-- One block of `data_blocks`: items that are not numbers are skipped. -/
def collectBlock : List UInt16 → List JsonValue → Except Failure (List UInt16)
  | words, [] => .ok words
  | words, item :: items =>
      match item.asU64 with
      | some n =>
          if n.toNat < 65536 then collectBlock (words ++ [UInt16.ofNat n.toNat]) items
          else protocolError "word value out of range for u16"
      | none => collectBlock words items

/-- The words of all the blocks under `data_blocks`. -/
def collectWords (parsed : JsonValue) : Except Failure (List UInt16) :=
  (((parsed.get "data_blocks").bind JsonValue.asArray).getD []).foldlM
    (fun words block => collectBlock words (block.asArray.getD [])) []

/-- The slice `&words[idx..]`: it panics unless `idx ≤ words.len()`. -/
def wordsFrom (words : List UInt16) (idx : Nat) : Except Failure (List UInt16) :=
  if idx ≤ words.length then .ok (words.drop idx) else .error (.panic .indexOutOfBounds)

/-- The element loop of `read_words_as`. -/
def readElements {α : Type} [FromWords α] (words : List UInt16) (count idx parsed : Nat)
    (out : List α) : Except Failure (List α) :=
  if _h : parsed < count ∧ idx + FromWords.words α ≤ words.length then
    match wordsFrom words idx with
    | .error e => .error e
    | .ok slice =>
        match FromWords.fromWordsSlice slice with
        | .ok (val, used) => readElements words count (idx + used) (parsed + 1) (out ++ [val])
        -- a parse error: advance by one word and try to resync
        | .error (.err _) => readElements words count (idx + 1) parsed out
        | .error (.panic p) => .error (.panic p)
  else .ok out
termination_by (count - parsed) + (words.length + 1 - idx)

end MelsecMc
