/-
Typed values through the wire and back.

Four layers each choose an order: a value becomes words, the words become bytes, the bytes
become the items of a JSON block, and the words are taken off again element by element.
`LawfulWords` is the one fact about a type the rest needs.

Each of the six types of the crate has it, by the shifts and masks of its own conversions.
That the number of words is fixed for a type is part of it, since the loop counts elements
and asks for words.
-/
import MelsecMc.Words
import MelsecMc.Proofs.BlockResponse
import MelsecMc.Proofs.WriteRequest

namespace MelsecMc

theorem joinWords_splitWords (v : UInt32) :
    (((v >>> 16) &&& 0xFFFF).toUInt16.toUInt32 <<< 16) ||| (v &&& 0xFFFF).toUInt16.toUInt32 = v := by
  have hv : v.toNat < 4294967296 := v.toNat_lt
  have hlow : (v &&& 0xFFFF).toUInt16.toUInt32.toNat = v.toNat % 65536 := by
    rw [UInt16.toNat_toUInt32, UInt32.toNat_toUInt16, UInt32.toNat_and,
      show (0xFFFF : UInt32).toNat = 2 ^ 16 - 1 from rfl, Nat.and_two_pow_sub_one_eq_mod]
    omega
  have hhigh : ((v >>> 16) &&& 0xFFFF).toUInt16.toUInt32.toNat = v.toNat / 65536 := by
    rw [UInt16.toNat_toUInt32, UInt32.toNat_toUInt16, UInt32.toNat_and, UInt32.toNat_shiftRight,
      show (0xFFFF : UInt32).toNat = 2 ^ 16 - 1 from rfl, Nat.and_two_pow_sub_one_eq_mod,
      show (16 : UInt32).toNat % 32 = 16 from rfl, Nat.shiftRight_eq_div_pow]
    omega
  apply UInt32.toNat_inj.mp
  rw [UInt32.toNat_or, UInt32.toNat_shiftLeft, hlow, hhigh,
    show (16 : UInt32).toNat % 32 = 16 from rfl, Nat.shiftLeft_eq]
  rw [Nat.mod_eq_of_lt (by omega), Nat.mul_comm, ← Nat.two_pow_add_eq_or_of_lt (by omega)]
  omega

/-! ### Bits

Sixteen bits are a word, and one bit at a time is set and read again.
-/

theorem toNat_ofNat_fin (i : Fin 16) : (UInt16.ofNat i).toNat % 16 = i := by
  rw [UInt16.toNat_ofNat']
  omega

theorem testBit_eq_shift (w : UInt16) (i : Fin 16) :
    decide ((w >>> UInt16.ofNat i) &&& 0x01 ≠ 0) = w.toNat.testBit i := by
  have hbit : ((w >>> UInt16.ofNat i) &&& 0x01).toNat = w.toNat / 2 ^ i.val % 2 := by
    rw [UInt16.toNat_and, UInt16.toNat_shiftRight, toNat_ofNat_fin, Nat.shiftRight_eq_div_pow,
      show (0x01 : UInt16).toNat = 1 from rfl, Nat.and_one_is_mod]
  rw [Nat.testBit_eq_decide_div_mod_eq, decide_eq_decide, Ne, ← UInt16.toNat_inj, hbit,
    show (0 : UInt16).toNat = 0 from rfl]
  omega

theorem testBit_or_shift (w : UInt16) (i j : Fin 16) :
    (w ||| ((1 : UInt16) <<< UInt16.ofNat j)).toNat.testBit i =
      (w.toNat.testBit i || decide (j = i)) := by
  have hpow : 2 ^ j.val < 2 ^ 16 := Nat.pow_lt_pow_right (by decide) j.isLt
  have hbit : ((1 : UInt16) <<< UInt16.ofNat j).toNat = 2 ^ j.val := by
    rw [UInt16.toNat_shiftLeft, toNat_ofNat_fin, show (1 : UInt16).toNat = 1 from rfl,
      Nat.one_shiftLeft, Nat.mod_eq_of_lt hpow]
  have hij : decide (j.val = i.val) = decide (j = i) := decide_eq_decide.mpr Fin.ext_iff.symm
  rw [UInt16.toNat_or, Nat.testBit_or, hbit, Nat.testBit_two_pow, hij]

/-- The loop over the bits of a word sets those of the list that are true. -/
theorem testBit_foldl (bits : Vector Bool 16) (i : Fin 16) (l : List (Fin 16)) :
    ∀ w : UInt16,
      (l.foldl (fun w j => if bits.get j then w ||| ((1 : UInt16) <<< UInt16.ofNat j) else w)
          w).toNat.testBit i = true ↔
        w.toNat.testBit i = true ∨ (i ∈ l ∧ bits.get i = true) := by
  induction l with
  | nil =>
      intro w
      simp
  | cons j l ih =>
      intro w
      rw [List.foldl_cons, ih]
      by_cases hij : j = i
      · subst hij
        by_cases hj : bits.get j = true
        · rw [if_pos hj, testBit_or_shift]
          simp [hj]
        · rw [if_neg hj]
          simp [hj]
      · by_cases hj : bits.get j = true
        · rw [if_pos hj, testBit_or_shift]
          simp [hij, Ne.symm hij]
        · rw [if_neg hj]
          simp [Ne.symm hij]

theorem bits16_word16 (bits : Vector Bool 16) : bits16 (word16 bits) = bits := by
  apply Vector.ext
  intro i hi
  have hbit := testBit_eq_shift (word16 bits) ⟨i, hi⟩
  rw [bits16, Vector.getElem_ofFn, hbit, Bool.eq_iff_iff, word16, testBit_foldl]
  have hzero : Nat.testBit (0 : UInt16).toNat i = false := Nat.zero_testBit i
  constructor
  · rintro (h | ⟨-, h⟩)
    · rw [hzero] at h
      exact absurd h Bool.false_ne_true
    · exact h
  · intro h
    exact Or.inr ⟨List.mem_finRange _, h⟩

/-! ### Elements

A list of values becomes the words of each, one behind the other, and the loop takes them
off again in the same places.
-/

/-- What is written for a value is read as this value, whatever words come behind it. -/
class LawfulWords (α : Type) [FromWords α] [ToWords α] : Prop where
  toWords_append : ∀ (v : α) (out : List UInt16),
    ToWords.toWords v out = out ++ ToWords.toWords v []
  length_toWords : ∀ v : α, (ToWords.toWords v []).length = FromWords.words α
  fromWordsSlice_toWords : ∀ (v : α) (rest : List UInt16),
    FromWords.fromWordsSlice (ToWords.toWords v [] ++ rest) = .ok (v, FromWords.words α)

instance : LawfulWords UInt16 where
  toWords_append _ _ := rfl
  length_toWords _ := rfl
  fromWordsSlice_toWords _ _ := rfl

instance : LawfulWords Int16 where
  toWords_append _ _ := rfl
  length_toWords _ := rfl
  fromWordsSlice_toWords _ _ := rfl

instance : LawfulWords (Vector Bool 16) where
  toWords_append _ _ := rfl
  length_toWords _ := rfl
  fromWordsSlice_toWords v rest := by
    show Except.ok (bits16 (word16 v), 1) = _
    rw [bits16_word16]
    rfl

theorem twoWords_splitWords {α : Type} (typeName : String) (decode : UInt32 → α) (v : UInt32)
    (rest : List UInt16) : twoWords typeName decode (splitWords v ++ rest) = .ok (decode v, 2) := by
  show Except.ok (decode _, 2) = _
  rw [joinWords_splitWords]

instance : LawfulWords UInt32 where
  toWords_append _ _ := rfl
  length_toWords _ := rfl
  fromWordsSlice_toWords v rest := twoWords_splitWords "u32" id v rest

instance : LawfulWords Int32 where
  toWords_append _ _ := rfl
  length_toWords _ := rfl
  fromWordsSlice_toWords v rest := by
    show twoWords "i32" UInt32.toInt32 (splitWords v.toUInt32 ++ rest) = _
    rw [twoWords_splitWords]
    rfl

instance : LawfulWords F32 where
  toWords_append _ _ := rfl
  length_toWords _ := rfl
  fromWordsSlice_toWords v rest := twoWords_splitWords "f32" F32.mk v.bits rest

section Lawful

variable {α : Type} [FromWords α] [ToWords α] [LawfulWords α]

theorem flattenWords_eq (values : List α) :
    flattenWords values = values.flatMap fun v => ToWords.toWords v [] := by
  have hfold : ∀ flat : List UInt16, values.foldl (fun flat v => ToWords.toWords v flat) flat =
      flat ++ values.flatMap fun v => ToWords.toWords v [] := by
    induction values with
    | nil => intro flat; rw [List.foldl_nil, List.flatMap_nil, List.append_nil]
    | cons v values ih =>
        intro flat
        rw [List.foldl_cons, LawfulWords.toWords_append, ih, List.flatMap_cons, List.append_assoc]
  rw [flattenWords, hfold, List.nil_append]

/-- The loop reads the values behind the words it has passed. -/
theorem readElements_flatMap (values : List α) :
    ∀ (pre : List UInt16) (parsed : Nat) (out : List α),
      readElements (pre ++ values.flatMap fun v => ToWords.toWords v []) (parsed + values.length)
        pre.length parsed out = .ok (out ++ values) := by
  induction values with
  | nil =>
      intro pre parsed out
      rw [readElements, dif_neg (by simp), List.append_nil]
  | cons v values ih =>
      intro pre parsed out
      have hlen := LawfulWords.length_toWords v
      have hroom : parsed < parsed + (v :: values).length ∧ pre.length + FromWords.words α ≤
          (pre ++ (v :: values).flatMap fun v => ToWords.toWords v []).length := by
        rw [List.length_append, List.flatMap_cons, List.length_append, List.length_cons, hlen]
        omega
      rw [readElements, dif_pos hroom, wordsFrom, if_pos (by omega), List.drop_left,
        List.flatMap_cons]
      dsimp only
      rw [LawfulWords.fromWordsSlice_toWords]
      dsimp only
      have hih := ih (pre ++ ToWords.toWords v []) (parsed + 1) (out ++ [v])
      rw [List.append_assoc, List.length_append, hlen, List.append_assoc, List.singleton_append] at hih
      rw [List.length_cons, show parsed + (values.length + 1) = parsed + 1 + values.length by omega,
        hih]

/-- **The element loop reads what was flattened.** -/
theorem readElements_flattenWords (values : List α) :
    readElements (flattenWords values) values.length 0 0 [] = .ok values := by
  have h := readElements_flatMap values [] 0 []
  rw [List.nil_append, List.nil_append, Nat.zero_add] at h
  rw [flattenWords_eq]
  exact h

end Lawful

/-! ### The words of a response -/

theorem collectBlock_jsonWords (words : List UInt16) :
    ∀ acc : List UInt16, collectBlock acc (jsonWords words) = .ok (acc ++ words) := by
  induction words with
  | nil => intro acc; rw [jsonWords, List.map_nil, collectBlock, List.append_nil]
  | cons w words ih =>
      intro acc
      rw [jsonWords, List.map_cons, collectBlock, JsonValue.asU64_ofNat]
      dsimp only
      rw [toNat_ofNat_u16, if_pos w.toNat_lt, UInt16.ofNat_toNat]
      have htail := ih (acc ++ [w])
      rw [jsonWords] at htail
      rw [htail, List.append_assoc, List.singleton_append]

theorem collectWords_of_data_blocks {parsed : JsonValue} {words : List UInt16}
    (h : parsed.get "data_blocks" = some (.array [.array (jsonWords words)])) :
    collectWords parsed = .ok words := by
  rw [collectWords, h, Option.bind_some, JsonValue.asArray_array, Option.getD_some,
    List.foldlM_cons, JsonValue.asArray_array, Option.getD_some, collectBlock_jsonWords, ok_bind,
    List.nil_append, List.foldlM_nil, pure_eq_ok]

/-- The words of a `read_words` answer. -/
theorem parseResponse_readWords (T : DeviceTable) (device : String) {words : List UInt16}
    (hlen : words.length ≤ 65535) :
    ∃ parsed, readWordsSpec.parseResponse T
        (createReadWordsParams T device (UInt16.ofNat words.length)) (wordsLe words) = .ok parsed ∧
      parsed.get "data_blocks" = some (.array [.array (jsonWords words)]) := by
  have hcount : (UInt16.ofNat words.length).toNat = words.length := by
    rw [UInt16.toNat_ofNat', Nat.mod_eq_of_lt (by omega)]
  have hread := readBlockCount_descriptor (UInt16.ofNat words.length) "data_blocks"
  rw [hcount] at hread
  have hparse := parseResponse_blockWords T (show readWordsSpec.responseEntries = _ from rfl)
    (cachedArray_readWords T device _) hread (by rw [usizeBound]; omega)
  rw [blockBytes_true] at hparse
  exact ⟨_, hparse, JsonMap.get_insert_self _ _ _⟩

/-! ### Write, then read -/

/-- `write_words_as` followed by `read_words_as` of as many values, where the station
answers with the bytes of the field `data:words_le` of the write. -/
def writeThenRead (T : DeviceTable) (writeDevice readDevice : String) {α : Type} [FromWords α]
    [ToWords α] (values : List α) : Except Failure (List α) := do
  let words := flattenWords values
  let data ← CommandSpec.writeWordsField "data" true (createWriteWordsParams T writeDevice words) []
  match shippedRegistry.get .readWords with
  | none => protocolError "command not found"
  | some spec =>
      let parsed ← spec.parseResponse T
        (createReadWordsParams T readDevice (UInt16.ofNat words.length)) data
      readElements (← collectWords parsed) values.length 0 0 []

/-- What is written as a list of `α` is read as this list. -/
def ReadsBack (T : DeviceTable) (writeDevice readDevice : String) (α : Type) [FromWords α]
    [ToWords α] : Prop :=
  ∀ values : List α, (flattenWords values).length ≤ 65535 →
    writeThenRead T writeDevice readDevice values = .ok values

theorem LawfulWords.readsBack (T : DeviceTable) (writeDevice readDevice : String) (α : Type)
    [FromWords α] [ToWords α] [LawfulWords α] : ReadsBack T writeDevice readDevice α := by
  intro values hlen
  obtain ⟨parsed, hparse, hblocks⟩ := parseResponse_readWords T readDevice hlen
  rw [writeThenRead]
  rw [writeWordsField_data, ok_bind, get_readWords, List.nil_append]
  dsimp only
  rw [hparse, ok_bind, collectWords_of_data_blocks hblocks, ok_bind, readElements_flattenWords]

/-- **A typed write followed by a typed read is the identity**, for each type that has both
traits. -/
theorem typed_write_read (T : DeviceTable) (writeDevice readDevice : String) :
    ReadsBack T writeDevice readDevice UInt16 ∧
    ReadsBack T writeDevice readDevice Int16 ∧
    ReadsBack T writeDevice readDevice UInt32 ∧
    ReadsBack T writeDevice readDevice Int32 ∧
    ReadsBack T writeDevice readDevice (Vector Bool 16) ∧
    ReadsBack T writeDevice readDevice F32 :=
  ⟨LawfulWords.readsBack T writeDevice readDevice UInt16,
    LawfulWords.readsBack T writeDevice readDevice Int16,
    LawfulWords.readsBack T writeDevice readDevice UInt32,
    LawfulWords.readsBack T writeDevice readDevice Int32,
    LawfulWords.readsBack T writeDevice readDevice (Vector Bool 16),
    LawfulWords.readsBack T writeDevice readDevice F32⟩

end MelsecMc
