/-
What a block of a response is read as.

A block reader is given the whole data and an offset, so each lemma here is about data
with something in front of the block and something behind it.  Where the bytes of the
block are there it returns what they stand for and moves the offset behind them; where
they are not it returns an error.

An offset is a `usize` and its sums are checked for overflow, so each lemma has a bound on where
the block ends.  Data from a frame are far below it.
-/
import MelsecMc.Proofs.Nibbles
import MelsecMc.ParseResponse
import Mathlib.Data.List.GetD

namespace MelsecMc

/-! ### Loops over indices -/

/-- The entries of a list, by index. -/
theorem map_getD_range {α : Type} (l : List α) (d : α) :
    ((List.range l.length).map fun i => l.getD i d) = l := by
  apply List.ext_getElem
  · rw [List.length_map, List.length_range]
  · intro i hi hi'
    rw [List.getElem_map, List.getElem_range, List.getD_eq_getElem _ _ hi']

/-- A loop over the indices of a list is a loop over the list. -/
theorem map_range_getD {α β : Type} (f : α → β) (l : List α) (d : α) :
    ((List.range l.length).map fun i => f (l.getD i d)) = l.map f := by
  rw [← congrArg (List.map f) (map_getD_range l d), List.map_map]
  rfl

theorem foldl_range_getD {α β : Type} (f : β → α → β) (l : List α) (d : α) (b : β) :
    (List.range l.length).foldl (fun b i => f b (l.getD i d)) b = l.foldl f b := by
  rw [← congrArg (List.foldl f b) (map_getD_range l d), List.foldl_map]

/-! ### Is there enough? -/

theorem ensureBytesAvailable_of_le {bytes : Bytes} {offset needed : Nat} (kind : String)
    (h : offset + needed ≤ bytes.length) (hbound : offset + needed < usizeBound) :
    CommandSpec.ensureBytesAvailable bytes offset needed kind = .ok () := by
  rw [CommandSpec.ensureBytesAvailable, usizeAdd_of_lt hbound, ok_bind, if_neg (Nat.not_lt.mpr h),
    pure_eq_ok]

theorem ensureBytesAvailable_of_lt {bytes : Bytes} {offset needed : Nat} (kind : String)
    (h : bytes.length < offset + needed) (hbound : offset + needed < usizeBound) :
    CommandSpec.ensureBytesAvailable bytes offset needed kind =
      protocolError s!"response too short for {kind}" := by
  rw [CommandSpec.ensureBytesAvailable, usizeAdd_of_lt hbound, ok_bind, if_pos h]

/-! ### Words

A word is two bytes, in the order the entry names.
-/

/-- Words as the items of a block. -/
def jsonWords (words : List UInt16) : List JsonValue :=
  words.map fun w => .ofNat w.toNat

/-- Words in the byte order of a block. -/
def blockBytes (le : Bool) (words : List UInt16) : Bytes :=
  words.flatMap (wordBytes le)

theorem blockBytes_true (words : List UInt16) : blockBytes true words = wordsLe words := rfl

theorem length_wordBytes (le : Bool) (w : UInt16) : (wordBytes le w).length = 2 := by
  cases le <;> rfl

theorem length_blockBytes (le : Bool) (words : List UInt16) :
    (blockBytes le words).length = words.length * 2 := by
  induction words with
  | nil => rfl
  | cons w words ih =>
      rw [blockBytes, List.flatMap_cons, List.length_append, length_wordBytes]
      rw [blockBytes] at ih
      rw [ih, List.length_cons]
      omega

/-- The two bytes of word `i` of a block. -/
theorem byteAt_blockBytes (le : Bool) (words : List UInt16) (suf : Bytes) {i : Nat}
    (hi : i < words.length) :
    ∃ b0 b1, wordBytes le (words.getD i 0) = [b0, b1] ∧
      byteAt (blockBytes le words ++ suf) (i * 2) = .ok b0 ∧
      byteAt (blockBytes le words ++ suf) (i * 2 + 1) = .ok b1 := by
  induction words generalizing i with
  | nil => exact absurd hi (Nat.not_lt_zero i)
  | cons w words ih =>
      obtain ⟨c0, c1, hw⟩ : ∃ c0 c1, wordBytes le w = [c0, c1] := by
        cases le <;> exact ⟨_, _, rfl⟩
      have hcons : blockBytes le (w :: words) ++ suf = c0 :: c1 :: (blockBytes le words ++ suf) := by
        rw [blockBytes, List.flatMap_cons, hw]
        rfl
      rw [hcons]
      cases i with
      | zero => exact ⟨c0, c1, hw, rfl, rfl⟩
      | succ i =>
          obtain ⟨b0, b1, hword, h0, h1⟩ := ih (Nat.lt_of_succ_lt_succ hi)
          refine ⟨b0, b1, hword, ?_, ?_⟩
          · rw [show (i + 1) * 2 = i * 2 + 1 + 1 by omega, byteAt_cons_succ, byteAt_cons_succ, h0]
          · rw [show (i + 1) * 2 + 1 = i * 2 + 1 + 1 + 1 by omega, byteAt_cons_succ,
              byteAt_cons_succ, h1]

theorem u16FromLeBytes_wordBytes {le : Bool} {w : UInt16} {b0 b1 : UInt8}
    (h : wordBytes le w = [b0, b1]) :
    (if le then u16FromLeBytes b0 b1 else u16FromLeBytes b1 b0) = w := by
  cases le with
  | true =>
      have hlo : [u16Lo w, u16Hi w] = [b0, b1] := h
      cases hlo
      rw [if_pos rfl, u16FromLeBytes_lo_hi]
  | false =>
      have hhi : [u16Hi w, u16Lo w] = [b0, b1] := h
      cases hhi
      rw [if_neg Bool.false_ne_true, u16FromLeBytes_lo_hi]

theorem wordAt_blockBytes (le : Bool) (pre suf : Bytes) (words : List UInt16) {i : Nat}
    (hi : i < words.length) (hbound : pre.length + words.length * 2 < usizeBound) :
    CommandSpec.wordAt le (pre ++ (blockBytes le words ++ suf)) pre.length i =
      .ok (.ofNat (words.getD i 0).toNat) := by
  obtain ⟨b0, b1, hword, h0, h1⟩ := byteAt_blockBytes le words suf hi
  rw [CommandSpec.wordAt, usizeMul_of_lt (by omega), ok_bind, usizeAdd_of_lt (by omega), ok_bind,
    byteAt_length_add, h0, ok_bind, usizeAdd_of_lt (by omega), ok_bind, Nat.add_assoc,
    byteAt_length_add, h1, ok_bind, pure_eq_ok, u16FromLeBytes_wordBytes hword]

/-- A block of words that are there is read as these words. -/
theorem parseBlockWords_ok (T : DeviceTable) (name : String) (le : Bool) (params : JsonValue)
    {block : JsonValue} (words : List UInt16)
    (hcount : CommandSpec.readBlockCount block name = .ok words.length) (pre suf : Bytes)
    (hbound : pre.length + words.length * 2 < usizeBound) (outBlocks : List JsonValue)
    (resultMap : JsonMap) :
    CommandSpec.parseBlockWords T name le params (pre ++ (blockBytes le words ++ suf))
        (outBlocks, ⟨pre.length, resultMap⟩) block =
      .ok (outBlocks ++ [.array (jsonWords words)], {
        offset := pre.length + words.length * 2
        resultMap := CommandSpec.reportBits T params block words.length (jsonWords words)
          resultMap }) := by
  have hwords : (List.range words.length).mapM (CommandSpec.wordAt le
      (pre ++ (blockBytes le words ++ suf)) pre.length) = .ok (jsonWords words) := by
    rw [mapM_eq_ok fun i hi => wordAt_blockBytes le pre suf words (List.mem_range.mp hi) hbound,
      map_range_getD (fun w => JsonValue.ofNat w.toNat) words 0, jsonWords]
  have havail : pre.length + words.length * 2 ≤ (pre ++ (blockBytes le words ++ suf)).length := by
    rw [List.length_append, List.length_append, length_blockBytes]
    omega
  rw [CommandSpec.parseBlockWords]
  dsimp only
  rw [hcount, ok_bind, if_pos (by omega), pure_eq_ok, ok_bind,
    ensureBytesAvailable_of_le "word block" havail hbound, ok_bind, hwords, ok_bind,
    usizeAdd_of_lt hbound, ok_bind, pure_eq_ok]

/-! ### Nibbles

Each byte gives two points, and the last of them is dropped when the count is odd.
-/

/-- Points as the items of a block. -/
def jsonBits (bits : List Bool) : List JsonValue :=
  bits.map .bool

/-- The halves of a byte, in the order of a block. -/
def byteNibbles (highFirst : Bool) (b : UInt8) : List UInt8 :=
  if highFirst then [(b >>> 4) &&& 0x0F, b &&& 0x0F] else [b &&& 0x0F, (b >>> 4) &&& 0x0F]

/-- The points the bytes of a block stand for: a nibble that is not 0 is a set point. -/
def nibbleBits (highFirst : Bool) (bs : Bytes) : List Bool :=
  (bs.flatMap (byteNibbles highFirst)).map fun nibble => decide (nibble ≠ 0)

theorem foldl_pushNibble (count : Nat) (nibbles : List UInt8) :
    ∀ (bits : List JsonValue) (produced : Nat), produced ≤ count →
      (nibbles.foldl (CommandSpec.pushNibble count) (bits, produced)).1 =
        bits ++
          jsonBits ((nibbles.map fun nibble => decide (nibble ≠ 0)).take (count - produced)) := by
  induction nibbles with
  | nil =>
      intro bits produced _
      rw [List.foldl_nil, List.map_nil, List.take_nil, jsonBits, List.map_nil, List.append_nil]
  | cons nibble nibbles ih =>
      intro bits produced hle
      rw [List.foldl_cons, CommandSpec.pushNibble]
      by_cases hlt : produced < count
      · rw [if_pos hlt, ih _ _ hlt, show count - produced = count - (produced + 1) + 1 by omega,
          List.map_cons, List.take_succ_cons, jsonBits, jsonBits, List.map_cons, List.append_assoc,
          List.singleton_append]
      · rw [if_neg hlt, ih _ _ hle, show count - produced = 0 by omega, List.take_zero,
          List.take_zero]

/-- The loop over the bytes of a block. -/
theorem foldlM_pushByteNibbles (highFirst : Bool) (count : Nat) (pre bs suf : Bytes)
    (hbound : pre.length + bs.length < usizeBound) (acc : List JsonValue × Nat) :
    (List.range bs.length).foldlM
        (CommandSpec.pushByteNibbles highFirst count (pre ++ (bs ++ suf)) pre.length) acc =
      .ok ((bs.flatMap (byteNibbles highFirst)).foldl (CommandSpec.pushNibble count) acc) := by
  have hstep : ∀ acc, ∀ i ∈ List.range bs.length,
      CommandSpec.pushByteNibbles highFirst count (pre ++ (bs ++ suf)) pre.length acc i =
        .ok ((byteNibbles highFirst (bs.getD i 0)).foldl (CommandSpec.pushNibble count) acc) := by
    intro acc i hi
    have hi' : i < bs.length := List.mem_range.mp hi
    rw [CommandSpec.pushByteNibbles, usizeAdd_of_lt (by omega), ok_bind, byteAt_length_add,
      byteAt_append_left suf hi', byteAt_of_lt hi', ok_bind, List.getD_eq_getElem _ _ hi']
    cases highFirst <;> rfl
  rw [foldlM_eq_ok hstep, List.foldl_flatMap, foldl_range_getD (fun acc b =>
    (byteNibbles highFirst b).foldl (CommandSpec.pushNibble count) acc)]

/-- A block of nibbles that are there is read as the points they stand for. -/
theorem parseBlockNibbles_ok (name : String) (highFirst : Bool) {block : JsonValue} {count : Nat}
    (hcount : CommandSpec.readBlockCount block name = .ok count) {bs : Bytes}
    (hlen : bs.length = (count + 1) / 2) (pre suf : Bytes)
    (hbound : pre.length + bs.length < usizeBound) (outBlocks : List JsonValue)
    (resultMap : JsonMap) :
    CommandSpec.parseBlockNibbles name highFirst (pre ++ (bs ++ suf))
        (outBlocks, ⟨pre.length, resultMap⟩) block =
      .ok (outBlocks ++ [.array (jsonBits ((nibbleBits highFirst bs).take count))],
        ⟨pre.length + bs.length, resultMap⟩) := by
  have havail : pre.length + bs.length ≤ (pre ++ (bs ++ suf)).length := by
    rw [List.length_append, List.length_append]
    omega
  rw [CommandSpec.parseBlockNibbles]
  dsimp only
  rw [hcount, ok_bind, ← hlen, ensureBytesAvailable_of_le "nibble block" havail hbound, ok_bind,
    foldlM_pushByteNibbles highFirst count pre bs suf hbound, ok_bind, usizeAdd_of_lt hbound,
    ok_bind, pure_eq_ok, foldl_pushNibble count _ [] 0 (Nat.zero_le _), List.nil_append,
    Nat.sub_zero, nibbleBits]

theorem parseBlockNibbles_short (name : String) (highFirst : Bool) {block : JsonValue} {count : Nat}
    (hcount : CommandSpec.readBlockCount block name = .ok count) {bytes : Bytes} {st : ParseState}
    (hshort : bytes.length < st.offset + (count + 1) / 2)
    (hbound : st.offset + (count + 1) / 2 < usizeBound) (outBlocks : List JsonValue) :
    CommandSpec.parseBlockNibbles name highFirst bytes (outBlocks, st) block =
      protocolError "response too short for nibble block" := by
  rw [CommandSpec.parseBlockNibbles]
  dsimp only
  rw [hcount, ok_bind, ensureBytesAvailable_of_lt "nibble block" hshort hbound]
  rfl

/-! ### An entry of one block -/

theorem parseBlocks_single {params block : JsonValue} {name : String}
    (h : CommandSpec.cachedArray params name = [block])
    (parseBlock : List JsonValue × ParseState → JsonValue →
      Except Failure (List JsonValue × ParseState)) (st : ParseState) :
    CommandSpec.parseBlocks name params parseBlock st = (parseBlock ([], st) block >>= fun r =>
      .ok { r.2 with resultMap := r.2.resultMap.insert name (.array r.1) }) := by
  rw [CommandSpec.parseBlocks, h, List.foldlM_cons]
  cases parseBlock ([], st) block with
  | ok r => rfl
  | error e => rfl

theorem parseResponse_single (T : DeviceTable) {spec : CommandSpec} {entry : ResponseEntry}
    (h : spec.responseEntries = [entry]) (params : JsonValue) (bytes : Bytes) :
    CommandSpec.parseResponse T spec params bytes =
      (CommandSpec.parseResponseEntry T params bytes ⟨0, []⟩ entry >>= fun st =>
        .ok (.object st.resultMap)) := by
  rw [CommandSpec.parseResponse, h, List.foldlM_cons]
  cases CommandSpec.parseResponseEntry T params bytes ⟨0, []⟩ entry with
  | ok st => rfl
  | error e => rfl

section OneBlock

variable {spec : CommandSpec} {name : String} {params block : JsonValue}

theorem parseResponse_blockWords (T : DeviceTable) {le : Bool}
    (hspec : spec.responseEntries = [.blockWords name le])
    (hblocks : CommandSpec.cachedArray params name = [block]) {words : List UInt16}
    (hcount : CommandSpec.readBlockCount block name = .ok words.length)
    (hbound : words.length * 2 < usizeBound) :
    CommandSpec.parseResponse T spec params (blockBytes le words) =
      .ok (.object (JsonMap.insert
        (CommandSpec.reportBits T params block words.length (jsonWords words) []) name
        (.array [.array (jsonWords words)]))) := by
  have hblock := parseBlockWords_ok T name le params words hcount [] []
    (by rw [List.length_nil, Nat.zero_add]; exact hbound) [] []
  rw [List.nil_append, List.append_nil, List.length_nil] at hblock
  rw [parseResponse_single T hspec, CommandSpec.parseResponseEntry, parseBlocks_single hblocks,
    hblock, ok_bind, ok_bind, List.nil_append]

theorem parseResponse_blockNibbles (T : DeviceTable) {highFirst : Bool}
    (hspec : spec.responseEntries = [.blockNibbles name highFirst])
    (hblocks : CommandSpec.cachedArray params name = [block]) {count : Nat}
    (hcount : CommandSpec.readBlockCount block name = .ok count) {bs : Bytes}
    (hlen : bs.length = (count + 1) / 2) (hbound : bs.length < usizeBound) :
    CommandSpec.parseResponse T spec params bs =
      .ok (.object (JsonMap.insert [] name
        (.array [.array (jsonBits ((nibbleBits highFirst bs).take count))]))) := by
  have hblock := parseBlockNibbles_ok name highFirst hcount hlen [] []
    (by rw [List.length_nil, Nat.zero_add]; exact hbound) [] []
  rw [List.nil_append, List.append_nil, List.length_nil] at hblock
  rw [parseResponse_single T hspec, CommandSpec.parseResponseEntry, parseBlocks_single hblocks,
    hblock, ok_bind, ok_bind, List.nil_append]

theorem parseResponse_blockNibbles_short (T : DeviceTable) {highFirst : Bool}
    (hspec : spec.responseEntries = [.blockNibbles name highFirst])
    (hblocks : CommandSpec.cachedArray params name = [block]) {count : Nat}
    (hcount : CommandSpec.readBlockCount block name = .ok count) {bs : Bytes}
    (hshort : bs.length < (count + 1) / 2) (hbound : (count + 1) / 2 < usizeBound) :
    CommandSpec.parseResponse T spec params bs =
      protocolError "response too short for nibble block" := by
  rw [parseResponse_single T hspec, CommandSpec.parseResponseEntry, parseBlocks_single hblocks,
    parseBlockNibbles_short name highFirst hcount (by rw [Nat.zero_add]; exact hshort)
      (by rw [Nat.zero_add]; exact hbound)]
  rfl

end OneBlock

/-! ### The descriptors of the batch commands -/

/-- The object in a `blockDescriptor`. -/
def descriptor (count : UInt16) : JsonValue :=
  .object (JsonMap.insert [] "count" (.ofNat count.toNat))

theorem readBlockCount_descriptor (count : UInt16) (name : String) :
    CommandSpec.readBlockCount (descriptor count) name = .ok count.toNat := by
  rw [CommandSpec.readBlockCount, descriptor, JsonValue.get_object, JsonMap.get_insert_self,
    Option.bind_some, JsonValue.asU64_ofNat]
  dsimp only
  rw [toNat_ofNat_u16]

theorem cachedArray_readWords (T : DeviceTable) (device : String) (count : UInt16) :
    CommandSpec.cachedArray (createReadWordsParams T device count) "data_blocks" =
      [descriptor count] := by
  rw [CommandSpec.cachedArray, createReadWordsParams, JsonValue.get_object, JsonMap.get_insert_self]
  rfl

theorem cachedArray_readBits (T : DeviceTable) (device : String) (count : UInt16) :
    CommandSpec.cachedArray (createReadBitsParams T device count) "data_blocks" =
      [descriptor count] := by
  rw [CommandSpec.cachedArray, createReadBitsParams, JsonValue.get_object, JsonMap.get_insert_self]
  rfl

end MelsecMc
