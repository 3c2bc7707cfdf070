/-
What a response of several blocks is read as.

Each block reader is a reader in the sense of `Readers.Reads`: it needs the bytes of its
block, what it returns is a function of these bytes, and without them it returns an error.
Blocks in a row, and entries in a row, are then readers too, and a multi-block response is
read block by block as what was sent (`multi_block_response`).

The descriptors of the blocks are those of the request: a response says nothing about its
own blocks, so their counts are taken from the params it is parsed with.
-/
import MelsecMc.Proofs.BlockResponse
import MelsecMc.Proofs.WriteRequest
import MelsecMc.Spec.Blocks
import MelsecMc.Lib.Readers

namespace MelsecMc

open Readers

/-- The offset a block reader goes on from. -/
def accOffset (acc : List JsonValue × ParseState) : Nat := acc.2.offset

/-- The count in a block descriptor, if there is one. -/
def announcedCount (block : JsonValue) : Option Nat :=
  ((block.get "count").bind JsonValue.asU64).map UInt64.toNat

/-- The number of points a block is read for. -/
def blockPoints (block : JsonValue) : Nat := (announcedCount block).getD 0

theorem readBlockCount_of_announced {block : JsonValue} {n : Nat} (name : String)
    (h : announcedCount block = some n) : CommandSpec.readBlockCount block name = .ok n := by
  rw [announcedCount, Option.map_eq_some_iff] at h
  obtain ⟨count, hcount, hn⟩ := h
  rw [CommandSpec.readBlockCount, hcount]
  exact congrArg Except.ok hn

/-- Data from an offset on: what is in front, the bytes in question, and the rest. -/
theorem take_drop_split {bytes : Bytes} {offset need : Nat} (h : offset + need ≤ bytes.length) :
    bytes = bytes.take offset ++ ((bytes.drop offset).take need ++ bytes.drop (offset + need)) ∧
      (bytes.take offset).length = offset ∧ ((bytes.drop offset).take need).length = need := by
  refine ⟨?_, List.length_take_of_le (by omega), ?_⟩
  · rw [← List.drop_drop, List.take_append_drop, List.take_append_drop]
  · rw [List.length_take, List.length_drop]
    omega

/-! ### Words

A block of words is its words in the byte order of the entry, and a shorter string has no
such block.
-/

/-- The words in the bytes of a block. -/
def chunkWords (le : Bool) : Bytes → List UInt16
  | b0 :: b1 :: bytes =>
      (if le then u16FromLeBytes b0 b1 else u16FromLeBytes b1 b0) :: chunkWords le bytes
  | _ => []

theorem chunkWords_blockBytes (le : Bool) (words : List UInt16) :
    chunkWords le (blockBytes le words) = words := by
  induction words with
  | nil => rfl
  | cons w words ih =>
      obtain ⟨b0, b1, hw⟩ : ∃ b0 b1, wordBytes le w = [b0, b1] := by
        cases le <;> exact ⟨_, _, rfl⟩
      have hcons : blockBytes le (w :: words) = b0 :: b1 :: blockBytes le words := by
        rw [blockBytes, List.flatMap_cons, hw]
        rfl
      rw [hcons, chunkWords, u16FromLeBytes_wordBytes hw, ih]

/-- Every block of an even number of bytes is the block of its words. -/
theorem blockBytes_chunkWords (le : Bool) :
    ∀ (n : Nat) (bytes : Bytes), bytes.length = n * 2 →
      blockBytes le (chunkWords le bytes) = bytes ∧ (chunkWords le bytes).length = n := by
  intro n
  induction n with
  | zero =>
      intro bytes hlen
      rw [Nat.zero_mul, List.length_eq_zero_iff] at hlen
      rw [hlen]
      exact ⟨rfl, rfl⟩
  | succ n ih =>
      intro bytes hlen
      match bytes, hlen with
      | b0 :: b1 :: bytes, hlen =>
          obtain ⟨hbytes, hcount⟩ := ih bytes (by simp only [List.length_cons] at hlen; omega)
          have hword : wordBytes le (if le then u16FromLeBytes b0 b1 else u16FromLeBytes b1 b0) =
              [b0, b1] := by
            cases le
            · show [u16Hi (u16FromLeBytes b1 b0), u16Lo (u16FromLeBytes b1 b0)] = _
              rw [u16Hi_fromLeBytes, u16Lo_fromLeBytes]
            · show [u16Lo (u16FromLeBytes b0 b1), u16Hi (u16FromLeBytes b0 b1)] = _
              rw [u16Hi_fromLeBytes, u16Lo_fromLeBytes]
          rw [blockBytes] at hbytes
          refine ⟨?_, ?_⟩
          · rw [chunkWords, blockBytes, List.flatMap_cons, hword, hbytes]
            rfl
          · rw [chunkWords, List.length_cons, hcount]
      | [], hlen => simp at hlen
      | [_], hlen =>
          rw [List.length_singleton] at hlen
          omega

/-- What a block of words adds to the result. -/
def wordsEff (T : DeviceTable) (le : Bool) (params block : JsonValue) (chunk : Bytes)
    (acc : List JsonValue × ParseState) : List JsonValue × ParseState :=
  (acc.1 ++ [.array (jsonWords (chunkWords le chunk))], {
    offset := acc.2.offset + blockPoints block * 2
    resultMap := CommandSpec.reportBits T params block (blockPoints block)
      (jsonWords (chunkWords le chunk)) acc.2.resultMap })

/-- The bytes are looked for before any is read. -/
theorem parseBlockWords_stops {T : DeviceTable} {name : String} {le : Bool} {params : JsonValue}
    {bytes : Bytes} {out : List JsonValue} {offset : Nat} {resultMap : JsonMap} {block : JsonValue}
    {count : Nat} (hcount : announcedCount block = some count) (hsmall : count * 2 < usizeBound)
    {e : Failure}
    (hstop : CommandSpec.ensureBytesAvailable bytes offset (count * 2) "word block" = .error e) :
    CommandSpec.parseBlockWords T name le params bytes (out, ⟨offset, resultMap⟩) block =
      .error e := by
  rw [CommandSpec.parseBlockWords]
  dsimp only
  rw [readBlockCount_of_announced name hcount, ok_bind, if_pos hsmall, pure_eq_ok, ok_bind, hstop]
  rfl

theorem reads_blockWords (T : DeviceTable) (name : String) (le : Bool) (params : JsonValue)
    {block : JsonValue} (hcount : (announcedCount block).isSome) :
    Reads accOffset Failure.IsErr usizeBound
      (fun bytes acc => CommandSpec.parseBlockWords T name le params bytes acc block)
      (blockPoints block * 2) (wordsEff T le params block) := by
  obtain ⟨n, hn⟩ := Option.isSome_iff_exists.mp hcount
  have hpoints : blockPoints block = n := by rw [blockPoints, hn, Option.getD_some]
  have hread := readBlockCount_of_announced name hn
  refine ⟨?_, fun _ _ => rfl, ?_⟩
  · rintro bytes ⟨out, offset, resultMap⟩ hle hbound
    rw [accOffset, hpoints] at hle hbound ⊢
    dsimp only at hle hbound ⊢
    obtain ⟨hsplit, hpre, hchunk⟩ := take_drop_split hle
    obtain ⟨hwords, hlen⟩ := blockBytes_chunkWords le n _ hchunk
    have hblock := parseBlockWords_ok T name le params
      (chunkWords le ((bytes.drop offset).take (n * 2))) (by rw [hlen]; exact hread)
      (bytes.take offset) (bytes.drop (offset + n * 2)) (by rw [hpre, hlen]; exact hbound) out
      resultMap
    rw [hwords, ← hsplit, hpre, hlen] at hblock
    rw [hblock, wordsEff, hpoints]
  · rintro bytes ⟨out, offset, resultMap⟩ _ hlt hbound
    rw [accOffset, hpoints] at hlt hbound
    dsimp only at hlt hbound ⊢
    exact ⟨_, isErr_protocol "response too short for word block",
      parseBlockWords_stops hn (by omega) (ensureBytesAvailable_of_lt "word block" hlt hbound)⟩

/-! ### Packed bits

A block of bits is the least number of bytes that has room for its points; what the rest of
the last byte holds is not looked at.
-/

theorem shift_and_one (b : UInt8) {k : Nat} (hk : k < 8) :
    decide ((b >>> UInt8.ofNat k) &&& 0x01 ≠ 0) = b.toNat.testBit k := by
  have hk' : (UInt8.ofNat k).toNat % 8 = k := by
    rw [UInt8.toNat_ofNat', Nat.mod_mod_of_dvd _ (by decide), Nat.mod_eq_of_lt hk]
  have hval : ((b >>> UInt8.ofNat k) &&& 0x01).toNat = (b.toNat >>> k) &&& 1 := by
    rw [UInt8.toNat_and, UInt8.toNat_shiftRight, hk']
    rfl
  rw [Nat.testBit, Nat.and_comm, ← hval]
  by_cases hzero : (b >>> UInt8.ofNat k) &&& 0x01 = 0
  · rw [hzero]
    rfl
  · have hne : ((b >>> UInt8.ofNat k) &&& 0x01).toNat ≠ 0 :=
      fun h => hzero (UInt8.toNat_inj.mp h)
    rw [decide_eq_true hzero, bne_iff_ne.mpr hne]

/-- The points in the bytes of a packed block. -/
def chunkPoints (lsbFirst : Bool) (count : Nat) (chunk : Bytes) : List Bool :=
  (List.range count).map fun i => (chunk.getD (i / 8) 0).toNat.testBit (bitPosition lsbFirst i)

theorem chunkPoints_of_packs {lsbFirst : Bool} {points : List Bool} {bytes : Bytes}
    (h : Packs lsbFirst points bytes) : chunkPoints lsbFirst points.length bytes = points := by
  calc chunkPoints lsbFirst points.length bytes
      = (List.range points.length).map fun i => points.getD i false :=
        List.map_congr_left fun i hi => h.point i (List.mem_range.mp hi)
    _ = points := map_getD_range points false

theorem packedBitAt_chunk (lsbFirst : Bool) (pre chunk suf : Bytes) {i : Nat}
    (hi : i / 8 < chunk.length) (hbound : pre.length + chunk.length < usizeBound) :
    CommandSpec.packedBitAt lsbFirst (pre ++ (chunk ++ suf)) pre.length i =
      .ok (.bool ((chunk.getD (i / 8) 0).toNat.testBit (bitPosition lsbFirst i))) := by
  rw [CommandSpec.packedBitAt, usizeAdd_of_lt (by omega), ok_bind, byteAt_length_add,
    byteAt_append_left suf hi, byteAt_of_lt hi, ok_bind, pure_eq_ok, List.getD_eq_getElem _ _ hi]
  have hpos := bitPosition_lt lsbFirst i
  rw [bitPosition] at hpos ⊢
  rw [← shift_and_one _ hpos]

/-- What a block of packed bits adds to the result. -/
def bitsEff (lsbFirst : Bool) (block : JsonValue) (chunk : Bytes)
    (acc : List JsonValue × ParseState) : List JsonValue × ParseState :=
  (acc.1 ++ [.array (jsonBits (chunkPoints lsbFirst (blockPoints block) chunk))],
    { acc.2 with offset := acc.2.offset + (blockPoints block + 7) / 8 })

theorem parseBlockBitsPacked_stops {name : String} {lsbFirst : Bool} {bytes : Bytes}
    {out : List JsonValue} {offset : Nat} {resultMap : JsonMap} {block : JsonValue} {count : Nat}
    (hcount : announcedCount block = some count) {e : Failure}
    (hstop : CommandSpec.ensureBytesAvailable bytes offset ((count + 7) / 8) "bit block" =
      .error e) :
    CommandSpec.parseBlockBitsPacked name lsbFirst bytes (out, ⟨offset, resultMap⟩) block =
      .error e := by
  rw [CommandSpec.parseBlockBitsPacked]
  dsimp only
  rw [readBlockCount_of_announced name hcount, ok_bind, hstop]
  rfl

theorem reads_blockBitsPacked (name : String) (lsbFirst : Bool) {block : JsonValue}
    (hcount : (announcedCount block).isSome) :
    Reads accOffset Failure.IsErr usizeBound
      (fun bytes acc => CommandSpec.parseBlockBitsPacked name lsbFirst bytes acc block)
      ((blockPoints block + 7) / 8) (bitsEff lsbFirst block) := by
  obtain ⟨n, hn⟩ := Option.isSome_iff_exists.mp hcount
  have hpoints : blockPoints block = n := by rw [blockPoints, hn, Option.getD_some]
  have hread := readBlockCount_of_announced name hn
  refine ⟨?_, fun _ _ => rfl, ?_⟩
  · rintro bytes ⟨out, offset, resultMap⟩ hle hbound
    rw [accOffset, hpoints] at hle hbound ⊢
    dsimp only at hle hbound ⊢
    obtain ⟨hsplit, hpre, hchunk⟩ := take_drop_split hle
    have hbits := mapM_eq_ok fun i (hi : i ∈ List.range n) =>
      packedBitAt_chunk lsbFirst (bytes.take offset) ((bytes.drop offset).take ((n + 7) / 8))
        (bytes.drop (offset + (n + 7) / 8)) (i := i)
        (by rw [hchunk]; have := List.mem_range.mp hi; omega) (by rw [hpre, hchunk]; exact hbound)
    rw [← hsplit, hpre] at hbits
    rw [CommandSpec.parseBlockBitsPacked]
    dsimp only
    rw [hread, ok_bind, ensureBytesAvailable_of_le "bit block" hle hbound, ok_bind, hbits, ok_bind,
      usizeAdd_of_lt hbound, ok_bind, pure_eq_ok, bitsEff, hpoints, jsonBits, chunkPoints,
      List.map_map]
    rfl
  · rintro bytes ⟨out, offset, resultMap⟩ _ hlt hbound
    rw [accOffset, hpoints] at hlt hbound
    dsimp only at hlt hbound ⊢
    exact ⟨_, isErr_protocol "response too short for bit block",
      parseBlockBitsPacked_stops hn (ensureBytesAvailable_of_lt "bit block" hlt hbound)⟩

/-! ### An entry of blocks -/

/-- What an entry of blocks adds to the result. -/
def blocksEff (name : String) (params : JsonValue) (need : JsonValue → Nat)
    (eff : JsonValue → Bytes → List JsonValue × ParseState → List JsonValue × ParseState)
    (chunk : Bytes) (st : ParseState) : ParseState :=
  let acc := effAll need eff (CommandSpec.cachedArray params name) chunk ([], st)
  { acc.2 with resultMap := acc.2.resultMap.insert name (.array acc.1) }

theorem reads_parseBlocks {name : String} {params : JsonValue}
    {parseBlock : Bytes → List JsonValue × ParseState → JsonValue →
      Except Failure (List JsonValue × ParseState)} {need : JsonValue → Nat}
    {eff : JsonValue → Bytes → List JsonValue × ParseState → List JsonValue × ParseState}
    (h : ∀ block ∈ CommandSpec.cachedArray params name, Reads accOffset Failure.IsErr usizeBound
      (fun bytes acc => parseBlock bytes acc block) (need block) (eff block)) :
    Reads ParseState.offset Failure.IsErr usizeBound
      (fun bytes st => CommandSpec.parseBlocks name params (parseBlock bytes) st)
      ((CommandSpec.cachedArray params name).map need).sum (blocksEff name params need eff) :=
  (Reads.foldlM _ h).lift (fun st => ([], st))
    (fun acc => { acc.2 with resultMap := acc.2.resultMap.insert name (.array acc.1) })
    (fun _ => rfl) fun _ => rfl

/-- Each block adds one item. -/
theorem foldl_items {item : JsonValue → Bytes → JsonValue}
    {eff : JsonValue → Bytes → List JsonValue × ParseState → List JsonValue × ParseState}
    (heff : ∀ block chunk acc, (eff block chunk acc).1 = acc.1 ++ [item block chunk])
    (l : List (JsonValue × Bytes)) :
    ∀ acc, (l.foldl (fun acc p => eff p.1 p.2 acc) acc).1 =
      acc.1 ++ l.map fun p => item p.1 p.2 := by
  induction l with
  | nil => intro acc; rw [List.foldl_nil, List.map_nil, List.append_nil]
  | cons p l ih =>
      intro acc
      rw [List.foldl_cons, ih, heff, List.map_cons, List.append_assoc, List.singleton_append]

section SentBlocks

variable {ω : Type} {size : ω → Nat} {enc : ω → Bytes} {out : ω → JsonValue}
  {width : Nat → Nat} {item : JsonValue → Bytes → JsonValue}

/-- The descriptors ask for as many bytes as the blocks have. -/
theorem map_length_enc (hlen : ∀ w, (enc w).length = width (size w)) {descriptors : List JsonValue}
    {blocks : List ω} (h : descriptors.map announcedCount = blocks.map fun w => some (size w)) :
    (blocks.map enc).map List.length = descriptors.map fun d => width (blockPoints d) := by
  calc (blocks.map enc).map List.length
      = (blocks.map fun w => some (size w)).map fun count => width (count.getD 0) := by
        rw [List.map_map, List.map_map]
        exact List.map_congr_left fun w _ => hlen w
    _ = descriptors.map fun d => width (blockPoints d) := by
        rw [← h, List.map_map]
        rfl

/-- Block by block the items are what was sent. -/
theorem map_zip_items
    (hitem : ∀ d w, announcedCount d = some (size w) → item d (enc w) = out w)
    (descriptors : List JsonValue) :
    ∀ blocks : List ω, descriptors.map announcedCount = blocks.map (fun w => some (size w)) →
      ((descriptors.zip (blocks.map enc)).map fun p => item p.1 p.2) = blocks.map out := by
  induction descriptors with
  | nil =>
      intro blocks h
      rw [List.map_nil, eq_comm, List.map_eq_nil_iff] at h
      rw [h]
      rfl
  | cons d descriptors ih =>
      intro blocks h
      cases blocks with
      | nil => exact absurd h (by simp)
      | cons w blocks =>
          rw [List.map_cons, List.map_cons, List.cons.injEq] at h
          rw [List.map_cons, List.zip_cons_cons, List.map_cons, ih blocks h.2, hitem d w h.1,
            List.map_cons]

variable {name : String} {params : JsonValue} {blocks : List ω}

/-- The bytes of the blocks are what the entry needs. -/
theorem sum_need_eq (width : Nat → Nat) (hlen : ∀ w, (enc w).length = width (size w))
    (h : (CommandSpec.cachedArray params name).map announcedCount =
      blocks.map fun w => some (size w)) :
    ((CommandSpec.cachedArray params name).map fun d => width (blockPoints d)).sum =
      (blocks.map enc).flatten.length := by
  rw [← map_length_enc hlen h, List.length_flatten]

/-- An entry of blocks that were sent one behind the other is the list of them. -/
theorem get_blocksEff (width : Nat → Nat)
    {eff : JsonValue → Bytes → List JsonValue × ParseState → List JsonValue × ParseState}
    (heff : ∀ block chunk acc, (eff block chunk acc).1 = acc.1 ++ [item block chunk])
    (hlen : ∀ w, (enc w).length = width (size w))
    (hitem : ∀ d w, announcedCount d = some (size w) → item d (enc w) = out w)
    (h : (CommandSpec.cachedArray params name).map announcedCount =
      blocks.map fun w => some (size w)) (st : ParseState) :
    (blocksEff name params (fun d => width (blockPoints d)) eff (blocks.map enc).flatten
      st).resultMap.get name = some (.array (blocks.map out)) := by
  have hitems : (effAll (fun d => width (blockPoints d)) eff (CommandSpec.cachedArray params name)
      (blocks.map enc).flatten ([], st)).1 = blocks.map out := by
    rw [effAll_flatten eff _ _ _ (map_length_enc hlen h), foldl_items heff, List.nil_append,
      map_zip_items hitem _ _ h]
  rw [blocksEff]
  dsimp only
  rw [JsonMap.get_insert_self, hitems]

theorem announced_of_counts
    (h : (CommandSpec.cachedArray params name).map announcedCount =
      blocks.map fun w => some (size w)) :
    ∀ d ∈ CommandSpec.cachedArray params name, (announcedCount d).isSome := by
  intro d hd
  have hmem : announcedCount d ∈ blocks.map fun w => some (size w) :=
    h ▸ List.mem_map_of_mem hd
  obtain ⟨w, -, hw⟩ := List.mem_map.mp hmem
  rw [← hw]
  rfl

end SentBlocks

/-- An entry of packed bits leaves what there is under other names. -/
theorem get_blocksEff_bits_of_ne {lsbFirst : Bool} {name key : String} (hne : key ≠ name)
    {params : JsonValue} {need : JsonValue → Nat} (chunk : Bytes) (st : ParseState) :
    (blocksEff name params need (bitsEff lsbFirst) chunk st).resultMap.get key =
      st.resultMap.get key := by
  have hmap : ∀ (l : List JsonValue) (chunk : Bytes) (acc : List JsonValue × ParseState),
      (effAll need (bitsEff lsbFirst) l chunk acc).2.resultMap = acc.2.resultMap := by
    intro l
    induction l with
    | nil => intro chunk acc; rfl
    | cons d l ih =>
        intro chunk acc
        rw [effAll, ih, bitsEff]
  rw [blocksEff]
  dsimp only
  rw [JsonMap.get_insert_of_ne _ _ hne, hmap]

/-! ### Several blocks of words and bits

The two entries are read one behind the other, from where the first has left the offset.
-/

/-- The ways to write the second entry, and the order of the bits each stands for. -/
def packedBitFormats : List (String × Bool) :=
  [("bit_blocks:blocks_bits_packed", true), ("bit_blocks:blocks_bits_packed:lsb", true),
    ("bit_blocks:blocks_bits_packed:msb", false)]

theorem parseResponseFormats_multiBlock :
    ∀ fmt ∈ packedBitFormats,
      parseResponseFormats ["word_blocks:blocks_words_le", fmt.1] =
        .ok [.blockWords "word_blocks" true, .blockBitsPacked "bit_blocks" fmt.2] := by
  decide +kernel

/-- The word blocks as the caller gets them. -/
def jsonWordBlocks (wordBlocks : List (List UInt16)) : JsonValue :=
  .array (wordBlocks.map fun words => .array (jsonWords words))

/-- The bit blocks as the caller gets them. -/
def jsonBitBlocks {lsbFirst : Bool} (bitBlocks : List (PackedBlock lsbFirst)) : JsonValue :=
  .array (bitBlocks.map fun block => .array (jsonBits block.points))

theorem parseCommand_responseEntries {raw : CommandSpecRaw} {spec : CommandSpec}
    (h : parseCommand raw = .ok spec) :
    parseResponseFormats raw.responseFormat = .ok spec.responseEntries := by
  rw [parseCommand] at h
  obtain ⟨requestFields, -, h⟩ := bind_eq_ok.mp h
  obtain ⟨blockTemplates, -, h⟩ := bind_eq_ok.mp h
  obtain ⟨responseEntries, hentries, h⟩ := bind_eq_ok.mp h
  obtain ⟨subcommand, -, h⟩ := bind_eq_ok.mp h
  rw [pure_eq_ok, Except.ok.injEq] at h
  rw [hentries, ← h]

/-- The two entries of a multi-block response are a reader of the word blocks and then the
bit blocks. -/
theorem parseResponse_multiBlock (T : DeviceTable) {spec : CommandSpec} {lsbFirst : Bool}
    (hentries : spec.responseEntries =
      [.blockWords "word_blocks" true, .blockBitsPacked "bit_blocks" lsbFirst])
    (params : JsonValue) (bytes : Bytes) :
    CommandSpec.parseResponse T spec params bytes =
      ((CommandSpec.parseBlocks "word_blocks" params
          (CommandSpec.parseBlockWords T "word_blocks" true params bytes) ⟨0, []⟩ >>=
        CommandSpec.parseBlocks "bit_blocks" params
          (CommandSpec.parseBlockBitsPacked "bit_blocks" lsbFirst bytes)) >>= fun st =>
        .ok (.object st.resultMap)) := by
  rw [CommandSpec.parseResponse, hentries, List.foldlM_cons, CommandSpec.parseResponseEntry]
  cases CommandSpec.parseBlocks "word_blocks" params
      (CommandSpec.parseBlockWords T "word_blocks" true params bytes) ⟨0, []⟩ with
  | error e => rfl
  | ok st =>
      rw [ok_bind, ok_bind, List.foldlM_cons, CommandSpec.parseResponseEntry]
      cases CommandSpec.parseBlocks "bit_blocks" params
          (CommandSpec.parseBlockBitsPacked "bit_blocks" lsbFirst bytes) st with
      | error e => rfl
      | ok st => rfl

/-- **The blocks of a multi-block response are read as they were sent, whatever follows
them, and with bytes of theirs missing the response is refused.** -/
theorem multi_block_response (T : DeviceTable) {raw : CommandSpecRaw} {spec : CommandSpec}
    (hspec : parseCommand raw = .ok spec) {fmt : String} {lsbFirst : Bool}
    (hfmt : (fmt, lsbFirst) ∈ packedBitFormats)
    (hraw : raw.responseFormat = ["word_blocks:blocks_words_le", fmt]) (params : JsonValue)
    (wordBlocks : List (List UInt16)) (bitBlocks : List (PackedBlock lsbFirst))
    (hwords : (CommandSpec.cachedArray params "word_blocks").map announcedCount =
      wordBlocks.map fun words => some words.length)
    (hbits : (CommandSpec.cachedArray params "bit_blocks").map announcedCount =
      bitBlocks.map fun block => some block.points.length)
    (hbound : (multiBlockData wordBlocks bitBlocks).length < usizeBound) :
    (∀ trailing : Bytes, ∃ result : JsonValue,
      CommandSpec.parseResponse T spec params (multiBlockData wordBlocks bitBlocks ++ trailing) =
        .ok result ∧
      result.get "word_blocks" = some (jsonWordBlocks wordBlocks) ∧
      result.get "bit_blocks" = some (jsonBitBlocks bitBlocks)) ∧
    ∀ bytes : Bytes, bytes.length < (multiBlockData wordBlocks bitBlocks).length →
      ∃ e, CommandSpec.parseResponse T spec params bytes = .error (.err e) := by
  have hentries : spec.responseEntries =
      [.blockWords "word_blocks" true, .blockBitsPacked "bit_blocks" lsbFirst] := by
    have hparse := parseCommand_responseEntries hspec
    rw [hraw, parseResponseFormats_multiBlock _ hfmt, Except.ok.injEq] at hparse
    exact hparse.symm
  have hwordLen : ∀ words : List UInt16, (wordsLe words).length = words.length * 2 :=
    fun words => by rw [length_wordsLe, Nat.mul_comm]
  have hbitLen : ∀ block : PackedBlock lsbFirst,
      block.bytes.length = (block.points.length + 7) / 8 := fun block => block.packs.length_eq
  have hwordReads := reads_parseBlocks fun d hd => reads_blockWords T "word_blocks" true params
    (announced_of_counts hwords d hd)
  have hbitReads := reads_parseBlocks fun d hd => reads_blockBitsPacked "bit_blocks" lsbFirst
    (announced_of_counts hbits d hd)
  have hreads := hwordReads.seq hbitReads
  have hneed := sum_need_eq (· * 2) hwordLen hwords
  have hneed' := sum_need_eq (fun n => (n + 7) / 8) hbitLen hbits
  rw [hneed, hneed', ← List.length_append] at hreads
  refine ⟨?_, ?_⟩
  · intro trailing
    have hrun := hreads.run (s := ⟨0, []⟩) rfl rfl hbound trailing
    rw [List.take_left, List.drop_left] at hrun
    have hparse := parseResponse_multiBlock T hentries params
      (multiBlockData wordBlocks bitBlocks ++ trailing)
    rw [multiBlockData, hrun, ok_bind] at hparse
    refine ⟨_, hparse, ?_, ?_⟩
    · -- the bit blocks are put in after the word blocks, under a name of their own
      rw [JsonValue.get_object, get_blocksEff_bits_of_ne (by decide)]
      exact get_blocksEff (· * 2) (fun _ _ _ => rfl) hwordLen
        (fun _ words _ => by rw [← blockBytes_true, chunkWords_blockBytes]) hwords _
    · rw [JsonValue.get_object]
      exact get_blocksEff (fun n => (n + 7) / 8) (fun _ _ _ => rfl) hbitLen
        (fun d block hd => by
          rw [blockPoints, hd, Option.getD_some, chunkPoints_of_packs block.packs])
        hbits _
  · intro bytes hlt
    obtain ⟨e, ⟨err, rfl⟩, hread⟩ := hreads.short bytes ⟨0, []⟩ (Nat.zero_le _)
      (by rw [Nat.zero_add]; exact hlt) (by rw [Nat.zero_add]; exact hbound)
    refine ⟨err, ?_⟩
    rw [parseResponse_multiBlock T hentries, hread]
    rfl

/-- A block of `count` points of the device with this code. -/
def deviceBlock (deviceCode count : Nat) : JsonValue :=
  .object [("start_addr", .ofNat 100), ("device_code", .ofNat deviceCode), ("count", .ofNat count)]

/-- A word of the bit device `M`, two words of the word device `D` and ten points. -/
theorem multi_block_response_threeBlocks :
    let params := JsonValue.object
      [("word_blocks", .array [deviceBlock 0x90 1, deviceBlock 0xA8 2]),
        ("bit_blocks", .array [deviceBlock 0x90 10])]
    let bitBlocks := [PackedBlock.ofPoints true
      [true, false, true, true, false, false, true, false, false, true]]
    (∀ trailing : Bytes, ∃ result : JsonValue,
      CommandSpec.parseResponse twoDevices readBlocksSpec params
        (multiBlockData [[0x1234], [0x0001, 0x8000]] bitBlocks ++ trailing) = .ok result ∧
      result.get "word_blocks" = some (jsonWordBlocks [[0x1234], [0x0001, 0x8000]]) ∧
      result.get "bit_blocks" = some (jsonBitBlocks bitBlocks)) ∧
    ∀ bytes : Bytes, bytes.length < (multiBlockData [[0x1234], [0x0001, 0x8000]] bitBlocks).length →
      ∃ e, CommandSpec.parseResponse twoDevices readBlocksSpec params bytes = .error (.err e) :=
  multi_block_response twoDevices parseCommand_readBlocks (by decide) rfl _ _ _ rfl rfl (by decide)

end MelsecMc
