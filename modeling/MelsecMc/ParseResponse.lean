/-
Parsing a response.

`parse_response` reads the data of a response entry by entry, with the same parameters
the request was built from: they say how many points each block has.  Every index into
the data and every sum of offsets is written out, so that a parse that would panic has a
panic for its result.
-/
import MelsecMc.BuildRequest

namespace MelsecMc

/-- What the parse has come to: the offset of the next byte, and the result so far. -/
structure ParseState where
  offset : Nat
  resultMap : JsonMap

/-- `push_array_in_result_map` -/
def pushArrayInResultMap (resultMap : JsonMap) (key : String) (value : JsonValue) : JsonMap :=
  match (resultMap.get key).bind JsonValue.asArray with
  | some arr => resultMap.insert key (.array (arr ++ [value]))
  | none => resultMap.insert key (.array [value])

namespace CommandSpec

/-- `cached_arrays.get(name)`, empty if the params have no array of that name. -/
def cachedArray (params : JsonValue) (name : String) : List JsonValue :=
  ((params.get name).bind JsonValue.asArray).getD []

/-- `read_block_count` -/
def readBlockCount (block : JsonValue) (name : String) : Except Failure Nat :=
  match (block.get "count").bind JsonValue.asU64 with
  | some count => .ok count.toNat
  | none => protocolError s!"missing count in block {name}"

/-- `ensure_bytes_available` -/
def ensureBytesAvailable (bytes : Bytes) (offset needed : Nat) (kind : String) :
    Except Failure Unit := do
  let stop ← usizeAdd offset needed
  if stop > bytes.length then protocolError s!"response too short for {kind}"

/-- Word `i` of a block. -/
def wordAt (le : Bool) (bytes : Bytes) (offset i : Nat) : Except Failure JsonValue := do
  let at0 ← usizeAdd offset (← usizeMul i 2)
  let b0 ← byteAt bytes at0
  let b1 ← byteAt bytes (← usizeAdd at0 1)
  let val := if le then u16FromLeBytes b0 b1 else u16FromLeBytes b1 b0
  return .ofNat val.toNat

/-- The sixteen bits of a word, lowest first. -/
def bitsOfWord (w : UInt16) : List JsonValue :=
  (List.range 16).map fun i => .bool ((w >>> UInt16.ofNat i) &&& 0x01 ≠ 0)

/-- One word of a bit device is reported a second time, as its bits. -/
def reportBits (T : DeviceTable) (params block : JsonValue) (count : Nat)
    (words : List JsonValue) (resultMap : JsonMap) : JsonMap :=
  let dcOpt := ((block.asObject.bind (·.get "device_code")).bind JsonValue.asU64).or
    ((params.get "device_code").bind JsonValue.asU64)
  match dcOpt with
  | none => resultMap
  | some dc =>
      if 256 ≤ dc.toNat then resultMap
      else
        match T.deviceByCode (UInt8.ofNat dc.toNat) with
        | none => resultMap
        | some dev =>
            if dev.category = .bit ∧ count = 1 then
              match words with
              | [word] =>
                  match word.asU64 with
                  | some numv =>
                      let w := if numv.toNat < 65536 then UInt16.ofNat numv.toNat else 0
                      pushArrayInResultMap resultMap "bit_blocks" (.array (bitsOfWord w))
                  | none => resultMap
              | _ => resultMap
            else resultMap

/-- One block of `parse_block_words_entry`. -/
def parseBlockWords (T : DeviceTable) (name : String) (le : Bool) (params : JsonValue)
    (bytes : Bytes) (acc : List JsonValue × ParseState) (block : JsonValue) :
    Except Failure (List JsonValue × ParseState) := do
  let (outBlocks, st) := acc
  let count ← readBlockCount block name
  let bytesNeeded ←
    if count * 2 < usizeBound then pure (count * 2) else protocolError "count too large"
  ensureBytesAvailable bytes st.offset bytesNeeded "word block"
  let words ← (List.range count).mapM (wordAt le bytes st.offset)
  let offset ← usizeAdd st.offset bytesNeeded
  return (outBlocks ++ [.array words],
    { offset, resultMap := reportBits T params block count words st.resultMap })

/-- Bit `i` of a packed block. -/
def packedBitAt (lsbFirst : Bool) (bytes : Bytes) (offset i : Nat) : Except Failure JsonValue := do
  let b ← byteAt bytes (← usizeAdd offset (i / 8))
  let bitIdx := if lsbFirst then i % 8 else 7 - i % 8
  return .bool ((b >>> UInt8.ofNat bitIdx) &&& 0x01 ≠ 0)

/-- One block of `parse_block_bits_packed_entry`. -/
def parseBlockBitsPacked (name : String) (lsbFirst : Bool) (bytes : Bytes)
    (acc : List JsonValue × ParseState) (block : JsonValue) :
    Except Failure (List JsonValue × ParseState) := do
  let (outBlocks, st) := acc
  let count ← readBlockCount block name
  let bytesNeeded := (count + 7) / 8
  ensureBytesAvailable bytes st.offset bytesNeeded "bit block"
  let bits ← (List.range count).mapM (packedBitAt lsbFirst bytes st.offset)
  let offset ← usizeAdd st.offset bytesNeeded
  return (outBlocks ++ [.array bits], { st with offset })

/-- A nibble is a point if points are still missing; `produced` counts those there are. -/
def pushNibble (count : Nat) (acc : List JsonValue × Nat) (nibble : UInt8) :
    List JsonValue × Nat :=
  let (nibbles, produced) := acc
  if produced < count then (nibbles ++ [.bool (nibble ≠ 0)], produced + 1) else (nibbles, produced)

/-- The two nibbles of byte `i`. -/
def pushByteNibbles (highFirst : Bool) (count : Nat) (bytes : Bytes) (offset : Nat)
    (acc : List JsonValue × Nat) (i : Nat) : Except Failure (List JsonValue × Nat) := do
  let b ← byteAt bytes (← usizeAdd offset i)
  let high := (b >>> 4) &&& 0x0F
  let low := b &&& 0x0F
  if highFirst then
    return pushNibble count (pushNibble count acc high) low
  else
    return pushNibble count (pushNibble count acc low) high

/-- One block of `parse_block_nibbles_entry`. -/
def parseBlockNibbles (name : String) (highFirst : Bool) (bytes : Bytes)
    (acc : List JsonValue × ParseState) (block : JsonValue) :
    Except Failure (List JsonValue × ParseState) := do
  let (outBlocks, st) := acc
  let count ← readBlockCount block name
  let bytesNeeded := (count + 1) / 2
  ensureBytesAvailable bytes st.offset bytesNeeded "nibble block"
  let (nibbles, _) ←
    (List.range bytesNeeded).foldlM (pushByteNibbles highFirst count bytes st.offset) ([], 0)
  let offset ← usizeAdd st.offset bytesNeeded
  return (outBlocks ++ [.array nibbles], { st with offset })

/-- An entry of blocks: one block after another, and then the list of them under the
entry's name. -/
def parseBlocks (name : String) (params : JsonValue)
    (parseBlock : List JsonValue × ParseState → JsonValue →
      Except Failure (List JsonValue × ParseState)) (st : ParseState) :
    Except Failure ParseState := do
  let (outBlocks, st) ← (cachedArray params name).foldlM parseBlock ([], st)
  return { st with resultMap := st.resultMap.insert name (.array outBlocks) }

/-- The remaining bytes, which must be hexadecimal digits, as a string. -/
def parseAsciiHexEntry (name : String) (bytes : Bytes) (st : ParseState) :
    Except Failure ParseState :=
  if st.offset > bytes.length then protocolError "response offset beyond end"
  else
    let rem := bytes.drop st.offset
    match rem.find? (fun b => !isAsciiHex b) with
    | some b => protocolError s!"response ascii_hex contains invalid byte: 0x{hex2 b}"
    | none =>
        -- hexadecimal digits are valid UTF-8, one character a byte
        let s := String.ofList (rem.map fun b => Char.ofNat b.toNat)
        .ok { offset := bytes.length, resultMap := st.resultMap.insert name (.string s) }

/-- One entry of `parse_response_entries`. -/
def parseResponseEntry (T : DeviceTable) (params : JsonValue) (bytes : Bytes) (st : ParseState) :
    ResponseEntry → Except Failure ParseState
  | .blockWords name le => parseBlocks name params (parseBlockWords T name le params bytes) st
  | .blockBitsPacked name lsbFirst =>
      parseBlocks name params (parseBlockBitsPacked name lsbFirst bytes) st
  | .blockNibbles name highFirst =>
      parseBlocks name params (parseBlockNibbles name highFirst bytes) st
  | .asciiHex name => parseAsciiHexEntry name bytes st

/-- `parse_response` -/
def parseResponse (T : DeviceTable) (spec : CommandSpec) (params : JsonValue) (bytes : Bytes) :
    Except Failure JsonValue := do
  let st ← spec.responseEntries.foldlM (parseResponseEntry T params bytes) ⟨0, []⟩
  return .object st.resultMap

end CommandSpec

end MelsecMc
