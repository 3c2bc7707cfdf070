/-
Building a request.

`build_request` writes the fields of a command one after another and then its blocks.
The values come from a JSON object; what is written for a number depends on the field,
on its declared width and byte order, and for addresses and device codes on the series.
-/
import MelsecMc.CommandSpec
import MelsecMc.Define
import MelsecMc.Device
import MelsecMc.Json

namespace MelsecMc

/-! ### Numbers and words as bytes -/

/-- The loop of `write_n_bytes`: `v & 0xFF`, then `v >>= 8`, `n` times. -/
def lowBytes : Nat → UInt64 → Bytes
  | 0, _ => []
  | n + 1, v => (v &&& 0xFF).toUInt8 :: lowBytes n (v >>> 8)

/-- `write_n_bytes`: on the stack for up to eight bytes, on the heap for more. -/
def writeNBytes (out : Bytes) (n : Nat) (v : UInt64) (le : Bool) : Except Failure Bytes :=
  if n ≤ 8 then
    let buf := lowBytes n v ++ List.replicate (8 - n) 0
    let buf := if le then buf else (buf.take n).reverse ++ buf.drop n
    .ok (out ++ buf.take n)
  else do
    let tmp ← vecWithCapacity n
    let tmp := tmp ++ lowBytes n v
    let tmp := if le then tmp else tmp.reverse
    return out ++ tmp

/-- A word in the byte order of its field. -/
def wordBytes (le : Bool) (w : UInt16) : Bytes :=
  if le then u16ToLeBytes w else u16ToBeBytes w

/-- `a += b` on `u64`. -/
def u64Add (a b : UInt64) : Except Failure UInt64 :=
  if a.toNat + b.toNat < 2 ^ 64 then .ok (a + b) else .error (.panic .arithmeticOverflow)

/-- The bytes of a string. -/
def asBytes (s : String) : Bytes :=
  s.toList.flatMap String.utf8EncodeChar

/-- `{code:02X}` -/
def hex2 (code : UInt8) : String :=
  String.ofList (Text.hexUpper 2 code.toNat)

/-- `{:?}` of a device category. -/
def DeviceType.debugStr : DeviceType → String
  | bit => "Bit"
  | word => "Word"
  | doubleWord => "DoubleWord"

/-! ### Values of the fields -/

/-- The number of bytes and the byte order for a field of a block. -/
def blockFieldWidth (name : String) (n : Nat) (le : Bool) (plcSeries : Option PlcSeries) :
    Nat × Bool :=
  if name = "device_code" then
    match plcSeries with
    | some .r => (2, true)
    | _ => (1, true)
  else if name = "start_addr" then
    match plcSeries with
    | some .r => (4, true)
    | _ => (n, le)
  else (n, le)

/-- The number of bytes and the byte order for a field of the request. -/
def requestFieldWidth (name : String) (n : Nat) (le : Bool) (plcSeries : Option PlcSeries) :
    Nat × Bool :=
  if name = "command" ∨ name = "subcommand" then (n, true)
  else blockFieldWidth name n le plcSeries

/-- The key of a series in a subcommand table. -/
def seriesKey : Option PlcSeries → String
  | some .r => "R"
  | _ => "Q"

namespace CommandSpec

/-- The subcommand for the series, if the command has one. -/
def effectiveSubcommand (spec : CommandSpec) (plcSeries : Option PlcSeries) : Option UInt16 :=
  match spec.subcommand with
  | some (.single v) => some v
  | some (.perSeries map) => (map.lookup (seriesKey plcSeries)).or (map.head?.map (·.2))
  | none => none

/-- The length of the block list under `key`, or 0. -/
def blockCount (params : JsonValue) (key : String) : UInt64 :=
  match (params.get key).bind JsonValue.asArray with
  | some arr => UInt64.ofNat arr.length
  | none => 0

/-- The last branch of `get_num_field`: the number among the params. -/
def numParam (name : String) (params : JsonValue) : Except Failure UInt64 :=
  let missing := protocolError s!"missing numeric param: {name}"
  match params.get name with
  | some v =>
      if v.isNumber then
        match v.asU64 with
        | some i => .ok i
        | none =>
            match v.asI64 with
            | some i => if 0 ≤ i.toInt then .ok (UInt64.ofNat i.toInt.toNat) else missing
            | none => missing
      else missing
  | none => missing

/-- `get_num_field` -/
def getNumField (spec : CommandSpec) (name : String) (params : JsonValue)
    (plcSeries : Option PlcSeries) : Except Failure UInt64 :=
  if name = "command" then .ok spec.commandCode.toUInt64
  else if name = "subcommand" then
    .ok ((spec.effectiveSubcommand plcSeries).getD 0).toUInt64
  else if name = "word_block_count" then .ok (blockCount params "word_blocks")
  else if name = "bit_block_count" then .ok (blockCount params "bit_blocks")
  else numParam name params

/-! ### The fields of a request -/

/-- `write_fixed_bytes_field` -/
def writeFixedBytesField (spec : CommandSpec) (name : String) (n : Nat) (le : Bool)
    (params : JsonValue) (plcSeries : Option PlcSeries) (out : Bytes) : Except Failure Bytes := do
  let v ← spec.getNumField name params plcSeries
  let (effectiveN, effectiveLe) := requestFieldWidth name n le plcSeries
  writeNBytes out effectiveN v effectiveLe

/-- The loop over an array of words, with the message for an item that is no number. -/
def pushWords (le : Bool) (notNumber : String) : Bytes → List JsonValue → Except Failure Bytes
  | out, [] => .ok out
  | out, item :: items =>
      match item.asU64 with
      | some num =>
          if num.toNat < 65536 then
            pushWords le notNumber (out ++ wordBytes le (UInt16.ofNat num.toNat)) items
          else protocolError s!"word array item out of range for u16: {num}"
      | none => protocolError notNumber

/-- `write_words_field` -/
def writeWordsField (name : String) (le : Bool) (params : JsonValue) (out : Bytes) :
    Except Failure Bytes :=
  match (params.get name).bind JsonValue.asArray with
  | some arr => pushWords le s!"word array item not number: {name}" out arr
  | none => protocolError s!"expected array for words field: {name}"

/-- The loop over an array of byte values. -/
def pushBytes (name : String) : Bytes → List JsonValue → Except Failure Bytes
  | out, [] => .ok out
  | out, item :: items =>
      match item.asU64 with
      | some bv =>
          if bv.toNat < 256 then pushBytes name (out ++ [UInt8.ofNat bv.toNat]) items
          else protocolError s!"payload item out of range for u8: {bv}"
      | none => protocolError s!"payload item not number: {name}"

/-- `write_bytes_field`: an array of byte values, else the bytes of a string, else nothing. -/
def writeBytesField (name : String) (params : JsonValue) (out : Bytes) : Except Failure Bytes :=
  match (params.get name).bind JsonValue.asArray with
  | some arr => pushBytes name out arr
  | none =>
      match (params.get name).bind JsonValue.asStr with
      | some s => .ok (out ++ asBytes s)
      | none => .ok out

/-- An ASCII character that is a hexadecimal digit. -/
def isAsciiHex (b : UInt8) : Bool :=
  (0x30 ≤ b ∧ b ≤ 0x39) ∨ (0x41 ≤ b ∧ b ≤ 0x46) ∨ (0x61 ≤ b ∧ b ≤ 0x66)

/-- The loop over the bytes of a string that must be hexadecimal digits. -/
def pushAsciiHex : Bytes → Bytes → Except Failure Bytes
  | out, [] => .ok out
  | out, b :: bs =>
      if isAsciiHex b then pushAsciiHex (out ++ [b]) bs
      else protocolError s!"payload string contains invalid ascii_hex byte: 0x{hex2 b}"

/-- `write_ascii_hex_field`: a string of hexadecimal digits, else an array of byte values,
else nothing. -/
def writeAsciiHexField (name : String) (params : JsonValue) (out : Bytes) : Except Failure Bytes :=
  match (params.get name).bind JsonValue.asStr with
  | some s => pushAsciiHex out (asBytes s)
  | none =>
      match (params.get name).bind JsonValue.asArray with
      | some arr => pushBytes name out arr
      | none => .ok out

/-- One field of the request. -/
def writeField (spec : CommandSpec) (params : JsonValue) (plcSeries : Option PlcSeries)
    (out : Bytes) (f : FieldSpec) : Except Failure Bytes :=
  match f.kind with
  | .fixedBytes n le => spec.writeFixedBytesField f.name n le params plcSeries out
  | .words le => writeWordsField f.name le params out
  | .bytes => writeBytesField f.name params out
  | .asciiHex => writeAsciiHexField f.name params out

/-! ### Which devices a command takes -/

/-- The categories a family admits. -/
def admits (family : DeviceFamily) (category : DeviceType) : Bool :=
  match family with
  | .any => true
  | .bit => category = .bit
  | .word => category = .word ∨ category = .doubleWord
  | .doubleWord => category = .doubleWord

/-- What the error says the family requires. -/
def familyWord : DeviceFamily → String
  | .any => ""
  | .bit => "bit"
  | .word => "word"
  | .doubleWord => "double-word"

/-- `validate_code_for_family` -/
def validateCodeForFamily (T : DeviceTable) (spec : CommandSpec) (codeNum : UInt64)
    (family : DeviceFamily) : Except Failure Unit :=
  if 256 ≤ codeNum.toNat then protocolError s!"device code out of range: {codeNum}"
  else
    let code := UInt8.ofNat codeNum.toNat
    match T.deviceByCode code with
    | none => .ok ()
    | some dev =>
        if admits family dev.category then .ok ()
        else
          protocolError s!"command '{spec.id.asStr}' requires a {familyWord family} device but device code 0x{hex2 code} is {dev.category.debugStr}"

/-- The numeric `device_code` of an object. -/
def deviceCodeOf (obj : JsonMap) : Option UInt64 :=
  (obj.get "device_code").bind JsonValue.asU64

/-- `write_request_fields` -/
def writeRequestFields (T : DeviceTable) (spec : CommandSpec) (params : JsonValue)
    (plcSeries : Option PlcSeries) (out : Bytes) : Except Failure Bytes := do
  match (params.get "device_code").bind JsonValue.asU64 with
  | some dc => validateCodeForFamily T spec dc spec.deviceFamily
  | none => pure ()
  spec.blockTemplates.forM fun bt =>
    (((params.get (bt.name ++ "s")).bind JsonValue.asArray).getD []).forM fun entry =>
      match entry.asObject.bind deviceCodeOf with
      | some dc => validateCodeForFamily T spec dc (bt.deviceFamily.getD spec.deviceFamily)
      | none => pure ()
  spec.requestFields.foldlM (spec.writeField params plcSeries) out

/-! ### The blocks of a request -/

/-- The running totals of `validate_block_limits`. -/
structure Points where
  word : UInt64
  dword : UInt64
  bit : UInt64

/-- One entry of a block list counts towards the total of its device's category. -/
def countEntry (T : DeviceTable) (total : Points) (entry : JsonValue) : Except Failure Points :=
  match entry.asObject with
  | none => .ok total
  | some obj =>
      match deviceCodeOf obj, (obj.get "count").bind JsonValue.asU64 with
      | some dc, some count =>
          if 256 ≤ dc.toNat then .ok total
          else
            match T.deviceByCode (UInt8.ofNat dc.toNat) with
            | none => .ok total
            | some dev =>
                match dev.category with
                | .word => do return { total with word := ← u64Add total.word count }
                | .doubleWord => do return { total with dword := ← u64Add total.dword count }
                | .bit => do return { total with bit := ← u64Add total.bit count }
      | _, _ => .ok total

/-- One total against its limit, if there is one. -/
def checkLimit (spec : CommandSpec) (name : String) (total : UInt64) (limit : Option UInt64) :
    Except Failure Unit :=
  match limit with
  | some l =>
      if l < total then
        protocolError s!"command '{spec.id.asStr}' exceeds {name} limit: {total} > {l}"
      else .ok ()
  | none => .ok ()

/-- `validate_block_limits` -/
def validateBlockLimits (T : DeviceTable) (spec : CommandSpec) (params : JsonValue) :
    Except Failure Unit :=
  match spec.limits with
  | none => .ok ()
  | some lim => do
      let total ← spec.blockTemplates.foldlM (fun total bt =>
        (((params.get (bt.name ++ "s")).bind JsonValue.asArray).getD []).foldlM (countEntry T) total)
        ⟨0, 0, 0⟩
      checkLimit spec "word_points" total.word lim.wordPoints
      checkLimit spec "dword_points" total.dword lim.dwordPoints
      checkLimit spec "bit_points" total.bit lim.bitPoints

/-- `emit_field_fixed_bytes` -/
def emitFieldFixedBytes (name : String) (n : Nat) (le : Bool) (map : JsonMap)
    (plcSeries : Option PlcSeries) (out : Bytes) : Except Failure Bytes :=
  match (map.get name).bind JsonValue.asU64 with
  | none => protocolError s!"missing block field {name}"
  | some val =>
      let (effectiveN, effectiveLe) := blockFieldWidth name n le plcSeries
      writeNBytes out effectiveN val effectiveLe

/-- `emit_field_words`: an array of words, or one word. -/
def emitFieldWords (name : String) (le : Bool) (map : JsonMap) (out : Bytes) :
    Except Failure Bytes :=
  match (map.get name).bind JsonValue.asArray with
  | some warr => pushWords le "word array item not number" out warr
  | none =>
      match (map.get name).bind JsonValue.asU64 with
      | none => protocolError s!"missing field {name}"
      | some val =>
          if val.toNat < 65536 then .ok (out ++ wordBytes le (UInt16.ofNat val.toNat))
          else protocolError s!"field {name} out of range for u16: {val}"

/-- One field of a block entry; fields of the other two kinds write nothing. -/
def emitField (map : JsonMap) (plcSeries : Option PlcSeries) (out : Bytes) (fld : FieldSpec) :
    Except Failure Bytes :=
  match fld.kind with
  | .fixedBytes n le => emitFieldFixedBytes fld.name n le map plcSeries out
  | .words le => emitFieldWords fld.name le map out
  | .bytes => .ok out
  | .asciiHex => .ok out

/-- `emit_block_template` -/
def emitBlockTemplate (params : JsonValue) (plcSeries : Option PlcSeries) (out : Bytes)
    (bt : BlockTemplate) : Except Failure Bytes :=
  let key := bt.name ++ "s"
  match (params.get key).bind JsonValue.asArray with
  | none => protocolError s!"missing block array: {key}"
  | some arr =>
      arr.foldlM (fun out entry =>
        match entry.asObject with
        | none => protocolError "block entry must be object"
        | some map => bt.fields.foldlM (emitField map plcSeries) out) out

/-- `append_blocks` -/
def appendBlocks (T : DeviceTable) (spec : CommandSpec) (params : JsonValue)
    (plcSeries : Option PlcSeries) (out : Bytes) : Except Failure Bytes := do
  validateBlockLimits T spec params
  spec.blockTemplates.foldlM (emitBlockTemplate params plcSeries) out

/-- `build_request` -/
def buildRequest (T : DeviceTable) (spec : CommandSpec) (params : JsonValue)
    (plcSeries : Option PlcSeries) : Except Failure Bytes := do
  let out ← writeRequestFields T spec params plcSeries []
  appendBlocks T spec params plcSeries out

end CommandSpec

end MelsecMc
