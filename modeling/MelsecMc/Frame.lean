/-
Frame headers.

Three layouts share one entry point.  An MC4E header is fifteen bytes and starts with
one of the two MC4E subheader bytes; an MC3E header with a subheader is eleven bytes,
and one without is nine.  Neither MC3E layout is marked as such: a buffer is read as
MC3E because two of its bytes, taken as a length, are at least two.

`detectFrame` looks at the front of a receive buffer, which may hold any number of
bytes; `parseFrame` reads a whole frame.  They choose the layout by the same tests.
-/
import MelsecMc.Define

namespace MelsecMc

/-- `FrameParseResult` -/
structure FrameParseResult where
  subheader : Vector UInt8 2
  accessRoute : Vector UInt8 5
  requestDataLen : UInt16
  /-- where the data bytes start in the payload -/
  dataOffset : Nat
  /-- the number of data bytes, not counting the end code -/
  dataBytes : Nat
  hasEndCode : Bool
  endCode : Option UInt16
  /-- present in some subheader + MC3E request formats -/
  monitorTimer : Option UInt16
  serialNumber : Option UInt16
  deriving DecidableEq

/-- The test both functions open with: fifteen bytes, the first an MC4E subheader byte. -/
def startsMc4e (buf : Bytes) : Except Failure Bool :=
  if 15 ≤ buf.length then do
    let lead ← byteAt buf 0
    return lead = leadByte mcSubheaderRequest ∨ lead = leadByte mcSubheaderResponse
  else
    return false

/-- The two MC3E branches of `detect_frame`, which differ in the header length and in
where the length field stands. -/
def detectMc3e (headerLen lenAt : Nat) (buf : Bytes) :
    Except Failure (Option (Nat × Nat × Option UInt16)) :=
  if headerLen ≤ buf.length then do
    let dataLen := (← u16At buf lenAt).toNat
    if 2 ≤ dataLen then
      return some (headerLen + (dataLen - 2), headerLen, none)
    else
      return none
  else
    return none

/-- `detect_frame`: the frame length, the header length and the serial that the front of
the buffer announces.  The length may exceed what the buffer holds. -/
def detectFrame (buf : Bytes) : Except Failure (Option (Nat × Nat × Option UInt16)) := do
  if buf.length < 2 then
    return none
  else if ← startsMc4e buf then
    let dataLen := (← u16At buf 11).toNat
    if dataLen < 2 then
      protocolError s!"MC4E invalid data_len (must be >=2): {dataLen}"
    else
      let serial ← if 4 ≤ buf.length then some <$> u16At buf 2 else pure none
      return some (15 + (dataLen - 2), 15, serial)
  else
    match ← detectMc3e 11 7 buf with
    | some frame => return some frame
    | none => detectMc3e 9 5 buf

/-- The two bytes at `i`, as an array. -/
def twoBytesAt (buf : Bytes) (i : Nat) : Except Failure (Vector UInt8 2) := do
  return #v[← byteAt buf i, ← byteAt buf (i + 1)]

/-- The five bytes at `i`, as an array. -/
def fiveBytesAt (buf : Bytes) (i : Nat) : Except Failure (Vector UInt8 5) := do
  return #v[← byteAt buf i, ← byteAt buf (i + 1), ← byteAt buf (i + 2), ← byteAt buf (i + 3),
    ← byteAt buf (i + 4)]

/-- The MC4E branch of `parse_frame`.  Its last test repeats the one it was entered by,
so the mismatch error below it is never reached. -/
def parseMc4e (payload : Bytes) : Except Failure FrameParseResult := do
  let subheader ← twoBytesAt payload 0
  let serial ← u16At payload 2
  let accessRoute ← fiveBytesAt payload 6
  let dataLen ← u16At payload 11
  if dataLen.toNat < 2 then
    protocolError s!"MC4E invalid data_len (must be >=2): {dataLen.toNat}"
  else
    let endCode ← u16At payload 13
    let dataBytes := dataLen.toNat - 2
    let _data ← slice payload 15 (min payload.length (15 + dataBytes))
    if 15 ≤ payload.length ∨ endCode = 0x0000 then
      return {
        subheader
        accessRoute
        requestDataLen := dataLen
        dataOffset := 15
        dataBytes
        hasEndCode := true
        endCode := some endCode
        monitorTimer := none
        serialNumber := some serial }
    else
      protocolError s!"MC4E payload length mismatch: have {payload.length} bytes, expected header+{dataBytes}"

/-- The subheader + MC3E branch of `parse_frame`: bytes 9 and 10 are taken for a monitor
timer, and no end code is reported. -/
def parseSubheaderMc3e (payload : Bytes) : Except Failure (Option FrameParseResult) :=
  if 11 ≤ payload.length then do
    let accessRoute ← fiveBytesAt payload 2
    let dataLen ← u16At payload 7
    if 2 ≤ dataLen.toNat then
      let endCode ← u16At payload 9
      if 11 ≤ payload.length ∨ endCode = 0x0000 then
        let monitor ← u16At payload 9
        return some {
          subheader := ← twoBytesAt payload 0
          accessRoute
          requestDataLen := dataLen
          dataOffset := 11
          dataBytes := dataLen.toNat - 2
          hasEndCode := false
          endCode := none
          monitorTimer := some monitor
          serialNumber := none }
      else
        return none
    else
      return none
  else
    return none

/-- The MC3E branch of `parse_frame` without a subheader. -/
def parseMc3e (payload : Bytes) : Except Failure (Option FrameParseResult) :=
  if 9 ≤ payload.length then do
    let accessRoute ← fiveBytesAt payload 0
    let dataLen ← u16At payload 5
    if 2 ≤ dataLen.toNat then
      let endCode ← u16At payload 7
      if 9 ≤ payload.length ∨ endCode = 0x0000 then
        return some {
          subheader := mc3eSubheaderResponse
          accessRoute
          requestDataLen := dataLen
          dataOffset := 9
          dataBytes := dataLen.toNat - 2
          hasEndCode := true
          endCode := some endCode
          monitorTimer := none
          serialNumber := none }
      else
        return none
    else
      return none
  else
    return none

/-- The fallback of `parse_frame`: everything after the subheader is raw data. -/
def parseRaw (payload : Bytes) : Except Failure FrameParseResult := do
  let data ← if payload.length > 2 then slice payload 2 payload.length else pure []
  if data.length < 65536 then
    return {
      subheader := ← twoBytesAt payload 0
      accessRoute := #v[0, 0, 0, 0, 0]
      requestDataLen := UInt16.ofNat data.length
      dataOffset := 2
      dataBytes := data.length
      hasEndCode := false
      endCode := none
      monitorTimer := none
      serialNumber := none }
  else
    protocolError s!"data_len too large: {data.length}"

/-- `parse_frame` -/
def parseFrame (payload : Bytes) : Except Failure FrameParseResult := do
  if payload.length < 2 then
    protocolError "payload too short"
  else if ← startsMc4e payload then
    parseMc4e payload
  else
    match ← parseSubheaderMc3e payload with
    | some parsed => return parsed
    | none =>
        match ← parseMc3e payload with
        | some parsed => return parsed
        | none => parseRaw payload

end MelsecMc
