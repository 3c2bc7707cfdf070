/-
Requests: the serial counter, the builder, and reading a request back.

Every `McRequest::new()` takes its serial from one process-wide counter.  The counter
is a parameter here: `nextSerial` maps its value to the new value and the serial handed
out, which is what `fetch_update` does in one atomic step.
-/
import MelsecMc.Frame

namespace MelsecMc

/-- `SERIAL_COUNTER` at program start. -/
def serialCounterStart : UInt16 := 1

/-- `next_serial`: the counter's new value and the serial returned. -/
def nextSerial (counter : UInt16) : UInt16 × UInt16 :=
  let updated := if counter = 0xFFFF then 1 else counter + 1
  let returned := if counter = 0xFFFF then 1 else counter + 1
  (updated, returned)

/-- `McRequest` -/
structure McRequest where
  subheader : Vector UInt8 2
  accessRoute : AccessRoute
  requestDataLen : UInt16
  monitoringTimer : UInt16
  requestData : Bytes
  serialNumber : UInt16
  deriving DecidableEq

namespace McRequest

/-- `McRequest::new`, given the serial `next_serial` returned. -/
def new (serial : UInt16) : McRequest where
  subheader := mcSubheaderRequest
  accessRoute := AccessRoute.default
  requestDataLen := 0
  monitoringTimer := 0x1000
  requestData := []
  serialNumber := serial

def withSubheader (req : McRequest) (subheader : Vector UInt8 2) : McRequest :=
  { req with subheader }

def withAccessRoute (req : McRequest) (accessRoute : AccessRoute) : McRequest :=
  { req with accessRoute }

/-- The length field counts the two bytes of the timer as well. -/
def tryWithRequestData (req : McRequest) (requestData : Bytes) : Except Failure McRequest :=
  let totalLen := requestData.length + 2
  if usizeBound ≤ totalLen then
    protocolError "request_data length overflow"
  else if 65536 ≤ totalLen then
    protocolError "request_data too large to fit into u16"
  else
    .ok { req with requestDataLen := UInt16.ofNat totalLen, requestData }

def withSerialNumber (req : McRequest) (serialNumber : UInt16) : McRequest :=
  { req with serialNumber }

def withMonitoringTimer (req : McRequest) (monitoringTimer : UInt16) : McRequest :=
  { req with monitoringTimer }

/-- `build_mc_payload_with_format` -/
def buildMcPayloadWithFormat (req : McRequest) : McFrameFormat → Bytes
  | .mc4e =>
      req.subheader.toList ++ u16ToLeBytes req.serialNumber ++ u16ToLeBytes 0x0000
        ++ req.accessRoute.toBytes.toList ++ u16ToLeBytes req.requestDataLen
        ++ u16ToBeBytes req.monitoringTimer ++ req.requestData
  | .mc3e =>
      req.subheader.toList ++ req.accessRoute.toBytes.toList ++ u16ToLeBytes req.requestDataLen
        ++ u16ToLeBytes req.monitoringTimer ++ req.requestData

/-- `build_with_format` -/
def buildWithFormat (req : McRequest) (format : McFrameFormat) : Bytes :=
  buildMcPayloadWithFormat req format

/-- The data slice of a parsed payload: `try_from_payload` and `parse_mc_payload` cut it
out by the same expression. -/
def dataSlice (payload : Bytes) (parsed : FrameParseResult) : Except Failure Bytes :=
  if parsed.dataOffset ≤ payload.length then
    slice payload parsed.dataOffset
      (min payload.length (parsed.dataOffset + parsed.dataBytes))
  else
    return []

/-- `try_from_payload` -/
def tryFromPayload (payload : Bytes) : Except Failure McRequest := do
  let parsed ← parseFrame payload
  let data ← dataSlice payload parsed
  return {
    subheader := parsed.subheader
    accessRoute := AccessRoute.ofBytes parsed.accessRoute
    requestDataLen := parsed.requestDataLen
    monitoringTimer := parsed.monitorTimer.getD 0x1000
    requestData := data
    serialNumber := parsed.serialNumber.getD 0 }

/-! ### Builder chains

A request is obtained by calling builder methods one after another on a new one; only
`try_with_request_data` can fail, and a failure ends the chain.
-/

/-- A call of one builder method. -/
inductive BuilderCall
  | withSubheader (subheader : Vector UInt8 2)
  | withAccessRoute (accessRoute : AccessRoute)
  | tryWithRequestData (requestData : Bytes)
  | withSerialNumber (serialNumber : UInt16)
  | withMonitoringTimer (monitoringTimer : UInt16)

def applyCall (req : McRequest) : BuilderCall → Except Failure McRequest
  | .withSubheader subheader => .ok (req.withSubheader subheader)
  | .withAccessRoute accessRoute => .ok (req.withAccessRoute accessRoute)
  | .tryWithRequestData requestData => req.tryWithRequestData requestData
  | .withSerialNumber serialNumber => .ok (req.withSerialNumber serialNumber)
  | .withMonitoringTimer timer => .ok (req.withMonitoringTimer timer)

/-- The chain of calls, left to right. -/
def applyCalls : McRequest → List BuilderCall → Except Failure McRequest
  | req, [] => .ok req
  | req, call :: calls =>
      match req.applyCall call with
      | .ok req' => applyCalls req' calls
      | .error e => .error e

end McRequest

end MelsecMc
