/-
The client.

Of `McClient` this file has the two ends of an operation: how parameters become the frame
that is sent, and the check of a response's end code that comes before its data is looked
at.  What lies between them is the transport.  `echo` is written out by hand in the source
and makes its request without the command table.
-/
import MelsecMc.BuildRequest
import MelsecMc.ErrorCodes
import MelsecMc.Params
import MelsecMc.Response

namespace MelsecMc

/-- `{code:04X}` -/
def hex4 (code : UInt16) : String :=
  String.ofList (Text.hexUpper 4 code.toNat)

/-- `McClient`: the fields a frame is made from. -/
structure McClient where
  /-- `target.access_route` -/
  accessRoute : AccessRoute
  plcSeries : PlcSeries
  mcFormat : McFrameFormat
  deriving DecidableEq, Repr

namespace McClient

/-- The request of a command, as every batch operation makes it; `serial` is the one
`McRequest::new` takes. -/
def makeRequest (T : DeviceTable) (reg : CommandRegistry) (client : McClient) (command : Command)
    (params : JsonValue) (serial : UInt16) : Except Failure McRequest :=
  match reg.get command with
  | none => protocolError "command not found"
  | some spec => do
      let requestData ← spec.buildRequest T params (some client.plcSeries)
      ((McRequest.new serial).withAccessRoute client.accessRoute).tryWithRequestData requestData

/-- The frame of a command. -/
def makeFrame (T : DeviceTable) (reg : CommandRegistry) (client : McClient) (command : Command)
    (params : JsonValue) (serial : UInt16) : Except Failure Bytes := do
  let mcReq ← makeRequest T reg client command params serial
  return mcReq.buildWithFormat client.mcFormat

/-- The frame `write_words` sends. -/
def writeWordsFrame (T : DeviceTable) (reg : CommandRegistry) (client : McClient)
    (device : String) (values : List UInt16) (serial : UInt16) : Except Failure Bytes :=
  makeFrame T reg client .writeWords (createWriteWordsParams T device values) serial

/-- The frame `write_bits` sends. -/
def writeBitsFrame (T : DeviceTable) (reg : CommandRegistry) (client : McClient)
    (device : String) (values : List Bool) (serial : UInt16) : Except Failure Bytes :=
  makeFrame T reg client .writeBits (createWriteBitsParams T device values) serial

/-- `check_response_end_code` -/
def checkResponseEndCode (errors : ErrorRegistryCell) (response : McResponse) :
    Except Failure Unit :=
  if response.hasEndCode then
    match response.endCode with
    | some code =>
        if code ≠ 0 then
          let name := (codeName errors code).getD ""
          let desc := (codeDescription errors code).getD ""
          let extra :=
            if name ≠ "" ∧ desc ≠ "" then s!" ({name}: {desc})"
            else if name ≠ "" then s!" ({name})"
            else if desc ≠ "" then s!" ({desc})"
            else ""
          protocolError s!"device end code: 0x{hex4 code}{extra}"
        else
          .ok ()
    | none => .ok ()
  else
    .ok ()

/-- `String::from_utf8` -/
def fromUtf8 (data : Bytes) : Option String :=
  String.fromUTF8? data.toByteArray

/-- The request `echo` sends, or why it sends none. -/
def echoRequest (client : McClient) (payload : String) (serial : UInt16) :
    Except Failure McRequest :=
  let bytes := asBytes payload
  let len := bytes.length
  if ¬ (1 ≤ len ∧ len ≤ 960) then
    protocolError s!"echo payload length out of range: {len}"
  else if ¬ bytes.all CommandSpec.isAsciiHex then
    protocolError "echo payload contains invalid characters; allowed: 0-9 A-F"
  else
    let requestData := u16ToLeBytes 0x0619 ++ u16ToLeBytes 0x0000 ++ bytes
    ((McRequest.new serial).withAccessRoute client.accessRoute).tryWithRequestData requestData

/-- What `echo` returns for the bytes that came back. -/
def echoAnswer (errors : ErrorRegistryCell) (buf : Bytes) : Except Failure String := do
  let response ← McResponse.tryNew buf
  checkResponseEndCode errors response
  match fromUtf8 response.data with
  | some s => return s
  | none => protocolError "echo response not valid UTF-8"

/-- `echo`; `sendAndRecv` is what `send_and_recv_with_retry` returns for a frame. -/
def echo (errors : ErrorRegistryCell) (client : McClient)
    (sendAndRecv : Bytes → Except Failure Bytes) (payload : String) (serial : UInt16) :
    Except Failure String := do
  let mcReq ← echoRequest client payload serial
  let buf ← sendAndRecv (mcReq.buildWithFormat client.mcFormat)
  echoAnswer errors buf

end McClient

end MelsecMc
