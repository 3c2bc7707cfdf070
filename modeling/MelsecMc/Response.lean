/-
Responses.

`McResponse` is what a parsed frame says, with its data cut out.  A response without an
end code counts as a success.
-/
import MelsecMc.Request

namespace MelsecMc

/-- `McResponse` -/
structure McResponse where
  subheader : Vector UInt8 2
  accessRoute : Vector UInt8 5
  requestDataLen : UInt16
  data : Bytes
  endCode : Option UInt16
  hasEndCode : Bool
  serialNumber : Option UInt16
  deriving DecidableEq

/-- `parse_mc_payload` -/
def parseMcPayload (payload : Bytes) : Except Failure McResponse := do
  let parsed ← parseFrame payload
  let data ← McRequest.dataSlice payload parsed
  return {
    subheader := parsed.subheader
    accessRoute := parsed.accessRoute
    requestDataLen := parsed.requestDataLen
    data
    endCode := parsed.endCode
    hasEndCode := parsed.hasEndCode
    serialNumber := parsed.serialNumber }

namespace McResponse

/-- `McResponse::try_new` -/
def tryNew (payload : Bytes) : Except Failure McResponse :=
  parseMcPayload payload

def isSuccess (response : McResponse) : Bool :=
  match response.endCode with
  | some code => code = 0
  | none => true

end McResponse

end MelsecMc
