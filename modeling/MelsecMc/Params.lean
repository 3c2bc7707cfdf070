/-
Parameters of the batch commands.

Each helper makes the JSON object `build_request` and `parse_response` take.  What they
have in common is how they treat the device string; where it names no device, the
object lacks an entry, and it is `build_request` that then fails.
-/
import MelsecMc.Device
import MelsecMc.Json

namespace MelsecMc

/-- Every character of the string is an ASCII letter. -/
def isSymbolOnly (device : String) : Bool :=
  device.toList.all Text.isAsciiAlphabetic

/-- `to_uppercase` on a `String`. -/
def toUppercase (s : String) : String :=
  String.ofList (Text.toUppercase s.toList)

/-- The address of the device string: a bare symbol stands for address 0. -/
def insertStartAddr (T : DeviceTable) (device : String) (params : JsonMap) : JsonMap :=
  match T.parseDeviceAndAddress device with
  | .ok (_dev, addr) => params.insert "start_addr" (.ofNat addr.toNat)
  | .error _ =>
      if isSymbolOnly device then params.insert "start_addr" (.ofNat 0) else params

/-- The device code of the device string. -/
def insertDeviceCode (T : DeviceTable) (device : String) (params : JsonMap) : JsonMap :=
  match T.parseDeviceAndAddress device with
  | .ok (dev, _) => params.insert "device_code" (.ofNat dev.deviceCodeQ.toNat)
  | .error _ =>
      if isSymbolOnly device then
        match T.deviceBySymbol (toUppercase device) with
        | some dev => params.insert "device_code" (.ofNat dev.deviceCodeQ.toNat)
        | none => params
      else params

/-- What the four helpers start with. -/
def deviceParams (T : DeviceTable) (device : String) : JsonMap :=
  insertDeviceCode T device (insertStartAddr T device [])

/-- The descriptor of a block of `count` points. -/
def blockDescriptor (count : UInt16) : JsonValue :=
  .array [.object (JsonMap.insert [] "count" (.ofNat count.toNat))]

/-- `create_read_words_params` -/
def createReadWordsParams (T : DeviceTable) (device : String) (count : UInt16) : JsonValue :=
  .object (((deviceParams T device).insert "count" (.ofNat count.toNat)).insert "data_blocks"
    (blockDescriptor count))

/-- `create_read_bits_params` -/
def createReadBitsParams (T : DeviceTable) (device : String) (count : UInt16) : JsonValue :=
  .object ((((deviceParams T device).insert "count" (.ofNat count.toNat)).insert "bit_blocks"
    (blockDescriptor count)).insert "data_blocks" (blockDescriptor count))

/-- `create_write_words_params` -/
def createWriteWordsParams (T : DeviceTable) (device : String) (values : List UInt16) : JsonValue :=
  .object (((deviceParams T device).insert "count" (.ofNat values.length)).insert "data"
    (.array (values.map fun v => .ofNat v.toNat)))

/-- The packing loop of `create_write_bits_params`: two points a byte, the first one high. -/
def packLoop (values : List Bool) (i : Nat) (payloadBytes : Bytes) : Bytes :=
  if h : i < values.length then
    let high := values[i].toUInt8
    let low := if h' : i + 1 < values.length then values[i + 1].toUInt8 else 0
    let byte := (high <<< 4) ||| (low &&& 0x0F)
    packLoop values (i + 2) (payloadBytes ++ [byte])
  else payloadBytes
termination_by values.length - i

/-- `create_write_bits_params` -/
def createWriteBitsParams (T : DeviceTable) (device : String) (values : List Bool) : JsonValue :=
  .object (((deviceParams T device).insert "count" (.ofNat values.length)).insert "payload"
    (.array ((packLoop values 0 []).map fun b => .ofNat b.toNat)))

end MelsecMc
