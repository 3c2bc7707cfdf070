/-
Protocol constants and the access route.

The two subheaders belong to MC4E; the crate uses the request one for MC3E frames
as well.  `AccessRoute` is the five bytes that tell the network where the station is.
-/
import MelsecMc.Bytes

namespace MelsecMc

/-- `MC_SUBHEADER_REQUEST` -/
def mcSubheaderRequest : Vector UInt8 2 := #v[0x54, 0x00]

/-- `MC_SUBHEADER_RESPONSE` -/
def mcSubheaderResponse : Vector UInt8 2 := #v[0xD4, 0x00]

/-- The subheader of an MC3E response, which `parse_frame` also reports for one without. -/
def mc3eSubheaderResponse : Vector UInt8 2 := #v[0xD0, 0x00]

/-- The first byte of a subheader, the one the frame format is told by. -/
def leadByte (subheader : Vector UInt8 2) : UInt8 := subheader[0]

/-- The other byte. -/
def secondByte (subheader : Vector UInt8 2) : UInt8 := subheader[1]

theorem subheader_toList (subheader : Vector UInt8 2) :
    subheader.toList = [leadByte subheader, secondByte subheader] := by
  obtain ⟨⟨l⟩, hl⟩ := subheader
  match l, hl with
  | [a, b], _ => rfl

inductive McFrameFormat
  | mc4e
  | mc3e
  deriving DecidableEq, Repr

inductive Protocol
  | tcp
  | udp
  deriving DecidableEq, Repr

inductive PlcSeries
  | q
  | r
  deriving DecidableEq, Repr

structure AccessRoute where
  networkNumber : UInt8
  pcNumber : UInt8
  ioNumber : UInt16
  stationNumber : UInt8
  deriving DecidableEq, Repr

namespace AccessRoute

/-- `AccessRoute::default` -/
def default : AccessRoute where
  networkNumber := 0x00
  pcNumber := 0xFF
  ioNumber := 0x03FF
  stationNumber := 0x00

def toBytes (route : AccessRoute) : Vector UInt8 5 :=
  #v[route.networkNumber, route.pcNumber, u16Lo route.ioNumber, u16Hi route.ioNumber,
    route.stationNumber]

/-- The route a parsed header names: `try_from_payload` rebuilds it from the five bytes. -/
def ofBytes (bytes : Vector UInt8 5) : AccessRoute where
  networkNumber := bytes[0]
  pcNumber := bytes[1]
  ioNumber := u16FromLeBytes bytes[2] bytes[3]
  stationNumber := bytes[4]

@[simp] theorem ofBytes_toBytes (route : AccessRoute) : ofBytes route.toBytes = route := by
  simp [ofBytes, toBytes]

@[simp] theorem toBytes_toList (route : AccessRoute) :
    route.toBytes.toList = [route.networkNumber, route.pcNumber, u16Lo route.ioNumber,
      u16Hi route.ioNumber, route.stationNumber] := rfl

end AccessRoute

end MelsecMc
