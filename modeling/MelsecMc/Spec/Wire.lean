/-
The wire format, as the two ends agree on it.

Nothing here is translated from the source.  It says what the bytes of a frame are:
the three headers the crate documents, and the frames a station that follows them
sends.  The theorems about the crate's parsers and receive loops are stated over
these, so that "a well-formed response" is a value with its own bound rather than a
hypothesis about a list of bytes.
-/
import MelsecMc.Request

namespace MelsecMc

/-- Subheader, serial, reserved, access route, data length, end code or timer: fifteen bytes. -/
def mc4eHeader (subheader : Vector UInt8 2) (serial reserved : UInt16) (route : AccessRoute)
    (dataLen endCode : UInt16) : Bytes :=
  subheader.toList ++ u16ToLeBytes serial ++ u16ToLeBytes reserved ++ route.toBytes.toList
    ++ u16ToLeBytes dataLen ++ u16ToLeBytes endCode

/-- Subheader, access route, data length, end code or timer: eleven bytes. -/
def mc3eHeader (subheader : Vector UInt8 2) (route : AccessRoute) (dataLen endCode : UInt16) :
    Bytes :=
  subheader.toList ++ route.toBytes.toList ++ u16ToLeBytes dataLen ++ u16ToLeBytes endCode

/-- Access route, data length, end code: nine bytes. -/
def bareHeader (route : AccessRoute) (dataLen endCode : UInt16) : Bytes :=
  route.toBytes.toList ++ u16ToLeBytes dataLen ++ u16ToLeBytes endCode

/-- The number of bytes in front of the request data. -/
def headerLen : McFrameFormat → Nat
  | .mc4e => 15
  | .mc3e => 11

/-- One of the two bytes an MC4E frame starts with. -/
def IsMc4eLead (b : UInt8) : Prop :=
  b = leadByte mcSubheaderRequest ∨ b = leadByte mcSubheaderResponse

instance (b : UInt8) : Decidable (IsMc4eLead b) :=
  inferInstanceAs (Decidable (_ ∨ _))

/-- The length field counts the end code as well as the data. -/
def dataLenField (data : Bytes) : UInt16 :=
  UInt16.ofNat (data.length + 2)

/-- An MC4E frame no longer than the receive loop accepts. -/
structure Mc4eFrame where
  subheader : Vector UInt8 2
  serial : UInt16
  reserved : UInt16
  route : AccessRoute
  endCode : UInt16
  data : Bytes
  lead : IsMc4eLead (leadByte subheader)
  fits : 15 + data.length ≤ 65535

namespace Mc4eFrame

def header (f : Mc4eFrame) : Bytes :=
  mc4eHeader f.subheader f.serial f.reserved f.route (dataLenField f.data) f.endCode

def bytes (f : Mc4eFrame) : Bytes :=
  f.header ++ f.data

end Mc4eFrame

/-- Frames sent one after another. -/
def stream (frames : List Mc4eFrame) : Bytes :=
  (frames.map Mc4eFrame.bytes).flatten

/-! ### The fields where the headers put them -/

theorem mc4eHeader_eq (sh : Vector UInt8 2) (serial reserved : UInt16) (route : AccessRoute)
    (dataLen endCode : UInt16) :
    mc4eHeader sh serial reserved route dataLen endCode =
      [leadByte sh, secondByte sh, u16Lo serial, u16Hi serial, u16Lo reserved, u16Hi reserved,
        route.networkNumber, route.pcNumber, u16Lo route.ioNumber, u16Hi route.ioNumber,
        route.stationNumber, u16Lo dataLen, u16Hi dataLen, u16Lo endCode, u16Hi endCode] := by
  rw [mc4eHeader, subheader_toList, AccessRoute.toBytes_toList]
  simp only [u16ToLeBytes_eq, List.cons_append, List.nil_append]

theorem mc3eHeader_eq (sh : Vector UInt8 2) (route : AccessRoute) (dataLen endCode : UInt16) :
    mc3eHeader sh route dataLen endCode =
      [leadByte sh, secondByte sh, route.networkNumber, route.pcNumber, u16Lo route.ioNumber,
        u16Hi route.ioNumber, route.stationNumber, u16Lo dataLen, u16Hi dataLen,
        u16Lo endCode, u16Hi endCode] := by
  rw [mc3eHeader, subheader_toList, AccessRoute.toBytes_toList]
  simp only [u16ToLeBytes_eq, List.cons_append, List.nil_append]

theorem bareHeader_eq (route : AccessRoute) (dataLen endCode : UInt16) :
    bareHeader route dataLen endCode =
      [route.networkNumber, route.pcNumber, u16Lo route.ioNumber, u16Hi route.ioNumber,
        route.stationNumber, u16Lo dataLen, u16Hi dataLen, u16Lo endCode, u16Hi endCode] := by
  rw [bareHeader, AccessRoute.toBytes_toList]
  simp only [u16ToLeBytes_eq, List.cons_append, List.nil_append]

end MelsecMc
