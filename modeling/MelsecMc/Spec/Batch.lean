/-
The request data of a batch command, as a station reads it.

Nothing here is translated from the source.  A station of either series takes the data
apart by the widths its manual gives: a command, a subcommand, an address, a device code
and a count, and then the points.  `decodeBatch` is that reading; `encodeBatch` is the
writing that it inverts as long as every number fits its field.
-/
import MelsecMc.Define
import MelsecMc.Device
import MelsecMc.Params

namespace MelsecMc

/-- The fields of the request data of a batch command. -/
structure BatchData where
  command : Nat
  subcommand : Nat
  address : Nat
  deviceCode : Nat
  count : Nat
  points : Bytes
  deriving DecidableEq, Repr

/-- The width of an address. -/
def addrWidth : PlcSeries → Nat
  | .q => 3
  | .r => 4

/-- The width of a device code. -/
def codeWidth : PlcSeries → Nat
  | .q => 1
  | .r => 2

/-- The number of bytes before the points. -/
def batchHeaderLen (series : PlcSeries) : Nat :=
  2 + (2 + (addrWidth series + (codeWidth series + 2)))

/-- Take the next `w` bytes off as a number. -/
def takeNumber (w : Nat) (bs : Bytes) : Nat × Bytes :=
  (LittleEndian.value (bs.take w), bs.drop w)

def decodeBatch (series : PlcSeries) (data : Bytes) : Option BatchData :=
  if data.length < batchHeaderLen series then none
  else
    let (command, data) := takeNumber 2 data
    let (subcommand, data) := takeNumber 2 data
    let (address, data) := takeNumber (addrWidth series) data
    let (deviceCode, data) := takeNumber (codeWidth series) data
    let (count, points) := takeNumber 2 data
    some { command, subcommand, address, deviceCode, count, points }

/-- Every field in its width; what does not fit is cut off. -/
def encodeBatch (series : PlcSeries) (b : BatchData) : Bytes :=
  LittleEndian.bytes 2 b.command ++ (LittleEndian.bytes 2 b.subcommand ++
    (LittleEndian.bytes (addrWidth series) b.address ++
      (LittleEndian.bytes (codeWidth series) b.deviceCode ++
        (LittleEndian.bytes 2 b.count ++ b.points))))

theorem takeNumber_bytes (w n : Nat) (bs : Bytes) :
    takeNumber w (LittleEndian.bytes w n ++ bs) = (n % 256 ^ w, bs) := by
  rw [takeNumber, List.take_left' (LittleEndian.length_bytes w n),
    List.drop_left' (LittleEndian.length_bytes w n), LittleEndian.value_bytes]

theorem length_encodeBatch (series : PlcSeries) (b : BatchData) :
    (encodeBatch series b).length = batchHeaderLen series + b.points.length := by
  simp only [encodeBatch, List.length_append, LittleEndian.length_bytes, batchHeaderLen]
  omega

/-- A field is read back modulo its width. -/
theorem decodeBatch_encodeBatch (series : PlcSeries) (b : BatchData) :
    decodeBatch series (encodeBatch series b) = some {
      command := b.command % 256 ^ 2
      subcommand := b.subcommand % 256 ^ 2
      address := b.address % 256 ^ addrWidth series
      deviceCode := b.deviceCode % 256 ^ codeWidth series
      count := b.count % 256 ^ 2
      points := b.points } := by
  rw [decodeBatch, if_neg (by rw [length_encodeBatch]; omega), encodeBatch]
  simp only [takeNumber_bytes]

/-- The device and address a string names: a parsed address, or a bare known symbol with
address 0. -/
def resolve (T : DeviceTable) (device : String) : Option (Device × Nat) :=
  match T.parseDeviceAndAddress device with
  | .ok (dev, addr) => some (dev, addr.toNat)
  | .error _ =>
      if isSymbolOnly device then (T.deviceBySymbol (toUppercase device)).map (·, 0) else none

/-- The device with this code, if there is one. -/
def knownDevice (T : DeviceTable) (code : UInt64) : Option Device :=
  if 256 ≤ code.toNat then none else T.deviceByCode (UInt8.ofNat code.toNat)

/-- Words in the byte order of the wire. -/
def wordsLe (words : List UInt16) : Bytes :=
  words.flatMap u16ToLeBytes

/-- The halves of the bytes, of each the high one first. -/
def highLowNibbles (bs : Bytes) : List Nat :=
  bs.flatMap fun b => [b.toNat / 16, b.toNat % 16]

theorem length_wordsLe (words : List UInt16) : (wordsLe words).length = 2 * words.length := by
  induction words with
  | nil => rfl
  | cons w words ih =>
      rw [wordsLe, List.flatMap_cons, List.length_append, length_u16ToLeBytes, List.length_cons]
      have htail : (words.flatMap u16ToLeBytes).length = 2 * words.length := ih
      omega

/-- The byte of two points. -/
def nibbleByte (high low : Bool) : UInt8 :=
  (high.toUInt8 <<< 4) ||| (low.toUInt8 &&& 0x0F)

/-- Two points a byte, the first one high. -/
def packNibbles : List Bool → Bytes
  | [] => []
  | [high] => [nibbleByte high false]
  | high :: low :: rest => nibbleByte high low :: packNibbles rest

end MelsecMc
