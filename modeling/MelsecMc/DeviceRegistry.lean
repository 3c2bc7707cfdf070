/-
Checking a device file.

A `device.toml` next to the executable is read by two modules with record types of their own.
`DeviceRegistry::validate_str` checks it; `parse_devices_toml` is what the process loads it
with.  Here a record is the table the TOML library makes of it, and reading it into a struct,
which the derived `Deserialize` does, is written out for both: a key that must be there and is
missing is an error, one of the wrong type is an error in every case, and what a struct does not
name is ignored.
-/
import MelsecMc.DeviceFile

namespace MelsecMc

/-- `toml::Value`, with one constructor for the kinds no key of a device file may have. -/
inductive TomlItem
  | string (s : String)
  | integer (i : Int64)
  | array (items : List TomlItem)
  | table (entries : List (String × TomlItem))
  | other

/-- A table: one `[[device]]` of the file. -/
abbrev DeviceRecord := List (String × TomlItem)

namespace TomlItem

/-- An item read as a `String`. -/
def asString : TomlItem → Option String
  | string s => some s
  | _ => none

/-- An item read as an unsigned number with `bound` values. -/
def asUnsigned (bound : Nat) : TomlItem → Option Nat
  | integer i => if 0 ≤ i.toInt ∧ i.toInt < bound then some i.toInt.toNat else none
  | _ => none

/-- An item read as a `u32`. -/
def asU32 (item : TomlItem) : Option UInt32 :=
  (item.asUnsigned (2 ^ 32)).map UInt32.ofNat

/-- An item read as a `u8`. -/
def asU8 (item : TomlItem) : Option UInt8 :=
  (item.asUnsigned 256).map UInt8.ofNat

/-- An item read as a `Vec`. -/
def asVec {α : Type} (read : TomlItem → Option α) : TomlItem → Option (List α)
  | array items => items.mapM read
  | _ => none

/-- A field that must be there. -/
def required {α : Type} (read : TomlItem → Option α) (record : DeviceRecord) (key : String) :
    Option α :=
  (record.lookup key).bind read

/-- A field of type `Option`. -/
def optional {α : Type} (read : TomlItem → Option α) (record : DeviceRecord) (key : String) :
    Option (Option α) :=
  match record.lookup key with
  | some item => (read item).map some
  | none => some none

end TomlItem

open TomlItem

/-! ### The loader -/

/-- `RawDevice` of `parse_devices_toml`; the description is read and not used. -/
def RawDevice.ofRecord (record : DeviceRecord) : Option RawDevice := do
  let symbol ← required asString record "symbol"
  let code ← required asU32 record "code"
  let category ← required asString record "category"
  let base ← required asString record "base"
  let _description ← required asString record "description"
  let series ← optional (asVec asString) record "series"
  return { symbol, code, category, base, series := series.getD [] }

/-- `parse_devices_toml`, from the tables of the file.  The text of a TOML error is the
library's. -/
def parseDevicesFile (entries : List (String × UInt8)) (records : List DeviceRecord) :
    Except Failure (List Device) :=
  match records.mapM RawDevice.ofRecord with
  | none => protocolError "parse devices.toml"
  | some raws => parseDevicesToml entries raws

/-! ### The validator -/

/-- `BitMapEntry` -/
structure BitMapEntry where
  bitIndex : UInt32
  byteOffset : Option UInt32
  bitPos : UInt8
  deriving DecidableEq

def BitMapEntry.ofItem : TomlItem → Option BitMapEntry
  | .table record => do
      let bitIndex ← required asU32 record "bit_index"
      let byteOffset ← optional asU32 record "byte_offset"
      let bitPos ← required asU8 record "bit_pos"
      return { bitIndex, byteOffset, bitPos }
  | _ => none

/-- `DeviceRaw` -/
structure DeviceRaw where
  symbol : String
  code : UInt32
  category : String
  base : Option String
  description : Option String
  guiName : Option String
  compatibleSeries : Option (List String)
  bitMapping : Option (List BitMapEntry)
  deriving DecidableEq

def DeviceRaw.ofRecord (record : DeviceRecord) : Option DeviceRaw := do
  let symbol ← required asString record "symbol"
  let code ← required asU32 record "code"
  let category ← required asString record "category"
  let base ← optional asString record "base"
  let description ← optional asString record "description"
  let guiName ← optional asString record "gui_name"
  let compatibleSeries ← optional (asVec asString) record "compatible_series"
  let bitMapping ← optional (asVec BitMapEntry.ofItem) record "bit_mapping"
  return { symbol, code, category, base, description, guiName, compatibleSeries, bitMapping }

namespace DeviceRegistry

/-- One device of `validate_str`, after those with the symbols in `syms`. -/
def validateDevice (syms : List String) (d : DeviceRaw) : Except Failure Unit := do
  if Text.trim d.symbol.toList = [] then
    protocolError "device symbol empty"
  if d.symbol ∈ syms then
    protocolError s!"duplicate device symbol: {d.symbol}"
  if 0xFFFF < d.code.toNat then
    protocolError s!"device code out of range: {d.code}"
  if d.category ∉ ["Bit", "Word", "DoubleWord"] then
    protocolError s!"invalid device category: {d.category}"
  d.guiName.toList.forM fun g => do
    if Text.trim g.toList = [] then
      protocolError s!"device {d.symbol}: gui_name is empty"
  (d.compatibleSeries.getD []).forM fun s => do
    if s ∉ ["Q", "R"] then
      protocolError s!"device {d.symbol}: invalid compatible_series entry: {s}"
  (d.bitMapping.getD []).forM fun e => do
    if 8 ≤ e.bitPos then
      protocolError s!"device {d.symbol}: bit_mapping bit_pos out of range: {e.bitPos}"

/-- The devices of `validate_str`, after those with the symbols in `syms`. -/
def validateDevices : List String → List DeviceRaw → Except Failure Unit
  | _, [] => .ok ()
  | syms, d :: ds => do
      validateDevice syms d
      validateDevices (d.symbol :: syms) ds

/-- `DeviceRegistry::validate_str`, from the tables of the file. -/
def validateStr (records : List DeviceRecord) : Except Failure Unit :=
  match records.mapM DeviceRaw.ofRecord with
  | none => protocolError "device.toml parse error"
  | some raws => validateDevices [] raws

end DeviceRegistry

end MelsecMc
