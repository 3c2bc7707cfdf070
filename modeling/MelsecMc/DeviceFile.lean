/-
The device file.

`devices.toml` is read twice.  `parse_devices_toml` turns it, or a file next to the
executable, into the list of devices, and of a symbol it keeps nothing but uses it in error
texts.  `CODE_BY_NAME` is made of the embedded file alone, and `NAME_BY_CODE`, its inverse,
is where a device gets its symbol back from.  A hash map iterates in an order of its own;
the order in which `NAME_BY_CODE` was filled is a parameter here.
-/
import MelsecMc.BuildRequest
import MelsecMc.Device

namespace MelsecMc

/-- `RawDevice`: the keys of a record that decide something. -/
structure RawDevice where
  symbol : String
  code : UInt32
  category : String
  base : String
  series : List String
  deriving DecidableEq, Repr

/-- `CODE_BY_NAME`: its entries, each symbol at most once, a later record in place of an
earlier one.  A code that is no `u8` is skipped. -/
def codeByName (raws : List RawDevice) : List (String × UInt8) :=
  raws.foldl (fun m d =>
    if d.code.toNat < 256 then
      (d.symbol, UInt8.ofNat d.code.toNat) :: m.filter (·.1 ≠ d.symbol)
    else m) []

/-- `NAME_BY_CODE`, filled from the entries of `CODE_BY_NAME` in the order they come. -/
def nameByCode (entries : List (String × UInt8)) (code : UInt8) : Option String :=
  (entries.reverse.find? fun e => e.2 = code).map Prod.fst

/-- `DeviceCode::as_str` -/
def deviceCodeAsStr (entries : List (String × UInt8)) (code : UInt8) : String :=
  (nameByCode entries code).getD "UNKNOWN"

/-- `DeviceCode::try_from` -/
def deviceCodeTryFrom (entries : List (String × UInt8)) (v : UInt8) : Except Failure UInt8 :=
  if (nameByCode entries v).isSome then .ok v
  else protocolError s!"unknown device code: 0x{hex2 v}"

def parseCategory (d : RawDevice) : Except Failure DeviceType :=
  if d.category = "Bit" then .ok .bit
  else if d.category = "Word" then .ok .word
  else if d.category = "DoubleWord" then .ok .doubleWord
  else protocolError s!"invalid category for {d.symbol}: {d.category}"

def parseBase (d : RawDevice) : Except Failure NumberBase :=
  if d.base = "Decimal" then .ok .decimal
  else if d.base = "Hexadecimal" then .ok .hexadecimal
  else protocolError s!"invalid base for {d.symbol}: {d.base}"

def parseSeries (d : RawDevice) : Except Failure (List PlcSeries) :=
  d.series.mapM fun s =>
    if s = "Q" then .ok .q
    else if s = "R" then .ok .r
    else protocolError s!"invalid series for {d.symbol}: {s}"

/-- `u8::try_from(d.code)` -/
def parseCode (d : RawDevice) : Except Failure UInt8 :=
  if d.code.toNat < 256 then .ok (UInt8.ofNat d.code.toNat)
  else protocolError s!"device code out of range for {d.symbol}: {d.code}"

/-- One turn of the loop of `parse_devices_toml`. -/
def parseDevice (entries : List (String × UInt8)) (d : RawDevice) : Except Failure Device := do
  let category ← parseCategory d
  let base ← parseBase d
  let _supportedSeries ← parseSeries d
  let deviceCode ← deviceCodeTryFrom entries (← parseCode d)
  return { category, base, deviceCode }

/-- `parse_devices_toml`, from the records of the file. -/
def parseDevicesToml (entries : List (String × UInt8)) (raws : List RawDevice) :
    Except Failure (List Device) :=
  raws.mapM (parseDevice entries)

/-- The devices the process runs with, and the names it gives their codes. -/
def deviceTable (entries : List (String × UInt8)) (devices : List Device) : DeviceTable where
  devices
  nameByCode := deviceCodeAsStr entries

/-- `devices.toml` -/
def shippedDevices : List RawDevice :=
  [⟨"SM", 0x91, "Bit", "Decimal", ["Q", "R"]⟩,
    ⟨"SD", 0xA9, "Word", "Decimal", ["Q", "R"]⟩,
    ⟨"X", 0x9C, "Bit", "Hexadecimal", ["Q", "R"]⟩,
    ⟨"Y", 0x9D, "Bit", "Hexadecimal", ["Q", "R"]⟩,
    ⟨"M", 0x90, "Bit", "Decimal", ["Q", "R"]⟩,
    ⟨"L", 0x92, "Bit", "Decimal", ["Q", "R"]⟩,
    ⟨"F", 0x93, "Bit", "Decimal", ["Q", "R"]⟩,
    ⟨"V", 0x94, "Bit", "Decimal", ["Q", "R"]⟩,
    ⟨"B", 0xA0, "Bit", "Hexadecimal", ["Q", "R"]⟩,
    ⟨"D", 0xA8, "Word", "Decimal", ["Q", "R"]⟩,
    ⟨"W", 0xB4, "Word", "Hexadecimal", ["Q", "R"]⟩,
    ⟨"TS", 0xC1, "Bit", "Decimal", ["Q", "R"]⟩,
    ⟨"TC", 0xC0, "Bit", "Decimal", ["Q", "R"]⟩,
    ⟨"TN", 0xC2, "Word", "Decimal", ["Q", "R"]⟩,
    ⟨"LTS", 0x51, "Bit", "Decimal", ["R"]⟩,
    ⟨"LTC", 0x50, "Bit", "Decimal", ["R"]⟩,
    ⟨"LTN", 0x52, "DoubleWord", "Decimal", ["R"]⟩,
    ⟨"STS", 0xC7, "Bit", "Decimal", ["Q", "R"]⟩,
    ⟨"STC", 0xC6, "Bit", "Decimal", ["Q", "R"]⟩,
    ⟨"STN", 0xC8, "Word", "Decimal", ["Q", "R"]⟩,
    ⟨"LSTS", 0x59, "Bit", "Decimal", ["R"]⟩,
    ⟨"LSTC", 0x58, "Bit", "Decimal", ["R"]⟩,
    ⟨"LSTN", 0x52, "Word", "Decimal", ["R"]⟩,
    ⟨"CS", 0xC3, "Bit", "Decimal", ["Q", "R"]⟩,
    ⟨"CC", 0xC4, "Bit", "Decimal", ["Q", "R"]⟩,
    ⟨"CN", 0xC5, "Word", "Decimal", ["Q", "R"]⟩,
    ⟨"LCS", 0x55, "Bit", "Decimal", ["R"]⟩,
    ⟨"LCC", 0x54, "Bit", "Decimal", ["R"]⟩,
    ⟨"LCN", 0x56, "DoubleWord", "Decimal", ["R"]⟩,
    ⟨"SB", 0xA1, "Bit", "Hexadecimal", ["Q", "R"]⟩,
    ⟨"SW", 0xB5, "Word", "Hexadecimal", ["Q", "R"]⟩,
    ⟨"S", 0x98, "Bit", "Decimal", ["Q", "R"]⟩,
    ⟨"DX", 0xA2, "Bit", "Hexadecimal", ["Q", "R"]⟩,
    ⟨"DY", 0xA3, "Bit", "Hexadecimal", ["Q", "R"]⟩,
    ⟨"Z", 0xCC, "Bit", "Decimal", ["Q", "R"]⟩,
    ⟨"LZ", 0x62, "Bit", "Decimal", ["R"]⟩,
    ⟨"R", 0xAF, "Word", "Decimal", ["Q", "R"]⟩,
    ⟨"ZR", 0xB0, "Word", "Decimal", ["Q", "R"]⟩,
    ⟨"RD", 0x2C, "Word", "Decimal", ["R"]⟩]

end MelsecMc
