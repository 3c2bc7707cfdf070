/-
Devices.

A device table is loaded once, from the embedded `devices.toml` or from a file next to
the executable, and never changes; it is a parameter of everything that looks a device
up.  The two lookup maps are built from it in order, so of two entries with the same key
the later one is found.
-/
import MelsecMc.Bytes
import MelsecMc.Text

namespace MelsecMc

inductive DeviceType
  | bit
  | word
  | doubleWord
  deriving DecidableEq, Repr

inductive NumberBase
  | decimal
  | hexadecimal
  deriving DecidableEq, Repr

/-- `Device`: the fields the crate looks at. -/
structure Device where
  category : DeviceType
  base : NumberBase
  deviceCode : UInt8
  deriving DecidableEq, Repr

namespace Device

/-- `device_code_q` -/
def deviceCodeQ (d : Device) : UInt8 := d.deviceCode

end Device

/-- The loaded devices, and the name `DeviceCode::as_str` gives each code. -/
structure DeviceTable where
  devices : List Device
  nameByCode : UInt8 → String

namespace DeviceTable

variable (T : DeviceTable)

/-- `symbol_str` -/
def symbolStr (d : Device) : String := T.nameByCode d.deviceCode

/-- `device_by_symbol` -/
def deviceBySymbol (sym : String) : Option Device :=
  T.devices.reverse.find? fun d => T.symbolStr d = sym

/-- `device_by_code` -/
def deviceByCode (code : UInt8) : Option Device :=
  T.devices.reverse.find? fun d => d.deviceCode = code

/-- `parse_device_and_address` -/
def parseDeviceAndAddress (s : String) : Except Failure (Device × UInt32) :=
  let s := Text.trim s.toList
  if s = [] then protocolError "empty device string"
  else
    let symbol := (Text.toUppercase s).takeWhile Text.isAsciiAlphabetic
    if symbol.length = 0 then protocolError s!"invalid device string: {String.ofList s}"
    else
      let numPart := Text.trim (s.drop symbol.length)
      if numPart = [] then
        protocolError s!"missing numeric address in device string: {String.ofList s}"
      else
        match T.deviceBySymbol (String.ofList symbol) with
        | none => protocolError s!"unknown device symbol: {String.ofList symbol}"
        | some device =>
            let radix := match device.base with
              | .decimal => 10
              | .hexadecimal => 16
            match Text.parseUnsigned radix (2 ^ 32) numPart with
            | none =>
                protocolError
                  s!"invalid numeric address '{String.ofList numPart}' for device {String.ofList symbol}"
            | some addr =>
                if 0x00FFFFFF < addr then
                  protocolError s!"address out of range (max 0xFFFFFF): {addr}"
                else
                  .ok (device, UInt32.ofNat addr)

/-- An address that parses fits in three bytes. -/
theorem parseDeviceAndAddress_le {s : String} {d : Device} {addr : UInt32}
    (h : T.parseDeviceAndAddress s = .ok (d, addr)) : addr.toNat ≤ 0xFFFFFF := by
  unfold parseDeviceAndAddress protocolError at h
  simp only at h
  split at h
  · cases h
  · split at h
    · cases h
    · split at h
      · cases h
      · split at h
        · cases h
        · split at h
          · cases h
          · split at h
            · cases h
            · rename_i hle
              simp only [Except.ok.injEq, Prod.mk.injEq] at h
              rw [← h.2, UInt32.toNat_ofNat', Nat.mod_eq_of_lt (by omega)]
              omega

end DeviceTable

end MelsecMc
