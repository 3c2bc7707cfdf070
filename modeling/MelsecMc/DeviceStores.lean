/-
Where a process has its devices from.

A `define/device.toml` next to the executable is preferred to the embedded file.  It is looked
for at every read of the device list, and the first one that parses is kept; as long as there is
none a read yields the embedded devices.  The two lookup maps are made from such a read, each at
its own first use, and never again.  So what a lookup answers depends on when the file was there,
and a call is given what it would find.
-/
import Mathlib.Logic.Function.Basic
import MelsecMc.DeviceRegistry

namespace MelsecMc

/-- `define/device.toml` as a call finds it: its tables, or nothing if it is not there or cannot
be read. -/
abbrev FoundFile := Option (List DeviceRecord)

/-- `DEVICE_BY_SYMBOL` and `DEVICE_BY_CODE` -/
inductive LookupMap
  | bySymbol
  | byCode
  deriving DecidableEq, Repr

/-- The cells; of a map, the devices it was made from. -/
structure DeviceStores where
  /-- `RUNTIME_DEVICES_STORE` -/
  runtime : Option (List Device)
  maps : LookupMap → Option (List Device)

/-- What asks for devices. -/
inductive DeviceCall
  | deviceBySymbol (sym : String)
  | deviceByCode (code : UInt8)
  /-- `get_q_devices` and `get_r_devices`, up to the filter -/
  | getRuntimeDevicesSlice
  deriving DecidableEq, Repr

inductive DeviceAnswer
  | device (d : Option Device)
  | devices (ds : List Device)
  deriving DecidableEq, Repr

namespace DeviceStores

variable (entries : List (String × UInt8))

/-- Nothing has been asked yet. -/
def start : DeviceStores := ⟨none, fun _ => none⟩

/-- `get_compiled_devices_slice` -/
def getCompiledDevicesSlice : List Device :=
  match parseDevicesToml entries shippedDevices with
  | .ok devices => devices
  | .error _ => []

/-- The devices of the file, if there is one and it parses. -/
def parsedFile (file : FoundFile) : Option (List Device) :=
  file.bind fun records => (parseDevicesFile entries records).toOption

/-- `get_runtime_devices_slice` -/
def getRuntimeDevicesSlice (s : DeviceStores) (file : FoundFile) : List Device × DeviceStores :=
  let s := match parsedFile entries file with
    | some devices => { s with runtime := s.runtime.or (some devices) }
    | none => s
  (s.runtime.getD (getCompiledDevicesSlice entries), s)

/-- A map, which its first use makes. -/
def force (s : DeviceStores) (file : FoundFile) (map : LookupMap) : List Device × DeviceStores :=
  match s.maps map with
  | some devices => (devices, s)
  | none =>
      let (devices, s) := getRuntimeDevicesSlice entries s file
      (devices, { s with maps := Function.update s.maps map (some devices) })

/-- One call, and the file it would find. -/
def call (s : DeviceStores) (file : FoundFile) : DeviceCall → DeviceAnswer × DeviceStores
  | .deviceBySymbol sym =>
      let (devices, s) := force entries s file .bySymbol
      (.device ((deviceTable entries devices).deviceBySymbol sym), s)
  | .deviceByCode code =>
      let (devices, s) := force entries s file .byCode
      (.device ((deviceTable entries devices).deviceByCode code), s)
  | .getRuntimeDevicesSlice =>
      let (devices, s) := getRuntimeDevicesSlice entries s file
      (.devices devices, s)

/-- Some calls, with their answers, and the cells afterwards. -/
def calls (s : DeviceStores) :
    List (FoundFile × DeviceCall) → List (DeviceCall × DeviceAnswer) × DeviceStores
  | [] => ([], s)
  | (file, c) :: rest =>
      let (answer, s') := call entries s file c
      let (answers, last) := calls s' rest
      ((c, answer) :: answers, last)

end DeviceStores

end MelsecMc
