/-
The registries of a process, over the whole of its life.

Three cells belong to the process and not to a client: the commands, the error codes and the
device overrides.  The first and the last can be set once, the error codes can be added to.
`new` and `init_defaults` load the tables the crate comes with, and an application can load files
of its own, before or after.  A file is the tables it holds; one that cannot be read is an error
before any of this starts.
-/
import MelsecMc.DeviceRegistry
import MelsecMc.Registration

namespace MelsecMc

/-! ### Device overrides -/

/-- `BitMapEntryOwned` -/
structure BitMapEntryOwned where
  bitIndex : UInt32
  byteOffset : Option UInt32
  bitPos : UInt8
  deriving DecidableEq

/-- `DeviceOverride` -/
structure DeviceOverride where
  symbol : String
  code : UInt32
  category : String
  base : Option String
  description : Option String
  guiName : Option String
  compatibleSeries : Option (List String)
  bitMapping : Option (List BitMapEntryOwned)
  deriving DecidableEq

/-- The override as the map holds it. -/
def DeviceRaw.owned (d : DeviceRaw) : DeviceOverride where
  symbol := d.symbol
  code := d.code
  category := d.category
  base := d.base
  description := d.description
  guiName := d.guiName
  compatibleSeries := d.compatibleSeries
  bitMapping := d.bitMapping.map fun entries =>
    entries.map fun e => ⟨e.bitIndex, e.byteOffset, e.bitPos⟩

/-- `DEVICE_OVERRIDES`: unset, or the registered overrides by symbol. -/
abbrev OverrideCell := Option (String → Option DeviceOverride)

namespace DeviceRegistry

/-- `from_str`, from the tables of the file.  Unlike `validate_str` it looks at no value. -/
def fromStr (records : List DeviceRecord) : Except Failure (List DeviceRaw) :=
  match records.mapM DeviceRaw.ofRecord with
  | none => protocolError "device.toml parse error"
  | some devices => .ok devices

/-- The map `register_overrides` makes: of two devices with one symbol it keeps the later. -/
def overrideMap (devices : List DeviceRaw) : String → Option DeviceOverride :=
  devices.foldl (fun map d => Function.update map d.symbol (some d.owned)) fun _ => none

/-- `register_overrides` -/
def registerOverrides (devices : List DeviceRaw) (cell : OverrideCell) :
    Except Failure Unit × OverrideCell :=
  let map := overrideMap devices
  match cell with
  | none => (.ok (), some map)
  | some existing => (protocolError "device overrides already registered", some existing)

/-- `get_override_by_symbol` -/
def getOverrideBySymbol (cell : OverrideCell) (sym : String) : Option DeviceOverride :=
  cell.bind fun map => map sym

end DeviceRegistry

/-! ### Calls -/

/-- The cells of the process. -/
structure Registries extends Globals where
  /-- `DEVICE_OVERRIDES` -/
  overrides : OverrideCell

/-- What fills the cells. -/
inductive RegistryCall
  /-- `CommandRegistry::from_str`, and `set_global` on the registry -/
  | setGlobal (file : List CommandSpecRaw)
  /-- `CommandRegistry::load_and_set_global_from_src` -/
  | loadAndSetGlobalFromSrc
  /-- `McClient::new` -/
  | newClient
  /-- `init_defaults` -/
  | initDefaults
  /-- `ErrorRegistry::from_str`, and `register_codes` -/
  | registerCodes (file : List RawErrorCode)
  /-- `ErrorRegistry::from_str`, and `register_or_merge` -/
  | registerOrMerge (file : List RawErrorCode)
  /-- `DeviceRegistry::from_str`, and `register_overrides` -/
  | registerOverrides (file : List DeviceRecord)

/-- What a call returns: `MelsecError::AlreadyRegistered` is an error of its own. -/
inductive CallResult
  | ok
  | failed (f : Failure)
  | alreadyRegistered
  deriving DecidableEq

namespace CallResult

def ofExcept : Except Failure Unit → CallResult
  | .ok () => ok
  | .error f => failed f

def ofRegister : Except RegisterError Unit → CallResult
  | .ok () => ok
  | .error .alreadyRegistered => alreadyRegistered

end CallResult

/-- The error of a table of codes that does not parse. -/
def errorCodesParseError : CallResult :=
  .failed (.err (.protocol "error_codes.toml parse error"))

/-- `init_defaults`, for what it returns. -/
def Globals.initDefaultsResult (g : Globals) : CallResult :=
  let loaded := g.loadAndSetGlobalFromSrc
  if Globals.goesOn loaded.1 then
    match ErrorRegistry.fromStr shippedErrorCodes with
    | none => errorCodesParseError
    | some _ => .ok
  else .ofExcept loaded.1

namespace Registries

/-- Nothing has been registered. -/
def empty : Registries := ⟨⟨none, none⟩, none⟩

/-- One call. -/
def call (g : Registries) : RegistryCall → CallResult × Registries
  | .setGlobal file =>
      let (result, globals) := g.toGlobals.setParsed (CommandRegistry.parseCommandFile file)
      (.ofExcept result, { g with toGlobals := globals })
  | .loadAndSetGlobalFromSrc =>
      let (result, globals) := g.toGlobals.loadAndSetGlobalFromSrc
      (.ofExcept result, { g with toGlobals := globals })
  | .newClient => (.ok, { g with toGlobals := g.toGlobals.newClient })
  | .initDefaults =>
      (g.toGlobals.initDefaultsResult, { g with toGlobals := g.toGlobals.initDefaults })
  | .registerCodes file =>
      match ErrorRegistry.fromStr file with
      | none => (errorCodesParseError, g)
      | some reg =>
          let (result, errors) := reg.registerCodes g.errors
          (.ofRegister result, { g with errors })
  | .registerOrMerge file =>
      match ErrorRegistry.fromStr file with
      | none => (errorCodesParseError, g)
      | some reg => (.ok, { g with errors := reg.registerOrMerge g.errors })
  | .registerOverrides file =>
      match DeviceRegistry.fromStr file with
      | .error f => (.failed f, g)
      | .ok devices =>
          let (result, overrides) := DeviceRegistry.registerOverrides devices g.overrides
          (.ofExcept result, { g with overrides })

/-- The cells after some calls. -/
def after (calls : List RegistryCall) : Registries :=
  calls.foldl (fun g c => (g.call c).2) empty

end Registries

end MelsecMc
