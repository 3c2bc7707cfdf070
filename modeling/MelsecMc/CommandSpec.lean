/-
Command definitions.

A command file lists commands as text: each field of a request is a string such as
`count:2le`, each entry of a response one such as `data_blocks:blocks_words_le`.
`parse_command_file` turns the records of such a file into the specs everything else
works with.  The records are what the TOML library makes of the file.
-/
import MelsecMc.Bytes
import MelsecMc.Text

namespace MelsecMc

/-- `Command` -/
inductive Command
  | readWords
  | writeWords
  | readBits
  | writeBits
  | echo
  | readRandomWords
  | writeRandomWords
  | writeRandomBits
  | readBlocks
  | writeBlocks
  deriving DecidableEq, Repr

/-- `Command::as_str` -/
def Command.asStr : Command → String
  | readWords => "read_words"
  | writeWords => "write_words"
  | readBits => "read_bits"
  | writeBits => "write_bits"
  | echo => "echo"
  | readRandomWords => "read_random_words"
  | writeRandomWords => "write_random_words"
  | writeRandomBits => "write_random_bits"
  | readBlocks => "read_blocks"
  | writeBlocks => "write_blocks"

/-- `toml::Value`, with one constructor for the kinds the loader does not tell apart. -/
inductive TomlValue
  | integer (i : Int64)
  | table (entries : List (String × TomlValue))
  | other

/-- `NameField` -/
structure NameField where
  jp : Option String
  en : Option String
  deriving DecidableEq, Repr

/-- `BlockTemplateRaw` -/
structure BlockTemplateRaw where
  name : String
  repeatField : String
  fields : List String
  deviceFamily : Option String

/-- `CommandSpecRaw`: the keys the loader reads. -/
structure CommandSpecRaw where
  id : Command
  name : Option NameField
  commandCode : UInt16
  subcommand : Option TomlValue
  deviceFamily : Option String
  limits : Option TomlValue
  requestFormat : List String
  responseFormat : List String
  blockTemplates : Option (List BlockTemplateRaw)

/-- `FieldKind` -/
inductive FieldKind
  | fixedBytes (n : Nat) (le : Bool)
  | words (le : Bool)
  | bytes
  | asciiHex
  deriving DecidableEq, Repr

/-- `FieldSpec` -/
structure FieldSpec where
  name : String
  kind : FieldKind
  deriving DecidableEq, Repr

inductive DeviceFamily
  | any
  | bit
  | word
  | doubleWord
  deriving DecidableEq, Repr

/-- `BlockTemplate` -/
structure BlockTemplate where
  name : String
  repeatField : String
  fields : List FieldSpec
  deviceFamily : Option DeviceFamily
  deriving DecidableEq, Repr

/-- `Limits` -/
structure Limits where
  wordPoints : Option UInt64
  dwordPoints : Option UInt64
  bitPoints : Option UInt64
  deriving DecidableEq, Repr

/-- `SubcommandSpec`; the entries of the map in the order it iterates over them. -/
inductive SubcommandSpec
  | single (v : UInt16)
  | perSeries (map : List (String × UInt16))
  deriving DecidableEq, Repr

/-- `ResponseEntry` -/
inductive ResponseEntry
  | blockWords (name : String) (le : Bool)
  | blockBitsPacked (name : String) (lsbFirst : Bool)
  | blockNibbles (name : String) (highFirst : Bool)
  | asciiHex (name : String)
  deriving DecidableEq, Repr

/-- `CommandSpec` -/
structure CommandSpec where
  id : Command
  name : Option NameField
  commandCode : UInt16
  subcommand : Option SubcommandSpec
  deviceFamily : DeviceFamily
  requestFields : List FieldSpec
  responseFormat : List String
  responseEntries : List ResponseEntry
  blockTemplates : List BlockTemplate
  limits : Option Limits
  deriving DecidableEq, Repr

/-- `parse_field_spec` -/
def parseFieldSpec (s : String) : Except Failure FieldSpec :=
  match Text.splitOnce ':' s.toList with
  | none => protocolError s!"invalid field spec: {s}"
  | some (name, typ) =>
      let name := String.ofList name
      if typ = "rest".toList ∨ typ = "..".toList then .ok ⟨name, .bytes⟩
      else if typ = "bytes".toList then .ok ⟨name, .bytes⟩
      else if "words".toList.isPrefixOf typ then .ok ⟨name, .words ("le".toList.isSuffixOf typ)⟩
      else if "le".toList.isSuffixOf typ ∨ "be".toList.isSuffixOf typ then
        let nstr := Text.trimEndPair 'b' 'e' (Text.trimEndPair 'l' 'e' typ)
        match Text.parseUnsigned 10 usizeBound nstr with
        | some n => .ok ⟨name, .fixedBytes n ("le".toList.isSuffixOf typ)⟩
        | none => protocolError s!"invalid byte width: {String.ofList typ}"
      else if typ = "ascii_hex".toList then .ok ⟨name, .asciiHex⟩
      else
        match Text.parseUnsigned 10 usizeBound typ with
        | some n => .ok ⟨name, .fixedBytes n true⟩
        | none => protocolError s!"unsupported field type: {String.ofList typ}"

/-- One step of `parse_response_formats`. -/
def parseResponseFormat (rf : String) : Except Failure ResponseEntry :=
  match (rf.toList.splitOn ':').map String.ofList with
  | name :: kind :: params =>
      if kind = "blocks_words_le" then .ok (.blockWords name true)
      else if kind = "blocks_words_be" then .ok (.blockWords name false)
      else if kind = "blocks_bits_packed" then .ok (.blockBitsPacked name (params.head? ≠ some "msb"))
      else if kind = "blocks_nibbles" then .ok (.blockNibbles name (params.head? ≠ some "low"))
      else if kind = "ascii_hex" then .ok (.asciiHex name)
      else protocolError s!"unsupported response kind: {kind}"
  | _ => protocolError s!"invalid response_format: {rf}"

/-- `parse_response_formats` -/
def parseResponseFormats (formats : List String) : Except Failure (List ResponseEntry) :=
  formats.mapM parseResponseFormat

/-- The family a block template names, if it names one. -/
def blockDeviceFamily : Option String → Option DeviceFamily
  | none => none
  | some s =>
      if s = "Bit" ∨ s = "bit" then some .bit
      else if s = "Word" ∨ s = "word" then some .word
      else if s = "DoubleWord" ∨ s = "doubleword" then some .doubleWord
      else some .any

/-- The family of a command: any, unless it names another one. -/
def commandDeviceFamily (s : Option String) : DeviceFamily :=
  (blockDeviceFamily s).getD .any

/-- `parse_block_templates` -/
def parseBlockTemplates (raws : Option (List BlockTemplateRaw)) :
    Except Failure (List BlockTemplate) :=
  (raws.getD []).mapM fun raw => do
    let fields ← raw.fields.mapM parseFieldSpec
    return {
      name := raw.name
      repeatField := raw.repeatField
      fields
      deviceFamily := blockDeviceFamily raw.deviceFamily }

/-- `u16::try_from` of an `i64`. -/
def u16OfI64 (i : Int64) : Option UInt16 :=
  if 0 ≤ i.toInt ∧ i.toInt < 65536 then some (UInt16.ofNat i.toInt.toNat) else none

/-- The integer entries of a subcommand table. -/
def subcommandTable : List (String × TomlValue) → Except Failure (List (String × UInt16))
  | [] => .ok []
  | (k, .integer i) :: entries =>
      match u16OfI64 i with
      | some v => do
          let map ← subcommandTable entries
          return (k, v) :: map
      | none => protocolError s!"subcommand table value out of range: {i}"
  | _ :: entries => subcommandTable entries

/-- A subcommand is one number, or one for each series. -/
def parseSubcommand : Option TomlValue → Except Failure (Option SubcommandSpec)
  | some (.integer i) =>
      match u16OfI64 i with
      | some v => .ok (some (.single v))
      | none => protocolError s!"subcommand integer out of range: {i}"
  | some (.table entries) => do
      let map ← subcommandTable entries
      return some (.perSeries map)
  | some .other => protocolError "invalid subcommand field type"
  | none => .ok none

/-- One limit of a limits table: absent unless it is an integer that is not negative. -/
def limitOf (entries : List (String × TomlValue)) (key : String) : Option UInt64 :=
  match entries.lookup key with
  | some (.integer i) => if 0 ≤ i.toInt then some (UInt64.ofNat i.toInt.toNat) else none
  | _ => none

def parseLimits : Option TomlValue → Option Limits
  | some (.table entries) =>
      some {
        wordPoints := limitOf entries "word_points"
        dwordPoints := limitOf entries "dword_points"
        bitPoints := limitOf entries "bit_points" }
  | _ => none

/-- The spec `parse_command_file` builds from one record. -/
def parseCommand (raw : CommandSpecRaw) : Except Failure CommandSpec := do
  let requestFields ← raw.requestFormat.mapM parseFieldSpec
  let blockTemplates ← parseBlockTemplates raw.blockTemplates
  let responseEntries ← parseResponseFormats raw.responseFormat
  let subcommand ← parseSubcommand raw.subcommand
  return {
    id := raw.id
    name := raw.name
    commandCode := raw.commandCode
    subcommand
    deviceFamily := commandDeviceFamily raw.deviceFamily
    requestFields
    responseFormat := raw.responseFormat
    responseEntries
    blockTemplates
    limits := parseLimits raw.limits }

/-- `CommandRegistry`: the specs by id, each id at most once. -/
structure CommandRegistry where
  byId : List (Command × CommandSpec)
  deriving DecidableEq, Repr

namespace CommandRegistry

/-- `CommandRegistry::get` -/
def get (reg : CommandRegistry) (id : Command) : Option CommandSpec :=
  reg.byId.lookup id

/-- `by_id.insert` -/
def insert (reg : CommandRegistry) (id : Command) (spec : CommandSpec) : CommandRegistry where
  byId := (id, spec) :: reg.byId.filter (·.1 ≠ id)

/-- `parse_command_file`, from the registry made of the records so far. -/
def parseCommands : CommandRegistry → List CommandSpecRaw → Except Failure CommandRegistry
  | reg, [] => .ok reg
  | reg, raw :: raws => do
      let spec ← parseCommand raw
      parseCommands (reg.insert raw.id spec) raws

/-- `parse_command_file` -/
def parseCommandFile (commands : List CommandSpecRaw) : Except Failure CommandRegistry :=
  parseCommands ⟨[]⟩ commands

end CommandRegistry

end MelsecMc
