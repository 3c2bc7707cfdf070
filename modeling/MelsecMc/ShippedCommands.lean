/-
The command file the crate ships.

These are the records of the embedded `commands.toml`, in its order.  The two block
templates stand after `write_blocks` and belong to it.
-/
import MelsecMc.CommandSpec

namespace MelsecMc

/-- `{Q=q,R=r}` -/
def seriesTable (q r : Int64) : Option TomlValue :=
  some (.table [("Q", .integer q), ("R", .integer r)])

/-- Fields every batch command starts with. -/
def batchHeader : List String :=
  ["command:2be", "subcommand:2be", "start_addr:3le", "device_code:1", "count:2le"]

/-- Fields of the commands that take lists of blocks. -/
def blockHeader : List String :=
  ["command:2be", "subcommand:2be", "word_block_count:1", "bit_block_count:1"]

def wordLimits : Option TomlValue :=
  some (.table [("word_points", .integer 960), ("dword_points", .integer 480),
    ("bit_points", .integer 15360)])

def bitLimits : Option TomlValue :=
  some (.table [("bit_points", .integer 7168)])

def rawReadWords : CommandSpecRaw where
  id := .readWords
  name := some ⟨"ワード単位の一括読出し", "ReadWords"⟩
  commandCode := 0x0401
  subcommand := seriesTable 0x0000 0x0002
  deviceFamily := some "Any"
  limits := wordLimits
  requestFormat := batchHeader
  responseFormat := ["data_blocks:blocks_words_le"]
  blockTemplates := none

def rawReadBits : CommandSpecRaw where
  id := .readBits
  name := some ⟨"ビット単位の一括読出し", "ReadBits"⟩
  commandCode := 0x0401
  subcommand := seriesTable 0x0001 0x0003
  deviceFamily := some "Bit"
  limits := bitLimits
  requestFormat := batchHeader
  responseFormat := ["data_blocks:blocks_nibbles:high"]
  blockTemplates := none

def rawWriteWords : CommandSpecRaw where
  id := .writeWords
  name := some ⟨"ワード単位の一括書込み", "WriteWords"⟩
  commandCode := 0x1401
  subcommand := seriesTable 0x0000 0x0002
  deviceFamily := some "Any"
  limits := wordLimits
  requestFormat := batchHeader ++ ["data:words_le"]
  responseFormat := []
  blockTemplates := none

def rawWriteBits : CommandSpecRaw where
  id := .writeBits
  name := some ⟨"ビット単位の一括書込み", "WriteBits"⟩
  commandCode := 0x1401
  subcommand := seriesTable 0x0001 0x0003
  deviceFamily := some "Bit"
  limits := bitLimits
  requestFormat := batchHeader ++ ["payload:bytes"]
  responseFormat := []
  blockTemplates := none

def rawReadRandomWords : CommandSpecRaw where
  id := .readRandomWords
  name := some ⟨"ワード単位のランダム読出し", "ReadRandomWords"⟩
  commandCode := 0x0403
  subcommand := seriesTable 0x0000 0x0002
  deviceFamily := some "Word"
  limits := none
  requestFormat := blockHeader
  responseFormat := ["word_blocks:blocks_words_le", "bit_blocks:blocks_bits_packed"]
  blockTemplates := none

def rawWriteRandomWords : CommandSpecRaw where
  id := .writeRandomWords
  name := some ⟨"ワード単位のランダム書込み", "WriteRandomWords"⟩
  commandCode := 0x1403
  subcommand := seriesTable 0x0000 0x0002
  deviceFamily := some "Word"
  limits := none
  requestFormat := blockHeader
  responseFormat := []
  blockTemplates := none

def rawWriteRandomBits : CommandSpecRaw where
  id := .writeRandomBits
  name := some ⟨"ビット単位のランダム書込み", "WriteRandomBits"⟩
  commandCode := 0x1403
  subcommand := seriesTable 0x0001 0x0003
  deviceFamily := some "Bit"
  limits := none
  requestFormat := blockHeader
  responseFormat := []
  blockTemplates := none

def rawReadBlocks : CommandSpecRaw where
  id := .readBlocks
  name := some ⟨"複数ブロック一括読出し", "ReadMultipleBlocks"⟩
  commandCode := 0x0406
  subcommand := seriesTable 0x0000 0x0002
  deviceFamily := none
  limits := none
  requestFormat := blockHeader
  responseFormat := ["word_blocks:blocks_words_le", "bit_blocks:blocks_bits_packed"]
  blockTemplates := none

def rawWriteBlocks : CommandSpecRaw where
  id := .writeBlocks
  name := some ⟨"複数ブロック一括書込み", "WriteMultipleBlocks"⟩
  commandCode := 0x1406
  subcommand := seriesTable 0x0000 0x0002
  deviceFamily := none
  limits := none
  requestFormat := []
  responseFormat := []
  blockTemplates := some [
    { name := "word_block"
      repeatField := "word_block_count"
      fields := ["start_addr:3le", "device_code:1", "count:2le"]
      deviceFamily := some "Word" },
    { name := "bit_block"
      repeatField := "bit_block_count"
      fields := ["start_addr:3le", "device_code:1", "count:2le"]
      deviceFamily := some "Bit" }]

def rawEcho : CommandSpecRaw where
  id := .echo
  name := some ⟨"折り返しテスト(Echo)", "Echo Test"⟩
  commandCode := 0x0619
  subcommand := none
  deviceFamily := some "Any"
  limits := none
  requestFormat := ["command:2be", "subcommand:2be", "payload:ascii_hex"]
  responseFormat := ["payload:ascii_hex"]
  blockTemplates := none

/-- `commands.toml` -/
def shippedCommands : List CommandSpecRaw :=
  [rawReadWords, rawReadBits, rawWriteWords, rawWriteBits, rawReadRandomWords, rawWriteRandomWords,
    rawWriteRandomBits, rawReadBlocks, rawWriteBlocks, rawEcho]

/-! ### What the loader makes of it -/

/-- The parsed `batchHeader`. -/
def batchFields : List FieldSpec :=
  [⟨"command", .fixedBytes 2 false⟩, ⟨"subcommand", .fixedBytes 2 false⟩,
    ⟨"start_addr", .fixedBytes 3 true⟩, ⟨"device_code", .fixedBytes 1 true⟩,
    ⟨"count", .fixedBytes 2 true⟩]

/-- The spec of a batch command with these further fields. -/
def batchSpec (id : Command) (name : Option NameField) (commandCode q r : UInt16)
    (family : DeviceFamily) (more : List FieldSpec) (responseFormat : List String)
    (responseEntries : List ResponseEntry) (limits : Limits) : CommandSpec where
  id
  name
  commandCode
  subcommand := some (.perSeries [("Q", q), ("R", r)])
  deviceFamily := family
  requestFields := batchFields ++ more
  responseFormat
  responseEntries
  blockTemplates := []
  limits := some limits

def readWordsSpec : CommandSpec :=
  batchSpec .readWords rawReadWords.name 0x0401 0x0000 0x0002 .any []
    ["data_blocks:blocks_words_le"] [.blockWords "data_blocks" true]
    ⟨some 960, some 480, some 15360⟩

def readBitsSpec : CommandSpec :=
  batchSpec .readBits rawReadBits.name 0x0401 0x0001 0x0003 .bit []
    ["data_blocks:blocks_nibbles:high"] [.blockNibbles "data_blocks" true]
    ⟨none, none, some 7168⟩

def writeWordsSpec : CommandSpec :=
  batchSpec .writeWords rawWriteWords.name 0x1401 0x0000 0x0002 .any [⟨"data", .words true⟩] [] []
    ⟨some 960, some 480, some 15360⟩

def writeBitsSpec : CommandSpec :=
  batchSpec .writeBits rawWriteBits.name 0x1401 0x0001 0x0003 .bit [⟨"payload", .bytes⟩] [] []
    ⟨none, none, some 7168⟩

/-- The parsed `blockHeader`. -/
def blockFields : List FieldSpec :=
  [⟨"command", .fixedBytes 2 false⟩, ⟨"subcommand", .fixedBytes 2 false⟩,
    ⟨"word_block_count", .fixedBytes 1 true⟩, ⟨"bit_block_count", .fixedBytes 1 true⟩]

def readBlocksSpec : CommandSpec where
  id := .readBlocks
  name := rawReadBlocks.name
  commandCode := 0x0406
  subcommand := some (.perSeries [("Q", 0x0000), ("R", 0x0002)])
  deviceFamily := .any
  requestFields := blockFields
  responseFormat := ["word_blocks:blocks_words_le", "bit_blocks:blocks_bits_packed"]
  responseEntries := [.blockWords "word_blocks" true, .blockBitsPacked "bit_blocks" true]
  blockTemplates := []
  limits := none

/-- The fields of a block of either kind. -/
def blockEntryFields : List FieldSpec :=
  [⟨"start_addr", .fixedBytes 3 true⟩, ⟨"device_code", .fixedBytes 1 true⟩,
    ⟨"count", .fixedBytes 2 true⟩]

def writeBlocksSpec : CommandSpec where
  id := .writeBlocks
  name := rawWriteBlocks.name
  commandCode := 0x1406
  subcommand := some (.perSeries [("Q", 0x0000), ("R", 0x0002)])
  deviceFamily := .any
  requestFields := []
  responseFormat := []
  responseEntries := []
  blockTemplates := [⟨"word_block", "word_block_count", blockEntryFields, some .word⟩,
    ⟨"bit_block", "bit_block_count", blockEntryFields, some .bit⟩]
  limits := none

/-- The registry `load_and_set_global_from_src` installs. -/
def shippedRegistry : CommandRegistry :=
  match CommandRegistry.parseCommandFile shippedCommands with
  | .ok reg => reg
  | .error _ => ⟨[]⟩

/-- The file loads. -/
theorem parseCommandFile_shipped :
    CommandRegistry.parseCommandFile shippedCommands = .ok shippedRegistry := by
  have hloads : (CommandRegistry.parseCommandFile shippedCommands).isOk = true := by
    decide +kernel
  unfold shippedRegistry
  cases hparse : CommandRegistry.parseCommandFile shippedCommands with
  | ok reg => rfl
  | error e =>
      rw [hparse] at hloads
      cases hloads

/-- What some of its commands become. -/
theorem get_shipped :
    shippedRegistry.get .readWords = some readWordsSpec ∧
    shippedRegistry.get .readBits = some readBitsSpec ∧
    shippedRegistry.get .writeWords = some writeWordsSpec ∧
    shippedRegistry.get .writeBits = some writeBitsSpec ∧
    shippedRegistry.get .readBlocks = some readBlocksSpec ∧
    shippedRegistry.get .writeBlocks = some writeBlocksSpec := by
  decide +kernel

theorem get_readWords : shippedRegistry.get .readWords = some readWordsSpec := get_shipped.1

theorem get_readBits : shippedRegistry.get .readBits = some readBitsSpec := get_shipped.2.1

theorem get_writeWords : shippedRegistry.get .writeWords = some writeWordsSpec :=
  get_shipped.2.2.1

theorem get_writeBits : shippedRegistry.get .writeBits = some writeBitsSpec :=
  get_shipped.2.2.2.1

theorem get_readBlocks : shippedRegistry.get .readBlocks = some readBlocksSpec :=
  get_shipped.2.2.2.2.1

theorem parseCommand_readBlocks : parseCommand rawReadBlocks = .ok readBlocksSpec := by
  decide +kernel

end MelsecMc
