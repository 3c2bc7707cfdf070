/-
The commands that announce blocks.

Four commands of the shipped file write the number of word blocks and of bit blocks into
their request.  The block templates that would write the blocks stand in the file after
`write_blocks`, and a table in a TOML file belongs to the record above it: none of the four
has a template.  So their requests end behind the counts, and what they announce is there
only if they announce nothing (`announced_blocks_iff`).
-/
import MelsecMc.Proofs.BuildRequest
import MelsecMc.Proofs.WriteRequest
import MelsecMc.Spec.BlockRequest

namespace MelsecMc

/-- A command that is found is in the registry. -/
theorem CommandRegistry.mem_of_get {reg : CommandRegistry} {id : Command} {spec : CommandSpec}
    (h : reg.get id = some spec) : (id, spec) ∈ reg.byId := by
  obtain ⟨before, after, hsplit, -⟩ := List.lookup_eq_some_iff.mp h
  rw [hsplit]
  exact List.mem_append_right before List.mem_cons_self

namespace CommandSpec

variable {spec : CommandSpec} {params : JsonValue} {series : PlcSeries}

/-- The command writes the length of a block list. -/
def CountsBlocks (spec : CommandSpec) : Bool :=
  spec.requestFields.any fun f => f.name = "word_block_count" ∨ f.name = "bit_block_count"

/-- What the shipped commands that count blocks have in common. -/
structure IsBlockCommand (spec : CommandSpec) : Prop where
  fields : spec.requestFields = blockFields
  noTemplates : spec.blockTemplates = []

theorem isBlockCommand_of_mem :
    ∀ entry ∈ shippedRegistry.byId, entry.2.CountsBlocks = true →
      entry.2.requestFields = blockFields ∧ entry.2.blockTemplates = [] := by
  decide +kernel

/-- A shipped command that counts blocks has the four header fields and no templates. -/
theorem isBlockCommand_of_get {id : Command} (hget : shippedRegistry.get id = some spec)
    (hcounts : spec.CountsBlocks = true) : IsBlockCommand spec := by
  have hmem := CommandRegistry.mem_of_get hget
  obtain ⟨hfields, htemplates⟩ := isBlockCommand_of_mem (id, spec) hmem hcounts
  exact ⟨hfields, htemplates⟩

theorem blockCount_eq (params : JsonValue) (key : String) :
    blockCount params key = UInt64.ofNat (givenBlocks params key).length := by
  unfold blockCount givenBlocks
  cases (params.get key).bind JsonValue.asArray with
  | none => rfl
  | some arr => rfl

/-- What the four header fields become. -/
theorem foldlM_blockFields (spec : CommandSpec) (params : JsonValue) (plcSeries : Option PlcSeries) :
    blockFields.foldlM (spec.writeField params plcSeries) [] =
      .ok (LittleEndian.bytes 2 spec.commandCode.toNat ++
        (LittleEndian.bytes 2 ((spec.effectiveSubcommand plcSeries).getD 0).toNat ++
          (LittleEndian.bytes 1 (givenBlocks params "word_blocks").length ++
            (LittleEndian.bytes 1 (givenBlocks params "bit_blocks").length ++ [])))) := by
  have hwords : spec.getNumField "word_block_count" params plcSeries =
      .ok (UInt64.ofNat (givenBlocks params "word_blocks").length) := by
    rw [getNumField, if_neg (by decide), if_neg (by decide), if_pos rfl, blockCount_eq]
  have hbits : spec.getNumField "bit_block_count" params plcSeries =
      .ok (UInt64.ofNat (givenBlocks params "bit_blocks").length) := by
    rw [getNumField, if_neg (by decide), if_neg (by decide), if_neg (by decide), if_pos rfl,
      blockCount_eq]
  rw [blockFields, List.foldlM_cons, writeField_command, ok_bind, List.foldlM_cons,
    writeField_subcommand, ok_bind, List.foldlM_cons, writeField_ofNat hwords rfl (by decide),
    ok_bind, List.foldlM_cons, writeField_ofNat hbits rfl (by decide), ok_bind, List.foldlM_nil,
    pure_eq_ok]
  simp only [List.nil_append, List.append_nil, List.append_assoc]

/-- The request ends behind the counts. -/
theorem buildRequest_blockCommand {T : DeviceTable} (hspec : IsBlockCommand spec) {out : Bytes}
    (hout : spec.buildRequest T params (some series) = .ok out) :
    out = LittleEndian.bytes 2 spec.commandCode.toNat ++
      (LittleEndian.bytes 2 ((spec.effectiveSubcommand (some series)).getD 0).toNat ++
        (LittleEndian.bytes 1 (givenBlocks params "word_blocks").length ++
          (LittleEndian.bytes 1 (givenBlocks params "bit_blocks").length ++ []))) := by
  obtain ⟨fields, hfields, hblocks⟩ := buildRequest_eq_ok hout
  rw [hspec.fields, foldlM_blockFields, Except.ok.injEq] at hfields
  rw [hspec.noTemplates, List.foldlM_nil, pure_eq_ok, Except.ok.injEq] at hblocks
  rw [← hblocks, ← hfields]

end CommandSpec

/-- The header says how many entries there are, up to 256, and nothing follows. -/
theorem decodeBlockRequest_built {T : DeviceTable} {spec : CommandSpec} {params : JsonValue}
    {series : PlcSeries} {out : Bytes} (hspec : spec.IsBlockCommand)
    (hout : spec.buildRequest T params (some series) = .ok out) :
    decodeBlockRequest series out =
      if (givenBlocks params "word_blocks").length % 256 = 0 ∧
          (givenBlocks params "bit_blocks").length % 256 = 0 then
        some ⟨spec.commandCode.toNat % 256 ^ 2,
          ((spec.effectiveSubcommand (some series)).getD 0).toNat % 256 ^ 2, [], []⟩
      else none := by
  rw [CommandSpec.buildRequest_blockCommand hspec hout, decodeBlockRequest_header]

/-- **A shipped command that counts blocks carries the blocks it announces exactly when
there are none.** -/
theorem announced_blocks_iff {T : DeviceTable} {id : Command} {spec : CommandSpec}
    (hget : shippedRegistry.get id = some spec) (hcounts : spec.CountsBlocks = true)
    {params : JsonValue} {words bits : List BlockEntry}
    (hwords : (givenBlocks params "word_blocks").map entryOf = words.map some)
    (hbits : (givenBlocks params "bit_blocks").map entryOf = bits.map some)
    {series : PlcSeries} {out : Bytes}
    (hout : spec.buildRequest T params (some series) = .ok out) :
    AnnouncesItsBlocks series words bits out ↔ words = [] ∧ bits = [] := by
  have hdecode := decodeBlockRequest_built (CommandSpec.isBlockCommand_of_get hget hcounts) hout
  have hwordCount : (givenBlocks params "word_blocks").length = words.length := by
    rw [← List.length_map, hwords, List.length_map]
  have hbitCount : (givenBlocks params "bit_blocks").length = bits.length := by
    rw [← List.length_map, hbits, List.length_map]
  rw [hwordCount, hbitCount] at hdecode
  unfold AnnouncesItsBlocks
  rw [hdecode]
  constructor
  · rintro ⟨command, subcommand, hannounced⟩
    split at hannounced
    · rw [Option.some.injEq, BlockRequest.mk.injEq] at hannounced
      exact ⟨hannounced.2.2.1.symm, hannounced.2.2.2.symm⟩
    · exact absurd hannounced (by simp)
  · rintro ⟨rfl, rfl⟩
    exact ⟨_, _, if_pos ⟨rfl, rfl⟩⟩

/-- Read two words from `D100` on as a block. -/
def oneWordBlock : JsonValue :=
  .object [("word_blocks", .array [.object [("start_addr", .ofNat 100),
    ("device_code", .ofNat 0xA8), ("count", .ofNat 2)]])]

theorem buildRequest_oneWordBlock :
    readBlocksSpec.buildRequest twoDevices oneWordBlock (some .q) =
      .ok [0x06, 0x04, 0x00, 0x00, 0x01, 0x00] := by
  decide +kernel

theorem announced_blocks_iff_oneWordBlock :
    AnnouncesItsBlocks .q [⟨100, 0xA8, 2⟩] [] [0x06, 0x04, 0x00, 0x00, 0x01, 0x00] ↔
      [(⟨100, 0xA8, 2⟩ : BlockEntry)] = [] ∧ ([] : List BlockEntry) = [] :=
  announced_blocks_iff get_readBlocks rfl rfl rfl buildRequest_oneWordBlock

/-- There is a device with the code of the entry, of one of these categories. -/
def SuitableDevice (T : DeviceTable) (categories : List DeviceType) (entry : BlockEntry) : Prop :=
  ∃ dev, T.deviceByCode (UInt8.ofNat entry.deviceCode) = some dev ∧ dev.category ∈ categories

/-- The request announces a word block and ends there. -/
theorem announced_blocks_fails :
    readBlocksSpec.buildRequest twoDevices oneWordBlock (some .q) =
        .ok [0x06, 0x04, 0x00, 0x00, 0x01, 0x00] ∧
      ¬ ∀ (T : DeviceTable) (id : Command) (spec : CommandSpec) (params : JsonValue)
          (words bits : List BlockEntry) (series : PlcSeries) (out : Bytes),
        shippedRegistry.get id = some spec → spec.CountsBlocks = true →
        (givenBlocks params "word_blocks").map entryOf = words.map some →
        (givenBlocks params "bit_blocks").map entryOf = bits.map some →
        (∀ entry ∈ words, SuitableDevice T [.word, .doubleWord] entry) →
        (∀ entry ∈ bits, SuitableDevice T [.bit] entry) →
        spec.buildRequest T params (some series) = .ok out →
        AnnouncesItsBlocks series words bits out := by
  refine ⟨buildRequest_oneWordBlock, fun h => ?_⟩
  have hword : ∀ entry ∈ [(⟨100, 0xA8, 2⟩ : BlockEntry)],
      SuitableDevice twoDevices [.word, .doubleWord] entry := by
    intro entry hentry
    rw [List.mem_singleton.mp hentry]
    exact ⟨⟨.word, .decimal, 0xA8⟩, rfl, List.mem_cons_self⟩
  obtain ⟨command, subcommand, hannounced⟩ := h twoDevices .readBlocks readBlocksSpec oneWordBlock
    [⟨100, 0xA8, 2⟩] [] .q _ get_readBlocks rfl rfl rfl hword (by simp) buildRequest_oneWordBlock
  have hnone : decodeBlockRequest .q [0x06, 0x04, 0x00, 0x00, 0x01, 0x00] = none := by decide
  rw [hnone] at hannounced
  exact absurd hannounced (by simp)

end MelsecMc
