/-
The four helpers and the device string.

Each helper looks at the string twice, once for the address and once for the code, and puts its
own entries behind.  None of those is an address, a code or a block list, so the params of any
two helpers agree on these (`get_deviceEntry`).

Where the string names no device there is no code, and a command that writes one is refused.
The commands that lost their block templates write none, only the numbers of blocks, and their
requests are built: without a device, just the commands that take one are safe
(`device_params_agree`).
-/
import MelsecMc.Proofs.BlockRequest
import MelsecMc.Proofs.Slots

namespace MelsecMc

/-- The params one of the four helpers makes for the device string. -/
inductive BatchParams (T : DeviceTable) (device : String) : JsonValue → Prop
  | readWords (count : UInt16) : BatchParams T device (createReadWordsParams T device count)
  | readBits (count : UInt16) : BatchParams T device (createReadBitsParams T device count)
  | writeWords (values : List UInt16) :
      BatchParams T device (createWriteWordsParams T device values)
  | writeBits (values : List Bool) : BatchParams T device (createWriteBitsParams T device values)

/-- The command writes a device code, in its request or in its blocks. -/
def CommandSpec.TakesDevice (spec : CommandSpec) : Bool :=
  (spec.requestFields ++ spec.blockTemplates.flatMap fun bt => bt.fields).any
    fun f => f.name = "device_code"

variable {T : DeviceTable} {device : String} {params : JsonValue}

/-! ### What the helpers have in common

The address and the code go in first, and what a helper adds has other names.
-/

/-- None of the entries a helper adds is one of these. -/
theorem get_deviceEntry (h : BatchParams T device params) {key : String}
    (hkey : key ∈ ["start_addr", "device_code", "word_blocks"]) :
    params.get key = (deviceParams T device).get key := by
  have hne : ∀ other ∈ ["count", "data", "payload", "data_blocks", "bit_blocks"], key ≠ other := by
    revert key
    decide
  cases h with
  | readWords count =>
      rw [createReadWordsParams, JsonValue.get_object,
        JsonMap.get_insert_of_ne _ _ (hne _ (by decide)),
        JsonMap.get_insert_of_ne _ _ (hne _ (by decide))]
  | readBits count =>
      rw [createReadBitsParams, JsonValue.get_object,
        JsonMap.get_insert_of_ne _ _ (hne _ (by decide)),
        JsonMap.get_insert_of_ne _ _ (hne _ (by decide)),
        JsonMap.get_insert_of_ne _ _ (hne _ (by decide))]
  | writeWords values =>
      exact get_createWriteWordsParams values (hne _ (by decide)) (hne _ (by decide))
  | writeBits values =>
      exact get_createWriteBitsParams values (hne _ (by decide)) (hne _ (by decide))

theorem get_wordBlocks (h : BatchParams T device params) : params.get "word_blocks" = none := by
  rw [get_deviceEntry h (by decide), deviceParams, insertDeviceCode_eq]
  have hstart := get_insertStartAddr T device [] (show "word_blocks" ≠ "start_addr" by decide)
  cases resolve T device with
  | none => exact hstart
  | some found =>
      obtain ⟨dev, addr⟩ := found
      dsimp only
      rw [JsonMap.get_insert_of_ne _ _ (by decide)]
      exact hstart

theorem get_deviceCode_unresolved (h : BatchParams T device params)
    (hnone : resolve T device = none) : params.get "device_code" = none := by
  rw [get_deviceEntry h (by decide)]
  exact deviceParams_unresolved hnone

/-! ### The shipped commands

The shipped commands but `echo` are of three kinds: the batch commands, those that count
blocks, and `write_blocks`, whose blocks have a device each.
-/

namespace CommandSpec

variable {spec : CommandSpec} {plcSeries : Option PlcSeries}

/-- What a shipped command that reads or writes may be. -/
inductive IsReadWrite (spec : CommandSpec) : Prop
  | batch {more : List FieldSpec} (h : IsBatch spec more) (hdevice : spec.TakesDevice = true)
  | blocks (h : spec = writeBlocksSpec)
  | counts (h : IsBlockCommand spec) (hdevice : spec.TakesDevice = false)

theorem isReadWrite_of_mem : ∀ entry ∈ shippedRegistry.byId, entry.1 ≠ .echo →
    (batchFields <+: entry.2.requestFields ∧ entry.2.blockTemplates = [] ∧
        entry.2.TakesDevice = true) ∨
      entry.2 = writeBlocksSpec ∨
      (entry.2.requestFields = blockFields ∧ entry.2.blockTemplates = [] ∧
        entry.2.TakesDevice = false) := by
  decide +kernel

theorem isReadWrite_of_get {id : Command} (hget : shippedRegistry.get id = some spec)
    (hid : id ≠ .echo) : IsReadWrite spec := by
  have hmem := CommandRegistry.mem_of_get hget
  rcases isReadWrite_of_mem (id, spec) hmem hid with ⟨hfields, hblocks, hdevice⟩ | h | h
  · obtain ⟨more, hmore⟩ := hfields
    exact .batch ⟨hmore.symm, hblocks⟩ hdevice
  · exact .blocks h
  · exact .counts ⟨h.1, h.2.1⟩ h.2.2

/-- Where the list of word blocks is missing, so is the request. -/
theorem buildRequest_writeBlocks_missing (T : DeviceTable)
    (hwords : params.get "word_blocks" = none) :
    ∃ msg, writeBlocksSpec.buildRequest T params plcSeries = protocolError msg := by
  by_cases hcodes : CodesFit T writeBlocksSpec params
  · obtain ⟨check, hcheck, hfields⟩ := writeRequestFields_eq T writeBlocksSpec params plcSeries
    have hkey : params.get ("word_block" ++ "s") = none := hwords
    have hblock : ∀ out, emitBlockTemplate params plcSeries out
        ⟨"word_block", "word_block_count", blockEntryFields, some .word⟩ =
          protocolError "missing block array: word_blocks" := by
      intro out
      rw [emitBlockTemplate]
      dsimp only
      rw [hkey]
      rfl
    refine ⟨"missing block array: word_blocks", ?_⟩
    rw [buildRequest, hfields, hcheck.ok_iff.mpr hcodes, ok_bind]
    show appendBlocks T writeBlocksSpec params plcSeries [] = _
    rw [appendBlocks, show validateBlockLimits T writeBlocksSpec params = .ok () from rfl, ok_bind,
      writeBlocksSpec, List.foldlM_cons, hblock]
    rfl
  · exact buildRequest_codes hcodes

/-- A command that only counts blocks needs no device. -/
theorem buildRequest_blockCommand_ok (T : DeviceTable) (h : IsBlockCommand spec)
    (hcode : params.get "device_code" = none) :
    ∃ out, spec.buildRequest T params plcSeries = .ok out := by
  rw [buildRequest, writeRequestFields, hcode, Option.bind_none]
  dsimp only
  rw [h.noTemplates, List.forM_eq_forM, List.forM_nil, pure_eq_ok, ok_bind, h.fields,
    foldlM_blockFields, ok_bind, appendBlocks, validateBlockLimits_noBlocks T h.noTemplates, ok_bind,
    h.noTemplates]
  exact ⟨_, rfl⟩

/-- Without a device, just the commands that take one are refused. -/
theorem refused_iff (T : DeviceTable) (h : IsReadWrite spec)
    (hcode : params.get "device_code" = none) (hwords : params.get "word_blocks" = none)
    (plcSeries : Option PlcSeries) :
    (∃ msg, spec.buildRequest T params plcSeries = protocolError msg) ↔
      spec.TakesDevice = true := by
  cases h with
  | batch h hdevice =>
      exact ⟨fun _ => hdevice, fun _ => buildRequest_batch_missing T h hcode⟩
  | blocks h =>
      rw [h]
      exact ⟨fun _ => by decide, fun _ => buildRequest_writeBlocks_missing T hwords⟩
  | counts h hdevice =>
      obtain ⟨out, hout⟩ := buildRequest_blockCommand_ok T h hcode
      rw [hdevice, hout]
      constructor
      · rintro ⟨msg, hmsg⟩
        cases hmsg
      · intro hfalse
        cases hfalse

end CommandSpec

/-- **The helpers agree**: whichever of them made the params, they have the same address and code
or the same lack of them, those the string stands for where it stands for any.  And that no
request is made for a string that stands for none holds of a shipped command that reads or writes
exactly where the string stands for a device or the command takes one. -/
theorem device_params_agree {params' : JsonValue} (h : BatchParams T device params)
    (h' : BatchParams T device params') :
    params.get "start_addr" = params'.get "start_addr" ∧
    params.get "device_code" = params'.get "device_code" ∧
    (∀ dev addr, resolve T device = some (dev, addr) →
      params.get "start_addr" = some (.ofNat addr) ∧
        params.get "device_code" = some (.ofNat dev.deviceCode.toNat)) ∧
    ∀ command ≠ .echo, ∀ spec, shippedRegistry.get command = some spec → ∀ plcSeries,
      (resolve T device = none →
        ∃ msg, spec.buildRequest T params plcSeries = protocolError msg) ↔
      ((resolve T device).isSome ∨ spec.TakesDevice = true) := by
  have hstart := get_deviceEntry h (show "start_addr" ∈ _ by decide)
  have hcode := get_deviceEntry h (show "device_code" ∈ _ by decide)
  refine ⟨?_, ?_, ?_, ?_⟩
  · rw [hstart, get_deviceEntry h' (by decide)]
  · rw [hcode, get_deviceEntry h' (by decide)]
  · intro dev addr hdev
    rw [hstart, hcode]
    exact deviceParams_resolved hdev
  · intro command hcommand spec hget plcSeries
    cases hresolve : resolve T device with
    | some found => exact ⟨fun _ => .inl rfl, fun _ hnone => (by cases hnone)⟩
    | none =>
        have hrefused := CommandSpec.refused_iff T (CommandSpec.isReadWrite_of_get hget hcommand)
          (get_deviceCode_unresolved h hresolve) (get_wordBlocks h) plcSeries
        constructor
        · exact fun hsafe => .inr (hrefused.mp (hsafe rfl))
        · rintro (hsome | htakes) -
          · cases hsome
          · exact hrefused.mpr htakes

theorem device_params_agree_m0 :
    (createReadWordsParams twoDevices "M0" 1).get "start_addr" =
      (createWriteBitsParams twoDevices "M0" [true]).get "start_addr" ∧
    (createReadWordsParams twoDevices "M0" 1).get "device_code" =
      (createWriteBitsParams twoDevices "M0" [true]).get "device_code" ∧
    (∀ dev addr, resolve twoDevices "M0" = some (dev, addr) →
      (createReadWordsParams twoDevices "M0" 1).get "start_addr" = some (.ofNat addr) ∧
        (createReadWordsParams twoDevices "M0" 1).get "device_code" =
          some (.ofNat dev.deviceCode.toNat)) ∧
    ∀ command ≠ .echo, ∀ spec, shippedRegistry.get command = some spec → ∀ plcSeries,
      (resolve twoDevices "M0" = none →
        ∃ msg, spec.buildRequest twoDevices (createReadWordsParams twoDevices "M0" 1) plcSeries =
          protocolError msg) ↔
      ((resolve twoDevices "M0").isSome ∨ spec.TakesDevice = true) :=
  device_params_agree (.readWords 1) (.writeBits [true])

/-- For the empty string a request to read no blocks is built. -/
theorem device_params_agree_fails :
    ¬ ∀ (T : DeviceTable) (device : String) (params : JsonValue) (command : Command)
      (spec : CommandSpec) (plcSeries : Option PlcSeries), BatchParams T device params →
      resolve T device = none → command ≠ .echo → shippedRegistry.get command = some spec →
      ∃ e, spec.buildRequest T params plcSeries = .error e := by
  intro h
  obtain ⟨e, he⟩ := h twoDevices "" (createReadWordsParams twoDevices "" 1) .readBlocks
    readBlocksSpec (some .q) (.readWords 1) (by decide +kernel) (by decide) get_readBlocks
  have hbuilt : readBlocksSpec.buildRequest twoDevices (createReadWordsParams twoDevices "" 1)
      (some .q) = .ok [0x06, 0x04, 0x00, 0x00, 0, 0] := by
    decide +kernel
  rw [hbuilt] at he
  cases he

end MelsecMc
