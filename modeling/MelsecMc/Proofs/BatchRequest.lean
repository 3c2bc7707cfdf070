/-
What the batch operations put on the wire.

The four operations have the five fields of a batch command in common, and a write has its
points behind them (`buildRequest_batchOp`).  So a request can fail for one of three reasons
only, and a station that takes it apart finds the operation in it, but for the count of a
`write_bits`, which is cut to two bytes (`batch_request`).

The device string is resolved before anything else, and a serial is taken only when the request
data is there.  So an operation that is refused for its device leaves the counter alone, and one
that is refused for its length does not.
-/
import MelsecMc.Operations
import MelsecMc.Proofs.Slots
import MelsecMc.Proofs.WriteRequest

namespace MelsecMc

namespace CommandSpec

theorem isBatch_readWords : IsBatch readWordsSpec [] := ⟨rfl, rfl⟩

theorem isBatch_readBits : IsBatch readBitsSpec [] := ⟨rfl, rfl⟩

theorem effectiveSubcommand_readWords (series : PlcSeries) :
    readWordsSpec.effectiveSubcommand (some series) = some (bySeries 0x0000 0x0002 series) := by
  cases series <;> rfl

theorem effectiveSubcommand_readBits (series : PlcSeries) :
    readBitsSpec.effectiveSubcommand (some series) = some (bySeries 0x0001 0x0003 series) := by
  cases series <;> rfl

end CommandSpec

variable {T : DeviceTable} {dev : Device} {addr : Nat} {series : PlcSeries}

section Reads

variable {device : String}

/-- What a batch request reads back as, but for the count. -/
theorem decodeBatch_request (hdev : resolve T device = some (dev, addr)) (command sub : UInt16)
    (count : Nat) (points : Bytes) :
    decodeBatch series (encodeBatch series
        ⟨command.toNat, sub.toNat, addr, dev.deviceCode.toNat, count, points⟩) =
      some ⟨command.toNat, sub.toNat, addr, dev.deviceCode.toNat, count % 65536, points⟩ := by
  have haddr := resolve_addr_lt hdev
  have hcode : dev.deviceCode.toNat < 256 := dev.deviceCode.toNat_lt
  have hcommand : command.toNat % 256 ^ 2 = command.toNat := Nat.mod_eq_of_lt command.toNat_lt
  have hsub : sub.toNat % 256 ^ 2 = sub.toNat := Nat.mod_eq_of_lt sub.toNat_lt
  have haddr' : addr % 256 ^ addrWidth series = addr := by
    cases series with
    | q => exact Nat.mod_eq_of_lt haddr
    | r => exact Nat.mod_eq_of_lt (show addr < 256 ^ 4 by omega)
  have hcode' : dev.deviceCode.toNat % 256 ^ codeWidth series = dev.deviceCode.toNat := by
    cases series with
    | q => exact Nat.mod_eq_of_lt hcode
    | r => exact Nat.mod_eq_of_lt (show dev.deviceCode.toNat < 256 ^ 2 by omega)
  rw [decodeBatch_encodeBatch]
  dsimp only
  rw [hcommand, hsub, haddr', hcode']
  rfl

/-! ### The params -/

theorem get_createReadWordsParams (count : UInt16) {key : String} (hcount : key ≠ "count")
    (hblocks : key ≠ "data_blocks") :
    (createReadWordsParams T device count).get key = (deviceParams T device).get key := by
  rw [createReadWordsParams, JsonValue.get_object, JsonMap.get_insert_of_ne _ _ hblocks,
    JsonMap.get_insert_of_ne _ _ hcount]

theorem get_createReadBitsParams (count : UInt16) {key : String} (hcount : key ≠ "count")
    (hbits : key ≠ "bit_blocks") (hblocks : key ≠ "data_blocks") :
    (createReadBitsParams T device count).get key = (deviceParams T device).get key := by
  rw [createReadBitsParams, JsonValue.get_object, JsonMap.get_insert_of_ne _ _ hblocks,
    JsonMap.get_insert_of_ne _ _ hbits, JsonMap.get_insert_of_ne _ _ hcount]

/-! ### The request data

The five fields are written by one lemma for all four commands (`buildRequest_batch`).  What is
left for each is its count and what stands behind the fields.
-/

theorem buildRequest_readWords (series : PlcSeries) (hdev : resolve T device = some (dev, addr))
    (count : UInt16) :
    readWordsSpec.buildRequest T (createReadWordsParams T device count) (some series) =
      .ok (encodeBatch series ⟨0x0401, (wordSubcommand series).toNat, addr, dev.deviceCode.toNat,
        count.toNat, []⟩) := by
  obtain ⟨hstart, hcode⟩ := deviceParams_resolved hdev
  rw [← get_createReadWordsParams count (by decide) (by decide)] at hstart hcode
  have hcount : (createReadWordsParams T device count).get "count" = some (.ofNat count.toNat) := by
    rw [createReadWordsParams, JsonValue.get_object, JsonMap.get_insert_of_ne _ _ (by decide),
      JsonMap.get_insert_self]
  have hvalid : CommandSpec.validateCodeForFamily T readWordsSpec
      (UInt64.ofNat dev.deviceCode.toNat) readWordsSpec.deviceFamily = .ok () :=
    CommandSpec.validateCodeForFamily_any T _ dev.deviceCode.toNat_lt
  rw [CommandSpec.buildRequest_batch T CommandSpec.isBatch_readWords
    (CommandSpec.effectiveSubcommand_readWords series) hstart hcode hcount, hvalid, ok_bind]
  rfl

/-- As for `write_bits`, the check of the device code stays in front. -/
theorem buildRequest_readBits (series : PlcSeries) (hdev : resolve T device = some (dev, addr))
    (count : UInt16) :
    readBitsSpec.buildRequest T (createReadBitsParams T device count) (some series) =
      (CommandSpec.validateCodeForFamily T readBitsSpec (UInt64.ofNat dev.deviceCode.toNat) .bit
        >>= fun _ => .ok (encodeBatch series ⟨0x0401, (bitSubcommand series).toNat, addr,
          dev.deviceCode.toNat, count.toNat, []⟩)) := by
  obtain ⟨hstart, hcode⟩ := deviceParams_resolved hdev
  rw [← get_createReadBitsParams count (by decide) (by decide) (by decide)] at hstart hcode
  have hcount : (createReadBitsParams T device count).get "count" = some (.ofNat count.toNat) := by
    rw [createReadBitsParams, JsonValue.get_object, JsonMap.get_insert_of_ne _ _ (by decide),
      JsonMap.get_insert_of_ne _ _ (by decide), JsonMap.get_insert_self]
  rw [CommandSpec.buildRequest_batch T CommandSpec.isBatch_readBits
    (CommandSpec.effectiveSubcommand_readBits series) hstart hcode hcount]
  rfl

theorem buildRequest_readWords_unresolved (series : PlcSeries) (hdev : resolve T device = none)
    (count : UInt16) :
    ∃ msg, readWordsSpec.buildRequest T (createReadWordsParams T device count) (some series) =
      protocolError msg := by
  refine CommandSpec.buildRequest_batch_missing T CommandSpec.isBatch_readWords ?_
  rw [get_createReadWordsParams count (by decide) (by decide)]
  exact deviceParams_unresolved hdev

theorem buildRequest_readBits_unresolved (series : PlcSeries) (hdev : resolve T device = none)
    (count : UInt16) :
    ∃ msg, readBitsSpec.buildRequest T (createReadBitsParams T device count) (some series) =
      protocolError msg := by
  refine CommandSpec.buildRequest_batch_missing T CommandSpec.isBatch_readBits ?_
  rw [get_createReadBitsParams count (by decide) (by decide) (by decide)]
  exact deviceParams_unresolved hdev

end Reads

/-! ### The four operations

From here on an operation is what it asks for: a command, a subcommand of the series, a count and
perhaps points.  A string that names no device, a device the command does not take, and points
that do not fit into a frame are the three reasons to refuse it.
-/

namespace BatchOp

/-- What the registry has for the command. -/
def spec : BatchOp → CommandSpec
  | .readWords .. => readWordsSpec
  | .readBits .. => readBitsSpec
  | .writeWords .. => writeWordsSpec
  | .writeBits .. => writeBitsSpec

def device : BatchOp → String
  | .readWords device _ | .readBits device _ => device
  | .writeWords device _ | .writeBits device _ => device

/-- The operation goes by points, and not by words. -/
def byPoints : BatchOp → Bool
  | .readBits .. | .writeBits .. => true
  | .readWords .. | .writeWords .. => false

def count : BatchOp → Nat
  | .readWords _ count | .readBits _ count => count.toNat
  | .writeWords _ values => values.length
  | .writeBits _ values => values.length

/-- What stands behind the five fields. -/
def points : BatchOp → Bytes
  | .readWords .. | .readBits .. => []
  | .writeWords _ values => wordsLe values
  | .writeBits _ values => packNibbles values

/-- The request data the operation should have. -/
def data (series : PlcSeries) (dev : Device) (addr : Nat) (op : BatchOp) : BatchData where
  command := op.spec.commandCode.toNat
  subcommand := (if op.byPoints then bitSubcommand series else wordSubcommand series).toNat
  address := addr
  deviceCode := dev.deviceCode.toNat
  count := op.count
  points := op.points

theorem get_spec (op : BatchOp) : shippedRegistry.get op.command = some op.spec := by
  cases op with
  | readWords device count => exact get_readWords
  | readBits device count => exact get_readBits
  | writeWords device values => exact get_writeWords
  | writeBits device values => exact get_writeBits

/-- A family that takes every device is no condition. -/
theorem validateCode_any (T : DeviceTable) {op : BatchOp} (h : op.spec.deviceFamily = .any)
    (dev : Device) : CommandSpec.validateCodeForFamily T op.spec
      (UInt64.ofNat dev.deviceCode.toNat) op.spec.deviceFamily = .ok () := by
  rw [h]
  exact CommandSpec.validateCodeForFamily_any T _ dev.deviceCode.toNat_lt

theorem buildRequest_batchOp (series : PlcSeries) (op : BatchOp)
    (hdev : resolve T op.device = some (dev, addr)) :
    op.spec.buildRequest T (op.params T) (some series) =
      (CommandSpec.validateCodeForFamily T op.spec (UInt64.ofNat dev.deviceCode.toNat)
        op.spec.deviceFamily >>= fun _ => .ok (encodeBatch series (op.data series dev addr))) := by
  cases op with
  | readWords device count =>
      rw [validateCode_any T rfl]
      exact buildRequest_readWords series hdev count
  | readBits device count => exact buildRequest_readBits series hdev count
  | writeWords device values =>
      rw [validateCode_any T rfl]
      exact buildRequest_writeWords series hdev values
  | writeBits device values => exact buildRequest_writeBits series hdev values

theorem buildRequest_batchOp_unresolved (series : PlcSeries) (op : BatchOp)
    (hdev : resolve T op.device = none) :
    ∃ msg, op.spec.buildRequest T (op.params T) (some series) = protocolError msg := by
  cases op with
  | readWords device count => exact buildRequest_readWords_unresolved series hdev count
  | readBits device count => exact buildRequest_readBits_unresolved series hdev count
  | writeWords device values => exact buildRequest_writeWords_unresolved series hdev values
  | writeBits device values =>
      refine CommandSpec.buildRequest_batch_missing T CommandSpec.isBatch_writeBits ?_
      rw [params, get_createWriteBitsParams values (by decide) (by decide)]
      exact deviceParams_unresolved hdev

/-- The operation's device is there, and it is one the command takes. -/
def Names (T : DeviceTable) (op : BatchOp) (dev : Device) (addr : Nat) : Prop :=
  resolve T op.device = some (dev, addr) ∧
    Admitted T op.spec.deviceFamily (UInt64.ofNat dev.deviceCode.toNat)

theorem Names.unique {op : BatchOp} {dev' : Device} {addr' : Nat} (h : op.Names T dev addr)
    (h' : op.Names T dev' addr') : dev' = dev ∧ addr' = addr := by
  have heq := h.1.symm.trans h'.1
  rw [Option.some.injEq, Prod.mk.injEq] at heq
  exact ⟨heq.1.symm, heq.2.symm⟩

/-- The request data is there for an operation whose device is, and else there is an error. -/
theorem buildRequest_cases (T : DeviceTable) (series : PlcSeries) (op : BatchOp) :
    (∃ dev addr, op.Names T dev addr ∧
      op.spec.buildRequest T (op.params T) (some series) =
        .ok (encodeBatch series (op.data series dev addr))) ∨
    (¬ ∃ dev addr, op.Names T dev addr) ∧
      ∃ e, op.spec.buildRequest T (op.params T) (some series) = .error (.err e) := by
  cases hdev : resolve T op.device with
  | none =>
      right
      obtain ⟨msg, hbuild⟩ := buildRequest_batchOp_unresolved series op hdev
      refine ⟨?_, ⟨_, hbuild⟩⟩
      rintro ⟨dev, addr, hnames, -⟩
      rw [hdev] at hnames
      cases hnames
  | some found =>
      obtain ⟨dev, addr⟩ := found
      have hbuild := buildRequest_batchOp series op hdev
      have hcheck := decides_validateCode T op.spec (UInt64.ofNat dev.deviceCode.toNat)
        op.spec.deviceFamily
      by_cases hadmitted : Admitted T op.spec.deviceFamily (UInt64.ofNat dev.deviceCode.toNat)
      · left
        rw [hcheck.ok_iff.mpr hadmitted, ok_bind] at hbuild
        exact ⟨dev, addr, ⟨hdev, hadmitted⟩, hbuild⟩
      · right
        obtain ⟨_, ⟨e, rfl⟩, hvalid⟩ := hcheck.fails hadmitted
        rw [hvalid, error_bind] at hbuild
        refine ⟨?_, e, hbuild⟩
        rintro ⟨dev', addr', hdev', hadmitted'⟩
        rw [hdev, Option.some.injEq, Prod.mk.injEq] at hdev'
        rw [hdev'.1] at hadmitted
        exact hadmitted hadmitted'

/-- The length of the request data. -/
def dataLen (series : PlcSeries) (op : BatchOp) : Nat :=
  batchHeaderLen series + op.points.length

/-- The frame of an operation, with the serial that follows the counter. -/
def builtFrame (S : Setting) (op : BatchOp) (dev : Device) (addr : Nat) (counter : UInt16) : Bytes :=
  let requestData := encodeBatch S.client.plcSeries (op.data S.client.plcSeries dev addr)
  McRequest.buildWithFormat
    { (McRequest.new (nextSerial counter).2).withAccessRoute S.client.accessRoute with
      requestDataLen := dataLenField requestData
      requestData }
    S.client.mcFormat

/-- What an operation comes to before it is sent. -/
theorem request_cases {S : Setting} (hreg : S.registry = shippedRegistry) (op : BatchOp)
    (counter : UInt16) :
    (∃ dev addr, op.Names S.table dev addr ∧ op.dataLen S.client.plcSeries ≤ 65533 ∧
      op.request S counter = ((nextSerial counter).1, .ok (op.builtFrame S dev addr counter))) ∨
    (∃ dev addr e, op.Names S.table dev addr ∧ 65533 < op.dataLen S.client.plcSeries ∧
      op.request S counter = ((nextSerial counter).1, .error (.err e))) ∨
    (¬ ∃ dev addr, op.Names S.table dev addr) ∧
      ∃ e, op.request S counter = (counter, .error (.err e)) := by
  unfold request
  rw [hreg, op.get_spec]
  dsimp only
  rcases buildRequest_cases S.table S.client.plcSeries op with
    ⟨dev, addr, hnames, hbuild⟩ | ⟨hnone, e, hbuild⟩
  · rw [hbuild]
    dsimp only
    have hlen : (encodeBatch S.client.plcSeries (op.data S.client.plcSeries dev addr)).length =
        op.dataLen S.client.plcSeries := length_encodeBatch _ _
    rcases Nat.lt_or_ge 65533 (op.dataLen S.client.plcSeries) with hlong | hfits
    · obtain ⟨msg, htoo⟩ := ((McRequest.new (nextSerial counter).2).withAccessRoute
        S.client.accessRoute).tryWithRequestData_error (by rw [hlen]; exact hlong)
      refine .inr (.inl ⟨dev, addr, .protocol msg, hnames, hlong, ?_⟩)
      rw [htoo]
      rfl
    · refine .inl ⟨dev, addr, hnames, hfits, ?_⟩
      rw [McRequest.tryWithRequestData_ok.mpr ⟨by omega, rfl⟩]
      rfl
  · rw [hbuild]
    exact .inr (.inr ⟨hnone, e, rfl⟩)

/-- What a station finds in a frame. -/
theorem decodeBatch_builtFrame (S : Setting) {op : BatchOp} (hnames : op.Names S.table dev addr)
    (counter : UInt16) :
    decodeBatch S.client.plcSeries
        ((op.builtFrame S dev addr counter).drop (headerLen S.client.mcFormat)) =
      some { op.data S.client.plcSeries dev addr with count := op.count % 65536 } := by
  rw [builtFrame]
  dsimp only
  rw [drop_buildWithFormat]
  exact decodeBatch_request hnames.1 _ _ _ _

/-- An MC4E frame has the serial in it. -/
theorem serialOf_builtFrame (S : Setting) (hformat : S.client.mcFormat = .mc4e) (op : BatchOp)
    (dev : Device) (addr : Nat) (counter : UInt16) :
    serialOf (op.builtFrame S dev addr counter) = (nextSerial counter).2 := by
  rw [builtFrame, hformat]
  dsimp only
  rw [McRequest.buildWithFormat_mc4e, mc4eHeader_eq]
  exact u16FromLeBytes_lo_hi _

/-- **What a batch operation does before it sends.**  It has a frame exactly when the string
names a device that the command takes and the points fit in; the frame says which operation
it is, with the count as far as two bytes go; a serial is taken exactly when the device is
there; and nothing panics. -/
theorem batch_request {S : Setting} (hreg : S.registry = shippedRegistry) (op : BatchOp)
    (counter : UInt16) :
    ((∃ frame, (op.request S counter).2 = .ok frame) ↔
      (∃ dev addr, op.Names S.table dev addr) ∧ op.dataLen S.client.plcSeries ≤ 65533) ∧
    (∀ frame dev addr, (op.request S counter).2 = .ok frame → op.Names S.table dev addr →
      decodeBatch S.client.plcSeries (frame.drop (headerLen S.client.mcFormat)) =
          some { op.data S.client.plcSeries dev addr with count := op.count % 65536 } ∧
        (S.client.mcFormat = .mc4e → serialOf frame = (nextSerial counter).2)) ∧
    ((∃ dev addr, op.Names S.table dev addr) →
      (op.request S counter).1 = (nextSerial counter).1) ∧
    ((¬ ∃ dev addr, op.Names S.table dev addr) → (op.request S counter).1 = counter) ∧
    ∀ p, (op.request S counter).2 ≠ .error (.panic p) := by
  rcases request_cases hreg op counter with ⟨dev, addr, hnames, hfits, hrequest⟩ |
    ⟨dev, addr, e, hnames, hlong, hrequest⟩ | ⟨hnone, e, hrequest⟩
  · rw [hrequest]
    refine ⟨iff_of_true ⟨_, rfl⟩ ⟨⟨dev, addr, hnames⟩, hfits⟩, ?_, fun _ => rfl,
      fun h => absurd ⟨dev, addr, hnames⟩ h, fun p h => by cases h⟩
    rintro frame dev' addr' hframe hnames'
    obtain ⟨rfl, rfl⟩ := hnames.unique hnames'
    cases hframe
    exact ⟨decodeBatch_builtFrame S hnames counter,
      fun hformat => serialOf_builtFrame S hformat op _ _ counter⟩
  · rw [hrequest]
    refine ⟨iff_of_false ?_ (fun h => by omega), ?_, fun _ => rfl,
      fun h => absurd ⟨dev, addr, hnames⟩ h, fun p h => by cases h⟩
    · rintro ⟨frame, hframe⟩
      cases hframe
    · intro frame dev' addr' hframe
      cases hframe
  · rw [hrequest]
    refine ⟨iff_of_false ?_ (fun h => hnone h.1), ?_, fun h => absurd h hnone, fun _ => rfl,
      fun p h => by cases h⟩
    · rintro ⟨frame, hframe⟩
      cases hframe
    · intro frame dev' addr' hframe
      cases hframe

end BatchOp

/-- A client of `twoDevices` that speaks MC4E to an R series station. -/
def twoDevicesSetting : Setting where
  table := twoDevices
  registry := shippedRegistry
  errors := none
  client := ⟨AccessRoute.default, .r, .mc4e⟩
  protocol := .tcp
  config := ⟨3, 3, 100⟩

theorem batch_request_m0 :
    ((∃ frame, ((BatchOp.readBits "M0" 3).request twoDevicesSetting 1).2 = .ok frame) ↔
      (∃ dev addr, (BatchOp.readBits "M0" 3).Names twoDevices dev addr) ∧
        (BatchOp.readBits "M0" 3).dataLen .r ≤ 65533) :=
  (@BatchOp.batch_request twoDevicesSetting rfl (.readBits "M0" 3) 1).1

end MelsecMc
