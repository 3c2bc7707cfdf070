/-
What a batch write puts on the wire.

For `write_words` the frame says what the caller asked for whenever there is a frame, and
there is one exactly when the device string resolves and the words fit
(`write_words_frame`).  For `write_bits` the frame can hold more points than the count
field can count: the request data is compared with the frame's limit only, and with two
points a byte that admits about 131000 points, while the count is two bytes
(`write_bits_frame_iff`).
-/
import MelsecMc.Proofs.BuildRequest
import MelsecMc.Proofs.Nibbles

namespace MelsecMc

theorem encodeBatch_append (series : PlcSeries) (command subcommand address deviceCode count : Nat)
    (points : Bytes) :
    encodeBatch series ⟨command, subcommand, address, deviceCode, count, []⟩ ++ points =
      encodeBatch series ⟨command, subcommand, address, deviceCode, count, points⟩ := by
  simp only [encodeBatch, List.append_nil, List.append_assoc]

/-- The subcommand of the word commands. -/
def wordSubcommand (series : PlcSeries) : UInt16 := CommandSpec.bySeries 0x0000 0x0002 series

/-- The subcommand of the bit commands. -/
def bitSubcommand (series : PlcSeries) : UInt16 := CommandSpec.bySeries 0x0001 0x0003 series

section Written

variable {T : DeviceTable} {device : String} {dev : Device} {addr : Nat} {series : PlcSeries}

/-- What a batch write reads back as, but for the count. -/
theorem decodeBatch_written (hdev : resolve T device = some (dev, addr)) (sub : UInt16)
    (count : Nat) (points : Bytes) :
    decodeBatch series (encodeBatch series
        ⟨0x1401, sub.toNat, addr, dev.deviceCode.toNat, count, points⟩) =
      some ⟨0x1401, sub.toNat, addr, dev.deviceCode.toNat, count % 65536, points⟩ := by
  have haddr := resolve_addr_lt hdev
  have hcode : dev.deviceCode.toNat < 256 := dev.deviceCode.toNat_lt
  have hsub : sub.toNat < 65536 := sub.toNat_lt
  rw [decodeBatch_encodeBatch]
  cases series with
  | q =>
      simp only [addrWidth, codeWidth]
      rw [Nat.mod_eq_of_lt (show sub.toNat < 256 ^ 2 by omega), Nat.mod_eq_of_lt haddr,
        Nat.mod_eq_of_lt (show dev.deviceCode.toNat < 256 ^ 1 by omega)]
      rfl
  | r =>
      simp only [addrWidth, codeWidth]
      rw [Nat.mod_eq_of_lt (show sub.toNat < 256 ^ 2 by omega),
        Nat.mod_eq_of_lt (show addr < 256 ^ 4 by omega),
        Nat.mod_eq_of_lt (show dev.deviceCode.toNat < 256 ^ 2 by omega)]
      rfl

/-! ### write_words -/

theorem get_createWriteWordsParams (values : List UInt16) {key : String} (hcount : key ≠ "count")
    (hdata : key ≠ "data") :
    (createWriteWordsParams T device values).get key = (deviceParams T device).get key := by
  rw [createWriteWordsParams, JsonValue.get_object, JsonMap.get_insert_of_ne _ _ hdata,
    JsonMap.get_insert_of_ne _ _ hcount]

/-- The field `data:words_le`. -/
theorem writeWordsField_data (values : List UInt16) (out : Bytes) :
    CommandSpec.writeWordsField "data" true (createWriteWordsParams T device values) out =
      .ok (out ++ wordsLe values) := by
  rw [CommandSpec.writeWordsField, createWriteWordsParams, JsonValue.get_object,
    JsonMap.get_insert_self, Option.bind_some, JsonValue.asArray_array]
  exact CommandSpec.pushWords_le _ values out

theorem buildRequest_writeWords (series : PlcSeries) (hdev : resolve T device = some (dev, addr))
    (values : List UInt16) :
    writeWordsSpec.buildRequest T (createWriteWordsParams T device values) (some series) =
      .ok (encodeBatch series ⟨0x1401, (wordSubcommand series).toNat, addr, dev.deviceCode.toNat,
        values.length, wordsLe values⟩) := by
  obtain ⟨hstart, hcode⟩ := deviceParams_resolved hdev
  rw [← get_createWriteWordsParams values (by decide) (by decide)] at hstart hcode
  have hcount : (createWriteWordsParams T device values).get "count" =
      some (.ofNat values.length) := by
    rw [createWriteWordsParams, JsonValue.get_object, JsonMap.get_insert_of_ne _ _ (by decide),
      JsonMap.get_insert_self]
  have hfield : ∀ out, writeWordsSpec.writeField (createWriteWordsParams T device values)
      (some series) out ⟨"data", .words true⟩ = .ok (out ++ wordsLe values) :=
    fun out => writeWordsField_data values out
  have hvalid : CommandSpec.validateCodeForFamily T writeWordsSpec
      (UInt64.ofNat dev.deviceCode.toNat) writeWordsSpec.deviceFamily = .ok () :=
    CommandSpec.validateCodeForFamily_any T _ dev.deviceCode.toNat_lt
  rw [CommandSpec.buildRequest_batch T CommandSpec.isBatch_writeWords
    (CommandSpec.effectiveSubcommand_writeWords series) hstart hcode hcount, hvalid, ok_bind,
    List.foldlM_cons, hfield, ok_bind, List.foldlM_nil, pure_eq_ok, encodeBatch_append]
  rfl

theorem buildRequest_writeWords_unresolved (series : PlcSeries) (hdev : resolve T device = none)
    (values : List UInt16) :
    ∃ msg, writeWordsSpec.buildRequest T (createWriteWordsParams T device values) (some series) =
      protocolError msg := by
  refine CommandSpec.buildRequest_batch_missing T CommandSpec.isBatch_writeWords ?_
  rw [get_createWriteWordsParams values (by decide) (by decide)]
  exact deviceParams_unresolved hdev

/-- The frame says: these words, to this device, from this address on. -/
def WroteWords (client : McClient) (dev : Device) (addr : Nat) (values : List UInt16)
    (frame : Bytes) : Prop :=
  decodeBatch client.plcSeries (frame.drop (headerLen client.mcFormat)) =
    some ⟨0x1401, (wordSubcommand client.plcSeries).toNat, addr, dev.deviceCode.toNat,
      values.length, wordsLe values⟩

/-- The length of the request data of a `write_words`. -/
def writeWordsLen (series : PlcSeries) (values : List UInt16) : Nat :=
  batchHeaderLen series + 2 * values.length

/-- What a `write_words` comes to: an error for one of two reasons, or the frame. -/
theorem writeWordsFrame_cases (T : DeviceTable) (client : McClient) (device : String)
    (values : List UInt16) (serial : UInt16) :
    ((resolve T device = none ∨ 65533 < writeWordsLen client.plcSeries values) ∧
      ∃ msg, McClient.writeWordsFrame T shippedRegistry client device values serial =
        protocolError msg) ∨
    ∃ dev addr frame, resolve T device = some (dev, addr) ∧
      writeWordsLen client.plcSeries values ≤ 65533 ∧
      McClient.writeWordsFrame T shippedRegistry client device values serial = .ok frame ∧
      WroteWords client dev addr values frame := by
  unfold McClient.writeWordsFrame
  cases hdev : resolve T device with
  | none =>
      left
      obtain ⟨msg, hbuild⟩ := buildRequest_writeWords_unresolved client.plcSeries hdev values
      exact ⟨Or.inl rfl, msg, McClient.makeFrame_error get_writeWords hbuild⟩
  | some found =>
      obtain ⟨dev, addr⟩ := found
      have hbuild := buildRequest_writeWords client.plcSeries hdev values
      have hlen : (encodeBatch client.plcSeries ⟨0x1401, (wordSubcommand client.plcSeries).toNat,
          addr, dev.deviceCode.toNat, values.length, wordsLe values⟩).length =
          writeWordsLen client.plcSeries values := by
        rw [length_encodeBatch, length_wordsLe, writeWordsLen]
      rcases Nat.lt_or_ge 65533 (writeWordsLen client.plcSeries values) with hlong | hfits
      · left
        obtain ⟨msg, hframe⟩ := McClient.makeFrame_tooLong serial get_writeWords hbuild
          (by rw [hlen]; exact hlong)
        exact ⟨Or.inr hlong, msg, hframe⟩
      · right
        obtain ⟨frame, hframe, hdrop⟩ := McClient.makeFrame_ok serial get_writeWords
          hbuild (by rw [hlen]; exact hfits)
        refine ⟨dev, addr, frame, rfl, hfits, hframe, ?_⟩
        have hcount : values.length % 65536 = values.length :=
          Nat.mod_eq_of_lt (by rw [writeWordsLen] at hfits; omega)
        rw [WroteWords, hdrop, decodeBatch_written hdev, hcount]

/-- **A `write_words` frame says exactly what was asked for**, it is made unless the device
string does not resolve or the request data is too long, and making it does not panic. -/
theorem write_words_frame (T : DeviceTable) (client : McClient) (device : String)
    (values : List UInt16) (serial : UInt16) :
    (∀ frame, McClient.writeWordsFrame T shippedRegistry client device values serial = .ok frame →
      ∃ dev addr, resolve T device = some (dev, addr) ∧
        WroteWords client dev addr values frame) ∧
    ((∃ e, McClient.writeWordsFrame T shippedRegistry client device values serial =
        .error (.err e)) ↔
      resolve T device = none ∨ 65533 < writeWordsLen client.plcSeries values) ∧
    ∀ p, McClient.writeWordsFrame T shippedRegistry client device values serial ≠
      .error (.panic p) := by
  rcases writeWordsFrame_cases T client device values serial with
    ⟨hwhy, msg, hframe⟩ | ⟨dev, addr, frame, hdev, hfits, hframe, hwrote⟩
  · rw [hframe, protocolError]
    refine ⟨?_, ?_, ?_⟩
    · intro frame h
      cases h
    · exact iff_of_true ⟨_, rfl⟩ hwhy
    · intro p h
      cases h
  · rw [hframe]
    refine ⟨?_, ?_, ?_⟩
    · intro frame' h
      cases h
      exact ⟨dev, addr, hdev, hwrote⟩
    · refine iff_of_false ?_ ?_
      · rintro ⟨e, h⟩
        cases h
      · rintro (hnone | hlong)
        · rw [hdev] at hnone
          cases hnone
        · omega
    · intro p h
      cases h

/-! ### write_bits

Two points go into a byte and the count counts points.  So the data can be short enough for a
frame when the points are too many for the count.
-/

theorem get_createWriteBitsParams (values : List Bool) {key : String} (hcount : key ≠ "count")
    (hpayload : key ≠ "payload") :
    (createWriteBitsParams T device values).get key = (deviceParams T device).get key := by
  rw [createWriteBitsParams, JsonValue.get_object, JsonMap.get_insert_of_ne _ _ hpayload,
    JsonMap.get_insert_of_ne _ _ hcount]

/-- The field `payload:bytes`. -/
theorem writeBytesField_payload (values : List Bool) (out : Bytes) :
    CommandSpec.writeBytesField "payload" (createWriteBitsParams T device values) out =
      .ok (out ++ packNibbles values) := by
  rw [CommandSpec.writeBytesField, createWriteBitsParams, JsonValue.get_object,
    JsonMap.get_insert_self, packLoop_eq, List.nil_append, List.drop_zero, Option.bind_some,
    JsonValue.asArray_array]
  exact CommandSpec.pushBytes_map _ (packNibbles values) out

/-- Unlike `write_words` the command takes bit devices only, so the check of the device
code stays in front. -/
theorem buildRequest_writeBits (series : PlcSeries) (hdev : resolve T device = some (dev, addr))
    (values : List Bool) :
    writeBitsSpec.buildRequest T (createWriteBitsParams T device values) (some series) =
      (CommandSpec.validateCodeForFamily T writeBitsSpec (UInt64.ofNat dev.deviceCode.toNat) .bit
        >>= fun _ => .ok (encodeBatch series ⟨0x1401, (bitSubcommand series).toNat, addr,
          dev.deviceCode.toNat, values.length, packNibbles values⟩)) := by
  obtain ⟨hstart, hcode⟩ := deviceParams_resolved hdev
  rw [← get_createWriteBitsParams values (by decide) (by decide)] at hstart hcode
  have hcount : (createWriteBitsParams T device values).get "count" =
      some (.ofNat values.length) := by
    rw [createWriteBitsParams, JsonValue.get_object, JsonMap.get_insert_of_ne _ _ (by decide),
      JsonMap.get_insert_self]
  have hfield : ∀ out, writeBitsSpec.writeField (createWriteBitsParams T device values)
      (some series) out ⟨"payload", .bytes⟩ = .ok (out ++ packNibbles values) :=
    fun out => writeBytesField_payload values out
  rw [CommandSpec.buildRequest_batch T CommandSpec.isBatch_writeBits
    (CommandSpec.effectiveSubcommand_writeBits series) hstart hcode hcount]
  congr 1
  funext u
  rw [List.foldlM_cons, hfield, ok_bind, List.foldlM_nil, pure_eq_ok, encodeBatch_append]
  rfl

/-- A `write_bits` frame of a device whose code passes the check. -/
theorem writeBitsFrame_ok (client : McClient) (hdev : resolve T device = some (dev, addr))
    (hvalid : CommandSpec.validateCodeForFamily T writeBitsSpec
      (UInt64.ofNat dev.deviceCode.toNat) .bit = .ok ()) (values : List Bool) (serial : UInt16)
    (hfits : batchHeaderLen client.plcSeries + (values.length + 1) / 2 ≤ 65533) :
    ∃ frame, McClient.writeBitsFrame T shippedRegistry client device values serial = .ok frame ∧
      frame.drop (headerLen client.mcFormat) = encodeBatch client.plcSeries
        ⟨0x1401, (bitSubcommand client.plcSeries).toNat, addr, dev.deviceCode.toNat,
          values.length, packNibbles values⟩ := by
  have hbuild := buildRequest_writeBits client.plcSeries hdev values
  rw [hvalid, ok_bind] at hbuild
  exact McClient.makeFrame_ok serial get_writeBits hbuild
    (by rw [length_encodeBatch, length_packNibbles]; exact hfits)

/-- The frame says: these points, to this device, from this address on. -/
def WroteBits (client : McClient) (dev : Device) (addr : Nat) (values : List Bool)
    (frame : Bytes) : Prop :=
  ∃ points, decodeBatch client.plcSeries (frame.drop (headerLen client.mcFormat)) =
      some ⟨0x1401, (bitSubcommand client.plcSeries).toNat, addr, dev.deviceCode.toNat,
        values.length, points⟩ ∧
    points.length = (values.length + 1) / 2 ∧
    highLowNibbles points = values.map Bool.toNat ++ List.replicate (values.length % 2) 0

/-- Of everything the frame says only the count can be wrong. -/
theorem wroteBits_iff (hdev : resolve T device = some (dev, addr)) {client : McClient}
    {values : List Bool} {frame : Bytes}
    (hdata : frame.drop (headerLen client.mcFormat) = encodeBatch client.plcSeries
      ⟨0x1401, (bitSubcommand client.plcSeries).toNat, addr, dev.deviceCode.toNat, values.length,
        packNibbles values⟩) :
    WroteBits client dev addr values frame ↔ values.length < 65536 := by
  rw [WroteBits, hdata, decodeBatch_written hdev]
  constructor
  · rintro ⟨points, hdecode, -, -⟩
    simp only [Option.some.injEq, BatchData.mk.injEq] at hdecode
    omega
  · intro hlt
    rw [Nat.mod_eq_of_lt hlt]
    exact ⟨packNibbles values, rfl, length_packNibbles values, highLowNibbles_packNibbles values⟩

/-- **A `write_bits` frame says what was asked for exactly when the count field can count
the points.** -/
theorem write_bits_frame_iff {client : McClient} {values : List Bool} {serial : UInt16}
    {frame : Bytes} (hdev : resolve T device = some (dev, addr))
    (hframe : McClient.writeBitsFrame T shippedRegistry client device values serial = .ok frame) :
    WroteBits client dev addr values frame ↔ values.length < 65536 := by
  have hbuild := (McClient.makeFrame_eq_ok get_writeBits hframe).1
  rw [buildRequest_writeBits _ hdev, bind_eq_ok] at hbuild
  obtain ⟨-, -, hdata⟩ := hbuild
  rw [Except.ok.injEq] at hdata
  exact wroteBits_iff hdev hdata.symm

end Written

/-- A table with one word device and one bit device of the shipped list. -/
def twoDevices : DeviceTable where
  devices := [⟨.bit, .decimal, 0x90⟩, ⟨.word, .decimal, 0xA8⟩]
  nameByCode code := if code = 0x90 then "M" else if code = 0xA8 then "D" else "UNKNOWN"

theorem resolve_twoDevices_m0 : resolve twoDevices "M0" = some (⟨.bit, .decimal, 0x90⟩, 0) := by
  decide +kernel

theorem validateCode_twoDevices_m0 :
    CommandSpec.validateCodeForFamily twoDevices writeBitsSpec
      (UInt64.ofNat (0x90 : UInt8).toNat) .bit = .ok () := by
  decide

theorem write_bits_frame_iff_m0 :
    ∃ frame, McClient.writeBitsFrame twoDevices shippedRegistry
        ⟨AccessRoute.default, .r, .mc4e⟩ "M0" [true, false, true] 2 = .ok frame ∧
      (WroteBits ⟨AccessRoute.default, .r, .mc4e⟩ ⟨.bit, .decimal, 0x90⟩ 0 [true, false, true] frame
        ↔ [true, false, true].length < 65536) := by
  obtain ⟨frame, hframe, -⟩ := writeBitsFrame_ok ⟨AccessRoute.default, .r, .mc4e⟩
    resolve_twoDevices_m0 validateCode_twoDevices_m0 [true, false, true] 2 (by decide)
  exact ⟨frame, hframe, write_bits_frame_iff resolve_twoDevices_m0 hframe⟩

/-- 65536 points fit in a frame, and its count field says 0. -/
theorem write_bits_frame_fails :
    ¬ ∀ (T : DeviceTable) (client : McClient) (device : String) (dev : Device) (addr : Nat)
      (values : List Bool) (serial : UInt16) (frame : Bytes),
      resolve T device = some (dev, addr) → dev.category = .bit →
      McClient.writeBitsFrame T shippedRegistry client device values serial = .ok frame →
      WroteBits client dev addr values frame := by
  intro h
  have hlength : (List.replicate 65536 false).length = 65536 := List.length_replicate
  obtain ⟨frame, hframe, hdata⟩ := writeBitsFrame_ok ⟨AccessRoute.default, .q, .mc4e⟩
    resolve_twoDevices_m0 validateCode_twoDevices_m0 (List.replicate 65536 false) 2
    (by rw [hlength]; decide)
  have hwrote := h twoDevices ⟨AccessRoute.default, .q, .mc4e⟩ "M0" _ 0 _ 2 frame
    resolve_twoDevices_m0 rfl hframe
  have hlt := (wroteBits_iff resolve_twoDevices_m0 hdata).mp hwrote
  rw [hlength] at hlt
  omega

end MelsecMc
