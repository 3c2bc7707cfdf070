/-
What the batch commands write.

Each writer is brought into the form the wire format is stated in: a number field is
`LittleEndian.bytes`, an array of words or bytes is those words or bytes, and the five
fields every batch command starts with are `encodeBatch` without points
(`buildRequest_batch`).  The device string comes in through two entries of the params,
which are there exactly when it resolves.
-/
import MelsecMc.Proofs.Request
import MelsecMc.ShippedCommands
import MelsecMc.Spec.Batch
import MelsecMc.Client

namespace MelsecMc

/-! ### Numbers and arrays -/

theorem lowBytes_eq (n : Nat) (v : UInt64) : lowBytes n v = LittleEndian.bytes n v.toNat := by
  induction n generalizing v with
  | zero => rfl
  | succ n ih =>
      have hlow : (v &&& 0xFF).toUInt8 = UInt8.ofNat v.toNat := by
        apply UInt8.toNat_inj.mp
        rw [UInt64.toNat_toUInt8, UInt64.toNat_and, show (0xFF : UInt64).toNat = 2 ^ 8 - 1 from rfl,
          Nat.and_two_pow_sub_one_eq_mod, UInt8.toNat_ofNat']
        omega
      have hhigh : (v >>> 8).toNat = v.toNat / 256 := by
        rw [UInt64.toNat_shiftRight, show (8 : UInt64).toNat % 64 = 8 from rfl,
          Nat.shiftRight_eq_div_pow]
      rw [lowBytes, ih, LittleEndian.bytes_succ, hlow, hhigh]

/-- The bytes of a number, in a byte order. -/
def numberBytes (le : Bool) (n : Nat) (v : Nat) : Bytes :=
  if le then LittleEndian.bytes n v else (LittleEndian.bytes n v).reverse

/-- Both paths of `write_n_bytes` write the same, as long as there can be a vector for it. -/
theorem writeNBytes_of_le {n : Nat} (hn : n ≤ isizeMax) (out : Bytes) (v : UInt64) (le : Bool) :
    writeNBytes out n v le = .ok (out ++ numberBytes le n v.toNat) := by
  have hlen : (LittleEndian.bytes n v.toNat).length = n := LittleEndian.length_bytes n v.toNat
  rw [writeNBytes, lowBytes_eq, numberBytes]
  split
  · cases le with
    | true =>
        dsimp only
        rw [if_pos rfl, if_pos rfl, List.take_left' hlen]
    | false =>
        dsimp only
        rw [if_neg Bool.false_ne_true, if_neg Bool.false_ne_true, List.take_left' hlen,
          List.take_left' (by rw [List.length_reverse, hlen])]
  · rw [vecWithCapacity, if_pos hn, ok_bind, List.nil_append]
    rfl

/-- Of more bytes than a vector can have, not one is written. -/
theorem writeNBytes_of_lt {n : Nat} (hn : isizeMax < n) (out : Bytes) (v : UInt64) (le : Bool) :
    writeNBytes out n v le = .error (.panic .capacityOverflow) := by
  have hheap : ¬ n ≤ 8 := by
    rw [isizeMax] at hn
    omega
  rw [writeNBytes, if_neg hheap, vecWithCapacity, if_neg (Nat.not_le.mpr hn), error_bind]

/-- The writer that succeeds has written the number. -/
theorem writeNBytes_eq_ok {out r : Bytes} {n : Nat} {v : UInt64} {le : Bool} :
    writeNBytes out n v le = .ok r ↔ n ≤ isizeMax ∧ r = out ++ numberBytes le n v.toNat := by
  by_cases hn : n ≤ isizeMax
  · rw [writeNBytes_of_le hn, Except.ok.injEq]
    exact ⟨fun h => ⟨hn, h.symm⟩, fun h => h.2.symm⟩
  · rw [writeNBytes_of_lt (Nat.lt_of_not_le hn)]
    exact ⟨fun h => (by cases h), fun h => absurd h.1 hn⟩

/-- **The number writer is exact**, in both byte orders and whether the bytes are made on the
stack or on the heap. -/
theorem write_n_bytes_exact (n : Nat) (v : UInt64) (hn : n ≤ isizeMax) :
    ∃ little big : Bytes,
      (∀ out, writeNBytes out n v true = .ok (out ++ little)) ∧
      (∀ out, writeNBytes out n v false = .ok (out ++ big)) ∧
      little.length = n ∧ big.length = n ∧
      LittleEndian.value little = v.toNat % 256 ^ n ∧
      BigEndian.value big = v.toNat % 256 ^ n ∧
      big = little.reverse := by
  have hlen : (LittleEndian.bytes n v.toNat).length = n := LittleEndian.length_bytes n v.toNat
  have hvalue : LittleEndian.value (LittleEndian.bytes n v.toNat) = v.toNat % 256 ^ n :=
    LittleEndian.value_bytes n v.toNat
  refine ⟨LittleEndian.bytes n v.toNat, (LittleEndian.bytes n v.toNat).reverse, ?_, ?_, hlen, ?_,
    hvalue, ?_, rfl⟩
  · intro out
    rw [writeNBytes_of_le hn, numberBytes, if_pos rfl]
  · intro out
    rw [writeNBytes_of_le hn, numberBytes, if_neg Bool.false_ne_true]
  · rw [List.length_reverse, hlen]
  · rw [BigEndian.value_reverse, hvalue]

/-- Twelve bytes for a number of eight. -/
theorem write_n_bytes_exact_twelve :
    12 ≤ isizeMax ∧ ∃ little big : Bytes,
      (∀ out, writeNBytes out 12 0xFFFFFFFFFFFFFFFF true = .ok (out ++ little)) ∧
      (∀ out, writeNBytes out 12 0xFFFFFFFFFFFFFFFF false = .ok (out ++ big)) ∧
      little.length = 12 ∧ big.length = 12 ∧
      LittleEndian.value little = (0xFFFFFFFFFFFFFFFF : UInt64).toNat % 256 ^ 12 ∧
      BigEndian.value big = (0xFFFFFFFFFFFFFFFF : UInt64).toNat % 256 ^ 12 ∧
      big = little.reverse :=
  ⟨by decide, write_n_bytes_exact 12 0xFFFFFFFFFFFFFFFF (by decide)⟩

/-- A field of `2 ^ 63` bytes is a field for the parser, and more than a vector can have. -/
theorem write_n_bytes_fails :
    parseFieldSpec "x:9223372036854775808" = .ok ⟨"x", .fixedBytes (2 ^ 63) true⟩ ∧
      ¬ ∀ (n : Nat) (v : UInt64) (le : Bool) (out : Bytes), n < usizeBound →
        ∃ chunk, writeNBytes out n v le = .ok (out ++ chunk) ∧ chunk.length = n := by
  refine ⟨by decide +kernel, fun h => ?_⟩
  obtain ⟨chunk, hchunk, -⟩ := h (2 ^ 63) 0 true [] (by decide)
  rw [writeNBytes_of_lt (by decide)] at hchunk
  cases hchunk

theorem writeNBytes_ofNat (out : Bytes) {w : Nat} (hw : w ≤ 8) (n : Nat) :
    writeNBytes out w (UInt64.ofNat n) true = .ok (out ++ LittleEndian.bytes w n) := by
  have hmax : w ≤ isizeMax := by
    rw [isizeMax]
    omega
  rw [writeNBytes_of_le hmax, numberBytes, if_pos rfl, UInt64.toNat_ofNat',
    show 2 ^ 64 = 256 ^ 8 from rfl, LittleEndian.bytes_mod hw]

namespace CommandSpec

theorem pushWords_le (notNumber : String) (values : List UInt16) (out : Bytes) :
    pushWords true notNumber out (values.map fun v => .ofNat v.toNat) =
      .ok (out ++ wordsLe values) := by
  induction values generalizing out with
  | nil => rw [List.map_nil, pushWords, wordsLe, List.flatMap_nil, List.append_nil]
  | cons v values ih =>
      rw [List.map_cons, pushWords, JsonValue.asU64_ofNat]
      simp only [toNat_ofNat_u16]
      rw [if_pos v.toNat_lt, ih, UInt16.ofNat_toNat, wordBytes, if_pos rfl, wordsLe, wordsLe,
        List.flatMap_cons, List.append_assoc]

theorem pushBytes_map (name : String) (values : Bytes) (out : Bytes) :
    pushBytes name out (values.map fun b => .ofNat b.toNat) = .ok (out ++ values) := by
  induction values generalizing out with
  | nil => rw [List.map_nil, pushBytes, List.append_nil]
  | cons b values ih =>
      rw [List.map_cons, pushBytes, JsonValue.asU64_ofNat]
      simp only [toNat_ofNat_u8]
      rw [if_pos b.toNat_lt, ih, UInt8.ofNat_toNat, List.append_assoc, List.singleton_append]

end CommandSpec

/-! ### The device string in the params

A string that resolves leaves an address and a code; one that does not leaves an address at
most, and every batch command then misses its code.
-/

section Resolve

variable {T : DeviceTable} {device : String}

/-- A code is inserted exactly when the string resolves. -/
theorem insertDeviceCode_eq (T : DeviceTable) (device : String) (params : JsonMap) :
    insertDeviceCode T device params =
      match resolve T device with
      | some (dev, _) => params.insert "device_code" (.ofNat dev.deviceCode.toNat)
      | none => params := by
  unfold insertDeviceCode resolve
  cases T.parseDeviceAndAddress device with
  | ok found => rfl
  | error e =>
      dsimp only
      by_cases hsymbol : isSymbolOnly device = true
      · rw [if_pos hsymbol, if_pos hsymbol]
        cases T.deviceBySymbol (toUppercase device) <;> rfl
      · rw [if_neg hsymbol, if_neg hsymbol]

theorem insertStartAddr_resolved {dev : Device} {addr : Nat}
    (h : resolve T device = some (dev, addr)) (params : JsonMap) :
    insertStartAddr T device params = params.insert "start_addr" (.ofNat addr) := by
  unfold insertStartAddr
  unfold resolve at h
  cases hparse : T.parseDeviceAndAddress device with
  | ok found =>
      rw [hparse] at h
      cases h
      rfl
  | error e =>
      rw [hparse] at h
      dsimp only at h ⊢
      by_cases hsymbol : isSymbolOnly device = true
      · rw [if_pos hsymbol] at h ⊢
        obtain ⟨d, -, hd⟩ := Option.map_eq_some_iff.mp h
        cases hd
        rfl
      · rw [if_neg hsymbol] at h
        cases h

/-- Nothing but `start_addr` changes, whatever the string is. -/
theorem get_insertStartAddr (T : DeviceTable) (device : String) (params : JsonMap) {key : String}
    (h : key ≠ "start_addr") : (insertStartAddr T device params).get key = params.get key := by
  unfold insertStartAddr
  split
  · exact JsonMap.get_insert_of_ne _ _ h
  · split
    · exact JsonMap.get_insert_of_ne _ _ h
    · rfl

theorem deviceParams_resolved {dev : Device} {addr : Nat} (h : resolve T device = some (dev, addr)) :
    (deviceParams T device).get "start_addr" = some (.ofNat addr) ∧
      (deviceParams T device).get "device_code" = some (.ofNat dev.deviceCode.toNat) := by
  rw [deviceParams, insertDeviceCode_eq, insertStartAddr_resolved h, h]
  dsimp only
  rw [JsonMap.get_insert_of_ne _ _ (by decide)]
  exact ⟨JsonMap.get_insert_self _ _ _, JsonMap.get_insert_self _ _ _⟩

/-- A string that names no device leaves no device code. -/
theorem deviceParams_unresolved (h : resolve T device = none) :
    (deviceParams T device).get "device_code" = none := by
  rw [deviceParams, insertDeviceCode_eq, h]
  exact get_insertStartAddr T device [] (by decide)

/-- A resolved address fits in three bytes. -/
theorem resolve_addr_lt {dev : Device} {addr : Nat} (h : resolve T device = some (dev, addr)) :
    addr < 256 ^ 3 := by
  rw [resolve] at h
  cases hparse : T.parseDeviceAndAddress device with
  | ok found =>
      obtain ⟨d, a⟩ := found
      have hle := T.parseDeviceAndAddress_le hparse
      rw [hparse] at h
      cases h
      omega
  | error e =>
      rw [hparse] at h
      simp only at h
      split at h
      · obtain ⟨d, -, hd⟩ := Option.map_eq_some_iff.mp h
        cases hd
        decide
      · cases h

end Resolve

/-! ### The five fields of every batch command -/

namespace CommandSpec

variable {spec : CommandSpec} {params : JsonValue} {plcSeries : Option PlcSeries}

/-- Four names have a meaning of their own; every other one is looked up. -/
theorem getNumField_plain (spec : CommandSpec) (params : JsonValue) (plcSeries : Option PlcSeries)
    {name : String}
    (hname : name ∉ ["command", "subcommand", "word_block_count", "bit_block_count"]) :
    spec.getNumField name params plcSeries = numParam name params := by
  simp only [List.mem_cons, List.not_mem_nil, or_false, not_or] at hname
  obtain ⟨hcommand, hsub, hword, hbit⟩ := hname
  rw [getNumField, if_neg hcommand, if_neg hsub, if_neg hword, if_neg hbit]

/-- A number among the params is written as it is. -/
theorem numParam_ofNat {name : String} {n : Nat} (h : params.get name = some (.ofNat n)) :
    numParam name params = .ok (UInt64.ofNat n) := by
  rw [numParam, h]
  rfl

/-- What is not among the params is missing. -/
theorem numParam_none {name : String} (h : params.get name = none) :
    numParam name params = protocolError s!"missing numeric param: {name}" := by
  rw [numParam, h]

theorem numParam_cases (name : String) (params : JsonValue) :
    (∃ v, numParam name params = .ok v) ∨ ∃ msg, numParam name params = protocolError msg := by
  unfold numParam
  dsimp only
  repeat' split
  all_goals first | exact .inl ⟨_, rfl⟩ | exact .inr ⟨_, rfl⟩

theorem writeField_fixedBytes {name : String} {n : Nat} {le : Bool} {v : UInt64}
    (h : spec.getNumField name params plcSeries = .ok v) (out : Bytes) :
    spec.writeField params plcSeries out ⟨name, .fixedBytes n le⟩ =
      writeNBytes out (requestFieldWidth name n le plcSeries).1 v
        (requestFieldWidth name n le plcSeries).2 := by
  show writeFixedBytesField spec name n le params plcSeries out = _
  rw [writeFixedBytesField, h, ok_bind]

/-- A number in a field of up to eight bytes, in the byte order of all shipped ones. -/
theorem writeField_ofNat {name : String} {n v w : Nat} {le : Bool}
    (h : spec.getNumField name params plcSeries = .ok (UInt64.ofNat v))
    (hwidth : requestFieldWidth name n le plcSeries = (w, true)) (hw : w ≤ 8) (out : Bytes) :
    spec.writeField params plcSeries out ⟨name, .fixedBytes n le⟩ =
      .ok (out ++ LittleEndian.bytes w v) := by
  rw [writeField_fixedBytes h, hwidth, writeNBytes_ofNat _ hw]

theorem toUInt64_ofNat (v : UInt16) : v.toUInt64 = UInt64.ofNat v.toNat := by
  apply UInt64.toNat_inj.mp
  rw [UInt16.toNat_toUInt64, toNat_ofNat_u16]

/-- The command code, little-endian whatever the definition says. -/
theorem writeField_command (spec : CommandSpec) (params : JsonValue)
    (plcSeries : Option PlcSeries) (le : Bool) (out : Bytes) :
    spec.writeField params plcSeries out ⟨"command", .fixedBytes 2 le⟩ =
      .ok (out ++ LittleEndian.bytes 2 spec.commandCode.toNat) := by
  have hvalue : spec.getNumField "command" params plcSeries =
      .ok (UInt64.ofNat spec.commandCode.toNat) := by
    rw [getNumField, if_pos rfl, toUInt64_ofNat]
  exact writeField_ofNat hvalue rfl (by decide) out

/-- The subcommand, 0 if there is none. -/
theorem writeField_subcommand (spec : CommandSpec) (params : JsonValue)
    (plcSeries : Option PlcSeries) (le : Bool) (out : Bytes) :
    spec.writeField params plcSeries out ⟨"subcommand", .fixedBytes 2 le⟩ =
      .ok (out ++ LittleEndian.bytes 2 ((spec.effectiveSubcommand plcSeries).getD 0).toNat) := by
  have hvalue : spec.getNumField "subcommand" params plcSeries =
      .ok (UInt64.ofNat ((spec.effectiveSubcommand plcSeries).getD 0).toNat) := by
    rw [getNumField, if_neg (by decide), if_pos rfl, toUInt64_ofNat]
  exact writeField_ofNat hvalue rfl (by decide) out

/-- A request field that cannot be read ends the request. -/
theorem writeField_fixedBytes_error {name : String} {n : Nat} {le : Bool} {e : Failure}
    (h : spec.getNumField name params plcSeries = .error e) (out : Bytes) :
    spec.writeField params plcSeries out ⟨name, .fixedBytes n le⟩ = .error e := by
  show writeFixedBytesField spec name n le params plcSeries out = _
  rw [writeFixedBytesField, h, error_bind]

/-- Addresses and device codes have the widths of the series. -/
theorem requestFieldWidth_batch (series : PlcSeries) :
    requestFieldWidth "start_addr" 3 true (some series) = (addrWidth series, true) ∧
    requestFieldWidth "device_code" 1 true (some series) = (codeWidth series, true) ∧
    requestFieldWidth "count" 2 true (some series) = (2, true) := by
  cases series <;> decide

section Batch

variable {series : PlcSeries} {sub : UInt16} {addr code count : Nat}

/-- What the number fields of a batch command become: the bytes of the wire format. -/
theorem foldlM_batchFields (hsub : spec.effectiveSubcommand (some series) = some sub)
    (hstart : params.get "start_addr" = some (.ofNat addr))
    (hcode : params.get "device_code" = some (.ofNat code))
    (hcount : params.get "count" = some (.ofNat count)) :
    batchFields.foldlM (spec.writeField params (some series)) [] =
      .ok (encodeBatch series ⟨spec.commandCode.toNat, sub.toNat, addr, code, count, []⟩) := by
  have haddr := getNumField_plain spec params (some series) (show "start_addr" ∉ _ by decide)
  have hdevice := getNumField_plain spec params (some series) (show "device_code" ∉ _ by decide)
  have hpoints := getNumField_plain spec params (some series) (show "count" ∉ _ by decide)
  rw [numParam_ofNat hstart] at haddr
  rw [numParam_ofNat hcode] at hdevice
  rw [numParam_ofNat hcount] at hpoints
  obtain ⟨hwidthAddr, hwidthCode, hwidthCount⟩ := requestFieldWidth_batch series
  have haddrWidth : addrWidth series ≤ 8 := by cases series <;> decide
  have hcodeWidth : codeWidth series ≤ 8 := by cases series <;> decide
  rw [batchFields, List.foldlM_cons, writeField_command, ok_bind, List.foldlM_cons,
    writeField_subcommand, hsub, Option.getD_some, ok_bind, List.foldlM_cons,
    writeField_ofNat haddr hwidthAddr haddrWidth, ok_bind, List.foldlM_cons,
    writeField_ofNat hdevice hwidthCode hcodeWidth, ok_bind, List.foldlM_cons,
    writeField_ofNat hpoints hwidthCount (by decide), ok_bind, List.foldlM_nil, pure_eq_ok]
  simp only [encodeBatch, List.nil_append, List.append_nil, List.append_assoc]

/-- Without a device code the fields of a batch command are not written. -/
theorem foldlM_batchFields_missing (spec : CommandSpec) (plcSeries : Option PlcSeries)
    (hcode : params.get "device_code" = none) (out : Bytes) :
    ∃ msg, batchFields.foldlM (spec.writeField params plcSeries) out = protocolError msg := by
  have hdevice := getNumField_plain spec params plcSeries (show "device_code" ∉ _ by decide)
  rw [numParam_none hcode] at hdevice
  rw [batchFields, List.foldlM_cons, writeField_command, ok_bind, List.foldlM_cons,
    writeField_subcommand, ok_bind, List.foldlM_cons]
  rcases numParam_cases "start_addr" params with ⟨v, haddr⟩ | ⟨msg, haddr⟩ <;>
    rw [← getNumField_plain spec params plcSeries (by decide)] at haddr
  · have hwidth : (requestFieldWidth "start_addr" 3 true plcSeries).1 ≤ isizeMax := by
      rcases plcSeries with _ | _ | _ <;> decide
    rw [writeField_fixedBytes haddr, writeNBytes_of_le hwidth, ok_bind, List.foldlM_cons,
      writeField_fixedBytes_error hdevice, error_bind]
    exact ⟨_, rfl⟩
  · rw [writeField_fixedBytes_error haddr, error_bind]
    exact ⟨msg, rfl⟩

end Batch

/-- A request that is built is its fields and then its blocks. -/
theorem buildRequest_eq_ok {T : DeviceTable} {out : Bytes}
    (h : spec.buildRequest T params plcSeries = .ok out) :
    ∃ fields, spec.requestFields.foldlM (spec.writeField params plcSeries) [] = .ok fields ∧
      spec.blockTemplates.foldlM (emitBlockTemplate params plcSeries) fields = .ok out := by
  rw [buildRequest] at h
  obtain ⟨fields, hfields, hblocks⟩ := bind_eq_ok.mp h
  refine ⟨fields, ?_, ?_⟩
  · unfold writeRequestFields at hfields
    dsimp only at hfields
    split at hfields
    · obtain ⟨-, -, hfields⟩ := bind_eq_ok.mp hfields
      obtain ⟨-, -, hfields⟩ := bind_eq_ok.mp hfields
      exact hfields
    · obtain ⟨-, -, hfields⟩ := bind_eq_ok.mp hfields
      exact hfields
  · rw [appendBlocks] at hblocks
    obtain ⟨-, -, hblocks⟩ := bind_eq_ok.mp hblocks
    exact hblocks

/-! ### The batch commands

Read and write commands begin alike.  A read ends behind the count, a write goes on with its
values.
-/

/-- The request is the five fields and then `more`, and there are no blocks. -/
structure IsBatch (spec : CommandSpec) (more : List FieldSpec) : Prop where
  fields : spec.requestFields = batchFields ++ more
  noBlocks : spec.blockTemplates = []

/-- Without blocks there is nothing to compare the limits with. -/
theorem validateBlockLimits_noBlocks (T : DeviceTable) (h : spec.blockTemplates = [])
    (params : JsonValue) : validateBlockLimits T spec params = .ok () := by
  have hcheck : ∀ name limit, checkLimit spec name 0 limit = .ok () := by
    intro name limit
    cases limit with
    | none => rfl
    | some l => rw [checkLimit, if_neg (UInt64.not_lt_zero)]
  rw [validateBlockLimits]
  cases spec.limits with
  | none => rfl
  | some lim =>
      dsimp only
      rw [h, List.foldlM_nil, pure_eq_ok, ok_bind, hcheck, ok_bind, hcheck, ok_bind, hcheck]

/-- **A batch request**: the device code is checked against the family of the command, and
then come the five fields and whatever else the command has. -/
theorem buildRequest_batch (T : DeviceTable) {more : List FieldSpec} (hbatch : IsBatch spec more)
    {series : PlcSeries} {sub : UInt16} {addr code count : Nat}
    (hsub : spec.effectiveSubcommand (some series) = some sub)
    (hstart : params.get "start_addr" = some (.ofNat addr))
    (hcode : params.get "device_code" = some (.ofNat code))
    (hcount : params.get "count" = some (.ofNat count)) :
    spec.buildRequest T params (some series) =
      (validateCodeForFamily T spec (UInt64.ofNat code) spec.deviceFamily >>= fun _ =>
        more.foldlM (spec.writeField params (some series)) (encodeBatch series
          ⟨spec.commandCode.toNat, sub.toNat, addr, code, count, []⟩)) := by
  rw [buildRequest, writeRequestFields, hcode, Option.bind_some, JsonValue.asU64_ofNat]
  dsimp only
  cases hvalid : validateCodeForFamily T spec (UInt64.ofNat code) spec.deviceFamily with
  | error e => rw [error_bind, error_bind, error_bind]
  | ok u =>
      rw [ok_bind, ok_bind, hbatch.noBlocks, List.forM_eq_forM, List.forM_nil, pure_eq_ok, ok_bind,
        hbatch.fields,
        List.foldlM_append, foldlM_batchFields hsub hstart hcode hcount, ok_bind]
      cases more.foldlM (spec.writeField params (some series)) (encodeBatch series
          ⟨spec.commandCode.toNat, sub.toNat, addr, code, count, []⟩) with
      | error e => rfl
      | ok out =>
          rw [ok_bind, appendBlocks, validateBlockLimits_noBlocks T hbatch.noBlocks, ok_bind,
            hbatch.noBlocks]
          rfl

/-- Without a device code there is no batch request. -/
theorem buildRequest_batch_missing (T : DeviceTable) {more : List FieldSpec}
    (hbatch : IsBatch spec more) (hcode : params.get "device_code" = none) :
    ∃ msg, spec.buildRequest T params plcSeries = protocolError msg := by
  obtain ⟨msg, hfields⟩ := foldlM_batchFields_missing spec plcSeries hcode []
  refine ⟨msg, ?_⟩
  rw [buildRequest, writeRequestFields, hcode, Option.bind_none]
  dsimp only
  rw [hbatch.noBlocks, List.forM_eq_forM, List.forM_nil, pure_eq_ok, ok_bind, hbatch.fields,
    List.foldlM_append, hfields]
  rfl

/-- The number for the series, of a pair. -/
def bySeries (q r : UInt16) : PlcSeries → UInt16
  | .q => q
  | .r => r

theorem isBatch_writeWords : IsBatch writeWordsSpec [⟨"data", .words true⟩] := ⟨rfl, rfl⟩

theorem isBatch_writeBits : IsBatch writeBitsSpec [⟨"payload", .bytes⟩] := ⟨rfl, rfl⟩

theorem effectiveSubcommand_writeWords (series : PlcSeries) :
    writeWordsSpec.effectiveSubcommand (some series) = some (bySeries 0x0000 0x0002 series) := by
  cases series <;> rfl

theorem effectiveSubcommand_writeBits (series : PlcSeries) :
    writeBitsSpec.effectiveSubcommand (some series) = some (bySeries 0x0001 0x0003 series) := by
  cases series <;> rfl

/-- A code of one byte passes the check when the family takes every device. -/
theorem validateCodeForFamily_any (T : DeviceTable) (spec : CommandSpec) {code : Nat}
    (h : code < 256) : validateCodeForFamily T spec (UInt64.ofNat code) .any = .ok () := by
  rw [validateCodeForFamily, if_neg (by rw [UInt64.toNat_ofNat']; omega)]
  dsimp only
  split
  · rfl
  · exact if_pos rfl

end CommandSpec

/-! ### From the params to the frame

What is built is wrapped in a header of the client's format; that fails when the data is too
long for the length field.
-/

/-- The frame carries the request data behind its header. -/
theorem drop_buildWithFormat (req : McRequest) (format : McFrameFormat) :
    (req.buildWithFormat format).drop (headerLen format) = req.requestData := by
  cases format with
  | mc4e =>
      rw [McRequest.buildWithFormat_mc4e]
      exact List.drop_left' (length_mc4eHeader _ _ _ _ _ _)
  | mc3e =>
      rw [McRequest.buildWithFormat_mc3e]
      exact List.drop_left' (length_mc3eHeader _ _ _ _)

namespace McRequest

theorem tryWithRequestData_error (req : McRequest) {data : Bytes} (h : 65533 < data.length) :
    ∃ msg, req.tryWithRequestData data = protocolError msg := by
  unfold tryWithRequestData
  by_cases hoverflow : usizeBound ≤ data.length + 2
  · exact ⟨_, if_pos hoverflow⟩
  · have hlong : 65536 ≤ data.length + 2 := by omega
    exact ⟨_, (if_neg hoverflow).trans (if_pos hlong)⟩

end McRequest

namespace McClient

variable {T : DeviceTable} {reg : CommandRegistry} {client : McClient} {command : Command}
  {spec : CommandSpec} {params : JsonValue} {serial : UInt16}

/-- A frame is made when the request data is built and not too long for its length field. -/
theorem makeFrame_ok (serial : UInt16) (hspec : reg.get command = some spec) {data : Bytes}
    (hdata : spec.buildRequest T params (some client.plcSeries) = .ok data)
    (hfits : data.length ≤ 65533) :
    ∃ frame, makeFrame T reg client command params serial = .ok frame ∧
      frame.drop (headerLen client.mcFormat) = data := by
  have hreq : makeRequest T reg client command params serial = .ok
      { (McRequest.new serial).withAccessRoute client.accessRoute with
        requestDataLen := dataLenField data
        requestData := data } := by
    rw [makeRequest, hspec]
    dsimp only
    rw [hdata, ok_bind]
    exact McRequest.tryWithRequestData_ok.mpr ⟨by omega, rfl⟩
  refine ⟨_, by rw [makeFrame, hreq, ok_bind, pure_eq_ok], ?_⟩
  rw [drop_buildWithFormat]

/-- And only then. -/
theorem makeFrame_eq_ok (hspec : reg.get command = some spec) {frame : Bytes}
    (h : makeFrame T reg client command params serial = .ok frame) :
    spec.buildRequest T params (some client.plcSeries) =
        .ok (frame.drop (headerLen client.mcFormat)) ∧
      (frame.drop (headerLen client.mcFormat)).length ≤ 65533 := by
  rw [makeFrame, bind_eq_ok] at h
  obtain ⟨req, hreq, hframe⟩ := h
  rw [pure_eq_ok, Except.ok.injEq] at hframe
  rw [makeRequest, hspec] at hreq
  dsimp only at hreq
  obtain ⟨data, hdata, htry⟩ := bind_eq_ok.mp hreq
  obtain ⟨hlt, rfl⟩ := McRequest.tryWithRequestData_ok.mp htry
  rw [← hframe, drop_buildWithFormat]
  exact ⟨hdata, by dsimp only; omega⟩

/-- An error of the builder is an error of the frame. -/
theorem makeFrame_error (hspec : reg.get command = some spec) {e : Failure}
    (h : spec.buildRequest T params (some client.plcSeries) = .error e) :
    makeFrame T reg client command params serial = .error e := by
  rw [makeFrame, makeRequest, hspec]
  dsimp only
  rw [h]
  rfl

theorem makeFrame_tooLong (serial : UInt16) (hspec : reg.get command = some spec) {data : Bytes}
    (hdata : spec.buildRequest T params (some client.plcSeries) = .ok data)
    (hlong : 65533 < data.length) :
    ∃ msg, makeFrame T reg client command params serial = protocolError msg := by
  obtain ⟨msg, herr⟩ := ((McRequest.new serial).withAccessRoute
    client.accessRoute).tryWithRequestData_error hlong
  refine ⟨msg, ?_⟩
  rw [makeFrame, makeRequest, hspec]
  dsimp only
  rw [hdata, ok_bind, herr]
  rfl

end McClient

end MelsecMc
