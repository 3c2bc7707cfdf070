/-
What a request is made of.

Every field only adds to what is written already, so a request that is built is its slots
written one after another (`buildRequest_isWritten`).  What can be said about one slot can
then be said about all of them: the bytes of a slot give its number back exactly when the
number fits (`numbersReadBack_iff`), because the writer cuts off what does not.

A slot is a field with where its value comes from: the params for a field of the request, an
entry for a field of a block.  A template without entries has no slots.  The checks that precede
the writers come out as conditions on the params (`buildRequest_eq_ok_iff`), and so does what
each writer can write (`Slot.write_ok_iff`), so that whether a request is built is a statement
about the params and nothing else.
-/
import MelsecMc.Lib.Checks
import MelsecMc.Proofs.BuildRequest
import MelsecMc.Spec.Slots

namespace MelsecMc

open Writers Checks

/-! ### Writers that only add

No writer looks at what is written already.  That is proved once for each, and is all that is
needed to take a request apart again.
-/

theorem adds_writeNBytes (n : Nat) (v : UInt64) (le : Bool) :
    Adds fun out => writeNBytes out n v le := by
  intro out
  dsimp only
  by_cases hn : n ≤ isizeMax
  · rw [writeNBytes_of_le hn, writeNBytes_of_le hn, List.nil_append]
    rfl
  · rw [writeNBytes_of_lt (Nat.lt_of_not_le hn), writeNBytes_of_lt (Nat.lt_of_not_le hn)]
    rfl

namespace CommandSpec

/-- What a number of an array comes to. -/
def numberItem (bound : Nat) (chunk : UInt64 → Bytes) (tooLarge : UInt64 → String)
    (notNumber : String) (item : JsonValue) : Except Failure Bytes :=
  match item.asU64 with
  | some num => if num.toNat < bound then .ok (chunk num) else protocolError (tooLarge num)
  | none => protocolError notNumber

/-- What a character of a string of hexadecimal digits comes to. -/
def hexItem (b : UInt8) : Except Failure Bytes :=
  if isAsciiHex b then .ok [b]
  else protocolError s!"payload string contains invalid ascii_hex byte: 0x{hex2 b}"

theorem numberItem_ok_iff {bound : Nat} {chunk : UInt64 → Bytes} {tooLarge : UInt64 → String}
    {notNumber : String} {item : JsonValue} :
    (∃ r, numberItem bound chunk tooLarge notNumber item = .ok r) ↔
      ∃ v, item.asU64 = some v ∧ v.toNat < bound := by
  unfold numberItem
  cases item.asU64 with
  | none =>
      refine ⟨?_, ?_⟩
      · rintro ⟨r, hr⟩
        cases hr
      · rintro ⟨v, hv, -⟩
        cases hv
  | some num =>
      dsimp only
      by_cases hlt : num.toNat < bound
      · rw [if_pos hlt]
        exact ⟨fun _ => ⟨num, rfl, hlt⟩, fun _ => ⟨_, rfl⟩⟩
      · rw [if_neg hlt]
        refine ⟨?_, ?_⟩
        · rintro ⟨r, hr⟩
          cases hr
        · rintro ⟨v, hv, hlt'⟩
          cases hv
          exact absurd hlt' hlt

theorem pushes_pushWords (le : Bool) (notNumber : String) :
    Pushes (numberItem 65536 (fun num => wordBytes le (UInt16.ofNat num.toNat))
      (fun num => s!"word array item out of range for u16: {num}") notNumber)
      (pushWords le notNumber) where
  nil out := rfl
  cons out item items := by
    rw [pushWords, numberItem]
    cases item.asU64 with
    | none => rfl
    | some num =>
        dsimp only
        split <;> rfl

theorem pushes_pushBytes (name : String) :
    Pushes (numberItem 256 (fun bv => [UInt8.ofNat bv.toNat])
      (fun bv => s!"payload item out of range for u8: {bv}") s!"payload item not number: {name}")
      (pushBytes name) where
  nil out := rfl
  cons out item items := by
    rw [pushBytes, numberItem]
    cases item.asU64 with
    | none => rfl
    | some bv =>
        dsimp only
        split <;> rfl

theorem pushes_pushAsciiHex : Pushes hexItem pushAsciiHex where
  nil out := rfl
  cons out b bytes := by
    rw [pushAsciiHex, hexItem]
    split <;> rfl

variable (spec : CommandSpec) (params : JsonValue) (plcSeries : Option PlcSeries)

/-- Each kind of field. -/
theorem adds_writeField (f : FieldSpec) : Adds (spec.writeField params plcSeries · f) := by
  unfold writeField
  cases f.kind with
  | fixedBytes n le =>
      simp only [writeFixedBytesField]
      cases spec.getNumField f.name params plcSeries with
      | error e => exact Adds.fail e
      | ok v => exact adds_writeNBytes _ v _
  | words le =>
      simp only [writeWordsField]
      cases (params.get f.name).bind JsonValue.asArray with
      | none => exact Adds.fail _
      | some arr => exact (pushes_pushWords le _).adds arr
  | bytes =>
      simp only [writeBytesField]
      cases (params.get f.name).bind JsonValue.asArray with
      | some arr => exact (pushes_pushBytes _).adds arr
      | none =>
          cases (params.get f.name).bind JsonValue.asStr with
          | some s => exact Adds.const _
          | none => exact Adds.skip
  | asciiHex =>
      simp only [writeAsciiHexField]
      cases (params.get f.name).bind JsonValue.asStr with
      | some s => exact pushes_pushAsciiHex.adds _
      | none =>
          cases (params.get f.name).bind JsonValue.asArray with
          | some arr => exact (pushes_pushBytes _).adds arr
          | none => exact Adds.skip

/-- Each kind of field of a block. -/
theorem adds_emitField (map : JsonMap) (f : FieldSpec) : Adds (emitField map plcSeries · f) := by
  unfold emitField
  cases f.kind with
  | fixedBytes n le =>
      simp only [emitFieldFixedBytes]
      cases (map.get f.name).bind JsonValue.asU64 with
      | none => exact Adds.fail _
      | some val => exact adds_writeNBytes _ val _
  | words le =>
      simp only [emitFieldWords]
      cases (map.get f.name).bind JsonValue.asArray with
      | some warr => exact (pushes_pushWords le _).adds warr
      | none =>
          cases (map.get f.name).bind JsonValue.asU64 with
          | none => exact Adds.fail _
          | some val =>
              by_cases hlt : val.toNat < 65536
              · simp only [if_pos hlt]
                exact Adds.const _
              · simp only [if_neg hlt]
                exact Adds.fail _
  | bytes => exact Adds.skip
  | asciiHex => exact Adds.skip

end CommandSpec

section Slots

variable {T : DeviceTable} {spec : CommandSpec} {params : JsonValue} {plcSeries : Option PlcSeries}

theorem Slot.adds_write (slot : Slot) : Adds (Slot.write spec params plcSeries · slot) := by
  obtain ⟨origin, field⟩ := slot
  cases origin with
  | request => exact CommandSpec.adds_writeField spec params plcSeries field
  | entry bt map => exact CommandSpec.adds_emitField plcSeries map field

/-! ### A request is its slots -/

/-- A loop that stops at everything but objects. -/
theorem foldlM_objects {step : Bytes → JsonValue → Except Failure Bytes}
    (write : Bytes → JsonMap → Except Failure Bytes)
    (hnone : ∀ out entry, entry.asObject = none → ∃ e, step out entry = .error e)
    (hsome : ∀ out entry map, entry.asObject = some map → step out entry = write out map)
    {arr : List JsonValue} : ∀ {out r : Bytes}, arr.foldlM step out = .ok r ↔
      (∀ entry ∈ arr, entry.asObject.isSome) ∧
        (arr.filterMap JsonValue.asObject).foldlM write out = .ok r := by
  induction arr with
  | nil =>
      intro out r
      rw [List.filterMap_nil]
      exact ⟨fun h => ⟨fun _ hmem => absurd hmem List.not_mem_nil, h⟩, fun h => h.2⟩
  | cons entry arr ih =>
      intro out r
      rw [List.foldlM_cons, bind_eq_ok, List.forall_mem_cons]
      cases hobject : entry.asObject with
      | none =>
          obtain ⟨e, he⟩ := hnone out entry hobject
          rw [he]
          constructor
          · rintro ⟨a, ha, -⟩
            cases ha
          · rintro ⟨⟨hentry, -⟩, -⟩
            exact absurd hentry (by simp)
      | some map =>
          rw [hsome out entry map hobject, List.filterMap_cons_some hobject, List.foldlM_cons,
            bind_eq_ok]
          constructor
          · rintro ⟨a, ha, hrest⟩
            obtain ⟨hobjects, hloop⟩ := ih.mp hrest
            exact ⟨⟨rfl, hobjects⟩, a, ha, hloop⟩
          · rintro ⟨⟨-, hobjects⟩, a, ha, hloop⟩
            exact ⟨a, ha, ih.mpr ⟨hobjects, hloop⟩⟩

/-- The blocks of a template are their slots. -/
theorem emitBlockTemplate_eq_ok_iff {bt : BlockTemplate} {out r : Bytes} :
    CommandSpec.emitBlockTemplate params plcSeries out bt = .ok r ↔ BlocksGiven params bt ∧
      (blockSlots params bt).foldlM (Slot.write spec params plcSeries) out = .ok r := by
  unfold CommandSpec.emitBlockTemplate BlocksGiven blockSlots blockEntries givenBlocks
  dsimp only
  cases (params.get (bt.name ++ "s")).bind JsonValue.asArray with
  | none =>
      constructor
      · intro h
        cases h
      · rintro ⟨⟨arr, harr, -⟩, -⟩
        cases harr
  | some arr =>
      dsimp only
      have hfields : (fun out map => (bt.fields.map fun f => (⟨.entry bt map, f⟩ : Slot)).foldlM
          (Slot.write spec params plcSeries) out) = fun out map =>
          bt.fields.foldlM (CommandSpec.emitField map plcSeries) out := by
        funext out map
        rw [List.foldlM_map]
        rfl
      rw [Option.getD_some, foldlM_flatMap, hfields, foldlM_objects
        (fun out map => bt.fields.foldlM (CommandSpec.emitField map plcSeries) out)
        (fun out entry hentry => ⟨_, by rw [hentry]; rfl⟩)
        (fun out entry map hentry => by rw [hentry])]
      constructor
      · rintro ⟨hobjects, hloop⟩
        exact ⟨⟨arr, rfl, hobjects⟩, hloop⟩
      · rintro ⟨⟨arr', harr, hobjects⟩, hloop⟩
        cases harr
        exact ⟨hobjects, hloop⟩

/-! ### The checks in front

The device codes are checked before the first byte is written, and the limits before the first
block.  These checks only say yes or no, so a request that is built is one they passed.
-/

/-- The check of a device code. -/
theorem decides_validateCode (T : DeviceTable) (spec : CommandSpec) (code : UInt64)
    (family : DeviceFamily) :
    Decides Failure.IsErr (CommandSpec.validateCodeForFamily T spec code family)
      (Admitted T family code) := by
  unfold CommandSpec.validateCodeForFamily Admitted
  by_cases hrange : 256 ≤ code.toNat
  · rw [if_pos hrange]
    exact Decides.fail (isErr_protocol _) fun h => by omega
  · rw [if_neg hrange]
    have hle : code.toNat ≤ 255 := by omega
    dsimp only
    cases T.deviceByCode (UInt8.ofNat code.toNat) with
    | none => exact Decides.pass ⟨hle, fun dev hdev => by cases hdev⟩
    | some dev =>
        dsimp only
        by_cases hadmits : CommandSpec.admits family dev.category = true
        · rw [if_pos hadmits]
          refine Decides.pass ⟨hle, fun dev' hdev => ?_⟩
          cases hdev
          exact hadmits
        · rw [if_neg hadmits]
          exact Decides.fail (isErr_protocol _) fun h => hadmits (h.2 dev rfl)

/-- A check of something that may not be there. -/
theorem decides_optional {check : UInt64 → Except Failure Unit} {holds : UInt64 → Prop}
    (o : Option UInt64) (h : ∀ a, Decides Failure.IsErr (check a) (holds a)) :
    Decides Failure.IsErr (match o with | some a => check a | none => pure ())
      (∀ a, o = some a → holds a) := by
  cases o with
  | none => exact Decides.pass fun a ha => by cases ha
  | some a =>
      refine (h a).congr ⟨?_, fun h => h a rfl⟩
      intro ha a' haa'
      cases haa'
      exact ha

/-- The codes are checked, and then come the fields. -/
theorem writeRequestFields_eq (T : DeviceTable) (spec : CommandSpec) (params : JsonValue)
    (plcSeries : Option PlcSeries) :
    ∃ check, Decides Failure.IsErr check (CodesFit T spec params) ∧
      ∀ out, CommandSpec.writeRequestFields T spec params plcSeries out =
        check >>= fun _ => spec.requestFields.foldlM (spec.writeField params plcSeries) out := by
  have hrequest := decides_optional ((params.get "device_code").bind JsonValue.asU64)
    fun code => decides_validateCode T spec code spec.deviceFamily
  have hentries := Decides.forM (l := spec.blockTemplates) fun bt _ =>
    Decides.forM (l := givenBlocks params (bt.name ++ "s")) fun entry _ =>
      decides_optional (entry.asObject.bind CommandSpec.deviceCodeOf) fun code =>
        decides_validateCode T spec code (bt.deviceFamily.getD spec.deviceFamily)
  refine ⟨_, (hrequest.seq hentries).congr ⟨fun h => ⟨h.1, h.2⟩, fun h => ⟨h.1, h.2⟩⟩, ?_⟩
  intro out
  unfold CommandSpec.writeRequestFields
  dsimp only
  cases (params.get "device_code").bind JsonValue.asU64 with
  | none => rfl
  | some code =>
      dsimp only
      cases CommandSpec.validateCodeForFamily T spec code spec.deviceFamily with
      | error e => rfl
      | ok u => rfl

/-- The blocks of all templates. -/
theorem emitBlocks_eq_ok_iff {templates : List BlockTemplate} : ∀ {out r : Bytes},
    templates.foldlM (CommandSpec.emitBlockTemplate params plcSeries) out = .ok r ↔
      (∀ bt ∈ templates, BlocksGiven params bt) ∧
        (templates.flatMap (blockSlots params)).foldlM (Slot.write spec params plcSeries) out =
          .ok r := by
  induction templates with
  | nil =>
      intro out r
      rw [List.flatMap_nil]
      exact ⟨fun h => ⟨fun _ hmem => absurd hmem List.not_mem_nil, h⟩, fun h => h.2⟩
  | cons bt templates ih =>
      intro out r
      rw [List.foldlM_cons, List.flatMap_cons, List.foldlM_append, bind_eq_ok, bind_eq_ok,
        List.forall_mem_cons]
      constructor
      · rintro ⟨mid, hmid, hrest⟩
        obtain ⟨hgiven, hslots⟩ := emitBlockTemplate_eq_ok_iff.mp hmid
        obtain ⟨hall, hmore⟩ := ih.mp hrest
        exact ⟨⟨hgiven, hall⟩, mid, hslots, hmore⟩
      · rintro ⟨⟨hgiven, hall⟩, mid, hslots, hmore⟩
        exact ⟨mid, emitBlockTemplate_eq_ok_iff.mpr ⟨hgiven, hslots⟩, ih.mpr ⟨hall, hmore⟩⟩

/-- **When a request is built**, and what it is: the codes fit, the limits are kept, the block
lists are there, and every slot can be written. -/
theorem buildRequest_eq_ok_iff {out : Bytes} :
    spec.buildRequest T params plcSeries = .ok out ↔
      (CodesFit T spec params ∧ CommandSpec.validateBlockLimits T spec params = .ok () ∧
        ∀ bt ∈ spec.blockTemplates, BlocksGiven params bt) ∧
      (slots spec params).foldlM (Slot.write spec params plcSeries) [] = .ok out := by
  obtain ⟨check, hcheck, hfields⟩ := writeRequestFields_eq T spec params plcSeries
  have hrequest : ∀ start, (requestSlots spec).foldlM (Slot.write spec params plcSeries) start =
      spec.requestFields.foldlM (spec.writeField params plcSeries) start := by
    intro start
    rw [requestSlots, List.foldlM_map]
    rfl
  rw [CommandSpec.buildRequest, hfields, slots, List.foldlM_append, hrequest]
  constructor
  · intro h
    obtain ⟨fields, hwritten, hblocks⟩ := bind_eq_ok.mp h
    obtain ⟨u, hok, hwritten⟩ := bind_eq_ok.mp hwritten
    obtain ⟨u', hlimits, hemit⟩ := bind_eq_ok.mp hblocks
    obtain ⟨hgiven, hslots⟩ := emitBlocks_eq_ok_iff.mp hemit
    exact ⟨⟨hcheck.ok_iff.mp hok, hlimits, hgiven⟩, bind_eq_ok.mpr ⟨fields, hwritten, hslots⟩⟩
  · rintro ⟨⟨hcodes, hlimits, hgiven⟩, hslots⟩
    obtain ⟨fields, hwritten, hslots⟩ := bind_eq_ok.mp hslots
    rw [hcheck.ok_iff.mpr hcodes, ok_bind, hwritten, ok_bind, CommandSpec.appendBlocks, hlimits,
      ok_bind]
    exact emitBlocks_eq_ok_iff.mpr ⟨hgiven, hslots⟩

/-- A request that is built is its slots, one after another. -/
theorem buildRequest_isWritten {out : Bytes}
    (hout : spec.buildRequest T params plcSeries = .ok out) :
    ∃ chunks, IsWritten spec params plcSeries out chunks := by
  obtain ⟨-, hslots⟩ := buildRequest_eq_ok_iff.mp hout
  obtain ⟨chunks, hchunks, hjoined⟩ :=
    (foldlM_eq_ok_iff fun slot _ => slot.adds_write).mp hslots
  exact ⟨chunks, hchunks, hjoined⟩

/-- With a code that is not admitted nothing is built. -/
theorem buildRequest_codes (h : ¬ CodesFit T spec params) :
    ∃ msg, spec.buildRequest T params plcSeries = protocolError msg := by
  obtain ⟨check, hcheck, hfields⟩ := writeRequestFields_eq T spec params plcSeries
  obtain ⟨e, ⟨⟨msg⟩, rfl⟩, he⟩ := hcheck.fails h
  refine ⟨msg, ?_⟩
  rw [CommandSpec.buildRequest, hfields, he]
  rfl

/-! ### One slot -/

theorem numberOf_writeNBytes {n : Nat} {v : UInt64} {le : Bool} {chunk : Bytes}
    (h : writeNBytes [] n v le = .ok chunk) :
    chunk.length = n ∧ numberOf le chunk = v.toNat % 256 ^ n := by
  obtain ⟨-, rfl⟩ := writeNBytes_eq_ok.mp h
  rw [List.nil_append, numberOf, numberBytes]
  cases le with
  | true =>
      rw [if_pos rfl, if_pos rfl]
      exact ⟨LittleEndian.length_bytes n _, LittleEndian.value_bytes n _⟩
  | false =>
      rw [if_neg Bool.false_ne_true, if_neg Bool.false_ne_true, List.length_reverse,
        List.reverse_reverse]
      exact ⟨LittleEndian.length_bytes n _, LittleEndian.value_bytes n _⟩

/-- The number of a field of the request. -/
theorem Slot.value_request {f : FieldSpec} {v : UInt64} :
    Slot.value spec params plcSeries ⟨.request, f⟩ = some v ↔
      spec.getNumField f.name params plcSeries = .ok v := by
  show (spec.getNumField f.name params plcSeries).toOption = some v ↔ _
  cases spec.getNumField f.name params plcSeries with
  | error e => exact ⟨fun h => (by cases h), fun h => (by cases h)⟩
  | ok v' => exact ⟨fun h => (by cases h; rfl), fun h => (by cases h; rfl)⟩

/-- A slot of fixed width writes the number it is given, in its width and byte order. -/
theorem Slot.write_width {slot : Slot} {w : Nat} {le : Bool}
    (hwidth : slot.width plcSeries = some (w, le)) {chunk : Bytes}
    (hchunk : Slot.write spec params plcSeries [] slot = .ok chunk) :
    ∃ v, slot.value spec params plcSeries = some v ∧ writeNBytes [] w v le = .ok chunk := by
  obtain ⟨origin, name, kind⟩ := slot
  cases kind with
  | fixedBytes n le' =>
      cases origin with
      | request =>
          have hw : requestFieldWidth name n le' plcSeries = (w, le) := Option.some.inj hwidth
          obtain ⟨v, hv, -⟩ := bind_eq_ok.mp
            (show spec.writeFixedBytesField name n le' params plcSeries [] = _ from hchunk)
          have hbytes : spec.writeField params plcSeries [] ⟨name, .fixedBytes n le'⟩ = _ :=
            CommandSpec.writeField_fixedBytes hv []
          rw [hw] at hbytes
          exact ⟨v, Slot.value_request.mpr hv, hbytes.symm.trans hchunk⟩
      | entry bt map =>
          have hw : blockFieldWidth name n le' plcSeries = (w, le) := Option.some.inj hwidth
          have hemit : CommandSpec.emitFieldFixedBytes name n le' map plcSeries [] = .ok chunk :=
            hchunk
          unfold CommandSpec.emitFieldFixedBytes at hemit
          rw [hw] at hemit
          cases hv : (map.get name).bind JsonValue.asU64 with
          | none =>
              rw [hv] at hemit
              cases hemit
          | some v =>
              rw [hv] at hemit
              exact ⟨v, hv, hemit⟩
  | words le' => cases hwidth
  | bytes => cases hwidth
  | asciiHex => cases hwidth

/-! ### When a slot can be written

For each writer, the values it can write.
-/

namespace CommandSpec

theorem pushWords_ok_iff {le : Bool} {notNumber : String} (items : List JsonValue) (out : Bytes) :
    (∃ r, pushWords le notNumber out items = .ok r) ↔ Slot.AllBelow 65536 items := by
  rw [(pushes_pushWords le notNumber).ok_iff items out]
  exact forall₂_congr fun item _ => numberItem_ok_iff

theorem pushBytes_ok_iff {name : String} (items : List JsonValue) (out : Bytes) :
    (∃ r, pushBytes name out items = .ok r) ↔ Slot.AllBelow 256 items := by
  rw [(pushes_pushBytes name).ok_iff items out]
  exact forall₂_congr fun item _ => numberItem_ok_iff

theorem pushAsciiHex_ok_iff (bytes : Bytes) (out : Bytes) :
    (∃ r, pushAsciiHex out bytes = .ok r) ↔ ∀ b ∈ bytes, isAsciiHex b = true := by
  rw [pushes_pushAsciiHex.ok_iff bytes out]
  refine forall₂_congr fun b _ => ?_
  unfold hexItem
  by_cases hhex : isAsciiHex b = true
  · rw [if_pos hhex]
    exact ⟨fun _ => hhex, fun _ => ⟨_, rfl⟩⟩
  · rw [if_neg hhex]
    refine ⟨?_, fun h => absurd h hhex⟩
    rintro ⟨r, hr⟩
    cases hr

theorem asArray_of_asStr {value : JsonValue} {s : String} (h : value.asStr = some s) :
    value.asArray = none := by
  cases value with
  | string s => rfl
  | _ => cases h

theorem asU64_of_asArray {value : JsonValue} {arr : List JsonValue}
    (h : value.asArray = some arr) : value.asU64 = none := by
  cases value with
  | array items => rfl
  | _ => cases h

theorem writeWordsField_ok_iff {name : String} {le : Bool} :
    (∃ chunk, writeWordsField name le params [] = .ok chunk) ↔
      ∃ arr, (params.get name).bind JsonValue.asArray = some arr ∧ Slot.AllBelow 65536 arr := by
  unfold writeWordsField
  cases (params.get name).bind JsonValue.asArray with
  | none => exact ⟨fun ⟨_, h⟩ => (by cases h), fun ⟨_, h, _⟩ => (by cases h)⟩
  | some arr =>
      refine (pushWords_ok_iff arr []).trans ⟨fun h => ⟨arr, rfl, h⟩, ?_⟩
      rintro ⟨arr', harr, h⟩
      cases harr
      exact h

/-- What is no array is written as it is, or not at all. -/
theorem writeBytesField_ok_iff {name : String} :
    (∃ chunk, writeBytesField name params [] = .ok chunk) ↔
      ∀ arr, (params.get name).bind JsonValue.asArray = some arr → Slot.AllBelow 256 arr := by
  unfold writeBytesField
  cases (params.get name).bind JsonValue.asArray with
  | none =>
      cases (params.get name).bind JsonValue.asStr with
      | none => exact ⟨fun _ arr h => (by cases h), fun _ => ⟨_, rfl⟩⟩
      | some s => exact ⟨fun _ arr h => (by cases h), fun _ => ⟨_, rfl⟩⟩
  | some arr =>
      refine (pushBytes_ok_iff arr []).trans ⟨fun h arr' harr => ?_, fun h => h arr rfl⟩
      cases harr
      exact h

theorem writeAsciiHexField_ok_iff {name : String} :
    (∃ chunk, writeAsciiHexField name params [] = .ok chunk) ↔
      (∀ s, (params.get name).bind JsonValue.asStr = some s →
        ∀ b ∈ asBytes s, isAsciiHex b = true) ∧
      ∀ arr, (params.get name).bind JsonValue.asArray = some arr → Slot.AllBelow 256 arr := by
  unfold writeAsciiHexField
  cases params.get name with
  | none =>
      exact ⟨fun _ => ⟨fun s h => (by cases h), fun arr h => (by cases h)⟩, fun _ => ⟨_, rfl⟩⟩
  | some value =>
      rw [Option.bind_some, Option.bind_some]
      cases hstr : value.asStr with
      | some s =>
          have harray : value.asArray = none := asArray_of_asStr hstr
          rw [harray]
          refine (pushAsciiHex_ok_iff (asBytes s) []).trans ⟨fun h => ?_, fun h => h.1 s rfl⟩
          refine ⟨fun s' hs => ?_, fun arr harr => (by cases harr)⟩
          cases hs
          exact h
      | none =>
          cases value.asArray with
          | none =>
              exact ⟨fun _ => ⟨fun s h => (by cases h), fun arr h => (by cases h)⟩,
                fun _ => ⟨_, rfl⟩⟩
          | some arr =>
              refine (pushBytes_ok_iff arr []).trans ⟨fun h => ?_, fun h => h.2 arr rfl⟩
              refine ⟨fun s hs => (by cases hs), fun arr' harr => ?_⟩
              cases harr
              exact h

/-- A field of words in a block takes a single number as well. -/
theorem emitFieldWords_ok_iff {name : String} {le : Bool} {map : JsonMap} :
    (∃ chunk, emitFieldWords name le map [] = .ok chunk) ↔
      (∃ arr, (map.get name).bind JsonValue.asArray = some arr ∧ Slot.AllBelow 65536 arr) ∨
        ∃ v, (map.get name).bind JsonValue.asU64 = some v ∧ v.toNat < 65536 := by
  unfold emitFieldWords
  cases map.get name with
  | none =>
      refine ⟨fun ⟨_, h⟩ => (by cases h), ?_⟩
      rintro (⟨_, h, _⟩ | ⟨_, h, _⟩)
      · cases h
      · cases h
  | some value =>
      rw [Option.bind_some, Option.bind_some]
      cases harray : value.asArray with
      | some arr =>
          have hnumber : value.asU64 = none := asU64_of_asArray harray
          rw [hnumber]
          refine (pushWords_ok_iff arr []).trans ⟨fun h => .inl ⟨arr, rfl, h⟩, ?_⟩
          rintro (⟨arr', harr, h⟩ | ⟨v, hv, -⟩)
          · cases harr
            exact h
          · cases hv
      | none =>
          cases value.asU64 with
          | none =>
              refine ⟨fun ⟨_, h⟩ => (by cases h), ?_⟩
              rintro (⟨_, h, _⟩ | ⟨_, h, _⟩)
              · cases h
              · cases h
          | some v =>
              dsimp only
              by_cases hlt : v.toNat < 65536
              · rw [if_pos hlt]
                exact ⟨fun _ => .inr ⟨v, rfl, hlt⟩, fun _ => ⟨_, rfl⟩⟩
              · rw [if_neg hlt]
                refine ⟨fun ⟨_, h⟩ => (by cases h), ?_⟩
                rintro (⟨_, h, _⟩ | ⟨v', hv, hlt'⟩)
                · cases h
                · cases hv
                  exact absurd hlt' hlt

end CommandSpec

/-- A number can be written exactly when there can be a vector for it. -/
theorem writeNBytes_ok_iff {width : Nat × Bool} {v : UInt64} :
    (∃ chunk, writeNBytes [] width.1 v width.2 = .ok chunk) ↔
      ∀ w le, some width = some (w, le) → w ≤ isizeMax := by
  constructor
  · rintro ⟨chunk, hchunk⟩ w le hwidth
    cases hwidth
    exact (writeNBytes_eq_ok.mp hchunk).1
  · intro h
    exact ⟨_, writeNBytes_of_le (h width.1 width.2 rfl) [] v width.2⟩

/-- A field of the request can be written exactly when there is a value for it. -/
theorem writeField_ok_iff (f : FieldSpec) :
    (∃ chunk, spec.writeField params plcSeries [] f = .ok chunk) ↔
      Slot.Writable spec params plcSeries ⟨.request, f⟩ := by
  obtain ⟨name, kind⟩ := f
  unfold CommandSpec.writeField Slot.Writable
  cases kind with
  | fixedBytes n le =>
      dsimp only [Slot.value]
      unfold CommandSpec.writeFixedBytesField
      cases spec.getNumField name params plcSeries with
      | error e => exact ⟨fun ⟨_, h⟩ => (by cases h), fun ⟨⟨_, h⟩, _⟩ => (by cases h)⟩
      | ok v => exact writeNBytes_ok_iff.trans ⟨fun h => ⟨⟨v, rfl⟩, h⟩, And.right⟩
  | words le => exact CommandSpec.writeWordsField_ok_iff
  | bytes => exact CommandSpec.writeBytesField_ok_iff
  | asciiHex => exact CommandSpec.writeAsciiHexField_ok_iff

/-- A field of a block can be written exactly when there is a value for it. -/
theorem emitField_ok_iff (bt : BlockTemplate) (map : JsonMap) (f : FieldSpec) :
    (∃ chunk, CommandSpec.emitField map plcSeries [] f = .ok chunk) ↔
      Slot.Writable spec params plcSeries ⟨.entry bt map, f⟩ := by
  obtain ⟨name, kind⟩ := f
  unfold CommandSpec.emitField Slot.Writable
  cases kind with
  | fixedBytes n le =>
      dsimp only [Slot.value]
      unfold CommandSpec.emitFieldFixedBytes
      cases (map.get name).bind JsonValue.asU64 with
      | none => exact ⟨fun ⟨_, h⟩ => (by cases h), fun ⟨⟨_, h⟩, _⟩ => (by cases h)⟩
      | some v => exact writeNBytes_ok_iff.trans ⟨fun h => ⟨⟨v, rfl⟩, h⟩, And.right⟩
  | words le => exact CommandSpec.emitFieldWords_ok_iff
  | bytes => exact ⟨fun _ => trivial, fun _ => ⟨[], rfl⟩⟩
  | asciiHex => exact ⟨fun _ => trivial, fun _ => ⟨[], rfl⟩⟩

/-- A slot can be written exactly when there is a value for it. -/
theorem Slot.write_ok_iff (slot : Slot) :
    (∃ chunk, Slot.write spec params plcSeries [] slot = .ok chunk) ↔
      slot.Writable spec params plcSeries := by
  obtain ⟨origin, f⟩ := slot
  cases origin with
  | request => exact writeField_ok_iff f
  | entry bt map => exact emitField_ok_iff bt map f

end Slots

end MelsecMc
