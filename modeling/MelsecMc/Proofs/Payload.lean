/-
What the fields of bytes write.

A value stands for bytes in two forms: an array of their numbers, and a string.  `Payload` says
which value stands for which bytes in which kind of field, and that is what the encoder writes
(`writeField_form_iff`).  The string of an `ascii_hex` field is checked for hexadecimal digits
and the array is not, while the decoder checks whatever comes: so what is written comes back
exactly when an array holds digits only (`ascii_hex_round_trip_iff`).
-/
import MelsecMc.ParseResponse
import MelsecMc.Proofs.BuildRequest

namespace MelsecMc

/-- The bytes a value stands for, in a field of this kind. -/
inductive Payload : FieldKind → JsonValue → Bytes → Prop
  | array {kind : FieldKind} (hkind : kind = .bytes ∨ kind = .asciiHex) (w : Bytes) :
      Payload kind (.array (w.map fun b => .ofNat b.toNat)) w
  | text (s : String) : Payload .bytes (.string s) (asBytes s)
  | digits {s : String} (h : ∀ b ∈ asBytes s, CommandSpec.isAsciiHex b = true) :
      Payload .asciiHex (.string s) (asBytes s)

/-- An array or a string. -/
def HasForm (v : JsonValue) : Prop :=
  (∃ items, v = .array items) ∨ ∃ s, v = .string s

theorem hasForm_of_payload {kind : FieldKind} {v : JsonValue} {w : Bytes} (h : Payload kind v w) :
    HasForm v := by
  cases h with
  | array hkind w => exact .inl ⟨_, rfl⟩
  | text s => exact .inr ⟨_, rfl⟩
  | digits h => exact .inr ⟨_, rfl⟩

theorem not_hasForm {v : JsonValue} (h : ¬ HasForm v) : v.asArray = none ∧ v.asStr = none := by
  cases v with
  | array items => exact absurd (.inl ⟨_, rfl⟩) h
  | string s => exact absurd (.inr ⟨_, rfl⟩) h
  | _ => exact ⟨rfl, rfl⟩

/-! ### Strings and their bytes

A string in a field of bytes stands for its UTF-8 bytes, and no two strings have the same
ones.
-/

theorem toByteArray_asBytes (s : String) : (asBytes s).toByteArray = s.toByteArray := by
  rw [asBytes, ← List.utf8Encode, ← String.toByteArray_ofList, String.ofList_toList]

/-- A string is determined by its bytes. -/
theorem asBytes_inj {s t : String} (h : asBytes s = asBytes t) : s = t := by
  rw [← String.toByteArray_inj, ← toByteArray_asBytes, ← toByteArray_asBytes, h]

/-- The characters with these codes. -/
def asciiString (w : Bytes) : String :=
  String.ofList (w.map fun b => Char.ofNat b.toNat)

theorem utf8EncodeChar_ascii : ∀ n < 128,
    String.utf8EncodeChar (Char.ofNat n) = [UInt8.ofNat n] := by
  decide

theorem asBytes_asciiString {w : Bytes} (h : ∀ b ∈ w, b.toNat < 128) :
    asBytes (asciiString w) = w := by
  rw [asBytes, asciiString, String.toList_ofList]
  induction w with
  | nil => rfl
  | cons b w ih =>
      obtain ⟨hb, hw⟩ := List.forall_mem_cons.mp h
      rw [List.map_cons, List.flatMap_cons, utf8EncodeChar_ascii _ hb, UInt8.ofNat_toNat, ih hw]
      rfl

namespace CommandSpec

theorem isAsciiHex_lt {b : UInt8} (h : isAsciiHex b = true) : b.toNat < 128 := by
  rcases of_decide_eq_true h with ⟨-, h⟩ | ⟨-, h⟩ | ⟨-, h⟩
  · have hle : b.toNat ≤ 0x39 := UInt8.le_iff_toNat_le.mp h
    omega
  · have hle : b.toNat ≤ 0x46 := UInt8.le_iff_toNat_le.mp h
    omega
  · have hle : b.toNat ≤ 0x66 := UInt8.le_iff_toNat_le.mp h
    omega

/-! ### The encoder -/

theorem asU64_eq_some_iff {item : JsonValue} {n : UInt64} :
    item.asU64 = some n ↔ item = .posInt n := by
  cases item <;> simp [JsonValue.asU64]

/-- An array is written when its items are bytes. -/
theorem pushBytes_eq_ok_iff {name : String} {items : List JsonValue} : ∀ {out r : Bytes},
    pushBytes name out items = .ok r ↔
      ∃ w : Bytes, items = w.map (fun b => .ofNat b.toNat) ∧ r = out ++ w := by
  intro out r
  constructor
  · induction items generalizing out with
    | nil =>
        intro h
        rw [pushBytes, Except.ok.injEq] at h
        exact ⟨[], rfl, by rw [← h, List.append_nil]⟩
    | cons item items ih =>
        intro h
        rw [pushBytes] at h
        cases hitem : item.asU64 with
        | none =>
            rw [hitem] at h
            cases h
        | some n =>
            rw [hitem] at h
            dsimp only at h
            by_cases hlt : n.toNat < 256
            · rw [if_pos hlt] at h
              obtain ⟨w, rfl, rfl⟩ := ih h
              refine ⟨UInt8.ofNat n.toNat :: w, ?_, ?_⟩
              · rw [List.map_cons, UInt8.toNat_ofNat', Nat.mod_eq_of_lt hlt, JsonValue.ofNat,
                  UInt64.ofNat_toNat, asU64_eq_some_iff.mp hitem]
              · rw [List.append_assoc, List.singleton_append]
            · rw [if_neg hlt] at h
              cases h
  · rintro ⟨w, rfl, rfl⟩
    exact pushBytes_map name w out

theorem pushAsciiHex_eq_ok_iff {bs : Bytes} : ∀ {out r : Bytes},
    pushAsciiHex out bs = .ok r ↔ (∀ b ∈ bs, isAsciiHex b = true) ∧ r = out ++ bs := by
  induction bs with
  | nil =>
      intro out r
      rw [pushAsciiHex, Except.ok.injEq, List.append_nil]
      exact ⟨fun h => ⟨fun b hb => absurd hb List.not_mem_nil, h.symm⟩, fun h => h.2.symm⟩
  | cons b bs ih =>
      intro out r
      rw [pushAsciiHex, List.forall_mem_cons]
      by_cases hhex : isAsciiHex b = true
      · rw [if_pos hhex, ih, List.append_assoc, List.singleton_append]
        exact ⟨fun h => ⟨⟨hhex, h.1⟩, h.2⟩, fun h => ⟨h.1.2, h.2⟩⟩
      · rw [if_neg hhex]
        exact ⟨fun h => (by cases h), fun h => absurd h.1.1 hhex⟩

variable {spec : CommandSpec} {params : JsonValue} {plcSeries : Option PlcSeries}

/-- A value of neither form is passed over. -/
theorem writeField_noForm {name : String} {kind : FieldKind}
    (hkind : kind = .bytes ∨ kind = .asciiHex) (hnone : ∀ v, params.get name = some v → ¬ HasForm v)
    (out : Bytes) : spec.writeField params plcSeries out ⟨name, kind⟩ = .ok out := by
  have harray : (params.get name).bind JsonValue.asArray = none :=
    Option.bind_eq_none_iff.mpr fun v hv => (not_hasForm (hnone v hv)).1
  have hstr : (params.get name).bind JsonValue.asStr = none :=
    Option.bind_eq_none_iff.mpr fun v hv => (not_hasForm (hnone v hv)).2
  rcases hkind with rfl | rfl
  · show writeBytesField name params out = _
    rw [writeBytesField, harray, hstr]
  · show writeAsciiHexField name params out = _
    rw [writeAsciiHexField, hstr, harray]

/-- Of an array or a string the bytes it stands for are written. -/
theorem writeField_form_iff {name : String} {kind : FieldKind} {v : JsonValue}
    (hkind : kind = .bytes ∨ kind = .asciiHex) (hv : params.get name = some v) (hform : HasForm v)
    {out r : Bytes} :
    spec.writeField params plcSeries out ⟨name, kind⟩ = .ok r ↔
      ∃ w, Payload kind v w ∧ r = out ++ w := by
  have harrays : ∀ items, pushBytes name out items = .ok r ↔
      ∃ w, Payload kind (.array items) w ∧ r = out ++ w := by
    intro items
    rw [pushBytes_eq_ok_iff]
    refine exists_congr fun w => and_congr_left fun _ => ⟨?_, ?_⟩
    · rintro rfl
      exact .array hkind w
    · intro h
      cases h
      rfl
  rcases hform with ⟨items, rfl⟩ | ⟨s, rfl⟩
  · rw [← harrays]
    rcases hkind with rfl | rfl
    · show writeBytesField name params out = _ ↔ _
      rw [writeBytesField, hv]
      rfl
    · show writeAsciiHexField name params out = _ ↔ _
      rw [writeAsciiHexField, hv]
      rfl
  · rcases hkind with rfl | rfl
    · show writeBytesField name params out = _ ↔ _
      rw [writeBytesField, hv]
      show Except.ok (out ++ asBytes s) = _ ↔ _
      rw [Except.ok.injEq]
      constructor
      · exact fun h => ⟨_, .text s, h.symm⟩
      · rintro ⟨w, hw, rfl⟩
        cases hw
        rfl
    · show writeAsciiHexField name params out = _ ↔ _
      rw [writeAsciiHexField, hv]
      show pushAsciiHex out (asBytes s) = _ ↔ _
      rw [pushAsciiHex_eq_ok_iff]
      constructor
      · exact fun h => ⟨_, .digits h.1, h.2⟩
      · rintro ⟨w, hw, rfl⟩
        cases hw with
        | digits h => exact ⟨h, rfl⟩

/-! ### The decoder -/

/-- Hexadecimal digits come back as their string. -/
theorem parseAsciiHexEntry_digits (name : String) {q : Bytes}
    (h : ∀ b ∈ q, isAsciiHex b = true) :
    parseAsciiHexEntry name q ⟨0, []⟩ =
      .ok { offset := q.length, resultMap := [(name, .string (asciiString q))] } := by
  have hnone : q.find? (fun b => !isAsciiHex b) = none := by
    rw [List.find?_eq_none]
    intro b hb
    rw [h b hb]
    decide
  rw [parseAsciiHexEntry, if_neg (Nat.not_lt_zero _)]
  dsimp only
  rw [List.drop_zero, hnone]
  rfl

end CommandSpec

/-! ### An echo

What is sent must come back: the bytes behind the command are digits, and the answer that
carries them is parsed to the string they spell.
-/

/-- A command that sends hexadecimal digits and is answered with some. -/
def asciiHexSpec (id : Command) (name : Option NameField) (commandCode : UInt16)
    (subcommand : Option SubcommandSpec) (deviceFamily : DeviceFamily) (limits : Option Limits) :
    CommandSpec where
  id
  name
  commandCode
  subcommand
  deviceFamily
  requestFields := [⟨"command", .fixedBytes 2 false⟩, ⟨"subcommand", .fixedBytes 2 false⟩,
    ⟨"payload", .asciiHex⟩]
  responseFormat := ["payload:ascii_hex"]
  responseEntries := [.asciiHex "payload"]
  blockTemplates := []
  limits

/-- The data behind the four command bytes are digits, and as a response they are accepted and
returned, as the string that was sent if it was one. -/
structure ComesBack (T : DeviceTable) (spec : CommandSpec) (params : JsonValue) (q : Bytes) :
    Prop where
  digits : ∀ b ∈ q, CommandSpec.isAsciiHex b = true
  returned : ∃ s, asBytes s = q ∧
    spec.parseResponse T params q = .ok (.object [("payload", .string s)]) ∧
    ∀ given, params.get "payload" = some (.string given) → s = given

section Echo

variable {T : DeviceTable} {id : Command} {name : Option NameField} {commandCode : UInt16}
  {subcommand : Option SubcommandSpec} {deviceFamily : DeviceFamily} {limits : Option Limits}
  {params : JsonValue} {plcSeries : Option PlcSeries}

/-- The request is four bytes and the payload. -/
theorem buildRequest_asciiHex {out : Bytes}
    (hout : (asciiHexSpec id name commandCode subcommand deviceFamily limits).buildRequest T params
      plcSeries = .ok out) :
    ∃ header, header.length = 4 ∧
      (asciiHexSpec id name commandCode subcommand deviceFamily limits).writeField params plcSeries
        header ⟨"payload", .asciiHex⟩ = .ok out := by
  obtain ⟨fields, hfields, hblocks⟩ := CommandSpec.buildRequest_eq_ok hout
  cases hblocks
  rw [asciiHexSpec, List.foldlM_cons, CommandSpec.writeField_command, ok_bind, List.foldlM_cons,
    CommandSpec.writeField_subcommand, ok_bind, List.foldlM_cons] at hfields
  obtain ⟨payload, hpayload, hnil⟩ := bind_eq_ok.mp hfields
  cases hnil
  refine ⟨_, ?_, hpayload⟩
  rw [List.nil_append, List.length_append, LittleEndian.length_bytes, LittleEndian.length_bytes]

theorem parseResponse_asciiHex {q : Bytes} (h : ∀ b ∈ q, CommandSpec.isAsciiHex b = true) :
    (asciiHexSpec id name commandCode subcommand deviceFamily limits).parseResponse T params q =
      .ok (.object [("payload", .string (asciiString q))]) := by
  rw [CommandSpec.parseResponse, asciiHexSpec, List.foldlM_cons]
  show (CommandSpec.parseAsciiHexEntry "payload" q ⟨0, []⟩ >>= _) >>= _ = _
  rw [CommandSpec.parseAsciiHexEntry_digits "payload" h]
  rfl

/-- Digits come back. -/
theorem comesBack_of_digits {q : Bytes} (h : ∀ b ∈ q, CommandSpec.isAsciiHex b = true)
    (hgiven : ∀ given, params.get "payload" = some (.string given) → asBytes given = q) :
    ComesBack T (asciiHexSpec id name commandCode subcommand deviceFamily limits) params q := by
  have hbytes : asBytes (asciiString q) = q :=
    asBytes_asciiString fun b hb => CommandSpec.isAsciiHex_lt (h b hb)
  refine ⟨h, asciiString q, hbytes, parseResponse_asciiHex h, fun given hget => ?_⟩
  exact asBytes_inj (hbytes.trans (hgiven given hget).symm)

theorem ofNat_toNat_inj {b b' : UInt8} (h : JsonValue.ofNat b.toNat = .ofNat b'.toNat) :
    b = b' := by
  rw [JsonValue.ofNat, JsonValue.ofNat, JsonValue.posInt.injEq] at h
  rw [← UInt8.toNat_inj, ← toNat_ofNat_u8 b, h, toNat_ofNat_u8]

/-- **What is sent comes back exactly when the payload, if it is an array, is one of digits.** -/
theorem ascii_hex_round_trip_iff {out : Bytes}
    (hout : (asciiHexSpec id name commandCode subcommand deviceFamily limits).buildRequest T params
      plcSeries = .ok out) :
    ComesBack T (asciiHexSpec id name commandCode subcommand deviceFamily limits) params
        (out.drop 4) ↔
      ∀ items, params.get "payload" = some (.array items) →
        ∀ b : UInt8, .ofNat b.toNat ∈ items → CommandSpec.isAsciiHex b = true := by
  obtain ⟨header, hlen, hpayload⟩ := buildRequest_asciiHex hout
  by_cases hform : ∃ v, params.get "payload" = some v ∧ HasForm v
  · obtain ⟨v, hv, hform⟩ := hform
    obtain ⟨w, hw, rfl⟩ := (CommandSpec.writeField_form_iff (.inr rfl) hv hform).mp hpayload
    rw [List.drop_left' hlen, hv]
    cases hw with
    | array hkind w =>
        constructor
        · intro h items hitems b hb
          cases hitems
          obtain ⟨b', hb', heq⟩ := List.mem_map.mp hb
          rw [← ofNat_toNat_inj heq]
          exact h.digits b' hb'
        · intro h
          refine comesBack_of_digits (fun b hb => h _ rfl b ?_) fun given hget => ?_
          · exact List.mem_map.mpr ⟨b, hb, rfl⟩
          · rw [hv] at hget
            cases hget
    | digits hdigits =>
        constructor
        · intro _ items hitems
          cases hitems
        · intro _
          refine comesBack_of_digits hdigits fun given hget => ?_
          rw [hv] at hget
          cases hget
          rfl
  · have hnone : ∀ v, params.get "payload" = some v → ¬ HasForm v :=
      fun v hv hform' => hform ⟨v, hv, hform'⟩
    rw [CommandSpec.writeField_noForm (.inr rfl) hnone, Except.ok.injEq] at hpayload
    rw [← hpayload, List.drop_of_length_le (Nat.le_of_eq hlen)]
    constructor
    · intro _ items hitems
      exact absurd (.inl ⟨items, rfl⟩) (hnone _ hitems)
    · intro _
      refine comesBack_of_digits (fun b hb => absurd hb List.not_mem_nil) fun given hget => ?_
      exact absurd (.inr ⟨given, rfl⟩) (hnone _ hget)

end Echo

/-- The shipped echo. -/
def echoSpec : CommandSpec := asciiHexSpec .echo rawEcho.name 0x0619 none .any none

def noDevices : DeviceTable := ⟨[], fun _ => ""⟩

/-- A payload. -/
def payloadParams (v : JsonValue) : JsonValue := .object [("payload", v)]

theorem ascii_hex_round_trip_iff_beef :
    ComesBack noDevices echoSpec (payloadParams (.string "BeEF"))
        ([0x19, 0x06, 0x00, 0x00, 0x42, 0x65, 0x45, 0x46].drop 4) ↔
      ∀ items, (payloadParams (.string "BeEF")).get "payload" = some (.array items) →
        ∀ b : UInt8, .ofNat b.toNat ∈ items → CommandSpec.isAsciiHex b = true :=
  ascii_hex_round_trip_iff (show echoSpec.buildRequest noDevices
    (payloadParams (.string "BeEF")) none = _ by decide +kernel)

/-- A byte that is no digit is sent, and refused when it is echoed. -/
theorem ascii_hex_round_trip_fails :
    shippedRegistry.get .echo = some echoSpec ∧
      echoSpec.buildRequest noDevices (payloadParams (.array [.ofNat 0])) none =
        .ok [0x19, 0x06, 0x00, 0x00, 0x00] ∧
      ¬ ComesBack noDevices echoSpec (payloadParams (.array [.ofNat 0])) [0x00] := by
  refine ⟨by decide +kernel, by decide +kernel, fun h => ?_⟩
  exact absurd (h.digits 0x00 (by decide)) (by decide)

end MelsecMc
