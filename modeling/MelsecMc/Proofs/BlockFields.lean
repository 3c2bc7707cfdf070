/-
Fields of a request and fields of a block.

The two have encoders of their own.  For numbers and arrays of words these do the same, from the
lookup of the value to the width the series gives an address (`encodedAlike_fixedBytes`,
`encodedAlike_words`).  The encoder of blocks has nothing for the other two kinds, so such a
field is encoded alike exactly when it has no bytes to write (`encoded_alike_iff`).
-/
import MelsecMc.Proofs.Payload
import MelsecMc.Proofs.RequestValues

namespace MelsecMc

/-- The names that have a meaning of their own in a request. -/
def reservedNames : List String :=
  ["command", "subcommand", "word_block_count", "bit_block_count"]

/-- What the field writes in a request with these params, it writes in a block with this entry. -/
def EncodedAlike (spec : CommandSpec) (map : JsonMap) (plcSeries : Option PlcSeries)
    (f : FieldSpec) : Prop :=
  ∀ out r, spec.writeField (.object map) plcSeries out f = .ok r →
    CommandSpec.emitField map plcSeries out f = .ok r

namespace CommandSpec

variable {spec : CommandSpec} {map : JsonMap} {plcSeries : Option PlcSeries} {name : String}

theorem blockFieldWidth_eq (hname : name ∉ reservedNames) (n : Nat) (le : Bool)
    (plcSeries : Option PlcSeries) :
    requestFieldWidth name n le plcSeries = blockFieldWidth name n le plcSeries := by
  simp only [reservedNames, List.mem_cons, List.not_mem_nil, or_false, not_or] at hname
  rw [requestFieldWidth, if_neg (not_or.mpr ⟨hname.1, hname.2.1⟩)]

/-- The messages of the two loops over words differ, and nothing else. -/
theorem pushWords_message {le : Bool} {notNumber notNumber' : String} {items : List JsonValue} :
    ∀ {out r : Bytes}, pushWords le notNumber out items = .ok r →
      pushWords le notNumber' out items = .ok r := by
  induction items with
  | nil => exact fun h => h
  | cons item items ih =>
      intro out r h
      rw [pushWords] at h ⊢
      cases hitem : item.asU64 with
      | none =>
          rw [hitem] at h
          cases h
      | some num =>
          rw [hitem] at h
          dsimp only at h ⊢
          by_cases hlt : num.toNat < 65536
          · rw [if_pos hlt] at h ⊢
            exact ih h
          · rw [if_neg hlt] at h
            cases h

/-- A number is encoded alike. -/
theorem encodedAlike_fixedBytes (hname : name ∉ reservedNames) (n : Nat) (le : Bool) :
    EncodedAlike spec map plcSeries ⟨name, .fixedBytes n le⟩ := by
  intro out r h
  obtain ⟨v, hv, -⟩ := bind_eq_ok.mp
    (show spec.writeFixedBytesField name n le (.object map) plcSeries out = .ok r from h)
  have hvalue : (map.get name).bind JsonValue.asU64 = some v := by
    rw [getNumField_plain _ _ _ hname, numParam_eq_ok_iff] at hv
    exact hv
  rw [writeField_fixedBytes hv, blockFieldWidth_eq hname] at h
  show emitFieldFixedBytes name n le map plcSeries out = _
  rw [emitFieldFixedBytes, hvalue]
  exact h

/-- So are words. -/
theorem encodedAlike_words (le : Bool) : EncodedAlike spec map plcSeries ⟨name, .words le⟩ := by
  intro out r h
  have hwords : writeWordsField name le (.object map) out = .ok r := h
  show emitFieldWords name le map out = _
  rw [writeWordsField, JsonValue.get_object] at hwords
  rw [emitFieldWords]
  cases harr : (map.get name).bind JsonValue.asArray with
  | none =>
      rw [harr] at hwords
      cases hwords
  | some arr =>
      rw [harr] at hwords
      exact pushWords_message hwords

/-- Of the other kinds nothing comes in a block. -/
theorem encodedAlike_payload_iff {kind : FieldKind} (hkind : kind = .bytes ∨ kind = .asciiHex) :
    EncodedAlike spec map plcSeries ⟨name, kind⟩ ↔
      ∀ v w, map.get name = some v → Payload kind v w → w = [] := by
  have hemit : ∀ out, emitField map plcSeries out ⟨name, kind⟩ = .ok out := by
    intro out
    rcases hkind with rfl | rfl
    · rfl
    · rfl
  unfold EncodedAlike
  simp only [hemit]
  constructor
  · intro h v w hv hw
    have hget : (JsonValue.object map).get name = some v := hv
    have hwrite : spec.writeField (.object map) plcSeries [] ⟨name, kind⟩ = .ok ([] ++ w) :=
      (writeField_form_iff hkind hget (hasForm_of_payload hw)).mpr ⟨w, hw, rfl⟩
    have hsame := h [] _ hwrite
    rw [Except.ok.injEq] at hsame
    exact hsame.symm
  · intro h out r hwrite
    by_cases hform : ∃ v, map.get name = some v ∧ HasForm v
    · obtain ⟨v, hv, hform⟩ := hform
      have hget : (JsonValue.object map).get name = some v := hv
      obtain ⟨w, hw, rfl⟩ := (writeField_form_iff hkind hget hform).mp hwrite
      rw [h v w hv hw, List.append_nil]
    · have hnone : ∀ v, (JsonValue.object map).get name = some v → ¬ HasForm v :=
        fun v hv hform' => hform ⟨v, hv, hform'⟩
      rw [writeField_noForm hkind hnone] at hwrite
      exact hwrite

end CommandSpec

/-- **A field is encoded alike exactly when it is none of bytes that there are bytes for.** -/
theorem encoded_alike_iff {f : FieldSpec} (hname : f.name ∉ reservedNames) (spec : CommandSpec)
    (map : JsonMap) (plcSeries : Option PlcSeries) :
    EncodedAlike spec map plcSeries f ↔
      ∀ v w, map.get f.name = some v → Payload f.kind v w → w = [] := by
  obtain ⟨name, kind⟩ := f
  cases kind with
  | fixedBytes n le =>
      refine ⟨fun _ v w _ hw => ?_, fun _ => CommandSpec.encodedAlike_fixedBytes hname n le⟩
      cases hw with
      | array hkind => rcases hkind with hkind | hkind <;> cases hkind
  | words le =>
      refine ⟨fun _ v w _ hw => ?_, fun _ => CommandSpec.encodedAlike_words le⟩
      cases hw with
      | array hkind => rcases hkind with hkind | hkind <;> cases hkind
  | bytes => exact CommandSpec.encodedAlike_payload_iff (.inl rfl)
  | asciiHex => exact CommandSpec.encodedAlike_payload_iff (.inr rfl)

/-- An entry with a payload. -/
def entryWithPayload : JsonMap := [("start_addr", .ofNat 100), ("payload", .string "AB")]

theorem encoded_alike_iff_startAddr :
    EncodedAlike writeBlocksSpec entryWithPayload (some .r) ⟨"start_addr", .fixedBytes 3 true⟩ ↔
      ∀ v w, entryWithPayload.get "start_addr" = some v →
        Payload (.fixedBytes 3 true) v w → w = [] :=
  encoded_alike_iff (f := ⟨"start_addr", .fixedBytes 3 true⟩) (by decide) _ _ _

/-- The payload is left out of a block. -/
theorem encoded_alike_fails :
    ¬ ∀ (spec : CommandSpec) (map : JsonMap) (plcSeries : Option PlcSeries) (f : FieldSpec),
      f.name ∉ reservedNames → EncodedAlike spec map plcSeries f := by
  intro h
  have hbytes : writeBlocksSpec.writeField (.object entryWithPayload) none [] ⟨"payload", .bytes⟩ =
      .ok [0x41, 0x42] := by
    decide +kernel
  have hemit := h writeBlocksSpec entryWithPayload none ⟨"payload", .bytes⟩ (by decide) _ _ hbytes
  cases hemit

end MelsecMc
