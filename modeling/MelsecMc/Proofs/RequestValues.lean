/-
The numbers and the device codes of a request.

Both are statements about every slot.  A number is read back from its bytes exactly when it
is below the bound of its width (`numbersReadBack_iff`): words and byte values are checked
against theirs, numbers of fixed width are not.  Of the device codes there are two walks
over the params, one that checks and one that writes, with keys of their own; what the
second writes has always been seen by the first (`CodesFit.admitted`).

The condition of the first is on what the caller gave, the number under the key or the
length of the list, and not on what the encoder made of it (`Slot.given_of_value`).
-/
import MelsecMc.Proofs.BlockRequest
import MelsecMc.Proofs.Slots
import MelsecMc.Proofs.WriteRequest

namespace MelsecMc

section Values

variable {T : DeviceTable} {spec : CommandSpec} {params : JsonValue} {plcSeries : Option PlcSeries}

/-! ### Numbers

What the encoder takes for a slot is the number that was given for it, cut to 64 bits, and
what it writes of that is as many bytes as the field has.  So of the number that was given
the low bytes are written, eight at most, and they give it back when there are no others. -/

/-- A number among the params is an unsigned one. -/
theorem CommandSpec.numParam_eq_ok_iff {name : String} {v : UInt64} :
    numParam name params = .ok v ↔ (params.get name).bind JsonValue.asU64 = some v := by
  unfold numParam
  dsimp only
  cases params.get name with
  | none =>
      refine ⟨fun h => ?_, fun h => ?_⟩
      · cases h
      · cases h
  | some value =>
      rw [Option.bind_some]
      cases value with
      | posInt n => exact ⟨fun h => (by cases h; rfl), fun h => (by cases h; rfl)⟩
      | negInt n =>
          have hneg : ¬ 0 ≤ n.val.toInt := by
            have := n.property
            omega
          simp only [JsonValue.isNumber, JsonValue.asU64, JsonValue.asI64, if_neg hneg, if_true]
          exact ⟨fun h => (by cases h), fun h => (by cases h)⟩
      | float bits => exact ⟨fun h => (by cases h), fun h => (by cases h)⟩
      | null => exact ⟨fun h => (by cases h), fun h => (by cases h)⟩
      | bool b => exact ⟨fun h => (by cases h), fun h => (by cases h)⟩
      | string s => exact ⟨fun h => (by cases h), fun h => (by cases h)⟩
      | array items => exact ⟨fun h => (by cases h), fun h => (by cases h)⟩
      | object fields => exact ⟨fun h => (by cases h), fun h => (by cases h)⟩

/-- The value of a slot is the number given for it, as a `u64`. -/
theorem Slot.given_of_value {slot : Slot} {v : UInt64}
    (h : slot.value spec params plcSeries = some v) :
    ∃ n, slot.given spec params plcSeries = some n ∧ v.toNat = n % 2 ^ 64 := by
  have hsmall : ∀ u : UInt64, u.toNat = u.toNat % 2 ^ 64 := fun u =>
    (Nat.mod_eq_of_lt u.toNat_lt).symm
  obtain ⟨origin, name, kind⟩ := slot
  cases origin with
  | entry bt map =>
      have hnum : (map.get name).bind JsonValue.asU64 = some v := h
      refine ⟨v.toNat, ?_, hsmall v⟩
      show ((map.get name).bind JsonValue.asU64).map UInt64.toNat = _
      rw [hnum, Option.map_some]
  | request =>
      have hget := Slot.value_request.mp h
      dsimp only [given]
      rw [CommandSpec.getNumField] at hget
      by_cases hcommand : name = "command"
      · rw [if_pos hcommand] at hget ⊢
        cases hget
        exact ⟨_, rfl, hsmall spec.commandCode.toUInt64⟩
      rw [if_neg hcommand] at hget ⊢
      by_cases hsub : name = "subcommand"
      · rw [if_pos hsub] at hget ⊢
        cases hget
        exact ⟨_, rfl, hsmall ((spec.effectiveSubcommand plcSeries).getD 0).toUInt64⟩
      rw [if_neg hsub] at hget ⊢
      by_cases hwords : name = "word_block_count"
      · rw [if_pos hwords, CommandSpec.blockCount_eq] at hget
        rw [if_pos hwords]
        cases hget
        exact ⟨_, rfl, UInt64.toNat_ofNat'⟩
      rw [if_neg hwords] at hget ⊢
      by_cases hbits : name = "bit_block_count"
      · rw [if_pos hbits, CommandSpec.blockCount_eq] at hget
        rw [if_pos hbits]
        cases hget
        exact ⟨_, rfl, UInt64.toNat_ofNat'⟩
      rw [if_neg hbits] at hget ⊢
      rw [CommandSpec.numParam_eq_ok_iff.mp hget, Option.map_some]
      exact ⟨_, rfl, hsmall v⟩

/-- Cutting to 64 bits and then to a width is cutting to the bytes that carry a number. -/
theorem mod_u64_mod (n w : Nat) : n % 2 ^ 64 % 256 ^ w = n % 256 ^ min w 8 := by
  rcases Nat.le_total w 8 with hw | hw
  · rw [Nat.min_eq_left hw, show 2 ^ 64 = 256 ^ 8 from rfl]
    exact Nat.mod_mod_of_dvd n (Nat.pow_dvd_pow 256 hw)
  · have hlt : n % 2 ^ 64 < 256 ^ w :=
      Nat.lt_of_lt_of_le (Nat.mod_lt n (show 0 < 2 ^ 64 by decide))
        (show 256 ^ 8 ≤ 256 ^ w from Nat.pow_le_pow_right (by decide) hw)
    rw [Nat.min_eq_right hw, Nat.mod_eq_of_lt hlt, show 2 ^ 64 = 256 ^ 8 from rfl]

/-- What a slot of fixed width writes of the number given for it. -/
theorem Slot.written {slot : Slot} {chunk : Bytes}
    (hchunk : Slot.write spec params plcSeries [] slot = .ok chunk) {w : Nat} {le : Bool}
    (hwidth : slot.width plcSeries = some (w, le)) :
    ∃ n, slot.given spec params plcSeries = some n ∧ chunk.length = w ∧
      numberOf le chunk = n % 256 ^ min w 8 := by
  obtain ⟨v, hvalue, hbytes⟩ := Slot.write_width hwidth hchunk
  obtain ⟨n, hgiven, hv⟩ := Slot.given_of_value hvalue
  obtain ⟨hlen, hnumber⟩ := numberOf_writeNBytes hbytes
  rw [hv, mod_u64_mod] at hnumber
  exact ⟨n, hgiven, hlen, hnumber⟩

theorem Slot.ReadsBack.fits {slot : Slot} {chunk : Bytes}
    (hchunk : Slot.write spec params plcSeries [] slot = .ok chunk)
    (h : slot.ReadsBack spec params plcSeries chunk) : slot.Fits spec params plcSeries := by
  intro w le n hwidth hgiven
  obtain ⟨n', hgiven', -, hnumber⟩ := Slot.written hchunk hwidth
  rw [(h w le hwidth).2, Option.some.injEq] at hgiven hgiven'
  rw [← hgiven, hnumber]
  exact Nat.mod_lt _ (Nat.pow_pos (by decide))

theorem Slot.Fits.readsBack {slot : Slot} {chunk : Bytes}
    (hchunk : Slot.write spec params plcSeries [] slot = .ok chunk)
    (h : slot.Fits spec params plcSeries) : slot.ReadsBack spec params plcSeries chunk := by
  intro w le hwidth
  obtain ⟨n, hgiven, hlen, hnumber⟩ := Slot.written hchunk hwidth
  rw [Nat.mod_eq_of_lt (h w le n hwidth hgiven)] at hnumber
  exact ⟨hlen, by rw [hgiven, hnumber]⟩

theorem NumbersReadBack.fits {out : Bytes} (h : NumbersReadBack spec params plcSeries out) :
    ∀ slot ∈ slots spec params, slot.Fits spec params plcSeries := by
  obtain ⟨chunks, hwritten, hback⟩ := h
  intro slot hslot
  obtain ⟨chunk, hchunk, hslot⟩ := hwritten.each.forall₂_iff.mp hback slot hslot
  exact hslot.fits hchunk

/-- **A request gives its numbers back** exactly when each of them fits. -/
theorem numbersReadBack_iff {out : Bytes} (hout : spec.buildRequest T params plcSeries = .ok out) :
    NumbersReadBack spec params plcSeries out ↔
      ∀ slot ∈ slots spec params, slot.Fits spec params plcSeries := by
  refine ⟨NumbersReadBack.fits, fun hfits => ?_⟩
  obtain ⟨chunks, hwritten⟩ := buildRequest_isWritten hout
  refine ⟨chunks, hwritten, hwritten.each.forall₂_iff.mpr fun slot hslot => ?_⟩
  obtain ⟨chunk, hchunk⟩ := hwritten.each.exists slot hslot
  exact ⟨chunk, hchunk, (hfits slot hslot).readsBack hchunk⟩

/-- Read 65536 words from `D100` on. -/
def longRead : JsonValue :=
  .object [("start_addr", .ofNat 100), ("device_code", .ofNat 0xA8), ("count", .ofNat 65536)]

theorem buildRequest_longRead :
    readWordsSpec.buildRequest twoDevices longRead (some .q) =
      .ok [0x01, 0x04, 0x00, 0x00, 100, 0x00, 0x00, 0xA8, 0x00, 0x00] := by
  decide +kernel

theorem numbersReadBack_iff_longRead :
    NumbersReadBack readWordsSpec longRead (some .q)
        [0x01, 0x04, 0x00, 0x00, 100, 0x00, 0x00, 0xA8, 0x00, 0x00] ↔
      ∀ slot ∈ slots readWordsSpec longRead, slot.Fits readWordsSpec longRead (some .q) :=
  numbersReadBack_iff buildRequest_longRead

/-- The request asks for no word at all. -/
theorem numbersReadBack_fails :
    shippedRegistry.get .readWords = some readWordsSpec ∧
      readWordsSpec.buildRequest twoDevices longRead (some .q) =
        .ok [0x01, 0x04, 0x00, 0x00, 100, 0x00, 0x00, 0xA8, 0x00, 0x00] ∧
      ¬ ∀ (T : DeviceTable) (spec : CommandSpec) (params : JsonValue)
          (plcSeries : Option PlcSeries) (out : Bytes),
        spec.buildRequest T params plcSeries = .ok out →
        NumbersReadBack spec params plcSeries out := by
  refine ⟨get_readWords, buildRequest_longRead, fun h => ?_⟩
  have hback := h twoDevices readWordsSpec longRead (some .q) _ buildRequest_longRead
  have hslot : (⟨.request, ⟨"count", .fixedBytes 2 true⟩⟩ : Slot) ∈ slots readWordsSpec longRead := by
    refine List.mem_append_left _ (List.mem_map.mpr ⟨⟨"count", .fixedBytes 2 true⟩, ?_, rfl⟩)
    decide
  have hlt := hback.fits _ hslot 2 true 65536 (by decide) (by decide)
  exact absurd hlt (by decide)

/-! ### Device codes -/

/-- What is written for a device code has been checked. -/
theorem CodesFit.admitted (h : CodesFit T spec params) : CodesAdmitted T spec params plcSeries := by
  intro slot hslot hcode code hvalue
  rw [slots, List.mem_append] at hslot
  rcases hslot with hrequest | hblock
  · obtain ⟨f, -, rfl⟩ := List.mem_map.mp hrequest
    have hname : f.name = "device_code" := hcode.1
    have hnum : (params.get "device_code").bind JsonValue.asU64 = some code := by
      have hget := Slot.value_request.mp hvalue
      rw [hname, CommandSpec.getNumField_plain spec params plcSeries (by decide)] at hget
      exact CommandSpec.numParam_eq_ok_iff.mp hget
    exact h.request code hnum
  · obtain ⟨bt, hbt, hblock⟩ := List.mem_flatMap.mp hblock
    obtain ⟨map, hmap, hfield⟩ := List.mem_flatMap.mp hblock
    obtain ⟨f, -, rfl⟩ := List.mem_map.mp hfield
    obtain ⟨entry, hentry, hobject⟩ := List.mem_filterMap.mp hmap
    have hname : f.name = "device_code" := hcode.1
    have hmapped : CommandSpec.deviceCodeOf map = some code := by
      have hget : (map.get f.name).bind JsonValue.asU64 = some code := hvalue
      rw [hname] at hget
      exact hget
    refine h.entries bt hbt entry hentry code ?_
    rw [hobject, Option.bind_some, hmapped]

/-- **A request is written with admitted device codes only**: with one code that is too large
or names a device of the wrong category, wherever it stands, there is no request. -/
theorem device_codes_admitted (T : DeviceTable) (spec : CommandSpec) (params : JsonValue)
    (plcSeries : Option PlcSeries) :
    (∀ out, spec.buildRequest T params plcSeries = .ok out →
      (∃ chunks, IsWritten spec params plcSeries out chunks) ∧
        CodesAdmitted T spec params plcSeries) ∧
    (¬ CodesAdmitted T spec params plcSeries →
      ∃ msg, spec.buildRequest T params plcSeries = protocolError msg) := by
  constructor
  · intro out hout
    obtain ⟨⟨hcodes, -⟩, -⟩ := buildRequest_eq_ok_iff.mp hout
    exact ⟨buildRequest_isWritten hout, hcodes.admitted⟩
  · intro hnot
    exact buildRequest_codes fun hcodes => hnot hcodes.admitted

end Values

/-- One word block of the device with this code, and no bit block. -/
def wordBlockOf (code : Nat) : JsonValue :=
  .object [("word_blocks", .array [.object [("start_addr", .ofNat 100),
    ("device_code", .ofNat code), ("count", .ofNat 2)]]), ("bit_blocks", .array [])]

/-- The slot of its device code. -/
def wordBlockCode (code : Nat) : Slot where
  origin := .entry ⟨"word_block", "word_block_count", blockEntryFields, some .word⟩
    [("start_addr", .ofNat 100), ("device_code", .ofNat code), ("count", .ofNat 2)]
  field := ⟨"device_code", .fixedBytes 1 true⟩

theorem wordBlockCode_mem (code : Nat) :
    wordBlockCode code ∈ slots writeBlocksSpec (wordBlockOf code) := by
  refine List.mem_append_right _ (List.mem_flatMap.mpr ⟨_, List.mem_cons_self, ?_⟩)
  refine List.mem_flatMap.mpr ⟨_, List.mem_cons_self, ?_⟩
  exact List.mem_map.mpr ⟨_, .tail _ List.mem_cons_self, rfl⟩

/-- A word device is taken as a word block, a bit device is not. -/
theorem device_codes_admitted_wordBlock :
    CodesAdmitted twoDevices writeBlocksSpec (wordBlockOf 0xA8) (some .q) ∧
      ∃ msg, writeBlocksSpec.buildRequest twoDevices (wordBlockOf 0x90) (some .q) =
        protocolError msg := by
  have hbuilt : writeBlocksSpec.buildRequest twoDevices (wordBlockOf 0xA8) (some .q) =
      .ok [100, 0x00, 0x00, 0xA8, 0x02, 0x00] := by
    decide +kernel
  have hrefused : ¬ CodesAdmitted twoDevices writeBlocksSpec (wordBlockOf 0x90) (some .q) := by
    intro h
    have hcode := h _ (wordBlockCode_mem 0x90) ⟨rfl, 1, true, rfl⟩ 0x90 rfl
    exact absurd (hcode.2 ⟨.bit, .decimal, 0x90⟩ rfl) (by decide)
  exact ⟨((device_codes_admitted twoDevices writeBlocksSpec (wordBlockOf 0xA8) (some .q)).1 _
      hbuilt).2,
    (device_codes_admitted twoDevices writeBlocksSpec (wordBlockOf 0x90) (some .q)).2 hrefused⟩

end MelsecMc
