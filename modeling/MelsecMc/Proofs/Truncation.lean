/-
An MC4E frame that was cut off.

The MC4E branch of `parse_frame` ends in a length test, and in an error for a frame that is
too short.  The test is on the header alone and was passed on the way in, so the error is
never returned: a frame whose data are missing is parsed like a whole one, with whatever
data are there.  An end code other than 0 makes no difference (`truncated_rejected_iff`).
-/
import MelsecMc.Proofs.Response

namespace MelsecMc

/-- A payload that opens like an MC4E frame with this length field and this end code, and ends
before the data it announces. -/
structure Truncated (payload : Bytes) (dataLen endCode : UInt16) : Prop where
  header : 15 ≤ payload.length
  lead : ∃ b, byteAt payload 0 = .ok b ∧ IsMc4eLead b
  dataLenAt : u16At payload 11 = .ok dataLen
  endCodeAt : u16At payload 13 = .ok endCode
  counts : 2 ≤ dataLen.toNat
  short : payload.length - 15 < dataLen.toNat - 2

/-- The call returns `Ok` for a success only, and else `Err`. -/
def RejectsFailure {α : Type} (endCode : UInt16) (result : Except Failure α) : Prop :=
  (∃ a, result = .ok a ∧ endCode = 0) ∨ ∃ e, result = .error (.err e)

theorem rejectsFailure_ok_iff {α : Type} {endCode : UInt16} (a : α) :
    RejectsFailure endCode (.ok a) ↔ endCode = 0 := by
  constructor
  · rintro (⟨-, -, hzero⟩ | ⟨e, he⟩)
    · exact hzero
    · cases he
  · exact fun hzero => .inl ⟨a, rfl, hzero⟩

/-- The two numbers behind the route of an MC4E header. -/
theorem u16At_mc4eHeader (sh : Vector UInt8 2) (serial reserved : UInt16) (route : AccessRoute)
    (dataLen endCode : UInt16) (tail : Bytes) :
    u16At (mc4eHeader sh serial reserved route dataLen endCode ++ tail) 11 = .ok dataLen ∧
    u16At (mc4eHeader sh serial reserved route dataLen endCode ++ tail) 13 = .ok endCode := by
  rw [mc4eHeader_eq]
  simp only [u16At, List.cons_append, List.nil_append, byteAt_cons_succ, byteAt_cons_zero, ok_bind,
    pure_eq_ok, u16FromLeBytes_lo_hi, and_self]

/-- **The missing data are not missed**: what is there is parsed as a whole frame. -/
theorem parseFrame_truncated {payload : Bytes} {dataLen endCode : UInt16}
    (h : Truncated payload dataLen endCode) :
    ∃ parsed, parseFrame payload = .ok parsed ∧ parsed.dataOffset = 15 ∧
      parsed.endCode = some endCode := by
  obtain ⟨b, hb, hlead⟩ := h.lead
  have hstart : startsMc4e payload = .ok true := by
    rw [startsMc4e, if_pos h.header, hb, ok_bind, pure_eq_ok]
    exact congrArg Except.ok (decide_eq_true hlead)
  obtain ⟨sh, serial, reserved, route, dataLen', endCode', hlead', hpayload⟩ :=
    exists_mc4eHeader hstart
  obtain ⟨hat11, hat13⟩ :=
    u16At_mc4eHeader sh serial reserved route dataLen' endCode' (payload.drop 15)
  rw [← hpayload] at hat11 hat13
  have hdataLen : dataLen' = dataLen := Except.ok.inj (hat11.symm.trans h.dataLenAt)
  have hendCode : endCode' = endCode := Except.ok.inj (hat13.symm.trans h.endCodeAt)
  rw [hdataLen, hendCode] at hpayload
  have hparse := parseFrame_mc4eHeader hlead' serial reserved route endCode (payload.drop 15)
    h.counts
  rw [← hpayload] at hparse
  exact ⟨_, hparse, rfl, rfl⟩

/-- **A cut-off frame is refused by none of the three parsers**, so that an end code of 0 is
the only one not to slip through. -/
theorem truncated_rejected_iff {payload : Bytes} {dataLen endCode : UInt16}
    (h : Truncated payload dataLen endCode) :
    (RejectsFailure endCode (parseFrame payload) ∧
      RejectsFailure endCode (McResponse.tryNew payload) ∧
      RejectsFailure endCode (McRequest.tryFromPayload payload)) ↔ endCode = 0 := by
  obtain ⟨parsed, hparse, hoffset, -⟩ := parseFrame_truncated h
  have hheader := h.header
  have hdata : ∃ data, McRequest.dataSlice payload parsed = .ok data := by
    rw [McRequest.dataSlice, hoffset, if_pos hheader,
      slice_of_le (by omega) (Nat.min_le_left _ _)]
    exact ⟨_, rfl⟩
  obtain ⟨data, hdata⟩ := hdata
  rw [McResponse.tryNew, parseMcPayload, McRequest.tryFromPayload, hparse, ok_bind, ok_bind, hdata,
    ok_bind, ok_bind, pure_eq_ok, pure_eq_ok, rejectsFailure_ok_iff, rejectsFailure_ok_iff,
    rejectsFailure_ok_iff, and_self, and_self]

/-- The header of an answer with four bytes of data, and none of the data. -/
def headerOnly (endCode : UInt16) : Bytes :=
  mc4eHeader mcSubheaderResponse 1 0 AccessRoute.default 6 endCode

theorem truncated_headerOnly (endCode : UInt16) : Truncated (headerOnly endCode) 6 endCode where
  header := by rw [headerOnly, length_mc4eHeader]
  lead := ⟨0xD4, by rw [headerOnly, mc4eHeader_eq]; rfl, .inr rfl⟩
  dataLenAt := by
    rw [headerOnly, ← List.append_nil (mc4eHeader _ _ _ _ _ _)]
    exact (u16At_mc4eHeader _ _ _ _ _ _ []).1
  endCodeAt := by
    rw [headerOnly, ← List.append_nil (mc4eHeader _ _ _ _ _ _)]
    exact (u16At_mc4eHeader _ _ _ _ _ _ []).2
  counts := by decide
  short := by rw [headerOnly, length_mc4eHeader]; decide

theorem truncated_rejected_iff_headerOnly :
    (RejectsFailure 0 (parseFrame (headerOnly 0)) ∧
      RejectsFailure 0 (McResponse.tryNew (headerOnly 0)) ∧
      RejectsFailure 0 (McRequest.tryFromPayload (headerOnly 0))) ↔ (0 : UInt16) = 0 :=
  truncated_rejected_iff (truncated_headerOnly 0)

/-- An answer that says the address is out of range, cut off behind its header, parses. -/
theorem truncated_rejected_fails :
    (∃ parsed, parseFrame (headerOnly 0x4031) = .ok parsed ∧ parsed.endCode = some 0x4031) ∧
    ¬ ∀ (payload : Bytes) (dataLen endCode : UInt16), Truncated payload dataLen endCode →
      RejectsFailure endCode (parseFrame payload) ∧
      RejectsFailure endCode (McResponse.tryNew payload) ∧
      RejectsFailure endCode (McRequest.tryFromPayload payload) := by
  obtain ⟨parsed, hparse, -, hcode⟩ := parseFrame_truncated (truncated_headerOnly 0x4031)
  refine ⟨⟨parsed, hparse, hcode⟩, fun h => ?_⟩
  have hrejects := (h _ 6 0x4031 (truncated_headerOnly 0x4031)).1
  rw [hparse, rejectsFailure_ok_iff] at hrejects
  exact absurd hrejects (by decide)

end MelsecMc
