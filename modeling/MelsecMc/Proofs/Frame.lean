/-
What the two header readers make of each layout.

Each documented header is followed by an arbitrary tail, and the theorems say what
`detectFrame` and `parseFrame` answer there.  Everything later is stated over these:
no proof outside this file unfolds either function at a frame.

The MC3E layouts need a side condition, because the readers try MC4E first and then
the longer MC3E header.  `startsMc4e … = .ok false` is the first half of it; the second
half is about the two bytes the longer header would take for its length, which in a
frame without a subheader are the end code.
-/
import MelsecMc.Spec.Wire

namespace MelsecMc

theorem vector2_eta (sh : Vector UInt8 2) : #v[leadByte sh, secondByte sh] = sh := by
  obtain ⟨⟨l⟩, hl⟩ := sh
  match l, hl with
  | [a, b], _ => rfl

/-! ### Which layout is tried

The first byte alone decides whether the MC4E layout is tried, and the buffer must have its
header.
-/

theorem startsMc4e_short {buf : Bytes} (h : buf.length < 15) : startsMc4e buf = .ok false := by
  rw [startsMc4e, if_neg (Nat.not_le.mpr h)]
  rfl

/-- With fifteen bytes there, the first of them decides. -/
theorem startsMc4e_cons {b : UInt8} {buf : Bytes} (h : 14 ≤ buf.length) :
    startsMc4e (b :: buf) = .ok (decide (IsMc4eLead b)) := by
  rw [startsMc4e, if_pos (by rw [List.length_cons]; omega), byteAt_cons_zero, ok_bind]
  rfl

theorem startsMc4e_of_not_lead {b : UInt8} {buf : Bytes} (h : ¬ IsMc4eLead b) :
    startsMc4e (b :: buf) = .ok false := by
  rcases Nat.lt_or_ge buf.length 14 with hlt | hge
  · exact startsMc4e_short (by rw [List.length_cons]; omega)
  · rw [startsMc4e_cons hge, decide_eq_false h]

theorem startsMc4e_mc4eHeader {sh : Vector UInt8 2} (hlead : IsMc4eLead (leadByte sh))
    (serial reserved : UInt16) (route : AccessRoute) (dataLen endCode : UInt16) (tail : Bytes) :
    startsMc4e (mc4eHeader sh serial reserved route dataLen endCode ++ tail) = .ok true := by
  rw [mc4eHeader_eq, List.cons_append, startsMc4e_cons (by simp), decide_eq_true hlead]

theorem length_mc4eHeader (sh : Vector UInt8 2) (serial reserved : UInt16) (route : AccessRoute)
    (dataLen endCode : UInt16) :
    (mc4eHeader sh serial reserved route dataLen endCode).length = 15 := by
  rw [mc4eHeader_eq]
  rfl

theorem length_mc3eHeader (sh : Vector UInt8 2) (route : AccessRoute) (dataLen endCode : UInt16) :
    (mc3eHeader sh route dataLen endCode).length = 11 := by
  rw [mc3eHeader_eq]
  rfl

theorem length_bareHeader (route : AccessRoute) (dataLen endCode : UInt16) :
    (bareHeader route dataLen endCode).length = 9 := by
  rw [bareHeader_eq]
  rfl

/-- Fifteen bytes of which the first is an MC4E one are an MC4E header, whatever the
rest of them says. -/
theorem exists_mc4eHeader {buf : Bytes} (h : startsMc4e buf = .ok true) :
    ∃ (sh : Vector UInt8 2) (serial reserved : UInt16) (route : AccessRoute)
      (dataLen endCode : UInt16), IsMc4eLead (leadByte sh) ∧
      buf = mc4eHeader sh serial reserved route dataLen endCode ++ buf.drop 15 := by
  have hlen : 15 ≤ buf.length := by
    by_contra hlt
    rw [startsMc4e_short (Nat.not_le.mp hlt)] at h
    exact absurd h (by simp)
  match buf, hlen with
  | b₀ :: b₁ :: b₂ :: b₃ :: b₄ :: b₅ :: b₆ :: b₇ :: b₈ :: b₉ :: b₁₀ :: b₁₁ :: b₁₂ :: b₁₃ :: b₁₄
      :: tail, _ =>
    refine ⟨#v[b₀, b₁], u16FromLeBytes b₂ b₃, u16FromLeBytes b₄ b₅,
      ⟨b₆, b₇, u16FromLeBytes b₈ b₉, b₁₀⟩, u16FromLeBytes b₁₁ b₁₂, u16FromLeBytes b₁₃ b₁₄, ?_, ?_⟩
    · rw [startsMc4e_cons (by simp), Except.ok.injEq, decide_eq_true_eq] at h
      exact h
    · rw [mc4eHeader_eq]
      simp [leadByte, secondByte, u16Lo_fromLeBytes, u16Hi_fromLeBytes]

/-! ### MC4E -/

section Mc4e

variable {sh : Vector UInt8 2} (hlead : IsMc4eLead (leadByte sh)) (serial reserved : UInt16)
  (route : AccessRoute) {dataLen : UInt16} (endCode : UInt16) (tail : Bytes)

include hlead

theorem detectFrame_mc4eHeader (hlen : 2 ≤ dataLen.toNat) :
    detectFrame (mc4eHeader sh serial reserved route dataLen endCode ++ tail) =
      .ok (some (15 + (dataLen.toNat - 2), 15, some serial)) := by
  have hstart := startsMc4e_mc4eHeader hlead serial reserved route dataLen endCode tail
  rw [detectFrame, if_neg (by simp [length_mc4eHeader]; omega), hstart, ok_bind, if_pos rfl,
    mc4eHeader_eq]
  simp only [u16At, List.cons_append, List.nil_append, byteAt_cons_succ, byteAt_cons_zero, ok_bind,
    pure_eq_ok, u16FromLeBytes_lo_hi]
  rw [if_neg (Nat.not_lt.mpr hlen), if_pos (by simp)]
  rfl

theorem parseFrame_mc4eHeader (hlen : 2 ≤ dataLen.toNat) :
    parseFrame (mc4eHeader sh serial reserved route dataLen endCode ++ tail) =
      .ok {
        subheader := sh
        accessRoute := route.toBytes
        requestDataLen := dataLen
        dataOffset := 15
        dataBytes := dataLen.toNat - 2
        hasEndCode := true
        endCode := some endCode
        monitorTimer := none
        serialNumber := some serial } := by
  have hstart := startsMc4e_mc4eHeader hlead serial reserved route dataLen endCode tail
  rw [parseFrame, if_neg (by simp [length_mc4eHeader]; omega), hstart, ok_bind, if_pos rfl,
    mc4eHeader_eq]
  simp only [parseMc4e, u16At, twoBytesAt, fiveBytesAt, List.cons_append, List.nil_append,
    byteAt_cons_succ, byteAt_cons_zero, ok_bind, pure_eq_ok, u16FromLeBytes_lo_hi]
  rw [if_neg (Nat.not_lt.mpr hlen)]
  simp [slice, vector2_eta, AccessRoute.toBytes]

theorem detectFrame_mc4eHeader_short (hlen : dataLen.toNat < 2) :
    ∃ msg, detectFrame (mc4eHeader sh serial reserved route dataLen endCode ++ tail) =
      protocolError msg := by
  have hstart := startsMc4e_mc4eHeader hlead serial reserved route dataLen endCode tail
  rw [detectFrame, if_neg (by simp [length_mc4eHeader]; omega), hstart, ok_bind, if_pos rfl,
    mc4eHeader_eq]
  simp only [u16At, List.cons_append, List.nil_append, byteAt_cons_succ, byteAt_cons_zero, ok_bind,
    pure_eq_ok, u16FromLeBytes_lo_hi]
  rw [if_pos hlen]
  exact ⟨_, rfl⟩

/-- The only error the MC4E branch returns. -/
theorem parseFrame_mc4eHeader_short (hlen : dataLen.toNat < 2) :
    ∃ msg, parseFrame (mc4eHeader sh serial reserved route dataLen endCode ++ tail) =
      protocolError msg := by
  have hstart := startsMc4e_mc4eHeader hlead serial reserved route dataLen endCode tail
  rw [parseFrame, if_neg (by simp [length_mc4eHeader]; omega), hstart, ok_bind, if_pos rfl,
    mc4eHeader_eq]
  simp only [parseMc4e, u16At, twoBytesAt, fiveBytesAt, List.cons_append, List.nil_append,
    byteAt_cons_succ, byteAt_cons_zero, ok_bind, pure_eq_ok, u16FromLeBytes_lo_hi]
  rw [if_pos hlen]
  exact ⟨_, rfl⟩

end Mc4e

/-! ### MC3E with a subheader -/

section Mc3e

variable (sh : Vector UInt8 2) (route : AccessRoute) {dataLen : UInt16} (endCode : UInt16)
  (tail : Bytes)

theorem detectFrame_mc3eHeader
    (hstart : startsMc4e (mc3eHeader sh route dataLen endCode ++ tail) = .ok false)
    (hlen : 2 ≤ dataLen.toNat) :
    detectFrame (mc3eHeader sh route dataLen endCode ++ tail) =
      .ok (some (11 + (dataLen.toNat - 2), 11, none)) := by
  rw [detectFrame, if_neg (by simp [length_mc3eHeader]; omega), hstart, ok_bind,
    if_neg Bool.false_ne_true, mc3eHeader_eq]
  simp [detectMc3e, u16At, hlen]

/-- The timer slot is reported as a timer and the end code is not reported at all, in a
request and in a response alike. -/
theorem parseFrame_mc3eHeader
    (hstart : startsMc4e (mc3eHeader sh route dataLen endCode ++ tail) = .ok false)
    (hlen : 2 ≤ dataLen.toNat) :
    parseFrame (mc3eHeader sh route dataLen endCode ++ tail) =
      .ok {
        subheader := sh
        accessRoute := route.toBytes
        requestDataLen := dataLen
        dataOffset := 11
        dataBytes := dataLen.toNat - 2
        hasEndCode := false
        endCode := none
        monitorTimer := some endCode
        serialNumber := none } := by
  rw [parseFrame, if_neg (by simp [length_mc3eHeader]; omega), hstart, ok_bind,
    if_neg Bool.false_ne_true, mc3eHeader_eq]
  simp [parseSubheaderMc3e, u16At, twoBytesAt, fiveBytesAt, vector2_eta, AccessRoute.toBytes, hlen]

end Mc3e

/-! ### MC3E without a subheader

The longer header reads its length from bytes 7 and 8, which here are the end code.
It is not tried on fewer than eleven bytes, and it is rejected when the end code is
below two; in every other case the frame is taken for one with a subheader.
-/

section Bare

variable (route : AccessRoute) {dataLen endCode : UInt16} (tail : Bytes)

theorem parseFrame_bareHeader
    (hstart : startsMc4e (bareHeader route dataLen endCode ++ tail) = .ok false)
    (hlen : 2 ≤ dataLen.toNat) (hend : tail.length < 2 ∨ endCode.toNat < 2) :
    parseFrame (bareHeader route dataLen endCode ++ tail) =
      .ok {
        subheader := mc3eSubheaderResponse
        accessRoute := route.toBytes
        requestDataLen := dataLen
        dataOffset := 9
        dataBytes := dataLen.toNat - 2
        hasEndCode := true
        endCode := some endCode
        monitorTimer := none
        serialNumber := none } := by
  have hsub : parseSubheaderMc3e (bareHeader route dataLen endCode ++ tail) = .ok none := by
    unfold parseSubheaderMc3e
    split
    · rename_i hlong
      rw [List.length_append, length_bareHeader] at hlong
      match tail, hend with
      | [], _ => simp at hlong
      | [_], _ => simp at hlong
      | t₁ :: t₂ :: tail, hend =>
          have hlow : ¬ 2 ≤ endCode.toNat := by
            rcases hend with h | h
            · simp only [List.length_cons] at h
              omega
            · omega
          rw [bareHeader_eq]
          simp only [fiveBytesAt, u16At, List.cons_append, List.nil_append, byteAt_cons_succ,
            byteAt_cons_zero, ok_bind, pure_eq_ok, u16FromLeBytes_lo_hi, if_neg hlow]
    · rfl
  rw [parseFrame, if_neg (by simp [length_bareHeader]; omega), hstart, ok_bind,
    if_neg Bool.false_ne_true, hsub, ok_bind, bareHeader_eq]
  simp [parseMc3e, u16At, fiveBytesAt, AccessRoute.toBytes, hlen]

/-- **An end code of two or more makes the frame look like one with a subheader**, and
then it is not reported. -/
theorem parseFrame_bareHeader_lookalike
    (hstart : startsMc4e (bareHeader route dataLen endCode ++ tail) = .ok false)
    (htail : 2 ≤ tail.length) (hend : 2 ≤ endCode.toNat) :
    ∃ parsed, parseFrame (bareHeader route dataLen endCode ++ tail) = .ok parsed ∧
      parsed.hasEndCode = false := by
  match tail, htail with
  | t₁ :: t₂ :: tail, _ =>
      rw [parseFrame, if_neg (by simp [length_bareHeader]; omega), hstart, ok_bind,
        if_neg Bool.false_ne_true, bareHeader_eq]
      simp [parseSubheaderMc3e, u16At, twoBytesAt, fiveBytesAt, hend]

end Bare

/-! ### The front of a longer buffer

Bytes in front of a cut are where they were, so a look that stays in front of it finds what it
found.
-/

theorem byteAt_take {buf : Bytes} {i k : Nat} (h : i < k) : byteAt (buf.take k) i = byteAt buf i := by
  rw [byteAt, byteAt, List.getElem?_take_of_lt h]

theorem u16At_take {buf : Bytes} {i k : Nat} (h : i + 1 < k) : u16At (buf.take k) i = u16At buf i := by
  rw [u16At, u16At, byteAt_take (by omega), byteAt_take h]

/-- On fewer than fifteen bytes only the MC3E layouts are tried, the longer one first. -/
theorem detectFrame_short {buf : Bytes} (hlen : 2 ≤ buf.length) (hshort : buf.length < 15)
    {frame : Option (Nat × Nat × Option UInt16)} (hsub : detectMc3e 11 7 buf = .ok frame) :
    detectFrame buf = if frame.isSome then .ok frame else detectMc3e 9 5 buf := by
  rw [detectFrame, if_neg (Nat.not_lt.mpr hlen), startsMc4e_short hshort, ok_bind,
    if_neg Bool.false_ne_true, hsub, ok_bind]
  cases frame <;> rfl

/-- On the front of a buffer an MC3E layout finds what it finds on the whole, once its
header is there. -/
theorem detectMc3e_take {buf : Bytes} {headerLen lenAt k : Nat} (hbuf : k ≤ buf.length)
    (hat : lenAt + 1 < headerLen) :
    detectMc3e headerLen lenAt (buf.take k) =
      if headerLen ≤ k then detectMc3e headerLen lenAt buf else .ok none := by
  rw [detectMc3e, detectMc3e, List.length_take, Nat.min_eq_left hbuf]
  split
  · rename_i hk
    rw [if_pos (Nat.le_trans hk hbuf), u16At_take (by omega)]
  · rfl

end MelsecMc
