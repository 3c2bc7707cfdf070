/-
The two header readers agree.

The receive loop cuts a frame out of its buffer at the length `detectFrame` announces, and
the cut-out bytes go to `parseFrame`, which reads the same header a second time and with
fewer bytes behind it.  Layout by layout the first function announces what the second one
finds (`subheaderMc3e_spec`, `mc3e_spec`, `mc4e_spec`), and what a
layout finds does not depend on what follows its header, so the cut changes nothing.
-/
import MelsecMc.Proofs.Frame
import MelsecMc.Response

namespace MelsecMc

/-- The three layouts with a header. -/
inductive HeaderLayout
  | mc4e
  | subheaderMc3e
  | mc3e
  deriving DecidableEq, Repr

/-- `parse_frame` succeeds through this layout: the layouts before it are not the one. -/
inductive ParsesBy (b : Bytes) : HeaderLayout → FrameParseResult → Prop
  | mc4e {parsed : FrameParseResult} (hlen : 2 ≤ b.length) (hstart : startsMc4e b = .ok true)
      (hparse : parseMc4e b = .ok parsed) : ParsesBy b .mc4e parsed
  | subheaderMc3e {parsed : FrameParseResult} (hlen : 2 ≤ b.length)
      (hstart : startsMc4e b = .ok false) (hparse : parseSubheaderMc3e b = .ok (some parsed)) :
      ParsesBy b .subheaderMc3e parsed
  | mc3e {parsed : FrameParseResult} (hlen : 2 ≤ b.length) (hstart : startsMc4e b = .ok false)
      (hsub : parseSubheaderMc3e b = .ok none) (hparse : parseMc3e b = .ok (some parsed)) :
      ParsesBy b .mc3e parsed

theorem parseFrame_eq_parseMc4e {b : Bytes} (hlen : 2 ≤ b.length)
    (hstart : startsMc4e b = .ok true) : parseFrame b = parseMc4e b := by
  rw [parseFrame, if_neg (Nat.not_lt.mpr hlen), hstart, ok_bind, if_pos rfl]

theorem ParsesBy.parseFrame_eq {b : Bytes} {layout : HeaderLayout} {parsed : FrameParseResult}
    (h : ParsesBy b layout parsed) : parseFrame b = .ok parsed := by
  cases h with
  | mc4e hlen hstart hparse => rw [parseFrame_eq_parseMc4e hlen hstart, hparse]
  | subheaderMc3e hlen hstart hparse =>
      rw [parseFrame, if_neg (Nat.not_lt.mpr hlen), hstart, ok_bind, if_neg Bool.false_ne_true,
        hparse, ok_bind]
      rfl
  | mc3e hlen hstart hsub hparse =>
      rw [parseFrame, if_neg (Nat.not_lt.mpr hlen), hstart, ok_bind, if_neg Bool.false_ne_true,
        hsub, ok_bind]
      dsimp only
      rw [hparse, ok_bind]
      rfl

/-- What `detect_frame` says of a header that was parsed: the length of the frame, that of
the header, and the serial. -/
def announced (parsed : FrameParseResult) : Nat × Nat × Option UInt16 :=
  (parsed.dataOffset + parsed.dataBytes, parsed.dataOffset, parsed.serialNumber)

/-! ### Every long enough buffer has the header of a layout -/

theorem exists_mc3eHeader {b : Bytes} (h : 11 ≤ b.length) :
    ∃ (sh : Vector UInt8 2) (route : AccessRoute) (dataLen endCode : UInt16),
      b = mc3eHeader sh route dataLen endCode ++ b.drop 11 := by
  match b, h with
  | b₀ :: b₁ :: b₂ :: b₃ :: b₄ :: b₅ :: b₆ :: b₇ :: b₈ :: b₉ :: b₁₀ :: tail, _ =>
      refine ⟨#v[b₀, b₁], ⟨b₂, b₃, u16FromLeBytes b₄ b₅, b₆⟩, u16FromLeBytes b₇ b₈,
        u16FromLeBytes b₉ b₁₀, ?_⟩
      rw [mc3eHeader_eq]
      simp [leadByte, secondByte, u16Lo_fromLeBytes, u16Hi_fromLeBytes]

theorem exists_bareHeader {b : Bytes} (h : 9 ≤ b.length) :
    ∃ (route : AccessRoute) (dataLen endCode : UInt16),
      b = bareHeader route dataLen endCode ++ b.drop 9 := by
  match b, h with
  | b₀ :: b₁ :: b₂ :: b₃ :: b₄ :: b₅ :: b₆ :: b₇ :: b₈ :: tail, _ =>
      refine ⟨⟨b₀, b₁, u16FromLeBytes b₂ b₃, b₄⟩, u16FromLeBytes b₅ b₆, u16FromLeBytes b₇ b₈, ?_⟩
      rw [bareHeader_eq]
      simp [u16Lo_fromLeBytes, u16Hi_fromLeBytes]

/-! ### Layout by layout -/

theorem parseSubheaderMc3e_header (sh : Vector UInt8 2) (route : AccessRoute)
    (dataLen endCode : UInt16) (tail : Bytes) :
    parseSubheaderMc3e (mc3eHeader sh route dataLen endCode ++ tail) =
      .ok (if 2 ≤ dataLen.toNat then some {
        subheader := sh
        accessRoute := route.toBytes
        requestDataLen := dataLen
        dataOffset := 11
        dataBytes := dataLen.toNat - 2
        hasEndCode := false
        endCode := none
        monitorTimer := some endCode
        serialNumber := none } else none) := by
  rw [mc3eHeader_eq]
  by_cases hlen : 2 ≤ dataLen.toNat
  · simp [parseSubheaderMc3e, u16At, twoBytesAt, fiveBytesAt, vector2_eta, AccessRoute.toBytes, hlen]
  · simp [parseSubheaderMc3e, u16At, fiveBytesAt, hlen]

theorem detectMc3e_header (sh : Vector UInt8 2) (route : AccessRoute) (dataLen endCode : UInt16)
    (tail : Bytes) :
    detectMc3e 11 7 (mc3eHeader sh route dataLen endCode ++ tail) =
      .ok (if 2 ≤ dataLen.toNat then some (11 + (dataLen.toNat - 2), 11, none) else none) := by
  rw [mc3eHeader_eq]
  by_cases hlen : 2 ≤ dataLen.toNat <;> simp [detectMc3e, u16At, hlen]

theorem parseMc3e_header (route : AccessRoute) (dataLen endCode : UInt16) (tail : Bytes) :
    parseMc3e (bareHeader route dataLen endCode ++ tail) =
      .ok (if 2 ≤ dataLen.toNat then some {
        subheader := mc3eSubheaderResponse
        accessRoute := route.toBytes
        requestDataLen := dataLen
        dataOffset := 9
        dataBytes := dataLen.toNat - 2
        hasEndCode := true
        endCode := some endCode
        monitorTimer := none
        serialNumber := none } else none) := by
  rw [bareHeader_eq]
  by_cases hlen : 2 ≤ dataLen.toNat
  · simp [parseMc3e, u16At, fiveBytesAt, AccessRoute.toBytes, hlen]
  · simp [parseMc3e, u16At, fiveBytesAt, hlen]

theorem detectMc3e_bareHeader (route : AccessRoute) (dataLen endCode : UInt16) (tail : Bytes) :
    detectMc3e 9 5 (bareHeader route dataLen endCode ++ tail) =
      .ok (if 2 ≤ dataLen.toNat then some (9 + (dataLen.toNat - 2), 9, none) else none) := by
  rw [bareHeader_eq]
  by_cases hlen : 2 ≤ dataLen.toNat <;> simp [detectMc3e, u16At, hlen]

/-- What the longer MC3E layout finds, and that both functions find it. -/
theorem subheaderMc3e_spec (b : Bytes) :
    ∃ found, parseSubheaderMc3e b = .ok found ∧ detectMc3e 11 7 b = .ok (found.map announced) ∧
      ∀ parsed, found = some parsed → parsed.dataOffset = 11 ∧ 11 ≤ b.length := by
  by_cases hlen : 11 ≤ b.length
  · obtain ⟨sh, route, dataLen, endCode, hb⟩ := exists_mc3eHeader hlen
    refine ⟨_, by rw [hb]; exact parseSubheaderMc3e_header sh route dataLen endCode _, ?_, ?_⟩
    · rw [hb, detectMc3e_header]
      split <;> rfl
    · intro parsed hparsed
      refine ⟨?_, hlen⟩
      split at hparsed
      · rw [← Option.some.inj hparsed]
      · exact absurd hparsed (by simp)
  · refine ⟨none, ?_, ?_, fun _ h => absurd h (by simp)⟩
    · rw [parseSubheaderMc3e, if_neg hlen, pure_eq_ok]
    · rw [detectMc3e, if_neg hlen, pure_eq_ok, Option.map_none]

/-- The same of the shorter MC3E layout. -/
theorem mc3e_spec (b : Bytes) :
    ∃ found, parseMc3e b = .ok found ∧ detectMc3e 9 5 b = .ok (found.map announced) ∧
      ∀ parsed, found = some parsed → parsed.dataOffset = 9 ∧ 9 ≤ b.length := by
  by_cases hlen : 9 ≤ b.length
  · obtain ⟨route, dataLen, endCode, hb⟩ := exists_bareHeader hlen
    refine ⟨_, by rw [hb]; exact parseMc3e_header route dataLen endCode _, ?_, ?_⟩
    · rw [hb, detectMc3e_bareHeader]
      split <;> rfl
    · intro parsed hparsed
      refine ⟨?_, hlen⟩
      split at hparsed
      · rw [← Option.some.inj hparsed]
      · exact absurd hparsed (by simp)
  · refine ⟨none, ?_, ?_, fun _ h => absurd h (by simp)⟩
    · rw [parseMc3e, if_neg hlen, pure_eq_ok]
    · rw [detectMc3e, if_neg hlen, pure_eq_ok, Option.map_none]

/-- The MC4E layout finds a header that both functions report, or both return an error. -/
theorem mc4e_spec {b : Bytes} (hstart : startsMc4e b = .ok true) :
    (∃ parsed, parseMc4e b = .ok parsed ∧ detectFrame b = .ok (some (announced parsed)) ∧
      parsed.dataOffset = 15 ∧ 15 ≤ b.length) ∨
    ∃ msg msg', parseMc4e b = protocolError msg ∧ detectFrame b = protocolError msg' := by
  obtain ⟨sh, serial, reserved, route, dataLen, endCode, hlead, hb⟩ := exists_mc4eHeader hstart
  have hlen : 15 ≤ b.length := by
    rw [hb, List.length_append, length_mc4eHeader]
    omega
  rw [← parseFrame_eq_parseMc4e (by omega) hstart]
  by_cases hdata : 2 ≤ dataLen.toNat
  · refine .inl ⟨_, by rw [hb]; exact parseFrame_mc4eHeader hlead _ _ _ _ _ hdata, ?_, rfl, hlen⟩
    rw [hb, detectFrame_mc4eHeader hlead _ _ _ _ _ hdata]
    rfl
  · obtain ⟨msg, hmsg⟩ := parseFrame_mc4eHeader_short hlead serial reserved route endCode
      (b.drop 15) (Nat.not_le.mp hdata)
    obtain ⟨msg', hmsg'⟩ := detectFrame_mc4eHeader_short hlead serial reserved route endCode
      (b.drop 15) (Nat.not_le.mp hdata)
    rw [← hb] at hmsg hmsg'
    exact .inr ⟨msg, msg', hmsg, hmsg'⟩

/-- The test both functions open with looks at nothing that is not there. -/
theorem exists_startsMc4e (b : Bytes) : ∃ starts, startsMc4e b = .ok starts := by
  rw [startsMc4e]
  split
  · rw [byteAt_of_lt (by omega), ok_bind]
    exact ⟨_, rfl⟩
  · exact ⟨false, rfl⟩

/-! ### The cut-out frame

The frame is looked at once in the buffer and once when it is cut out.  The second look has fewer
bytes, and could take another layout if the first one needed what came after the frame.  It does
not.
-/

/-- Cutting behind a header leaves the header. -/
theorem take_header (header tail : Bytes) {n : Nat} (h : header.length ≤ n) :
    (header ++ tail).take n = header ++ tail.take (n - header.length) := by
  rw [List.take_append, List.take_of_length_le h]

theorem startsMc4e_take {b : Bytes} {n : Nat} (hn : n ≤ b.length) :
    startsMc4e (b.take n) = if 15 ≤ n then startsMc4e b else .ok false := by
  rw [startsMc4e, startsMc4e, List.length_take, Nat.min_eq_left hn]
  split
  · rename_i h
    rw [if_pos (Nat.le_trans h hn), byteAt_take (by omega)]
  · rfl

/-- A buffer that does not start as MC4E does not do so when it is cut. -/
theorem startsMc4e_take_false {b : Bytes} {n : Nat} (hn : n ≤ b.length)
    (h : startsMc4e b = .ok false) : startsMc4e (b.take n) = .ok false := by
  rw [startsMc4e_take hn, h]
  split <;> rfl

theorem parseMc4e_take {b : Bytes} {parsed : FrameParseResult} {n : Nat}
    (hstart : startsMc4e b = .ok true) (hparse : parseMc4e b = .ok parsed) (hn : 15 ≤ n)
    (hb : n ≤ b.length) : parseMc4e (b.take n) = .ok parsed := by
  have hstart' : startsMc4e (b.take n) = .ok true := by
    rw [startsMc4e_take hb, if_pos hn, hstart]
  have hlen : (b.take n).length = n := List.length_take_of_le hb
  rw [← parseFrame_eq_parseMc4e (by omega) hstart']
  rw [← parseFrame_eq_parseMc4e (by omega) hstart] at hparse
  obtain ⟨sh, serial, reserved, route, dataLen, endCode, hlead, hsplit⟩ := exists_mc4eHeader hstart
  have hheader := length_mc4eHeader sh serial reserved route dataLen endCode
  rw [hsplit] at hparse ⊢
  rw [take_header _ _ (by omega)]
  by_cases hdata : 2 ≤ dataLen.toNat
  · rw [parseFrame_mc4eHeader hlead _ _ _ _ _ hdata] at hparse ⊢
    exact hparse
  · obtain ⟨msg, hmsg⟩ := parseFrame_mc4eHeader_short hlead serial reserved route endCode
      (b.drop 15) (Nat.not_le.mp hdata)
    rw [hmsg] at hparse
    exact absurd hparse (by simp [protocolError])

theorem parseSubheaderMc3e_take {b : Bytes} {n : Nat} (hb : n ≤ b.length) :
    parseSubheaderMc3e (b.take n) = if 11 ≤ n then parseSubheaderMc3e b else .ok none := by
  by_cases hn : 11 ≤ n
  · obtain ⟨sh, route, dataLen, endCode, hsplit⟩ := exists_mc3eHeader (Nat.le_trans hn hb)
    have hheader := length_mc3eHeader sh route dataLen endCode
    rw [if_pos hn, hsplit, take_header _ _ (by omega), parseSubheaderMc3e_header,
      parseSubheaderMc3e_header]
  · rw [if_neg hn, parseSubheaderMc3e, if_neg (by rw [List.length_take_of_le hb]; exact hn),
      pure_eq_ok]

theorem parseMc3e_take {b : Bytes} {n : Nat} (hn : 9 ≤ n) (hb : n ≤ b.length) :
    parseMc3e (b.take n) = parseMc3e b := by
  obtain ⟨route, dataLen, endCode, hsplit⟩ := exists_bareHeader (Nat.le_trans hn hb)
  have hheader := length_bareHeader route dataLen endCode
  rw [hsplit, take_header _ _ (by omega), parseMc3e_header, parseMc3e_header]

/-- **Behind its header a frame may be cut anywhere: the same layout finds the same header.** -/
theorem ParsesBy.take {b : Bytes} {layout : HeaderLayout} {parsed : FrameParseResult} {n : Nat}
    (h : ParsesBy b layout parsed) (hn : parsed.dataOffset ≤ n) (hb : n ≤ b.length) :
    ParsesBy (b.take n) layout parsed := by
  have hlen' : (b.take n).length = n := List.length_take_of_le hb
  cases h with
  | mc4e hlen hstart hparse =>
      rcases mc4e_spec hstart with ⟨parsed', hparse', -, hoffset, -⟩ | ⟨msg, -, herr, -⟩
      · rw [hparse, Except.ok.injEq] at hparse'
        rw [hparse', hoffset] at hn
        refine .mc4e (by omega) ?_ (parseMc4e_take hstart hparse hn hb)
        rw [startsMc4e_take hb, if_pos hn, hstart]
      · rw [hparse] at herr
        exact absurd herr (by simp [protocolError])
  | subheaderMc3e hlen hstart hparse =>
      obtain ⟨found, hfound, -, hoffset⟩ := subheaderMc3e_spec b
      rw [hparse, Except.ok.injEq] at hfound
      rw [(hoffset parsed hfound.symm).1] at hn
      refine .subheaderMc3e (by omega) (startsMc4e_take_false hb hstart) ?_
      rw [parseSubheaderMc3e_take hb, if_pos hn, hparse]
  | mc3e hlen hstart hsub hparse =>
      obtain ⟨found, hfound, -, hoffset⟩ := mc3e_spec b
      rw [hparse, Except.ok.injEq] at hfound
      rw [(hoffset parsed hfound.symm).1] at hn
      refine .mc3e (by omega) (startsMc4e_take_false hb hstart) ?_ ?_
      · rw [parseSubheaderMc3e_take hb, hsub]
        split <;> rfl
      · rw [parseMc3e_take hn hb, hparse]

/-! ### Both functions on one buffer -/

/-- What `detect_frame` announces is what `parse_frame` finds through a layout, and only
where the MC4E header is malformed is there an error. -/
theorem detectFrame_spec (b : Bytes) :
    (∃ layout parsed, ParsesBy b layout parsed ∧ detectFrame b = .ok (some (announced parsed))) ∨
    (detectFrame b = .ok none ∧ ∀ layout parsed, ¬ ParsesBy b layout parsed) ∨
    ∃ msg msg', detectFrame b = protocolError msg ∧ parseFrame b = protocolError msg' := by
  by_cases hlen : 2 ≤ b.length
  · obtain ⟨starts, hstart⟩ := exists_startsMc4e b
    cases starts with
    | true =>
        rcases mc4e_spec hstart with ⟨parsed, hparse, hdetect, -⟩ | ⟨msg, msg', herr, hdetect⟩
        · exact .inl ⟨.mc4e, parsed, .mc4e hlen hstart hparse, hdetect⟩
        · refine .inr (.inr ⟨msg', msg, hdetect, ?_⟩)
          rw [parseFrame_eq_parseMc4e hlen hstart, herr]
    | false =>
        obtain ⟨sub, hsub, hdetectSub, -⟩ := subheaderMc3e_spec b
        obtain ⟨bare, hbare, hdetectBare, -⟩ := mc3e_spec b
        have hdetect : detectFrame b = .ok ((sub.map announced).or (bare.map announced)) := by
          rw [detectFrame, if_neg (Nat.not_lt.mpr hlen), hstart, ok_bind,
            if_neg Bool.false_ne_true, hdetectSub, ok_bind, hdetectBare]
          cases sub <;> rfl
        rw [hdetect]
        cases sub with
        | some parsed => exact .inl ⟨.subheaderMc3e, parsed, .subheaderMc3e hlen hstart hsub, rfl⟩
        | none =>
            cases bare with
            | some parsed => exact .inl ⟨.mc3e, parsed, .mc3e hlen hstart hsub hbare, rfl⟩
            | none =>
                refine .inr (.inl ⟨rfl, ?_⟩)
                intro layout parsed h
                cases h with
                | mc4e _ hstart' _ => rw [hstart] at hstart'; exact absurd hstart' (by simp)
                | subheaderMc3e _ _ hparse => rw [hsub] at hparse; exact absurd hparse (by simp)
                | mc3e _ _ _ hparse => rw [hbare] at hparse; exact absurd hparse (by simp)
  · refine .inr (.inl ⟨?_, ?_⟩)
    · rw [detectFrame, if_pos (Nat.not_le.mp hlen)]
      rfl
    · intro layout parsed h
      cases h <;> exact hlen (by assumption)

/-- There is at most one header to find. -/
theorem ParsesBy.unique {b : Bytes} {layout layout' : HeaderLayout}
    {parsed parsed' : FrameParseResult} (h : ParsesBy b layout parsed)
    (h' : ParsesBy b layout' parsed') : parsed = parsed' := by
  have heq := h.parseFrame_eq.symm.trans h'.parseFrame_eq
  rw [Except.ok.injEq] at heq
  exact heq

/-- The data of a frame that is there to its end. -/
theorem dataSlice_take {b : Bytes} {parsed : FrameParseResult}
    (hb : parsed.dataOffset + parsed.dataBytes ≤ b.length) :
    McRequest.dataSlice (b.take (parsed.dataOffset + parsed.dataBytes)) parsed =
      slice b parsed.dataOffset (parsed.dataOffset + parsed.dataBytes) := by
  have hlen := List.length_take_of_le hb
  rw [McRequest.dataSlice, if_pos (by omega), hlen, Nat.min_self, slice_of_le (by omega) (by omega),
    slice_of_le (by omega) hb, List.drop_take, List.take_take, Nat.min_self]

/-- **The two header readers agree on every buffer**, and when the whole frame is in the
buffer they agree on the bytes that are cut out of it. -/
theorem detect_parse_agree (b : Bytes) :
    (∀ (n h : Nat) (s : Option UInt16), detectFrame b = .ok (some (n, h, s)) ↔
      ∃ layout parsed, ParsesBy b layout parsed ∧ parseFrame b = .ok parsed ∧
        parsed.dataOffset = h ∧ h ≤ n ∧ parsed.dataBytes = n - h ∧ parsed.serialNumber = s) ∧
    (∀ e, detectFrame b = .error (.err e) → ∃ e', parseFrame b = .error (.err e')) ∧
    ∀ (n h : Nat) (s : Option UInt16) (layout : HeaderLayout) (parsed : FrameParseResult),
      detectFrame b = .ok (some (n, h, s)) → n ≤ b.length → ParsesBy b layout parsed →
        ParsesBy (b.take n) layout parsed ∧ parseFrame (b.take n) = .ok parsed ∧
        ∃ response, parseMcPayload (b.take n) = .ok response ∧ slice b h n = .ok response.data := by
  have hspec := detectFrame_spec b
  refine ⟨?_, ?_, ?_⟩
  · intro n h s
    constructor
    · intro hdetect
      rcases hspec with ⟨layout, parsed, hparses, hfound⟩ | ⟨hnone, -⟩ | ⟨msg, -, herr, -⟩
      · rw [hfound] at hdetect
        simp only [announced, Except.ok.injEq, Option.some.injEq, Prod.mk.injEq] at hdetect
        exact ⟨layout, parsed, hparses, hparses.parseFrame_eq, by omega, by omega, by omega,
          hdetect.2.2⟩
      · rw [hnone] at hdetect
        exact absurd hdetect (by simp)
      · rw [herr] at hdetect
        exact absurd hdetect (by simp [protocolError])
    · rintro ⟨layout, parsed, hparses, hframe, hoffset, hle, hbytes, hserial⟩
      rcases hspec with ⟨layout', parsed', hparses', hfound⟩ | ⟨-, hnone⟩ | ⟨-, msg, -, herr⟩
      · rw [hfound, ← hparses.unique hparses', announced, hoffset, hbytes, hserial,
          Nat.add_sub_cancel' hle]
      · exact absurd hparses (hnone layout parsed)
      · rw [herr] at hframe
        exact absurd hframe (by simp [protocolError])
  · intro e hdetect
    rcases hspec with ⟨layout, parsed, -, hfound⟩ | ⟨hnone, -⟩ | ⟨-, msg, -, herr⟩
    · rw [hfound] at hdetect
      exact absurd hdetect (by simp)
    · rw [hnone] at hdetect
      exact absurd hdetect (by simp)
    · exact ⟨_, herr⟩
  · intro n h s layout parsed hdetect hb hparses
    rcases hspec with ⟨layout', parsed', hparses', hfound⟩ | ⟨-, hnone⟩ | ⟨msg, -, herr, -⟩
    · rw [hfound, ← hparses.unique hparses'] at hdetect
      simp only [announced, Except.ok.injEq, Option.some.injEq, Prod.mk.injEq] at hdetect
      obtain ⟨hn, hh, -⟩ := hdetect
      have hcut := hparses.take (n := n) (by omega) hb
      have hfits : parsed.dataOffset + parsed.dataBytes ≤ b.length := hn ▸ hb
      have hslice := dataSlice_take hfits
      rw [hn, hh, slice_of_le (by omega) hb] at hslice
      refine ⟨hcut, hcut.parseFrame_eq, ?_⟩
      rw [parseMcPayload, hcut.parseFrame_eq, ok_bind, hslice, ok_bind, slice_of_le (by omega) hb]
      exact ⟨_, rfl, rfl⟩
    · exact absurd hparses (hnone layout parsed)
    · rw [herr] at hdetect
      exact absurd hdetect (by simp [protocolError])

/-- An answer of two data bytes, with the first byte of the next one behind it. -/
def answerAndMore : Bytes :=
  mc4eHeader mcSubheaderResponse 5 0 AccessRoute.default (dataLenField [1, 2]) 0 ++ [1, 2, 0xD4]

theorem detect_parse_agree_answer :
    ∃ layout parsed, ParsesBy (answerAndMore.take 17) layout parsed ∧
      parseFrame (answerAndMore.take 17) = .ok parsed ∧
      ∃ response, parseMcPayload (answerAndMore.take 17) = .ok response ∧
        slice answerAndMore 15 17 = .ok response.data := by
  have hdetect : detectFrame answerAndMore = .ok (some (17, 15, some 5)) := by decide
  obtain ⟨layout, parsed, hparses, -⟩ :=
    ((detect_parse_agree answerAndMore).1 17 15 (some 5)).mp hdetect
  exact ⟨layout, parsed, (detect_parse_agree answerAndMore).2.2 17 15 (some 5) layout parsed hdetect
    (by decide) hparses⟩

end MelsecMc
