/-
Behind a malformed header.

The receive loop skips the first byte of a malformed header, and then looks at the other
fourteen as if a frame began at each of them.  The frame behind the header is found, now or
after more has been read, exactly when all of them go and nothing more does
(`Scanner.finds_iff`): one byte where the look finds another malformed header or a frame too
long to be one, or nine to fourteen bytes at once where it takes them for a whole MC3E frame.
Anything else that is announced reaches into the frame, and where nothing is announced the loop
waits (`resynchronises_iff`).

The condition is about the fifteen bytes of the header alone and can be computed.  In a route of
ordinary values it fails: the bytes of the I/O number are taken for a length that reaches far
beyond the frame.
-/
import MelsecMc.Proofs.Agreement
import MelsecMc.Proofs.Session

namespace MelsecMc

/-- An MC4E header whose length field is too small to count its end code. -/
structure MalformedHeader where
  subheader : Vector UInt8 2
  serial : UInt16
  reserved : UInt16
  route : AccessRoute
  dataLen : UInt16
  endCode : UInt16
  lead : IsMc4eLead (leadByte subheader)
  short : dataLen.toNat < 2

def MalformedHeader.bytes (h : MalformedHeader) : Bytes :=
  mc4eHeader h.subheader h.serial h.reserved h.route h.dataLen h.endCode

/-- An MC4E frame with no more data than its length field can count. -/
structure Mc4eMessage where
  subheader : Vector UInt8 2
  serial : UInt16
  reserved : UInt16
  route : AccessRoute
  endCode : UInt16
  data : Bytes
  lead : IsMc4eLead (leadByte subheader)
  counted : data.length + 2 < 65536

def Mc4eMessage.bytes (f : Mc4eMessage) : Bytes :=
  mc4eHeader f.subheader f.serial f.reserved f.route (dataLenField f.data) f.endCode ++ f.data

/-! ### What is announced

A look at a buffer throws away one byte, a whole frame it has no use for, or nothing.  Which of
these it is does not depend on more than fifteen bytes, unless a frame is announced.
-/

/-- Only the first byte goes: the header is malformed, or the frame too long. -/
def SkipsByte (buf : Bytes) : Prop :=
  (∃ e, detectFrame buf = .error (.err e)) ∨
    ∃ frameLen headerLen serialOpt,
      detectFrame buf = .ok (some (frameLen, headerLen, serialOpt)) ∧ maxFrameLen < frameLen

/-- A frame of this length is announced. -/
def Announces (buf : Bytes) (frameLen : Nat) : Prop :=
  ∃ headerLen serialOpt, detectFrame buf = .ok (some (frameLen, headerLen, serialOpt))

/-- From byte `i` to byte `j` the bytes are skipped one by one. -/
def SkipsBetween (buf : Bytes) (i j : Nat) : Prop :=
  ∀ k, i ≤ k → k < j → SkipsByte (buf.drop k)

/-- The looks at bytes 1 to 14 lead to byte 15: one by one, or with one lookalike among them
that ends there or before. -/
def SkippedExactly (buf : Bytes) : Prop :=
  SkipsBetween buf 1 15 ∨
    ∃ p frameLen, 1 ≤ p ∧ p + frameLen ≤ 15 ∧ SkipsBetween buf 1 p ∧
      Announces (buf.drop p) frameLen ∧ SkipsBetween buf (p + frameLen) 15

/-- The first of the looks does not lead beyond byte 15. -/
theorem SkippedExactly.first {buf : Bytes} (h : SkippedExactly buf) :
    SkipsByte (buf.drop 1) ∨ ∃ n, 1 + n ≤ 15 ∧ Announces (buf.drop 1) n := by
  rcases h with hskips | ⟨p, n, hp, hle, hbefore, hannounces, -⟩
  · exact .inl (hskips 1 (by omega) (by omega))
  · by_cases hone : p = 1
    · rw [hone] at hle hannounces
      exact .inr ⟨n, hle, hannounces⟩
    · exact .inl (hbefore 1 (by omega) (by omega))

theorem u16At_append_left {a : Bytes} (b : Bytes) {i : Nat} (h : i + 1 < a.length) :
    u16At (a ++ b) i = u16At a i := by
  rw [u16At, u16At, byteAt_append_left b (by omega), byteAt_append_left b h]

/-- What fifteen bytes announce does not depend on what follows them. -/
theorem detectFrame_append {buf : Bytes} (h : 15 ≤ buf.length) (more : Bytes) :
    detectFrame (buf ++ more) = detectFrame buf := by
  have hle : buf.length ≤ (buf ++ more).length := by rw [List.length_append]; omega
  have hstart : startsMc4e (buf ++ more) = startsMc4e buf := by
    have htake := startsMc4e_take hle
    rw [List.take_left, if_pos h] at htake
    exact htake.symm
  have hmc3e : ∀ headerLen lenAt, headerLen ≤ 15 → lenAt + 1 < headerLen →
      detectMc3e headerLen lenAt (buf ++ more) = detectMc3e headerLen lenAt buf := by
    intro headerLen lenAt hheader hat
    have htake := detectMc3e_take hle hat
    rw [List.take_left, if_pos (by omega)] at htake
    exact htake.symm
  rw [detectFrame, detectFrame, hstart, hmc3e 11 7 (by omega) (by omega),
    hmc3e 9 5 (by omega) (by omega), u16At_append_left more (by omega),
    u16At_append_left more (by omega), if_neg (by omega), if_neg (by omega)]
  simp only [show 4 ≤ (buf ++ more).length by omega, show 4 ≤ buf.length by omega, if_true]

theorem ParsesBy.nine_le {b : Bytes} {layout : HeaderLayout} {parsed : FrameParseResult}
    (h : ParsesBy b layout parsed) : 9 ≤ parsed.dataOffset := by
  cases h with
  | mc4e hlen hstart hparse =>
      rcases mc4e_spec hstart with ⟨parsed', hparse', -, hoffset, -⟩ | ⟨msg, -, herr, -⟩
      · rw [hparse, Except.ok.injEq] at hparse'
        rw [hparse', hoffset]
        omega
      · rw [hparse] at herr
        cases herr
  | subheaderMc3e hlen hstart hparse =>
      obtain ⟨found, hfound, -, hoffset⟩ := subheaderMc3e_spec b
      rw [hparse, Except.ok.injEq] at hfound
      rw [(hoffset parsed hfound.symm).1]
      omega
  | mc3e hlen hstart hsub hparse =>
      obtain ⟨found, hfound, -, hoffset⟩ := mc3e_spec b
      rw [hparse, Except.ok.injEq] at hfound
      rw [(hoffset parsed hfound.symm).1]

/-- No frame is shorter than the shortest header. -/
theorem Announces.nine_le {buf : Bytes} {frameLen : Nat} (h : Announces buf frameLen) :
    9 ≤ frameLen := by
  obtain ⟨headerLen, serialOpt, hdetect⟩ := h
  rcases detectFrame_spec buf with ⟨layout, parsed, hparses, hfound⟩ | ⟨hnone, -⟩ | ⟨msg, -, herr, -⟩
  · rw [hdetect, Except.ok.injEq, Option.some.injEq, announced, Prod.mk.injEq] at hfound
    have hnine := hparses.nine_le
    omega
  · rw [hdetect] at hnone
    cases hnone
  · rw [hdetect] at herr
    cases herr

/-- What a look throws away, as long as that is less than an MC4E header. -/
theorem scanVerdict_drop_iff {expected : UInt16} (he : expected ≠ 0) {buf : Bytes} {n : Nat}
    (hshort : n < 15) (hle : n ≤ buf.length) :
    scanVerdict expected buf = .drop n ↔ (n = 1 ∧ SkipsByte buf) ∨ Announces buf n := by
  constructor
  · intro h
    cases hdetect : detectFrame buf with
    | error e =>
        rw [scanVerdict, hdetect] at h
        cases e with
        | panic p => cases h
        | err e =>
            rw [Framing.Verdict.drop.injEq] at h
            exact .inl ⟨h.symm, .inl ⟨e, hdetect⟩⟩
    | ok found =>
        rw [scanVerdict, hdetect] at h
        cases found with
        | none => cases h
        | some found =>
            obtain ⟨frameLen, headerLen, serialOpt⟩ := found
            have hannounces : Announces buf frameLen := ⟨headerLen, serialOpt, hdetect⟩
            have hnine := hannounces.nine_le
            dsimp only at h
            by_cases hmax : maxFrameLen < frameLen
            · rw [if_pos (.inr hmax), Framing.Verdict.drop.injEq] at h
              exact .inl ⟨h.symm, .inr ⟨frameLen, headerLen, serialOpt, hdetect, hmax⟩⟩
            · rw [if_neg (by omega)] at h
              split at h
              · cases h
              · split at h
                · cases h
                · rw [Framing.Verdict.drop.injEq] at h
                  exact .inr (h ▸ hannounces)
  · rintro (⟨rfl, ⟨e, he⟩ | ⟨frameLen, headerLen, serialOpt, hdetect, hmax⟩⟩ | hannounces)
    · rw [scanVerdict, he]
    · rw [scanVerdict, hdetect]
      exact if_pos (.inr hmax)
    · have hnine := hannounces.nine_le
      obtain ⟨headerLen, serialOpt, hdetect⟩ := hannounces
      have hnone : serialOpt = none := by
        cases serialOpt with
        | none => rfl
        | some serial =>
            have hfifteen := (detectFrame_serial hdetect).1
            omega
      have hserial : ¬ (expected = 0 ∨ (none : Option UInt16).getD 0 = expected) := by
        rintro (hzero | hzero)
        · exact he hzero
        · exact he hzero.symm
      rw [hnone] at hdetect
      rw [scanVerdict_of_whole expected hdetect (by omega) (by rw [maxFrameLen]; omega) hle,
        if_neg hserial]

/-! ### Fourteen bytes in front of a frame

From byte 1 of the header on, each look either skips a byte or takes nine bytes and more for a
frame.  Fourteen bytes have room for one such mistake, and the next look must be at the frame.
-/

section Border

variable {expected : UInt16} {front frame : Bytes}

theorem SkipsBetween.refl (buf : Bytes) (i : Nat) : SkipsBetween buf i i := by
  intro k hle hlt
  omega

theorem SkipsBetween.cons {buf : Bytes} {i j : Nat} (h : SkipsByte (buf.drop i))
    (hrest : SkipsBetween buf (i + 1) j) : SkipsBetween buf i j := by
  intro k hle hlt
  rcases Nat.eq_or_lt_of_le hle with rfl | hgt
  · exact h
  · exact hrest k hgt hlt

/-- A look in front of the frame sees at least fifteen bytes, so what it throws away is settled
by the header and the frame. -/
theorem scanVerdict_front_iff (he : expected ≠ 0) (hfront : front.length = 15)
    (hframe : 15 ≤ frame.length) (rest : Bytes) {p n : Nat} (hp : 1 ≤ p) (hle : p + n ≤ 15)
    (hn : 1 ≤ n) :
    scanVerdict expected (front.drop p ++ (frame ++ rest)) = .drop n ↔
      (n = 1 ∧ SkipsByte ((front ++ frame).drop p)) ∨ Announces ((front ++ frame).drop p) n := by
  have hdrop : front.drop p ++ (frame ++ rest) = (front ++ frame).drop p ++ rest := by
    rw [List.drop_append_of_le_length (by omega), List.append_assoc]
  have hlen : ((front ++ frame).drop p).length = 15 - p + frame.length := by
    rw [List.length_drop, List.length_append, hfront]
    omega
  have hdetect := detectFrame_append (show 15 ≤ ((front ++ frame).drop p).length by omega) rest
  rw [hdrop, scanVerdict_drop_iff he (by omega) (by rw [List.length_append]; omega), SkipsByte,
    SkipsByte, Announces, Announces, hdetect]

/-- Skipped bytes lead on. -/
theorem clears_of_skips (he : expected ≠ 0) (hfront : front.length = 15)
    (hframe : 15 ≤ frame.length) {rest : Bytes} {q : Nat} (hq : q ≤ 15)
    (hclears : (receiver expected).Clears (frame ++ rest) (front.drop q)) : ∀ {p : Nat}, 1 ≤ p →
    p ≤ q → SkipsBetween (front ++ frame) p q →
    (receiver expected).Clears (frame ++ rest) (front.drop p) := by
  intro p hp hpq hskips
  induction hk : q - p generalizing p with
  | zero =>
      have heq : p = q := by omega
      rw [heq]
      exact hclears
  | succ k ih =>
      have hverdict : scanVerdict expected (front.drop p ++ (frame ++ rest)) = .drop 1 :=
        (scanVerdict_front_iff he hfront hframe rest hp (by omega) (by omega)).mpr
          (.inl ⟨rfl, hskips p (by omega) (by omega)⟩)
      refine .drop hverdict (by rw [List.length_drop]; omega) ?_
      rw [List.drop_drop]
      exact ih (by omega) (by omega) (fun k' hle hlt => hskips k' (by omega) hlt) (by omega)

/-- What is thrown away was skipped, with at most one lookalike: a second one has no room. -/
theorem skips_of_clears (he : expected ≠ 0) (hfront : front.length = 15)
    (hframe : 15 ≤ frame.length) {rest remaining : Bytes}
    (h : (receiver expected).Clears (frame ++ rest) remaining) : ∀ {p : Nat}, 1 ≤ p → p ≤ 15 →
    remaining = front.drop p →
    SkipsBetween (front ++ frame) p 15 ∨
      ∃ q n, p ≤ q ∧ q + n ≤ 15 ∧ SkipsBetween (front ++ frame) p q ∧
        Announces ((front ++ frame).drop q) n ∧ SkipsBetween (front ++ frame) (q + n) 15 := by
  induction h with
  | done =>
      intro p hp hle hremaining
      have hlen := congrArg List.length hremaining
      rw [List.length_drop, List.length_nil] at hlen
      have heq : p = 15 := by omega
      rw [heq]
      exact .inl (SkipsBetween.refl _ _)
  | @drop remaining n hdrop hn hrest ih =>
      rintro p hp hle rfl
      have hpos := (receiver expected).drop_pos hdrop
      rw [List.length_drop, hfront] at hn
      have hnext := ih (show 1 ≤ p + n by omega) (by omega) (by rw [List.drop_drop])
      rcases (scanVerdict_front_iff he hfront hframe rest hp (by omega) hpos).mp hdrop with
        ⟨rfl, hskip⟩ | hannounces
      · rcases hnext with hskips | ⟨q, m, hq, hm, hskips, hannounces, hafter⟩
        · exact .inl (hskips.cons hskip)
        · exact .inr ⟨q, m, by omega, hm, hskips.cons hskip, hannounces, hafter⟩
      · have hnine := hannounces.nine_le
        rcases hnext with hskips | ⟨q, m, hq, hm, -, hannounces', -⟩
        · exact .inr ⟨p, n, by omega, by omega, SkipsBetween.refl _ _, hannounces, hskips⟩
        · have hnine' := hannounces'.nine_le
          omega

/-- From byte 1 the loop comes to byte 15. -/
theorem clears_iff (he : expected ≠ 0) (hfront : front.length = 15) (hframe : 15 ≤ frame.length)
    (rest : Bytes) :
    (receiver expected).Clears (frame ++ rest) (front.drop 1) ↔
      SkippedExactly (front ++ frame) := by
  have hborder : (receiver expected).Clears (frame ++ rest) (front.drop 15) := by
    rw [List.drop_of_length_le (by omega)]
    exact .done
  constructor
  · intro h
    exact skips_of_clears he hfront hframe h (by omega) (by omega) rfl
  · rintro (hskips | ⟨p, n, hp, hle, hbefore, hannounces, hafter⟩)
    · exact clears_of_skips he hfront hframe (by omega) hborder (by omega) (by omega) hskips
    · have hnine := hannounces.nine_le
      have hbehind := clears_of_skips he hfront hframe (by omega) hborder (by omega) (by omega) hafter
      have hverdict : scanVerdict expected (front.drop p ++ (frame ++ rest)) = .drop n :=
        (scanVerdict_front_iff he hfront hframe rest hp (by omega) (by omega)).mpr
          (.inr hannounces)
      refine clears_of_skips he hfront hframe (by omega) ?_ (by omega) hp hbefore
      refine .drop hverdict (by rw [List.length_drop]; omega) ?_
      rw [List.drop_drop]
      exact hbehind

end Border

/-! ### The header and the frame

A header that counts no end code is skipped by one byte.  What follows is the section above.
-/

namespace MalformedHeader

theorem length_bytes (h : MalformedHeader) : h.bytes.length = 15 := by
  rw [bytes, length_mc4eHeader]

/-- The header itself costs one byte. -/
theorem scanVerdict_bytes (h : MalformedHeader) (expected : UInt16) (tail : Bytes) :
    scanVerdict expected (h.bytes ++ tail) = .drop 1 := by
  obtain ⟨msg, herr⟩ := detectFrame_mc4eHeader_short h.lead h.serial h.reserved h.route h.endCode
    tail h.short
  rw [scanVerdict, bytes, herr]
  rfl

theorem clears_iff_drop (h : MalformedHeader) (expected : UInt16) (tail : Bytes) :
    (receiver expected).Clears tail h.bytes ↔ (receiver expected).Clears tail (h.bytes.drop 1) := by
  have hverdict : (receiver expected).verdict (h.bytes ++ tail) = .drop 1 :=
    h.scanVerdict_bytes expected tail
  have hlen := h.length_bytes
  constructor
  · intro hclears
    generalize hbytes : h.bytes = front at hclears hverdict hlen
    cases hclears with
    | done => cases hlen
    | drop hdrop hle hrest =>
        rw [hverdict, Framing.Verdict.drop.injEq] at hdrop
        rw [hdrop]
        exact hrest
  · exact fun hrest => .drop hverdict (by omega) hrest

/-- What is skipped of it does not depend on what follows the frame. -/
theorem stable {expected : UInt16} (he : expected ≠ 0) (h : MalformedHeader) {frame : Bytes}
    (hframe : 15 ≤ frame.length) : (receiver expected).Stable h.bytes frame := by
  intro front rest rest' n hsuf hle hdrop
  have hpos := (receiver expected).drop_pos hdrop
  obtain ⟨p, rfl⟩ : ∃ p, front = h.bytes.drop p := ⟨_, List.suffix_iff_eq_drop.mp hsuf⟩
  rw [List.length_drop, h.length_bytes] at hle
  by_cases hp : p = 0
  · rw [hp, List.drop_zero] at hdrop ⊢
    have hone := (h.scanVerdict_bytes expected (frame ++ rest)).symm.trans hdrop
    rw [← hone]
    exact h.scanVerdict_bytes expected (frame ++ rest')
  · have hiff := fun tail => scanVerdict_front_iff he h.length_bytes hframe tail
      (show 1 ≤ p by omega) (show p + n ≤ 15 by omega) hpos
    exact (hiff rest').mpr ((hiff rest).mp hdrop)

end MalformedHeader

namespace Mc4eMessage

theorem length_bytes (f : Mc4eMessage) : f.bytes.length = 15 + f.data.length := by
  rw [bytes, List.length_append, length_mc4eHeader]

/-- A frame the receive loop accepts. -/
def frame (f : Mc4eMessage) (h : f.bytes.length ≤ maxFrameLen) : Mc4eFrame where
  subheader := f.subheader
  serial := f.serial
  reserved := f.reserved
  route := f.route
  endCode := f.endCode
  data := f.data
  lead := f.lead
  fits := by
    rw [length_bytes] at h
    exact h

theorem delivers {f : Mc4eMessage} {expected : UInt16} (h : f.bytes.length ≤ maxFrameLen)
    (hserial : f.serial = expected) : (receiver expected).Delivers f.bytes :=
  Mc4eFrame.delivers (f := f.frame h) (.inr hserial)

end Mc4eMessage

/-- Nothing longer is returned. -/
theorem length_delivered_le {expected : UInt16} {buf frame rest : Bytes}
    (h : (receiver expected).scan buf = .delivered frame rest) : frame.length ≤ maxFrameLen := by
  obtain ⟨tail, n, -, hv, rfl, -⟩ := (receiver expected).scan_delivered h
  obtain ⟨-, hmax, hle, -⟩ := scanVerdict_deliver hv
  rw [List.length_take, Nat.min_eq_left hle]
  exact hmax

/-- A frame that is found lies where the looks at the header lead. -/
theorem skipped_of_finds {expected : UInt16} (he : expected ≠ 0) {h : MalformedHeader}
    {f : Mc4eMessage} {rest : Bytes}
    (hfinds : (receiver expected).Finds f.bytes (h.bytes ++ (f.bytes ++ rest)) rest) :
    SkippedExactly (h.bytes ++ f.bytes) := by
  have hframe : 15 ≤ f.bytes.length := by
    rw [f.length_bytes]
    omega
  have hclears := (receiver expected).clears_of_finds (h.stable he hframe) hfinds
    (List.suffix_refl _) rfl
  exact (clears_iff he h.length_bytes hframe rest).mp ((h.clears_iff_drop expected _).mp hclears)

/-- **The frame behind a malformed header is found, sooner or later, exactly when** the loop takes
any frame of its length and the looks at the other fourteen bytes of the header lead to it. -/
theorem resynchronises_iff (h : MalformedHeader) (f : Mc4eMessage) (rest : Bytes)
    {expected : UInt16} (hne : expected ≠ 0) (hserial : f.serial = expected) :
    (receiver expected).Finds f.bytes (h.bytes ++ (f.bytes ++ rest)) rest ↔
      f.bytes.length ≤ maxFrameLen ∧ SkippedExactly (h.bytes ++ f.bytes) := by
  have hframe : 15 ≤ f.bytes.length := by
    rw [f.length_bytes]
    omega
  constructor
  · intro hfinds
    obtain ⟨buf, rest', hscan⟩ := hfinds.exists_scan
    exact ⟨length_delivered_le hscan, skipped_of_finds hne hfinds⟩
  · rintro ⟨hfits, hskipped⟩
    refine ((receiver expected).finds_iff (h.stable hne hframe)
      (Mc4eMessage.delivers hfits hserial)).mpr ?_
    exact (h.clears_iff_drop expected _).mpr
      ((clears_iff hne h.length_bytes hframe rest).mpr hskipped)

theorem isMc4eLead_response : IsMc4eLead (leadByte mcSubheaderResponse) := .inr rfl

/-- A header of this route that announces nothing, not even its end code. -/
def emptyHeader (route : AccessRoute) : MalformedHeader where
  subheader := mcSubheaderResponse
  serial := 6
  reserved := 0
  route
  dataLen := 0
  endCode := 0
  lead := isMc4eLead_response
  short := by decide

/-- A whole answer of serial 7. -/
def shortAnswer : Mc4eMessage where
  subheader := mcSubheaderResponse
  serial := 7
  reserved := 0
  route := AccessRoute.default
  endCode := 0
  data := [0x34, 0x12]
  lead := isMc4eLead_response
  counted := by decide

/-- With I/O number 5 the other fourteen bytes of the header look like a whole MC3E frame. -/
theorem resynchronises_iff_ioFive :
    (receiver 7).Finds shortAnswer.bytes
        ((emptyHeader ⟨0, 0xFF, 0x0005, 0⟩).bytes ++ (shortAnswer.bytes ++ [])) [] ↔
      shortAnswer.bytes.length ≤ maxFrameLen ∧
        SkippedExactly ((emptyHeader ⟨0, 0xFF, 0x0005, 0⟩).bytes ++ shortAnswer.bytes) :=
  resynchronises_iff _ _ [] (by decide) rfl

/-- With the default route the I/O number is taken for a length of 1023: the loop waits for a
frame of 1032 bytes, and the answer is inside it. -/
theorem resynchronises_fails :
    (receiver 7).scan ((emptyHeader AccessRoute.default).bytes ++ (shortAnswer.bytes ++ [])) =
      .waiting ((emptyHeader AccessRoute.default).bytes.drop 1 ++ shortAnswer.bytes) ∧
    ¬ ∀ (h : MalformedHeader) (f : Mc4eMessage) (rest : Bytes) (expected : UInt16),
      expected ≠ 0 → f.serial = expected →
      (receiver expected).Finds f.bytes (h.bytes ++ (f.bytes ++ rest)) rest := by
  refine ⟨by decide +kernel, fun h => ?_⟩
  have hdetect : detectFrame (((emptyHeader AccessRoute.default).bytes ++ shortAnswer.bytes).drop 1) =
      .ok (some (1032, 11, none)) := by decide +kernel
  have hskipped := skipped_of_finds (by decide)
    (h (emptyHeader AccessRoute.default) shortAnswer [] 7 (by decide) rfl)
  rcases hskipped.first with hskips | ⟨n, hn, hannounces⟩
  · rcases hskips with ⟨e, he⟩ | ⟨frameLen, headerLen, serialOpt, hlong, hmax⟩
    · rw [hdetect] at he
      cases he
    · rw [hdetect] at hlong
      cases hlong
      exact absurd hmax (by decide)
  · obtain ⟨headerLen, serialOpt, hshort⟩ := hannounces
    rw [hdetect] at hshort
    cases hshort
    omega

end MelsecMc
