/-
Reassembling frames from a stream.

`perform_stream_io` looks at its buffer after every read, so what it does could depend
on where the reads cut the stream.  It does.  A look at fewer than fifteen bytes tries
only the MC3E layouts, and between nine and fourteen bytes of an MC4E frame those find
a length where there is none: in the reserved bytes and the network number, or in the
PC number and the low byte of the I/O number.  When the length found is one the buffer
already holds, or one above the maximum, bytes of the frame are thrown away.

`SafeCut` is that condition on a position inside a frame, computed from the header
fields alone.  The library turns it into the whole statement: with every cut safe the
reads do not matter, and the first unsafe cut loses bytes (`reassembles_iff`).
-/
import MelsecMc.Transport
import MelsecMc.Proofs.Request

namespace MelsecMc

/-! ### Bytes 2 and 3

Both transports take these two bytes of a request for its serial.
-/

theorem serialOf_mc4eHeader (sh : Vector UInt8 2) (serial reserved : UInt16) (route : AccessRoute)
    (dataLen code : UInt16) (tail : Bytes) :
    serialOf (mc4eHeader sh serial reserved route dataLen code ++ tail) = serial := by
  rw [mc4eHeader_eq]
  exact u16FromLeBytes_lo_hi serial

/-- In an MC3E frame they belong to the access route. -/
theorem serialOf_mc3eHeader (sh : Vector UInt8 2) (route : AccessRoute) (dataLen code : UInt16)
    (tail : Bytes) :
    serialOf (mc3eHeader sh route dataLen code ++ tail) =
      u16FromLeBytes route.networkNumber route.pcNumber := by
  rw [mc3eHeader_eq]
  rfl

theorem serialOf_buildWithFormat_mc4e (req : McRequest) :
    serialOf (req.buildWithFormat .mc4e) = req.serialNumber := by
  rw [McRequest.buildWithFormat_mc4e, serialOf_mc4eHeader]

theorem serialOf_buildWithFormat_mc3e (req : McRequest) :
    serialOf (req.buildWithFormat .mc3e) =
      u16FromLeBytes req.accessRoute.networkNumber req.accessRoute.pcNumber := by
  rw [McRequest.buildWithFormat_mc3e, serialOf_mc3eHeader]

/-! ### What the front of a frame looks like

An MC4E frame is announced by its first fifteen bytes.  A shorter front is looked at in the MC3E
layouts, whose length fields lie on other fields of the MC4E header.
-/

namespace Mc4eFrame

/-- What the eleven-byte layout takes for a length: PC number and low I/O byte. -/
def pcIoLen (f : Mc4eFrame) : Nat :=
  (u16FromLeBytes f.route.pcNumber (u16Lo f.route.ioNumber)).toNat

/-- What the nine-byte layout takes for a length: high reserved byte and network number. -/
def reservedNetLen (f : Mc4eFrame) : Nat :=
  (u16FromLeBytes (u16Hi f.reserved) f.route.networkNumber).toNat

/-- The frame length that the first `k` bytes seem to announce while the frame's own
header is incomplete. -/
def lookalikeLen (f : Mc4eFrame) (k : Nat) : Option Nat :=
  if 15 ≤ k then none
  else if 11 ≤ k ∧ 2 ≤ f.pcIoLen then some (11 + (f.pcIoLen - 2))
  else if 9 ≤ k ∧ 2 ≤ f.reservedNetLen then some (9 + (f.reservedNetLen - 2))
  else none

/-- The first `k` bytes seem to announce nothing, or a frame that is not there yet. -/
def SafeCut (f : Mc4eFrame) (k : Nat) : Prop :=
  ∀ n ∈ f.lookalikeLen k, k < n ∧ n ≤ maxFrameLen

theorem length_bytes (f : Mc4eFrame) : f.bytes.length = 15 + f.data.length := by
  rw [bytes, List.length_append, header, length_mc4eHeader]

theorem two_le_dataLen (f : Mc4eFrame) : (dataLenField f.data).toNat = f.data.length + 2 := by
  have hfits := f.fits
  exact McRequest.dataLenField_toNat (by omega)

/-! ### One look at a buffer that starts with a frame -/

theorem detectFrame_bytes (f : Mc4eFrame) (rest : Bytes) :
    detectFrame (f.bytes ++ rest) = .ok (some (f.bytes.length, 15, some f.serial)) := by
  have hlen := f.two_le_dataLen
  rw [bytes, List.append_assoc, header,
    detectFrame_mc4eHeader f.lead _ _ _ _ _ (by omega), hlen, Nat.add_sub_cancel,
    List.length_append, length_mc4eHeader]

/-- The header is there: the frame is announced with its own length. -/
theorem detectFrame_take (f : Mc4eFrame) {k : Nat} (hk : 15 ≤ k) :
    detectFrame (f.bytes.take k) = .ok (some (f.bytes.length, 15, some f.serial)) := by
  have hlen := f.two_le_dataLen
  rw [bytes, header, List.take_append, length_mc4eHeader,
    List.take_of_length_le (by rw [length_mc4eHeader]; exact hk),
    detectFrame_mc4eHeader f.lead _ _ _ _ _ (by omega), hlen, Nat.add_sub_cancel,
    List.length_append, length_mc4eHeader]

theorem detectMc3e_eleven (f : Mc4eFrame) :
    detectMc3e 11 7 f.bytes =
      .ok (if 2 ≤ f.pcIoLen then some (11 + (f.pcIoLen - 2), 11, none) else none) := by
  rw [bytes, header, mc4eHeader_eq]
  simp only [detectMc3e, u16At, List.cons_append, List.nil_append, byteAt_cons_succ,
    byteAt_cons_zero, ok_bind, pure_eq_ok, List.length_cons]
  rw [if_pos (by omega)]
  by_cases hlen : 2 ≤ f.pcIoLen
  · rw [if_pos hlen]
    exact if_pos hlen
  · rw [if_neg hlen]
    exact if_neg hlen

theorem detectMc3e_nine (f : Mc4eFrame) :
    detectMc3e 9 5 f.bytes =
      .ok (if 2 ≤ f.reservedNetLen then some (9 + (f.reservedNetLen - 2), 9, none) else none) := by
  rw [bytes, header, mc4eHeader_eq]
  simp only [detectMc3e, u16At, List.cons_append, List.nil_append, byteAt_cons_succ,
    byteAt_cons_zero, ok_bind, pure_eq_ok, List.length_cons]
  rw [if_pos (by omega)]
  by_cases hlen : 2 ≤ f.reservedNetLen
  · rw [if_pos hlen]
    exact if_pos hlen
  · rw [if_neg hlen]
    exact if_neg hlen

/-- The header is not there: what is announced is the lookalike, without a serial. -/
theorem detectFrame_take_short (f : Mc4eFrame) {k : Nat} (hk : k < 15) :
    ∃ headerLen, detectFrame (f.bytes.take k) =
      .ok ((f.lookalikeLen k).map fun n => (n, headerLen, none)) := by
  have hbytes : k ≤ f.bytes.length := by rw [f.length_bytes]; omega
  have htake : (f.bytes.take k).length = k := by rw [List.length_take, Nat.min_eq_left hbytes]
  have h11 := detectMc3e_take hbytes (show 7 + 1 < 11 by decide)
  have h9 := detectMc3e_take hbytes (show 5 + 1 < 9 by decide)
  rw [f.detectMc3e_eleven] at h11
  rw [f.detectMc3e_nine] at h9
  rw [lookalikeLen, if_neg (Nat.not_le.mpr hk)]
  by_cases htwo : k < 2
  · refine ⟨0, ?_⟩
    rw [detectFrame, if_pos (by rw [htake]; exact htwo), if_neg (by omega), if_neg (by omega)]
    rfl
  · by_cases hsub : 11 ≤ k ∧ 2 ≤ f.pcIoLen
    · refine ⟨11, ?_⟩
      rw [if_pos hsub.1, if_pos hsub.2] at h11
      rw [detectFrame_short (by omega) (by omega) h11, if_pos hsub]
      rfl
    · refine ⟨9, ?_⟩
      have hnone : detectMc3e 11 7 (f.bytes.take k) = .ok none := by
        rw [h11]
        split
        · rename_i hk11
          rw [if_neg fun hlen => hsub ⟨hk11, hlen⟩]
        · rfl
      rw [detectFrame_short (by omega) (by omega) hnone, if_neg (by simp), if_neg hsub, h9]
      by_cases hk9 : 9 ≤ k
      · by_cases hlen : 2 ≤ f.reservedNetLen
        · rw [if_pos hk9, if_pos hlen, if_pos ⟨hk9, hlen⟩]
          rfl
        · rw [if_pos hk9, if_neg hlen, if_neg fun h => hlen h.2]
          rfl
      · rw [if_neg hk9, if_neg fun h => hk9 h.1]
        rfl

/-! ### What the receive loop does there

With a whole frame in front the loop returns it or drops it, by its serial.  With a part of one
it waits, unless the part is taken for something else.
-/

theorem scanVerdict_bytes (f : Mc4eFrame) (expected : UInt16) (rest : Bytes) :
    scanVerdict expected (f.bytes ++ rest) =
      if expected = 0 ∨ f.serial = expected then .deliver f.bytes.length
      else .drop f.bytes.length := by
  have hlen := f.length_bytes
  have hfits := f.fits
  have hle : f.bytes.length ≤ (f.bytes ++ rest).length := by
    rw [List.length_append]
    omega
  rw [scanVerdict_of_whole expected (f.detectFrame_bytes rest) (by omega) (by rw [maxFrameLen]; omega)
    hle, Option.getD_some]

/-- The loop takes the frame for the answer. -/
def Answers (f : Mc4eFrame) (expected : UInt16) : Prop :=
  expected = 0 ∨ f.serial = expected

theorem drops {f : Mc4eFrame} {expected : UInt16} (h : ¬ f.Answers expected) :
    (receiver expected).Drops f.bytes := by
  intro rest
  exact (f.scanVerdict_bytes expected rest).trans (if_neg h)

theorem delivers {f : Mc4eFrame} {expected : UInt16} (h : f.Answers expected) :
    (receiver expected).Delivers f.bytes := by
  intro rest
  exact (f.scanVerdict_bytes expected rest).trans (if_pos h)

/-- The frames in front of the answer are the ones that do not answer. -/
theorem drops_map {frames : List Mc4eFrame} {expected : UInt16}
    (h : ∀ g ∈ frames, ¬ g.Answers expected) :
    ∀ bytes ∈ frames.map Mc4eFrame.bytes, (receiver expected).Drops bytes := by
  intro bytes hbytes
  obtain ⟨g, hg, rfl⟩ := List.mem_map.mp hbytes
  exact drops (h g hg)

/-- With the header there, the loop waits for the rest of the frame. -/
theorem scanVerdict_take_long (f : Mc4eFrame) (expected : UInt16) {k : Nat} (hk : 15 ≤ k)
    (hlt : k < f.bytes.length) : scanVerdict expected (f.bytes.take k) = .await := by
  have hlen := f.length_bytes
  have hfits := f.fits
  refine scanVerdict_of_part expected (f.detectFrame_take hk) (by rw [maxFrameLen]; omega) ?_
  rw [List.length_take, Nat.min_eq_left (Nat.le_of_lt hlt)]
  exact hlt

/-- **The loop waits at a cut exactly when the cut is safe.** -/
theorem scanVerdict_take_iff (f : Mc4eFrame) (expected : UInt16) {k : Nat}
    (hlt : k < f.bytes.length) :
    scanVerdict expected (f.bytes.take k) = .await ↔ f.SafeCut k := by
  rcases Nat.lt_or_ge k 15 with hshort | hlong
  · have htake : (f.bytes.take k).length = k := by
      rw [List.length_take, Nat.min_eq_left (Nat.le_of_lt hlt)]
    obtain ⟨headerLen, hdetect⟩ := f.detectFrame_take_short hshort
    rw [scanVerdict, hdetect, SafeCut]
    cases hlook : f.lookalikeLen k with
    | none => simp
    | some n =>
        have hmem : (∀ m ∈ some n, k < m ∧ m ≤ maxFrameLen) ↔ k < n ∧ n ≤ maxFrameLen := by simp
        rw [hmem, Option.map_some]
        simp only [Option.getD_none, htake]
        by_cases hbad : n = 0 ∨ n > maxFrameLen
        · rw [if_pos hbad]
          exact ⟨fun h => (by cases h), fun h => (by omega)⟩
        · rw [if_neg hbad]
          by_cases hk : k < n
          · rw [if_pos hk]
            exact ⟨fun _ => ⟨hk, (by omega)⟩, fun _ => rfl⟩
          · -- the lookalike is all there: it goes, delivered or dropped
            rw [if_neg hk]
            refine ⟨fun h => ?_, fun h => absurd h.1 hk⟩
            split at h <;> cases h
  · refine ⟨fun _ => ?_, fun _ => f.scanVerdict_take_long expected hlong hlt⟩
    rw [SafeCut, lookalikeLen, if_pos hlong]
    simp

end Mc4eFrame

/-! ### The loop as the library's receiver -/

/-- Where the loop stands after a scan. -/
def RecvState.ofOutcome : Framing.Outcome UInt8 Panic → RecvState
  | .waiting rest => .waiting rest
  | .delivered frame rest => .returned frame rest
  | .aborted p => .panicked p

theorem onRead_ok (expected : UInt16) (buf : Bytes) {chunk : Bytes} (hne : chunk ≠ []) :
    onRead expected buf (.ok chunk) = .ofOutcome ((receiver expected).scan (buf ++ chunk)) := by
  cases chunk with
  | nil => exact absurd rfl hne
  | cons b bs =>
      rw [onRead]
      · cases (receiver expected).scan (buf ++ b :: bs) <;> rfl
      · simp

/-- Reads that bring something are fed to the scanner one after another. -/
theorem receive_ok (expected : UInt16) {chunks : List Bytes} (hne : ∀ c ∈ chunks, c ≠ []) :
    ∀ buf, receive expected buf (chunks.map .ok) =
      .ofOutcome ((receiver expected).feed buf chunks) := by
  induction chunks with
  | nil => exact fun buf => rfl
  | cons chunk chunks ih =>
      intro buf
      have htail := ih fun c hc => hne c (List.mem_cons_of_mem chunk hc)
      rw [List.map_cons, receive, onRead_ok expected buf (hne chunk List.mem_cons_self),
        Framing.Scanner.feed]
      cases (receiver expected).scan (buf ++ chunk) with
      | waiting rest => exact htail rest
      | delivered frame rest => rfl
      | aborted p => rfl

theorem scanVerdict_nil (expected : UInt16) : scanVerdict expected [] = .await := rfl

/-! ### Where a read ends

A read ends inside one of the frames, or at the border in front of it.  What was read before that
frame is whole frames.
-/

theorem stream_append (fs gs : List Mc4eFrame) : stream (fs ++ gs) = stream fs ++ stream gs := by
  rw [stream, List.map_append, List.flatten_append, stream, stream]

theorem stream_cons (f : Mc4eFrame) (fs : List Mc4eFrame) : stream (f :: fs) = f.bytes ++ stream fs :=
  rfl

/-- Byte `p` of the stream is byte `k` of the frame `f`, which follows `before`. -/
structure ReadEndsIn (frames : List Mc4eFrame) (p : Nat) (before : List Mc4eFrame)
    (f : Mc4eFrame) (k : Nat) : Prop where
  split : ∃ after, frames = before ++ f :: after
  pos : p = (stream before).length + k
  lt : k < f.bytes.length

namespace ReadEndsIn

variable {frames before : List Mc4eFrame} {f : Mc4eFrame} {p k : Nat}

theorem cutAt (h : ReadEndsIn frames p before f k) :
    Framing.CutAt (frames.map Mc4eFrame.bytes) p (before.map Mc4eFrame.bytes) f.bytes k := by
  obtain ⟨after, hsplit⟩ := h.split
  exact ⟨⟨after.map Mc4eFrame.bytes, by rw [hsplit, List.map_append, List.map_cons]⟩, h.pos, h.lt⟩

theorem take_eq (h : ReadEndsIn frames p before f k) :
    (stream frames).take p = stream before ++ f.bytes.take k :=
  h.cutAt.take_eq

theorem border_le (h : ReadEndsIn frames p before f k) {d : Nat}
    (hd : (stream (frames.take d)).length ≤ p) :
    (stream (frames.take d)).length ≤ (stream before).length := by
  have hborder := h.cutAt.border_le (d := d)
  rw [← List.map_take] at hborder
  exact hborder hd

/-- Before the last frame there are only stale ones. -/
theorem mem_stale {stale : List Mc4eFrame} {last : Mc4eFrame}
    (h : ReadEndsIn (stale ++ [last]) p before f k) : ∀ g ∈ before, g ∈ stale := by
  obtain ⟨after, hsplit⟩ := h.split
  rcases List.append_eq_append_iff.mp hsplit with ⟨between, hbefore, hlast⟩ | ⟨between, hstale, -⟩
  · have hnil : between = [] := by
      cases between with
      | nil => rfl
      | cons g gs => simp at hlast
    rw [hbefore, hnil, List.append_nil]
    exact fun g hg => hg
  · intro g hg
    rw [hstale]
    exact List.mem_append_left between hg

end ReadEndsIn

theorem exists_readEndsIn {frames : List Mc4eFrame} {p : Nat} (hp : p < (stream frames).length) :
    ∃ before f k, ReadEndsIn frames p before f k := by
  obtain ⟨before, frame, k, ⟨after, hsplit⟩, hpos, hk⟩ :=
    Framing.exists_cutAt (frames.map Mc4eFrame.bytes) hp
  obtain ⟨before', tail, hframes, hbefore, htail⟩ := List.map_eq_append_iff.mp hsplit
  obtain ⟨f, after', rfl, hf, -⟩ := List.map_eq_cons_iff.mp htail
  subst hbefore hf
  exact ⟨before', f, k, ⟨after', hframes⟩, hpos, hk⟩

/-- What has been read before read `i` is a proper prefix of the whole. -/
theorem take_flatten_spec {chunks : List Bytes} (hne : ∀ c ∈ chunks, c ≠ []) {i : Nat}
    (hi : i < chunks.length) :
    (chunks.take i).flatten = chunks.flatten.take (chunks.take i).flatten.length ∧
      (chunks.take i).flatten.length < chunks.flatten.length := by
  have hcat : chunks.flatten = (chunks.take i).flatten ++ (chunks.drop i).flatten := by
    rw [← List.flatten_append, List.take_append_drop]
  have hchunk : 0 < chunks[i].length :=
    List.length_pos_iff.mpr (hne _ (List.getElem_mem hi))
  have hrest : (chunks.drop i).flatten = chunks[i] ++ (chunks.drop (i + 1)).flatten := by
    rw [List.drop_eq_getElem_cons hi, List.flatten_cons]
  constructor
  · rw [hcat, List.take_left]
  · rw [hcat, hrest, List.length_append, List.length_append]
    omega

/-! ### The whole stream

One direction is the library's: with settled buffers after every read the loop comes to what one
scan of everything comes to.  For the other, the first read that ends at an unsafe place throws
away bytes, and no later read can bring them back.
-/

/-- The reads give what one scan of the whole stream gives, and while they are coming
the buffer has lost whole frames and nothing else. -/
structure Reassembles (expected : UInt16) (frames : List Mc4eFrame) (chunks : List Bytes) :
    Prop where
  sameFrame : ∃ frame rest,
    (receiver expected).scan (stream frames) = .delivered frame rest ∧
      receive expected [] (chunks.map .ok) = .returned frame rest
  aligned : ∀ i < chunks.length, ∃ d,
    (stream (frames.take d)).length ≤ (chunks.take i).flatten.length ∧
      receive expected [] ((chunks.take i).map .ok) =
        .waiting ((chunks.take i).flatten.drop (stream (frames.take d)).length)

/-- Every read but the last ends at a safe position of the frame it ends in. -/
def SafeCuts (frames : List Mc4eFrame) (chunks : List Bytes) : Prop :=
  ∀ i < chunks.length, ∀ before f k,
    ReadEndsIn frames (chunks.take i).flatten.length before f k → f.SafeCut k

section Stream

variable {expected : UInt16} {stale : List Mc4eFrame} {last : Mc4eFrame} {chunks : List Bytes}

theorem drops_stale (he : expected ≠ 0) (hstale : ∀ f ∈ stale, f.serial ≠ expected)
    {before : List Mc4eFrame} (hbefore : ∀ g ∈ before, g ∈ stale) :
    ∀ bs ∈ before.map Mc4eFrame.bytes, (receiver expected).Drops bs :=
  Mc4eFrame.drops_map fun g hg h => h.elim he (hstale g (hbefore g hg))

/-- With everything in the buffer the loop returns the last frame. -/
theorem scan_stream (he : expected ≠ 0) (hstale : ∀ f ∈ stale, f.serial ≠ expected)
    (hlast : last.serial = expected) :
    (receiver expected).scan (stream (stale ++ [last])) = .delivered last.bytes [] := by
  rw [stream_append, stream, (receiver expected).scan_drops
    (drops_stale he hstale fun g hg => hg), stream_cons]
  exact (receiver expected).scan_delivers (Mc4eFrame.delivers (.inr hlast)) []

/-- A read that ends at a safe position leaves a settled buffer. -/
theorem settled_of_safe (he : expected ≠ 0) (hstale : ∀ f ∈ stale, f.serial ≠ expected)
    {p : Nat} {before : List Mc4eFrame} {f : Mc4eFrame} {k : Nat}
    (hcut : ReadEndsIn (stale ++ [last]) p before f k) (hsafe : f.SafeCut k) :
    (receiver expected).Settled ((stream (stale ++ [last])).take p) :=
  ⟨before.map Mc4eFrame.bytes, f.bytes.take k, drops_stale he hstale hcut.mem_stale,
    hcut.take_eq, (f.scanVerdict_take_iff expected hcut.lt).mpr hsafe⟩

/-- Where the loop stands after the first `i` reads, when the reads before were safe: it
has dropped the frames that are whole, and scanned the front of the next. -/
theorem receive_take (he : expected ≠ 0) (hstale : ∀ f ∈ stale, f.serial ≠ expected)
    (hne : ∀ c ∈ chunks, c ≠ []) (hflat : chunks.flatten = stream (stale ++ [last]))
    {i : Nat} (hi : i < chunks.length)
    (hsafe : ∀ j < i, ∀ before f k,
      ReadEndsIn (stale ++ [last]) (chunks.take j).flatten.length before f k → f.SafeCut k)
    {before : List Mc4eFrame} {f : Mc4eFrame} {k : Nat}
    (hcut : ReadEndsIn (stale ++ [last]) (chunks.take i).flatten.length before f k) :
    receive expected [] ((chunks.take i).map .ok) =
      .ofOutcome ((receiver expected).scan (f.bytes.take k)) := by
  have hreads : ∀ c ∈ chunks.take i, c ≠ [] := fun c hc => hne c (List.mem_of_mem_take hc)
  have hsettled : ∀ j, 0 < j → j < (chunks.take i).length →
      (receiver expected).Settled ((chunks.take i).take j).flatten := by
    intro j _ hj
    rw [List.length_take, Nat.lt_min] at hj
    rw [List.take_take, Nat.min_eq_left (Nat.le_of_lt hj.1)]
    obtain ⟨hpre, hlt⟩ := take_flatten_spec hne hj.2
    rw [hflat] at hlt
    obtain ⟨before', f', k', hcut'⟩ := exists_readEndsIn hlt
    rw [hpre, hflat]
    exact settled_of_safe he hstale hcut' (hsafe j hj.1 before' f' k' hcut')
  have hscan : (receiver expected).scan (chunks.take i).flatten =
      (receiver expected).scan (f.bytes.take k) := by
    rw [(take_flatten_spec hne hi).1, hflat, hcut.take_eq, stream,
      (receiver expected).scan_drops (drops_stale he hstale hcut.mem_stale)]
  rw [receive_ok expected hreads, (receiver expected).feed_eq_scan (scanVerdict_nil expected)
    hsettled, hscan]

theorem reassembles_of_safeCuts (he : expected ≠ 0) (hstale : ∀ f ∈ stale, f.serial ≠ expected)
    (hlast : last.serial = expected) (hne : ∀ c ∈ chunks, c ≠ [])
    (hflat : chunks.flatten = stream (stale ++ [last])) (hsafe : SafeCuts (stale ++ [last]) chunks) :
    Reassembles expected (stale ++ [last]) chunks where
  sameFrame := by
    refine ⟨last.bytes, [], scan_stream he hstale hlast, ?_⟩
    have hsettled : ∀ i, 0 < i → i < chunks.length →
        (receiver expected).Settled (chunks.take i).flatten := by
      intro i _ hi
      obtain ⟨hpre, hlt⟩ := take_flatten_spec hne hi
      rw [hflat] at hlt
      obtain ⟨before, f, k, hcut⟩ := exists_readEndsIn hlt
      rw [hpre, hflat]
      exact settled_of_safe he hstale hcut (hsafe i hi before f k hcut)
    rw [receive_ok expected hne, (receiver expected).feed_eq_scan (scanVerdict_nil expected)
      hsettled, hflat, scan_stream he hstale hlast]
    rfl
  aligned := by
    intro i hi
    obtain ⟨hpre, hlt⟩ := take_flatten_spec hne hi
    rw [hflat] at hlt
    obtain ⟨before, f, k, hcut⟩ := exists_readEndsIn hlt
    have hawait := (f.scanVerdict_take_iff expected hcut.lt).mpr (hsafe i hi before f k hcut)
    obtain ⟨after, hsplit⟩ := hcut.split
    have hpos := hcut.pos
    refine ⟨before.length, ?_, ?_⟩
    · rw [hsplit, List.take_left]
      omega
    · rw [receive_take he hstale hne hflat hi
        (fun j hj before f k hcut => hsafe j (Nat.lt_trans hj hi) before f k hcut) hcut,
        (receiver expected).scan_await hawait, hpre, hflat, hcut.take_eq, hsplit, List.take_left,
        List.drop_left]
      rfl

/-- An unsafe cut loses bytes: the induction is on the read, so that the first unsafe cut
is reached with the frames before it dropped and nothing else. -/
theorem safeCuts_of_aligned (he : expected ≠ 0) (hstale : ∀ f ∈ stale, f.serial ≠ expected)
    (hne : ∀ c ∈ chunks, c ≠ []) (hflat : chunks.flatten = stream (stale ++ [last]))
    (h : Reassembles expected (stale ++ [last]) chunks) : SafeCuts (stale ++ [last]) chunks := by
  intro i
  induction i using Nat.strongRecOn with
  | ind i ih =>
      intro hi before f k hcut
      obtain ⟨d, hd, hwait⟩ := h.aligned i hi
      rw [receive_take he hstale hne hflat hi (fun j hj => ih j hj (Nat.lt_trans hj hi)) hcut]
        at hwait
      have hborder := hcut.border_le hd
      have hpos := hcut.pos
      cases hscan : (receiver expected).scan (f.bytes.take k) with
      | delivered frame rest => rw [hscan] at hwait; cases hwait
      | aborted p => rw [hscan] at hwait; cases hwait
      | waiting rest =>
          rw [hscan, RecvState.ofOutcome, RecvState.waiting.injEq] at hwait
          have hk : k ≤ rest.length := by
            rw [hwait, List.length_drop]
            omega
          have hshorter := ((receiver expected).scan_waiting_length hscan).2
          by_contra hunsafe
          have hgo := hshorter fun hawait =>
            hunsafe ((f.scanVerdict_take_iff expected hcut.lt).mp hawait)
          rw [List.length_take] at hgo
          omega

/-- **The reads do not matter exactly when every one of them ends at a safe position.** -/
theorem reassembles_iff (he : expected ≠ 0) (hstale : ∀ f ∈ stale, f.serial ≠ expected)
    (hlast : last.serial = expected) (hne : ∀ c ∈ chunks, c ≠ [])
    (hflat : chunks.flatten = stream (stale ++ [last])) :
    Reassembles expected (stale ++ [last]) chunks ↔ SafeCuts (stale ++ [last]) chunks :=
  ⟨safeCuts_of_aligned he hstale hne hflat,
    reassembles_of_safeCuts he hstale hlast hne hflat⟩

end Stream

/-- An answer with no data to request `serial`, over the default route. -/
def emptyAnswer (serial : UInt16) : Mc4eFrame where
  subheader := mcSubheaderResponse
  serial
  reserved := 0
  route := AccessRoute.default
  endCode := 0
  data := []
  lead := Or.inr rfl
  fits := by decide

theorem reassembles_iff_emptyAnswer :
    Reassembles 2 ([emptyAnswer 1] ++ [emptyAnswer 2])
        [(emptyAnswer 1).bytes, (emptyAnswer 2).bytes] ↔
      SafeCuts ([emptyAnswer 1] ++ [emptyAnswer 2])
        [(emptyAnswer 1).bytes, (emptyAnswer 2).bytes] :=
  reassembles_iff (by decide) (by decide) rfl (by decide) (by decide)

/-- A read that ends eleven bytes into the answer loses its first byte, and the loop goes
on waiting after the last byte has come. -/
theorem reassembles_fails :
    receive 1 [] ([(emptyAnswer 1).bytes.take 11, (emptyAnswer 1).bytes.drop 11].map .ok) =
        .waiting ((emptyAnswer 1).bytes.drop 1) ∧
      ¬ ∀ (expected : UInt16) (stale : List Mc4eFrame) (last : Mc4eFrame) (chunks : List Bytes),
        expected ≠ 0 → (∀ f ∈ stale, f.serial ≠ expected) → last.serial = expected →
        (∀ c ∈ chunks, c ≠ [] ∧ c.length ≤ 4096) → chunks.flatten = stream (stale ++ [last]) →
        Reassembles expected (stale ++ [last]) chunks := by
  have hrun : receive 1 [] ([(emptyAnswer 1).bytes.take 11, (emptyAnswer 1).bytes.drop 11].map .ok)
      = .waiting ((emptyAnswer 1).bytes.drop 1) := by decide +kernel
  refine ⟨hrun, fun h => ?_⟩
  have hall := h 1 [] (emptyAnswer 1)
    [(emptyAnswer 1).bytes.take 11, (emptyAnswer 1).bytes.drop 11]
    (by decide) (by decide) rfl (by decide) (by decide)
  obtain ⟨frame, rest, -, hret⟩ := hall.sameFrame
  rw [hrun] at hret
  cases hret

end MelsecMc
