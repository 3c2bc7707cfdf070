/-
What is left in the buffer when a call returns.

`perform_stream_io` keeps its buffer to itself, and the connection outlives it: what a read
brought beyond the frame that is returned is gone.  The next call starts at the border of a
frame only if the last read of this one ended at one.  `GoodRead` is the condition on a read
for both things that can go wrong, the cut inside a header that `Proofs/Reassembly.lean` is
about and this one.

`Inv` follows the reads through the frames that arrived: between calls they stand at a
border, and during a call the buffer is what has been read of the frames not yet dropped.
With every read good it holds at every moment (`inv_run`), and `Served` is read off it.
-/
import MelsecMc.Lib.Runs
import MelsecMc.Proofs.Session
import MelsecMc.Reuse

namespace MelsecMc

namespace Link

/-! ### The statement

A link is one connection, a station that sends frames on it and one call after another that
reads.  `Served` is what the callers want; `GoodRead` is about the bytes of the next read only,
so the condition can be checked against any network.
-/

/-- Every call that ended returned a frame with its own serial, and a call that still reads
has not read the whole of one that came after its request was sent. -/
structure Served (w : Link) : Prop where
  returned : ∀ call result, w.call = some call → call.phase = .finished result →
    ∃ f ∈ w.arrived, f.serial = serialOf call.payload ∧ result = .ok f.bytes
  reading : ∀ call conn addrs buf, w.call = some call → call.phase = .reading conn addrs buf →
    ∀ before f after, w.arrived = before ++ f :: after → w.sentAt ≤ before.length →
      (stream (before ++ [f])).length ≤ w.taken → f.serial ≠ serialOf call.payload

/-- The next `n` bytes can be read without losing any. -/
structure GoodRead (w : Link) (n : Nat) : Prop where
  /-- the read ends at a safe position of the frame it ends in -/
  cut : ∀ before f k, ReadEndsIn w.arrived (w.taken + n) before f k → f.SafeCut k
  /-- one that completes a frame the call accepts ends where a frame ends -/
  border : ∀ call before f after, w.call = some call → w.arrived = before ++ f :: after →
    w.taken < (stream (before ++ [f])).length → (stream (before ++ [f])).length ≤ w.taken + n →
    f.Answers (serialOf call.payload) → ∃ d, w.taken + n = (stream (w.arrived.take d)).length
  /-- a call that takes the next frame whatever its serial finds one with serial 0 -/
  own : ∀ call before f k, w.call = some call → serialOf call.payload = 0 →
    ReadEndsIn w.arrived w.taken before f k → (stream (before ++ [f])).length ≤ w.taken + n →
    f.serial = 0

/-- Only reads can go wrong. -/
def GoodAction (w : Link) : LinkAction → Prop
  | .read n => w.GoodRead n
  | _ => True

end Link

/-! ### What a scan makes of the frames in front of it

A buffer begins at the border of a frame.  The loop drops the frames that do not answer and stops
at the first that does; or it runs out of whole frames, and waits with the rest of the last one.
-/

theorem scan_after_drops {own : UInt16} {mid : List Mc4eFrame} (hmid : ∀ g ∈ mid, ¬ g.Answers own)
    (rest : Bytes) : (receiver own).scan (stream mid ++ rest) = (receiver own).scan rest :=
  (receiver own).scan_drops (Mc4eFrame.drops_map hmid) rest

/-- The first `m` bytes of some frames: either a frame the call accepts is among those they
complete, or they are frames it drops and the front of the next. -/
inductive Front (own : UInt16) (frames : List Mc4eFrame) (m : Nat) : Prop
  | accepted (mid : List Mc4eFrame) (f : Mc4eFrame) (after : List Mc4eFrame)
      (hsplit : frames = mid ++ f :: after) (hmid : ∀ g ∈ mid, ¬ g.Answers own)
      (hf : f.Answers own) (hm : (stream (mid ++ [f])).length ≤ m)
  | partway (mid : List Mc4eFrame) (f : Mc4eFrame) (after : List Mc4eFrame) (k : Nat)
      (hsplit : frames = mid ++ f :: after) (hmid : ∀ g ∈ mid, ¬ g.Answers own)
      (hk : k < f.bytes.length) (hm : m = (stream mid).length + k)
  | all (hmid : ∀ g ∈ frames, ¬ g.Answers own) (hm : m = (stream frames).length)

theorem front (own : UInt16) (frames : List Mc4eFrame) :
    ∀ {m : Nat}, m ≤ (stream frames).length → Front own frames m := by
  induction frames with
  | nil =>
      intro m hm
      exact .all (by simp) (Nat.le_zero.mp hm)
  | cons f fs ih =>
      intro m hm
      by_cases hlt : m < f.bytes.length
      · exact .partway [] f fs m rfl (by simp) hlt (Nat.zero_add m).symm
      · by_cases hf : f.Answers own
        · refine .accepted [] f fs rfl (by simp) hf ?_
          rw [List.nil_append, stream_cons, List.length_append, show stream [] = [] from rfl,
            List.length_nil]
          omega
        · rw [stream_cons, List.length_append] at hm
          have hcons : ∀ mid : List Mc4eFrame, (∀ g ∈ mid, ¬ g.Answers own) →
              ∀ g ∈ f :: mid, ¬ g.Answers own := by
            intro mid hmid g hg
            rcases List.mem_cons.mp hg with rfl | hg
            · exact hf
            · exact hmid g hg
          have hlen : ∀ mid, (stream (f :: mid)).length = f.bytes.length + (stream mid).length := by
            intro mid
            rw [stream_cons, List.length_append]
          cases ih (m := m - f.bytes.length) (by omega) with
          | accepted mid g after hsplit hmid hg hm' =>
              refine .accepted (f :: mid) g after (by rw [hsplit, List.cons_append])
                (hcons mid hmid) hg ?_
              rw [List.cons_append, hlen]
              omega
          | partway mid g after k hsplit hmid hk hm' =>
              refine .partway (f :: mid) g after k (by rw [hsplit, List.cons_append])
                (hcons mid hmid) hk ?_
              rw [hlen]
              omega
          | all hmid hm' =>
              refine .all (hcons fs hmid) ?_
              rw [hlen]
              omega

namespace ReadEndsIn

variable {frames before : List Mc4eFrame} {f : Mc4eFrame} {p k : Nat}

theorem lt_length (h : ReadEndsIn frames p before f k) : p < (stream frames).length := by
  obtain ⟨after, hsplit⟩ := h.split
  have hlt := h.lt
  rw [h.pos, hsplit, stream_append, stream_cons, List.length_append, List.length_append]
  omega

/-- Frames of one length. -/
theorem eq_mod (h : ReadEndsIn frames p before f k) {len : Nat}
    (hlen : ∀ g ∈ frames, g.bytes.length = len) : k = p % len := by
  obtain ⟨after, hsplit⟩ := h.split
  have hbefore : ∀ g ∈ before, (List.length ∘ Mc4eFrame.bytes) g = len := by
    intro g hg
    exact hlen g (by rw [hsplit]; exact List.mem_append_left _ hg)
  have hk : k < len := by
    rw [← hlen f (by rw [hsplit]; exact List.mem_append_right _ List.mem_cons_self)]
    exact h.lt
  have hstream : (stream before).length = before.length * len := by
    have hconst : before.map (List.length ∘ Mc4eFrame.bytes) = List.replicate before.length len := by
      rw [List.map_congr_left hbefore, List.map_const']
    rw [stream, List.length_flatten, List.map_map, hconst, List.sum_replicate_nat]
  rw [h.pos, hstream, Nat.mul_comm, Nat.mul_add_mod, Nat.mod_eq_of_lt hk]

end ReadEndsIn

namespace Link

/-! ### The invariant

Everything that was read of the frames that arrived is in one of three places: in frames that
were dropped or returned, in the buffer of the call, or lost with the buffer of a call that
returned.  With good reads nothing is in the third.
-/

/-- Everything read so far is whole frames. -/
def AtBorder (w : Link) : Prop :=
  ∃ before after, w.arrived = before ++ after ∧ w.taken = (stream before).length

/-- A call that expects `own` has `buf` in its buffer: of what arrived, `before` is gone, no
response to the request among it, and the buffer is what has been read of the rest. -/
structure Reading (w : Link) (own : UInt16) (buf : Bytes) (before rest : List Mc4eFrame)
    (k : Nat) : Prop where
  split : w.arrived = before ++ rest
  taken : w.taken = (stream before).length + k
  buf : buf = (stream rest).take k
  lt : k = 0 ∨ ∃ f after, rest = f :: after ∧ k < f.bytes.length
  gone : ∀ f ∈ before.drop w.sentAt, f.serial ≠ own

/-- What holds of a call that expects `own`, by the await it is suspended at. -/
def PhaseOk (w : Link) (own : UInt16) : CallPhase → Prop
  | .resolving => w.AtBorder
  | .locking addrs => w.AtBorder ∧ (w.slot.isSome ∨ addrs ≠ [])
  | .connecting _ _ => w.AtBorder
  | .writing _ _ => w.AtBorder
  | .reading _ _ buf => ∃ before rest k, w.Reading own buf before rest k
  | .finished result => w.AtBorder ∧ ∃ f ∈ w.arrived, f.serial = own ∧ result = .ok f.bytes
  | .cancelled => False

structure Inv (w : Link) : Prop where
  idle : w.call = none → w.AtBorder
  call : ∀ call, w.call = some call → w.PhaseOk (serialOf call.payload) call.phase

theorem inv_start (addr : String) (conn : Conn) : (start addr conn).Inv where
  idle _ := ⟨[], [], rfl, rfl⟩
  call call h := by cases h

/-- The state after a step of the call. -/
theorem inv_of_phaseOk {w : Link} {call : TcpCall} (hcall : w.call = some call)
    (h : w.PhaseOk (serialOf call.payload) call.phase) : w.Inv where
  idle hnone := by
    rw [hcall] at hnone
    cases hnone
  call other hother := by
    rw [hcall, Option.some.injEq] at hother
    exact hother ▸ h

/-! ### Between the reads

A frame that arrives is added behind the others and changes nothing of what was read.  A call
that begins, writes or ends without a read leaves the reads where they stand.
-/

variable {w w' : Link}

theorem AtBorder.arrive (h : w.AtBorder) (g : Mc4eFrame) :
    AtBorder { w with arrived := w.arrived ++ [g] } := by
  obtain ⟨before, after, hsplit, htaken⟩ := h
  exact ⟨before, after ++ [g], by rw [hsplit, List.append_assoc], htaken⟩

theorem Reading.arrive {own : UInt16} {buf : Bytes} {before rest : List Mc4eFrame} {k : Nat}
    (h : w.Reading own buf before rest k) (g : Mc4eFrame) :
    Reading { w with arrived := w.arrived ++ [g] } own buf before (rest ++ [g]) k where
  split := by rw [h.split, List.append_assoc]
  taken := h.taken
  buf := by
    rw [h.buf, stream_append]
    rcases h.lt with rfl | ⟨f, after, rfl, hlt⟩
    · rfl
    · rw [List.take_append_of_le_length]
      rw [stream_cons, List.length_append]
      omega
  lt := by
    rcases h.lt with rfl | ⟨f, after, rfl, hlt⟩
    · exact .inl rfl
    · exact .inr ⟨f, after ++ [g], by rw [List.cons_append], hlt⟩
  gone := h.gone

theorem PhaseOk.arrive {own : UInt16} {phase : CallPhase} (h : w.PhaseOk own phase)
    (g : Mc4eFrame) : PhaseOk { w with arrived := w.arrived ++ [g] } own phase := by
  cases phase with
  | resolving => exact AtBorder.arrive h g
  | locking addrs => exact ⟨h.1.arrive g, h.2⟩
  | connecting remote addrs => exact AtBorder.arrive h g
  | writing conn addrs => exact AtBorder.arrive h g
  | reading conn addrs buf =>
      obtain ⟨before, rest, k, hreading⟩ := h
      exact ⟨before, rest ++ [g], k, hreading.arrive g⟩
  | finished result =>
      obtain ⟨hborder, f, hf, hresult⟩ := h
      exact ⟨hborder.arrive g, f, List.mem_append_left [g] hf, hresult⟩
  | cancelled => exact h

theorem Inv.arrive (hinv : w.Inv) (g : Mc4eFrame) :
    Inv { w with arrived := w.arrived ++ [g] } where
  idle hnone := (hinv.idle hnone).arrive g
  call call hcall := (hinv.call call hcall).arrive g

/-- A call that ended left the reads at a border. -/
theorem Inv.atBorder (hinv : w.Inv) (hdone : w.call.all TcpCall.isDone = true) : w.AtBorder := by
  cases hcall : w.call with
  | none => exact hinv.idle hcall
  | some call =>
      have hphaseOk := hinv.call call hcall
      rw [hcall, Option.all_some, TcpCall.isDone] at hdone
      split at hdone
      · rename_i result hphase
        rw [hphase] at hphaseOk
        exact hphaseOk.1
      · rename_i hphase
        rw [hphase] at hphaseOk
        exact hphaseOk.elim
      · cases hdone

theorem stepCall_eq_some {e : CallEvent} (h : w.stepCall e = some w') :
    ∃ call slot call', w.call = some call ∧ call.step w.slot e = some (slot, call') ∧
      w' = { w with slot, call := some call' } := by
  unfold stepCall at h
  split at h
  · cases h
  · rename_i call hcall
    split at h
    · cases h
    · rename_i slot call' hstep
      exact ⟨call, slot, call', hcall, hstep, (Option.some.inj h).symm⟩

theorem PhaseOk.nextRemote {own : UInt16} (hborder : w.AtBorder) {call : TcpCall}
    {addrs : List SocketAddr} (haddrs : addrs ≠ []) :
    w.PhaseOk own (call.nextRemote addrs).phase := by
  cases addrs with
  | nil => exact absurd rfl haddrs
  | cons remote rest => exact hborder

/-- The awaits of a call that are not reads. -/
theorem Inv.event (hinv : w.Inv) {e : CallEvent} (hstep : w.step (.event e) = some w') :
    w'.Inv := by
  simp only [step] at hstep
  split at hstep
  · rename_i hlasts
    obtain ⟨w'', hstepCall, rfl⟩ := Option.map_eq_some_iff.mp hstep
    obtain ⟨call, slot, call', hcall, hcallStep, rfl⟩ := stepCall_eq_some hstepCall
    refine inv_of_phaseOk rfl ?_
    have hphaseOk := hinv.call call hcall
    rw [(TcpCall.step_spec hcallStep).payload]
    cases TcpCall.step_cases hcallStep with
    | resolved hphase =>
        rw [hphase] at hphaseOk
        exact ⟨hphaseOk, by simpa [lasts] using hlasts⟩
    | nothingCached hphase hslot =>
        rw [hphase] at hphaseOk
        obtain ⟨hborder, haddrs⟩ := hphaseOk
        rw [hslot] at haddrs
        refine PhaseOk.nextRemote ?_ (haddrs.resolve_left (by simp))
        exact hborder
    | reuses hphase _ =>
        rw [hphase] at hphaseOk
        exact hphaseOk.1
    | connected hphase =>
        rw [hphase] at hphaseOk
        exact hphaseOk
    | wrote hphase =>
        rw [hphase] at hphaseOk
        obtain ⟨before, after, hsplit, htaken⟩ := hphaseOk
        refine ⟨before, after, 0, hsplit, htaken, rfl, .inl rfl, ?_⟩
        -- what is gone had arrived before the request was sent
        have hlen : before.length ≤ w.arrived.length := by
          rw [hsplit, List.length_append]
          omega
        intro f hf
        have hmem : f ∈ before.drop w.arrived.length := hf
        rw [List.drop_eq_nil_of_le hlen] at hmem
        cases hmem
    | _ => cases hlasts
  · cases hstep

/-! ### A read

The buffer with the new bytes is again a front of the frames behind the border, so the lemma
about scans applies.  Either the call goes on with what is left of a frame, or it returns a
frame, and then the read has to end with that frame.
-/

section Read

variable {own : UInt16} {buf : Bytes} {before rest : List Mc4eFrame} {k n : Nat}

/-- The buffer with the next `n` bytes behind it. -/
theorem Reading.buf_append (h : w.Reading own buf before rest k) :
    buf ++ ((stream w.arrived).drop w.taken).take n = (stream rest).take (k + n) := by
  rw [h.buf, h.split, h.taken, stream_append, List.drop_append, List.take_add]
  have hnil : (stream before).drop ((stream before).length + k) = [] :=
    List.drop_eq_nil_of_le (by omega)
  rw [hnil, List.nil_append, Nat.add_sub_cancel_left]

theorem Reading.length_le (h : w.Reading own buf before rest k)
    (hn : w.taken + n ≤ (stream w.arrived).length) : k + n ≤ (stream rest).length := by
  rw [h.split, h.taken, stream_append, List.length_append] at hn
  omega

/-- A frame behind the border ends behind what was read. -/
theorem Reading.taken_lt (h : w.Reading own buf before rest k) {mid after : List Mc4eFrame}
    {f : Mc4eFrame} (hsplit : rest = mid ++ f :: after) :
    w.taken < (stream (before ++ mid ++ [f])).length := by
  have hf := f.length_bytes
  rw [h.taken, stream_append, stream_append, List.length_append, List.length_append, stream_cons,
    List.length_append]
  rcases h.lt with rfl | ⟨g, after', hrest, hlt⟩
  · omega
  · cases mid with
    | nil =>
        rw [hrest, List.nil_append, List.cons.injEq] at hsplit
        rw [hsplit.1] at hlt
        omega
    | cons g' mid =>
        rw [hrest, List.cons_append, List.cons.injEq] at hsplit
        rw [hsplit.1] at hlt
        rw [stream_cons, List.length_append]
        omega

theorem Reading.gone_append (h : w.Reading own buf before rest k) {mid : List Mc4eFrame}
    (hmid : ∀ g ∈ mid, ¬ g.Answers own) : ∀ f ∈ (before ++ mid).drop w.sentAt, f.serial ≠ own := by
  intro f hf
  rw [List.drop_append] at hf
  rcases List.mem_append.mp hf with hf | hf
  · exact h.gone f hf
  · exact fun hserial => hmid f (List.mem_of_mem_drop hf) (.inr hserial)

/-- What one read of a call leads to: the call goes on, or it has its frame. -/
theorem Reading.onRead (h : w.Reading own buf before rest k) (hpos : 0 < n)
    (hn : w.taken + n ≤ (stream w.arrived).length)
    (hcut : ∀ before f k, ReadEndsIn w.arrived (w.taken + n) before f k → f.SafeCut k) :
    (∃ mid f after tail, rest = mid ++ f :: after ∧ (∀ g ∈ mid, ¬ g.Answers own) ∧
      f.Answers own ∧ (stream (before ++ mid ++ [f])).length ≤ w.taken + n ∧
      MelsecMc.onRead own buf (.ok (((stream w.arrived).drop w.taken).take n)) =
        .returned f.bytes tail) ∨
    ∃ buf' mid rest' k',
      MelsecMc.onRead own buf (.ok (((stream w.arrived).drop w.taken).take n)) = .waiting buf' ∧
      Reading { w with taken := w.taken + n } own buf' (before ++ mid) rest' k' := by
  have hle := h.length_le hn
  have hchunk : ((stream w.arrived).drop w.taken).take n ≠ [] := by
    intro hnil
    have hlen := congrArg List.length hnil
    rw [List.length_take, List.length_drop, List.length_nil] at hlen
    omega
  rw [onRead_ok own buf hchunk, h.buf_append]
  cases front own rest hle with
  | accepted mid f after hsplit hmid hf hm =>
      refine .inl ⟨mid, f, after, (stream after).take (k + n - (stream (mid ++ [f])).length),
        hsplit, hmid, hf, ?_, ?_⟩
      · rw [List.append_assoc, stream_append, List.length_append, h.taken]
        omega
      · have hrest : stream rest = stream (mid ++ [f]) ++ stream after := by
          rw [← stream_append, hsplit, List.append_assoc, List.singleton_append]
        rw [hrest, List.take_append, List.take_of_length_le hm, stream_append, List.append_assoc,
          scan_after_drops hmid, show stream [f] = f.bytes from List.append_nil f.bytes,
          (receiver own).scan_delivers (Mc4eFrame.delivers hf)]
        rfl
  | partway mid f after k' hsplit hmid hk hm =>
      refine .inr ⟨f.bytes.take k', mid, f :: after, k', ?_, ?_⟩
      · have hends : ReadEndsIn w.arrived (w.taken + n) (before ++ mid) f k' := by
          refine ⟨⟨after, by rw [h.split, hsplit, List.append_assoc]⟩, ?_, hk⟩
          rw [h.taken, stream_append, List.length_append]
          omega
        have hawait := (f.scanVerdict_take_iff own hk).mpr (hcut _ f k' hends)
        rw [hm, hsplit, stream_append, List.take_length_add_append, scan_after_drops hmid,
          stream_cons, List.take_append_of_le_length (Nat.le_of_lt hk),
          (receiver own).scan_await hawait]
        rfl
      · refine ⟨?_, ?_, ?_, .inr ⟨f, after, rfl, hk⟩, h.gone_append hmid⟩
        · show w.arrived = _
          rw [h.split, hsplit, List.append_assoc]
        · show w.taken + n = _
          rw [h.taken, stream_append, List.length_append]
          omega
        · rw [stream_cons, List.take_append_of_le_length (Nat.le_of_lt hk)]
  | all hmid hm =>
      refine .inr ⟨[], rest, [], 0, ?_, ?_⟩
      · have hscan := scan_after_drops hmid []
        rw [List.append_nil] at hscan
        have hawait : (receiver own).verdict [] = .await := scanVerdict_nil own
        rw [hm, List.take_length, hscan, (receiver own).scan_await hawait]
        rfl
      · refine ⟨?_, ?_, rfl, .inl rfl, h.gone_append hmid⟩
        · show w.arrived = _
          rw [h.split, List.append_nil]
        · show w.taken + n = _
          rw [h.taken, stream_append, List.length_append]
          omega

end Read

/-- A good read keeps the invariant.  When it ends the call, it ends at a border. -/
theorem Inv.read (hinv : w.Inv) {n : Nat} (hgood : w.GoodRead n)
    (hstep : w.step (.read n) = some w') : w'.Inv := by
  simp only [step] at hstep
  split at hstep
  · rename_i hread
    obtain ⟨hpos, -, hn⟩ := hread
    obtain ⟨w'', hstepCall, rfl⟩ := Option.map_eq_some_iff.mp hstep
    obtain ⟨call, slot, call', hcall, hcallStep, rfl⟩ := stepCall_eq_some hstepCall
    refine inv_of_phaseOk rfl ?_
    have hphaseOk := hinv.call call hcall
    rw [(TcpCall.step_spec hcallStep).payload]
    obtain ⟨conn, addrs, buf, hphase⟩ := TcpCall.reading_of_step hcallStep
    rw [hphase] at hphaseOk
    obtain ⟨before, rest, k, hreading⟩ := hphaseOk
    rcases hreading.onRead hpos hn hgood.cut with
      ⟨mid, f, after, tail, hsplit, hmid, hf, hm, hreturned⟩ |
      ⟨buf', mid, rest', k', hwaiting, hreading'⟩
    · rw [(TcpCall.Step.returns hphase hreturned).step_eq] at hcallStep
      cases hcallStep
      have hfull : w.arrived = before ++ mid ++ f :: after := by
        rw [hreading.split, hsplit, List.append_assoc]
      obtain ⟨d, hd⟩ := hgood.border call (before ++ mid) f after hcall hfull
        (hreading.taken_lt hsplit) hm hf
      refine ⟨⟨w.arrived.take d, w.arrived.drop d, (List.take_append_drop d _).symm, hd⟩,
        f, ?_, ?_, rfl⟩
      · show f ∈ w.arrived
        rw [hfull]
        exact List.mem_append_right _ List.mem_cons_self
      · rcases hf with hzero | hserial
        · -- every frame would do, so this is the one the read began in
          have hnil : mid = [] := by
            cases mid with
            | nil => rfl
            | cons g mid => exact absurd (.inl hzero) (hmid g List.mem_cons_self)
          subst hnil
          rw [List.append_nil] at hfull hm
          rw [hzero]
          refine hgood.own call before f k hcall hzero ⟨⟨after, hfull⟩, hreading.taken, ?_⟩ hm
          rcases hreading.lt with rfl | ⟨g, after', hrest, hlt⟩
          · rw [f.length_bytes]
            omega
          · rw [hsplit, List.nil_append, List.cons.injEq] at hrest
            exact hrest.1 ▸ hlt
        · exact hserial
    · rw [(TcpCall.Step.waits hphase hwaiting).step_eq] at hcallStep
      cases hcallStep
      exact ⟨before ++ mid, rest', k', hreading'.split, hreading'.taken, hreading'.buf,
        hreading'.lt, hreading'.gone⟩
  · cases hstep

theorem Inv.step (hinv : w.Inv) {a : LinkAction} (hgood : w.GoodAction a)
    (hstep : w.step a = some w') : w'.Inv := by
  cases a with
  | call payload =>
      simp only [Link.step] at hstep
      split at hstep
      · rename_i hdone
        cases hstep
        exact inv_of_phaseOk rfl (hinv.atBorder hdone)
      · cases hstep
  | event e => exact hinv.event hstep
  | arrive f =>
      cases hstep
      exact hinv.arrive f
  | read n => exact hinv.read hgood hstep

theorem inv_run {addr : String} {conn : Conn} {actions : List LinkAction}
    (hgood : Runs.Along Link.step GoodAction (start addr conn) actions)
    (hrun : Runs.run Link.step (start addr conn) actions = some w) : w.Inv :=
  Runs.run_invariant_along (fun _ _ _ hinv hgood hstep => hinv.step hgood hstep) actions
    (inv_start addr conn) hgood hrun

/-! ### Every call is answered

A frame that came in whole during a call and carries its serial cannot have been passed
over.
-/

/-- A frame that has been read whole is gone. -/
theorem Reading.mem_gone {own : UInt16} {buf : Bytes} {before rest : List Mc4eFrame} {k : Nat}
    (h : w.Reading own buf before rest k) {front after : List Mc4eFrame} {f : Mc4eFrame}
    (hsplit : w.arrived = front ++ f :: after) (hsent : w.sentAt ≤ front.length)
    (hread : (stream (front ++ [f])).length ≤ w.taken) : f ∈ before.drop w.sentAt := by
  rw [h.split] at hsplit
  rcases List.append_eq_append_iff.mp hsplit with ⟨mid, hfront, hrest⟩ | ⟨mid, hbefore, hmid⟩
  · have hlt := h.taken_lt hrest
    rw [← hfront] at hlt
    omega
  · cases mid with
    | nil =>
        rw [List.append_nil] at hbefore
        have hrest : rest = [] ++ f :: after := hmid.symm
        have hlt := h.taken_lt hrest
        rw [List.append_nil, hbefore] at hlt
        omega
    | cons g mid =>
        rw [List.cons_append, List.cons.injEq] at hmid
        rw [hbefore, List.drop_append_of_le_length hsent, ← hmid.1]
        exact List.mem_append_right _ List.mem_cons_self

theorem Inv.served (hinv : w.Inv) : w.Served where
  returned := by
    intro call result hcall hphase
    have hphaseOk := hinv.call call hcall
    rw [hphase] at hphaseOk
    exact hphaseOk.2
  reading := by
    intro call conn addrs buf hcall hphase front f after hsplit hsent hread
    have hphaseOk := hinv.call call hcall
    rw [hphase] at hphaseOk
    obtain ⟨before, rest, k, hreading⟩ := hphaseOk
    exact hreading.gone f (hreading.mem_gone hsplit hsent hread)

/-- **While every read is good, every call gets the response with its own serial.** -/
theorem responses_kept {addr : String} {conn : Conn} {actions : List LinkAction} {w : Link}
    (hgood : Runs.Along step GoodAction (start addr conn) actions)
    (hrun : Runs.run step (start addr conn) actions = some w) : w.Served :=
  (inv_run hgood hrun).served

/-- A call whose request has a serial can read all there is. -/
theorem goodRead_all {w : Link} {n : Nat} (hall : w.taken + n = (stream w.arrived).length)
    (hserial : ∀ call, w.call = some call → serialOf call.payload ≠ 0) : w.GoodRead n where
  cut := by
    intro before f k hends
    have hlt := hends.lt_length
    omega
  border := by
    intro call before f after hcall hsplit hlt hle haccepts
    exact ⟨w.arrived.length, by rw [hall, List.take_length]⟩
  own := by
    intro call before f k hcall hzero hends hle
    exact absurd hzero (hserial call hcall)

/-- The requests have serials and the reads leave nothing. -/
def readsAll (w : Link) : LinkAction → Bool
  | .read n =>
      w.taken + n = (stream w.arrived).length ∧ w.call.all fun call => serialOf call.payload ≠ 0
  | _ => true

theorem goodAction_of_readsAll (w : Link) (a : LinkAction) (h : w.readsAll a = true) :
    w.GoodAction a := by
  cases a with
  | read n =>
      rw [readsAll, decide_eq_true_eq] at h
      refine goodRead_all h.1 ?_
      intro call hcall
      have hserial := h.2
      rw [hcall, Option.all_some, decide_eq_true_eq] at hserial
      exact hserial
  | _ => trivial

/-- Two calls; the answer to the first comes behind a stale one. -/
def twoCalls : List LinkAction :=
  [.call [0x54, 0, 1, 0], .event (.resolved ["remote"]), .event (.locked true),
    .event (.connected 7), .event .wrote, .arrive (emptyAnswer 9), .arrive (emptyAnswer 1),
    .read 30, .call [0x54, 0, 2, 0], .event (.resolved ["remote"]), .event (.locked true),
    .event .wrote, .arrive (emptyAnswer 2), .read 15]

theorem responses_kept_twoCalls :
    ∃ w, Runs.run step (start "plc" 7) twoCalls = some w ∧
      w.call.map TcpCall.phase = some (.finished (.ok (emptyAnswer 2).bytes)) ∧ w.Served := by
  have hends : (Runs.run step (start "plc" 7) twoCalls).map (fun w => w.call.map TcpCall.phase) =
      some (some (.finished (.ok (emptyAnswer 2).bytes))) := by decide +kernel
  have hall : Runs.Along step (fun w a => w.readsAll a = true) (start "plc" 7) twoCalls := by
    decide +kernel
  obtain ⟨w, hrun, hw⟩ := Option.map_eq_some_iff.mp hends
  exact ⟨w, hrun, hw, responses_kept (hall.mono goodAction_of_readsAll) hrun⟩

/-- No read ends eleven to fourteen bytes into a frame. -/
def ClearAction (w : Link) : LinkAction → Prop
  | .read n => ∀ before f k, ReadEndsIn w.arrived (w.taken + n) before f k → k < 11 ∨ 14 < k
  | _ => True

/-- In a stream of frames of fifteen bytes that can be computed. -/
def clearInFifteens (w : Link) : LinkAction → Bool
  | .read n => (w.arrived.all fun f => f.bytes.length = 15) ∧ (w.taken + n) % 15 < 11
  | _ => true

theorem clearAction_of_fifteens (w : Link) (a : LinkAction) (h : w.clearInFifteens a = true) :
    w.ClearAction a := by
  cases a with
  | read n =>
      rw [clearInFifteens, decide_eq_true_eq, List.all_eq_true] at h
      intro before f k hends
      have hk := hends.eq_mod fun g hg => of_decide_eq_true (h.1 g hg)
      omega
  | _ => trivial

/-- The answer to the first call comes twice, and its read brings five bytes of the second
copy along. -/
def overread : List LinkAction :=
  [.call [0x54, 0, 1, 0], .event (.resolved ["remote"]), .event (.locked true),
    .event (.connected 7), .event .wrote, .arrive (emptyAnswer 1), .arrive (emptyAnswer 1),
    .read 20, .call [0x54, 0, 2, 0], .event (.resolved ["remote"]), .event (.locked true),
    .event .wrote, .arrive (emptyAnswer 2), .read 25]

/-- The five bytes are gone with the first call, and the second waits for ever. -/
theorem responses_kept_fails :
    (Runs.run step (start "plc" 7) overread).map
        (fun w => (w.call, w.taken, (stream w.arrived).length, w.sentAt,
          w.arrived.map Mc4eFrame.serial)) =
      some (some ⟨"plc", [0x54, 0, 2, 0], none,
        .reading 7 ["remote"] ((emptyAnswer 1).bytes.drop 5 ++ (emptyAnswer 2).bytes)⟩,
        45, 45, 2, [1, 1, 2]) ∧
      ¬ ∀ (addr : String) (conn : Conn) (actions : List LinkAction) (w : Link),
        Runs.Along step ClearAction (start addr conn) actions →
        Runs.run step (start addr conn) actions = some w → w.Served := by
  have hends : (Runs.run step (start "plc" 7) overread).map
      (fun w => (w.call, w.taken, (stream w.arrived).length, w.sentAt,
          w.arrived.map Mc4eFrame.serial)) =
      some (some ⟨"plc", [0x54, 0, 2, 0], none,
        .reading 7 ["remote"] ((emptyAnswer 1).bytes.drop 5 ++ (emptyAnswer 2).bytes)⟩,
        45, 45, 2, [1, 1, 2]) := by decide +kernel
  have hclear : Runs.Along step (fun w a => w.clearInFifteens a = true) (start "plc" 7) overread := by
    decide +kernel
  refine ⟨hends, fun h => ?_⟩
  obtain ⟨w, hrun, hw⟩ := Option.map_eq_some_iff.mp hends
  simp only [Prod.mk.injEq] at hw
  obtain ⟨hcall, htaken, hlen, hsent, hserials⟩ := hw
  obtain ⟨first, rest, harrived, -, hrest⟩ := List.map_eq_cons_iff.mp hserials
  obtain ⟨second, rest', rfl, -, hrest'⟩ := List.map_eq_cons_iff.mp hrest
  obtain ⟨third, rest'', rfl, hserial, hnil⟩ := List.map_eq_cons_iff.mp hrest'
  rw [List.map_eq_nil_iff] at hnil
  subst hnil
  -- the answer to the second call has been read whole
  have hserved := h "plc" 7 overread w (hclear.mono clearAction_of_fifteens) hrun
  refine hserved.reading _ 7 ["remote"] _ hcall rfl [first, second] third [] harrived ?_ ?_ ?_
  · rw [hsent]
    exact Nat.le_refl 2
  · rw [htaken, ← hlen, harrived]
    exact Nat.le_refl _
  · rw [hserial]
    decide

end Link

end MelsecMc
