/-
The scan after a read stops.

`scanTurn` is one turn of the inner loop of `perform_stream_io`, with the `drain` calls as
they are: a drain of more than the buffer holds panics.  The lengths come off the wire, so
nothing about them is assumed.  What carries the argument is what a turn can do with them
(`scanTurn_again`): it goes on only after it has drained at least one byte that was there.
The buffer is the measure, and what is left of it is always a suffix of what came in.
-/
import MelsecMc.Lib.Loops
import MelsecMc.Proofs.Agreement
import MelsecMc.Transport

namespace MelsecMc

/-- One turn of the inner loop. -/
def scanTurn (expectedSerial : UInt16) (buf : Bytes) :
    Loops.Turn Bytes (Framing.Outcome UInt8 Panic) :=
  match scanVerdict expectedSerial buf with
  | .await => .done (.waiting buf)
  | .drop n =>
      if n ≤ buf.length then .again (buf.drop n) else .done (.aborted .indexOutOfBounds)
  | .deliver n =>
      if n ≤ buf.length then .done (.delivered (buf.take n) (buf.drop n))
      else .done (.aborted .indexOutOfBounds)
  | .abort p => .done (.aborted p)

/-- No index of `detect_frame` is out of bounds, whatever the buffer. -/
theorem detectFrame_no_panic (buf : Bytes) (p : Panic) : detectFrame buf ≠ .error (.panic p) := by
  intro h
  rcases detectFrame_spec buf with ⟨layout, parsed, -, hdetect⟩ | ⟨hdetect, -⟩ | ⟨msg, -, hdetect, -⟩
  · rw [h] at hdetect
    cases hdetect
  · rw [h] at hdetect
    cases hdetect
  · rw [h] at hdetect
    cases hdetect

theorem scanVerdict_no_panic (expectedSerial : UInt16) (buf : Bytes) (p : Panic) :
    scanVerdict expectedSerial buf ≠ .abort p := by
  intro h
  exact detectFrame_no_panic buf p (scanVerdict_abort h)

/-! ### One turn -/

/-- A turn that goes on has drained something, and no more than there was. -/
theorem scanTurn_again {expectedSerial : UInt16} {buf rest : Bytes}
    (h : scanTurn expectedSerial buf = .again rest) :
    ∃ n, scanVerdict expectedSerial buf = .drop n ∧ 0 < n ∧ n ≤ buf.length ∧ rest = buf.drop n := by
  rw [scanTurn] at h
  cases hv : scanVerdict expectedSerial buf with
  | drop n =>
      obtain ⟨hpos, hle⟩ := scanVerdict_drop hv
      rw [hv] at h
      dsimp only at h
      rw [if_pos hle, Loops.Turn.again.injEq] at h
      exact ⟨n, rfl, hpos, hle, h.symm⟩
  | await => rw [hv] at h; cases h
  | abort p => rw [hv] at h; cases h
  | deliver n =>
      rw [hv] at h
      dsimp only at h
      split at h <;> cases h

/-- How the loop ends: it waits, or it has drained a frame that was there. -/
theorem scanTurn_done {expectedSerial : UInt16} {buf : Bytes}
    {out : Framing.Outcome UInt8 Panic} (h : scanTurn expectedSerial buf = .done out) :
    (scanVerdict expectedSerial buf = .await ∧ out = .waiting buf) ∨
    ∃ n, scanVerdict expectedSerial buf = .deliver n ∧ n ≤ buf.length ∧
      out = .delivered (buf.take n) (buf.drop n) := by
  rw [scanTurn] at h
  cases hv : scanVerdict expectedSerial buf with
  | await =>
      rw [hv, Loops.Turn.done.injEq] at h
      exact .inl ⟨rfl, h.symm⟩
  | deliver n =>
      have hle := (scanVerdict_deliver hv).2.2.1
      rw [hv] at h
      dsimp only at h
      rw [if_pos hle, Loops.Turn.done.injEq] at h
      exact .inr ⟨n, rfl, hle, h.symm⟩
  | drop n =>
      rw [hv] at h
      dsimp only at h
      rw [if_pos (scanVerdict_drop hv).2] at h
      cases h
  | abort p => exact absurd hv (scanVerdict_no_panic expectedSerial buf p)

/-- At this buffer the loop can only wait: there is no header, or the frame it announces has
not all come. -/
def WaitsFor (buf : Bytes) : Prop :=
  detectFrame buf = .ok none ∨
    ∃ frameLen headerLen serialOpt, detectFrame buf = .ok (some (frameLen, headerLen, serialOpt)) ∧
      1 ≤ frameLen ∧ frameLen ≤ 65535 ∧ buf.length < frameLen

/-! ### The loop -/

/-- The turns and the recursive scan come to the same. -/
theorem scan_of_ends {expectedSerial : UInt16} {buf : Bytes} {visited : List Bytes}
    {out : Framing.Outcome UInt8 Panic}
    (h : Loops.Ends (scanTurn expectedSerial) buf visited out) :
    (receiver expectedSerial).scan buf = out := by
  induction h with
  | done h =>
      rcases scanTurn_done h with ⟨hv, rfl⟩ | ⟨n, hv, -, rfl⟩
      · exact (receiver expectedSerial).scan_await hv
      · exact (receiver expectedSerial).scan_deliver hv
  | again h hrest ih =>
      obtain ⟨n, hv, -, -, rfl⟩ := scanTurn_again h
      rw [(receiver expectedSerial).scan_drop hv, ih]

/-- The drains of a run: one in each turn that went on, and one of the frame handed out. -/
def drains (visited : List Bytes) : Framing.Outcome UInt8 Panic → Nat
  | .waiting _ => visited.length
  | .delivered _ _ => visited.length + 1
  | .aborted _ => visited.length

/-- What the loop leaves is the end of what it was given, behind the frame if it hands one
out, and it does not panic. -/
def LeavesSuffix (expectedSerial : UInt16) (buf : Bytes) : Framing.Outcome UInt8 Panic → Prop
  | .waiting rest => rest <:+ buf ∧ WaitsFor rest
  | .delivered frame rest =>
      frame ++ rest <:+ buf ∧ scanVerdict expectedSerial (frame ++ rest) = .deliver frame.length
  | .aborted _ => False

/-- The loop stops after these turns, with this outcome. -/
structure ScanStops (expectedSerial : UInt16) (buf : Bytes) (visited : List Bytes)
    (out : Framing.Outcome UInt8 Panic) : Prop where
  ends : Loops.Ends (scanTurn expectedSerial) buf visited out
  scanned : (receiver expectedSerial).scan buf = out
  drains_le : drains visited out ≤ buf.length
  fits : ∀ b ∈ visited, ∃ n, scanVerdict expectedSerial b = .drop n ∧ 0 < n ∧ n ≤ b.length
  leaves : LeavesSuffix expectedSerial buf out

/-- **The scan stops on every buffer, and never drains or indexes past its end.** -/
theorem scan_stops (expectedSerial : UInt16) (buf : Bytes) :
    (∃ visited out, ScanStops expectedSerial buf visited out) ∧
      ∀ p, detectFrame buf ≠ .error (.panic p) := by
  refine ⟨?_, detectFrame_no_panic buf⟩
  have hturn : ∀ b b', b <:+ buf → scanTurn expectedSerial b = .again b' →
      b' <:+ buf ∧ b'.length < b.length := by
    intro b b' hb h
    obtain ⟨n, -, hpos, hle, rfl⟩ := scanTurn_again h
    refine ⟨(List.drop_suffix n b).trans hb, ?_⟩
    rw [List.length_drop]
    omega
  obtain ⟨visited, out, hends⟩ := Loops.exists_ends hturn (List.suffix_refl buf)
  obtain ⟨last, hlast, hdone, hlen⟩ := hends.length_le hturn (List.suffix_refl buf)
  have hvisited := hends.invariant (fun b b' hb h => (hturn b b' hb h).1) (List.suffix_refl buf)
  refine ⟨visited, out, hends, scan_of_ends hends, ?_, ?_, ?_⟩
  · rcases scanTurn_done hdone with ⟨-, rfl⟩ | ⟨n, hv, hle, rfl⟩
    · show visited.length ≤ buf.length
      omega
    · have hpos := (scanVerdict_deliver hv).1
      show visited.length + 1 ≤ buf.length
      omega
  · intro b hb
    obtain ⟨-, b', h⟩ := hvisited b hb
    obtain ⟨n, hv, hpos, hle, -⟩ := scanTurn_again h
    exact ⟨n, hv, hpos, hle⟩
  · rcases scanTurn_done hdone with ⟨hv, rfl⟩ | ⟨n, hv, hle, rfl⟩
    · exact ⟨hlast, scanVerdict_await hv⟩
    · refine ⟨?_, ?_⟩
      · rw [List.take_append_drop]
        exact hlast
      · rw [List.take_append_drop, List.length_take, Nat.min_eq_left hle]
        exact hv

end MelsecMc
