/-
A stream that has failed is never used again.

A call that takes the lock empties the slot first and fills it again only when an exchange
has succeeded, with the stream of that exchange.  In between the stream is in the hands of
the call alone, and every other way out of the exchange drops it.  `Inv` says this of one
moment and is kept by every action; the rest is read off it (`failed_stream_unused`).

`Move` lists what one step of a call can do, as far as the slot, the lock and the streams
are concerned: eight ways.

The lock is held across every await of an exchange, so a task that is cancelled there drops the
stream and the lock together: that is one of the ways out, and no special case.  An idle stream
that is too old is closed by the next call that takes the lock.  A stream the station has closed
in the meantime is found out by the exchange that uses it, which fails and drops it.
-/
import MelsecMc.Lib.Runs
import MelsecMc.Pool
import MelsecMc.Proofs.Session

namespace MelsecMc

/-! ### One step of one call

What matters here of a step is whether the slot is read or filled, whether the lock is taken or
let go, and whether the call has a stream before and after.  In these respects several of the
steps a call can make (`Proofs/Calls`) are the same.
-/

/-- What a step of a call does to the slot, and how its phase changes. -/
inductive Move (call : TcpCall) (slot : Option Conn) : CallEvent → Option Conn → TcpCall → Prop
  /-- before the lock, or out of it for good -/
  | outside {e : CallEvent} {call' : TcpCall} (hphase : call.phase.holdsLock = false)
      (hphase' : call'.phase.holdsLock = false) (hok : call'.phase.isOk = false)
      (hlock : ∀ fresh, e ≠ .locked fresh) (hconn : ∀ conn, e ≠ .connected conn)
      (herr : ∀ f, call'.phase = .finished (.error f) → call.phase = .resolving) :
      Move call slot e slot call'
  /-- the lock, and the cached stream is fresh -/
  | reuse {call' : TcpCall} {conn : Conn} (hphase : call.phase.holdsLock = false)
      (hslot : slot = some conn) (hphase' : call'.phase.exchange = some conn) :
      Move call slot (.locked true) none call'
  /-- the lock, and nothing to reuse -/
  | noReuse {fresh : Bool} {call' : TcpCall} (hphase : call.phase.holdsLock = false)
      (hslot : slot = none ∨ fresh = false) (hphase' : call'.phase.exchange = none)
      (hlock' : call'.phase.holdsLock = true ∨ call'.isDone = true)
      (hok : call'.phase.isOk = false) : Move call slot (.locked fresh) none call'
  /-- the exchange goes on -/
  | exchanging {e : CallEvent} {call' : TcpCall} {conn : Conn}
      (hphase : call.phase.exchange = some conn) (hphase' : call'.phase.exchange = some conn)
      (hlock : ∀ fresh, e ≠ .locked fresh) (hconn : ∀ conn, e ≠ .connected conn) :
      Move call slot e slot call'
  /-- the exchange succeeds -/
  | succeed {call' : TcpCall} {conn : Conn} {addrs : List SocketAddr} {buf frame rest : Bytes}
      {result : ReadResult} (hphase : call.phase = .reading conn addrs buf)
      (hread : onRead (serialOf call.payload) buf result = .returned frame rest)
      (hphase' : call'.phase = .finished (.ok frame)) :
      Move call slot (.read result) (some conn) call'
  /-- the exchange ends in another way -/
  | fail {e : CallEvent} {slot' : Option Conn} {call' : TcpCall} {conn : Conn}
      (hphase : call.phase.exchange = some conn) (hphase' : call'.phase.exchange = none)
      (hok : call'.phase.isOk = false)
      (hlock' : call'.phase.holdsLock = true ∨ call'.isDone = true)
      (hslot : slot' = none ∨ slot' = slot)
      (hlock : ∀ fresh, e ≠ .locked fresh) (hconn : ∀ conn, e ≠ .connected conn) :
      Move call slot e slot' call'
  /-- a new stream -/
  | connect {call' : TcpCall} {conn : Conn} (hphase : call.phase.exchange = none)
      (hheld : call.phase.holdsLock = true) (hphase' : call'.phase.exchange = some conn) :
      Move call slot (.connected conn) slot call'
  /-- no new stream, and the call ends -/
  | noConnect {e : CallEvent} {call' : TcpCall} (hphase : call.phase.exchange = none)
      (hheld : call.phase.holdsLock = true) (hdone : call'.isDone = true)
      (hok : call'.phase.isOk = false) (hlock : ∀ fresh, e ≠ .locked fresh)
      (hconn : ∀ conn, e ≠ .connected conn) : Move call slot e slot call'

namespace TcpCall

/-- The next address, if there is one: the call is connecting or done. -/
theorem nextRemote_spec (call : TcpCall) (addrs : List SocketAddr) :
    (call.nextRemote addrs).phase.exchange = none ∧
      ((call.nextRemote addrs).phase.holdsLock = true ∨ (call.nextRemote addrs).isDone = true) ∧
      (call.nextRemote addrs).phase.isOk = false := by
  cases addrs with
  | nil => exact ⟨rfl, .inr rfl, rfl⟩
  | cons remote rest => exact ⟨rfl, .inl rfl, rfl⟩

/-- A cancelled call does nothing more, and leaves the slot to itself. -/
theorem move_cancel {call : TcpCall} (slot : Option Conn) (hdone : call.isDone = false) :
    Move call slot .cancel slot { call with phase := .cancelled } := by
  cases hphase : call.phase with
  | resolving =>
      exact .outside (by rw [hphase]; rfl) rfl rfl (by simp) (by simp) (by simp)
  | locking addrs =>
      exact .outside (by rw [hphase]; rfl) rfl rfl (by simp) (by simp) (by simp)
  | writing conn addrs =>
      exact .fail (by rw [hphase]; rfl) rfl rfl (.inr rfl) (.inr rfl) (by simp) (by simp)
  | reading conn addrs buf =>
      exact .fail (by rw [hphase]; rfl) rfl rfl (.inr rfl) (.inr rfl) (by simp) (by simp)
  | connecting remote addrs =>
      exact .noConnect (by rw [hphase]; rfl) (by rw [hphase]; rfl) rfl rfl (by simp) (by simp)
  | finished result =>
      rw [isDone, hphase] at hdone
      exact absurd hdone (by simp)
  | cancelled =>
      rw [isDone, hphase] at hdone
      exact absurd hdone (by simp)

/-- **Every step of a call is one of these moves.** -/
theorem step_move {call call' : TcpCall} {slot slot' : Option Conn} {e : CallEvent}
    (h : call.step slot e = some (slot', call')) : Move call slot e slot' call' := by
  cases step_cases h with
  | cancelled hlive => exact move_cancel slot hlive
  | resolved hphase => exact .outside (by rw [hphase]; rfl) rfl rfl (by simp) (by simp) (by simp)
  | unresolved hphase =>
      exact .outside (by rw [hphase]; rfl) rfl rfl (by simp) (by simp) fun _ _ => hphase
  | nothingCached hphase hslot =>
      obtain ⟨hexchange, hlock, hok⟩ := nextRemote_spec call _
      exact .noReuse (by rw [hphase]; rfl) (.inl hslot) hexchange hlock hok
  | reuses hphase hslot => exact .reuse (by rw [hphase]; rfl) hslot rfl
  | expired hphase hslot =>
      obtain ⟨hexchange, hlock, hok⟩ := nextRemote_spec call _
      exact .noReuse (by rw [hphase]; rfl) (.inr rfl) hexchange hlock hok
  | wrote hphase => exact .exchanging (by rw [hphase]; rfl) rfl (by simp) (by simp)
  | writeFailed hphase =>
      obtain ⟨hexchange, hlock, hok⟩ := nextRemote_spec { call with lastErr := some _ } _
      exact .fail (by rw [hphase]; rfl) hexchange hok hlock (.inl rfl) (by simp) (by simp)
  | waits hphase _ => exact .exchanging (by rw [hphase]; rfl) rfl (by simp) (by simp)
  | returns hphase hread => exact .succeed hphase hread rfl
  | readFailed hphase _ =>
      obtain ⟨hexchange, hlock, hok⟩ := nextRemote_spec { call with lastErr := some _ } _
      exact .fail (by rw [hphase]; rfl) hexchange hok hlock (.inl rfl) (by simp) (by simp)
  | panics hphase _ =>
      exact .fail (by rw [hphase]; rfl) rfl rfl (.inr rfl) (.inr rfl) (by simp) (by simp)
  | connected hphase => exact .connect (by rw [hphase]; rfl) (by rw [hphase]; rfl) rfl
  | connectFailed hphase =>
      exact .noConnect (by rw [hphase]; rfl) (by rw [hphase]; rfl) rfl rfl (by simp) (by simp)
  | connectTimedOut hphase =>
      exact .noConnect (by rw [hphase]; rfl) (by rw [hphase]; rfl) rfl rfl (by simp) (by simp)

end TcpCall

/-! ### What a step does to the lock, the slot and the streams

One lemma for each thing the invariant speaks of, by cases over the moves.  The invariant below
is then kept field by field, without a look at the phases of a call.
-/

theorem CallPhase.holdsLock_of_exchange {phase : CallPhase} {conn : Conn}
    (h : phase.exchange = some conn) : phase.holdsLock = true := by
  cases phase <;> first | rfl | cases h

theorem CallPhase.exchange_eq_none {phase : CallPhase} (h : phase.holdsLock = false) :
    phase.exchange = none := by
  cases hexchange : phase.exchange with
  | none => rfl
  | some conn =>
      rw [holdsLock_of_exchange hexchange] at h
      cases h

theorem TcpCall.holdsLock_of_isDone {call : TcpCall} (h : call.isDone = true) :
    call.phase.holdsLock = false := by
  unfold TcpCall.isDone at h
  split at h
  · rename_i result hphase
    rw [hphase]
    rfl
  · rename_i hphase
    rw [hphase]
    rfl
  · cases h

theorem TcpCall.isDone_of_isOk {call : TcpCall} (h : call.phase.isOk = true) :
    call.isDone = true := by
  unfold CallPhase.isOk at h
  split at h
  · rename_i frame hphase
    rw [TcpCall.isDone, hphase]
  · cases h

namespace Move

variable {call call' : TcpCall} {slot slot' : Option Conn} {e : CallEvent}

/-- The lock is taken by `.locked` and kept until the call is done. -/
theorem holdsLock_after (h : Move call slot e slot' call') :
    ((∃ fresh, e = .locked fresh) ∧ call.phase.holdsLock = false ∧
      (call'.phase.holdsLock = true ∨ call'.isDone = true)) ∨
    ((∀ fresh, e ≠ .locked fresh) ∧
      (call'.phase.holdsLock = call.phase.holdsLock ∨
        call.phase.holdsLock = true ∧ call'.isDone = true)) := by
  cases h with
  | outside hphase hphase' hok hlock hconn herr =>
      exact .inr ⟨hlock, .inl (by rw [hphase, hphase'])⟩
  | reuse hphase hslot hphase' =>
      exact .inl ⟨⟨true, rfl⟩, hphase, .inl (CallPhase.holdsLock_of_exchange hphase')⟩
  | noReuse hphase hslot hphase' hlock' hok => exact .inl ⟨⟨_, rfl⟩, hphase, hlock'⟩
  | exchanging hphase hphase' hlock hconn =>
      refine .inr ⟨hlock, .inl ?_⟩
      rw [CallPhase.holdsLock_of_exchange hphase, CallPhase.holdsLock_of_exchange hphase']
  | succeed hphase hread hphase' =>
      refine .inr ⟨by simp, .inr ⟨by rw [hphase]; rfl, ?_⟩⟩
      rw [TcpCall.isDone, hphase']
  | fail hphase hphase' hok hlock' hslot hlock hconn =>
      have hheld := CallPhase.holdsLock_of_exchange hphase
      refine .inr ⟨hlock, ?_⟩
      rcases hlock' with hlock' | hdone
      · exact .inl (by rw [hlock', hheld])
      · exact .inr ⟨hheld, hdone⟩
  | connect hphase hheld hphase' =>
      refine .inr ⟨by simp, .inl ?_⟩
      rw [hheld, CallPhase.holdsLock_of_exchange hphase']
  | noConnect hphase hheld hdone hok hlock hconn => exact .inr ⟨hlock, .inr ⟨hheld, hdone⟩⟩

/-- Who holds the lock afterwards: the call's own task if the call does, else whoever had
it. -/
theorem holderAfter_iff (h : Move call slot e slot' call') {t : TaskId} {holder : Option TaskId}
    (hfree : ∀ fresh, e = .locked fresh → holder = none)
    (hheld : holder = some t ↔ call.phase.holdsLock = true) (u : TaskId) :
    World.holderAfter t e call' holder = some u ↔
      if u = t then call'.phase.holdsLock = true else holder = some u := by
  rcases h.holdsLock_after with ⟨⟨fresh, rfl⟩, hphase, hafter⟩ | ⟨hlock, hafter⟩
  · have hnone := hfree fresh rfl
    rw [World.holderAfter]
    rcases hafter with hafter | hdone
    · have hnot : ¬ call'.isDone = true := by
        intro hdone
        rw [TcpCall.holdsLock_of_isDone hdone] at hafter
        cases hafter
      rw [if_neg (by simp [hnot]), hafter, hnone]
      by_cases hu : u = t
      · simp [hu]
      · simp [hu, Ne.symm hu]
    · rw [if_pos ⟨hdone, rfl⟩, TcpCall.holdsLock_of_isDone hdone, hnone]
      simp
  · have hafter_eq : World.holderAfter t e call' holder =
        if call'.isDone ∧ holder = some t then none else holder := by
      cases e with
      | locked fresh => exact absurd rfl (hlock fresh)
      | _ => rfl
    rw [hafter_eq]
    by_cases hend : call'.isDone = true ∧ holder = some t
    · rw [if_pos hend, TcpCall.holdsLock_of_isDone hend.1, hend.2]
      by_cases hu : u = t
      · simp [hu]
      · simp [hu, Ne.symm hu]
    · rw [if_neg hend]
      by_cases hu : u = t
      · rw [if_pos hu, hu, hheld]
        rcases hafter with hsame | ⟨htrue, hdone⟩
        · rw [hsame]
        · exact absurd ⟨hdone, hheld.mpr htrue⟩ hend
      · rw [if_neg hu]

/-- The three ways to leave the slot, when a call that holds the lock finds it empty. -/
theorem slot_after (h : Move call slot e slot' call')
    (hempty : call.phase.holdsLock = true → slot = none) :
    slot' = none ∨
    (slot' = slot ∧ call.phase.holdsLock = false ∧ call'.phase.holdsLock = false ∧
      call'.phase.isOk = false ∧ ∀ fresh, e ≠ .locked fresh) ∨
    ∃ conn, slot' = some conn ∧ call.phase.exchange = some conn ∧ call'.phase.isOk = true := by
  cases h with
  | outside hphase hphase' hok hlock hconn herr =>
      exact .inr (.inl ⟨rfl, hphase, hphase', hok, hlock⟩)
  | reuse hphase hslot hphase' => exact .inl rfl
  | noReuse hphase hslot hphase' hlock' hok => exact .inl rfl
  | exchanging hphase hphase' hlock hconn =>
      exact .inl (hempty (CallPhase.holdsLock_of_exchange hphase))
  | succeed hphase hread hphase' =>
      exact .inr (.inr ⟨_, rfl, by rw [hphase]; rfl, by rw [hphase']; rfl⟩)
  | fail hphase hphase' hok hlock' hslot hlock hconn =>
      rcases hslot with rfl | rfl
      · exact .inl rfl
      · exact .inl (hempty (CallPhase.holdsLock_of_exchange hphase))
  | connect hphase hheld hphase' => exact .inl (hempty hheld)
  | noConnect hphase hheld hdone hok hlock hconn => exact .inl (hempty hheld)

/-- Where the stream of an exchange comes from. -/
theorem exchange_after (h : Move call slot e slot' call') {conn : Conn}
    (hconn : call'.phase.exchange = some conn) :
    call.phase.exchange = some conn ∨ (e = .locked true ∧ slot = some conn) ∨
      e = .connected conn := by
  cases h with
  | outside hphase hphase' hok hlock hfresh herr =>
      rw [CallPhase.holdsLock_of_exchange hconn] at hphase'
      cases hphase'
  | reuse hphase hslot hphase' =>
      rw [hphase'] at hconn
      exact .inr (.inl ⟨rfl, hslot.trans hconn⟩)
  | noReuse hphase hslot hphase' hlock' hok =>
      rw [hphase'] at hconn
      cases hconn
  | exchanging hphase hphase' hlock hfresh =>
      rw [hphase'] at hconn
      exact .inl (hphase.trans hconn)
  | succeed hphase hread hphase' =>
      rw [hphase'] at hconn
      cases hconn
  | fail hphase hphase' hok hlock' hslot hlock hfresh =>
      rw [hphase'] at hconn
      cases hconn
  | connect hphase hheld hphase' =>
      rw [hphase'] at hconn
      cases hconn
      exact .inr (.inr rfl)
  | noConnect hphase hheld hdone hok hlock hfresh =>
      have hfree := TcpCall.holdsLock_of_isDone hdone
      rw [CallPhase.holdsLock_of_exchange hconn] at hfree
      cases hfree

/-- Only a read ends a call with a frame, and it leaves its stream in the slot. -/
theorem returned (h : Move call slot e slot' call') (hok : call'.phase.isOk = true) :
    ∃ conn addrs buf result frame rest, call.phase = .reading conn addrs buf ∧
      e = .read result ∧ onRead (serialOf call.payload) buf result = .returned frame rest ∧
      call'.phase = .finished (.ok frame) ∧ slot' = some conn := by
  have hdone := TcpCall.isDone_of_isOk hok
  have hfree := TcpCall.holdsLock_of_isDone hdone
  cases h with
  | outside hphase hphase' hnotOk hlock hfresh herr =>
      rw [hnotOk] at hok
      cases hok
  | reuse hphase hslot hphase' =>
      rw [CallPhase.holdsLock_of_exchange hphase'] at hfree
      cases hfree
  | noReuse hphase hslot hphase' hlock' hnotOk =>
      rw [hnotOk] at hok
      cases hok
  | exchanging hphase hphase' hlock hfresh =>
      rw [CallPhase.holdsLock_of_exchange hphase'] at hfree
      cases hfree
  | succeed hphase hread hphase' =>
      exact ⟨_, _, _, _, _, _, hphase, rfl, hread, hphase', rfl⟩
  | fail hphase hphase' hnotOk hlock' hslot hlock hfresh =>
      rw [hnotOk] at hok
      cases hok
  | connect hphase hheld hphase' =>
      rw [CallPhase.holdsLock_of_exchange hphase'] at hfree
      cases hfree
  | noConnect hphase hheld hdone' hnotOk hlock hfresh =>
      rw [hnotOk] at hok
      cases hok

end Move

namespace Pool

theorem mem_spentAfter {phase phase' : CallPhase} {slot : Option Conn} {e : CallEvent}
    {spent : List Conn} {conn : Conn} :
    conn ∈ spentAfter phase phase' slot e spent ↔
      (phase.exchange = some conn ∧ phase'.exchange = none ∧ phase'.isOk = false) ∨
      (e = .locked false ∧ slot = some conn) ∨ conn ∈ spent := by
  have hexpired : conn ∈ (if e = .locked false then slot.toList else []) ↔
      e = .locked false ∧ slot = some conn := by
    by_cases he : e = .locked false
    · simp [he]
    · simp [he]
  unfold spentAfter
  rw [List.mem_append, List.mem_append, hexpired, or_assoc]
  refine or_congr ?_ Iff.rfl
  cases phase.exchange with
  | none => simp
  | some c =>
      by_cases hend : phase'.exchange = none ∧ phase'.isOk = false
      · simp [hend, eq_comm]
      · simp only [if_neg hend, List.not_mem_nil, false_iff]
        exact fun h => hend h.2

theorem mem_openedAfter {opened : List Conn} {e : CallEvent} {conn : Conn}
    (h : conn ∈ opened) : conn ∈ openedAfter opened e := by
  cases e with
  | connected fresh => exact List.mem_cons_of_mem fresh h
  | _ => exact h

/-- The pool after task `t` went through `e`, by which its call became `call'`. -/
def after (w : Pool) (t : TaskId) (e : CallEvent) (call : TcpCall) (slot' : Option Conn)
    (call' : TcpCall) : Pool where
  addr := w.addr
  slot := slot'
  holder := World.holderAfter t e call' w.holder
  opened := openedAfter w.opened e
  call := Function.update w.call t (some call')
  latest := latestAfter call.phase call'.phase w.latest
  spent := spentAfter call.phase call'.phase w.slot e w.spent

/-- A new call, of a task whose last one is done. -/
theorem step_begin {w w' : Pool} {t : TaskId} {payload : Bytes}
    (h : w.step (.begin t payload) = some w') :
    (w.call t).all TcpCall.isDone = true ∧ w' = { w with
      call := Function.update w.call t (some (TcpCall.start w.addr payload)) } := by
  simp only [step] at h
  split at h
  · exact ⟨‹_›, (Option.some.inj h).symm⟩
  · cases h

/-- An action of a call: where the call was, and what its step did. -/
theorem step_event {w w' : Pool} {t : TaskId} {e : CallEvent} (h : w.step (.event t e) = some w') :
    ∃ call call' slot', w.call t = some call ∧ w.mayHappen e = true ∧
      call.step w.slot e = some (slot', call') ∧ w' = w.after t e call slot' call' := by
  simp only [step] at h
  split at h
  · cases h
  · rename_i call hcall
    split at h
    · rename_i hmay
      split at h
      · cases h
      · rename_i slot' call' hstep
        exact ⟨call, call', slot', hcall, hmay, hstep, (Option.some.inj h).symm⟩
    · cases h

theorem step_eq_after {w : Pool} {t : TaskId} {e : CallEvent} {call call' : TcpCall}
    {slot' : Option Conn} (hcall : w.call t = some call) (hmay : w.mayHappen e = true)
    (hstep : call.step w.slot e = some (slot', call')) :
    w.step (.event t e) = some (w.after t e call slot' call') := by
  simp only [step, hcall, hmay, if_true, hstep]
  rfl

/-- What holds of the slot, the lock and the streams at every moment. -/
structure Inv (w : Pool) : Prop where
  /-- the cached stream is the one the most recent exchange succeeded on -/
  slot : ∀ conn, w.slot = some conn →
    w.latest = some (conn, .succeeded) ∧ conn ∈ w.opened ∧ conn ∉ w.spent
  spent : ∀ conn, conn ∈ w.spent → conn ∈ w.opened
  /-- at most one call holds the lock, and the slot is empty meanwhile -/
  holder : ∀ t, w.holder = some t ↔ ∃ call, w.call t = some call ∧ call.phase.holdsLock = true
  empty : ∀ t, w.holder = some t → w.slot = none
  exchange : ∀ t call conn, w.call t = some call → call.phase.exchange = some conn →
    conn ∈ w.opened ∧ conn ∉ w.spent

theorem inv_start (addr : String) : Inv (start addr) where
  slot conn h := by cases h
  spent conn h := by cases h
  holder t := by simp [start]
  empty t h := by cases h
  exchange t call conn h := by cases h

namespace Inv

variable {w w' : Pool} {t : TaskId}

/-- The lock of one call, when its phase is known. -/
theorem holder_iff (hinv : Inv w) {call : TcpCall} (hcall : w.call t = some call) :
    w.holder = some t ↔ call.phase.holdsLock = true := by
  rw [hinv.holder]
  constructor
  · rintro ⟨call', hcall', hheld⟩
    rw [hcall, Option.some.injEq] at hcall'
    exact hcall' ▸ hheld
  · intro hheld
    exact ⟨call, hcall, hheld⟩

theorem slot_empty (hinv : Inv w) {call : TcpCall} (hcall : w.call t = some call)
    (hheld : call.phase.holdsLock = true) : w.slot = none :=
  hinv.empty t ((hinv.holder_iff hcall).mpr hheld)

/-- A new call of a task touches nothing yet. -/
theorem begin (hinv : Inv w) {payload : Bytes} (hstep : w.step (.begin t payload) = some w') :
    Inv w' := by
  obtain ⟨hrest, rfl⟩ := step_begin hstep
  have hfree : w.holder ≠ some t := by
    intro hholder
    obtain ⟨call, hcall, hheld⟩ := (hinv.holder t).mp hholder
    rw [hcall, Option.all_some] at hrest
    rw [TcpCall.holdsLock_of_isDone hrest] at hheld
    cases hheld
  refine ⟨hinv.slot, hinv.spent, ?_, hinv.empty, ?_⟩
  · intro u
    by_cases hu : u = t
    · subst hu
      simp [hfree, TcpCall.start, CallPhase.holdsLock]
    · simpa [hu] using hinv.holder u
  · intro u call conn hcall hconn
    dsimp only at hcall ⊢
    by_cases hu : u = t
    · subst hu
      rw [Function.update_self, Option.some.injEq] at hcall
      subst hcall
      cases hconn
    · rw [Function.update_of_ne hu] at hcall
      exact hinv.exchange u call conn hcall hconn

/-! #### A step of a call, field by field

Another task may be in the middle of anything while this one moves.  It has the lock or it has
not; if this one has it, the other has no stream, and if the other has it, this one cannot have
taken one.
-/

section Event

variable {e : CallEvent} {call call' : TcpCall} {slot' : Option Conn}

/-- The stream in the slot is the one the last exchange succeeded on. -/
theorem slot_after (hinv : Inv w) (hcall : w.call t = some call)
    (hmove : Move call w.slot e slot' call') {conn : Conn} (hconn : slot' = some conn) :
    latestAfter call.phase call'.phase w.latest = some (conn, .succeeded) ∧
      conn ∈ openedAfter w.opened e ∧
      conn ∉ spentAfter call.phase call'.phase w.slot e w.spent := by
  have hempty : call.phase.holdsLock = true → w.slot = none := hinv.slot_empty hcall
  rcases hmove.slot_after hempty with hnone | ⟨hsame, hphase, hphase', -, hlock⟩ |
    ⟨c, hsome, hexchange, hok⟩
  · rw [hnone] at hconn
    cases hconn
  · rw [hsame] at hconn
    obtain ⟨hlatest, hopened, hspent⟩ := hinv.slot conn hconn
    have hnone : call.phase.exchange = none := CallPhase.exchange_eq_none hphase
    have hnone' : call'.phase.exchange = none := CallPhase.exchange_eq_none hphase'
    refine ⟨?_, mem_openedAfter hopened, ?_⟩
    · rw [latestAfter, hnone, hnone', hlatest]
    · rw [mem_spentAfter, hnone]
      simp [hlock, hspent]
  · rw [hsome, Option.some.injEq] at hconn
    subst hconn
    have hnone' : call'.phase.exchange = none :=
      CallPhase.exchange_eq_none (TcpCall.holdsLock_of_isDone (TcpCall.isDone_of_isOk hok))
    have hheld := CallPhase.holdsLock_of_exchange hexchange
    obtain ⟨hopened, hspent⟩ := hinv.exchange t call c hcall hexchange
    refine ⟨?_, mem_openedAfter hopened, ?_⟩
    · rw [latestAfter, hnone', hexchange]
      simp [hok]
    · rw [mem_spentAfter, hok, hempty hheld]
      simp [hspent]

theorem spent_after (hinv : Inv w) (hcall : w.call t = some call) {conn : Conn}
    (hconn : conn ∈ spentAfter call.phase call'.phase w.slot e w.spent) :
    conn ∈ openedAfter w.opened e := by
  rcases mem_spentAfter.mp hconn with ⟨hexchange, -⟩ | ⟨-, hcached⟩ | hspent
  · exact mem_openedAfter (hinv.exchange t call conn hcall hexchange).1
  · exact mem_openedAfter (hinv.slot conn hcached).2.1
  · exact mem_openedAfter (hinv.spent conn hspent)

/-- The lock is free when it is taken. -/
theorem holder_free (hmay : w.mayHappen e = true) {fresh : Bool} (he : e = .locked fresh) :
    w.holder = none := by
  subst he
  exact Option.isNone_iff_eq_none.mp hmay

theorem holder_after (hinv : Inv w) (hcall : w.call t = some call) (hmay : w.mayHappen e = true)
    (hmove : Move call w.slot e slot' call') (u : TaskId) :
    World.holderAfter t e call' w.holder = some u ↔
      if u = t then call'.phase.holdsLock = true else w.holder = some u :=
  hmove.holderAfter_iff (fun _ => holder_free hmay) (hinv.holder_iff hcall) u

theorem empty_after (hinv : Inv w) (hcall : w.call t = some call) (hmay : w.mayHappen e = true)
    (hmove : Move call w.slot e slot' call') {u : TaskId}
    (hu : World.holderAfter t e call' w.holder = some u) : slot' = none := by
  rw [hinv.holder_after hcall hmay hmove] at hu
  rcases hmove.slot_after (hinv.slot_empty hcall) with hnone | ⟨hsame, -, hphase', -, -⟩ |
    ⟨c, -, hexchange, hok⟩
  · exact hnone
  · by_cases ht : u = t
    · rw [if_pos ht, hphase'] at hu
      cases hu
    · rw [if_neg ht] at hu
      rw [hsame]
      exact hinv.empty u hu
  · by_cases ht : u = t
    · rw [if_pos ht, TcpCall.holdsLock_of_isDone (TcpCall.isDone_of_isOk hok)] at hu
      cases hu
    · rw [if_neg ht] at hu
      have hmine := (hinv.holder_iff hcall).mpr (CallPhase.holdsLock_of_exchange hexchange)
      rw [hmine, Option.some.injEq] at hu
      exact absurd hu.symm ht

/-- The stream of the task's own exchange: kept, taken from the slot, or new. -/
theorem exchange_own (hinv : Inv w) (hcall : w.call t = some call) (hmay : w.mayHappen e = true)
    (hmove : Move call w.slot e slot' call') {conn : Conn}
    (hconn : call'.phase.exchange = some conn) :
    conn ∈ openedAfter w.opened e ∧
      conn ∉ spentAfter call.phase call'.phase w.slot e w.spent := by
  rcases hmove.exchange_after hconn with hexchange | ⟨rfl, hcached⟩ | rfl
  · obtain ⟨hopened, hspent⟩ := hinv.exchange t call conn hcall hexchange
    have hempty := hinv.slot_empty hcall (CallPhase.holdsLock_of_exchange hexchange)
    refine ⟨mem_openedAfter hopened, ?_⟩
    rw [mem_spentAfter, hconn, hempty]
    simp [hspent]
  · obtain ⟨-, hopened, hspent⟩ := hinv.slot conn hcached
    refine ⟨mem_openedAfter hopened, ?_⟩
    rw [mem_spentAfter, hconn]
    simp [hspent]
  · have hnew : conn ∉ w.opened := by simpa [mayHappen] using hmay
    have hspent : conn ∉ w.spent := fun h => hnew (hinv.spent conn h)
    refine ⟨List.mem_cons_self, ?_⟩
    rw [mem_spentAfter, hconn]
    simp [hspent]

/-- While another task is in an exchange, this one neither has the lock nor takes it. -/
theorem exchange_other (hinv : Inv w) (hcall : w.call t = some call)
    (hmay : w.mayHappen e = true) {u : TaskId} (hu : u ≠ t) {other : TcpCall} {conn : Conn}
    (hother : w.call u = some other) (hconn : other.phase.exchange = some conn) :
    conn ∈ openedAfter w.opened e ∧
      conn ∉ spentAfter call.phase call'.phase w.slot e w.spent := by
  obtain ⟨hopened, hspent⟩ := hinv.exchange u other conn hother hconn
  have htheirs : w.holder = some u :=
    (hinv.holder_iff hother).mpr (CallPhase.holdsLock_of_exchange hconn)
  have hnotMine : call.phase.exchange = none := by
    refine CallPhase.exchange_eq_none ?_
    rw [← Bool.not_eq_true, ← hinv.holder_iff hcall, htheirs]
    simp [hu]
  have hlock : e ≠ .locked false := by
    intro he
    rw [holder_free hmay he] at htheirs
    cases htheirs
  refine ⟨mem_openedAfter hopened, ?_⟩
  rw [mem_spentAfter, hnotMine]
  simp [hlock, hspent]

end Event

theorem event (hinv : Inv w) {e : CallEvent} (hstep : w.step (.event t e) = some w') :
    Inv w' := by
  obtain ⟨call, call', slot', hcall, hmay, hcallStep, rfl⟩ := step_event hstep
  have hmove := TcpCall.step_move hcallStep
  refine ⟨?_, ?_, ?_, ?_, ?_⟩
  · intro conn hconn
    exact hinv.slot_after hcall hmove hconn
  · intro conn hconn
    exact hinv.spent_after hcall hconn
  · intro u
    show World.holderAfter t e call' w.holder = some u ↔
      ∃ other, Function.update w.call t (some call') u = some other ∧ other.phase.holdsLock = true
    rw [hinv.holder_after hcall hmay hmove]
    by_cases hu : u = t
    · subst hu
      simp
    · simpa [hu] using hinv.holder u
  · intro u hu
    exact hinv.empty_after hcall hmay hmove hu
  · intro u other conn hother hconn
    have hupdate : Function.update w.call t (some call') u = some other := hother
    by_cases hu : u = t
    · rw [hu, Function.update_self, Option.some.injEq] at hupdate
      subst hupdate
      exact hinv.exchange_own hcall hmay hmove hconn
    · rw [Function.update_of_ne hu] at hupdate
      exact hinv.exchange_other hcall hmay hu hupdate hconn

theorem step (hinv : Inv w) {a : PoolAction} (hstep : w.step a = some w') : Inv w' := by
  cases a with
  | begin t payload => exact hinv.begin hstep
  | event t e => exact hinv.event hstep

end Inv

/-- The invariant rule, for a target nobody had called. -/
theorem inv_run {addr : String} {actions : List PoolAction} {w : Pool}
    (h : Runs.run Pool.step (start addr) actions = some w) : Inv w :=
  Runs.run_invariant (fun _ _ _ hinv hstep => hinv.step hstep) actions (inv_start addr) h

/-- What one step of a call leaves in the slot, when the step ends the call. -/
structure EndsWell (w : Pool) (t : TaskId) (e : CallEvent) (w' : Pool) : Prop where
  /-- `Ok` leaves the stream the frame was read from -/
  ok : ∀ call' frame, w'.call t = some call' → call'.phase = .finished (.ok frame) →
    ∃ call conn addrs buf result rest, w.call t = some call ∧
      call.phase = .reading conn addrs buf ∧ e = .read result ∧
      onRead (serialOf call.payload) buf result = .returned frame rest ∧ w'.slot = some conn
  /-- a failure after the lock was taken leaves nothing -/
  failed : ∀ call' f, w'.call t = some call' → call'.phase = .finished (.error f) →
    (w.holder = some t ∨ ∃ fresh, e = .locked fresh) → w'.slot = none
  /-- so does a cancellation during an exchange, or between two of them -/
  cancelled : ∀ call, w.call t = some call → call.phase.holdsLock = true → e = .cancel →
    w'.slot = none
  /-- a failed resolution leaves what was there -/
  resolution : ∀ err, e = .resolveFailed err → w'.slot = w.slot

theorem endsWell {w w' : Pool} (hinv : Inv w) {t : TaskId} {e : CallEvent}
    (hstep : w.step (.event t e) = some w') : EndsWell w t e w' := by
  obtain ⟨call, call', slot', hcall, hmay, hcallStep, rfl⟩ := step_event hstep
  have hmove := TcpCall.step_move hcallStep
  have hslot := hmove.slot_after (hinv.slot_empty hcall)
  refine ⟨?_, ?_, ?_, ?_⟩
  · intro after frame hafter hphase
    have hsame : Function.update w.call t (some call') t = some after := hafter
    rw [Function.update_self, Option.some.injEq] at hsame
    subst hsame
    obtain ⟨conn, addrs, buf, result, frame', rest, hreading, he, hread, hphase', hslot'⟩ :=
      hmove.returned (by rw [hphase]; rfl)
    rw [hphase] at hphase'
    cases hphase'
    exact ⟨call, conn, addrs, buf, result, rest, hcall, hreading, he, hread, hslot'⟩
  · intro after f hafter hphase hheld
    have hsame : Function.update w.call t (some call') t = some after := hafter
    rw [Function.update_self, Option.some.injEq] at hsame
    subst hsame
    rcases hslot with hnone | ⟨-, hfree, -, -, hlock⟩ | ⟨conn, -, -, hok⟩
    · exact hnone
    · rcases hheld with hmine | ⟨fresh, he⟩
      · rw [(hinv.holder_iff hcall).mp hmine] at hfree
        cases hfree
      · exact absurd he (hlock fresh)
    · rw [hphase] at hok
      cases hok
  · intro before hbefore hheld he
    rw [hcall, Option.some.injEq] at hbefore
    subst hbefore
    rcases hslot with hnone | ⟨-, hfree, -, -, -⟩ | ⟨conn, -, -, hok⟩
    · exact hnone
    · rw [hheld] at hfree
      cases hfree
    · obtain ⟨-, -, -, result, -, -, -, hread, -⟩ := hmove.returned hok
      rw [he] at hread
      cases hread
  · intro err he
    subst he
    cases TcpCall.step_cases hcallStep with
    | unresolved _ => rfl

/-- **A stream that has ever failed is never used again.**  At every moment of every run of
calls for one target, the slot is empty or holds the stream the most recent exchange
succeeded on, no call is writing to or reading from a stream that failed or expired, and
whatever a call does next leaves the slot as it should. -/
theorem failed_stream_unused {addr : String} {actions : List PoolAction} {w : Pool}
    (h : Runs.run Pool.step (start addr) actions = some w) :
    (∀ conn, w.slot = some conn → w.latest = some (conn, .succeeded) ∧ conn ∉ w.spent) ∧
    (∀ t call conn, w.call t = some call → call.phase.exchange = some conn → conn ∉ w.spent) ∧
    ∀ t e w', w.step (.event t e) = some w' → EndsWell w t e w' := by
  have hinv := inv_run h
  refine ⟨?_, ?_, ?_⟩
  · intro conn hconn
    obtain ⟨hlatest, -, hspent⟩ := hinv.slot conn hconn
    exact ⟨hlatest, hspent⟩
  · intro t call conn hcall hconn
    exact (hinv.exchange t call conn hcall hconn).2
  · intro t e w' hstep
    exact endsWell hinv hstep

/-- The first call opens stream 7 and is answered; the second takes the stream over, and its
read times out. -/
def reuseAfterAnswer : List PoolAction :=
  [.begin 0 [0x54, 0, 1, 0], .begin 1 [0x54, 0, 2, 0], .event 0 (.resolved ["remote"]),
    .event 1 (.resolved ["remote"]), .event 0 (.locked false), .event 0 (.connected 7),
    .event 0 .wrote, .event 0 (.read (.ok (emptyAnswer 1).bytes)), .event 1 (.locked true),
    .event 1 .wrote, .event 1 (.read (.err "timeout"))]

theorem failed_stream_unused_reuse :
    ∃ w, Runs.run Pool.step (start "plc") reuseAfterAnswer = some w ∧
      w.slot = none ∧ w.spent = [7] ∧
      (∀ t call conn, w.call t = some call → call.phase.exchange = some conn → conn ∉ w.spent) ∧
      ∀ t e w', w.step (.event t e) = some w' → EndsWell w t e w' := by
  have hends : (Runs.run Pool.step (start "plc") reuseAfterAnswer).map
      (fun w => (w.slot, w.spent)) = some (none, [7]) := by decide +kernel
  obtain ⟨w, hrun, hw⟩ := Option.map_eq_some_iff.mp hends
  rw [Prod.mk.injEq] at hw
  exact ⟨w, hrun, hw.1, hw.2, (failed_stream_unused hrun).2⟩

end Pool

end MelsecMc
