/-
A call gets the answer to what it wrote.

A stream carries at most one thing at a time: the frame of the call that has it, or the
answer to that frame.  That is so because a call gives a stream back only when it has read
an answer to its end, and a stream it does not give back is never used again.  So whatever
a call reads is the answer to its own frame, served since the call began, and neither the
serial nor the order of the tasks matters.  `Inv` says this of one moment; every action
keeps it, as long as no read ends at a place of an answer that looks like another frame.

The lock is what makes this work.  `Proofs/Pool` shows that two calls never have a stream at the
same time and that a stream that has failed is gone; here a station and a network are put at the
other end of the streams, and the same discipline keeps what is on them in step.

Nothing here is about the serial.  The receive loop checks it, and on these streams the check
never fails; it is needed over UDP (`Proofs/Udp`), and for callers that build their own requests
(`Proofs/Session`).
-/
import MelsecMc.Plant
import MelsecMc.Proofs.Pool
import MelsecMc.Proofs.Reassembly

namespace MelsecMc

/-! ### How a call comes to have a stream

A call has a stream from the moment it connects, or takes a cached one over, until it lets it go.
`Exchanging` lists the steps that leave it with one: these are the only ones after which there is
something to prove about what is on the stream.
-/

/-- The ways in which a step leaves a call with a stream. -/
inductive Exchanging (call : TcpCall) (slot : Option Conn) :
    CallEvent → Conn → TcpCall → Prop
  | reuse {conn : Conn} {addrs : List SocketAddr} {call' : TcpCall}
      (hphase : call.phase.exchange = none) (hslot : slot = some conn)
      (hphase' : call'.phase = .writing conn addrs) :
      Exchanging call slot (.locked true) conn call'
  | connected {conn : Conn} {addrs : List SocketAddr} {call' : TcpCall}
      (hphase : call.phase.exchange = none) (hphase' : call'.phase = .writing conn addrs) :
      Exchanging call slot (.connected conn) conn call'
  | wrote {conn : Conn} {addrs : List SocketAddr} {call' : TcpCall}
      (hphase : call.phase = .writing conn addrs)
      (hphase' : call'.phase = .reading conn addrs []) :
      Exchanging call slot .wrote conn call'
  | waits {conn : Conn} {addrs : List SocketAddr} {buf rest : Bytes} {result : ReadResult}
      {call' : TcpCall} (hphase : call.phase = .reading conn addrs buf)
      (hread : onRead (serialOf call.payload) buf result = .waiting rest)
      (hphase' : call'.phase = .reading conn addrs rest) :
      Exchanging call slot (.read result) conn call'

theorem TcpCall.step_exchanging {call call' : TcpCall} {slot slot' : Option Conn} {e : CallEvent}
    {conn : Conn} (h : call.step slot e = some (slot', call'))
    (hconn : call'.phase.exchange = some conn) : Exchanging call slot e conn call' := by
  -- a call that goes on to the next address has no stream
  have hnext : ∀ {call : TcpCall} {addrs}, (call.nextRemote addrs).phase.exchange ≠ some conn := by
    intro call addrs hsome
    rw [(nextRemote_spec call addrs).1] at hsome
    cases hsome
  cases step_cases h with
  | reuses hphase hslot =>
      cases hconn
      exact .reuse (by rw [hphase]; rfl) hslot rfl
  | wrote hphase =>
      cases hconn
      exact .wrote hphase rfl
  | waits hphase hread =>
      cases hconn
      exact .waits hphase hread rfl
  | connected hphase =>
      cases hconn
      exact .connected (by rw [hphase]; rfl) rfl
  | nothingCached _ _ => exact absurd hconn hnext
  | expired _ _ => exact absurd hconn hnext
  | writeFailed _ => exact absurd hconn hnext
  | readFailed _ _ => exact absurd hconn hnext
  | _ => cases hconn

/-- Without bytes a read fails. -/
theorem onRead_no_bytes {e : CallEvent} (he : e.bringsBytes = false) {result : ReadResult}
    (hread : e = .read result) (expected : UInt16) (buf : Bytes) :
    ∃ msg, onRead expected buf result = .failed msg := by
  subst hread
  cases result with
  | err msg => exact ⟨msg, rfl⟩
  | ok chunk =>
      cases chunk with
      | nil => exact ⟨_, rfl⟩
      | cons b chunk => cases he

namespace Plant

variable {σ : Type}

/-! ### One action

An event and a read are steps of the pool; what they put in flight or take off a stream is
the plant's own.  `Moves` names the five things an action can be, down to the step of the
call.
-/

/-- Everything an action can do. -/
inductive Moves (station : Station σ) (w : Plant σ) : PlantAction σ → Plant σ → Prop
  | begins {t : TaskId} {payload : Bytes} {origin : Nat} {pool : Pool}
      (hpool : w.pool.step (.begin t payload) = some pool) :
      Moves station w (.begin t payload origin) { w with
        pool
        origin := Function.update w.origin t origin
        since := Function.update w.since t w.executed.length }
  | goesOn {t : TaskId} {e : CallEvent} {arrived : Bool} {call call' : TcpCall}
      {slot' : Option Conn} (hbytes : e.bringsBytes = false) (hcall : w.pool.call t = some call)
      (hmay : w.pool.mayHappen e = true) (hstep : call.step w.pool.slot e = some (slot', call')) :
      Moves station w (.event t e arrived) { w with
        pool := w.pool.after t e call slot' call'
        pending := w.pending ++ sent (w.origin t) call e arrived }
  | reads {t : TaskId} {n : Nat} {conn : Conn} {addrs : List SocketAddr} {buf : Bytes}
      {call call' : TcpCall} {slot' : Option Conn} (hcall : w.pool.call t = some call)
      (hphase : call.phase = .reading conn addrs buf) (hpos : 0 < n)
      (hle : n ≤ (w.unread conn).length)
      (hstep : call.step w.pool.slot (.read (.ok ((w.unread conn).take n))) =
        some (slot', call')) :
      Moves station w (.read t n) { w with
        pool := w.pool.after t (.read (.ok ((w.unread conn).take n))) call slot' call'
        unread := Function.update w.unread conn ((w.unread conn).drop n) }
  | serves {conn : Conn} {request : Request} {pending : List (Conn × Request)}
      (htake : Mailboxes.take conn w.pending = some (request, pending)) :
      Moves station w (.serve conn) (w.served station conn request pending)
  | changes {state : σ} : Moves station w (.change state) { w with state }

theorem step_cases {station : Station σ} {w w' : Plant σ} {a : PlantAction σ}
    (h : w.step station a = some w') : Moves station w a w' := by
  cases a with
  | begin t payload origin =>
      obtain ⟨pool, hpool, rfl⟩ := Option.map_eq_some_iff.mp h
      exact .begins hpool
  | event t e arrived =>
      simp only [step] at h
      split at h
      · cases h
      · rename_i hbytes
        split at h
        · cases h
        · rename_i call hcall
          obtain ⟨pool, hpool, rfl⟩ := Option.map_eq_some_iff.mp h
          obtain ⟨call₀, call', slot', hcall₀, hmay, hstep, rfl⟩ := Pool.step_event hpool
          obtain rfl : call = call₀ := Option.some.inj (hcall.symm.trans hcall₀)
          exact .goesOn (Bool.not_eq_true _ ▸ hbytes) hcall hmay hstep
  | read t n =>
      simp only [step] at h
      split at h
      · rename_i conn addrs buf hphase
        obtain ⟨call, hcall, hreading⟩ := Option.map_eq_some_iff.mp hphase
        split at h
        · rename_i hn
          obtain ⟨pool, hpool, rfl⟩ := Option.map_eq_some_iff.mp h
          obtain ⟨call₀, call', slot', hcall₀, -, hstep, rfl⟩ := Pool.step_event hpool
          obtain rfl : call = call₀ := Option.some.inj (hcall.symm.trans hcall₀)
          exact .reads hcall hreading hn.1 hn.2.2 hstep
        · cases h
      · cases h
  | serve conn =>
      obtain ⟨⟨request, pending⟩, htake, rfl⟩ := Option.map_eq_some_iff.mp h
      exact .serves htake
  | change state =>
      cases h
      exact .changes

/-! ### One moment

What a call may find on its stream depends on how far it has come.  Before it has written there
is nothing; afterwards its frame is under way, or being served, or the answer is there, perhaps
with some of its bytes already read (`Awaits`).  A stream nobody has is empty.
-/

/-- Nothing is on the stream. -/
def Idle (w : Plant σ) (conn : Conn) : Prop :=
  Mailboxes.box conn w.pending = [] ∧ w.unread conn = []

/-- Since the task's call began the station has served its frame, with this answer. -/
def ServedSince (w : Plant σ) (t : TaskId) (payload : Bytes) (answer : Option Mc4eFrame) : Prop :=
  ServedIn w.executed (w.since t) ⟨w.origin t, payload⟩ answer

/-- What a call that has written its frame and reads can find. -/
inductive Awaits (w : Plant σ) (t : TaskId) (payload : Bytes) (conn : Conn) (buf : Bytes) : Prop
  /-- the frame is still to be served -/
  | pending (hbox : Mailboxes.box conn w.pending = [⟨w.origin t, payload⟩])
      (hunread : w.unread conn = []) (hbuf : buf = [])
  /-- it was served and there is no answer -/
  | unanswered (hidle : w.Idle conn) (hbuf : buf = [])
  /-- some of the answer is read, and some is still to be read -/
  | answered (f : Mc4eFrame) (hserved : w.ServedSince t payload (some f))
      (hbox : Mailboxes.box conn w.pending = []) (hbuf : buf ++ w.unread conn = f.bytes)
      (hrest : w.unread conn ≠ [])

/-- What is true of a task's call, by its phase. -/
def PhaseOk (w : Plant σ) (t : TaskId) (call : TcpCall) : Prop :=
  match call.phase with
  | .writing conn _ => w.Idle conn
  | .reading conn _ buf => w.Awaits t call.payload conn buf
  | .finished (.ok frame) =>
      ∃ f : Mc4eFrame, w.ServedSince t call.payload (some f) ∧ frame = f.bytes
  | _ => True

structure Inv (station : Station σ) (w : Plant σ) : Prop where
  pool : w.pool.Inv
  fresh : ∀ conn, conn ∉ w.pool.opened → w.Idle conn
  slot : ∀ conn, w.pool.slot = some conn → w.Idle conn
  since : ∀ t, w.since t ≤ w.executed.length
  logged : Logged station w.executed
  calls : ∀ t call, w.pool.call t = some call → w.PhaseOk t call

theorem inv_start (station : Station σ) (addr : String) (state : σ) :
    (start addr state).Inv station where
  pool := Pool.inv_start addr
  fresh _ _ := ⟨rfl, rfl⟩
  slot conn h := by cases h
  since _ := Nat.le_refl 0
  logged x h := absurd h List.not_mem_nil
  calls t call h := by cases h

/-! #### What a step leaves alone

A stream has one owner.  What happens on the others does not touch a call, and a call without a
stream has nothing to lose at all.
-/

theorem ServedSince.mono {w w' : Plant σ} {t : TaskId} {payload : Bytes}
    {answer : Option Mc4eFrame} (h : w.ServedSince t payload answer)
    (hexecuted : w.executed <+: w'.executed) (hsince : w'.since t = w.since t)
    (horigin : w'.origin t = w.origin t) : w'.ServedSince t payload answer := by
  rw [ServedSince, hsince, horigin]
  exact ServedIn.mono h hexecuted

/-- A call is not touched by what happens on other streams. -/
theorem PhaseOk.frame {w w' : Plant σ} {t : TaskId} {call : TcpCall} (h : w.PhaseOk t call)
    (hexecuted : w.executed <+: w'.executed) (hsince : w'.since t = w.since t)
    (horigin : w'.origin t = w.origin t)
    (hstream : ∀ conn, call.phase.exchange = some conn →
      Mailboxes.box conn w'.pending = Mailboxes.box conn w.pending ∧
        w'.unread conn = w.unread conn) : w'.PhaseOk t call := by
  unfold PhaseOk at h ⊢
  split at h
  · rename_i conn addrs hphase
    obtain ⟨hbox, hunread⟩ := hstream conn (by rw [hphase]; rfl)
    exact ⟨hbox.trans h.1, hunread.trans h.2⟩
  · rename_i conn addrs buf hphase
    obtain ⟨hbox, hunread⟩ := hstream conn (by rw [hphase]; rfl)
    cases h with
    | pending hbox' hunread' hbuf =>
        exact .pending (by rw [hbox, hbox', horigin]) (hunread.trans hunread') hbuf
    | unanswered hidle hbuf =>
        exact .unanswered ⟨hbox.trans hidle.1, hunread.trans hidle.2⟩ hbuf
    | answered f hserved hbox' hbuf hrest =>
        exact .answered f (hserved.mono hexecuted hsince horigin) (hbox.trans hbox')
          (by rw [hunread, hbuf]) (by rw [hunread]; exact hrest)
  · obtain ⟨f, hserved, hframe⟩ := h
    exact ⟨f, hserved.mono hexecuted hsince horigin, hframe⟩
  · trivial

/-- A call without a stream has nothing to answer for, unless it returns a frame. -/
theorem phaseOk_of_no_exchange {w : Plant σ} {t : TaskId} {call : TcpCall}
    (hexchange : call.phase.exchange = none) (hok : call.phase.isOk = false) :
    w.PhaseOk t call := by
  unfold PhaseOk
  split
  · rename_i conn addrs hphase
    rw [hphase] at hexchange
    cases hexchange
  · rename_i conn addrs buf hphase
    rw [hphase] at hexchange
    cases hexchange
  · rename_i frame hphase
    rw [hphase] at hok
    cases hok
  · trivial

/-! #### What is put in flight

Only a call that writes puts anything on a stream, its own frame on its own stream.
-/

theorem sent_of_no_exchange {origin : Nat} {call : TcpCall} (h : call.phase.exchange = none)
    (e : CallEvent) (arrived : Bool) : sent origin call e arrived = [] := by
  unfold sent
  split
  · rename_i conn addrs hphase
    rw [hphase] at h
    cases h
  · rfl

/-- A frame is put on the stream of its call. -/
theorem box_sent_of_ne {origin : Nat} {call : TcpCall} {conn : Conn}
    (h : call.phase.exchange ≠ some conn) (e : CallEvent) (arrived : Bool) :
    Mailboxes.box conn (sent origin call e arrived) = [] := by
  unfold sent
  split
  · rename_i c addrs hphase
    split
    · rw [hphase] at h
      exact Mailboxes.box_cons_of_ne (fun hc => h (congrArg some hc)) _ []
    · rfl
  · rfl

theorem sent_wrote {origin : Nat} {call : TcpCall} {conn : Conn} {addrs : List SocketAddr}
    (hphase : call.phase = .writing conn addrs) (arrived : Bool) :
    sent origin call .wrote arrived = [(conn, ⟨origin, call.payload⟩)] := by
  unfold sent
  rw [hphase]
  exact if_pos (.inl rfl)

namespace Inv

variable {w w' : Plant σ} {station : Station σ}

/-- While a call has a stream, or waits for one with the lock in its hands, no other call has
a stream. -/
theorem alone (hinv : Inv station w) {t u : TaskId} (hu : u ≠ t) {call other : TcpCall}
    (hcall : w.pool.call t = some call) (hother : w.pool.call u = some other)
    (hheld : call.phase.holdsLock = true) : other.phase.exchange = none := by
  refine CallPhase.exchange_eq_none ?_
  have hmine := (hinv.pool.holder_iff hcall).mpr hheld
  rw [← Bool.not_eq_true, ← hinv.pool.holder_iff hother, hmine, Option.some.injEq]
  exact fun h => hu h.symm

theorem begin (hinv : Inv station w) {t : TaskId} {payload : Bytes} {pool : Pool}
    (hpool : w.pool.step (.begin t payload) = some pool) (origin : Nat) :
    Inv station { w with
      pool
      origin := Function.update w.origin t origin
      since := Function.update w.since t w.executed.length } := by
  have hpoolInv := hinv.pool.begin hpool
  obtain ⟨-, rfl⟩ := Pool.step_begin hpool
  refine ⟨hpoolInv, hinv.fresh, hinv.slot, ?_, hinv.logged, ?_⟩
  · intro u
    show Function.update w.since t w.executed.length u ≤ w.executed.length
    by_cases hu : u = t
    · rw [hu, Function.update_self]
    · rw [Function.update_of_ne hu]
      exact hinv.since u
  · intro u call hcall
    have hupdate : Function.update w.pool.call t (some (TcpCall.start w.pool.addr payload)) u =
        some call := hcall
    by_cases hu : u = t
    · rw [hu, Function.update_self, Option.some.injEq] at hupdate
      subst hupdate
      exact phaseOk_of_no_exchange rfl rfl
    · rw [Function.update_of_ne hu] at hupdate
      exact (hinv.calls u call hupdate).frame (List.prefix_refl _)
        (Function.update_of_ne hu _ _) (Function.update_of_ne hu _ _) fun _ _ => ⟨rfl, rfl⟩

/-! #### A step of a call

A call that goes on without reading any bytes: it connects, takes over a stream, writes,
fails.
-/

section Call

variable {t : TaskId} {call call' : TcpCall} {slot' : Option Conn} {e : CallEvent}

/-- A stream nobody has opened yet carries nothing afterwards either. -/
theorem fresh_after (hinv : Inv station w) (hcall : w.pool.call t = some call) (arrived : Bool)
    {conn : Conn} (hconn : conn ∉ Pool.openedAfter w.pool.opened e) :
    Mailboxes.box conn (w.pending ++ sent (w.origin t) call e arrived) = [] ∧
      w.unread conn = [] := by
  have hnot : conn ∉ w.pool.opened := fun h => hconn (Pool.mem_openedAfter h)
  obtain ⟨hbox, hunread⟩ := hinv.fresh conn hnot
  refine ⟨?_, hunread⟩
  have hne : call.phase.exchange ≠ some conn :=
    fun h => hnot (hinv.pool.exchange t call conn hcall h).1
  rw [Mailboxes.box_append, hbox, box_sent_of_ne hne, List.append_nil]

/-- A call that is not reading bytes leaves the task in order. -/
theorem phaseOk_after (hinv : Inv station w) (hcall : w.pool.call t = some call)
    (hmay : w.pool.mayHappen e = true) (hstep : call.step w.pool.slot e = some (slot', call'))
    (he : e.bringsBytes = false) (hpayload : call'.payload = call.payload) (arrived : Bool)
    {v : Plant σ} (hpending : v.pending = w.pending ++ sent (w.origin t) call e arrived)
    (hunread : v.unread = w.unread) (horigin : v.origin = w.origin) : v.PhaseOk t call' := by
  have hmove := TcpCall.step_move hstep
  cases hexchange : call'.phase.exchange with
  | some conn =>
      cases TcpCall.step_exchanging hstep hexchange with
      | reuse hphase hslot hphase' =>
          obtain ⟨hbox, hrest⟩ := hinv.slot conn hslot
          rw [PhaseOk, hphase']
          refine ⟨?_, by rw [hunread, hrest]⟩
          rw [hpending, sent_of_no_exchange hphase, List.append_nil, hbox]
      | connected hphase hphase' =>
          have hnew : conn ∉ w.pool.opened := by simpa [Pool.mayHappen] using hmay
          obtain ⟨hbox, hrest⟩ := hinv.fresh conn hnew
          rw [PhaseOk, hphase']
          refine ⟨?_, by rw [hunread, hrest]⟩
          rw [hpending, sent_of_no_exchange hphase, List.append_nil, hbox]
      | wrote hphase hphase' =>
          have hidle := hinv.calls t call hcall
          rw [PhaseOk, hphase] at hidle
          rw [PhaseOk, hphase', hpayload]
          refine .pending ?_ (by rw [hunread, hidle.2]) rfl
          rw [hpending, sent_wrote hphase, Mailboxes.box_append, hidle.1, List.nil_append,
            Mailboxes.box_cons_self, Mailboxes.box_nil, horigin]
      | waits hphase hread hphase' =>
          obtain ⟨msg, hfailed⟩ := onRead_no_bytes he rfl (serialOf call.payload) _
          rw [hfailed] at hread
          cases hread
  | none =>
      cases hok : call'.phase.isOk with
      | false => exact phaseOk_of_no_exchange hexchange hok
      | true =>
          obtain ⟨conn, addrs, buf, result, frame, rest, -, hevent, hread, -, -⟩ :=
            hmove.returned hok
          obtain ⟨msg, hfailed⟩ := onRead_no_bytes he hevent (serialOf call.payload) buf
          rw [hfailed] at hread
          cases hread

/-- A call that is not reading bytes goes on. -/
theorem event (hinv : Inv station w) (he : e.bringsBytes = false)
    (hcall : w.pool.call t = some call) (hmay : w.pool.mayHappen e = true)
    (hstep : call.step w.pool.slot e = some (slot', call')) (arrived : Bool) :
    Inv station { w with
      pool := w.pool.after t e call slot' call'
      pending := w.pending ++ sent (w.origin t) call e arrived } := by
  have hpoolInv := hinv.pool.event (Pool.step_eq_after hcall hmay hstep)
  have hmove := TcpCall.step_move hstep
  have hpayload := (TcpCall.step_spec hstep).payload
  refine ⟨hpoolInv, ?_, ?_, hinv.since, hinv.logged, ?_⟩
  · intro conn hconn
    exact hinv.fresh_after hcall arrived hconn
  · intro conn hconn
    have hslot' : slot' = some conn := hconn
    rcases hmove.slot_after (hinv.pool.slot_empty hcall) with hnone | ⟨hsame, hfree, -⟩ |
      ⟨c, -, -, hok⟩
    · rw [hnone] at hslot'
      cases hslot'
    · obtain ⟨hbox, hunread⟩ := hinv.slot conn (hsame.symm.trans hslot')
      refine ⟨?_, hunread⟩
      show Mailboxes.box conn (w.pending ++ sent (w.origin t) call e arrived) = []
      rw [sent_of_no_exchange (CallPhase.exchange_eq_none hfree), List.append_nil, hbox]
    · obtain ⟨_, _, buf, _, _, _, -, hevent, hread, -, -⟩ := hmove.returned hok
      obtain ⟨msg, hfailed⟩ := onRead_no_bytes he hevent (serialOf call.payload) buf
      rw [hfailed] at hread
      cases hread
  · intro u other hother
    have hupdate : Function.update w.pool.call t (some call') u = some other := hother
    by_cases hu : u = t
    · subst hu
      rw [Function.update_self, Option.some.injEq] at hupdate
      subst hupdate
      exact hinv.phaseOk_after hcall hmay hstep he hpayload arrived rfl rfl rfl
    · rw [Function.update_of_ne hu] at hupdate
      refine (hinv.calls u other hupdate).frame (List.prefix_refl _) rfl rfl ?_
      intro conn hconn
      refine ⟨?_, rfl⟩
      show Mailboxes.box conn (w.pending ++ sent (w.origin t) call e arrived) = _
      have hnone := hinv.alone (Ne.symm hu) hupdate hcall
        (CallPhase.holdsLock_of_exchange hconn)
      rw [sent_of_no_exchange hnone, List.append_nil]

end Call

end Inv

/-! ### Reads

The bytes of an answer come in as many pieces as the network likes, and after each piece the loop
looks for a frame in what it has.  It finds the answer when it is complete, and waits before
that, unless the piece ends where a front of the answer looks like a frame of another layout.
`GoodRead` excludes these places; in a front of nine bytes and from the fifteenth on there are
none (`goodRead_of_clear`).
-/

/-- The read ends at a safe position of the answer that is on the stream. -/
def GoodRead (w : Plant σ) (t : TaskId) (n : Nat) : Prop :=
  ∀ call conn addrs buf, w.pool.call t = some call → call.phase = .reading conn addrs buf →
    ∀ f : Mc4eFrame, buf ++ w.unread conn = f.bytes → f.SafeCut (buf.length + n)

/-- Every read of the run is a good one. -/
def GoodAction (w : Plant σ) : PlantAction σ → Prop
  | .read t n => w.GoodRead t n
  | _ => True

/-- What a read makes of an answer of which `buf` is there: it is complete, or the call waits
for the rest. -/
theorem onRead_answer {expected : UInt16} {f : Mc4eFrame} (hserial : f.serial = expected)
    {buf unread : Bytes} (hbuf : buf ++ unread = f.bytes) {n : Nat} (hpos : 0 < n)
    (hn : n ≤ unread.length) (hsafe : f.SafeCut (buf.length + n)) :
    (n = unread.length ∧ onRead expected buf (.ok (unread.take n)) = .returned f.bytes []) ∨
    (n < unread.length ∧
      onRead expected buf (.ok (unread.take n)) = .waiting (buf ++ unread.take n)) := by
  have hne : unread.take n ≠ [] := by
    intro htake
    have hlen := congrArg List.length htake
    rw [List.length_take, List.length_nil] at hlen
    omega
  have hread := onRead_ok expected buf hne
  rcases Nat.lt_or_ge n unread.length with hlt | hge
  · refine .inr ⟨hlt, ?_⟩
    have hpart : buf ++ unread.take n = f.bytes.take (buf.length + n) := by
      rw [← hbuf, List.take_length_add_append]
    have hshort : buf.length + n < f.bytes.length := by
      rw [← hbuf, List.length_append]
      omega
    have hverdict : (receiver expected).verdict (buf ++ unread.take n) = .await := by
      rw [hpart]
      exact (f.scanVerdict_take_iff expected hshort).mpr hsafe
    rw [hread, (receiver expected).scan_await hverdict]
    rfl
  · have hall : n = unread.length := Nat.le_antisymm hn hge
    refine .inl ⟨hall, ?_⟩
    have hscan := (receiver expected).scan_delivers (Mc4eFrame.delivers (.inr hserial)) []
    rw [List.append_nil] at hscan
    rw [hread, hall, List.take_length, hbuf, hscan]
    rfl

namespace Inv

variable {w w' : Plant σ} {station : Station σ}

/-- When the call with the lock moves, the other calls have nothing to lose. -/
theorem calls_of_holder (hinv : Inv station w) {t : TaskId} {call call' : TcpCall}
    (hcall : w.pool.call t = some call) (hheld : call.phase.holdsLock = true) {v : Plant σ}
    (hexecuted : v.executed = w.executed) (hsince : v.since = w.since)
    (horigin : v.origin = w.origin)
    (hcalls : v.pool.call = Function.update w.pool.call t (some call'))
    (hown : v.PhaseOk t call') : ∀ u other, v.pool.call u = some other → v.PhaseOk u other := by
  intro u other hother
  rw [hcalls] at hother
  by_cases hu : u = t
  · subst hu
    rw [Function.update_self, Option.some.injEq] at hother
    exact hother ▸ hown
  · rw [Function.update_of_ne hu] at hother
    refine (hinv.calls u other hother).frame (hexecuted ▸ List.prefix_refl _) (by rw [hsince])
      (by rw [horigin]) fun c hc => ?_
    rw [hinv.alone hu hcall hother hheld] at hc
    cases hc

/-- A read takes bytes off one open stream. -/
theorem fresh_after_read (hinv : Inv station w) {conn : Conn} (hopened : conn ∈ w.pool.opened)
    (bytes : Bytes) {c : Conn} (hc : c ∉ w.pool.opened) :
    Mailboxes.box c w.pending = [] ∧ Function.update w.unread conn bytes c = [] := by
  have hne : c ≠ conn := by
    rintro rfl
    exact hc hopened
  rw [Function.update_of_ne hne]
  exact hinv.fresh c hc

/-- A call takes some of the answer to its frame, or the last of it. -/
theorem read (hinv : Inv station w) {t : TaskId} {n : Nat} {conn : Conn} {addrs : List SocketAddr}
    {buf : Bytes} {call call' : TcpCall} {slot' : Option Conn} (hgood : w.GoodRead t n)
    (hcall : w.pool.call t = some call) (hphase : call.phase = .reading conn addrs buf)
    (hpos : 0 < n) (hle : n ≤ (w.unread conn).length)
    (hstep : call.step w.pool.slot (.read (.ok ((w.unread conn).take n))) = some (slot', call')) :
    Inv station { w with
      pool := w.pool.after t (.read (.ok ((w.unread conn).take n))) call slot' call'
      unread := Function.update w.unread conn ((w.unread conn).drop n) } := by
  have hpoolInv := hinv.pool.event (Pool.step_eq_after hcall rfl hstep)
  have hexchange : call.phase.exchange = some conn := by rw [hphase]; rfl
  have hheld := CallPhase.holdsLock_of_exchange hexchange
  have hopened := (hinv.pool.exchange t call conn hcall hexchange).1
  -- of the three things the call can find, only an answer has bytes
  have hawaits := hinv.calls t call hcall
  rw [PhaseOk, hphase] at hawaits
  cases hawaits with
  | pending hbox hunread hbuf =>
      rw [hunread, List.length_nil] at hle
      omega
  | unanswered hidle hbuf =>
      rw [hidle.2, List.length_nil] at hle
      omega
  | answered f hserved hbox hbuf hrest =>
      have hsafe := hgood call conn addrs buf hcall hphase f hbuf
      rcases onRead_answer (hinv.logged.serial_of_servedIn hserved) hbuf hpos hle hsafe with
        ⟨hall, hread⟩ | ⟨hpart, hread⟩
      · rw [(TcpCall.Step.returns hphase hread).step_eq, Option.some.injEq, Prod.mk.injEq] at hstep
        obtain ⟨rfl, rfl⟩ := hstep
        refine ⟨hpoolInv, fun c hc => hinv.fresh_after_read hopened _ hc, ?_, hinv.since,
          hinv.logged, hinv.calls_of_holder hcall hheld rfl rfl rfl rfl ?_⟩
        · intro c hc
          have hslot : some conn = some c := hc
          rw [Option.some.injEq] at hslot
          subst hslot
          refine ⟨hbox, ?_⟩
          show Function.update w.unread conn ((w.unread conn).drop n) conn = []
          rw [Function.update_self, hall, List.drop_length]
        · exact ⟨f, hserved, rfl⟩
      · rw [(TcpCall.Step.waits hphase hread).step_eq, Option.some.injEq, Prod.mk.injEq] at hstep
        obtain ⟨rfl, rfl⟩ := hstep
        refine ⟨hpoolInv, fun c hc => hinv.fresh_after_read hopened _ hc, ?_, hinv.since,
          hinv.logged, hinv.calls_of_holder hcall hheld rfl rfl rfl rfl ?_⟩
        · intro c hc
          have hslot : w.pool.slot = some c := hc
          rw [hinv.pool.slot_empty hcall hheld] at hslot
          cases hslot
        · refine .answered f hserved hbox ?_ ?_
          · show buf ++ (w.unread conn).take n ++
              Function.update w.unread conn ((w.unread conn).drop n) conn = f.bytes
            rw [Function.update_self, List.append_assoc, List.take_append_drop, hbuf]
          · show Function.update w.unread conn ((w.unread conn).drop n) conn ≠ []
            rw [Function.update_self]
            intro hnil
            have hlen := congrArg List.length hnil
            rw [List.length_drop, List.length_nil] at hlen
            omega

/-! ### The station

The station takes the oldest request of a stream.  That is the frame of the call that has the
stream, so the answer goes to the one that waits for it.
-/

/-- The stream of a waiting call is served. -/
theorem awaits_served (hinv : Inv station w) {t : TaskId} {payload buf : Bytes} {conn : Conn}
    {request : Request} {pending : List (Conn × Request)} (h : w.Awaits t payload conn buf)
    (hown : Mailboxes.box conn w.pending = request :: Mailboxes.box conn pending) :
    (w.served station conn request pending).Awaits t payload conn buf := by
  cases h with
  | pending hbox hunread hbuf =>
      rw [hbox, List.cons.injEq] at hown
      obtain ⟨rfl, hempty⟩ := hown
      have hserved : (w.served station conn ⟨w.origin t, payload⟩ pending).ServedSince t payload
          (station.serve w.state payload).2 := servedIn_append (hinv.since t) _ _
      have hbytes : (w.served station conn ⟨w.origin t, payload⟩ pending).unread conn =
          answerBytes (station.serve w.state payload).2 := by
        show Function.update w.unread conn (w.unread conn ++ _) conn = _
        rw [Function.update_self, hunread, List.nil_append]
      cases hanswer : (station.serve w.state payload).2 with
      | none =>
          rw [hanswer] at hbytes
          exact .unanswered ⟨hempty.symm, hbytes⟩ hbuf
      | some f =>
          rw [hanswer] at hserved hbytes
          refine .answered f hserved hempty.symm (by rw [hbytes, hbuf]; rfl) ?_
          rw [hbytes]
          intro hnil
          have hlen : f.bytes.length = 0 := congrArg List.length hnil
          rw [f.length_bytes] at hlen
          omega
  | unanswered hidle hbuf =>
      rw [hidle.1] at hown
      cases hown
  | answered f hserved hbox hbuf hrest =>
      rw [hbox] at hown
      cases hown

/-- The station serves the oldest request of a stream. -/
theorem serve (hinv : Inv station w) {conn : Conn} {request : Request}
    {pending : List (Conn × Request)}
    (htake : Mailboxes.take conn w.pending = some (request, pending)) :
    Inv station (w.served station conn request pending) := by
  obtain ⟨hown, hothers, -⟩ := Mailboxes.taken_of_take htake
  -- an idle stream has no request to serve
  have hidle : ∀ c, w.Idle c → (w.served station conn request pending).Idle c := by
    rintro c ⟨hbox, hunread⟩
    have hne : c ≠ conn := by
      rintro rfl
      rw [hown] at hbox
      cases hbox
    exact ⟨(hothers c hne).trans hbox, (Function.update_of_ne hne _ _).trans hunread⟩
  refine ⟨hinv.pool, fun c hc => hidle c (hinv.fresh c hc),
    fun c hc => hidle c (hinv.slot c hc), ?_, ?_, ?_⟩
  · intro t
    have hsince := hinv.since t
    show w.since t ≤ (w.executed ++ [_]).length
    rw [List.length_append]
    omega
  · exact hinv.logged.append rfl
  · intro t call hcall
    have hok := hinv.calls t call hcall
    by_cases hc : call.phase.exchange = some conn
    · unfold PhaseOk at hok ⊢
      split at hok
      · rename_i c addrs hphase
        rw [hphase] at hc
        cases hc
        rw [hok.1] at hown
        cases hown
      · rename_i c addrs buf hphase
        rw [hphase] at hc
        cases hc
        exact hinv.awaits_served hok hown
      · rename_i frame hphase
        rw [hphase] at hc
        cases hc
      · trivial
    · refine hok.frame (List.prefix_append _ _) rfl rfl fun c hexchange => ?_
      have hne : c ≠ conn := by
        rintro rfl
        exact hc hexchange
      exact ⟨hothers c hne, Function.update_of_ne hne _ _⟩

theorem step (hinv : Inv station w) {a : PlantAction σ} (hgood : w.GoodAction a)
    (hstep : w.step station a = some w') : Inv station w' := by
  cases step_cases hstep with
  | begins hpool => exact hinv.begin hpool _
  | goesOn hbytes hcall hmay hcallStep => exact hinv.event hbytes hcall hmay hcallStep _
  | reads hcall hphase hpos hle hcallStep =>
      exact hinv.read hgood hcall hphase hpos hle hcallStep
  | serves htake => exact hinv.serve htake
  | changes =>
      refine ⟨hinv.pool, hinv.fresh, hinv.slot, hinv.since, hinv.logged, ?_⟩
      intro t call hcall
      exact (hinv.calls t call hcall).frame (List.prefix_refl _) rfl rfl fun _ _ => ⟨rfl, rfl⟩

end Inv

/-- The invariant rule, for a target nobody had called. -/
theorem inv_run {station : Station σ} {addr : String} {state : σ} {actions : List (PlantAction σ)}
    {w : Plant σ} (hgood : Runs.Along (step station) GoodAction (start addr state) actions)
    (hrun : Runs.run (step station) (start addr state) actions = some w) : w.Inv station :=
  Runs.run_invariant_along (fun _ _ _ hinv hgood hstep => hinv.step hgood hstep) actions
    (inv_start station addr state) hgood hrun

/-! ### Every run

The three statements about a run are read off the invariant, and a run that lets two tasks
overtake each other shows that its assumptions can be met.
-/

/-- **A call gets the answer to what it wrote**, served since the call began, whatever the
tasks, the station and the network do in between.  A stream that is kept for the next call
carries nothing, and no two calls have a stream at the same time. -/
theorem answers_are_own {station : Station σ} {addr : String} {state : σ}
    {actions : List (PlantAction σ)} {w : Plant σ}
    (hgood : Runs.Along (step station) GoodAction (start addr state) actions)
    (hrun : Runs.run (step station) (start addr state) actions = some w) :
    (∀ t call frame, w.pool.call t = some call → call.phase = .finished (.ok frame) →
      ∃ x ∈ w.executed.drop (w.since t), x.origin = w.origin t ∧ x.payload = call.payload ∧
        ∃ f : Mc4eFrame, station.serve x.before call.payload = (x.after, some f) ∧
          frame = f.bytes) ∧
    (∀ conn, w.pool.slot = some conn → w.Idle conn) ∧
    ∀ t u call other conn, w.pool.call t = some call → w.pool.call u = some other →
      call.phase.exchange = some conn → u ≠ t → other.phase.exchange = none := by
  have hinv := inv_run hgood hrun
  refine ⟨?_, hinv.slot, ?_⟩
  · intro t call frame hcall hphase
    have hok := hinv.calls t call hcall
    rw [PhaseOk, hphase] at hok
    obtain ⟨f, ⟨x, hx, horigin, hpayload, hanswer⟩, hframe⟩ := hok
    have hserve := hinv.logged x (List.mem_of_mem_drop hx)
    rw [hpayload, hanswer] at hserve
    exact ⟨x, hx, horigin, hpayload, f, hserve, hframe⟩
  · intro t u call other conn hcall hother hconn hu
    exact hinv.alone hu hcall hother (CallPhase.holdsLock_of_exchange hconn)

/-- In its first nine bytes and behind its header an answer can be cut anywhere. -/
theorem goodRead_of_clear {w : Plant σ} {t : TaskId} {n : Nat}
    (h : ∀ call conn addrs buf, w.pool.call t = some call →
      call.phase = .reading conn addrs buf → buf.length + n < 9 ∨ 15 ≤ buf.length + n) :
    w.GoodRead t n := by
  intro call conn addrs buf hcall hphase f _
  rw [Mc4eFrame.SafeCut, Mc4eFrame.lookalikeLen]
  rcases h call conn addrs buf hcall hphase with hlt | hge
  · rw [if_neg (by omega), if_neg (by omega), if_neg (by omega)]
    simp
  · rw [if_pos hge]
    simp

/-- The condition, as far as it can be computed from the call. -/
def clear (w : Plant σ) : PlantAction σ → Bool
  | .read t n =>
      match (w.pool.call t).map TcpCall.phase with
      | some (.reading _ _ buf) => buf.length + n < 9 ∨ 15 ≤ buf.length + n
      | _ => true
  | _ => true

theorem goodAction_of_clear (w : Plant σ) (a : PlantAction σ) (h : w.clear a = true) :
    w.GoodAction a := by
  cases a with
  | read t n =>
      refine goodRead_of_clear fun call conn addrs buf hcall hphase => ?_
      rw [clear, hcall, Option.map_some, hphase] at h
      exact of_decide_eq_true h
  | _ => trivial

/-- A station that counts, and answers with nothing but the serial. -/
def countingStation : Station Nat where
  serve s request := (s + 1, some (emptyAnswer (serialOf request)))
  echoes := by
    rintro s request f h
    cases h
    rfl

/-- Two tasks.  The first opens stream 7, and its answer comes in two pieces; the second
takes the stream over, and writes its frame to a new one when the answer times out. -/
def overtaking : List (PlantAction Nat) :=
  [.begin 0 [0x54, 0, 1, 0] 0, .begin 1 [0x54, 0, 2, 0] 1, .event 0 (.resolved ["remote"]) false,
    .event 1 (.resolved ["remote"]) false, .event 0 (.locked false) false,
    .event 0 (.connected 7) false, .event 0 .wrote true, .serve 7, .read 0 8, .read 0 7,
    .event 1 (.locked true) false, .event 1 .wrote true, .event 1 (.read (.err "timeout")) false,
    .event 1 (.connected 8) false, .event 1 .wrote true, .serve 8, .serve 7, .read 1 15]

theorem answers_are_own_overtaking :
    ∃ w, Runs.run (step countingStation) (start "plc" 0) overtaking = some w ∧
      w.state = 3 ∧ w.pool.slot = some 8 ∧ w.Idle 8 := by
  have hends : (Runs.run (step countingStation) (start "plc" 0) overtaking).map
      (fun w => (w.state, w.pool.slot)) = some (3, some 8) := by decide +kernel
  have hclear : Runs.Along (step countingStation) (fun w a => w.clear a = true) (start "plc" 0)
      overtaking := by decide +kernel
  obtain ⟨w, hrun, hw⟩ := Option.map_eq_some_iff.mp hends
  rw [Prod.mk.injEq] at hw
  exact ⟨w, hrun, hw.1, hw.2,
    (answers_are_own (hclear.mono goodAction_of_clear overtaking) hrun).2.1 8 hw.2⟩

end Plant

end MelsecMc
