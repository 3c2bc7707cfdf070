/-
Nothing gets stuck.

A call waits for the network, or for the lock that another call holds.  Whatever has happened
before, the network can bring every call to its end by failing what is awaited: the call that
holds the lock fails first and gives it back, and then the lock is there for the next one.
The station need not do anything, and nothing is cancelled.  An operation whose call has ended
goes on to the next attempt until there is none left.

All that is needed of the past is that the lock is held by a call that is inside of it, which
every run of the pool keeps (`Pool.Inv`).  What was on the streams or came to the ports does
not matter, so nothing is asked of the reads or of the ports here.
-/
import MelsecMc.Proofs.Operations
import MelsecMc.Proofs.Retries

namespace MelsecMc

/-! ### TCP

A call inside an exchange fails when its stream does, one address after another until there is
none left, and it gives the lock back.  A call that waits for the lock waits for such a call, so
the events of two calls bring it to its end, those of the other one first.
-/

namespace Plant

variable {σ : Type}

/-- Something happens to a call, and it is not cancelled. -/
def Patient (a : PlantAction σ) : Prop :=
  ∃ t e, a = .event t e false ∧ e ≠ .cancel

variable {station : Station σ} {w w' : Plant σ} {t : TaskId} {call call' : TcpCall}
  {slot' : Option Conn} {e : CallEvent}

theorem step_of_call (hinv : w.pool.Inv) (hcall : w.pool.call t = some call)
    (hbytes : e.bringsBytes = false) (hmay : w.pool.mayHappen e = true)
    (hstep : call.step w.pool.slot e = some (slot', call')) :
    ∃ w', (tcpChannel station).act w (.event t e false) = some w' ∧ w'.pool.Inv ∧
      w'.pool = w.pool.after t e call slot' call' := by
  have hpool := Pool.step_eq_after hcall hmay hstep
  have hplant : w.step station (.event t e false) = some { w with
      pool := w.pool.after t e call slot' call'
      pending := w.pending ++ sent (w.origin t) call e false } := by
    simp only [step, hbytes, hcall, hpool]
    rfl
  exact ⟨_, hplant, hinv.event hpool, rfl⟩

/-- The call has returned, and nobody holds the lock; the other calls are where they were. -/
structure LetGo (w : Plant σ) (t : TaskId) (w' : Plant σ) : Prop where
  inv : w'.pool.Inv
  holder : w'.pool.holder = none
  returned : ∃ call result, w'.pool.call t = some call ∧ call.phase = .finished result
  others : ∀ u, u ≠ t → w'.pool.call u = w.pool.call u

/-- A call that holds the lock returns at once. -/
theorem canReach_of_finished (hinv : w.pool.Inv) (hcall : w.pool.call t = some call)
    (hheld : call.phase.holdsLock = true) (hbytes : e.bringsBytes = false) (hcancel : e ≠ .cancel)
    (hmay : w.pool.mayHappen e = true)
    (hstep : call.step w.pool.slot e = some (slot', call')) {result : Except Failure Bytes}
    (hphase : call'.phase = .finished result) :
    Runs.CanReach (tcpChannel station).act Patient (LetGo w t) w := by
  obtain ⟨w', hact, hinv', hpool⟩ := step_of_call hinv hcall hbytes hmay hstep
  have hholder : w.pool.holder = some t := (hinv.holder_iff hcall).mpr hheld
  have hdone : call'.isDone = true := by rw [TcpCall.isDone, hphase]
  have hcall' : w'.pool.call t = some call' := by rw [hpool]; exact Function.update_self _ _ _
  refine .of_step ⟨t, e, rfl, hcancel⟩ hact (Runs.canReach_here ⟨hinv', ?_, ?_, ?_⟩)
  · rw [hpool]
    show World.holderAfter t e call' w.pool.holder = none
    rw [hholder]
    cases e <;> simp [World.holderAfter, hdone]
  · exact ⟨call', result, hcall', hphase⟩
  · intro u hu
    rw [hpool]
    exact Function.update_of_ne hu _ _

theorem canReach_of_connecting (hinv : w.pool.Inv) (hcall : w.pool.call t = some call)
    {remote : SocketAddr} {addrs : List SocketAddr}
    (hphase : call.phase = .connecting remote addrs) :
    Runs.CanReach (tcpChannel station).act Patient (LetGo w t) w := by
  obtain ⟨result, hstep⟩ : ∃ result, call.step w.pool.slot (.connectFailed "") =
      some (w.pool.slot, { call with phase := .finished result }) :=
    ⟨_, (TcpCall.Step.connectFailed hphase).step_eq⟩
  exact canReach_of_finished hinv hcall (by rw [hphase]; rfl) rfl (by simp) rfl hstep rfl

/-- The exchange of a call fails: it connects to the next address, or returns. -/
theorem canReach_of_exchange (hinv : w.pool.Inv) (hcall : w.pool.call t = some call)
    (hheld : call.phase.holdsLock = true) (hbytes : e.bringsBytes = false) (hcancel : e ≠ .cancel)
    (hmay : w.pool.mayHappen e = true)
    {addrs : List SocketAddr} {msg : String}
    (hstep : call.step w.pool.slot e = some (call.exchangeFailed addrs msg)) :
    Runs.CanReach (tcpChannel station).act Patient (LetGo w t) w := by
  cases addrs with
  | nil => exact canReach_of_finished hinv hcall hheld hbytes hcancel hmay hstep rfl
  | cons remote rest =>
      obtain ⟨w', hact, hinv', hpool⟩ := step_of_call hinv hcall hbytes hmay hstep
      have hothers : ∀ u, u ≠ t → w'.pool.call u = w.pool.call u := by
        intro u hu
        rw [hpool]
        exact Function.update_of_ne hu _ _
      refine .of_step ⟨t, e, rfl, hcancel⟩ hact ?_
      have hnow : w'.pool.call t = some (call.exchangeFailed (remote :: rest) msg).2 := by
        rw [hpool]
        exact Function.update_self _ _ _
      refine (canReach_of_connecting hinv' hnow rfl).mono
        fun v hv => ⟨hv.inv, hv.holder, hv.returned, fun u hu => ?_⟩
      rw [hv.others u hu, hothers u hu]

/-- **The lock is given back.** -/
theorem canReach_letGo (hinv : w.pool.Inv) (hcall : w.pool.call t = some call)
    (hheld : call.phase.holdsLock = true) :
    Runs.CanReach (tcpChannel station).act Patient (LetGo w t) w := by
  cases hphase : call.phase with
  | writing conn addrs =>
      have hstep : call.step w.pool.slot (.writeFailed "") =
          some (call.exchangeFailed addrs "") := (TcpCall.Step.writeFailed hphase).step_eq
      exact canReach_of_exchange hinv hcall hheld rfl (by simp) rfl hstep
  | reading conn addrs buf =>
      have hstep : call.step w.pool.slot (.read (.err "")) =
          some (call.exchangeFailed addrs "") := (TcpCall.Step.readFailed hphase rfl).step_eq
      exact canReach_of_exchange hinv hcall hheld rfl (by simp) rfl hstep
  | connecting remote addrs => exact canReach_of_connecting hinv hcall hphase
  | _ =>
      rw [hphase] at hheld
      cases hheld

/-- The call returns. -/
def Returned (t : TaskId) (w : Plant σ) : Prop :=
  w.pool.Inv ∧ ∃ call result, w.pool.call t = some call ∧ call.phase = .finished result

theorem canReach_of_locking (hinv : w.pool.Inv) (hcall : w.pool.call t = some call)
    {addrs : List SocketAddr} (hphase : call.phase = .locking addrs)
    (hfree : w.pool.holder = none) :
    Runs.CanReach (tcpChannel station).act Patient (Returned t) w := by
  have hstep : call.step w.pool.slot (.locked false) = some (none, call.nextRemote addrs) := by
    cases hslot : w.pool.slot with
    | none => exact (TcpCall.Step.nothingCached hphase rfl).step_eq
    | some conn => exact (TcpCall.Step.expired hphase rfl).step_eq
  have hmay : w.pool.mayHappen (.locked false) = true := by rw [Pool.mayHappen, hfree]; rfl
  obtain ⟨w', hact, hinv', hpool⟩ := step_of_call hinv hcall rfl hmay hstep
  have hcall' : w'.pool.call t = some (call.nextRemote addrs) := by
    rw [hpool]
    exact Function.update_self _ _ _
  refine .of_step ⟨t, _, rfl, by simp⟩ hact ?_
  cases addrs with
  | nil => exact Runs.canReach_here ⟨hinv', _, _, hcall', rfl⟩
  | cons remote rest =>
      exact (canReach_of_connecting hinv' hcall' rfl).mono fun v hv => ⟨hv.inv, hv.returned⟩

theorem canReach_returned (hinv : w.pool.Inv) (hcall : w.pool.call t = some call)
    (hlive : call.isDone = false) :
    Runs.CanReach (tcpChannel station).act Patient (Returned t) w := by
  by_cases hheld : call.phase.holdsLock = true
  · exact (canReach_letGo hinv hcall hheld).mono fun v hv => ⟨hv.inv, hv.returned⟩
  · cases hphase : call.phase with
    | resolving =>
        obtain ⟨result, hstep⟩ : ∃ result, call.step w.pool.slot (.resolveFailed "") =
            some (w.pool.slot, { call with phase := .finished result }) :=
          ⟨_, (TcpCall.Step.unresolved hphase).step_eq⟩
        obtain ⟨w', hact, hinv', hpool⟩ := step_of_call hinv hcall rfl rfl hstep
        have hcall' : w'.pool.call t = some { call with phase := .finished result } := by
          rw [hpool]
          exact Function.update_self _ _ _
        exact .of_step ⟨t, _, rfl, by simp⟩ hact (Runs.canReach_here ⟨hinv', _, _, hcall', rfl⟩)
    | locking addrs =>
        cases hholder : w.pool.holder with
        | none => exact canReach_of_locking hinv hcall hphase hholder
        | some u =>
            -- whoever has the lock gives it back first
            obtain ⟨other, hother, hlock⟩ := (hinv.holder u).mp hholder
            have hu : t ≠ u := by
              intro heq
              rw [← heq, hcall, Option.some.injEq] at hother
              rw [hother, hlock] at hheld
              exact hheld rfl
            refine (canReach_letGo hinv hother hlock).trans fun v hv => ?_
            exact canReach_of_locking hv.inv ((hv.others t hu).trans hcall) hphase hv.holder
    | finished result =>
        rw [TcpCall.isDone, hphase] at hlive
        cases hlive
    | cancelled =>
        rw [TcpCall.isDone, hphase] at hlive
        cases hlive
    | _ =>
        rw [hphase] at hheld
        exact absurd rfl hheld

end Plant

/-! ### UDP

A call waits for nobody.  Its sockets cannot be bound any more, its sends fail, its receives run
into their timeouts, and each of these uses up an attempt or an address.
-/

namespace UdpPlant

variable {σ : Type}

/-- Something happens to a call, but it is not cancelled and gets no datagram. -/
def Patient (a : UdpPlantAction σ) : Prop :=
  ∃ t e, a = .event t e false ∧ e ≠ .cancel ∧ ∀ datagram, e ≠ .received (.ok datagram)

variable {station : Station σ} {w w' : UdpPlant σ} {t : TaskId} {call call' : UdpCall}
  {e : UdpEvent}

theorem step_of_call (maxAttempts : Nat) (station : Station σ) (hcall : w.call t = some call)
    (hmay : w.mayHappen e = true) (hstep : call.step e = some call') :
    ∃ w', (udpChannel maxAttempts station).act w (.event t e false) = some w' ∧
      w'.call t = some call' := by
  have hplant : w.step station (.event t e false) = some (w.after t e false call call') := by
    simp only [step, hmay, stepCall, hcall, hstep]
    rfl
  exact ⟨_, hplant, Function.update_self _ _ _⟩

/-- The call returns. -/
def Returned (t : TaskId) (w : UdpPlant σ) : Prop :=
  ∃ call result, w.call t = some call ∧ call.phase = .finished result

variable (maxAttempts : Nat)

/-- No address can be bound any more. -/
theorem canReach_of_nextRemote (addrs : List SocketAddr) : ∀ {w : UdpPlant σ} {call : UdpCall},
    w.call t = some (call.nextRemote addrs) →
    Runs.CanReach (udpChannel maxAttempts station).act Patient (Returned t) w := by
  induction addrs with
  | nil =>
      intro w call hcall
      exact Runs.canReach_here ⟨_, _, hcall, rfl⟩
  | cons remote addrs ih =>
      intro w call hcall
      obtain ⟨w', hact, hcall'⟩ :=
        step_of_call maxAttempts station hcall rfl
          (show (call.nextRemote (remote :: addrs)).step (.bindFailed "") = _ from rfl)
      exact .of_step ⟨t, _, rfl, by simp, by simp⟩ hact (ih hcall')

/-- Nothing can be sent any more. -/
theorem canReach_of_nextAttempt (sock : Sock) (remote : SocketAddr) (addrs : List SocketAddr)
    (left : Nat) : ∀ {w : UdpPlant σ} {call : UdpCall} {attempt : Nat},
    call.maxAttempts - attempt = left →
    w.call t = some (call.nextAttempt sock remote addrs attempt) →
    Runs.CanReach (udpChannel maxAttempts station).act Patient (Returned t) w := by
  induction left with
  | zero =>
      intro w call attempt hleft hcall
      rw [UdpCall.nextAttempt, if_neg (by omega)] at hcall
      exact canReach_of_nextRemote maxAttempts addrs hcall
  | succ left ih =>
      intro w call attempt hleft hcall
      rw [UdpCall.nextAttempt, if_pos (by omega)] at hcall
      obtain ⟨w', hact, hcall'⟩ := step_of_call maxAttempts station hcall rfl
        (show UdpCall.step { call with phase := .sending sock remote addrs attempt }
          (.sendFailed "") = _ from rfl)
      refine .of_step ⟨t, _, rfl, by simp, by simp⟩ hact (ih ?_ hcall')
      show call.maxAttempts - (attempt + 1) = left
      omega

theorem canReach_returned (hcall : w.call t = some call)
    (hlive : call.isDone = false) :
    Runs.CanReach (udpChannel maxAttempts station).act Patient (Returned t) w := by
  cases hphase : call.phase with
  | resolving =>
      obtain ⟨result, hstep⟩ : ∃ result, call.step (.resolveFailed "") =
          some { call with phase := .finished result } :=
        ⟨_, (UdpCall.Step.unresolved hphase).step_eq⟩
      obtain ⟨w', hact, hcall'⟩ := step_of_call maxAttempts station hcall rfl hstep
      exact .of_step ⟨t, _, rfl, by simp, by simp⟩ hact (Runs.canReach_here ⟨_, _, hcall', rfl⟩)
  | binding remote addrs =>
      have hstep : call.step (.bindFailed "") = some (call.nextRemote addrs) :=
        (UdpCall.Step.bindFailed hphase).step_eq
      obtain ⟨w', hact, hcall'⟩ := step_of_call maxAttempts station hcall rfl hstep
      exact .of_step ⟨t, _, rfl, by simp, by simp⟩ hact
        (canReach_of_nextRemote maxAttempts addrs hcall')
  | sending sock remote addrs attempt =>
      have hstep : call.step (.sendFailed "") =
          some (call.nextAttempt sock remote addrs (attempt + 1)) :=
        (UdpCall.Step.sendFailed hphase).step_eq
      obtain ⟨w', hact, hcall'⟩ := step_of_call maxAttempts station hcall rfl hstep
      exact .of_step ⟨t, _, rfl, by simp, by simp⟩ hact
        (canReach_of_nextAttempt maxAttempts sock remote addrs _ rfl hcall')
  | receiving sock remote addrs attempt room =>
      have hstep : call.step (.received (.err "")) =
          some (call.nextAttempt sock remote addrs (attempt + 1)) :=
        (UdpCall.Step.receiveFailed hphase rfl).step_eq
      obtain ⟨w', hact, hcall'⟩ := step_of_call maxAttempts station hcall rfl hstep
      exact .of_step ⟨t, _, rfl, by simp, by simp⟩ hact
        (canReach_of_nextAttempt maxAttempts sock remote addrs _ rfl hcall')
  | finished result =>
      rw [UdpCall.isDone, hphase] at hlive
      cases hlive
  | cancelled =>
      rw [UdpCall.isDone, hphase] at hlive
      cases hlive

end UdpPlant

/-! ### Both protocols

`Sound` is what a transport keeps by itself, whatever is done to it; TCP keeps its lock in
order, UDP has nothing to keep.
-/

/-- What the callers of a transport need to get on. -/
structure Channel.Live {σ : Type} (C : Channel σ) (Sound : C.World → Prop)
    (Patient : C.Act → Prop) : Prop where
  start : ∀ addr state, Sound (C.start addr state)
  begin : ∀ {w w' t request}, Sound w → C.begin w t request = some w' → Sound w'
  act : ∀ {w w' a}, Sound w → C.act w a = some w' → Sound w'
  /-- a task whose call has ended can call again -/
  canBegin : ∀ {w t} (request : Request), (∀ c, C.call w t = some c → c.ended ≠ none) →
    ∃ w', C.begin w t request = some w'
  /-- a call that goes on can return -/
  returns : ∀ {w t c}, Sound w → C.call w t = some c → c.ended = none →
    Runs.CanReach C.act Patient (fun w' => Sound w' ∧
      ∃ c' result, C.call w' t = some c' ∧ c'.ended = some (.returned result)) w

theorem TcpCall.ended_eq_none_iff {call : TcpCall} : call.ended = none ↔ call.isDone = false := by
  refine ⟨fun h => ?_, TcpCall.ended_eq_none⟩
  unfold isDone
  cases hphase : call.phase <;> simp_all [ended]

theorem UdpCall.ended_eq_none_iff {call : UdpCall} : call.ended = none ↔ call.isDone = false := by
  refine ⟨fun h => ?_, UdpCall.ended_eq_none⟩
  unfold isDone
  cases hphase : call.phase <;> simp_all [ended]

/-- Any action leaves the lock in order. -/
theorem Plant.pool_step {σ : Type} {station : Station σ} {w w' : Plant σ} {a : PlantAction σ}
    (hinv : w.pool.Inv) (h : w.step station a = some w') : w'.pool.Inv := by
  cases Plant.step_cases h with
  | begins hpool => exact hinv.begin hpool
  | goesOn _ hcall hmay hstep => exact hinv.event (Pool.step_eq_after hcall hmay hstep)
  | reads hcall _ _ _ hstep => exact hinv.event (Pool.step_eq_after hcall rfl hstep)
  | serves _ => exact hinv
  | changes => exact hinv

theorem tcp_live {σ : Type} (station : Station σ) :
    (tcpChannel station).Live (fun w => w.pool.Inv) Plant.Patient where
  start addr state := Pool.inv_start addr
  begin {w w' t request} hinv h := by
    have hstep : w.step station (.begin t request.payload request.origin) = some w' := h
    exact Plant.pool_step hinv hstep
  act hinv h := Plant.pool_step hinv (Plant.step_of_act h).2
  canBegin {w t} request hended := by
    have hdone : (w.pool.call t).all TcpCall.isDone = true := by
      cases hcall : w.pool.call t with
      | none => rfl
      | some call =>
          have hne : call.ended ≠ none := hended _ (Plant.view_of_call hcall)
          simpa [TcpCall.ended_eq_none_iff] using hne
    have hbegin : (w.step station (.begin t request.payload request.origin)).isSome = true := by
      simp [Plant.step, Pool.step, hdone]
    exact Option.isSome_iff_exists.mp hbegin
  returns {w t c} hinv hview hlive := by
    obtain ⟨call, hcall, rfl⟩ := Option.map_eq_some_iff.mp hview
    refine (Plant.canReach_returned hinv hcall (TcpCall.ended_eq_none_iff.mp hlive)).mono ?_
    rintro w' ⟨hinv', call', result, hcall', hphase'⟩
    refine ⟨hinv', _, result, Plant.view_of_call hcall', ?_⟩
    show call'.ended = _
    rw [TcpCall.ended, hphase']

theorem udp_live {σ : Type} (maxAttempts : Nat) (station : Station σ) :
    (udpChannel maxAttempts station).Live (fun _ => True) UdpPlant.Patient where
  start _ _ := trivial
  begin _ _ := trivial
  act _ _ := trivial
  canBegin {w t} request hended := by
    have hdone : (w.call t).all UdpCall.isDone = true := by
      cases hcall : w.call t with
      | none => rfl
      | some call =>
          have hne : call.ended ≠ none := hended _ (UdpPlant.view_of_call hcall)
          simpa [UdpCall.ended_eq_none_iff] using hne
    have hbegin : (w.step station (.begin t request.payload request.origin)).isSome = true := by
      simp [UdpPlant.step, hdone]
    exact Option.isSome_iff_exists.mp hbegin
  returns {w t c} _ hview hlive := by
    obtain ⟨call, hcall, rfl⟩ := Option.map_eq_some_iff.mp hview
    refine (UdpPlant.canReach_returned maxAttempts hcall
      (UdpCall.ended_eq_none_iff.mp hlive)).mono ?_
    rintro w' ⟨call', result, hcall', hphase'⟩
    refine ⟨trivial, _, result, UdpPlant.view_of_call hcall', ?_⟩
    show call'.ended = _
    rw [UdpCall.ended, hphase']

section Protocol

variable {σ : Type} (config : Config) (station : Station σ)

/-- What the transport keeps by itself. -/
def Protocol.Sound : (p : Protocol) → (p.channel config station).World → Prop
  | .tcp => fun w => w.pool.Inv
  | .udp => fun _ => True

/-- Something happens to a call of the protocol, but it is not cancelled and gets no bytes. -/
def Protocol.Patient : (p : Protocol) → (p.channel config station).Act → Prop
  | .tcp => Plant.Patient
  | .udp => UdpPlant.Patient

theorem Protocol.live (p : Protocol) :
    (p.channel config station).Live (p.Sound config station) (p.Patient config station) := by
  cases p with
  | tcp => exact tcp_live station
  | udp => exact udp_live config.melsecUdpRecvAttempts station

end Protocol

/-! ### The operations

A running operation is in a call or sleeps.  Either way it has a next step: what its call
needs, the look at the result, or the alarm.
-/

namespace Process

variable {σ : Type} {C : Channel σ}

/-- No operation is asked for and none is given up, and the other clients are idle. -/
def Patient (P : C.Act → Prop) : ProcessAction C → Prop
  | .net a => P a
  | .settle _ | .wake _ => True
  | .invoke _ _ | .drop _ | .takeSerial => False

/-- A running task is in a call or sleeps, and while it sleeps its call has ended. -/
structure Resting (w : Process C) (t : TaskId) : Prop where
  calls : ∀ run attempt, w.task t = .running run (.sending attempt) →
    ∃ c, C.call w.world t = some c
  sleeps : ∀ run attempt ms, w.task t = .running run (.sleeping attempt ms) →
    ∀ c, C.call w.world t = some c → c.ended ≠ none
  goesOn : ∀ run result, w.task t ≠ .running run (.finished result)

section Resting

variable {station : Station σ} {WorldInv : C.World → Prop} {Good : C.World → C.Act → Prop}
  {S : Setting} {w w' : Process C} {t : TaskId}

theorem Resting.frame {u : TaskId} (h : w.Resting u) (htask : w'.task u = w.task u)
    (hmade : (C.call w'.world u).map Channel.made = (C.call w.world u).map Channel.made)
    (hlive : ∀ c', C.call w'.world u = some c' → c'.ended = none →
      ∃ c, C.call w.world u = some c ∧ c.ended = none) : w'.Resting u := by
  refine ⟨fun run attempt hsending => ?_, fun run attempt ms hsleeping c' hc' hnone => ?_,
    fun run result => ?_⟩
  · rw [htask] at hsending
    obtain ⟨c, hc⟩ := h.calls run attempt hsending
    rw [hc, Option.map_some, Option.map_eq_some_iff] at hmade
    obtain ⟨c', hc', -⟩ := hmade
    exact ⟨c', hc'⟩
  · rw [htask] at hsleeping
    obtain ⟨c, hc, hnone⟩ := hlive c' hc' hnone
    exact h.sleeps run attempt ms hsleeping c hc hnone
  · rw [htask]
    exact h.goesOn run result

/-- One task goes on. -/
theorem resting_update (h : ∀ u, w.Resting u) {task : OpState}
    (htask : w'.task = Function.update w.task t task)
    (hcall : ∀ run attempt, task = .running run (.sending attempt) →
      ∃ c, C.call w'.world t = some c)
    (hsleeps : ∀ run attempt ms, task = .running run (.sleeping attempt ms) →
      ∀ c, C.call w'.world t = some c → c.ended ≠ none)
    (hgoesOn : ∀ run result, task ≠ .running run (.finished result))
    (hcalls : ∀ u, u ≠ t → C.call w'.world u = C.call w.world u) : ∀ u, w'.Resting u := by
  intro u
  by_cases hu : u = t
  · have hself : w'.task t = task := by rw [htask, Function.update_self]
    subst hu
    refine ⟨fun run attempt hsending => ?_, fun run attempt ms hsleeping => ?_,
      fun run result => ?_⟩
    · rw [hself] at hsending
      exact hcall run attempt hsending
    · rw [hself] at hsleeping
      exact hsleeps run attempt ms hsleeping
    · rw [hself]
      exact hgoesOn run result
  · have hother : w'.task u = w.task u := by rw [htask, Function.update_of_ne hu]
    refine (h u).frame hother (by rw [hcalls u hu]) fun c' hc' hnone => ⟨c', ?_, hnone⟩
    rw [← hcalls u hu]
    exact hc'

/-- A task comes to rest. -/
theorem resting_rest (h : ∀ u, w.Resting u) {task : OpState} (hrest : task.atRest = true)
    (htask : w'.task = Function.update w.task t task) (hworld : w'.world = w.world) :
    ∀ u, w'.Resting u := by
  have hnot : ∀ run phase, task ≠ .running run phase := by
    rintro run phase rfl
    cases hrest
  exact resting_update h htask (fun run attempt heq => absurd heq (hnot run _))
    (fun run attempt ms heq => absurd heq (hnot run _)) (fun run result => hnot run _)
    fun _ _ => by rw [hworld]

theorem resting_proceed (hlaw : C.Lawful station WorldInv Good) (h : ∀ u, w.Resting u)
    {run : OpRun} {phase : RetryPhase}
    (hended : ∀ attempt ms, phase = .sleeping attempt ms →
      ∀ c, C.call w.world t = some c → c.ended ≠ none)
    (hproceed : w.proceed S t run phase = some w') : ∀ u, w'.Resting u := by
  cases phase with
  | sending attempt =>
      obtain ⟨world, hbegin, rfl⟩ := Option.map_eq_some_iff.mp hproceed
      have hbegun := hlaw.begun hbegin
      exact resting_update h rfl (fun _ _ _ => ⟨_, hbegun.call⟩) (by simp) (by simp) hbegun.calls
  | sleeping attempt ms =>
      cases hproceed
      exact resting_update h rfl (by simp) (fun _ _ _ _ => hended attempt ms rfl) (by simp)
        fun _ _ => rfl
  | finished result =>
      cases hproceed
      exact resting_rest h rfl rfl rfl

theorem resting_step (hlaw : C.Lawful station WorldInv Good) (h : ∀ u, w.Resting u)
    {a : ProcessAction C} (hstep : w.step S a = some w') : ∀ u, w'.Resting u := by
  cases step_cases hstep with
  | refuses _ _ => exact resting_rest h rfl rfl rfl
  | @asks t op frame _ _ _ hproceed =>
      have hasked : ∀ u, Resting { w with
          counter := (op.request S w.counter).1, asked := w.asked ++ [⟨op, frame⟩] } u :=
        fun u => ⟨(h u).calls, (h u).sleeps, (h u).goesOn⟩
      refine resting_proceed hlaw hasked ?_ hproceed
      intro attempt ms hphase
      unfold RetryPhase.start at hphase
      split at hphase <;> cases hphase
  | acts hact =>
      have hkeeps := (hlaw.carries hact).toKeeps
      exact fun u => (h u).frame rfl (hkeeps.made u) (hkeeps.live u)
  | settles _ hended hproceed =>
      refine resting_proceed hlaw h ?_ hproceed
      intro attempt ms _ c hc hnone
      rw [hc, Option.bind_some, hnone] at hended
      cases hended
  | isCancelled _ _ => exact resting_rest h rfl rfl rfl
  | wakes _ hproceed => exact resting_proceed hlaw h (fun _ _ hphase => by cases hphase) hproceed
  | drops _ => exact resting_rest h rfl rfl rfl
  | takesSerial => exact fun u => ⟨(h u).calls, (h u).sleeps, (h u).goesOn⟩

theorem resting_run (hlaw : C.Lawful station WorldInv Good) {addr : String} {state : σ}
    {actions : List (ProcessAction C)}
    (hrun : Runs.run (step S) (start C addr state) actions = some w) : ∀ u, w.Resting u := by
  have hstart : ∀ u, (start C addr state).Resting u := by
    refine fun u => ⟨fun run attempt h => ?_, fun run attempt ms h => ?_, fun run result h => ?_⟩
    · cases h
    · cases h
    · cases h
  have hstep : ∀ (w : Process C) a w', (∀ u, w.Resting u) → w.step S a = some w' →
      ∀ u, w'.Resting u := fun _ _ _ h hstep => resting_step hlaw h hstep
  exact Runs.run_invariant hstep actions hstart hrun

end Resting

/-! #### To the end

The induction is on the attempts that are left.  Each of them ends with a call that has returned,
and after it the operation has returned too or sleeps, with one attempt less to come.
-/

section Live

variable {Sound WorldInv : C.World → Prop} {Good : C.World → C.Act → Prop} {P : C.Act → Prop}
  {station : Station σ} {S : Setting} {w : Process C} {t : TaskId} {run : OpRun}

theorem sound_proceed (hlive : C.Live Sound P) {w' : Process C} (hsound : Sound w.world)
    {phase : RetryPhase} (h : w.proceed S t run phase = some w') : Sound w'.world := by
  cases phase with
  | sending attempt =>
      obtain ⟨world, hbegin, rfl⟩ := Option.map_eq_some_iff.mp h
      exact hlive.begin hsound hbegin
  | sleeping attempt ms =>
      cases h
      exact hsound
  | finished result =>
      cases h
      exact hsound

/-- Whatever a process does, its transport is sound. -/
theorem sound_run (hlive : C.Live Sound P) {addr : String} {state : σ}
    {actions : List (ProcessAction C)}
    (hrun : Runs.run (step S) (start C addr state) actions = some w) : Sound w.world := by
  have hstep : ∀ (w : Process C) a w', Sound w.world → w.step S a = some w' →
      Sound w'.world := by
    intro w a w' hsound hstep
    cases step_cases hstep with
    | @asks t op frame _ _ _ hproceed =>
        have hasked : Sound ({ w with
          counter := (op.request S w.counter).1, asked := w.asked ++ [⟨op, frame⟩] } :
            Process C).world := hsound
        exact sound_proceed hlive hasked hproceed
    | acts hact => exact hlive.act hsound hact
    | settles _ _ hproceed => exact sound_proceed hlive hsound hproceed
    | wakes _ hproceed => exact sound_proceed hlive hsound hproceed
    | _ => exact hsound
  exact Runs.run_invariant hstep actions (hlive.start addr state) hrun

/-- The task's operation has returned. -/
def HasReturned (t : TaskId) (run : OpRun) (w : Process C) : Prop :=
  ∃ result upTo, w.task t = .returned run result upTo

/-- Something happens to the target only. -/
theorem canReach_net {Q : C.World → Prop} (h : Runs.CanReach C.act P Q w.world) :
    Runs.CanReach (step S) (Patient P) (fun w' => ∃ world, Q world ∧ w' = { w with world }) w :=
  h.lift (fun world => { w with world }) .net (fun _ ha => ha) fun world a world' hact => by
    simp only [step, hact]
    rfl

/-- The next attempt begins. -/
theorem exists_wake (hlive : C.Live Sound P) (hlaw : C.Lawful station WorldInv Good)
    (hinv : Sound w.world) {attempt : Nat} {ms : UInt64}
    (htask : w.task t = .running run (.sleeping attempt ms))
    (hended : ∀ c, C.call w.world t = some c → c.ended ≠ none) :
    ∃ w', w.step S (.wake t) = some w' ∧ Sound w'.world ∧
      w'.task t = .running run (.sending (attempt + 1)) ∧
      ∃ c, C.call w'.world t = some c ∧ c.ended = none := by
  obtain ⟨world, hbegin⟩ := hlive.canBegin run.request hended
  refine ⟨{ w with
      world, task := Function.update w.task t (.running run (.sending (attempt + 1))) },
    ?_, hlive.begin hinv hbegin, Function.update_self _ _ _, _, (hlaw.begun hbegin).call, rfl⟩
  simp only [step, htask, RetryPhase.onWake, proceed, hbegin]
  rfl

/-- After a result the loop sleeps only when there is an attempt left. -/
theorem onResult_cases (config : Config) (attempt : Nat) (result : Except Failure Bytes) :
    (∃ r, RetryPhase.onResult config attempt result = .finished r) ∨
      ∃ ms, RetryPhase.onResult config attempt result = .sleeping attempt ms ∧
        attempt ≠ config.melsecTcpRetryAttempts := by
  cases result with
  | ok buf => exact .inl ⟨_, rfl⟩
  | error failure =>
      cases failure with
      | panic p => exact .inl ⟨_, rfl⟩
      | err e =>
          unfold RetryPhase.onResult
          by_cases hlast : attempt = config.melsecTcpRetryAttempts
          · simp only [if_pos hlast]
            exact .inl ⟨_, rfl⟩
          · simp only [if_neg hlast]
            exact .inr ⟨_, rfl, hlast⟩

/-- The task sees that its call has returned: the operation returns, or it sleeps. -/
theorem exists_settle {attempt : Nat} (htask : w.task t = .running run (.sending attempt))
    {c : CallView} {result : Except Failure Bytes} (hc : C.call w.world t = some c)
    (hended : c.ended = some (.returned result)) :
    ∃ w', w.step S (.settle t) = some w' ∧ w'.world = w.world ∧ (HasReturned t run w' ∨
      ∃ ms, w'.task t = .running run (.sleeping attempt ms) ∧
        attempt ≠ S.config.melsecTcpRetryAttempts) := by
  have hstep : w.step S (.settle t) =
      w.proceed S t run (RetryPhase.onResult S.config attempt result) := by
    simp only [step, htask, hc, Option.bind_some, hended]
  rcases onResult_cases S.config attempt result with ⟨r, hphase⟩ | ⟨ms, hphase, hne⟩
  · rw [hphase] at hstep
    exact ⟨_, hstep, rfl, .inl ⟨_, _, Function.update_self _ _ _⟩⟩
  · rw [hphase] at hstep
    exact ⟨_, hstep, rfl, .inr ⟨ms, Function.update_self _ _ _, hne⟩⟩

/-- An operation whose call was not cancelled can return; the induction is on the attempts
that are left. -/
theorem canReach_of_sending (hlive : C.Live Sound P) (hlaw : C.Lawful station WorldInv Good)
    (left : Nat) : ∀ {w : Process C} {attempt : Nat},
    S.config.melsecTcpRetryAttempts - attempt = left →
    attempt ≤ S.config.melsecTcpRetryAttempts → Sound w.world →
    w.task t = .running run (.sending attempt) →
    (∃ c, C.call w.world t = some c ∧ c.ended ≠ some .cancelled) →
    Runs.CanReach (step S) (Patient P) (HasReturned t run) w := by
  induction left using Nat.strong_induction_on with
  | h left ih =>
      intro w attempt hleft hle hinv htask hcall
      have hcallReturns : Runs.CanReach (step S) (Patient P) (fun w' => Sound w'.world ∧
          w'.task t = .running run (.sending attempt) ∧
          ∃ c result, C.call w'.world t = some c ∧ c.ended = some (.returned result)) w := by
        obtain ⟨c, hc, hcancelled⟩ := hcall
        cases hended : c.ended with
        | none =>
            refine (canReach_net (hlive.returns hinv hc hended)).mono ?_
            rintro w' ⟨world, ⟨hinv', hreturned⟩, rfl⟩
            exact ⟨hinv', htask, hreturned⟩
        | some callEnd =>
            cases callEnd with
            | returned result => exact Runs.canReach_here ⟨hinv, htask, c, result, hc, hended⟩
            | cancelled => exact absurd hended hcancelled
      refine hcallReturns.trans ?_
      rintro w₁ ⟨hinv₁, htask₁, c, result, hc, hended⟩
      obtain ⟨w₂, hsettle, hworld, hnext⟩ := exists_settle htask₁ hc hended
      refine .of_step (show Patient P (.settle t) from trivial) hsettle ?_
      rcases hnext with hreturned | ⟨ms, htask₂, hne⟩
      · exact Runs.canReach_here hreturned
      · have hrest : ∀ d, C.call w₂.world t = some d → d.ended ≠ none := by
          intro d hd hnone
          rw [hworld, hc, Option.some.injEq] at hd
          rw [← hd, hended] at hnone
          cases hnone
        obtain ⟨w₃, hwake, hinv₃, htask₃, d, hd, hnone⟩ :=
          exists_wake hlive hlaw (hworld ▸ hinv₁) htask₂ hrest
        refine .of_step (show Patient P (.wake t) from trivial) hwake ?_
        exact ih _ (by omega) rfl (by omega) hinv₃ htask₃ ⟨d, hd, by rw [hnone]; simp⟩

end Live

/-- **Every operation can return.**  Over TCP and over UDP, in every state that any run of any
number of tasks can come to, an operation that is running and whose call was not cancelled can
be brought to its end by what the network does to the calls, with the attempts it has left:
no lock is left behind, and it need wait for no other task and for nothing from the station. -/
theorem operations_can_return {S : Setting} {station : Station σ} {addr : String} {state : σ}
    {actions : List (ProcessAction (S.channel station))} {w : Process (S.channel station)}
    (hrun : Runs.run (step S) (start (S.channel station) addr state) actions = some w)
    {t : TaskId} {run : OpRun} {phase : RetryPhase} (htask : w.task t = .running run phase)
    (hcancelled : ((S.channel station).call w.world t).bind CallView.ended ≠ some .cancelled) :
    Runs.CanReach (step S) (Patient (S.protocol.Patient S.config station))
      (fun w' => ∃ result upTo, w'.task t = .returned run result upTo) w := by
  have hlaw : (S.channel station).Lawful station (S.protocol.WorldInv S.config station)
      (S.protocol.Good S.config station) := S.protocol.lawful S.config station
  have hlive : (S.channel station).Live (S.protocol.Sound S.config station)
      (S.protocol.Patient S.config station) := S.protocol.live S.config station
  have hsound := sound_run hlive hrun
  have htried := (retried_run hrun).tried htask
  have hresting := resting_run hlaw hrun t
  cases phase with
  | sending attempt =>
      obtain ⟨c, hc⟩ := hresting.calls run attempt htask
      rw [hc, Option.bind_some] at hcancelled
      exact canReach_of_sending hlive hlaw _ rfl htried.attempt_le hsound htask ⟨c, hc, hcancelled⟩
  | sleeping attempt ms =>
      obtain ⟨w', hwake, hsound', htask', c, hc, hnone⟩ :=
        exists_wake hlive hlaw hsound htask (hresting.sleeps run attempt ms htask)
      refine .of_step (show Patient (S.protocol.Patient S.config station) (.wake t) from trivial)
        hwake ?_
      exact canReach_of_sending hlive hlaw _ rfl htried.attempt_lt hsound' htask'
        ⟨c, hc, by rw [hnone]; simp⟩
  | finished result => exact absurd htask (hresting.goesOn run result)

/-- One call reads an answer that does not come, and another one waits for its lock. -/
def waitingForLock : List (ProcessAction (tcpChannel Plant.countingStation)) :=
  [.invoke 0 (.readWords "D0" 1), .net (.event 0 (.resolved ["remote"]) false),
    .net (.event 0 (.locked false) false), .net (.event 0 (.connected 7) false),
    .net (.event 0 .wrote true), .invoke 1 (.readWords "D1" 1),
    .net (.event 1 (.resolved ["remote"]) false)]

/-- The task's operation is in a call that goes on. -/
def isCalling {C : Channel σ} (w : Process C) (t : TaskId) : Bool :=
  match w.task t with
  | .running _ (.sending _) => ((C.call w.world t).bind CallView.ended) = none
  | _ => false

theorem operations_can_return_waiting :
    ∃ w, Runs.run (step twoDevicesSetting) (start (tcpChannel Plant.countingStation) "plc" 0)
        waitingForLock = some w ∧ w.world.pool.holder = some 0 ∧
      Runs.CanReach (step twoDevicesSetting) (Patient Plant.Patient)
        (fun w' => ∃ run result upTo, w'.task 1 = .returned run result upTo) w := by
  have hends : (Runs.run (step twoDevicesSetting)
      (start (tcpChannel Plant.countingStation) "plc" 0) waitingForLock).map
      (fun w => (w.world.pool.holder, w.isCalling 1)) = some (some 0, true) := by decide +kernel
  obtain ⟨w, hrun, hw⟩ := Option.map_eq_some_iff.mp hends
  rw [Prod.mk.injEq] at hw
  refine ⟨w, hrun, hw.1, ?_⟩
  have hcalling := hw.2
  unfold isCalling at hcalling
  split at hcalling
  · rename_i run attempt htask
    have hnone := of_decide_eq_true hcalling
    exact (@operations_can_return _ twoDevicesSetting Plant.countingStation "plc" 0 waitingForLock w
      hrun 1 run _ htask
      (fun h => by cases hnone.symm.trans h)).mono fun w' hw' => ⟨run, hw'⟩
  · cases hcalling

end Process

end MelsecMc
