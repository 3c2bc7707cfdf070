/-
How often a call sends its frame.

`Meter` counts what a call has left: no step raises the sum of that and of what was sent
already, and a call that begins has `perCall` at most.  On a TCP connection a frame is written
once on the cached stream and once for each address; over UDP it is sent a number of times to
each address.  A call that has not resolved its name counts for the most addresses a name can
have.

What is counted is what the network can deliver, not what it does: a datagram it repeats is one
sending.
-/
import MelsecMc.Proofs.Channel

namespace MelsecMc

/-! ### The contract

A meter gives every call a number of sendings it has left.  A step may use them up, and whatever
it puts in flight comes out of the number of the call that made the step.
-/

namespace Channel

variable {σ : Type}

/-- How a step uses up what the calls have left. -/
inductive Spends (C : Channel σ) (left : C.World → TaskId → Nat) (w w' : C.World) : Prop
  | nothing (hleft : ∀ u, left w' u = left w u)
      (hsendings : ∀ i, C.sendings w' i = C.sendings w i)
  | call {t : TaskId} {c : CallView} (hcall : C.call w t = some c) (hlive : c.ended = none)
      (hothers : ∀ u, u ≠ t → left w' u = left w u)
      (hsendings : ∀ i, i ≠ c.request.origin → C.sendings w' i = C.sendings w i)
      (hpaid : C.sendings w' c.request.origin + left w' t ≤
        C.sendings w c.request.origin + left w t)

structure Meter (C : Channel σ) where
  Inv : C.World → Prop
  /-- the steps it counts right -/
  fits : C.Act → Bool
  /-- how often one call sends its frame at most -/
  perCall : Nat
  left : C.World → TaskId → Nat
  start : ∀ addr state, Inv (C.start addr state) ∧ ∀ i, C.sendings (C.start addr state) i = 0
  begin : ∀ {w w' t request}, Inv w → C.begin w t request = some w' →
    Inv w' ∧ left w' t ≤ perCall ∧ (∀ u, u ≠ t → left w' u = left w u) ∧
      ∀ i, C.sendings w' i = C.sendings w i
  act : ∀ {w w' a}, Inv w → fits a = true → C.act w a = some w' → Inv w' ∧ C.Spends left w w'

end Channel

/-! ### TCP

A frame is put in flight by a write, and a write that fails may have got through.  So what counts
is not whether a write succeeded but how often the call is at one: on the cached stream, if there
is one, and then on one stream for each address.
-/

namespace TcpCall

/-- How often the call can still write its frame, when a name has `addresses` addresses at most. -/
def writesLeft (addresses : Nat) (call : TcpCall) : Nat :=
  match call.phase with
  | .resolving => 1 + addresses
  | .locking addrs => 1 + addrs.length
  | .writing _ addrs => 1 + addrs.length
  | .reading _ addrs _ => addrs.length
  | .connecting _ addrs => 1 + addrs.length
  | .finished _ => 0
  | .cancelled => 0

/-- A name has no more addresses than that. -/
def resolvesAtMost (addresses : Nat) : CallEvent → Bool
  | .resolved addrs => addrs.length ≤ addresses
  | _ => true

theorem writesLeft_nextRemote (addresses : Nat) (call : TcpCall) (addrs : List SocketAddr) :
    (nextRemote call addrs).writesLeft addresses = addrs.length := by
  cases addrs with
  | nil => rfl
  | cons remote rest =>
      show 1 + rest.length = (remote :: rest).length
      rw [List.length_cons, Nat.add_comm]

theorem length_sent_le (origin : Nat) (call : TcpCall) (e : CallEvent) (arrived : Bool) :
    (Plant.sent origin call e arrived).length ≤ 1 := by
  unfold Plant.sent
  split
  · split
    · exact Nat.le_refl 1
    · exact Nat.zero_le 1
  · exact Nat.zero_le 1

variable {addresses : Nat} {call call' : TcpCall} {slot slot' : Option Conn} {e : CallEvent}

/-- Only a call that writes puts anything in flight. -/
theorem length_sent_of_not_writing (origin : Nat)
    (h : ∀ conn addrs, call.phase ≠ .writing conn addrs) (e : CallEvent) (arrived : Bool) :
    (Plant.sent origin call e arrived).length = 0 := by
  unfold Plant.sent
  split
  · rename_i conn addrs hphase
    exact absurd hphase (h conn addrs)
  · rfl

/-- No step gives a call one write more. -/
theorem writesLeft_step_le (he : resolvesAtMost addresses e = true)
    (h : call.step slot e = some (slot', call')) :
    call'.writesLeft addresses ≤ call.writesLeft addresses := by
  cases step_cases h with
  | resolved hphase =>
      have hle : _ ≤ addresses := of_decide_eq_true he
      simp only [writesLeft, hphase]
      omega
  | nothingCached hphase _ =>
      rw [writesLeft_nextRemote]
      simp only [writesLeft, hphase]
      omega
  | reuses hphase _ => simp only [writesLeft, hphase, Nat.le_refl]
  | expired hphase _ =>
      rw [writesLeft_nextRemote]
      simp only [writesLeft, hphase]
      omega
  | wrote hphase =>
      simp only [writesLeft, hphase]
      omega
  | writeFailed hphase =>
      rw [writesLeft_nextRemote]
      simp only [writesLeft, hphase]
      omega
  | waits hphase _ => simp only [writesLeft, hphase, Nat.le_refl]
  | readFailed hphase _ =>
      rw [writesLeft_nextRemote]
      simp only [writesLeft, hphase, Nat.le_refl]
  | connected hphase => simp only [writesLeft, hphase, Nat.le_refl]
  | _ => exact Nat.zero_le _

/-- A call that was writing has one write less, whatever came of it. -/
theorem writesLeft_of_writing {conn : Conn} {addrs : List SocketAddr}
    (hphase : call.phase = .writing conn addrs) (h : call.step slot e = some (slot', call')) :
    1 + call'.writesLeft addresses ≤ call.writesLeft addresses := by
  have hleft : call.writesLeft addresses = 1 + addrs.length := by rw [writesLeft, hphase]
  rw [hleft]
  refine Nat.add_le_add_left ?_ 1
  cases step_cases h with
  | cancelled _ => exact Nat.zero_le _
  | wrote hwriting =>
      cases hphase.symm.trans hwriting
      exact Nat.le_refl _
  | writeFailed hwriting =>
      cases hphase.symm.trans hwriting
      rw [writesLeft_nextRemote]
  | _ => cases hphase.symm.trans ‹call.phase = _›

/-- What an event puts in flight is paid for. -/
theorem sent_writesLeft_le (origin : Nat) (arrived : Bool)
    (he : resolvesAtMost addresses e = true) (h : call.step slot e = some (slot', call')) :
    (Plant.sent origin call e arrived).length + call'.writesLeft addresses ≤
      call.writesLeft addresses := by
  by_cases hwriting : ∃ conn addrs, call.phase = .writing conn addrs
  · obtain ⟨conn, addrs, hphase⟩ := hwriting
    exact Nat.le_trans (Nat.add_le_add_right (length_sent_le origin call e arrived) _)
      (writesLeft_of_writing hphase h)
  · rw [length_sent_of_not_writing origin fun conn addrs hphase => hwriting ⟨conn, addrs, hphase⟩,
      Nat.zero_add]
    exact writesLeft_step_le he h

end TcpCall

namespace Plant

variable {σ : Type} {station : Station σ} {w w' : Plant σ} {addresses : Nat}

/-- Names have no more addresses than that. -/
def resolvesAtMost (addresses : Nat) : PlantAction σ → Bool
  | .event _ e _ => TcpCall.resolvesAtMost addresses e
  | _ => true

/-- How often a task's call can still write its frame. -/
def writesLeft (addresses : Nat) (w : Plant σ) (t : TaskId) : Nat :=
  ((w.pool.call t).map (TcpCall.writesLeft addresses)).getD 0

theorem writesLeft_of_call {t : TaskId} {call : TcpCall} (h : w.pool.call t = some call) :
    writesLeft addresses w t = call.writesLeft addresses := by
  rw [writesLeft, h, Option.map_some, Option.getD_some]

theorem writesLeft_congr {u : TaskId} (h : w'.pool.call u = w.pool.call u) :
    writesLeft addresses w' u = writesLeft addresses w u := by
  rw [writesLeft, h, writesLeft]

theorem countP_sent (origin : Nat) (call : TcpCall) (e : CallEvent) (arrived : Bool) (i : Nat) :
    (sent origin call e arrived).countP (fun p => p.2.origin = i) =
      if origin = i then (sent origin call e arrived).length else 0 := by
  by_cases hi : origin = i
  · rw [if_pos hi, List.countP_eq_length]
    intro p hp
    rw [mem_sent hp]
    exact decide_eq_true hi
  · rw [if_neg hi, List.countP_eq_zero]
    intro p hp
    rw [mem_sent hp, decide_eq_true_eq]
    exact hi

/-- A call goes on, and pays for what it puts in flight. -/
theorem spends_after {t : TaskId} {e : CallEvent} {arrived : Bool} {call call' : TcpCall}
    {slot' : Option Conn} (hcall : w.pool.call t = some call)
    (hstep : call.step w.pool.slot e = some (slot', call'))
    (hpool : w'.pool = w.pool.after t e call slot' call')
    (hresolves : TcpCall.resolvesAtMost addresses e = true)
    (hpending : w'.pending = w.pending ++ sent (w.origin t) call e arrived)
    (hexecuted : w'.executed = w.executed) :
    (tcpChannel station).Spends (writesLeft addresses) w w' := by
  have hcalls : w'.pool.call = Function.update w.pool.call t (some call') := by
    rw [hpool]
    rfl
  have hdelivered : ∀ i, w'.delivered i =
      w.delivered i + if w.origin t = i then (sent (w.origin t) call e arrived).length else 0 := by
    intro i
    rw [← countP_sent, delivered, delivered, hpending, hexecuted, List.countP_append]
    omega
  refine .call (view_of_call hcall) (TcpCall.ended_eq_none (TcpCall.not_isDone_of_step hstep))
    ?_ ?_ ?_
  · intro u hu
    exact writesLeft_congr (by rw [hcalls, Function.update_of_ne hu])
  · intro i hi
    show w'.delivered i = w.delivered i
    rw [hdelivered, if_neg (Ne.symm hi), Nat.add_zero]
  · have hcost := TcpCall.sent_writesLeft_le (w.origin t) arrived hresolves hstep
    show w'.delivered (w.origin t) + writesLeft addresses w' t ≤
      w.delivered (w.origin t) + writesLeft addresses w t
    have hcall' : w'.pool.call t = some call' := by rw [hcalls, Function.update_self]
    rw [hdelivered, if_pos rfl, writesLeft_of_call hcall', writesLeft_of_call hcall]
    omega

theorem step_spends {a : PlantAction σ} (ha : a.begins = false)
    (hresolves : resolvesAtMost addresses a = true) (h : w.step station a = some w') :
    (tcpChannel station).Spends (writesLeft addresses) w w' := by
  cases step_cases h with
  | begins _ => cases ha
  | goesOn _ hcall _ hstep => exact spends_after hcall hstep rfl hresolves rfl rfl
  | @reads t n conn addrs buf call _ _ hcall hphase _ _ hstep =>
      -- a read puts nothing in flight
      have hnone : sent (w.origin t) call (.read (.ok ((w.unread conn).take n))) false = [] := by
        rw [sent, hphase]
      have hpending : w.pending = w.pending ++
          sent (w.origin t) call (.read (.ok ((w.unread conn).take n))) false := by
        rw [hnone, List.append_nil]
      exact spends_after hcall hstep rfl rfl hpending rfl
  | @serves conn request pending htake =>
      have hperm := (Mailboxes.taken_of_take htake).perm
      refine .nothing (fun u => rfl) fun i => ?_
      show pending.countP _ + (w.executed ++ [_]).countP _ = w.delivered i
      rw [delivered, hperm.countP_eq, List.countP_append, List.countP_cons, List.countP_cons,
        List.countP_nil]
      dsimp only
      omega
  | changes => exact .nothing (fun u => rfl) fun i => rfl

theorem step_begun_left {t : TaskId} {payload : Bytes} {origin : Nat}
    (h : w.step station (.begin t payload origin) = some w') :
    writesLeft addresses w' t = 1 + addresses ∧
      (∀ u, u ≠ t → writesLeft addresses w' u = writesLeft addresses w u) ∧
      ∀ i, w'.delivered i = w.delivered i := by
  obtain ⟨pool, hpool, rfl⟩ := Option.map_eq_some_iff.mp h
  obtain ⟨-, rfl⟩ := Pool.step_begin hpool
  refine ⟨?_, fun u hu => writesLeft_congr (Function.update_of_ne hu _ _), fun i => rfl⟩
  rw [writesLeft_of_call (Function.update_self _ _ _)]
  rfl

end Plant

/-- Over TCP, a frame for the cached stream and one for each address. -/
def tcpMeter {σ : Type} (station : Station σ) (addresses : Nat) :
    Channel.Meter (tcpChannel station) where
  Inv _ := True
  fits := Plant.resolvesAtMost addresses
  perCall := 1 + addresses
  left := Plant.writesLeft addresses
  start _ _ := ⟨trivial, fun _ => rfl⟩
  begin {w w' t request} _ h := by
    have hstep : Plant.step station w (.begin t request.payload request.origin) = some w' := h
    obtain ⟨hleft, hothers, hsendings⟩ := Plant.step_begun_left hstep
    exact ⟨trivial, Nat.le_of_eq hleft, hothers, hsendings⟩
  act _ hfits h :=
    ⟨trivial, Plant.step_spends (Plant.step_of_act h).1 hfits (Plant.step_of_act h).2⟩

/-! ### UDP

A send that fails may have got through as well.  For each address there is a number of attempts,
and each of them sends once; a bind that fails skips its address and costs nothing.
-/

namespace UdpCall

/-- How often the call can still send its frame. -/
def sendsLeft (addresses : Nat) (call : UdpCall) : Nat :=
  match call.phase with
  | .resolving => addresses * call.maxAttempts
  | .binding _ addrs => (addrs.length + 1) * call.maxAttempts
  | .sending _ _ addrs attempt =>
      1 + (call.maxAttempts - (attempt + 1)) + addrs.length * call.maxAttempts
  | .receiving _ _ addrs attempt _ =>
      (call.maxAttempts - (attempt + 1)) + addrs.length * call.maxAttempts
  | .finished _ => 0
  | .cancelled => 0

/-- A name has no more addresses than that. -/
def resolvesAtMost (addresses : Nat) : UdpEvent → Bool
  | .resolved addrs => addrs.length ≤ addresses
  | _ => true

theorem sendsLeft_nextRemote (addresses : Nat) (call : UdpCall) (addrs : List SocketAddr) :
    (nextRemote call addrs).sendsLeft addresses = addrs.length * call.maxAttempts := by
  cases addrs with
  | nil => exact (Nat.zero_mul _).symm
  | cons remote rest => rfl

theorem sendsLeft_nextAttempt (addresses : Nat) (call : UdpCall) (sock : Sock)
    (remote : SocketAddr) (addrs : List SocketAddr) (attempt : Nat) :
    (nextAttempt call sock remote addrs attempt).sendsLeft addresses =
      (call.maxAttempts - attempt) + addrs.length * call.maxAttempts := by
  rw [nextAttempt]
  split
  · rename_i hlt
    show 1 + (call.maxAttempts - (attempt + 1)) + addrs.length * call.maxAttempts = _
    omega
  · rename_i hge
    rw [sendsLeft_nextRemote, Nat.sub_eq_zero_of_le (Nat.not_lt.mp hge), Nat.zero_add]

theorem length_sentBy_le (origin : Nat) (call : UdpCall) (e : UdpEvent) (arrived : Bool) :
    (UdpPlant.sentBy origin call e arrived).length ≤ 1 := by
  unfold UdpPlant.sentBy
  split
  · split
    · exact Nat.le_refl 1
    · exact Nat.zero_le 1
  · exact Nat.zero_le 1

variable {addresses : Nat} {call call' : UdpCall} {e : UdpEvent}

/-- Only a call that sends puts anything in flight. -/
theorem length_sentBy_of_not_sending (origin : Nat)
    (h : ∀ sock remote addrs attempt, call.phase ≠ .sending sock remote addrs attempt)
    (e : UdpEvent) (arrived : Bool) : (UdpPlant.sentBy origin call e arrived).length = 0 := by
  unfold UdpPlant.sentBy
  split
  · rename_i sock remote addrs attempt hphase
    exact absurd hphase (h sock remote addrs attempt)
  · rfl

/-- No step gives a call one sending more. -/
theorem sendsLeft_step_le (he : resolvesAtMost addresses e = true) (h : call.step e = some call') :
    call'.sendsLeft addresses ≤ call.sendsLeft addresses := by
  cases step_cases h with
  | resolved hphase =>
      have hle : _ ≤ addresses := of_decide_eq_true he
      rw [sendsLeft_nextRemote]
      simp only [sendsLeft, hphase]
      exact Nat.mul_le_mul_right _ hle
  | bound hphase =>
      rw [sendsLeft_nextAttempt]
      simp only [sendsLeft, hphase, Nat.add_one_mul]
      omega
  | bindFailed hphase =>
      rw [sendsLeft_nextRemote]
      simp only [sendsLeft, hphase, Nat.add_one_mul]
      omega
  | sent hphase =>
      simp only [sendsLeft, hphase]
      omega
  | sendFailed hphase =>
      rw [sendsLeft_nextAttempt]
      simp only [sendsLeft, hphase]
      omega
  | waits hphase _ => simp only [sendsLeft, hphase, Nat.le_refl]
  | receiveFailed hphase _ =>
      rw [sendsLeft_nextAttempt]
      simp only [sendsLeft, hphase, Nat.le_refl]
  | _ => exact Nat.zero_le _

/-- A call that was sending has one sending less, whatever came of it. -/
theorem sendsLeft_of_sending {sock : Sock} {remote : SocketAddr} {addrs : List SocketAddr}
    {attempt : Nat} (hphase : call.phase = .sending sock remote addrs attempt)
    (h : call.step e = some call') :
    1 + call'.sendsLeft addresses ≤ call.sendsLeft addresses := by
  have hleft : call.sendsLeft addresses =
      1 + (call.maxAttempts - (attempt + 1)) + addrs.length * call.maxAttempts := by
    rw [sendsLeft, hphase]
  rw [hleft, Nat.add_assoc]
  refine Nat.add_le_add_left ?_ 1
  cases step_cases h with
  | cancelled _ => exact Nat.zero_le _
  | sent hsending =>
      cases hphase.symm.trans hsending
      exact Nat.le_refl _
  | sendFailed hsending =>
      cases hphase.symm.trans hsending
      rw [sendsLeft_nextAttempt]
  | _ => cases hphase.symm.trans ‹call.phase = _›

/-- What an event puts in flight is paid for. -/
theorem sentBy_sendsLeft_le (origin : Nat) (arrived : Bool)
    (he : resolvesAtMost addresses e = true) (h : call.step e = some call') :
    (UdpPlant.sentBy origin call e arrived).length + call'.sendsLeft addresses ≤
      call.sendsLeft addresses := by
  by_cases hsending : ∃ sock remote addrs attempt, call.phase = .sending sock remote addrs attempt
  · obtain ⟨sock, remote, addrs, attempt, hphase⟩ := hsending
    exact Nat.le_trans (Nat.add_le_add_right (length_sentBy_le origin call e arrived) _)
      (sendsLeft_of_sending hphase h)
  · rw [length_sentBy_of_not_sending origin fun sock remote addrs attempt hphase =>
      hsending ⟨sock, remote, addrs, attempt, hphase⟩, Nat.zero_add]
    exact sendsLeft_step_le he h

end UdpCall

namespace UdpPlant

variable {σ : Type} {station : Station σ} {maxAttempts : Nat} {w w' : UdpPlant σ}
  {addresses : Nat}

/-- Names have no more addresses than that. -/
def resolvesAtMost (addresses : Nat) : UdpPlantAction σ → Bool
  | .event _ e _ => UdpCall.resolvesAtMost addresses e
  | _ => true

/-- How often a task's call can still send its frame. -/
def sendsLeft (addresses : Nat) (w : UdpPlant σ) (t : TaskId) : Nat :=
  ((w.call t).map (UdpCall.sendsLeft addresses)).getD 0

theorem sendsLeft_of_call {t : TaskId} {call : UdpCall} (h : w.call t = some call) :
    sendsLeft addresses w t = call.sendsLeft addresses := by
  rw [sendsLeft, h, Option.map_some, Option.getD_some]

theorem sendsLeft_congr {u : TaskId} (h : w'.call u = w.call u) :
    sendsLeft addresses w' u = sendsLeft addresses w u := by
  rw [sendsLeft, h, sendsLeft]

/-- Every call makes the configured number of attempts. -/
structure Configured (maxAttempts : Nat) (w : UdpPlant σ) : Prop where
  target : w.maxAttempts = maxAttempts
  calls : ∀ t call, w.call t = some call → call.maxAttempts = maxAttempts

theorem countP_sentBy (origin : Nat) (call : UdpCall) (e : UdpEvent) (arrived : Bool) (i : Nat) :
    ((sentBy origin call e arrived).map Prod.snd).countP (fun r => r.origin = i) =
      if origin = i then (sentBy origin call e arrived).length else 0 := by
  rw [List.countP_map]
  by_cases hi : origin = i
  · rw [if_pos hi, List.countP_eq_length]
    intro p hp
    rw [Function.comp_apply, (mem_sentBy hp).2]
    exact decide_eq_true hi
  · rw [if_neg hi, List.countP_eq_zero]
    intro p hp
    rw [Function.comp_apply, (mem_sentBy hp).2, decide_eq_true_eq]
    exact hi

/-- A call goes on, and pays for what it puts in flight. -/
theorem spends_after (hconf : w.Configured maxAttempts) {t : TaskId} {e : UdpEvent}
    {call call' : UdpCall} (hcall : w.call t = some call) (hstep : call.step e = some call')
    (hresolves : UdpCall.resolvesAtMost addresses e = true) (arrived : Bool) :
    (w.after t e arrived call call').Configured maxAttempts ∧
      (udpChannel maxAttempts station).Spends (sendsLeft addresses) w
        (w.after t e arrived call call') := by
  have hcost := UdpCall.sentBy_sendsLeft_le (w.origin t) arrived hresolves hstep
  refine ⟨⟨hconf.target, ?_⟩, .call (view_of_call hcall)
    (UdpCall.ended_eq_none (UdpCall.not_isDone_of_step hstep)) ?_ ?_ ?_⟩
  · intro u other hother
    have hupdate : Function.update w.call t (some call') u = some other := hother
    by_cases hu : u = t
    · rw [hu, Function.update_self, Option.some.injEq] at hupdate
      rw [← hupdate, (UdpCall.same_of_step hstep).maxAttempts]
      exact hconf.calls t call hcall
    · rw [Function.update_of_ne hu] at hupdate
      exact hconf.calls u other hupdate
  · intro u hu
    exact sendsLeft_congr (Function.update_of_ne hu _ _)
  · intro i hi
    show (w.sent ++ _).countP _ = w.sent.countP _
    rw [List.countP_append, countP_sentBy, if_neg (Ne.symm hi), Nat.add_zero]
  · rw [sendsLeft_of_call hcall, sendsLeft_of_call (Function.update_self _ _ _)]
    show (w.sent ++ _).countP _ + _ ≤ w.sent.countP _ + _
    rw [List.countP_append, countP_sentBy, if_pos rfl, Nat.add_assoc]
    exact Nat.add_le_add_left hcost _

theorem step_spends (hconf : w.Configured maxAttempts) {a : UdpPlantAction σ}
    (ha : a.begins = false) (hresolves : resolvesAtMost addresses a = true)
    (h : w.step station a = some w') :
    w'.Configured maxAttempts ∧
      (udpChannel maxAttempts station).Spends (sendsLeft addresses) w w' := by
  cases step_cases h with
  | begins _ => cases ha
  | goesOn hcall _ hstep => exact spends_after hconf hcall hstep hresolves _
  | delivers _ hcall _ hstep => exact spends_after hconf hcall hstep rfl false
  | _ => exact ⟨⟨hconf.target, hconf.calls⟩, .nothing (fun u => rfl) fun i => rfl⟩

theorem step_begun_left (hconf : w.Configured maxAttempts) {t : TaskId} {payload : Bytes}
    {origin : Nat} (h : w.step station (.begin t payload origin) = some w') :
    w'.Configured maxAttempts ∧ sendsLeft addresses w' t = addresses * maxAttempts ∧
      (∀ u, u ≠ t → sendsLeft addresses w' u = sendsLeft addresses w u) ∧ w'.sent = w.sent := by
  cases step_cases h with
  | begins _ =>
      refine ⟨⟨hconf.target, ?_⟩, ?_,
        fun u hu => sendsLeft_congr (Function.update_of_ne hu _ _), rfl⟩
      · intro u other hother
        have hupdate : Function.update w.call t
            (some (UdpCall.start w.addr payload w.maxAttempts)) u = some other := hother
        by_cases hu : u = t
        · rw [hu, Function.update_self, Option.some.injEq] at hupdate
          rw [← hupdate]
          exact hconf.target
        · rw [Function.update_of_ne hu] at hupdate
          exact hconf.calls u other hupdate
      · rw [sendsLeft_of_call (Function.update_self _ _ _), ← hconf.target]
        rfl

end UdpPlant

/-- Over UDP, a number of attempts for each address. -/
def udpMeter {σ : Type} (maxAttempts : Nat) (station : Station σ) (addresses : Nat) :
    Channel.Meter (udpChannel maxAttempts station) where
  Inv := UdpPlant.Configured maxAttempts
  fits := UdpPlant.resolvesAtMost addresses
  perCall := addresses * maxAttempts
  left := UdpPlant.sendsLeft addresses
  start _ _ := ⟨⟨rfl, fun _ _ h => by cases h⟩, fun _ => rfl⟩
  begin {w w' t request} hconf h := by
    have hstep : UdpPlant.step station w (.begin t request.payload request.origin) = some w' := h
    obtain ⟨hconf', hleft, hothers, hsent⟩ := UdpPlant.step_begun_left hconf hstep
    exact ⟨hconf', Nat.le_of_eq hleft, hothers, fun i => by
      show List.countP _ (UdpPlant.sent _) = List.countP _ (UdpPlant.sent _)
      rw [hsent]⟩
  act hconf hfits h :=
    UdpPlant.step_spends hconf (UdpPlant.step_of_act h).1 hfits (UdpPlant.step_of_act h).2

end MelsecMc
