/-
A caller never gets another caller's answer.

Three facts meet here.  The counter never hands out the serial 0, which the receive
loop takes for "any serial will do", and it hands out the same serial again only after
65535 others.  The MC4E builder writes the serial to the two bytes the transport reads
it back from.  And the receive loop hands out only frames that carry the serial it was
told to expect: with an expected serial other than 0 the MC3E layouts, which announce no
serial, are always dropped.

`Inv` says this of one moment; every action keeps it, so it holds at every moment of
every run (`session_safe`).

The station plays no part in this.  Whatever bytes come back, and to whichever call, a frame that
is returned carries the serial of the request it is returned for.  What it takes for the frame to
be the answer to that very request is said in `Proofs/Plant` and `Proofs/Udp`.
-/
import MelsecMc.Lib.Runs
import MelsecMc.Proofs.Calls
import MelsecMc.Proofs.Reassembly
import MelsecMc.Session

namespace MelsecMc

/-! ### The counter

The counter goes from 1 to 65535 and over again, so among fewer than 65535 requests in a row no
two have the same serial.  `Issued` keeps the whole list of what was handed out.
-/

/-- The serial handed out by call number `i` of `next_serial`. -/
def serialAt (i : Nat) : Nat := (i + 1) % 65535 + 1

theorem nextSerial_fst (counter : UInt16) : (nextSerial counter).1 = (nextSerial counter).2 := rfl

theorem nextSerial_toNat (counter : UInt16) :
    (nextSerial counter).2.toNat = counter.toNat % 65535 + 1 := by
  have hlt : counter.toNat < 65536 := counter.toNat_lt
  rw [nextSerial]
  by_cases hmax : counter = 0xFFFF
  · rw [if_pos hmax, hmax]
    rfl
  · have hne : counter.toNat ≠ 65535 := fun h => hmax (UInt16.toNat_inj.mp h)
    rw [if_neg hmax, UInt16.toNat_add, show (1 : UInt16).toNat = 1 from rfl]
    omega

/-- The counter after `n` calls, and what they handed out. -/
structure Issued (counter : UInt16) (issued : List UInt16) : Prop where
  counter : counter.toNat = issued.length % 65535 + 1
  serial : ∀ i (h : i < issued.length), issued[i].toNat = serialAt i

theorem issued_start : Issued serialCounterStart [] where
  counter := rfl
  serial i h := absurd h (Nat.not_lt_zero i)

theorem Issued.next {counter : UInt16} {issued : List UInt16} (h : Issued counter issued) :
    Issued (nextSerial counter).1 (issued ++ [(nextSerial counter).2]) where
  counter := by
    have hcounter := h.counter
    rw [nextSerial_fst, nextSerial_toNat, List.length_append, List.length_singleton]
    omega
  serial := by
    intro i hi
    rw [List.length_append, List.length_singleton] at hi
    by_cases hold : i < issued.length
    · rw [List.getElem_append_left hold]
      exact h.serial i hold
    · have hlast : i = issued.length := by omega
      subst hlast
      rw [List.getElem_concat_length rfl, nextSerial_toNat, h.counter, serialAt]
      omega

theorem Issued.zero_notMem {counter : UInt16} {issued : List UInt16} (h : Issued counter issued) :
    (0 : UInt16) ∉ issued := by
  intro hmem
  obtain ⟨i, hi, hzero⟩ := List.getElem_of_mem hmem
  have hserial := h.serial i hi
  rw [hzero, serialAt] at hserial
  exact absurd hserial (by rw [show (0 : UInt16).toNat = 0 from rfl]; omega)

/-- Fewer than 65535 calls apart, two serials differ. -/
theorem serialAt_ne {i j : Nat} (hij : i < j) (hclose : j < i + 65535) : serialAt i ≠ serialAt j := by
  rw [serialAt, serialAt]
  omega

theorem Issued.nodup_window {counter : UInt16} {issued : List UInt16} (h : Issued counter issued)
    (i : Nat) : ((issued.drop i).take 65535).Nodup := by
  rw [List.Nodup, List.pairwise_iff_getElem]
  intro a b ha hb hab heq
  rw [List.length_take, List.length_drop] at ha hb
  rw [List.getElem_take, List.getElem_take, List.getElem_drop, List.getElem_drop] at heq
  have hserials := congrArg UInt16.toNat heq
  rw [h.serial, h.serial] at hserials
  exact serialAt_ne (by omega) (by omega) hserials

/-! ### The serial on the wire

Of the three layouts only the MC4E one has a serial.  A frame that the loop returns to a caller
with a serial was therefore seen in that layout, and bytes 2 and 3 of it are that serial.
-/

/-- An MC4E response to the request with this serial: bytes 2 and 3 carry it. -/
def IsResponseTo (serial : UInt16) (frame : Bytes) : Prop :=
  ∃ lead second rest, IsMc4eLead lead ∧ frame = lead :: second :: u16Lo serial :: u16Hi serial :: rest

theorem detectMc3e_serial {headerLen lenAt : Nat} {buf : Bytes} {n m : Nat} {s : Option UInt16}
    (h : detectMc3e headerLen lenAt buf = .ok (some (n, m, s))) : s = none := by
  rw [detectMc3e] at h
  split at h
  · obtain ⟨dataLen, -, h⟩ := bind_eq_ok.mp h
    dsimp only at h
    split at h
    · simp only [pure_eq_ok, Except.ok.injEq, Option.some.injEq, Prod.mk.injEq] at h
      exact h.2.2.symm
    · simp at h
  · simp at h

/-- A serial is found only in an MC4E header, and there it is bytes 2 and 3. -/
theorem detectFrame_serial {buf : Bytes} {n m : Nat} {serial : UInt16}
    (h : detectFrame buf = .ok (some (n, m, some serial))) :
    15 ≤ n ∧ IsResponseTo serial buf := by
  cases hstart : startsMc4e buf with
  | error e =>
      rw [detectFrame, hstart] at h
      split at h <;> simp at h
  | ok isMc4e =>
      cases isMc4e with
      | true =>
          obtain ⟨sh, s, reserved, route, dataLen, endCode, hlead, hbuf⟩ := exists_mc4eHeader hstart
          rw [hbuf] at h
          by_cases hlen : 2 ≤ dataLen.toNat
          · rw [detectFrame_mc4eHeader hlead _ _ _ _ _ hlen] at h
            simp only [Except.ok.injEq, Option.some.injEq, Prod.mk.injEq] at h
            obtain ⟨hn, -, rfl⟩ := h
            refine ⟨by omega, leadByte sh, secondByte sh, ?_⟩
            rw [hbuf, mc4eHeader_eq]
            exact ⟨_, hlead, rfl⟩
          · obtain ⟨msg, herr⟩ :=
              detectFrame_mc4eHeader_short hlead s reserved route endCode (buf.drop 15)
                (Nat.not_le.mp hlen)
            rw [herr] at h
            cases h
      | false =>
          rw [detectFrame, hstart] at h
          split at h
          · simp at h
          · rw [ok_bind, if_neg Bool.false_ne_true] at h
            obtain ⟨found, hsub, h⟩ := bind_eq_ok.mp h
            cases found with
            | some frame =>
                obtain ⟨n', m', s'⟩ := frame
                have hnone := detectMc3e_serial hsub
                simp [hnone] at h
            | none =>
                have hnone := detectMc3e_serial h
                cases hnone

theorem IsResponseTo.take {serial : UInt16} {buf : Bytes} (h : IsResponseTo serial buf) {n : Nat}
    (hn : 15 ≤ n) : IsResponseTo serial (buf.take n) := by
  obtain ⟨lead, second, rest, hlead, rfl⟩ := h
  obtain ⟨m, rfl⟩ : ∃ m, n = m + 4 := ⟨n - 4, by omega⟩
  exact ⟨lead, second, rest.take m, hlead, rfl⟩

/-- **The receive loop returns nothing but a response to the serial it expects.** -/
theorem onRead_returned {expected : UInt16} (he : expected ≠ 0) {buf frame rest : Bytes}
    {result : ReadResult} (h : onRead expected buf result = .returned frame rest) :
    IsResponseTo expected frame := by
  have hscan : ∃ buf', (receiver expected).scan buf' = .delivered frame rest := by
    unfold onRead at h
    split at h
    · cases h
    · rename_i chunk _
      split at h
      · cases h
      · rename_i frame' rest' hscan
        cases h
        exact ⟨_, hscan⟩
      · cases h
    · cases h
  obtain ⟨buf', hscan⟩ := hscan
  obtain ⟨tail, n, -, hdeliver, rfl, -⟩ := (receiver expected).scan_delivered hscan
  obtain ⟨-, -, -, headerLen, serialOpt, hdetect, hserial⟩ := scanVerdict_deliver hdeliver
  have hexpected : serialOpt.getD 0 = expected := hserial.resolve_left he
  cases serialOpt with
  | none => exact absurd hexpected.symm he
  | some serial =>
      rw [Option.getD_some] at hexpected
      subst hexpected
      obtain ⟨hn, hresp⟩ := detectFrame_serial hdetect
      exact hresp.take hn

/-! ### One call -/

namespace TcpCall

theorem nextRemote_addr (call : TcpCall) (addrs : List SocketAddr) :
    (call.nextRemote addrs).addr = call.addr := by
  cases addrs <;> rfl

theorem nextRemote_payload (call : TcpCall) (addrs : List SocketAddr) :
    (call.nextRemote addrs).payload = call.payload := by
  cases addrs <;> rfl

theorem nextRemote_phase (call : TcpCall) (addrs : List SocketAddr) (resp : Bytes) :
    (call.nextRemote addrs).phase ≠ .finished (.ok resp) := by
  cases addrs <;> simp [nextRemote, protocolError]

/-- What a step keeps, and the only way it can end the call with `Ok`. -/
structure StepOf (call call' : TcpCall) : Prop where
  addr : call'.addr = call.addr
  payload : call'.payload = call.payload
  okFrame : ∀ resp, call'.phase = .finished (.ok resp) →
    ∃ buf result rest, onRead (serialOf call.payload) buf result = .returned resp rest

theorem stepOf_nextRemote (call : TcpCall) (lastErr : Option String) (addrs : List SocketAddr) :
    StepOf call (nextRemote { call with lastErr } addrs) where
  addr := nextRemote_addr _ addrs
  payload := nextRemote_payload _ addrs
  okFrame resp h := absurd h (nextRemote_phase _ addrs resp)

/-- A step to a phase that is not an `Ok` result. -/
theorem stepOf_phase (call : TcpCall) {phase : CallPhase} (h : ∀ resp, phase ≠ .finished (.ok resp)) :
    StepOf call { call with phase } where
  addr := rfl
  payload := rfl
  okFrame resp hphase := absurd hphase (h resp)

theorem step_spec {call call' : TcpCall} {slot slot' : Option Conn} {event : CallEvent}
    (h : call.step slot event = some (slot', call')) : StepOf call call' := by
  cases step_cases h with
  | nothingCached _ _ => exact stepOf_nextRemote call call.lastErr _
  | expired _ _ => exact stepOf_nextRemote call call.lastErr _
  | writeFailed _ => exact stepOf_nextRemote call _ _
  | readFailed _ _ => exact stepOf_nextRemote call _ _
  | returns hphase hread =>
      refine ⟨rfl, rfl, fun resp hphase' => ?_⟩
      rw [CallPhase.finished.injEq, Except.ok.injEq] at hphase'
      exact ⟨_, _, _, hphase' ▸ hread⟩
  | _ => exact stepOf_phase call (by simp [protocolError])

end TcpCall

/-! ### One action -/

/-- The request a task has, sent or not. -/
def TaskState.request : TaskState → Option McRequest
  | .idle => none
  | .ready req | .calling req _ => some req

namespace World

/-- Everything an action can do. -/
theorem step_cases {w w' : World} {a : Action} (h : w.step a = some w') :
    (∃ t calls, a = .create t calls ∧ (w.task t).atRest = true ∧
      calls.all (·.keepsSerial) = true ∧
      w' = { w with
        counter := (nextSerial w.counter).1
        issued := w.issued ++ [(nextSerial w.counter).2]
        task := Function.update w.task t (created (nextSerial w.counter).2 calls) }) ∨
    (∃ t addr req, a = .send t addr ∧ (w.task t).atRest = true ∧
      (w.task t).request = some req ∧ w' = w.startCall t addr req) ∨
    ∃ t e req call slot call', a = .event t e ∧ w.task t = .calling req call ∧
      w.mayHappen call e = true ∧ call.step (w.slot call.addr) e = some (slot, call') ∧
      w' = { w with
        slot := Function.update w.slot call.addr slot
        holder := Function.update w.holder call.addr
          (holderAfter t e call' (w.holder call.addr))
        task := Function.update w.task t (.calling req call') } := by
  cases a with
  | create t calls =>
      rw [step] at h
      split at h
      · rename_i hmay
        rw [Option.some.injEq] at h
        exact .inl ⟨t, calls, rfl, hmay.1, hmay.2, h.symm⟩
      · cases h
  | send t addr =>
      rw [step] at h
      refine .inr (.inl ?_)
      split at h
      · cases h
      · rename_i req htask
        rw [Option.some.injEq] at h
        exact ⟨t, addr, req, rfl, by rw [htask]; rfl, by rw [htask]; rfl, h.symm⟩
      · rename_i req call htask
        split at h
        · rename_i hdone
          rw [Option.some.injEq] at h
          exact ⟨t, addr, req, rfl, by rw [htask]; exact hdone, by rw [htask]; rfl, h.symm⟩
        · cases h
  | event t e =>
      rw [step] at h
      refine .inr (.inr ?_)
      split at h
      · rename_i req call htask
        split at h
        · rename_i hmay
          split at h
          · rename_i slot call' hstep
            rw [Option.some.injEq] at h
            exact ⟨t, e, req, call, slot, call', rfl, htask, hmay, hstep, h.symm⟩
          · cases h
        · cases h
      · cases h

end World

/-! ### Every action of every run

What is true of a task depends on that task alone: which serial its request has and which frame
its call sends.  The counter only ever adds to the serials that were handed out.
-/

/-- A task's request has a serial that was handed out, its call sends the frame of that
request, and the call's `Ok` is a response to it. -/
structure TaskOk (issued : List UInt16) (task : TaskState) : Prop where
  serial : ∀ req, task.request = some req → req.serialNumber ∈ issued
  payload : ∀ req call, task = .calling req call → call.payload = req.buildWithFormat .mc4e
  response : ∀ req call resp, task = .calling req call → call.phase = .finished (.ok resp) →
    IsResponseTo req.serialNumber resp

namespace TaskOk

theorem mono {issued : List UInt16} {task : TaskState} (h : TaskOk issued task)
    (more : List UInt16) : TaskOk (issued ++ more) task :=
  ⟨fun req hreq => List.mem_append_left more (h.serial req hreq), h.payload, h.response⟩

theorem idle (issued : List UInt16) : TaskOk issued .idle where
  serial _ h := by cases h
  payload _ _ h := by cases h
  response _ _ _ h := by cases h

theorem ready {issued : List UInt16} {req : McRequest} (h : req.serialNumber ∈ issued) :
    TaskOk issued (.ready req) where
  serial req' hreq := by
    rw [TaskState.request, Option.some.injEq] at hreq
    exact hreq ▸ h
  payload _ _ h := by cases h
  response _ _ _ h := by cases h

/-- A builder chain without `with_serial_number` keeps the serial. -/
theorem applyCalls_serialNumber {calls : List McRequest.BuilderCall} :
    ∀ {req req' : McRequest}, calls.all (·.keepsSerial) = true → req.applyCalls calls = .ok req' →
      req'.serialNumber = req.serialNumber := by
  induction calls with
  | nil =>
      intro req req' _ h
      rw [McRequest.applyCalls, Except.ok.injEq] at h
      rw [h]
  | cons call calls ih =>
      intro req req' hkeeps h
      rw [List.all_cons, Bool.and_eq_true] at hkeeps
      rw [McRequest.applyCalls] at h
      split at h
      · rename_i mid hmid
        rw [ih hkeeps.2 h]
        cases call with
        | withSerialNumber serial =>
            exact absurd hkeeps.1 (by simp [McRequest.BuilderCall.keepsSerial])
        | tryWithRequestData data =>
            obtain ⟨-, rfl⟩ := McRequest.tryWithRequestData_ok.mp hmid
            rfl
        | withSubheader _ | withAccessRoute _ | withMonitoringTimer _ =>
            rw [McRequest.applyCall, Except.ok.injEq] at hmid
            rw [← hmid]
            rfl
      · cases h

theorem created {issued : List UInt16} (serial : UInt16) {calls : List McRequest.BuilderCall}
    (hkeeps : calls.all (·.keepsSerial) = true) :
    TaskOk (issued ++ [serial]) (World.created serial calls) := by
  rw [World.created]
  cases hbuilt : (McRequest.new serial).applyCalls calls with
  | error e => exact idle _
  | ok req =>
      refine ready ?_
      rw [applyCalls_serialNumber hkeeps hbuilt]
      exact List.mem_append_right issued (List.mem_singleton.mpr rfl)

theorem startCall {issued : List UInt16} {task : TaskState} (h : TaskOk issued task)
    {req : McRequest} (hreq : task.request = some req) (addr : String) :
    TaskOk issued (.calling req (TcpCall.start addr (req.buildWithFormat .mc4e))) := by
  refine ⟨fun req' hreq' => ?_, fun req' call hcall => ?_, fun req' call resp hcall hphase => ?_⟩
  · rw [TaskState.request, Option.some.injEq] at hreq'
    exact hreq' ▸ h.serial req hreq
  · cases hcall
    rfl
  · cases hcall
    cases hphase

/-- The serial on the payload is the request's, it is not 0, and so the only frame the
call can end with is a response to it. -/
theorem step {issued : List UInt16} {req : McRequest} {call call' : TcpCall}
    (h : TaskOk issued (.calling req call)) (hzero : (0 : UInt16) ∉ issued)
    (hstep : TcpCall.StepOf call call') : TaskOk issued (.calling req call') := by
  have hpayload := h.payload req call rfl
  refine ⟨fun req' hreq' => h.serial req' hreq', fun req' call'' hcall => ?_,
    fun req' call'' resp hcall hphase => ?_⟩
  · cases hcall
    rw [hstep.payload, hpayload]
  · cases hcall
    obtain ⟨buf, result, rest, hread⟩ := hstep.okFrame resp hphase
    have hexpected : serialOf call.payload = req.serialNumber := by
      rw [hpayload, serialOf_buildWithFormat_mc4e]
    have hne : req.serialNumber ≠ 0 := fun hserial => hzero (hserial ▸ h.serial req rfl)
    rw [hexpected] at hread
    exact onRead_returned hne hread

end TaskOk

namespace World

/-- What holds between any two actions. -/
structure Inv (w : World) : Prop where
  serials : Issued w.counter w.issued
  tasks : ∀ t, TaskOk w.issued (w.task t)

theorem inv_start : Inv start where
  serials := issued_start
  tasks _ := TaskOk.idle []

/-- One task changed, and the others are as they were. -/
theorem taskOk_update {issued : List UInt16} {task : TaskId → TaskState} {t : TaskId}
    {changed : TaskState} (hothers : ∀ u, TaskOk issued (task u)) (hchanged : TaskOk issued changed) :
    ∀ u, TaskOk issued (Function.update task t changed u) := by
  intro u
  by_cases hu : u = t
  · subst hu
    rw [Function.update_self]
    exact hchanged
  · rw [Function.update_of_ne hu]
    exact hothers u

theorem step_inv (w : World) (a : Action) (w' : World) (hinv : Inv w) (h : w.step a = some w') :
    Inv w' := by
  obtain ⟨t, calls, -, -, hkeeps, rfl⟩ | ⟨t, addr, req, -, -, hreq, rfl⟩ |
    ⟨t, e, req, call, slot, call', -, htask, -, hstep, rfl⟩ := step_cases h
  · exact ⟨hinv.serials.next,
      taskOk_update (fun u => (hinv.tasks u).mono _) (TaskOk.created _ hkeeps)⟩
  · exact ⟨hinv.serials, taskOk_update hinv.tasks ((hinv.tasks t).startCall hreq addr)⟩
  · have hcalling := hinv.tasks t
    rw [htask] at hcalling
    exact ⟨hinv.serials, taskOk_update hinv.tasks
      (hcalling.step hinv.serials.zero_notMem (TcpCall.step_spec hstep))⟩

/-- **In every run, every call that returns `Ok` returns a response to its own request.**
Serials are never 0 and repeat only after 65535 others, every request has one of its own,
and the transport expects the serial of the request it sends. -/
theorem session_safe {actions : List Action} {w : World}
    (hrun : Runs.run step start actions = some w) :
    (0 : UInt16) ∉ w.issued ∧
    (∀ i, ((w.issued.drop i).take 65535).Nodup) ∧
    (∀ t req, (w.task t).request = some req → req.serialNumber ∈ w.issued) ∧
    (∀ t req call, w.task t = .calling req call →
      call.payload = req.buildWithFormat .mc4e ∧ serialOf call.payload = req.serialNumber) ∧
    ∀ t req call resp, w.task t = .calling req call → call.phase = .finished (.ok resp) →
      IsResponseTo req.serialNumber resp := by
  have hinv : Inv w := Runs.run_invariant step_inv actions inv_start hrun
  refine ⟨hinv.serials.zero_notMem, hinv.serials.nodup_window, fun t => (hinv.tasks t).serial,
    fun t req call htask => ?_, fun t => (hinv.tasks t).response⟩
  have hpayload := (hinv.tasks t).payload req call htask
  exact ⟨hpayload, by rw [hpayload, serialOf_buildWithFormat_mc4e]⟩

/-- Two tasks ask the same station; the first gets its answer behind a stale one. -/
def twoCallers : List Action :=
  [.create 0 [.tryWithRequestData [0x01, 0x04]], .create 1 [], .send 0 "plc", .send 1 "plc",
    .event 0 (.resolved ["remote"]), .event 1 (.resolved ["remote"]), .event 0 (.locked false),
    .event 0 (.connected 7), .event 0 .wrote,
    .event 0 (.read (.ok [0xD4, 0, 3, 0, 0, 0, 0, 255, 255, 3, 0, 2, 0, 0, 0,
      0xD4, 0, 2, 0, 0, 0, 0, 255, 255, 3, 0, 2, 0, 0, 0])),
    .event 1 (.locked true)]

/-- The task's call returned `Ok`. -/
def answered : TaskState → Bool
  | .calling _ call => (call.phase matches .finished (.ok _))
  | _ => false

theorem session_safe_twoCallers :
    ∃ w, Runs.run step start twoCallers = some w ∧ answered (w.task 0) = true ∧
      (0 : UInt16) ∉ w.issued ∧
      ∀ t req call resp, w.task t = .calling req call → call.phase = .finished (.ok resp) →
        IsResponseTo req.serialNumber resp := by
  have hends : (Runs.run step start twoCallers).map (fun w => answered (w.task 0)) = some true := by
    decide +kernel
  obtain ⟨w, hrun, hanswered⟩ := Option.map_eq_some_iff.mp hends
  exact ⟨w, hrun, hanswered, (session_safe hrun).1, (session_safe hrun).2.2.2.2⟩

end World

end MelsecMc
