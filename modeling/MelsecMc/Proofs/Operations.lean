/-
What an operation returned is what the station did.

An operation may have its frame sent several times, and the station may get to each of them
late or never; nothing but the frame and the number of the operation ties them together.  The
transport's contract says where requests come from and what a call returns, and `Inv` says
the rest: every request that is or was in flight is the frame of an operation that was asked
for, a running operation's call is made for it, and a value that was returned is the answer
to a request of this operation that was served in the meantime.  With a memory behind the
station this is what a caller wants to know (`operations_are_performed`).

The proof has no part that is about TCP or UDP. Whatever keeps the contract of
`Proofs/Channel` will do, and the contract has one clause for each thing that is needed
here: a request in flight was begun by somebody, a call that returned bytes had its request
served since it began, and the log grows by what was served.

That several operations may name the same words, and that a write may be executed again after it
was answered, is not excluded anywhere.  The theorem says of each value when it was true, not
that it still is.
-/
import MelsecMc.Proofs.Channel
import MelsecMc.Proofs.Memory
import MelsecMc.Proofs.Process

namespace MelsecMc

/-! ### One moment

What ties an operation to the requests on their way and to the bytes that come back is its number
among those that were asked for: the requests carry it, and a running operation knows its own.
So the invariant is stated over numbers.  `IsAsked` says it of a request, `RunOk` and `CallsFor`
of an operation that runs, and `Answered` of one that has returned.
-/

namespace Process

variable {σ : Type} {C : Channel σ}

/-- The request is the frame of the operation with its number. -/
def IsAsked (w : Process C) (request : Request) : Prop :=
  ∃ asked, w.asked[request.origin]? = some asked ∧ asked.frame = request.payload

/-- A request of the operation was served between the two moments, and the operation's
result is what it makes of the answer. -/
def Answered (S : Setting) (w : Process C) (run : OpRun) (value : JsonValue) (upTo : Nat) : Prop :=
  ∃ f, ServedIn (w.executed.take upTo) run.since run.request (some f) ∧
    run.op.answer S f.bytes = .ok value

/-- The running operation is number `run.origin`. -/
structure RunOk (w : Process C) (run : OpRun) : Prop where
  asked : w.asked[run.origin]? = some run.toAsked
  since : run.since ≤ w.executed.length

/-- The task's call is made for the operation. -/
def CallsFor (w : Process C) (t : TaskId) (run : OpRun) : Prop :=
  ∃ since, run.since ≤ since ∧
    (C.call w.world t).map Channel.made = some (run.request, since)

/-- What is true of a task, by what it is doing. -/
def TaskOk (S : Setting) (w : Process C) (t : TaskId) : Prop :=
  match w.task t with
  | .running run (.sending _) => w.RunOk run ∧ w.CallsFor t run
  | .running run _ => w.RunOk run
  | .returned run result upTo =>
      w.RunOk run ∧ upTo ≤ w.executed.length ∧
        ∀ value, result = .ok value → w.Answered S run value upTo
  | _ => True

/-- `WorldInv` is the transport's own invariant. -/
structure Inv (S : Setting) (WorldInv : C.World → Prop) (w : Process C) : Prop where
  world : WorldInv w.world
  asked : ∀ asked ∈ w.asked, ∃ counter, (asked.op.request S counter).2 = .ok asked.frame
  calls : ∀ t c, C.call w.world t = some c → w.IsAsked c.request
  inFlight : ∀ request ∈ C.inFlight w.world, w.IsAsked request
  executed : ∀ x ∈ w.executed, w.IsAsked ⟨x.origin, x.payload⟩
  tasks : ∀ t, w.TaskOk S t

/-! #### What stays true

Operations are only ever added to those asked for, and executions to those logged, so what was
true of a request or of a value that was returned stays true.  What a task does leaves the other
tasks' calls alone.  Between them these two facts spare every action but the task's own.
-/

section Stays

variable {S : Setting} {w w' : Process C}

theorem IsAsked.mono {request : Request} (h : w.IsAsked request) (hasked : w.asked <+: w'.asked) :
    w'.IsAsked request := by
  obtain ⟨asked, hget, hframe⟩ := h
  obtain ⟨more, hmore⟩ := hasked
  refine ⟨asked, ?_, hframe⟩
  rw [← hmore, List.getElem?_append_left (List.getElem?_eq_some_iff.mp hget).1, hget]

theorem RunOk.mono {run : OpRun} (h : w.RunOk run) (hasked : w.asked <+: w'.asked)
    (hexecuted : w.executed <+: w'.executed) : w'.RunOk run := by
  refine ⟨?_, Nat.le_trans h.since hexecuted.length_le⟩
  obtain ⟨more, hmore⟩ := hasked
  rw [← hmore, List.getElem?_append_left (List.getElem?_eq_some_iff.mp h.asked).1, h.asked]

theorem Answered.mono {run : OpRun} {value : JsonValue} {upTo : Nat}
    (h : w.Answered S run value upTo) (hupTo : upTo ≤ w.executed.length)
    (hexecuted : w.executed <+: w'.executed) : w'.Answered S run value upTo := by
  obtain ⟨more, hmore⟩ := hexecuted
  rw [Answered, ← hmore, List.take_append_of_le_length hupTo]
  exact h

/-- A task is not touched by what the other tasks do. -/
theorem TaskOk.frame {u : TaskId} (h : w.TaskOk S u) (htask : w'.task u = w.task u)
    (hasked : w.asked <+: w'.asked) (hexecuted : w.executed <+: w'.executed)
    (hmade : (C.call w'.world u).map Channel.made = (C.call w.world u).map Channel.made) :
    w'.TaskOk S u := by
  unfold TaskOk at h ⊢
  rw [htask]
  split at h
  · obtain ⟨hrun, since, hsince, hcall⟩ := h
    exact ⟨hrun.mono hasked hexecuted, since, hsince, hmade.trans hcall⟩
  · exact h.mono hasked hexecuted
  · obtain ⟨hrun, hupTo, hvalue⟩ := h
    exact ⟨hrun.mono hasked hexecuted, Nat.le_trans hupTo hexecuted.length_le,
      fun value hresult => (hvalue value hresult).mono hupTo hexecuted⟩
  · trivial

/-! One lemma for what a task can be doing. -/

theorem taskOk_of_refused {t : TaskId} {op : BatchOp} {e : Failure}
    (htask : w.task t = .refused op e) : w.TaskOk S t := by
  unfold TaskOk
  rw [htask]
  trivial

theorem taskOk_of_dropped {t : TaskId} (htask : w.task t = .dropped) : w.TaskOk S t := by
  unfold TaskOk
  rw [htask]
  trivial

theorem taskOk_of_sending {t : TaskId} {run : OpRun} {attempt : Nat}
    (htask : w.task t = .running run (.sending attempt)) (hrun : w.RunOk run)
    (hcalls : w.CallsFor t run) : w.TaskOk S t := by
  unfold TaskOk
  rw [htask]
  exact ⟨hrun, hcalls⟩

theorem taskOk_of_sleeping {t : TaskId} {run : OpRun} {attempt : Nat} {ms : UInt64}
    (htask : w.task t = .running run (.sleeping attempt ms)) (hrun : w.RunOk run) :
    w.TaskOk S t := by
  unfold TaskOk
  rw [htask]
  exact hrun

theorem taskOk_of_returned {t : TaskId} {run : OpRun} {result : Except Failure JsonValue}
    {upTo : Nat} (htask : w.task t = .returned run result upTo) (hrun : w.RunOk run)
    (hupTo : upTo ≤ w.executed.length)
    (hvalue : ∀ value, result = .ok value → w.Answered S run value upTo) : w.TaskOk S t := by
  unfold TaskOk
  rw [htask]
  exact ⟨hrun, hupTo, hvalue⟩

end Stays

section Lawful

variable {station : Station σ} {WorldInv : C.World → Prop} {Good : C.World → C.Act → Prop}

theorem inv_start (hlaw : C.Lawful station WorldInv Good) (S : Setting) (addr : String)
    (state : σ) : (start C addr state).Inv S WorldInv := by
  have hfresh := hlaw.fresh addr state
  refine ⟨hlaw.start addr state, fun a h => absurd h List.not_mem_nil, ?_, ?_, ?_, fun t => trivial⟩
  · intro t c hc
    rw [show C.call (start C addr state).world t = none from hfresh.call t] at hc
    cases hc
  · intro request hrequest
    rw [show C.inFlight (start C addr state).world = [] from hfresh.inFlight] at hrequest
    exact absurd hrequest List.not_mem_nil
  · intro x hx
    rw [show (start C addr state).executed = [] from hfresh.executed] at hx
    exact absurd hx List.not_mem_nil

namespace Inv

variable {S : Setting} {w w' : Process C}

/-- Only the task itself changes. -/
theorem update_task (hinv : Inv S WorldInv w) {t : TaskId} {task : OpState}
    (htask : ({ w with task := Function.update w.task t task } : Process C).TaskOk S t) :
    Inv S WorldInv { w with task := Function.update w.task t task } := by
  refine ⟨hinv.world, hinv.asked, hinv.calls, hinv.inFlight, hinv.executed, ?_⟩
  intro u
  by_cases hu : u = t
  · rw [hu]
    exact htask
  · exact (hinv.tasks u).frame (Function.update_of_ne hu _ _) (List.prefix_refl _)
      (List.prefix_refl _) rfl

/-- One more operation has its frame. -/
theorem ask (hinv : Inv S WorldInv w) (asked : Asked) (counter : UInt16) {counter' : UInt16}
    (hframe : (asked.op.request S counter').2 = .ok asked.frame) :
    Inv S WorldInv { w with counter, asked := w.asked ++ [asked] } := by
  have hmono : w.asked <+: w.asked ++ [asked] := List.prefix_append _ _
  refine ⟨hinv.world, ?_, fun t c hc => (hinv.calls t c hc).mono hmono,
    fun request h => (hinv.inFlight request h).mono hmono,
    fun x hx => (hinv.executed x hx).mono hmono, ?_⟩
  · intro a ha
    rcases List.mem_append.mp ha with ha | ha
    · exact hinv.asked a ha
    · rw [List.mem_singleton] at ha
      subst ha
      exact ⟨counter', hframe⟩
  · intro t
    exact (hinv.tasks t).frame rfl hmono (List.prefix_refl _) rfl

/-- The call of a running operation begins. -/
theorem begin (hlaw : C.Lawful station WorldInv Good) (hinv : Inv S WorldInv w) {t : TaskId}
    {run : OpRun} (hrun : w.RunOk run) {world : C.World}
    (hbegin : C.begin w.world t run.request = some world) (attempt : Nat) :
    Inv S WorldInv
      { w with world, task := Function.update w.task t (.running run (.sending attempt)) } := by
  have hbegun := hlaw.begun hbegin
  have hexecuted : w.executed <+: C.executed world := by
    rw [hbegun.executed]
    exact List.prefix_refl _
  refine ⟨hlaw.begin hinv.world hbegin, hinv.asked, ?_, ?_, ?_, ?_⟩
  · intro u c hc
    by_cases hu : u = t
    · rw [hu, show C.call world t = _ from hbegun.call, Option.some.injEq] at hc
      rw [← hc]
      exact ⟨run.toAsked, hrun.asked, rfl⟩
    · rw [show C.call world u = _ from hbegun.calls u hu] at hc
      exact hinv.calls u c hc
  · intro request hrequest
    exact hinv.inFlight request (hbegun.inFlight ▸ hrequest)
  · intro x hx
    have hold : x ∈ C.executed world := hx
    rw [hbegun.executed] at hold
    exact hinv.executed x hold
  · intro u
    by_cases hu : u = t
    · subst hu
      refine taskOk_of_sending (Function.update_self _ _ _)
        (hrun.mono (List.prefix_refl _) hexecuted) ⟨w.executed.length, hrun.since, ?_⟩
      show (C.call world u).map Channel.made = _
      rw [hbegun.call]
      rfl
    · exact (hinv.tasks u).frame (Function.update_of_ne hu _ _) (List.prefix_refl _) hexecuted
        (by rw [hbegun.calls u hu])

/-- The bytes are an answer to the operation's frame. -/
def Received (w : Process C) (run : OpRun) (buf : Bytes) : Prop :=
  ∃ f : Mc4eFrame, ServedIn w.executed run.since run.request (some f) ∧ buf = f.bytes

/-- The retry loop goes on. -/
theorem proceed (hlaw : C.Lawful station WorldInv Good) (hinv : Inv S WorldInv w) {t : TaskId}
    {run : OpRun} {phase : RetryPhase} (hrun : w.RunOk run)
    (hreceived : ∀ buf, phase = .finished (.ok buf) → Received w run buf)
    (h : w.proceed S t run phase = some w') : Inv S WorldInv w' := by
  cases phase with
  | sending attempt =>
      obtain ⟨world, hbegin, rfl⟩ := Option.map_eq_some_iff.mp h
      exact hinv.begin hlaw hrun hbegin attempt
  | sleeping attempt ms =>
      cases h
      exact hinv.update_task
        (taskOk_of_sleeping (Function.update_self _ _ _) ⟨hrun.asked, hrun.since⟩)
  | finished result =>
      cases h
      refine hinv.update_task (taskOk_of_returned (Function.update_self _ _ _)
        ⟨hrun.asked, hrun.since⟩ (Nat.le_refl _) ?_)
      intro value hvalue
      obtain ⟨buf, hbuf, hanswer⟩ := bind_eq_ok.mp hvalue
      obtain ⟨f, hserved, hframe⟩ := hreceived buf (hbuf ▸ rfl)
      refine ⟨f, ?_, hframe ▸ hanswer⟩
      show ServedIn (w.executed.take w.executed.length) run.since run.request (some f)
      rw [List.take_length]
      exact hserved

/-- An operation has no frame. -/
theorem refuse (hinv : Inv S WorldInv w) (t : TaskId) (op : BatchOp) (e : Failure)
    (counter : UInt16) :
    Inv S WorldInv { w with counter, task := Function.update w.task t (.refused op e) } := by
  have hrefused := hinv.update_task
    (taskOk_of_refused (Function.update_self t (.refused op e) w.task))
  exact ⟨hrefused.world, hrefused.asked, hrefused.calls, hrefused.inFlight, hrefused.executed,
    fun u => (hrefused.tasks u).frame rfl (List.prefix_refl _) (List.prefix_refl _) rfl⟩

/-- An operation has its frame, and starts. -/
theorem invoke (hlaw : C.Lawful station WorldInv Good) (hinv : Inv S WorldInv w) {t : TaskId}
    {op : BatchOp} {frame : Bytes} (hframe : (op.request S w.counter).2 = .ok frame)
    (h : Process.proceed S
      { w with counter := (op.request S w.counter).1, asked := w.asked ++ [⟨op, frame⟩] } t
      ⟨⟨op, frame⟩, w.asked.length, w.executed.length⟩ (RetryPhase.start S.config) = some w') :
    Inv S WorldInv w' := by
  have hasked := hinv.ask ⟨op, frame⟩ (op.request S w.counter).1 hframe
  refine hasked.proceed hlaw ⟨?_, Nat.le_refl _⟩ ?_ h
  · show (w.asked ++ [_])[w.asked.length]? = _
    rw [List.getElem?_append_right (Nat.le_refl _), Nat.sub_self]
    rfl
  · intro buf hbuf
    unfold RetryPhase.start at hbuf
    split at hbuf <;> cases hbuf

/-- Something happens to the target. -/
theorem net (hlaw : C.Lawful station WorldInv Good) (hinv : Inv S WorldInv w) {a : C.Act}
    (hgood : Good w.world a) {world : C.World} (hact : C.act w.world a = some world) :
    Inv S WorldInv { w with world } := by
  have hcarries := hlaw.carries hact
  have hsame : ∀ {request}, w.IsAsked request →
      ({ w with world } : Process C).IsAsked request := fun h => h.mono (List.prefix_refl _)
  refine ⟨hlaw.act hinv.world hgood hact, hinv.asked, ?_, ?_, ?_, ?_⟩
  · intro t c' hc'
    have hmade := hcarries.made t
    rw [show C.call world t = some c' from hc', Option.map_some, eq_comm,
      Option.map_eq_some_iff] at hmade
    obtain ⟨c, hc, heq⟩ := hmade
    rw [Channel.made, Channel.made, Prod.mk.injEq] at heq
    exact heq.1 ▸ hsame (hinv.calls t c hc)
  · intro request hrequest
    rcases hcarries.inFlight request hrequest with hold | ⟨t, c, hc, rfl⟩
    · exact hsame (hinv.inFlight request hold)
    · exact hsame (hinv.calls t c hc)
  · intro x hx
    rcases hcarries.served x hx with hold | hrequest
    · exact hsame (hinv.executed x hold)
    · exact hsame (hinv.inFlight _ hrequest)
  · intro t
    exact (hinv.tasks t).frame rfl (List.prefix_refl _) hcarries.executed (hcarries.made t)

/-- What a call of the operation returns is an answer to its frame. -/
theorem received (hlaw : C.Lawful station WorldInv Good) (hinv : Inv S WorldInv w) {t : TaskId}
    {run : OpRun} (hcalls : w.CallsFor t run) {buf : Bytes}
    (hended : (C.call w.world t).bind CallView.ended = some (.returned (.ok buf))) :
    Received w run buf := by
  obtain ⟨c, hc, hreturned⟩ := Option.bind_eq_some_iff.mp hended
  obtain ⟨since, hsince, hmade⟩ := hcalls
  rw [hc, Option.map_some, Option.some.injEq, Channel.made, Prod.mk.injEq] at hmade
  obtain ⟨f, hserved, hbuf⟩ := hlaw.returned hinv.world hc hreturned
  rw [hmade.1, hmade.2] at hserved
  exact ⟨f, hserved.of_le hsince, hbuf⟩

/-- The call of an operation has returned. -/
theorem settle (hlaw : C.Lawful station WorldInv Good) (hinv : Inv S WorldInv w) {t : TaskId}
    {run : OpRun} {attempt : Nat} {result : Except Failure Bytes}
    (htask : w.task t = .running run (.sending attempt))
    (hended : (C.call w.world t).bind CallView.ended = some (.returned result))
    (h : w.proceed S t run (RetryPhase.onResult S.config attempt result) = some w') :
    Inv S WorldInv w' := by
  have hok := hinv.tasks t
  unfold TaskOk at hok
  rw [htask] at hok
  obtain ⟨hrun, hcalls⟩ := hok
  refine hinv.proceed hlaw hrun ?_ h
  intro buf hbuf
  -- only an answer ends the loop with bytes
  have hresult : result = .ok buf := by
    unfold RetryPhase.onResult at hbuf
    split at hbuf
    · cases hbuf
      rfl
    · split at hbuf <;> cases hbuf
    · cases hbuf
  exact hinv.received hlaw hcalls (hresult ▸ hended)

theorem wake (hlaw : C.Lawful station WorldInv Good) (hinv : Inv S WorldInv w) {t : TaskId}
    {run : OpRun} {attempt : Nat} {ms : UInt64}
    (htask : w.task t = .running run (.sleeping attempt ms))
    (h : w.proceed S t run (.sending (attempt + 1)) = some w') : Inv S WorldInv w' := by
  have hok := hinv.tasks t
  unfold TaskOk at hok
  rw [htask] at hok
  exact hinv.proceed hlaw hok (fun buf hbuf => by cases hbuf) h

theorem drop (hinv : Inv S WorldInv w) (t : TaskId) :
    Inv S WorldInv { w with task := Function.update w.task t .dropped } :=
  hinv.update_task (taskOk_of_dropped (Function.update_self _ _ _))

theorem takeSerial (hinv : Inv S WorldInv w) (counter : UInt16) :
    Inv S WorldInv { w with counter } :=
  ⟨hinv.world, hinv.asked, hinv.calls, hinv.inFlight, hinv.executed, fun t =>
    (hinv.tasks t).frame rfl (List.prefix_refl _) (List.prefix_refl _) rfl⟩

end Inv

/-- What happens to the target is good. -/
def GoodAction (Good : C.World → C.Act → Prop) (w : Process C) : ProcessAction C → Prop
  | .net a => Good w.world a
  | _ => True

theorem Inv.step (hlaw : C.Lawful station WorldInv Good) {S : Setting} {w w' : Process C}
    (hinv : Inv S WorldInv w) {a : ProcessAction C} (hgood : w.GoodAction Good a)
    (h : w.step S a = some w') : Inv S WorldInv w' := by
  cases step_cases h with
  | refuses _ _ => exact hinv.refuse _ _ _ _
  | asks _ hframe hproceed => exact hinv.invoke hlaw hframe hproceed
  | acts hact => exact hinv.net hlaw hgood hact
  | settles htask hended hproceed => exact hinv.settle hlaw htask hended hproceed
  | isCancelled _ _ => exact hinv.drop _
  | wakes htask hproceed => exact hinv.wake hlaw htask hproceed
  | drops _ => exact hinv.drop _
  | takesSerial => exact hinv.takeSerial _

/-- The invariant rule, for a process before its first operation. -/
theorem inv_run (hlaw : C.Lawful station WorldInv Good) {S : Setting} {addr : String} {state : σ}
    {actions : List (ProcessAction C)} {w : Process C}
    (hgood : Runs.Along (step S) (GoodAction Good) (start C addr state) actions)
    (hrun : Runs.run (step S) (start C addr state) actions = some w) : w.Inv S WorldInv :=
  Runs.run_invariant_along (fun _ _ _ hinv hgood hstep => hinv.step hlaw hgood hstep) actions
    (inv_start hlaw S addr state) hgood hrun

/-! ### The log as a history

The station's log has the state before and after each request.  Without a program of the station
in between, each request finds the state the one before it left, so the log read in order is a
history of the memory, and the only one.
-/

/-- The executions follow one another from one state to the other. -/
def Chained : σ → List (Execution σ) → σ → Prop
  | s, [], s' => s' = s
  | s, x :: log, s' => x.before = s ∧ Chained x.after log s'

theorem Chained.append {log : List (Execution σ)} {x : Execution σ} {s' : σ} :
    ∀ {s : σ}, Chained s log s' → x.before = s' → Chained s (log ++ [x]) x.after := by
  induction log with
  | nil =>
      intro s hs hx
      exact ⟨hx.trans hs, rfl⟩
  | cons y log ih =>
      intro s hs hx
      exact ⟨hs.1, ih hs.2 hx⟩

/-- The station's own program runs. -/
def isChange : ProcessAction C → Bool
  | .net a => C.changes a
  | _ => false

variable {S : Setting} {w w' : Process C}

theorem proceed_logs (hlaw : C.Lawful station WorldInv Good) {t : TaskId} {run : OpRun}
    {phase : RetryPhase} (h : w.proceed S t run phase = some w') : C.Logs w.world w'.world := by
  cases phase with
  | sending attempt =>
      obtain ⟨world, hbegin, rfl⟩ := Option.map_eq_some_iff.mp h
      have hbegun := hlaw.begun hbegin
      exact .nothing hbegun.executed hbegun.state
  | sleeping attempt ms =>
      cases h
      exact .nothing rfl rfl
  | finished result =>
      cases h
      exact .nothing rfl rfl

theorem step_logs (hlaw : C.Lawful station WorldInv Good) {a : ProcessAction C}
    (ha : isChange a = false) (h : w.step S a = some w') : C.Logs w.world w'.world := by
  cases step_cases h with
  | asks _ _ hproceed =>
      have hlogs := proceed_logs hlaw hproceed
      exact hlogs
  | acts hact => exact hlaw.logs ha hact
  | settles _ _ hproceed => exact proceed_logs hlaw hproceed
  | wakes _ hproceed => exact proceed_logs hlaw hproceed
  | _ => exact .nothing rfl rfl

/-- The log is a history of the station's state. -/
theorem chained_run (hlaw : C.Lawful station WorldInv Good) {addr : String} {state : σ}
    {actions : List (ProcessAction C)} (hactions : ∀ a ∈ actions, isChange a = false)
    (hrun : Runs.run (step S) (start C addr state) actions = some w) :
    Chained state w.executed (C.state w.world) := by
  have hstep : ∀ (w : Process C) a w', Chained state w.executed (C.state w.world) →
      isChange a = false → w.step S a = some w' →
      Chained state w'.executed (C.state w'.world) := by
    intro w a w' hchained ha hstep
    cases step_logs hlaw ha hstep with
    | nothing hexecuted hstate =>
        rw [executed, hexecuted, hstate]
        exact hchained
    | served x hexecuted hbefore hafter =>
        rw [executed, hexecuted, hafter]
        exact hchained.append hbefore
  have hfresh := hlaw.fresh addr state
  have hstart : Chained state (start C addr state).executed (C.state (start C addr state).world) := by
    rw [executed, show C.executed (start C addr state).world = [] from hfresh.executed]
    exact hfresh.state
  exact Runs.run_invariant_along hstep actions hstart (Runs.along_of_mem actions hactions _) hrun

end Lawful

end Process

/-! ### Both protocols

A client has one protocol for all its operations, and the theorems are about either.  What the
two transports ask of the network differs, and so do their invariants; each is chosen by the
protocol.
-/

section Protocol

variable {σ : Type} (config : Config) (station : Station σ)

/-- The invariant of the transport. -/
def Protocol.WorldInv : (p : Protocol) → (p.channel config station).World → Prop
  | .tcp => Plant.Inv station
  | .udp => UdpPlant.Inv .silence station

/-- Over TCP, no read ends at a place of an answer that looks like another frame; over UDP, a
call that gets a port finds nothing on its way to it or from it, and nothing but answers to its
own frame comes to the port. -/
def Protocol.Good : (p : Protocol) → (p.channel config station).World →
    (p.channel config station).Act → Prop
  | .tcp => Plant.GoodAction
  | .udp => UdpPlant.GoodAction .silence

theorem Protocol.lawful (p : Protocol) :
    (p.channel config station).Lawful station (p.WorldInv config station)
      (p.Good config station) := by
  cases p with
  | tcp => exact tcp_lawful station
  | udp => exact udp_lawful config.melsecUdpRecvAttempts station

end Protocol

namespace Process

variable {σ : Type}

/-! ### Every run

A request the station has served is the frame of an operation, and a frame decodes to what the
operation is, so the station did that operation or refused it (`Inv.outcome`).  A value that came
back is the answer to such a request, of the operation that returned it (`Inv.performed`).
-/

/-- An operation that has a frame names a device, and its points fit. -/
theorem Inv.asked_builtFrame {C : Channel σ} {WorldInv : C.World → Prop} {S : Setting}
    {w : Process C} (hinv : w.Inv S WorldInv) (hreg : S.registry = shippedRegistry) {asked : Asked}
    (hasked : asked ∈ w.asked) :
    ∃ dev addr counter, asked.op.Names S.table dev addr ∧
      asked.op.dataLen S.client.plcSeries ≤ 65533 ∧
      asked.frame = asked.op.builtFrame S dev addr counter := by
  obtain ⟨counter, hrequest⟩ := hinv.asked asked hasked
  rcases BatchOp.request_cases hreg asked.op counter with ⟨dev, addr, hnames, hfits, hbuilt⟩ |
    ⟨_, _, _, _, _, hbuilt⟩ | ⟨_, _, hbuilt⟩
  · rw [hbuilt, Except.ok.injEq] at hrequest
    exact ⟨dev, addr, counter, hnames, hfits, hrequest.symm⟩
  · rw [hbuilt] at hrequest
    cases hrequest
  · rw [hbuilt] at hrequest
    cases hrequest

/-- What became of a request the station has served. -/
theorem Inv.outcome {C : Channel σ} {WorldInv : C.World → Prop} {Good : C.World → C.Act → Prop}
    {S : Setting} {mem : DeviceMemory σ}
    (hlaw : C.Lawful (mem.station S.client.plcSeries) WorldInv Good) {w : Process C}
    (hinv : w.Inv S WorldInv) (hreg : S.registry = shippedRegistry)
    (hformat : S.client.mcFormat = .mc4e) {x : Execution σ} (hx : x ∈ w.executed) :
    ∃ asked dev addr f, w.asked[x.origin]? = some asked ∧ asked.op.Names S.table dev addr ∧
      x.answer = some f ∧ OpOutcome mem S asked.op dev addr x.before x.after f := by
  obtain ⟨asked, hget, hpayload⟩ := hinv.executed x hx
  obtain ⟨dev, addr, counter, hnames, hfits, hframe⟩ :=
    hinv.asked_builtFrame hreg (List.mem_of_getElem? hget)
  obtain ⟨s', f, hserve, houtcome⟩ := outcome_of_serve mem hreg hformat hnames hfits counter x.before
  have hlogged := hlaw.logged hinv.world x hx
  rw [show x.payload = asked.frame from hpayload.symm, hframe, hserve, Prod.mk.injEq] at hlogged
  obtain ⟨rfl, hanswer⟩ := hlogged
  exact ⟨asked, dev, addr, f, hget, hnames, hanswer.symm, houtcome⟩

/-- What an operation that returned a value did. -/
theorem Inv.performed {C : Channel σ} {WorldInv : C.World → Prop} {Good : C.World → C.Act → Prop}
    {S : Setting} {mem : DeviceMemory σ}
    (hlaw : C.Lawful (mem.station S.client.plcSeries) WorldInv Good) {w : Process C}
    (hinv : w.Inv S WorldInv) (hreg : S.registry = shippedRegistry)
    (hformat : S.client.mcFormat = .mc4e) {t : TaskId} {run : OpRun} {value : JsonValue}
    {upTo : Nat} (htask : w.task t = .returned run (.ok value) upTo) :
    w.RunOk run ∧ ∃ dev addr, run.op.Names S.table dev addr ∧
      ∃ x ∈ (w.executed.take upTo).drop run.since, x.origin = run.origin ∧
        Performed mem dev.deviceCode.toNat addr run.op x.before x.after value := by
  have hok := hinv.tasks t
  unfold TaskOk at hok
  rw [htask] at hok
  obtain ⟨hrunOk, -, hvalue⟩ := hok
  obtain ⟨f, ⟨x, hx, horigin, -, hf⟩, hanswer⟩ := hvalue value rfl
  obtain ⟨asked, dev, addr, f', hget, hnames, hf', houtcome⟩ :=
    hinv.outcome hlaw hreg hformat (List.mem_of_mem_take (List.mem_of_mem_drop hx))
  rw [horigin, show run.request.origin = run.origin from rfl, hrunOk.asked,
    Option.some.injEq] at hget
  subst hget
  rw [hf, Option.some.injEq] at hf'
  subst hf'
  refine ⟨hrunOk, dev, addr, hnames, x, hx, horigin, ?_⟩
  cases houtcome with
  | performed hvalue' hperformed =>
      rw [hanswer, Except.ok.injEq] at hvalue'
      exact hvalue' ▸ hperformed
  | refused he _ =>
      rw [hanswer] at he
      cases he

/-- **An operation that returned was done in the meantime.**  Over TCP and over UDP, whatever
the tasks, the network and the station do, a value an operation returned is what the station's
memory made of the operation at a moment between the call and the return; the station's memory
never changes for a request except by an operation that was asked for; and unless the
station's own program writes to it, the memory is what these operations make of it, one after
the other. -/
theorem operations_are_performed {S : Setting} {mem : DeviceMemory σ} {addr : String} {state : σ}
    {actions : List (ProcessAction (S.channel (mem.station S.client.plcSeries)))}
    {w : Process (S.channel (mem.station S.client.plcSeries))}
    (hreg : S.registry = shippedRegistry) (hformat : S.client.mcFormat = .mc4e)
    (hgood : Runs.Along (step S)
      (GoodAction (S.protocol.Good S.config (mem.station S.client.plcSeries)))
      (start (S.channel (mem.station S.client.plcSeries)) addr state) actions)
    (hrun : Runs.run (step S) (start (S.channel (mem.station S.client.plcSeries)) addr state)
      actions = some w) :
    (∀ t run value upTo, w.task t = .returned run (.ok value) upTo →
      ∃ dev daddr, run.op.Names S.table dev daddr ∧
        ∃ x ∈ (w.executed.take upTo).drop run.since, x.origin = run.origin ∧
          Performed mem dev.deviceCode.toNat daddr run.op x.before x.after value) ∧
    (∀ x ∈ w.executed, ∃ asked dev daddr, w.asked[x.origin]? = some asked ∧
      asked.op.Names S.table dev daddr ∧ (x.after = x.before ∨
        ∃ value, Performed mem dev.deviceCode.toNat daddr asked.op x.before x.after value)) ∧
    ((∀ a ∈ actions, isChange a = false) →
      Chained state w.executed ((S.channel (mem.station S.client.plcSeries)).state w.world)) := by
  have hlaw := S.protocol.lawful S.config (mem.station S.client.plcSeries)
  have hinv := inv_run hlaw hgood hrun
  refine ⟨?_, ?_, fun hactions => chained_run hlaw hactions hrun⟩
  · intro t run value upTo htask
    exact (hinv.performed hlaw hreg hformat htask).2
  · intro x hx
    obtain ⟨asked, dev, daddr, f, hget, hnames, -, houtcome⟩ := hinv.outcome hlaw hreg hformat hx
    refine ⟨asked, dev, daddr, hget, hnames, ?_⟩
    cases houtcome with
    | performed _ hperformed => exact .inr ⟨_, hperformed⟩
    | refused _ hsame => exact .inl hsame

/-- The condition, as far as it can be computed, over TCP. -/
def clear {station : Station σ} (w : Process (tcpChannel station)) :
    ProcessAction (tcpChannel station) → Bool
  | .net a => Plant.clear w.world a
  | _ => true

theorem goodAction_of_clear {station : Station σ} (w : Process (tcpChannel station))
    (a : ProcessAction (tcpChannel station)) (h : w.clear a = true) :
    w.GoodAction Plant.GoodAction a := by
  cases a with
  | net a => exact Plant.goodAction_of_clear w.world a h
  | _ => trivial

/-- The task's operation returned a value. -/
def hasValue {C : Channel σ} (w : Process C) (t : TaskId) : Bool :=
  match w.task t with
  | .returned _ (.ok _) _ => true
  | _ => false

/-- A memory of one word, whatever the address. -/
def oneWordMemory : DeviceMemory UInt16 where
  readWords s _ _ count := if count = 1 then some [s] else none
  readBits _ _ _ _ := none
  writeWords _ _ _ words := words.head?
  writeBits _ _ _ _ := none
  length_readWords := by
    intro s code address count words h
    split at h
    · rename_i hcount
      cases h
      exact hcount.symm
    · cases h
  length_readBits := by
    intro s code address count bits h
    cases h

/-- A write whose first attempt fails after the frame got through, so that the station has it
twice; it gets to the first one in the middle of a read. -/
def writtenTwice : List (ProcessAction (tcpChannel (oneWordMemory.station .r))) :=
  [.invoke 0 (.writeWords "D0" [5]), .net (.event 0 (.resolved ["remote"]) false),
    .net (.event 0 (.locked false) false), .net (.event 0 (.connected 7) false),
    .net (.event 0 (.writeFailed "reset") true), .settle 0, .wake 0,
    .net (.event 0 (.resolved ["remote"]) false), .net (.event 0 (.locked false) false),
    .net (.event 0 (.connected 8) false), .net (.event 0 .wrote true), .net (.serve 8),
    .net (.read 0 15), .settle 0,
    .invoke 1 (.readWords "D0" 1), .net (.event 1 (.resolved ["remote"]) false),
    .net (.event 1 (.locked true) false), .net (.event 1 .wrote true), .net (.serve 7),
    .net (.serve 8), .net (.read 1 8), .net (.read 1 9), .settle 1]

theorem operations_are_performed_twice :
    ∃ w, Runs.run (step twoDevicesSetting) (start (tcpChannel (oneWordMemory.station .r)) "plc" 0)
        writtenTwice = some w ∧
      ∃ run value upTo, w.task 1 = .returned run (.ok value) upTo ∧
        ∃ dev daddr, run.op.Names twoDevices dev daddr ∧
          ∃ x ∈ (w.executed.take upTo).drop run.since, x.origin = run.origin ∧
            Performed oneWordMemory dev.deviceCode.toNat daddr run.op x.before x.after value := by
  have hends : (Runs.run (step twoDevicesSetting)
      (start (tcpChannel (oneWordMemory.station .r)) "plc" 0) writtenTwice).map
      (fun w => w.hasValue 1) = some true := by decide +kernel
  have hclear : Runs.Along (step twoDevicesSetting) (fun w a => w.clear a = true)
      (start (tcpChannel (oneWordMemory.station .r)) "plc" 0) writtenTwice := by decide +kernel
  obtain ⟨w, hrun, hvalue⟩ := Option.map_eq_some_iff.mp hends
  refine ⟨w, hrun, ?_⟩
  unfold hasValue at hvalue
  split at hvalue
  · rename_i run value upTo htask
    exact ⟨run, value, upTo, htask,
      (@operations_are_performed _ twoDevicesSetting oneWordMemory "plc" 0 writtenTwice w rfl rfl
        (hclear.mono goodAction_of_clear writtenTwice) hrun).1 1 run value upTo htask⟩
  · cases hvalue

end Process

end MelsecMc
