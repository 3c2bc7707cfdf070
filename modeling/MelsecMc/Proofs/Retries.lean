/-
How often an operation calls the transport, and what it returns.

`send_and_recv_with_retry` goes on while a call fails and there are attempts left.  `Tried`
says so of a loop that is under way, by the results the transport has given so far: they are
all failures, and there is one for each attempt that is over.  In a process the results of an
operation are found in the steps of the run, between those of all the other tasks.

Neither the transport nor the station is looked at.  A call may fail for any reason and may well
have been executed all the same; how often that can happen is the subject of `Proofs/Deliveries`.
-/
import MelsecMc.Lib.Runs
import MelsecMc.Proofs.BatchRequest
import MelsecMc.Proofs.Plant
import MelsecMc.Proofs.Process

namespace MelsecMc

/-! ### One loop

The loop alone, with any results.  Of the results only the last can be a success, since the loop
ends with it.
-/

/-- The transport failed, and did not panic. -/
def Failed (result : Except Failure Bytes) : Prop :=
  ∃ e, result = .error (.err e)

/-- How far the loop has come with these results. -/
inductive Tried (config : Config) : List (Except Failure Bytes) → RetryPhase → Prop
  | sending {results : List (Except Failure Bytes)} {attempt : Nat}
      (hfailed : ∀ r ∈ results, Failed r) (hattempt : attempt = results.length + 1)
      (hle : attempt ≤ config.melsecTcpRetryAttempts) :
      Tried config results (.sending attempt)
  | sleeping {results : List (Except Failure Bytes)} {attempt : Nat}
      (hfailed : ∀ r ∈ results, Failed r) (hattempt : attempt = results.length)
      (hlt : attempt < config.melsecTcpRetryAttempts) :
      Tried config results (.sleeping attempt (backoff config.melsecTcpRetryBackoffMs attempt))
  | never (hnone : config.melsecTcpRetryAttempts = 0) :
      Tried config [] (.finished (protocolError "unknown transport error"))
  | done {failed : List (Except Failure Bytes)} {last : Except Failure Bytes}
      (hfailed : ∀ r ∈ failed, Failed r)
      (hlt : failed.length < config.melsecTcpRetryAttempts)
      (hlast : Failed last → failed.length + 1 = config.melsecTcpRetryAttempts) :
      Tried config (failed ++ [last]) (.finished last)

section Tried

variable {config : Config} {results : List (Except Failure Bytes)}

theorem tried_start (config : Config) : Tried config [] (RetryPhase.start config) := by
  unfold RetryPhase.start
  by_cases hnone : config.melsecTcpRetryAttempts = 0
  · rw [if_pos hnone]
    exact .never hnone
  · rw [if_neg hnone]
    exact .sending (by simp) rfl (by omega)

theorem Tried.onResult {attempt : Nat} (h : Tried config results (.sending attempt))
    (result : Except Failure Bytes) :
    Tried config (results ++ [result]) (RetryPhase.onResult config attempt result) := by
  cases h with
  | sending hfailed hattempt hle =>
      cases result with
      | ok buf => exact .done hfailed (by omega) (by rintro ⟨e, he⟩; cases he)
      | error failure =>
          cases failure with
          | panic p => exact .done hfailed (by omega) (by rintro ⟨e, he⟩; cases he)
          | err e =>
              unfold RetryPhase.onResult
              by_cases hlast : attempt = config.melsecTcpRetryAttempts
              · simp only [if_pos hlast]
                exact .done hfailed (by omega) fun _ => by omega
              · simp only [if_neg hlast]
                refine .sleeping ?_ (by simp [hattempt]) (by omega)
                intro r hr
                rcases List.mem_append.mp hr with hr | hr
                · exact hfailed r hr
                · exact ⟨e, List.mem_singleton.mp hr⟩

theorem Tried.onWake {attempt : Nat} {ms : UInt64}
    (h : Tried config results (.sleeping attempt ms)) :
    Tried config results (RetryPhase.onWake (.sleeping attempt ms)) := by
  cases h with
  | sleeping hfailed hattempt hlt => exact .sending hfailed (by omega) hlt

theorem Tried.attempt_le {attempt : Nat} (h : Tried config results (.sending attempt)) :
    attempt ≤ config.melsecTcpRetryAttempts := by
  cases h with
  | sending _ _ hle => exact hle

theorem Tried.attempt_lt {attempt : Nat} {ms : UInt64}
    (h : Tried config results (.sleeping attempt ms)) :
    attempt < config.melsecTcpRetryAttempts := by
  cases h with
  | sleeping _ _ hlt => exact hlt

end Tried

/-- The sleep doubles from one attempt to the next, as far as the type goes. -/
theorem toNat_backoff (base : UInt64) (attempt : Nat) :
    (backoff base attempt).toNat = min (base.toNat * 2 ^ min (attempt - 1) 63) (2 ^ 64 - 1) := by
  have hexp : 2 ^ min (attempt - 1) 63 < 2 ^ 64 :=
    Nat.pow_lt_pow_right (by decide) (by omega)
  have hpow : (UInt64.ofNat (2 ^ min (attempt - 1) 63)).toNat = 2 ^ min (attempt - 1) 63 := by
    rw [UInt64.toNat_ofNat', Nat.mod_eq_of_lt hexp]
  rw [backoff, saturatingMul, hpow]
  by_cases hfits : base.toNat * 2 ^ min (attempt - 1) 63 < 2 ^ 64
  · rw [if_pos hfits, UInt64.toNat_mul, hpow, Nat.mod_eq_of_lt hfits]
    omega
  · rw [if_neg hfits, show (0xFFFFFFFFFFFFFFFF : UInt64).toNat = 2 ^ 64 - 1 from rfl]
    omega

/-! ### The results of an operation

A task looks at the result of its call in a step of its own (`settle`).  These steps, in the
order of the run, are all an operation learns of the transport.
-/

/-- What a call returned. -/
def CallEnd.result? : CallEnd → Option (Except Failure Bytes)
  | .returned result => some result
  | .cancelled => none

namespace Process

variable {σ : Type} {C : Channel σ}

/-- What the operation with this number sees that the transport returned. -/
def resultAt (i : Nat) (w : Process C) : ProcessAction C → Option (Except Failure Bytes)
  | .settle t =>
      match w.task t with
      | .running run (.sending _) =>
          if run.origin = i then ((C.call w.world t).bind CallView.ended).bind CallEnd.result?
          else none
      | _ => none
  | _ => none

theorem resultAt_settle {w : Process C} {t : TaskId} {run : OpRun} {attempt : Nat}
    (htask : w.task t = .running run (.sending attempt)) (i : Nat) :
    resultAt i w (.settle t) = if run.origin = i then
      ((C.call w.world t).bind CallView.ended).bind CallEnd.result? else none := by
  simp only [resultAt, htask]

/-- All the results of the operation with this number. -/
def results (steps : List (Process C × ProcessAction C)) (i : Nat) : List (Except Failure Bytes) :=
  steps.filterMap fun p => resultAt i p.1 p.2

theorem results_append (steps : List (Process C × ProcessAction C)) (w : Process C)
    (a : ProcessAction C) (i : Nat) :
    results (steps ++ [(w, a)]) i = results steps i ++ (resultAt i w a).toList := by
  rw [results, List.filterMap_append, results]
  cases h : resultAt i w a <;> simp [h]

/-- What is true of a task by what its operation has seen. -/
def TaskTried (S : Setting) (seen : Nat → List (Except Failure Bytes)) (task : OpState) : Prop :=
  match task with
  | .running run phase => Tried S.config (seen run.origin) phase
  | .returned run result _ =>
      ∃ last, Tried S.config (seen run.origin) (.finished last) ∧ result = last >>= run.op.answer S
  | _ => True

/-- `seen` is what every operation has seen. -/
structure Retried (S : Setting) (seen : Nat → List (Except Failure Bytes)) (w : Process C) :
    Prop where
  tasks : ∀ t, TaskTried S seen (w.task t)
  /-- every operation has its own number -/
  origins : ∀ t run, (w.task t).run? = some run → run.origin < w.asked.length
  alone : ∀ t u run run', (w.task t).run? = some run → (w.task u).run? = some run' →
    run'.origin = run.origin → u = t
  later : ∀ i, w.asked.length ≤ i → seen i = []

section Retried

variable {S : Setting} {seen seen' : Nat → List (Except Failure Bytes)} {w w' : Process C}

theorem TaskTried.of_seen {task : OpState} (h : TaskTried S seen task)
    (hseen : ∀ run, task.run? = some run → seen' run.origin = seen run.origin) :
    TaskTried S seen' task := by
  cases task with
  | running run phase =>
      unfold TaskTried at h ⊢
      dsimp only at h ⊢
      rw [hseen run rfl]
      exact h
  | returned run result upTo =>
      unfold TaskTried at h ⊢
      dsimp only at h ⊢
      rw [hseen run rfl]
      exact h
  | _ => trivial

theorem Retried.tried (h : Retried S seen w) {t : TaskId} {run : OpRun} {phase : RetryPhase}
    (htask : w.task t = .running run phase) : Tried S.config (seen run.origin) phase := by
  have htried := h.tasks t
  rw [htask] at htried
  exact htried

/-- One task changes, and its operation sees more. -/
theorem Retried.update (h : Retried S seen w) {t : TaskId} {task : OpState}
    (hasked : w.asked.length ≤ w'.asked.length)
    (htask : w'.task = Function.update w.task t task) (hnew : TaskTried S seen' task)
    (horigin : ∀ run, task.run? = some run → run.origin < w'.asked.length ∧
      ∀ u run', u ≠ t → (w.task u).run? = some run' → run'.origin ≠ run.origin)
    (hseen : ∀ u run, u ≠ t → (w.task u).run? = some run → seen' run.origin = seen run.origin)
    (hlater : ∀ i, w'.asked.length ≤ i → seen' i = []) : Retried S seen' w' := by
  have hself : w'.task t = task := by rw [htask, Function.update_self]
  have hother : ∀ u, u ≠ t → w'.task u = w.task u := by
    intro u hu
    rw [htask, Function.update_of_ne hu]
  refine ⟨fun u => ?_, fun u run hrun => ?_, fun u v run run' hrun hrun' heq => ?_, hlater⟩
  · by_cases hu : u = t
    · rw [hu, hself]
      exact hnew
    · rw [hother u hu]
      exact (h.tasks u).of_seen fun run => hseen u run hu
  · by_cases hu : u = t
    · rw [hu, hself] at hrun
      exact (horigin run hrun).1
    · rw [hother u hu] at hrun
      exact Nat.lt_of_lt_of_le (h.origins u run hrun) hasked
  · by_cases hu : u = t
    · by_cases hv : v = t
      · rw [hu, hv]
      · rw [hu, hself] at hrun
        rw [hother v hv] at hrun'
        exact absurd heq ((horigin run hrun).2 v run' hv hrun')
    · rw [hother u hu] at hrun
      by_cases hv : v = t
      · rw [hv, hself] at hrun'
        exact absurd heq.symm ((horigin run' hrun').2 u run hu hrun)
      · rw [hother v hv] at hrun'
        exact h.alone u v run run' hrun hrun' heq

/-- A task is at rest, and nothing was seen. -/
theorem Retried.rest (h : Retried S seen w) {t : TaskId} {task : OpState}
    (hrest : task.run? = none) (hasked : w'.asked = w.asked)
    (htask : w'.task = Function.update w.task t task) : Retried S seen w' := by
  refine h.update (Nat.le_of_eq (by rw [hasked])) htask ?_ ?_ (fun _ _ _ _ => rfl) ?_
  · cases task <;> trivial
  · intro run hrun
    rw [hrest] at hrun
    cases hrun
  · rw [hasked]
    exact h.later

/-- The loop of a task goes on. -/
theorem Retried.proceed (h : Retried S seen w) {t : TaskId} {run : OpRun} {phase : RetryPhase}
    (htried : Tried S.config (seen' run.origin) phase) (hlt : run.origin < w.asked.length)
    (halone : ∀ u run', u ≠ t → (w.task u).run? = some run' → run'.origin ≠ run.origin)
    (hseen : ∀ i, i ≠ run.origin → seen' i = seen i)
    (hproceed : w.proceed S t run phase = some w') :
    Retried S seen' w' := by
  have hothers : ∀ u run', u ≠ t → (w.task u).run? = some run' →
      seen' run'.origin = seen run'.origin :=
    fun u run' hu hrun' => hseen run'.origin (halone u run' hu hrun')
  have hlater : ∀ i, w.asked.length ≤ i → seen' i = [] := by
    intro i hi
    rw [hseen i (by omega)]
    exact h.later i hi
  have horigin : ∀ run', some run = some run' → run'.origin < w.asked.length ∧
      ∀ u run'', u ≠ t → (w.task u).run? = some run'' → run''.origin ≠ run'.origin := by
    intro run' hrun'
    rw [Option.some.injEq] at hrun'
    exact hrun' ▸ ⟨hlt, halone⟩
  cases phase with
  | sending attempt =>
      obtain ⟨world, _, rfl⟩ := Option.map_eq_some_iff.mp hproceed
      exact h.update (Nat.le_refl _) rfl htried horigin hothers hlater
  | sleeping attempt ms =>
      cases hproceed
      exact h.update (Nat.le_refl _) rfl htried horigin hothers hlater
  | finished result =>
      cases hproceed
      exact h.update (Nat.le_refl _) rfl ⟨result, htried, rfl⟩ horigin hothers hlater

/-! ### Every run -/

variable {steps : List (Process C × ProcessAction C)}

theorem results_of_none {a : ProcessAction C} (h : ∀ i, resultAt i w a = none) :
    results (steps ++ [(w, a)]) = results steps := by
  funext i
  rw [results_append, h i]
  exact List.append_nil _

theorem Retried.step {a : ProcessAction C} (h : Retried S (results steps) w)
    (hstep : w.step S a = some w') : Retried S (results (steps ++ [(w, a)])) w' := by
  cases step_cases hstep with
  | refuses _ _ =>
      rw [results_of_none fun _ => rfl]
      exact h.rest rfl rfl rfl
  | @asks t op frame _ _ _ hproceed =>
      rw [results_of_none fun _ => rfl]
      have hasked : Retried S (results steps) { w with
          counter := (op.request S w.counter).1, asked := w.asked ++ [⟨op, frame⟩] } := by
        refine ⟨h.tasks, fun u run hrun => ?_, h.alone, fun i hi => h.later i ?_⟩
        · exact Nat.lt_of_lt_of_le (h.origins u run hrun) (by simp)
        · exact Nat.le_trans (by simp) hi
      refine hasked.proceed ?_ (by simp) ?_ (fun _ _ => rfl) hproceed
      · rw [h.later _ (Nat.le_refl _)]
        exact tried_start S.config
      · intro u run' _ hrun'
        exact Nat.ne_of_lt (h.origins u run' hrun')
  | acts _ =>
      rw [results_of_none fun _ => rfl]
      exact ⟨h.tasks, h.origins, h.alone, h.later⟩
  | @settles t run attempt result _ htask hended hproceed =>
      have hat := resultAt_settle htask
      have hrun : (w.task t).run? = some run := by rw [htask]; rfl
      refine h.proceed ?_ (h.origins t run hrun) ?_ ?_ hproceed
      · rw [results_append, hat, if_pos rfl, hended]
        exact (h.tried htask).onResult result
      · intro u run' hu hrun' heq
        exact hu (h.alone t u run run' hrun hrun' heq)
      · intro i hi
        rw [results_append, hat, if_neg (Ne.symm hi)]
        exact List.append_nil _
  | isCancelled htask hended =>
      rw [results_of_none fun i => by rw [resultAt_settle htask, hended]; split <;> rfl]
      exact h.rest rfl rfl rfl
  | @wakes t run attempt ms _ htask hproceed =>
      rw [results_of_none fun _ => rfl]
      have hrun : (w.task t).run? = some run := by rw [htask]; rfl
      refine h.proceed (h.tried htask).onWake (h.origins t run hrun) ?_ (fun _ _ => rfl) hproceed
      intro u run' hu hrun' heq
      exact hu (h.alone t u run run' hrun hrun' heq)
  | drops _ =>
      rw [results_of_none fun _ => rfl]
      exact h.rest rfl rfl rfl
  | takesSerial =>
      rw [results_of_none fun _ => rfl]
      exact ⟨h.tasks, h.origins, h.alone, h.later⟩

/-! ### Behind a failed attempt

A failure is followed by the sleep, and the task does nothing else meanwhile.
-/

/-- The loop of one task leaves the other tasks alone. -/
theorem task_of_proceed {t u : TaskId} {run : OpRun} {phase : RetryPhase} (hu : u ≠ t)
    (hproceed : w.proceed S t run phase = some w') : w'.task u = w.task u := by
  cases phase with
  | sending attempt =>
      obtain ⟨world, -, rfl⟩ := Option.map_eq_some_iff.mp hproceed
      exact Function.update_of_ne hu _ _
  | sleeping attempt ms =>
      cases hproceed
      exact Function.update_of_ne hu _ _
  | finished result =>
      cases hproceed
      exact Function.update_of_ne hu _ _

/-- A task that waits for its call goes on when it sees how the call ended, and not before. -/
theorem task_of_step {a : ProcessAction C} {t : TaskId} {run : OpRun} {attempt : Nat}
    (htask : w.task t = .running run (.sending attempt)) (hne : a ≠ .settle t)
    (hstep : w.step S a = some w') : w'.task t = w.task t := by
  have hrunning : ∀ {u}, (w.task u).atRest = true → t ≠ u := by
    rintro u hrest rfl
    rw [htask] at hrest
    cases hrest
  have hawake : ∀ {u r k ms}, w.task u = .running r (.sleeping k ms) → t ≠ u := by
    rintro u r k ms hsleeping rfl
    rw [htask] at hsleeping
    cases hsleeping
  cases step_cases hstep with
  | refuses hrest _ => exact Function.update_of_ne (hrunning hrest) _ _
  | @asks u op frame _ hrest _ hproceed =>
      have hothers := task_of_proceed (hrunning hrest) hproceed
      exact hothers
  | acts _ => rfl
  | @settles u _ _ _ _ _ _ hproceed =>
      have hu : t ≠ u := fun heq => hne (by rw [heq])
      exact task_of_proceed hu hproceed
  | @isCancelled u _ _ _ _ =>
      have hu : t ≠ u := fun heq => hne (by rw [heq])
      exact Function.update_of_ne hu _ _
  | wakes hsleeping hproceed => exact task_of_proceed (hawake hsleeping) hproceed
  | drops hsleeping => exact Function.update_of_ne (hawake hsleeping) _ _
  | takesSerial => rfl

/-- It sleeps when the call failed and there are attempts left. -/
theorem settle_failed {t : TaskId} {run : OpRun} {attempt : Nat} {result : Except Failure Bytes}
    (htask : w.task t = .running run (.sending attempt))
    (hended : (C.call w.world t).bind CallView.ended = some (.returned result))
    (hfailed : Failed result) (hne : attempt ≠ S.config.melsecTcpRetryAttempts) :
    ∃ w', w.step S (.settle t) = some w' ∧ w'.task t =
      .running run (.sleeping attempt (backoff S.config.melsecTcpRetryBackoffMs attempt)) := by
  obtain ⟨e, rfl⟩ := hfailed
  refine ⟨{ w with task := Function.update w.task t (.running run (.sleeping attempt
    (backoff S.config.melsecTcpRetryBackoffMs attempt))) }, ?_, Function.update_self _ _ _⟩
  simp only [step, htask, hended, RetryPhase.onResult, if_neg hne, proceed]

end Retried

theorem retried_run {S : Setting} {addr : String} {state : σ} {actions : List (ProcessAction C)}
    {w : Process C} (hrun : Runs.run (step S) (start C addr state) actions = some w) :
    Retried S (results (Runs.trace (step S) (start C addr state) actions)) w := by
  have hstart : Retried S (results ([] : List (Process C × ProcessAction C)))
      (start C addr state) := by
    refine ⟨fun _ => trivial, ?_, ?_, fun _ _ => rfl⟩
    · intro t run hrun
      cases hrun
    · intro t u run run' hrun
      cases hrun
  have hstep : ∀ steps (w : Process C) a w', Retried S (results steps) w →
      w.step S a = some w' → Retried S (results (steps ++ [(w, a)])) w' :=
    fun _ _ _ _ h hstep => h.step hstep
  have hretried := @Runs.run_invariant_trace (Process C) (ProcessAction C) (Process.step S)
    (fun steps w => Retried S (results steps) w) hstep actions [] _ _ hstart hrun
  exact hretried

/-- **An operation goes on until it has an answer or no attempt left.**  Over either transport
and whatever the other tasks do: while an operation runs, all its calls of the transport have
failed, and there are no more of them than attempts; behind a failure that is not the last it
sleeps and does nothing else, twice as long each time; and it returns what its last call returned,
which is the first success, or a failure when it was the last attempt. -/
theorem retries_until_answer {S : Setting} {addr : String} {state : σ}
    {actions : List (ProcessAction C)} {w : Process C}
    (hrun : Runs.run (step S) (start C addr state) actions = some w) :
    let seen := results (Runs.trace (step S) (start C addr state) actions)
    let attempts := S.config.melsecTcpRetryAttempts
    (∀ t run attempt, w.task t = .running run (.sending attempt) →
      (∀ r ∈ seen run.origin, Failed r) ∧
        attempt = (seen run.origin).length + 1 ∧ attempt ≤ attempts) ∧
    (∀ t run attempt ms, w.task t = .running run (.sleeping attempt ms) →
      (∀ r ∈ seen run.origin, Failed r) ∧
        attempt = (seen run.origin).length ∧ attempt < attempts ∧
        ms.toNat = min (S.config.melsecTcpRetryBackoffMs.toNat * 2 ^ min (attempt - 1) 63)
          (2 ^ 64 - 1)) ∧
    (∀ t run attempt result, w.task t = .running run (.sending attempt) →
      (C.call w.world t).bind CallView.ended = some (.returned result) → Failed result →
      attempt < attempts → ∃ ms : UInt64,
        ms.toNat = min (S.config.melsecTcpRetryBackoffMs.toNat * 2 ^ min (attempt - 1) 63)
          (2 ^ 64 - 1) ∧
        (∃ w', w.step S (.settle t) = some w' ∧
          w'.task t = .running run (.sleeping attempt ms)) ∧
        ∀ a w', a ≠ .settle t → w.step S a = some w' → w'.task t = w.task t) ∧
    ∀ t run result upTo, w.task t = .returned run result upTo →
      (attempts = 0 ∧ seen run.origin = [] ∧ result = protocolError "unknown transport error") ∨
      ∃ failed last, seen run.origin = failed ++ [last] ∧ (∀ r ∈ failed, Failed r) ∧
        failed.length < attempts ∧ (Failed last → failed.length + 1 = attempts) ∧
        result = last >>= run.op.answer S := by
  intro seen attempts
  have hretried : Retried S seen w := retried_run hrun
  refine ⟨?_, ?_, ?_, ?_⟩
  · intro t run attempt htask
    have hsending := hretried.tried htask
    generalize seen run.origin = results at hsending ⊢
    cases hsending with
    | sending hfailed hattempt hle => exact ⟨hfailed, hattempt, hle⟩
  · intro t run attempt ms htask
    have hsleeping := hretried.tried htask
    generalize seen run.origin = results at hsleeping ⊢
    cases hsleeping with
    | sleeping hfailed hattempt hlt => exact ⟨hfailed, hattempt, hlt, toNat_backoff _ _⟩
  · intro t run attempt result htask hended hfailed hlt
    exact ⟨_, toNat_backoff _ attempt, settle_failed htask hended hfailed (Nat.ne_of_lt hlt),
      fun a w' hne hstep => task_of_step htask hne hstep⟩
  · intro t run result upTo htask
    have htried := hretried.tasks t
    rw [htask] at htried
    obtain ⟨last, hlast, hresult⟩ := htried
    generalize hseen : seen run.origin = results at hlast
    cases hlast with
    | never hnone => exact .inl ⟨hnone, rfl, hresult⟩
    | done hfailed hlt hlast => exact .inr ⟨_, _, rfl, hfailed, hlt, hlast, hresult⟩

/-- The name cannot be resolved, three times. -/
def unresolvedThrice : List (ProcessAction (tcpChannel Plant.countingStation)) :=
  [.invoke 0 (.readWords "D0" 1), .net (.event 0 (.resolveFailed "no such host") false), .settle 0,
    .invoke 1 (.readWords "D1" 1), .net (.event 1 (.resolveFailed "no such host") false), .wake 0,
    .net (.event 0 (.resolveFailed "no such host") false), .settle 0, .settle 1, .wake 0,
    .net (.event 0 (.resolveFailed "no such host") false), .settle 0]

/-- The task's operation returned with this number. -/
def returnedOrigin {C : Channel σ} (w : Process C) (t : TaskId) : Option Nat :=
  match w.task t with
  | .returned run _ _ => some run.origin
  | _ => none

theorem retries_until_answer_thrice :
    ∃ w, Runs.run (step twoDevicesSetting) (start (tcpChannel Plant.countingStation) "plc" 0)
        unresolvedThrice = some w ∧
      ∃ run result upTo, w.task 0 = .returned run result upTo ∧
        ∃ failed last, results (Runs.trace (step twoDevicesSetting)
            (start (tcpChannel Plant.countingStation) "plc" 0) unresolvedThrice) run.origin =
              failed ++ [last] ∧
          (Failed last → failed.length + 1 = 3) ∧
          result = last >>= run.op.answer twoDevicesSetting := by
  have hends : (Runs.run (step twoDevicesSetting)
      (start (tcpChannel Plant.countingStation) "plc" 0) unresolvedThrice).map
      (fun w => w.returnedOrigin 0) = some (some 0) := by decide +kernel
  obtain ⟨w, hrun, hw⟩ := Option.map_eq_some_iff.mp hends
  refine ⟨w, hrun, ?_⟩
  unfold returnedOrigin at hw
  split at hw
  · rename_i run result upTo htask
    refine ⟨run, result, upTo, htask, ?_⟩
    rcases (retries_until_answer hrun).2.2.2 0 run result upTo htask with ⟨hnone, -⟩ |
      ⟨failed, last, hseen, -, -, hlast, hresult⟩
    · cases hnone
    · exact ⟨failed, last, hseen, hlast, hresult⟩
  · cases hw

end Process

end MelsecMc
