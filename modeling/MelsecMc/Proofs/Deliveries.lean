/-
How often the frame of an operation is sent.

A retry sends the frame again, and within one attempt the transport sends it several times, so
a write may be executed more than once.  The potential of a running operation is the number
of times its frame can still be sent:

    what this call has left + what a call has × attempts left

No step raises the sum of that potential and of the frames that were sent, and it is
`attempts × perCall` when the operation starts (`sendings_le`).

While a call runs, its sendings are those the meter of the transport counts; while an operation
sleeps, its call has ended and the attempts that are left are still to pay for.  An operation
that returned or was cancelled can send nothing any more, but what it has put in flight may still
arrive.
-/
import MelsecMc.Proofs.Operations
import MelsecMc.Proofs.Sendings

namespace MelsecMc

namespace Process

variable {σ : Type} {C : Channel σ} {S : Setting} {M : Channel.Meter C} {w w' : Process C}

/-- How often the frame of a task's operation can still be sent. -/
def left (S : Setting) (M : Channel.Meter C) (w : Process C) (t : TaskId) (phase : RetryPhase) :
    Nat :=
  match phase with
  | .sending attempt =>
      (S.config.melsecTcpRetryAttempts - attempt) * M.perCall + M.left w.world t
  | .sleeping attempt _ => (S.config.melsecTcpRetryAttempts - attempt) * M.perCall
  | .finished _ => 0

/-- The attempt is one the loop makes, and after the last one it does not sleep. -/
def InLoop (S : Setting) : RetryPhase → Prop
  | .sending attempt => attempt ≤ S.config.melsecTcpRetryAttempts
  | .sleeping attempt _ => attempt < S.config.melsecTcpRetryAttempts
  | .finished _ => True

/-- The most an operation can come to. -/
def most (S : Setting) (M : Channel.Meter C) : Nat :=
  S.config.melsecTcpRetryAttempts * M.perCall

structure Budget (S : Setting) (M : Channel.Meter C) (w : Process C) : Prop where
  world : M.Inv w.world
  /-- a call that has not ended is made for a running operation -/
  live : ∀ t c, C.call w.world t = some c → c.ended = none →
    ∃ run attempt, w.task t = .running run (.sending attempt) ∧ c.request.origin = run.origin
  /-- no two tasks run the same operation -/
  distinct : ∀ t u run run' phase phase', w.task t = .running run phase →
    w.task u = .running run' phase' → run'.origin = run.origin → u = t
  origins : ∀ t run phase, w.task t = .running run phase → run.origin < w.asked.length
  unasked : ∀ i, w.asked.length ≤ i → C.sendings w.world i = 0
  bound : ∀ i, C.sendings w.world i ≤ most S M
  running : ∀ t run phase, w.task t = .running run phase →
    InLoop S phase ∧ C.sendings w.world run.origin + left S M w t phase ≤ most S M

section Lawful

variable {station : Station σ} {WorldInv : C.World → Prop} {Good : C.World → C.Act → Prop}

theorem budget_start (hlaw : C.Lawful station WorldInv Good) (S : Setting) (M : Channel.Meter C)
    (addr : String) (state : σ) : (start C addr state).Budget S M := by
  obtain ⟨hinv, hzero⟩ := M.start addr state
  refine ⟨hinv, ?_, ?_, ?_, fun i _ => hzero i, ?_, ?_⟩
  · intro t c hc
    rw [show C.call (start C addr state).world t = none from (hlaw.fresh addr state).call t] at hc
    cases hc
  · intro t u run run' phase phase' h
    cases h
  · intro t run phase h
    cases h
  · intro i
    rw [show C.sendings (start C addr state).world i = 0 from hzero i]
    exact Nat.zero_le _
  · intro t run phase h
    cases h

namespace Budget

/-- A task goes on or comes to an end; nothing is sent, and the others stay. -/
theorem move_task (hb : w.Budget S M) (t : TaskId) (hworld : M.Inv w'.world)
    (hasked : w.asked.length ≤ w'.asked.length)
    (hsendings : ∀ i, C.sendings w'.world i = C.sendings w.world i)
    (htasks : ∀ u, u ≠ t → w'.task u = w.task u)
    (hcalls : ∀ u, u ≠ t → C.call w'.world u = C.call w.world u)
    (hlefts : ∀ u, u ≠ t → M.left w'.world u = M.left w.world u)
    (hlive : ∀ c, C.call w'.world t = some c → c.ended = none →
      ∃ run attempt, w'.task t = .running run (.sending attempt) ∧ c.request.origin = run.origin)
    (hnew : ∀ run phase, w'.task t = .running run phase →
      run.origin < w'.asked.length ∧
      (∀ u run' phase', u ≠ t → w.task u = .running run' phase' → run'.origin ≠ run.origin) ∧
      InLoop S phase ∧
      C.sendings w'.world run.origin + left S M w' t phase ≤ most S M) :
    w'.Budget S M := by
  refine ⟨hworld, ?_, ?_, ?_, ?_, ?_, ?_⟩
  · intro u c hc hended
    by_cases hu : u = t
    · subst hu
      exact hlive c hc hended
    · rw [htasks u hu]
      exact hb.live u c (hcalls u hu ▸ hc) hended
  · intro u v run run' phase phase' hrun hrun' heq
    by_cases hu : u = t <;> by_cases hv : v = t
    · rw [hu, hv]
    · subst hu
      exact absurd heq ((hnew run phase hrun).2.1 v run' phase' hv (htasks v hv ▸ hrun'))
    · subst hv
      exact absurd heq.symm ((hnew run' phase' hrun').2.1 u run phase hu (htasks u hu ▸ hrun))
    · exact hb.distinct u v run run' phase phase' (htasks u hu ▸ hrun) (htasks v hv ▸ hrun') heq
  · intro u run phase hrun
    by_cases hu : u = t
    · subst hu
      exact (hnew run phase hrun).1
    · exact Nat.lt_of_lt_of_le (hb.origins u run phase (htasks u hu ▸ hrun)) hasked
  · intro i hi
    rw [hsendings]
    exact hb.unasked i (Nat.le_trans hasked hi)
  · intro i
    rw [hsendings]
    exact hb.bound i
  · intro u run phase hrun
    by_cases hu : u = t
    · subst hu
      exact (hnew run phase hrun).2.2
    · obtain ⟨hloop, hpaid⟩ := hb.running u run phase (htasks u hu ▸ hrun)
      refine ⟨hloop, ?_⟩
      have hleft : left S M w' u phase = left S M w u phase := by
        unfold left
        rw [hlefts u hu]
      rw [hsendings, hleft]
      exact hpaid

/-- Nothing is sent, and the calls are those there were. -/
theorem frame (hb : w.Budget S M) {world : C.World} (hworld : M.Inv world)
    (hkeeps : C.Keeps w.world world) (hleft : ∀ u, M.left world u = M.left w.world u)
    (hsendings : ∀ i, C.sendings world i = C.sendings w.world i) :
    Budget S M { w with world } := by
  refine ⟨hworld, ?_, hb.distinct, hb.origins, ?_, ?_, ?_⟩
  · intro t c' hc' hended
    obtain ⟨c, hc, hlive⟩ := hkeeps.live t c' hc' hended
    obtain ⟨run, attempt, htask, horigin⟩ := hb.live t c hc hlive
    exact ⟨run, attempt, htask, (hkeeps.origin hc hc').trans horigin⟩
  · intro i hi
    exact (hsendings i).trans (hb.unasked i hi)
  · intro i
    exact (hsendings i).trans_le (hb.bound i)
  · intro t run phase htask
    obtain ⟨hloop, hpaid⟩ := hb.running t run phase htask
    refine ⟨hloop, ?_⟩
    have hsame : left S M { w with world } t phase = left S M w t phase := by
      unfold left
      rw [show M.left ({ w with world } : Process C).world t = _ from hleft t]
    rw [hsame, show C.sendings ({ w with world } : Process C).world run.origin = _ from
      hsendings run.origin]
    exact hpaid

/-- What a call sends, its operation can pay for. -/
theorem pay (hb : w.Budget S M) {world : C.World} (hworld : M.Inv world)
    (hkeeps : C.Keeps w.world world) {t : TaskId} {c : CallView}
    (hcall : C.call w.world t = some c) (hlive : c.ended = none)
    (hothers : ∀ u, u ≠ t → M.left world u = M.left w.world u)
    (hsendings : ∀ i, i ≠ c.request.origin → C.sendings world i = C.sendings w.world i)
    (hcost : C.sendings world c.request.origin + M.left world t ≤
      C.sendings w.world c.request.origin + M.left w.world t) :
    Budget S M { w with world } := by
  obtain ⟨run, attempt, htask, hrun⟩ := hb.live t c hcall hlive
  rw [hrun] at hsendings hcost
  obtain ⟨hloop, hpaid⟩ := hb.running t run _ htask
  have hleft : left S M w t (.sending attempt) =
      (S.config.melsecTcpRetryAttempts - attempt) * M.perCall + M.left w.world t := rfl
  have hleft' : left S M { w with world } t (.sending attempt) =
      (S.config.melsecTcpRetryAttempts - attempt) * M.perCall + M.left world t := rfl
  rw [hleft] at hpaid
  refine ⟨hworld, ?_, hb.distinct, hb.origins, ?_, ?_, ?_⟩
  · intro u d' hd' hended
    obtain ⟨d, hd, hdlive⟩ := hkeeps.live u d' hd' hended
    obtain ⟨run', attempt', htask', horigin⟩ := hb.live u d hd hdlive
    exact ⟨run', attempt', htask', (hkeeps.origin hd hd').trans horigin⟩
  · intro i hi
    have hne : i ≠ run.origin := by
      have hlt := hb.origins t run _ htask
      have hi' : w.asked.length ≤ i := hi
      omega
    exact (hsendings i hne).trans (hb.unasked i hi)
  · intro i
    by_cases hi : i = run.origin
    · rw [hi]
      show C.sendings world run.origin ≤ most S M
      omega
    · exact (hsendings i hi).trans_le (hb.bound i)
  · intro u run' phase' htask'
    have htasku : w.task u = .running run' phase' := htask'
    by_cases hu : u = t
    · subst hu
      rw [htask, OpState.running.injEq] at htasku
      obtain ⟨rfl, rfl⟩ := htasku
      refine ⟨hloop, ?_⟩
      rw [hleft']
      show C.sendings world run.origin + _ ≤ most S M
      omega
    · obtain ⟨hloop', hpaid'⟩ := hb.running u run' phase' htasku
      have hne : run'.origin ≠ run.origin := fun heq =>
        hu (hb.distinct t u run run' _ _ htask htasku heq)
      have hsame : left S M { w with world } u phase' = left S M w u phase' := by
        unfold left
        rw [show M.left ({ w with world } : Process C).world u = _ from hothers u hu]
      refine ⟨hloop', ?_⟩
      rw [hsame, show C.sendings ({ w with world } : Process C).world run'.origin = _ from
        hsendings run'.origin hne]
      exact hpaid'

theorem net (hlaw : C.Lawful station WorldInv Good) (hb : w.Budget S M) {a : C.Act}
    (hfits : M.fits a = true) {world : C.World} (hact : C.act w.world a = some world) :
    Budget S M { w with world } := by
  have hkeeps := (hlaw.carries hact).toKeeps
  obtain ⟨hworld, hspends⟩ := M.act hb.world hfits hact
  cases hspends with
  | nothing hleft hsendings => exact hb.frame hworld hkeeps hleft hsendings
  | call hcall hlive hothers hsendings hpaid =>
      exact hb.pay hworld hkeeps hcall hlive hothers hsendings hpaid

/-- A phase of the retry loop, with the call it makes still to come. -/
def ahead (S : Setting) (M : Channel.Meter C) : RetryPhase → Nat
  | .sending attempt => (S.config.melsecTcpRetryAttempts - attempt) * M.perCall + M.perCall
  | .sleeping attempt _ => (S.config.melsecTcpRetryAttempts - attempt) * M.perCall
  | .finished _ => 0

/-- A task is about to go on with an operation it can pay for. -/
structure Ready (S : Setting) (M : Channel.Meter C) (w : Process C) (t : TaskId) (run : OpRun)
    (phase : RetryPhase) : Prop where
  done : ∀ c, C.call w.world t = some c → c.ended ≠ none
  asked : run.origin < w.asked.length
  alone : ∀ u run' phase', u ≠ t → w.task u = .running run' phase' → run'.origin ≠ run.origin
  loop : InLoop S phase
  paid : C.sendings w.world run.origin + ahead S M phase ≤ most S M

theorem proceed (hlaw : C.Lawful station WorldInv Good) (hb : w.Budget S M) {t : TaskId}
    {run : OpRun} {phase : RetryPhase} (hready : Ready S M w t run phase)
    (h : w.proceed S t run phase = some w') : w'.Budget S M := by
  have hothers : ∀ (task : OpState) u, u ≠ t → Function.update w.task t task u = w.task u :=
    fun task u hu => Function.update_of_ne hu _ _
  cases phase with
  | sending attempt =>
      obtain ⟨world, hbegin, rfl⟩ := Option.map_eq_some_iff.mp h
      have hbegun := hlaw.begun hbegin
      obtain ⟨hworld, hleft, hlefts, hsendings⟩ := M.begin hb.world hbegin
      refine hb.move_task t hworld (Nat.le_refl _) hsendings (hothers _) hbegun.calls hlefts ?_ ?_
      · intro c hc _
        rw [show C.call world t = _ from hbegun.call, Option.some.injEq] at hc
        exact ⟨run, attempt, Function.update_self _ _ _, hc ▸ rfl⟩
      · intro run' phase' htask
        cases (Function.update_self t (OpState.running run (.sending attempt)) w.task).symm.trans
          htask
        refine ⟨hready.asked, hready.alone, hready.loop, ?_⟩
        have hpaid := hready.paid
        rw [ahead] at hpaid
        show C.sendings world run.origin +
          ((S.config.melsecTcpRetryAttempts - attempt) * M.perCall + M.left world t) ≤ most S M
        rw [hsendings]
        omega
  | sleeping attempt ms =>
      cases h
      refine hb.move_task t hb.world (Nat.le_refl _) (fun i => rfl) (hothers _) (fun _ _ => rfl)
        (fun _ _ => rfl) (fun c hc hlive => absurd hlive (hready.done c hc)) ?_
      intro run' phase' htask
      cases (Function.update_self t (OpState.running run (.sleeping attempt ms)) w.task).symm.trans
        htask
      exact ⟨hready.asked, hready.alone, hready.loop, hready.paid⟩
  | finished result =>
      cases h
      refine hb.move_task t hb.world (Nat.le_refl _) (fun i => rfl) (hothers _) (fun _ _ => rfl)
        (fun _ _ => rfl) (fun c hc hlive => absurd hlive (hready.done c hc)) ?_
      intro run' phase' htask
      cases (Function.update_self t (OpState.returned run _ _) w.task).symm.trans htask

/-- A task that is not sending has no call that goes on. -/
theorem done_of_not_sending (hb : w.Budget S M) {t : TaskId}
    (htask : ∀ run attempt, w.task t ≠ .running run (.sending attempt)) :
    ∀ c, C.call w.world t = some c → c.ended ≠ none := by
  intro c hc hlive
  obtain ⟨run, attempt, hrunning, -⟩ := hb.live t c hc hlive
  exact htask run attempt hrunning

/-- A task comes to rest. -/
theorem rest (hb : w.Budget S M) {t : TaskId} {task : OpState} (counter : UInt16)
    (hdone : ∀ c, C.call w.world t = some c → c.ended ≠ none) (htask : task.atRest = true) :
    Budget S M { w with counter, task := Function.update w.task t task } := by
  refine hb.move_task t hb.world (Nat.le_refl _) (fun i => rfl)
    (fun u hu => Function.update_of_ne hu _ _) (fun _ _ => rfl) (fun _ _ => rfl)
    (fun c hc hlive => absurd hlive (hdone c hc)) ?_
  intro run phase hrunning
  have hsame := (Function.update_self t task w.task).symm.trans hrunning
  rw [hsame] at htask
  cases htask

/-- A task at rest has no call that goes on. -/
theorem done_of_atRest (hb : w.Budget S M) {t : TaskId} (hrest : (w.task t).atRest = true) :
    ∀ c, C.call w.world t = some c → c.ended ≠ none := by
  refine hb.done_of_not_sending fun run attempt hrunning => ?_
  rw [hrunning] at hrest
  cases hrest

/-- Nor has one whose call has ended. -/
theorem done_of_ended {t : TaskId} {callEnd : CallEnd}
    (hended : (C.call w.world t).bind CallView.ended = some callEnd) :
    ∀ c, C.call w.world t = some c → c.ended ≠ none := by
  intro c hc hlive
  rw [hc, Option.bind_some, hlive] at hended
  cases hended

/-- An operation has its frame, and starts with all it may cost. -/
theorem invoke (hlaw : C.Lawful station WorldInv Good) (hb : w.Budget S M) {t : TaskId}
    {op : BatchOp} {frame : Bytes} (hrest : (w.task t).atRest = true)
    (h : Process.proceed S
      { w with counter := (op.request S w.counter).1, asked := w.asked ++ [⟨op, frame⟩] } t
      ⟨⟨op, frame⟩, w.asked.length, w.executed.length⟩ (RetryPhase.start S.config) = some w') :
    w'.Budget S M := by
  have hidle : ∀ run phase, w.task t ≠ .running run phase := by
    intro run phase hrunning
    rw [hrunning] at hrest
    cases hrest
  have hasked : Budget S M
      { w with counter := (op.request S w.counter).1, asked := w.asked ++ [⟨op, frame⟩] } := by
    refine hb.move_task t hb.world ?_ (fun i => rfl) (fun _ _ => rfl) (fun _ _ => rfl)
      (fun _ _ => rfl) (fun c hc hlive => hb.live t c hc hlive)
      (fun run phase hrunning => absurd hrunning (hidle run phase))
    show w.asked.length ≤ (w.asked ++ [_]).length
    rw [List.length_append]
    exact Nat.le_add_right _ _
  refine hasked.proceed hlaw ⟨hb.done_of_atRest hrest, ?_, ?_, ?_, ?_⟩ h
  · show w.asked.length < (w.asked ++ [_]).length
    rw [List.length_append]
    exact Nat.lt_succ_self _
  · intro u run' phase' _ hrunning
    exact Nat.ne_of_lt (hb.origins u run' phase' hrunning)
  · unfold RetryPhase.start
    split
    · trivial
    · rename_i hne
      exact Nat.one_le_iff_ne_zero.mpr hne
  · have hzero : C.sendings w.world w.asked.length = 0 := hb.unasked _ (Nat.le_refl _)
    show C.sendings w.world w.asked.length + _ ≤ _
    rw [hzero, Nat.zero_add]
    unfold RetryPhase.start
    split
    · exact Nat.zero_le _
    · rename_i hne
      show (S.config.melsecTcpRetryAttempts - 1) * M.perCall + M.perCall ≤ _
      rw [← Nat.succ_mul, most, Nat.succ_eq_add_one,
        Nat.sub_add_cancel (Nat.one_le_iff_ne_zero.mpr hne)]

/-- The call of an operation has returned: the attempts that are left are paid for. -/
theorem settle (hlaw : C.Lawful station WorldInv Good) (hb : w.Budget S M) {t : TaskId}
    {run : OpRun} {attempt : Nat} {result : Except Failure Bytes}
    (htask : w.task t = .running run (.sending attempt))
    (hended : (C.call w.world t).bind CallView.ended = some (.returned result))
    (h : w.proceed S t run (RetryPhase.onResult S.config attempt result) = some w') :
    w'.Budget S M := by
  obtain ⟨hloop, hpaid⟩ := hb.running t run _ htask
  have halone : ∀ u run' phase', u ≠ t → w.task u = .running run' phase' →
      run'.origin ≠ run.origin :=
    fun u run' phase' hu hrunning heq => hu (hb.distinct t u _ _ _ _ htask hrunning heq)
  have hkept : C.sendings w.world run.origin +
      (S.config.melsecTcpRetryAttempts - attempt) * M.perCall ≤ most S M := by
    rw [left] at hpaid
    omega
  have hover : C.sendings w.world run.origin + 0 ≤ most S M :=
    Nat.le_trans (Nat.le_add_right _ _) hkept
  refine hb.proceed hlaw ⟨done_of_ended hended, hb.origins t run _ htask, halone, ?_, ?_⟩ h
  · cases result with
    | ok buf => trivial
    | error e =>
        cases e with
        | panic p => trivial
        | err e =>
            unfold RetryPhase.onResult
            dsimp only
            split
            · trivial
            · rename_i hne
              exact Nat.lt_of_le_of_ne hloop hne
  · cases result with
    | ok buf => exact hover
    | error e =>
        cases e with
        | panic p => exact hover
        | err e =>
            unfold RetryPhase.onResult
            dsimp only
            split
            · exact hover
            · exact hkept

/-- The next attempt begins. -/
theorem wake (hlaw : C.Lawful station WorldInv Good) (hb : w.Budget S M) {t : TaskId}
    {run : OpRun} {attempt : Nat} {ms : UInt64}
    (htask : w.task t = .running run (.sleeping attempt ms))
    (h : w.proceed S t run (.sending (attempt + 1)) = some w') : w'.Budget S M := by
  obtain ⟨hloop, hpaid⟩ := hb.running t run _ htask
  have hlt : attempt < S.config.melsecTcpRetryAttempts := hloop
  refine hb.proceed hlaw ⟨hb.done_of_not_sending ?_, hb.origins t run _ htask, ?_, ?_, ?_⟩ h
  · intro run' attempt' hrunning
    rw [htask] at hrunning
    cases hrunning
  · intro u run' phase' hu hrunning heq
    exact hu (hb.distinct t u _ _ _ _ htask hrunning heq)
  · exact hlt
  · show C.sendings w.world run.origin +
      ((S.config.melsecTcpRetryAttempts - (attempt + 1)) * M.perCall + M.perCall) ≤ _
    rw [← Nat.succ_mul, Nat.succ_eq_add_one,
      show S.config.melsecTcpRetryAttempts - (attempt + 1) + 1 =
        S.config.melsecTcpRetryAttempts - attempt by omega]
    exact hpaid

end Budget

/-- The meter counts the action right. -/
def fits (M : Channel.Meter C) : ProcessAction C → Bool
  | .net a => M.fits a
  | _ => true

theorem Budget.step (hlaw : C.Lawful station WorldInv Good) (hb : w.Budget S M)
    {a : ProcessAction C} (hfits : fits M a = true) (h : w.step S a = some w') :
    w'.Budget S M := by
  cases step_cases h with
  | refuses hrest _ => exact hb.rest _ (hb.done_of_atRest hrest) rfl
  | asks hrest _ hproceed => exact hb.invoke hlaw hrest hproceed
  | acts hact => exact hb.net hlaw hfits hact
  | settles htask hended hproceed => exact hb.settle hlaw htask hended hproceed
  | isCancelled _ hended => exact hb.rest _ (done_of_ended hended) rfl
  | wakes htask hproceed => exact hb.wake hlaw htask hproceed
  | drops htask =>
      refine hb.rest _ (hb.done_of_not_sending fun run attempt hrunning => ?_) rfl
      rw [htask] at hrunning
      cases hrunning
  | takesSerial =>
      exact ⟨hb.world, hb.live, hb.distinct, hb.origins, hb.unasked, hb.bound, hb.running⟩

theorem budget_run (hlaw : C.Lawful station WorldInv Good) {addr : String} {state : σ}
    {actions : List (ProcessAction C)} (hfits : ∀ a ∈ actions, fits M a = true)
    (hrun : Runs.run (step S) (start C addr state) actions = some w) : w.Budget S M :=
  Runs.run_invariant_along (fun _ _ _ hb ha hstep => Budget.step hlaw hb ha hstep) actions
    (budget_start hlaw S M addr state) (Runs.along_of_mem actions hfits _) hrun

end Lawful

end Process

/-! ### Both protocols

The number a call can come to is the only thing that depends on the transport.  A name that
resolves to more addresses than were allowed for breaks the bound, so the resolver is bounded in
the statement.
-/

/-- What one call sends at most, when a name has `addresses` addresses at most. -/
def Protocol.perCall (config : Config) (addresses : Nat) : Protocol → Nat
  | .tcp => 1 + addresses
  | .udp => addresses * config.melsecUdpRecvAttempts

/-- Names have no more addresses than that. -/
def Protocol.resolvesAtMost {σ : Type} (config : Config) (station : Station σ) (addresses : Nat) :
    (p : Protocol) → (p.channel config station).Act → Bool
  | .tcp => Plant.resolvesAtMost addresses
  | .udp => UdpPlant.resolvesAtMost addresses

def Protocol.meter {σ : Type} (config : Config) (station : Station σ) (addresses : Nat) :
    (p : Protocol) → Channel.Meter (p.channel config station)
  | .tcp => tcpMeter station addresses
  | .udp => udpMeter config.melsecUdpRecvAttempts station addresses

theorem Protocol.meter_spec {σ : Type} (config : Config) (station : Station σ) (addresses : Nat)
    (p : Protocol) :
    (p.meter config station addresses).perCall = p.perCall config addresses ∧
      (p.meter config station addresses).fits = p.resolvesAtMost config station addresses := by
  cases p <;> exact ⟨rfl, rfl⟩

namespace Process

variable {σ : Type} {S : Setting} {station : Station σ} {w : Process (S.channel station)}

/-- The resolver gives no more addresses than that. -/
def resolvesAtMost (addresses : Nat) : ProcessAction (S.channel station) → Bool
  | .net a => S.protocol.resolvesAtMost S.config station addresses a
  | _ => true

/-- **The frame of an operation is sent `attempts × perCall` times at most**, however the
network fails and however the tasks interleave.  Over TCP, `1 + addresses` times for each
attempt, counting the frames that got through to the station; over UDP, for each attempt
`melsec_udp_recv_attempts` times to each address. -/
theorem sendings_le {addr : String} {state : σ} {addresses : Nat}
    {actions : List (ProcessAction (S.channel station))}
    (hresolves : ∀ a ∈ actions, resolvesAtMost addresses a = true)
    (hrun : Runs.run (step S) (start (S.channel station) addr state) actions = some w)
    (origin : Nat) :
    (S.channel station).sendings w.world origin ≤
      S.config.melsecTcpRetryAttempts * S.protocol.perCall S.config addresses := by
  obtain ⟨hperCall, hfits⟩ := S.protocol.meter_spec S.config station addresses
  have hb : w.Budget S (S.protocol.meter S.config station addresses) := by
    refine budget_run (S.protocol.lawful S.config station) (fun a ha => ?_) hrun
    have hresolved := hresolves a ha
    cases a with
    | net a =>
        show (S.protocol.meter S.config station addresses).fits a = true
        rw [hfits]
        exact hresolved
    | _ => rfl
  have hbound := hb.bound origin
  rw [most, hperCall] at hbound
  exact hbound

/-- Two of the six times that three attempts and one address allow. -/
theorem sendings_le_twice :
    ∃ w, Runs.run (step twoDevicesSetting) (start (tcpChannel (oneWordMemory.station .r)) "plc" 0)
        writtenTwice = some w ∧
      w.executed.countP (fun x => x.origin = 0) = 2 ∧
      (tcpChannel (oneWordMemory.station .r)).sendings w.world 0 ≤ 3 * (1 + 1) := by
  have hends : (Runs.run (step twoDevicesSetting)
      (start (tcpChannel (oneWordMemory.station .r)) "plc" 0) writtenTwice).map
      (fun w => w.executed.countP fun x => x.origin = 0) = some 2 := by decide +kernel
  have hresolves : writtenTwice.all
      (@resolvesAtMost _ twoDevicesSetting (oneWordMemory.station .r) 1) = true := by decide
  obtain ⟨w, hrun, hcount⟩ := Option.map_eq_some_iff.mp hends
  exact ⟨w, hrun, hcount, @sendings_le _ twoDevicesSetting (oneWordMemory.station .r) w "plc" 0 1
    writtenTwice (List.all_eq_true.mp hresolves) hrun 0⟩

end Process

end MelsecMc
