/-
Many targets.

A process may talk to any number of targets, and its tasks may go from one to another.  What
the calls for one target do to its cached connection and to the lock on it is a run of `Pool`,
whatever the calls for the other targets do in between: nothing but the serial counter is
shared.  So what is true of every run of `Pool` is true of every target of every process.

Which calls are for the same target is decided by a string, and two targets of the builder
have the same one only when they have the same host and the same port.
-/
import MelsecMc.Endpoint
import MelsecMc.Lib.Runs
import MelsecMc.Proofs.Pool
import MelsecMc.Proofs.Text

namespace MelsecMc

namespace World

/-! ### One target of a process

Seen from one target, a task that calls another target does nothing, and when it comes back its
next call is a new one.  `Shows` is the simulation between the process and the pool of the
target.
-/

/-- What an action is for the target: its own calls' actions, and nothing else. -/
def project (target : String) (w : World) : Action → List PoolAction
  | .create _ _ => []
  | .send t addr =>
      if addr = target then
        ((w.task t).request.map fun req =>
          PoolAction.begin t (req.buildWithFormat .mc4e)).toList
      else []
  | .event t e =>
      match w.task t with
      | .calling _ call => if call.addr = target then [.event t e] else []
      | _ => []

/-- The stream an action opens. -/
def connects : Action → Option Conn
  | .event _ (.connected conn) => some conn
  | _ => none

/-- The pool is what the process has for the target; `actions` are still to come. -/
structure Shows (target : String) (actions : List Action) (w : World) (p : Pool) : Prop where
  addr : p.addr = target
  slot : p.slot = w.slot target
  holder : p.holder = w.holder target
  calling : ∀ t req call, w.task t = .calling req call → call.addr = target →
    p.call t = some call
  /-- a task that does something else has no call for the target that goes on -/
  elsewhere : ∀ t, (∀ req call, w.task t = .calling req call → call.addr ≠ target) →
    (p.call t).all TcpCall.isDone = true
  /-- the streams that will be opened are new ones -/
  fresh : ∀ conn ∈ p.opened, conn ∉ actions.filterMap connects
  distinct : (actions.filterMap connects).Nodup

section Shows

variable {target : String} {a : Action} {actions : List Action} {w w' : World} {p : Pool}
  {t : TaskId}

theorem shows_start (target : String) (hdistinct : (actions.filterMap connects).Nodup) :
    Shows target actions start (Pool.start target) where
  addr := rfl
  slot := rfl
  holder := rfl
  calling t req call h := by cases h
  elsewhere t h := rfl
  fresh conn h := absurd h List.not_mem_nil
  distinct := hdistinct

theorem connects_tail : (actions.filterMap connects).Sublist ((a :: actions).filterMap connects) :=
  (List.sublist_cons_self a actions).filterMap connects

/-- A task that may begin something has no call for the target that goes on. -/
theorem Shows.done_of_rest (h : Shows target actions w p) (hrest : (w.task t).atRest = true) :
    (p.call t).all TcpCall.isDone = true := by
  by_cases hcalling : ∃ req call, w.task t = .calling req call ∧ call.addr = target
  · obtain ⟨req, call, htask, haddr⟩ := hcalling
    rw [h.calling t req call htask haddr]
    rw [htask] at hrest
    exact hrest
  · refine h.elsewhere t fun req call htask haddr => hcalling ⟨req, call, htask, haddr⟩

/-- One task does something that the target does not see. -/
theorem Shows.unseen (h : Shows target (a :: actions) w p) {task : TaskState}
    (htask : w'.task = Function.update w.task t task) (hslot : w'.slot target = w.slot target)
    (hholder : w'.holder target = w.holder target)
    (hother : ∀ req call, task = .calling req call → call.addr ≠ target)
    (hdone : (p.call t).all TcpCall.isDone = true) : Shows target actions w' p := by
  have hself : w'.task t = task := by rw [htask, Function.update_self]
  refine ⟨h.addr, h.slot.trans hslot.symm, h.holder.trans hholder.symm, ?_, ?_, ?_, ?_⟩
  · intro u req call hcalling haddr
    by_cases hu : u = t
    · rw [hu, hself] at hcalling
      exact absurd haddr (hother req call hcalling)
    · rw [htask, Function.update_of_ne hu] at hcalling
      exact h.calling u req call hcalling haddr
  · intro u helsewhere
    by_cases hu : u = t
    · rw [hu]
      exact hdone
    · rw [htask, Function.update_of_ne hu] at helsewhere
      exact h.elsewhere u helsewhere
  · exact fun conn hconn hmem => h.fresh conn hconn (connects_tail.subset hmem)
  · exact h.distinct.sublist connects_tail

/-- A task's call for the target begins or goes on. -/
theorem Shows.seen (h : Shows target (a :: actions) w p) {p' : Pool} {req : McRequest}
    {call : TcpCall} (haddr : call.addr = target)
    (htask : w'.task = Function.update w.task t (.calling req call))
    (hcall : p'.call = Function.update p.call t (some call)) (hp : p'.addr = p.addr)
    (hslot : p'.slot = w'.slot target) (hholder : p'.holder = w'.holder target)
    (hopened : ∀ conn ∈ p'.opened, conn ∈ p.opened ∨ connects a = some conn) :
    Shows target actions w' p' := by
  have hself : w'.task t = .calling req call := by rw [htask, Function.update_self]
  refine ⟨hp.trans h.addr, hslot, hholder, ?_, ?_, ?_, h.distinct.sublist connects_tail⟩
  · intro u req' call' hcalling haddr'
    by_cases hu : u = t
    · rw [hu, hself, TaskState.calling.injEq] at hcalling
      rw [hu, hcall, Function.update_self, hcalling.2]
    · rw [htask, Function.update_of_ne hu] at hcalling
      rw [hcall, Function.update_of_ne hu]
      exact h.calling u req' call' hcalling haddr'
  · intro u helsewhere
    by_cases hu : u = t
    · rw [hu] at helsewhere
      exact absurd haddr (helsewhere req call hself)
    · rw [htask, Function.update_of_ne hu] at helsewhere
      rw [hcall, Function.update_of_ne hu]
      exact h.elsewhere u helsewhere
  · intro conn hconn hmem
    rcases hopened conn hconn with hold | hnew
    · exact h.fresh conn hold (connects_tail.subset hmem)
    · have hdistinct := h.distinct
      rw [List.filterMap_cons_some hnew] at hdistinct
      exact (List.nodup_cons.mp hdistinct).1 hmem

/-- What may happen to a call in the process may happen to it in the pool. -/
theorem Shows.mayHappen (h : Shows target (.event t e :: actions) w p) {call : TcpCall}
    (haddr : call.addr = target) (hmay : w.mayHappen call e = true) : p.mayHappen e = true := by
  cases e with
  | locked fresh =>
      have hfree : (w.holder call.addr).isNone = true := hmay
      rw [haddr, ← h.holder] at hfree
      exact hfree
  | connected conn =>
      refine decide_eq_true fun hconn => h.fresh conn hconn ?_
      exact List.mem_filterMap.mpr ⟨_, List.mem_cons_self, rfl⟩
  | _ => rfl

theorem connects_of_opened {opened : List Conn} {e : CallEvent} {conn : Conn}
    (h : conn ∈ Pool.openedAfter opened e) :
    conn ∈ opened ∨ connects (.event t e) = some conn := by
  cases e with
  | connected new =>
      rcases List.mem_cons.mp h with rfl | hold
      · exact .inr rfl
      · exact .inl hold
  | _ => exact .inl h

theorem Shows.step (h : Shows target (a :: actions) w p) (hstep : w.step a = some w') :
    ∃ p', Runs.run Pool.step p (project target w a) = some p' ∧ Shows target actions w' p' := by
  obtain ⟨t, calls, rfl, hrest, -, rfl⟩ | ⟨t, addr, req, rfl, hrest, hreq, rfl⟩ |
    ⟨t, e, req, call, slot, call', rfl, htask, hmay, hcall, rfl⟩ := step_cases hstep
  · refine ⟨p, rfl, h.unseen rfl rfl rfl ?_ (h.done_of_rest hrest)⟩
    intro req call hcreated
    unfold created at hcreated
    split at hcreated <;> cases hcreated
  · by_cases haddr : addr = target
    · have hdone := h.done_of_rest hrest
      have hbegin : p.step (.begin t (req.buildWithFormat .mc4e)) = some { p with
          call := Function.update p.call t
            (some (TcpCall.start addr (req.buildWithFormat .mc4e))) } := by
        simp only [Pool.step, hdone, if_true, h.addr, haddr]
      refine ⟨{ p with call := Function.update p.call t _ }, ?_,
        h.seen haddr rfl rfl rfl h.slot h.holder fun conn hconn => .inl hconn⟩
      rw [project, if_pos haddr, hreq]
      show Runs.run Pool.step p [.begin t (req.buildWithFormat .mc4e)] = _
      rw [Runs.run, hbegin]
      rfl
    · refine ⟨p, ?_, h.unseen rfl rfl rfl ?_ (h.done_of_rest hrest)⟩
      · rw [project, if_neg haddr]
        rfl
      · intro req' call hcalling
        cases hcalling
        exact haddr
  · have haddr' : call'.addr = call.addr := (TcpCall.step_spec hcall).addr
    by_cases haddr : call.addr = target
    · have hevent : p.step (.event t e) = some (p.after t e call slot call') := by
        refine Pool.step_eq_after (h.calling t req call htask haddr) (h.mayHappen haddr hmay) ?_
        rw [h.slot, ← haddr]
        exact hcall
      refine ⟨p.after t e call slot call', ?_,
        h.seen (haddr'.trans haddr) rfl rfl rfl ?_ ?_ fun _ => connects_of_opened⟩
      · rw [project]
        simp only [htask, if_pos haddr]
        rw [Runs.run, hevent]
        rfl
      · show slot = Function.update w.slot call.addr slot target
        rw [haddr, Function.update_self]
      · show holderAfter t e call' p.holder =
          Function.update w.holder call.addr (holderAfter t e call' (w.holder call.addr)) target
        rw [haddr, Function.update_self, h.holder]
    · refine ⟨p, ?_, h.unseen rfl ?_ ?_ ?_ ?_⟩
      · rw [project]
        simp only [htask, if_neg haddr]
        rfl
      · exact Function.update_of_ne (Ne.symm haddr) _ _
      · exact Function.update_of_ne (Ne.symm haddr) _ _
      · intro req' other hcalling
        rw [TaskState.calling.injEq] at hcalling
        rw [← hcalling.2, haddr']
        exact haddr
      · refine h.elsewhere t fun req' other hcalling => ?_
        rw [htask, TaskState.calling.injEq] at hcalling
        rw [← hcalling.2]
        exact haddr

end Shows

/-! ### Every run -/

/-- **Targets are independent.**  In every process, with any number of targets and tasks, what
happened to a target is a run of its pool: its cached connection and its lock are the pool's,
and so are the calls for it.  Streams are told apart by what they were opened with. -/
theorem targets_are_independent {actions : List Action} {w : World}
    (hdistinct : (actions.filterMap connects).Nodup)
    (hrun : Runs.run step start actions = some w) (target : String) :
    ∃ p, Runs.run Pool.step (Pool.start target)
        ((Runs.trace step start actions).flatMap fun s => project target s.1 s.2) = some p ∧
      p.slot = w.slot target ∧ p.holder = w.holder target ∧
      (∀ t req call, w.task t = .calling req call → call.addr = target → p.call t = some call) ∧
      (∀ t, (∀ req call, w.task t = .calling req call → call.addr ≠ target) →
        ∀ call, p.call t = some call → call.isDone = true) ∧ p.Inv := by
  obtain ⟨p, hpool, hshows⟩ := Runs.run_simulates
    (fun _ _ _ _ _ h hstep => h.step hstep) actions (shows_start target hdistinct) hrun
  refine ⟨p, hpool, hshows.slot, hshows.holder, hshows.calling, ?_, Pool.inv_run hpool⟩
  intro t helsewhere call hcall
  have hdone := hshows.elsewhere t helsewhere
  rw [hcall] at hdone
  exact hdone

/-- Two tasks and two targets; the first task goes to the second target when it is done with
the first one. -/
def twoTargets : List Action :=
  [.create 0 [], .create 1 [], .send 0 "a", .send 1 "b", .event 0 (.resolved ["x"]),
    .event 1 (.resolved ["y"]), .event 0 (.locked false), .event 1 (.locked false),
    .event 0 (.connected 7), .event 1 (.connected 8), .event 1 .wrote, .event 0 .wrote,
    .event 0 (.read (.ok [0xD4, 0, 2, 0, 0, 0, 0, 255, 255, 3, 0, 2, 0, 0, 0])), .create 0 [],
    .send 0 "b", .event 0 (.resolved ["y"])]

theorem targets_are_independent_two :
    ∃ w, Runs.run step start twoTargets = some w ∧ w.slot "a" = some 7 ∧ w.holder "b" = some 1 ∧
      ∃ p, Runs.run Pool.step (Pool.start "b")
          ((Runs.trace step start twoTargets).flatMap fun s => project "b" s.1 s.2) = some p ∧
        p.slot = w.slot "b" ∧ p.holder = w.holder "b" := by
  have hends : (Runs.run step start twoTargets).map (fun w => (w.slot "a", w.holder "b")) =
      some (some 7, some 1) := by decide +kernel
  obtain ⟨w, hrun, hw⟩ := Option.map_eq_some_iff.mp hends
  rw [Prod.mk.injEq] at hw
  obtain ⟨p, hpool, hslot, hholder, -⟩ := targets_are_independent (by decide) hrun "b"
  exact ⟨w, hrun, hw.1, hw.2, p, hpool, hslot, hholder⟩

end World

/-! ### Which targets are the same

The address is made of the host, a colon and the port in decimal digits.  A host may have colons
of its own, but the digits have none, so the last colon is the one between the two.
-/

namespace ConnectionTarget

theorem colon_notMem_repr (n : Nat) : ':' ∉ n.repr.toList := by
  intro hcolon
  rw [Nat.toList_repr] at hcolon
  have hdigit := Nat.isDigit_of_mem_toDigits (by decide) (by decide) hcolon
  revert hdigit
  decide

theorem repr_injective {n m : Nat} (h : n.repr.toList = m.repr.toList) : n = m := by
  rw [Nat.toList_repr, Nat.toList_repr] at h
  rw [← @Nat.ofDigitChars_ten_toDigits n, h, Nat.ofDigitChars_ten_toDigits]

/-- Read backwards, an address is the port up to the first colon. -/
theorem splitOnce_formatAddr (ip : String) (port : UInt16) :
    Text.splitOnce ':' (formatAddr ip port).toList.reverse =
      some (port.toNat.repr.toList.reverse, ip.toList.reverse) := by
  refine Text.splitOnce_eq_some_iff.mpr ⟨?_, ?_⟩
  · rw [formatAddr, String.toList_append, String.toList_append, List.reverse_append,
      List.reverse_append, show ":".toList = [':'] from rfl, List.reverse_singleton]
    rfl
  · rw [List.mem_reverse]
    exact colon_notMem_repr port.toNat

theorem formatAddr_injective {ip ip' : String} {port port' : UInt16}
    (h : formatAddr ip port = formatAddr ip' port') : ip = ip' ∧ port = port' := by
  have hsplit := splitOnce_formatAddr ip port
  rw [h, splitOnce_formatAddr ip' port', Option.some.injEq, Prod.mk.injEq] at hsplit
  obtain ⟨hport, hip⟩ := hsplit
  exact ⟨String.toList_inj.mp (List.reverse_injective hip.symm),
    UInt16.toNat_inj.mp (repr_injective (List.reverse_injective hport.symm))⟩

/-- The builder keeps the address in step. -/
theorem addr_built (calls : List BuilderCall) :
    (built calls).addr = formatAddr (built calls).ip (built calls).port := by
  have hfold : ∀ (calls : List BuilderCall) (self : ConnectionTarget),
      self.addr = formatAddr self.ip self.port →
        (calls.foldl apply self).addr =
          formatAddr (calls.foldl apply self).ip (calls.foldl apply self).port := by
    intro calls
    induction calls with
    | nil => exact fun self h => h
    | cons call calls ih =>
        intro self h
        refine ih _ ?_
        cases call with
        | withAccessRoute route => exact h
        | withIp ip => rfl
        | withPort port => rfl
        | build => exact h
  exact hfold calls new rfl

/-- **Targets share a connection only when they are the same endpoint.**  However two targets
were built, they have the same address, by which the cached connections are found, exactly when
they have the same host and the same port. -/
theorem addr_eq_iff (calls calls' : List BuilderCall) :
    (built calls).addr = (built calls').addr ↔
      (built calls).ip = (built calls').ip ∧ (built calls).port = (built calls').port := by
  rw [addr_built, addr_built]
  constructor
  · exact formatAddr_injective
  · rintro ⟨hip, hport⟩
    rw [hip, hport]

end ConnectionTarget

end MelsecMc
