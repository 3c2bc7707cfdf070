/-
What a process can do in one action.

An action belongs to one task, to the target or to another client, and what it comes to
depends on what the task is doing: an operation is asked for and has a frame or none, a call
has ended or was cancelled, a sleep is over.  `Moves` names these cases.  Every invariant of
processes is kept by each of them, and their proofs go by its cases; what the retry loop does
next (`Process.proceed`) is one thing for all that lead to it.
-/
import MelsecMc.Operations

namespace MelsecMc

namespace Process

variable {σ : Type} {C : Channel σ}

/-- Everything an action can do. -/
inductive Moves (S : Setting) (w : Process C) : ProcessAction C → Process C → Prop
  /-- an operation without a frame -/
  | refuses {t : TaskId} {op : BatchOp} {e : Failure} (hrest : (w.task t).atRest = true)
      (hframe : (op.request S w.counter).2 = .error e) :
      Moves S w (.invoke t op) { w with
        counter := (op.request S w.counter).1
        task := Function.update w.task t (.refused op e) }
  | asks {t : TaskId} {op : BatchOp} {frame : Bytes} {w' : Process C}
      (hrest : (w.task t).atRest = true) (hframe : (op.request S w.counter).2 = .ok frame)
      (hproceed : proceed S
        { w with counter := (op.request S w.counter).1, asked := w.asked ++ [⟨op, frame⟩] } t
        ⟨⟨op, frame⟩, w.asked.length, w.executed.length⟩ (RetryPhase.start S.config) = some w') :
      Moves S w (.invoke t op) w'
  | acts {a : C.Act} {world : C.World} (hact : C.act w.world a = some world) :
      Moves S w (.net a) { w with world }
  | settles {t : TaskId} {run : OpRun} {attempt : Nat} {result : Except Failure Bytes}
      {w' : Process C} (htask : w.task t = .running run (.sending attempt))
      (hended : (C.call w.world t).bind CallView.ended = some (.returned result))
      (hproceed : w.proceed S t run (RetryPhase.onResult S.config attempt result) = some w') :
      Moves S w (.settle t) w'
  /-- the call of the operation was cancelled, and the operation with it -/
  | isCancelled {t : TaskId} {run : OpRun} {attempt : Nat}
      (htask : w.task t = .running run (.sending attempt))
      (hended : (C.call w.world t).bind CallView.ended = some .cancelled) :
      Moves S w (.settle t) { w with task := Function.update w.task t .dropped }
  | wakes {t : TaskId} {run : OpRun} {attempt : Nat} {ms : UInt64} {w' : Process C}
      (htask : w.task t = .running run (.sleeping attempt ms))
      (hproceed : w.proceed S t run (.sending (attempt + 1)) = some w') : Moves S w (.wake t) w'
  | drops {t : TaskId} {run : OpRun} {attempt : Nat} {ms : UInt64}
      (htask : w.task t = .running run (.sleeping attempt ms)) :
      Moves S w (.drop t) { w with task := Function.update w.task t .dropped }
  | takesSerial : Moves S w .takeSerial { w with counter := (nextSerial w.counter).1 }

theorem step_cases {S : Setting} {w w' : Process C} {a : ProcessAction C}
    (h : w.step S a = some w') : Moves S w a w' := by
  cases a with
  | invoke t op =>
      simp only [step] at h
      split at h
      · rename_i hrest
        cases hframe : (op.request S w.counter).2 with
        | error e =>
            rw [hframe] at h
            cases h
            exact .refuses hrest hframe
        | ok frame =>
            rw [hframe] at h
            exact .asks hrest hframe h
      · cases h
  | net a =>
      obtain ⟨world, hact, rfl⟩ := Option.map_eq_some_iff.mp h
      exact .acts hact
  | settle t =>
      simp only [step] at h
      split at h
      · rename_i run attempt htask
        split at h
        · exact .settles htask ‹_› h
        · cases h
          exact .isCancelled htask ‹_›
        · cases h
      · cases h
  | wake t =>
      simp only [step] at h
      split at h
      · exact .wakes ‹_› h
      · cases h
  | drop t =>
      simp only [step] at h
      split at h
      · cases h
        exact .drops ‹_›
      · cases h
  | takeSerial =>
      cases h
      exact .takesSerial

end Process

end MelsecMc
