/-
A process with many callers.

Any number of tasks share the serial counter and the map of cached connections.  A task
makes a request with `McRequest::new()` and its builder, sends the MC4E frame of it with
`send_and_recv_tcp`, and is then moved on by what happens at that call's awaits.  Nothing
is said about the order: an action is one step of one task, and a run is any list of
actions.  What a peer sends is whatever the read events of the run bring.

The counter is updated by one `fetch_update`, so taking a serial is one step.  The lock
on a target's connection is what `holder` records: a call can take it only when nobody
has it, and gives it back when it ends.
-/
import Mathlib.Logic.Function.Basic
import MelsecMc.Transport

namespace MelsecMc

abbrev TaskId := Nat

/-- What a task is doing. -/
inductive TaskState
  | idle
  /-- has a request and has not sent it -/
  | ready (req : McRequest)
  /-- sent the frame of `req`; the call may have ended -/
  | calling (req : McRequest) (call : TcpCall)

structure World where
  /-- `SERIAL_COUNTER` -/
  counter : UInt16
  /-- the serials handed out so far, oldest first -/
  issued : List UInt16
  /-- the cached connection of each target -/
  slot : String → Option Conn
  /-- the task that holds the lock on a target's connection -/
  holder : String → Option TaskId
  task : TaskId → TaskState

/-- One step of one task. -/
inductive Action
  /-- `McRequest::new()` and then these builder methods -/
  | create (t : TaskId) (calls : List McRequest.BuilderCall)
  /-- `send_and_recv_tcp` with the MC4E frame of the task's request -/
  | send (t : TaskId) (addr : String)
  /-- something happens at the await the task's call is suspended at -/
  | event (t : TaskId) (e : CallEvent)

/-- Every builder method but `with_serial_number` keeps the serial `new` took. -/
def McRequest.BuilderCall.keepsSerial : McRequest.BuilderCall → Bool
  | .withSerialNumber _ => false
  | _ => true

/-- The call returned, or was cancelled. -/
def TcpCall.isDone (call : TcpCall) : Bool :=
  match call.phase with
  | .finished _ | .cancelled => true
  | _ => false

/-- A task inside a call does nothing else until the call ends. -/
def TaskState.atRest : TaskState → Bool
  | .idle | .ready _ => true
  | .calling _ call => call.isDone

namespace World

/-- The process before its first request. -/
def start : World where
  counter := serialCounterStart
  issued := []
  slot _ := none
  holder _ := none
  task _ := .idle

/-- What `McRequest::new()` and the builder methods leave the task with. -/
def created (serial : UInt16) (calls : List McRequest.BuilderCall) : TaskState :=
  match (McRequest.new serial).applyCalls calls with
  | .ok req => .ready req
  | .error _ => .idle

/-- `send_and_recv_tcp` is called with the MC4E frame of `req`. -/
def startCall (w : World) (t : TaskId) (addr : String) (req : McRequest) : World :=
  { w with
    task := Function.update w.task t
      (.calling req (TcpCall.start addr (req.buildWithFormat .mc4e))) }

/-- Who holds the lock on the target's connection after `t` went through `e`. -/
def holderAfter (t : TaskId) (e : CallEvent) (call : TcpCall) (holder : Option TaskId) :
    Option TaskId :=
  let held := match e with
    | .locked _ => some t
    | _ => holder
  if call.isDone ∧ held = some t then none else held

/-- A lock can be taken only when it is free. -/
def mayHappen (w : World) (call : TcpCall) : CallEvent → Bool
  | .locked _ => (w.holder call.addr).isNone
  | _ => true

def step (w : World) : Action → Option World
  | .create t calls =>
      if (w.task t).atRest ∧ calls.all (·.keepsSerial) then
        let (counter, serial) := nextSerial w.counter
        some { w with
          counter
          issued := w.issued ++ [serial]
          task := Function.update w.task t (created serial calls) }
      else none
  | .send t addr =>
      match w.task t with
      | .idle => none
      | .ready req => some (w.startCall t addr req)
      | .calling req call => if call.isDone then some (w.startCall t addr req) else none
  | .event t e =>
      match w.task t with
      | .calling req call =>
          if w.mayHappen call e then
            match call.step (w.slot call.addr) e with
            | some (slot, call') =>
                some { w with
                  slot := Function.update w.slot call.addr slot
                  holder := Function.update w.holder call.addr
                    (holderAfter t e call' (w.holder call.addr))
                  task := Function.update w.task t (.calling req call') }
            | none => none
          else none
      | _ => none

end World

end MelsecMc
