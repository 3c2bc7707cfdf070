/-
One target's connection, shared by many calls.

Any number of tasks call `send_and_recv_tcp` for one target, with any payload, one call
after another or at the same time.  The calls meet in the target's slot and in the lock on
it.  What happens at a call's awaits comes from outside, a cancellation included; of a
connect it is only known that it opens a stream nobody had before.

The last two fields are not in the source.  They record, for the statements about a whole
run, how the most recent exchange went and which streams must not be used again.
-/
import MelsecMc.Session

namespace MelsecMc

/-- The stream an exchange is running on: `perform_stream_io` has it. -/
def CallPhase.exchange : CallPhase → Option Conn
  | .writing conn _ => some conn
  | .reading conn _ _ => some conn
  | _ => none

/-- The call holds the lock on the target's connection. -/
def CallPhase.holdsLock : CallPhase → Bool
  | .writing _ _ | .reading _ _ _ | .connecting _ _ => true
  | _ => false

/-- The call returned a frame. -/
def CallPhase.isOk : CallPhase → Bool
  | .finished (.ok _) => true
  | _ => false

/-- How an exchange went. -/
inductive ExchangeResult
  | running
  | succeeded
  /-- an I/O error, a timeout, a panic or a cancellation -/
  | failed
  deriving DecidableEq, Repr

structure Pool where
  addr : String
  slot : Option Conn
  /-- the task that holds the lock -/
  holder : Option TaskId
  /-- the streams that were opened -/
  opened : List Conn
  call : TaskId → Option TcpCall
  /-- the most recent exchange -/
  latest : Option (Conn × ExchangeResult)
  /-- the streams an exchange failed on, and those that expired in the slot -/
  spent : List Conn

inductive PoolAction
  /-- a task calls `send_and_recv_tcp` -/
  | begin (t : TaskId) (payload : Bytes)
  /-- something happens at the await the task's call is suspended at -/
  | event (t : TaskId) (e : CallEvent)
  deriving DecidableEq

namespace Pool

/-- A target nobody has called. -/
def start (addr : String) : Pool where
  addr
  slot := none
  holder := none
  opened := []
  call := fun _ => none
  latest := none
  spent := []

/-- The lock is taken when it is free, and a connect opens a new stream. -/
def mayHappen (w : Pool) : CallEvent → Bool
  | .locked _ => w.holder.isNone
  | .connected conn => conn ∉ w.opened
  | _ => true

def openedAfter (opened : List Conn) : CallEvent → List Conn
  | .connected conn => conn :: opened
  | _ => opened

/-- The most recent exchange after a call went from one phase to another. -/
def latestAfter (phase phase' : CallPhase) (latest : Option (Conn × ExchangeResult)) :
    Option (Conn × ExchangeResult) :=
  match phase'.exchange with
  | some conn => some (conn, .running)
  | none =>
      match phase.exchange with
      | some conn => some (conn, if phase'.isOk then .succeeded else .failed)
      | none => latest

/-- The streams that must not be used after that: one whose exchange ended without a frame,
and one that was taken from the slot and had expired. -/
def spentAfter (phase phase' : CallPhase) (slot : Option Conn) (e : CallEvent)
    (spent : List Conn) : List Conn :=
  let failed := match phase.exchange with
    | some conn => if phase'.exchange = none ∧ phase'.isOk = false then [conn] else []
    | none => []
  let expired := if e = .locked false then slot.toList else []
  failed ++ expired ++ spent

def step (w : Pool) : PoolAction → Option Pool
  | .begin t payload =>
      if (w.call t).all TcpCall.isDone then
        some { w with call := Function.update w.call t (some (TcpCall.start w.addr payload)) }
      else none
  | .event t e =>
      match w.call t with
      | none => none
      | some call =>
          if w.mayHappen e then
            match call.step w.slot e with
            | none => none
            | some (slot, call') =>
                some {
                  addr := w.addr
                  slot
                  holder := World.holderAfter t e call' w.holder
                  opened := openedAfter w.opened e
                  call := Function.update w.call t (some call')
                  latest := latestAfter call.phase call'.phase w.latest
                  spent := spentAfter call.phase call'.phase w.slot e w.spent }
          else none

end Pool

end MelsecMc
