/-
The batch operations of a client, from the call to the result.

`read_words`, `read_bits`, `write_words` and `write_bits` are the same function but for the
command and for the helper that makes the params.  Each builds its frame, which takes a
serial once the request data is there, hands the frame to `send_and_recv_with_retry` and
looks at what comes back.  A retry sends the same frame again, over the client's protocol.

Any number of tasks run operations of one client, one after another each and at the same
time.  Of what the other clients of the process do they see the serials these take, which all
come from one counter.  `asked` and the numbers in a run are not in the source; they record which
operation a frame was made for and what the station had served when it began and when it returned.
-/
import MelsecMc.Channel
import MelsecMc.Client
import MelsecMc.ParseResponse
import MelsecMc.Retry
import MelsecMc.Words

namespace MelsecMc

/-- The transport of a protocol, which `send_and_recv_with_retry` calls. -/
def Protocol.channel {σ : Type} (config : Config) (station : Station σ) : Protocol → Channel σ
  | .tcp => tcpChannel station
  | .udp => udpChannel config.melsecUdpRecvAttempts station

/-- What the operations of a client depend on. -/
structure Setting where
  table : DeviceTable
  registry : CommandRegistry
  errors : ErrorRegistryCell
  client : McClient
  /-- `protocol` of the client -/
  protocol : Protocol
  config : Config

/-- The transport of the client. -/
def Setting.channel {σ : Type} (S : Setting) (station : Station σ) : Channel σ :=
  S.protocol.channel S.config station

inductive BatchOp
  | readWords (device : String) (count : UInt16)
  | readBits (device : String) (count : UInt16)
  | writeWords (device : String) (values : List UInt16)
  | writeBits (device : String) (values : List Bool)
  deriving DecidableEq, Repr

namespace BatchOp

def command : BatchOp → Command
  | .readWords .. => .readWords
  | .readBits .. => .readBits
  | .writeWords .. => .writeWords
  | .writeBits .. => .writeBits

def params (T : DeviceTable) : BatchOp → JsonValue
  | .readWords device count => createReadWordsParams T device count
  | .readBits device count => createReadBitsParams T device count
  | .writeWords device values => createWriteWordsParams T device values
  | .writeBits device values => createWriteBitsParams T device values

/-- The operation up to its first `await`: what becomes of the serial counter, and the
frame. -/
def request (S : Setting) (op : BatchOp) (counter : UInt16) : UInt16 × Except Failure Bytes :=
  match S.registry.get op.command with
  | none => (counter, protocolError "command not found")
  | some spec =>
      match spec.buildRequest S.table (op.params S.table) (some S.client.plcSeries) with
      | .error e => (counter, .error e)
      | .ok requestData =>
          let (counter, serial) := nextSerial counter
          (counter, do
            let mcReq ← ((McRequest.new serial).withAccessRoute
              S.client.accessRoute).tryWithRequestData requestData
            return mcReq.buildWithFormat S.client.mcFormat)

/-- The operation after its last `await`. -/
def answer (S : Setting) (op : BatchOp) (buf : Bytes) : Except Failure JsonValue :=
  match S.registry.get op.command with
  | none => protocolError "command not found"
  | some spec => do
      let response ← McResponse.tryNew buf
      McClient.checkResponseEndCode S.errors response
      spec.parseResponse S.table (op.params S.table) response.data

end BatchOp

/-! ### Typed values -/

section Typed

variable {α : Type}

/-- How many words `read_words_as` asks for. -/
def requiredWords (α : Type) [FromWords α] (count : UInt16) : Except Failure UInt16 :=
  let required := FromWords.words α % 2 ^ 32 * count.toNat
  if 2 ^ 32 ≤ required then protocolError "requested count overflow"
  else if 65535 < required then protocolError "requested count too large"
  else .ok (UInt16.ofNat required)

/-- `read_words_as` up to its parsed response: it sends what `read_words` sends. -/
def readWordsAs (α : Type) [FromWords α] (device : String) (count : UInt16) :
    Except Failure BatchOp := do
  let required ← requiredWords α count
  return .readWords device required

/-- `read_words_as` from its parsed response on. -/
def elements (α : Type) [FromWords α] (count : UInt16) (parsed : JsonValue) :
    Except Failure (List α) := do
  readElements (← collectWords parsed) count.toNat 0 0 []

/-- `write_words_as` -/
def writeWordsAs [ToWords α] (device : String) (values : List α) : BatchOp :=
  .writeWords device (flattenWords values)

end Typed

/-! ### Tasks -/

/-- An operation that has its frame. -/
structure Asked where
  op : BatchOp
  frame : Bytes
  deriving DecidableEq

/-- The operation a task is running, which is number `origin` of those asked for. -/
structure OpRun extends Asked where
  origin : Nat
  /-- how many requests the station had served before -/
  since : Nat

/-- What the operation has the transport send. -/
def OpRun.request (run : OpRun) : Request := ⟨run.origin, run.frame⟩

/-- What a task is doing. -/
inductive OpState
  | idle
  /-- no frame was made -/
  | refused (op : BatchOp) (e : Failure)
  | running (run : OpRun) (phase : RetryPhase)
  /-- `upTo` requests had been served by then -/
  | returned (run : OpRun) (result : Except Failure JsonValue) (upTo : Nat)
  /-- the task was cancelled -/
  | dropped

def OpState.atRest : OpState → Bool
  | .running _ _ => false
  | _ => true

/-- The operation a task runs or has returned from. -/
def OpState.run? : OpState → Option OpRun
  | .running run _ => some run
  | .returned run _ _ => some run
  | _ => none

structure Process {σ : Type} (C : Channel σ) where
  /-- `SERIAL_COUNTER` -/
  counter : UInt16
  world : C.World
  /-- the operations that came to have a frame -/
  asked : List Asked
  task : TaskId → OpState

inductive ProcessAction {σ : Type} (C : Channel σ)
  /-- a task calls an operation -/
  | invoke (t : TaskId) (op : BatchOp)
  /-- something happens to the target, but not that a call begins -/
  | net (a : C.Act)
  /-- a task sees that its call has ended -/
  | settle (t : TaskId)
  /-- the sleep of a task is over -/
  | wake (t : TaskId)
  /-- a task is cancelled in its sleep -/
  | drop (t : TaskId)
  /-- another client of the process makes a request -/
  | takeSerial

namespace Process

variable {σ : Type} {C : Channel σ}

/-- The process before its first operation. -/
def start (C : Channel σ) (addr : String) (state : σ) : Process C where
  counter := serialCounterStart
  world := C.start addr state
  asked := []
  task _ := .idle

/-- What the station has served. -/
def executed (w : Process C) : List (Execution σ) :=
  C.executed w.world

/-- The retry loop goes on: it calls the transport, sleeps or returns. -/
def proceed (S : Setting) (w : Process C) (t : TaskId) (run : OpRun) (phase : RetryPhase) :
    Option (Process C) :=
  match phase with
  | .sending _ =>
      (C.begin w.world t run.request).map fun world =>
        { w with world, task := Function.update w.task t (.running run phase) }
  | .sleeping _ _ => some { w with task := Function.update w.task t (.running run phase) }
  | .finished result =>
      some { w with
        task := Function.update w.task t
          (.returned run (result >>= run.op.answer S) w.executed.length) }

def step (S : Setting) (w : Process C) : ProcessAction C → Option (Process C)
  | .invoke t op =>
      if (w.task t).atRest then
        let (counter, frame) := op.request S w.counter
        match frame with
        | .error e => some { w with counter, task := Function.update w.task t (.refused op e) }
        | .ok frame =>
            let asked : Asked := { op, frame }
            proceed S { w with counter, asked := w.asked ++ [asked] } t
              { asked with origin := w.asked.length, since := w.executed.length }
              (RetryPhase.start S.config)
      else none
  | .net a => (C.act w.world a).map fun world => { w with world }
  | .settle t =>
      match w.task t with
      | .running run (.sending attempt) =>
          match (C.call w.world t).bind CallView.ended with
          | some (.returned result) =>
              w.proceed S t run (RetryPhase.onResult S.config attempt result)
          | some .cancelled => some { w with task := Function.update w.task t .dropped }
          | none => none
      | _ => none
  | .wake t =>
      match w.task t with
      | .running run (.sleeping attempt ms) =>
          w.proceed S t run (RetryPhase.onWake (.sleeping attempt ms))
      | _ => none
  | .drop t =>
      match w.task t with
      | .running _ (.sleeping _ _) => some { w with task := Function.update w.task t .dropped }
      | _ => none
  | .takeSerial => some { w with counter := (nextSerial w.counter).1 }

end Process

end MelsecMc
