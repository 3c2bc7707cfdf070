/-
A transport, as its callers see it.

`send_and_recv_with_retry` calls `send_and_recv_tcp` or `send_and_recv_udp`, and all it sees
of a call is that it has ended, and how.  A channel is one of the two with the network and the
station behind it.  A call is seen with the frame it was made with and with the number that
says how much the station had served when it began.
-/
import MelsecMc.Plant
import MelsecMc.Udp

namespace MelsecMc

/-- How a call ended. -/
inductive CallEnd
  | returned (result : Except Failure Bytes)
  | cancelled
  deriving DecidableEq

/-- A task's latest call. -/
structure CallView where
  /-- the frame and the operation it is sent for -/
  request : Request
  /-- how many requests had been served when the call began -/
  since : Nat
  ended : Option CallEnd
  deriving DecidableEq

structure Channel (σ : Type) where
  World : Type
  Act : Type
  /-- the target with this name, and its station in this state, before the first call -/
  start : String → σ → World
  /-- a task calls the transport, with a request -/
  begin : World → TaskId → Request → Option World
  /-- anything else happens -/
  act : World → Act → Option World
  /-- the station's own program runs -/
  changes : Act → Bool
  call : World → TaskId → Option CallView
  /-- the requests on their way to the station -/
  inFlight : World → List Request
  executed : World → List (Execution σ)
  state : World → σ
  /-- how often an operation's frame was put in flight -/
  sendings : World → Nat → Nat

/-! ### TCP -/

def TcpCall.ended (call : TcpCall) : Option CallEnd :=
  match call.phase with
  | .finished result => some (.returned result)
  | .cancelled => some .cancelled
  | _ => none

def PlantAction.begins {σ : Type} : PlantAction σ → Bool
  | .begin .. => true
  | _ => false

def PlantAction.changes {σ : Type} : PlantAction σ → Bool
  | .change _ => true
  | _ => false

namespace Plant

variable {σ : Type}

/-- The requests of an operation that are in flight or were served. -/
def delivered (w : Plant σ) (origin : Nat) : Nat :=
  w.pending.countP (fun p => p.2.origin = origin) + w.executed.countP (fun x => x.origin = origin)

def view (w : Plant σ) (t : TaskId) : Option CallView :=
  (w.pool.call t).map fun call => ⟨⟨w.origin t, call.payload⟩, w.since t, call.ended⟩

end Plant

/-- `send_and_recv_tcp` -/
def tcpChannel {σ : Type} (station : Station σ) : Channel σ where
  World := Plant σ
  Act := PlantAction σ
  start := Plant.start
  begin w t request := w.step station (.begin t request.payload request.origin)
  act w a := if a.begins then none else w.step station a
  changes := PlantAction.changes
  call := Plant.view
  inFlight w := w.pending.map Prod.snd
  executed := Plant.executed
  state := Plant.state
  sendings := Plant.delivered

/-! ### UDP -/

def UdpCall.ended (call : UdpCall) : Option CallEnd :=
  match call.phase with
  | .finished result => some (.returned result)
  | .cancelled => some .cancelled
  | _ => none

def UdpPlantAction.begins {σ : Type} : UdpPlantAction σ → Bool
  | .begin .. => true
  | _ => false

def UdpPlantAction.changes {σ : Type} : UdpPlantAction σ → Bool
  | .change _ => true
  | _ => false

/-- The call a task sees. -/
def UdpPlant.view {σ : Type} (w : UdpPlant σ) (t : TaskId) : Option CallView :=
  (w.call t).map fun call => ⟨⟨w.origin t, call.payload⟩, w.since t, call.ended⟩

/-- `send_and_recv_udp` -/
def udpChannel {σ : Type} (maxAttempts : Nat) (station : Station σ) : Channel σ where
  World := UdpPlant σ
  Act := UdpPlantAction σ
  start addr := UdpPlant.start addr maxAttempts
  begin w t request := w.step station (.begin t request.payload request.origin)
  act w a := if a.begins then none else w.step station a
  changes := UdpPlantAction.changes
  call := UdpPlant.view
  inFlight w := w.requests.map Prod.snd
  executed := UdpPlant.executed
  state := UdpPlant.state
  sendings w origin := w.sent.countP fun request => request.origin = origin

end MelsecMc
