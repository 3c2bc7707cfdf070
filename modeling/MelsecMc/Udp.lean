/-
Sending over UDP.

`send_and_recv_udp` goes through the addresses of its target.  For each it binds a socket of
its own and sends the frame up to a configured number of times, and after each time it
receives until a datagram answers the frame or the receive fails.  Like `TcpCall` it is a
state machine, which stops at each `await`.

`UdpPlant` is one target with its station, and any number of calls.  The network may lose
what is in flight, deliver it late, out of order or more than once, and fail anything a call
does.  A port is given to a socket when nobody has it, whatever may still be on its way to the
port from the time of an earlier socket; and since the source of a datagram is not looked at,
anybody may send anything to it.

As in `Plant`, `origin`, `since` and `executed` are for the statements only, and so is `sent`,
which records every frame that was put in flight.
-/
import MelsecMc.Plant

namespace MelsecMc

/-! ### One call -/

/-- A bound UDP socket, by its port. -/
abbrev Sock := Nat

/-- Where a call is suspended, or how it ended. -/
inductive UdpPhase
  /-- `lookup_host(addr).await` -/
  | resolving
  /-- `UdpSocket::bind`, to send to `remote` -/
  | binding (remote : SocketAddr) (addrs : List SocketAddr)
  /-- `send_to(payload, remote)` -/
  | sending (sock : Sock) (remote : SocketAddr) (addrs : List SocketAddr) (attempt : Nat)
  /-- `recv_from`, with this much room in the buffer -/
  | receiving (sock : Sock) (remote : SocketAddr) (addrs : List SocketAddr) (attempt room : Nat)
  | finished (result : Except Failure Bytes)
  /-- the future was dropped at an `await` -/
  | cancelled
  deriving DecidableEq

/-- What happens at an `await`. -/
inductive UdpEvent
  | resolved (addrs : List SocketAddr)
  | resolveFailed (e : String)
  | bound (sock : Sock)
  | bindFailed (e : String)
  | sent
  | sendFailed (e : String)
  | received (result : ReadResult)
  | cancel
  deriving DecidableEq

/-- One call of `send_and_recv_udp`. -/
structure UdpCall where
  addr : String
  payload : Bytes
  maxAttempts : Nat
  phase : UdpPhase
  deriving DecidableEq

/-- The socket the call has. -/
def UdpPhase.sock : UdpPhase → Option Sock
  | .sending sock _ _ _ => some sock
  | .receiving sock _ _ _ _ => some sock
  | _ => none

namespace UdpCall

/-- The call before its first `await`. -/
def start (addr : String) (payload : Bytes) (maxAttempts : Nat) : UdpCall where
  addr
  payload
  maxAttempts
  phase := .resolving

/-- The head of the address loop: bind a socket for the next address, or give up. -/
def nextRemote (call : UdpCall) (addrs : List SocketAddr) : UdpCall :=
  match addrs with
  | remote :: rest => { call with phase := .binding remote rest }
  | [] => { call with phase := .finished (protocolError s!"failed to send UDP to {call.addr}") }

/-- The head of the attempt loop: send, or leave the socket to the next address. -/
def nextAttempt (call : UdpCall) (sock : Sock) (remote : SocketAddr) (addrs : List SocketAddr)
    (attempt : Nat) : UdpCall :=
  if attempt < call.maxAttempts then { call with phase := .sending sock remote addrs attempt }
  else nextRemote call addrs

/-- From one `await` to the next. -/
def step (call : UdpCall) (event : UdpEvent) : Option UdpCall :=
  match call.phase, event with
  | .finished _, _ => none
  | .cancelled, _ => none
  | _, .cancel => some { call with phase := .cancelled }
  | .resolving, .resolved addrs => some (nextRemote call addrs)
  | .resolving, .resolveFailed e =>
      some { call with phase := .finished (protocolError s!"bad address {call.addr}: {e}") }
  | .binding remote addrs, .bound sock => some (nextAttempt call sock remote addrs 0)
  | .binding _ addrs, .bindFailed _ => some (nextRemote call addrs)
  | .sending sock remote addrs attempt, .sent =>
      -- every attempt has a buffer of its own
      some { call with phase := .receiving sock remote addrs attempt udpBufLen }
  | .sending sock remote addrs attempt, .sendFailed _ =>
      some (nextAttempt call sock remote addrs (attempt + 1))
  | .receiving sock remote addrs attempt room, .received result =>
      match onDatagram (serialOf call.payload) room result with
      | .waiting room => some { call with phase := .receiving sock remote addrs attempt room }
      | .returned packet => some { call with phase := .finished (.ok packet) }
      | .failed _ => some (nextAttempt call sock remote addrs (attempt + 1))
  | _, _ => none

def isDone (call : UdpCall) : Bool :=
  match call.phase with
  | .finished _ => true
  | .cancelled => true
  | _ => false

end UdpCall

/-! ### One target -/

structure UdpPlant (σ : Type) where
  addr : String
  /-- `melsec_udp_recv_attempts` -/
  maxAttempts : Nat
  call : TaskId → Option UdpCall
  /-- the ports in use -/
  ports : List Sock
  state : σ
  /-- the frames on their way to the station, with the port they come from -/
  requests : List (Sock × Request)
  /-- the answers on their way to a port -/
  answers : List (Sock × Bytes)
  executed : List (Execution σ)
  sent : List Request
  /-- the operation a task's call is made for -/
  origin : TaskId → Nat
  /-- how many requests had been served when the call began -/
  since : TaskId → Nat

inductive UdpPlantAction (σ : Type)
  /-- a task calls `send_and_recv_udp`, for an operation -/
  | begin (t : TaskId) (payload : Bytes) (origin : Nat)
  /-- something happens at the await the task's call is suspended at, and a datagram it brings
  is from elsewhere; `arrived` is whether a frame whose sending fails or is abandoned was sent
  nevertheless -/
  | event (t : TaskId) (e : UdpEvent) (arrived : Bool)
  /-- an answer on its way to the task's port is delivered -/
  | deliver (t : TaskId) (i : Nat)
  /-- the station serves a request -/
  | serve (i : Nat)
  | loseRequest (i : Nat)
  | loseAnswer (i : Nat)
  /-- the station's own program runs -/
  | change (state : σ)

namespace UdpPlant

variable {σ : Type}

/-- A target nobody has called. -/
def start (addr : String) (maxAttempts : Nat) (state : σ) : UdpPlant σ where
  addr
  maxAttempts
  call _ := none
  ports := []
  state
  requests := []
  answers := []
  executed := []
  sent := []
  origin _ := 0
  since _ := 0

/-- The system gives out a port that nobody has. -/
def mayHappen (w : UdpPlant σ) : UdpEvent → Bool
  | .bound sock => sock ∉ w.ports
  | _ => true

/-- A socket is closed when its call leaves it. -/
def portsAfter (phase phase' : UdpPhase) (ports : List Sock) : List Sock :=
  phase'.sock.toList ++ ports.filter fun sock => phase.sock ≠ some sock

/-- What an event puts in flight: the frame, when the call is sending it. -/
def sentBy (origin : Nat) (call : UdpCall) (e : UdpEvent) (arrived : Bool) :
    List (Sock × Request) :=
  match call.phase with
  | .sending sock _ _ _ => if e = .sent ∨ arrived then [(sock, ⟨origin, call.payload⟩)] else []
  | _ => []

/-- The datagram of an answer, if there is one. -/
def answerDatagram (sock : Sock) : Option Mc4eFrame → List (Sock × Bytes)
  | some f => [(sock, f.bytes)]
  | none => []

/-- The task's call goes on to its next await. -/
def stepCall (w : UdpPlant σ) (t : TaskId) (e : UdpEvent) (arrived : Bool) :
    Option (UdpPlant σ) :=
  match w.call t with
  | none => none
  | some call =>
      (call.step e).map fun call' =>
        let sent := sentBy (w.origin t) call e arrived
        { w with
          call := Function.update w.call t (some call')
          ports := portsAfter call.phase call'.phase w.ports
          requests := w.requests ++ sent
          sent := w.sent ++ sent.map Prod.snd }

/-- The station has served a request, which may still come again. -/
def served (station : Station σ) (w : UdpPlant σ) (sock : Sock) (request : Request) : UdpPlant σ :=
  let (after, answer) := station.serve w.state request.payload
  { w with
    state := after
    answers := w.answers ++ answerDatagram sock answer
    executed := w.executed ++ [⟨request.origin, request.payload, w.state, after, answer⟩] }

def step (station : Station σ) (w : UdpPlant σ) : UdpPlantAction σ → Option (UdpPlant σ)
  | .begin t payload origin =>
      if (w.call t).all UdpCall.isDone then
        some { w with
          call := Function.update w.call t (some (UdpCall.start w.addr payload w.maxAttempts))
          origin := Function.update w.origin t origin
          since := Function.update w.since t w.executed.length }
      else none
  | .event t e arrived =>
      if w.mayHappen e then w.stepCall t e arrived else none
  | .deliver t i =>
      match w.answers[i]? with
      | none => none
      | some (sock, datagram) =>
          if ((w.call t).bind fun call => call.phase.sock) = some sock then
            w.stepCall t (.received (.ok datagram)) false
          else none
  | .serve i => (w.requests[i]?).map fun p => w.served station p.1 p.2
  | .loseRequest i => some { w with requests := w.requests.eraseIdx i }
  | .loseAnswer i => some { w with answers := w.answers.eraseIdx i }
  | .change state => some { w with state }

end UdpPlant

end MelsecMc
