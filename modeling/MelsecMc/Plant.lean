/-
One target with its station.

The calls of `Pool` are given something to talk to.  What a call writes is in flight until
the station has served it, and what the station answers is there to be read, on the stream
the request came in on.  The station serves the requests of a stream in order and is
otherwise free: it may leave a request unanswered, take any time, serve a request whose
call has long given up, and change its state by itself between two of them.  The network
may fail a write after the request has got through, fail any read or close any stream, and
it cuts an answer into reads as it likes, 4096 bytes at most.

`origin`, `since` and `executed` are not in the source.  They record for the statements
which operation a call is made for, how much had been executed when the call began, and
what the station did.
-/
import MelsecMc.Lib.Mailboxes
import MelsecMc.Pool
import MelsecMc.Reuse

namespace MelsecMc

/-- A station: what it does with a request, and the answer, which repeats the serial. -/
structure Station (σ : Type) where
  serve : σ → Bytes → σ × Option Mc4eFrame
  echoes : ∀ s request f, (serve s request).2 = some f → f.serial = serialOf request

/-- A request in flight. -/
structure Request where
  origin : Nat
  payload : Bytes
  deriving DecidableEq

/-- A request the station has served. -/
structure Execution (σ : Type) where
  origin : Nat
  payload : Bytes
  before : σ
  after : σ
  answer : Option Mc4eFrame

section Log

variable {σ : Type}

/-- Since that moment the frame was served for its operation, with this answer. -/
def ServedIn (log : List (Execution σ)) (since : Nat) (request : Request)
    (answer : Option Mc4eFrame) : Prop :=
  ∃ x ∈ log.drop since,
    x.origin = request.origin ∧ x.payload = request.payload ∧ x.answer = answer

variable {log log' : List (Execution σ)} {since : Nat} {request : Request}
  {answer : Option Mc4eFrame}

theorem ServedIn.mono (h : ServedIn log since request answer) (hlog : log <+: log') :
    ServedIn log' since request answer := by
  obtain ⟨x, hx, hserved⟩ := h
  obtain ⟨more, rfl⟩ := hlog
  refine ⟨x, ?_, hserved⟩
  rw [List.drop_append]
  exact List.mem_append_left _ hx

/-- It was served since any earlier moment. -/
theorem ServedIn.of_le (h : ServedIn log since request answer) {since' : Nat}
    (hle : since' ≤ since) : ServedIn log since' request answer := by
  obtain ⟨x, hx, hserved⟩ := h
  exact ⟨x, (List.drop_sublist_drop_left _ hle).subset hx, hserved⟩

/-- What is logged last was served lately. -/
theorem servedIn_append (hsince : since ≤ log.length) (before after : σ) :
    ServedIn (log ++ [⟨request.origin, request.payload, before, after, answer⟩]) since request
      answer := by
  refine ⟨⟨request.origin, request.payload, before, after, answer⟩, ?_, rfl, rfl, rfl⟩
  rw [List.drop_append_of_le_length hsince]
  exact List.mem_append_right _ List.mem_cons_self

/-- The log says what the station did. -/
def Logged (station : Station σ) (log : List (Execution σ)) : Prop :=
  ∀ x ∈ log, station.serve x.before x.payload = (x.after, x.answer)

variable {station : Station σ}

theorem Logged.append (h : Logged station log) {x : Execution σ}
    (hx : station.serve x.before x.payload = (x.after, x.answer)) :
    Logged station (log ++ [x]) := by
  intro y hy
  rcases List.mem_append.mp hy with hy | hy
  · exact h y hy
  · rw [List.mem_singleton] at hy
    exact hy ▸ hx

/-- An answer carries the serial of its request. -/
theorem Logged.serial_of_servedIn (h : Logged station log) {f : Mc4eFrame}
    (hserved : ServedIn log since request (some f)) : f.serial = serialOf request.payload := by
  obtain ⟨x, hx, -, hpayload, hanswer⟩ := hserved
  have hserve := h x (List.mem_of_mem_drop hx)
  rw [hpayload, hanswer] at hserve
  exact station.echoes x.before request.payload f (by rw [hserve])

end Log

structure Plant (σ : Type) where
  pool : Pool
  state : σ
  /-- written and not yet served -/
  pending : List (Conn × Request)
  /-- answered and not yet read -/
  unread : Conn → Bytes
  executed : List (Execution σ)
  /-- the operation a task's call is made for -/
  origin : TaskId → Nat
  /-- how many requests had been served when the call began -/
  since : TaskId → Nat

inductive PlantAction (σ : Type)
  /-- a task calls `send_and_recv_tcp`, for an operation -/
  | begin (t : TaskId) (payload : Bytes) (origin : Nat)
  /-- something other than bytes to read happens at the await the task's call is suspended
  at; `arrived` is whether a request whose write fails or is abandoned got through -/
  | event (t : TaskId) (e : CallEvent) (arrived : Bool)
  /-- a read brings the next `n` bytes of the stream -/
  | read (t : TaskId) (n : Nat)
  /-- the station serves the next request of a stream -/
  | serve (conn : Conn)
  /-- the station's own program runs -/
  | change (state : σ)

/-- The event brings bytes. -/
def CallEvent.bringsBytes : CallEvent → Bool
  | .read (.ok chunk) => chunk ≠ []
  | _ => false

namespace Plant

variable {σ : Type}

/-- A target nobody has called. -/
def start (addr : String) (state : σ) : Plant σ where
  pool := Pool.start addr
  state
  pending := []
  unread _ := []
  executed := []
  origin _ := 0
  since _ := 0

/-- What an event puts in flight: the frame, when the call is writing it. -/
def sent (origin : Nat) (call : TcpCall) (e : CallEvent) (arrived : Bool) :
    List (Conn × Request) :=
  match call.phase with
  | .writing conn _ => if e = .wrote ∨ arrived then [(conn, ⟨origin, call.payload⟩)] else []
  | _ => []

/-- The bytes of an answer, if there is one. -/
def answerBytes : Option Mc4eFrame → Bytes
  | some f => f.bytes
  | none => []

/-- The station has served a request that came in on a stream; `pending` are the others. -/
def served (station : Station σ) (w : Plant σ) (conn : Conn) (request : Request)
    (pending : List (Conn × Request)) : Plant σ :=
  let (after, answer) := station.serve w.state request.payload
  { w with
    state := after
    pending
    unread := Function.update w.unread conn (w.unread conn ++ answerBytes answer)
    executed := w.executed ++ [⟨request.origin, request.payload, w.state, after, answer⟩] }

def step (station : Station σ) (w : Plant σ) : PlantAction σ → Option (Plant σ)
  | .begin t payload origin =>
      (w.pool.step (.begin t payload)).map fun pool =>
        { w with
          pool
          origin := Function.update w.origin t origin
          since := Function.update w.since t w.executed.length }
  | .event t e arrived =>
      if e.bringsBytes then none
      else
        match w.pool.call t with
        | none => none
        | some call =>
            (w.pool.step (.event t e)).map fun pool =>
              { w with pool, pending := w.pending ++ sent (w.origin t) call e arrived }
  | .read t n =>
      match (w.pool.call t).map TcpCall.phase with
      | some (.reading conn _ _) =>
          if 0 < n ∧ n ≤ readBufLen ∧ n ≤ (w.unread conn).length then
            (w.pool.step (.event t (.read (.ok ((w.unread conn).take n))))).map fun pool =>
              { w with pool, unread := Function.update w.unread conn ((w.unread conn).drop n) }
          else none
      | _ => none
  | .serve conn =>
      (Mailboxes.take conn w.pending).map fun taken => w.served station conn taken.1 taken.2
  | .change state => some { w with state }

end Plant

end MelsecMc
