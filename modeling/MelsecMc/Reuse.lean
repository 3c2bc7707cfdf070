/-
Successive calls on one connection.

A peer sends MC4E frames over one TCP connection, and calls of `send_and_recv_tcp` use the
connection one after another.  A run here is one in which the connection lasts: the first
call opens it, the later ones find it in the slot, fresh, and no write or read fails.  What
arrives is put in front of the reads in order, and a read takes off as many bytes as it
likes of those that are there, 4096 at most.

`taken` and `sentAt` are not in the source: the one is how far the reads have come in what
arrived, the other how much of it was there when the request went out.
-/
import MelsecMc.Session
import MelsecMc.Spec.Wire

namespace MelsecMc

structure Link where
  addr : String
  conn : Conn
  /-- the cached connection -/
  slot : Option Conn
  /-- the latest call -/
  call : Option TcpCall
  /-- the frames the peer has sent, oldest first -/
  arrived : List Mc4eFrame
  /-- the number of bytes read so far, over all calls -/
  taken : Nat
  /-- how many frames had arrived when the latest request was sent -/
  sentAt : Nat

inductive LinkAction
  /-- `send_and_recv_tcp` is called -/
  | call (payload : Bytes)
  /-- something other than a read happens at the await the call is suspended at -/
  | event (e : CallEvent)
  /-- a frame arrives -/
  | arrive (f : Mc4eFrame)
  /-- a read brings the next `n` bytes -/
  | read (n : Nat)

/-- `tmp` -/
def readBufLen : Nat := 4096

namespace Link

/-- The connection is to be opened, and nothing has been sent over it. -/
def start (addr : String) (conn : Conn) : Link where
  addr
  conn
  slot := none
  call := none
  arrived := []
  taken := 0
  sentAt := 0

/-- The events of a run in which the connection lasts: there is an address to open it to,
and it does not expire. -/
def lasts (w : Link) : CallEvent → Bool
  | .resolved addrs => w.slot.isSome ∨ addrs ≠ []
  | .locked fresh => fresh
  | .connected conn => conn = w.conn
  | .wrote => true
  | _ => false

/-- The call goes on to its next await. -/
def stepCall (w : Link) (e : CallEvent) : Option Link :=
  match w.call with
  | none => none
  | some call =>
      match call.step w.slot e with
      | none => none
      | some (slot, call') => some { w with slot, call := some call' }

def step (w : Link) : LinkAction → Option Link
  | .call payload =>
      if w.call.all TcpCall.isDone then
        some { w with call := some (TcpCall.start w.addr payload) }
      else none
  | .event e =>
      if w.lasts e then
        (w.stepCall e).map fun w' =>
          { w' with sentAt := if e = .wrote then w.arrived.length else w.sentAt }
      else none
  | .arrive f => some { w with arrived := w.arrived ++ [f] }
  | .read n =>
      if 0 < n ∧ n ≤ readBufLen ∧ w.taken + n ≤ (stream w.arrived).length then
        (w.stepCall (.read (.ok (((stream w.arrived).drop w.taken).take n)))).map fun w' =>
          { w' with taken := w.taken + n }
      else none

end Link

end MelsecMc
