/-
What the addresses of a target do.

`lookup_host` returns a list of addresses for a target, and a call meets them one by one:
a connect is refused, or runs into its timeout, or there is a connection, on which the
exchange fails or brings a frame.  An `Exchange` is everything that happens at the awaits of
one `perform_stream_io`, with what it returns; a `Remote` is an address with what it does.
`TcpCall.play` lets all of it happen to a call, one event after another, until the call has
ended.
-/
import MelsecMc.Transport

namespace MelsecMc

/-- What happens at the awaits of `perform_stream_io`, and what it returns. -/
inductive Exchanges (payload : Bytes) : List CallEvent → Except String Bytes → Prop
  | writeFails (e : String) : Exchanges payload [.writeFailed e] (.error e)
  /-- all reads but the last leave the loop waiting -/
  | readFails {reads : List ReadResult} {buf : Bytes} {last : ReadResult} {e : String}
      (hreads : receive (serialOf payload) [] reads = .waiting buf)
      (hlast : onRead (serialOf payload) buf last = .failed e) :
      Exchanges payload (.wrote :: (reads.map .read ++ [.read last])) (.error e)
  | answers {reads : List ReadResult} {buf : Bytes} {last : ReadResult} {frame rest : Bytes}
      (hreads : receive (serialOf payload) [] reads = .waiting buf)
      (hlast : onRead (serialOf payload) buf last = .returned frame rest) :
      Exchanges payload (.wrote :: (reads.map .read ++ [.read last])) (.ok frame)

/-- One `perform_stream_io`. -/
structure Exchange (payload : Bytes) where
  events : List CallEvent
  result : Except String Bytes
  exchanges : Exchanges payload events result

/-- What an address does when it is tried. -/
inductive Outcome (payload : Bytes)
  | refused (e : String)
  | timedOut (e : String)
  | connects (conn : Conn) (exchange : Exchange payload)

namespace Outcome

variable {payload : Bytes}

def events : Outcome payload → List CallEvent
  | refused e => [.connectFailed e]
  | timedOut e => [.connectTimedOut e]
  | connects conn exchange => .connected conn :: exchange.events

/-- The frame the address answers with. -/
def frame : Outcome payload → Option Bytes
  | refused _ => none
  | timedOut _ => none
  | connects _ exchange => exchange.result.toOption

/-- There is a connection, whatever comes of it. -/
def isConnected : Outcome payload → Bool
  | refused _ => false
  | timedOut _ => false
  | connects _ _ => true

end Outcome

/-- A resolved address, and what it does. -/
structure Remote (payload : Bytes) where
  addr : SocketAddr
  outcome : Outcome payload

/-- The cached slot, when no answer comes of it. -/
inductive Cached (payload : Bytes)
  | empty
  | expired (conn : Conn)
  | failing (conn : Conn) (exchange : Exchange payload) (fails : exchange.result.isOk = false)

namespace Cached

variable {payload : Bytes}

def slot : Cached payload → Option Conn
  | empty => none
  | expired conn => some conn
  | failing conn _ _ => some conn

def events : Cached payload → List CallEvent
  | empty => [.locked false]
  | expired _ => [.locked false]
  | failing _ exchange _ => .locked true :: exchange.events

end Cached

namespace TcpCall

/-- What happens, one event after another, until the call takes no more. -/
def play : Option Conn × TcpCall → List CallEvent → Option Conn × TcpCall
  | s, [] => s
  | s, e :: events =>
      match s.2.step s.1 e with
      | some s' => play s' events
      | none => s

end TcpCall

/-- A call for a target with this slot and these addresses, at its end. -/
def callWith (addr : String) (payload : Bytes) (cached : Cached payload)
    (remotes : List (Remote payload)) : Option Conn × TcpCall :=
  TcpCall.play (cached.slot, TcpCall.start addr payload)
    (.resolved (remotes.map Remote.addr) ::
      (cached.events ++ remotes.flatMap fun remote => remote.outcome.events))

/-- The frame of the first address that answers. -/
def firstAnswer {payload : Bytes} (remotes : List (Remote payload)) : Option Bytes :=
  remotes.findSome? fun remote => remote.outcome.frame

/-- The call returns the frame of the first address that answers, and an error only when no
address does. -/
structure EveryAddressTried (addr : String) (payload : Bytes) (cached : Cached payload)
    (remotes : List (Remote payload)) : Prop where
  ok : ∀ frame, (callWith addr payload cached remotes).2.phase = .finished (.ok frame) ↔
    firstAnswer remotes = some frame
  err : (∃ e, (callWith addr payload cached remotes).2.phase = .finished (.error e)) ↔
    firstAnswer remotes = none

end MelsecMc
