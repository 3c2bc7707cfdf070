/-
The transports.

`perform_stream_io` writes a request to a TCP stream and then reads until its buffer
holds the answer.  Each read is followed by a scan of the buffer, which is the library's
scanner with `scanVerdict` for a look.  `send_and_recv_udp` compares each datagram with
the request and keeps the first that matches.

`send_and_recv_tcp` is a state machine: it stops at each `await`, and what happens there
(an address list, a lock, a read, a refused connection, a cancellation) is an event from
outside.  `TcpCall.step` says what the call does with the event, and what it does to the
slot that holds the target's cached connection.
-/
import MelsecMc.Lib.Framing
import MelsecMc.Request

namespace MelsecMc

/-- `MAX_FRAME_LEN` -/
def maxFrameLen : Nat := 65535

/-- Bytes 2 and 3, little-endian, or 0 when they are not there: the serial both transports
expect of a request, and the one the UDP side reads from a datagram. -/
def serialOf : Bytes → UInt16
  | _ :: _ :: lo :: hi :: _ => u16FromLeBytes lo hi
  | _ => 0

/-! ### The receive loop of `perform_stream_io` -/

/-- One turn of the inner loop: what to do with the front of the buffer. -/
def scanVerdict (expectedSerial : UInt16) (buf : Bytes) : Framing.Verdict Panic :=
  match detectFrame buf with
  | .ok (some (frameLen, _headerLen, serialOpt)) =>
      if frameLen = 0 ∨ frameLen > maxFrameLen then
        .drop 1
      else if buf.length < frameLen then
        .await
      else
        let serial := serialOpt.getD 0
        if expectedSerial = 0 ∨ serial = expectedSerial then
          .deliver frameLen
        else
          .drop frameLen
  | .ok none => .await
  -- malformed header: skip one byte and continue scanning
  | .error (.err _) => .drop 1
  | .error (.panic p) => .abort p

/-- A turn at an announced frame. -/
theorem scanVerdict_of_announced (expectedSerial : UInt16) {buf : Bytes}
    {frameLen headerLen : Nat} {serialOpt : Option UInt16}
    (h : detectFrame buf = .ok (some (frameLen, headerLen, serialOpt))) :
    scanVerdict expectedSerial buf =
      if frameLen = 0 ∨ frameLen > maxFrameLen then .drop 1
      else if buf.length < frameLen then .await
      else if expectedSerial = 0 ∨ serialOpt.getD 0 = expectedSerial then .deliver frameLen
      else .drop frameLen := by
  rw [scanVerdict, h]

/-- A turn at an announced frame that has all come. -/
theorem scanVerdict_of_whole (expectedSerial : UInt16) {buf : Bytes}
    {frameLen headerLen : Nat} {serialOpt : Option UInt16}
    (h : detectFrame buf = .ok (some (frameLen, headerLen, serialOpt)))
    (hpos : 0 < frameLen) (hmax : frameLen ≤ maxFrameLen) (hle : frameLen ≤ buf.length) :
    scanVerdict expectedSerial buf =
      if expectedSerial = 0 ∨ serialOpt.getD 0 = expectedSerial then .deliver frameLen
      else .drop frameLen := by
  rw [scanVerdict_of_announced expectedSerial h, if_neg (by omega), if_neg (by omega)]

/-- A turn at an announced frame of which some is still to come. -/
theorem scanVerdict_of_part (expectedSerial : UInt16) {buf : Bytes}
    {frameLen headerLen : Nat} {serialOpt : Option UInt16}
    (h : detectFrame buf = .ok (some (frameLen, headerLen, serialOpt)))
    (hmax : frameLen ≤ maxFrameLen) (hlt : buf.length < frameLen) :
    scanVerdict expectedSerial buf = .await := by
  rw [scanVerdict_of_announced expectedSerial h, if_neg (by omega), if_pos hlt]

/-- Everything a turn can do.  It waits for a header or for the rest of a frame, and a turn
that goes on skips one byte of at least two, or a whole announced frame that the buffer
holds. -/
theorem scanVerdict_cases (expectedSerial : UInt16) (buf : Bytes) :
    (scanVerdict expectedSerial buf = .await ∧
      (detectFrame buf = .ok none ∨ ∃ frameLen headerLen serialOpt,
        detectFrame buf = .ok (some (frameLen, headerLen, serialOpt)) ∧
        0 < frameLen ∧ frameLen ≤ maxFrameLen ∧ buf.length < frameLen)) ∨
    (∃ p, scanVerdict expectedSerial buf = .abort p ∧ detectFrame buf = .error (.panic p)) ∨
    (scanVerdict expectedSerial buf = .drop 1 ∧ 2 ≤ buf.length) ∨
    ∃ frameLen headerLen serialOpt,
      detectFrame buf = .ok (some (frameLen, headerLen, serialOpt)) ∧
      0 < frameLen ∧ frameLen ≤ maxFrameLen ∧ frameLen ≤ buf.length ∧
      scanVerdict expectedSerial buf =
        if expectedSerial = 0 ∨ serialOpt.getD 0 = expectedSerial then .deliver frameLen
        else .drop frameLen := by
  have htwo : detectFrame buf ≠ .ok none → 2 ≤ buf.length := by
    intro hne
    by_contra hlt
    exact hne (by rw [detectFrame, if_pos (Nat.not_le.mp hlt)]; rfl)
  cases hdetect : detectFrame buf with
  | error e =>
      cases e with
      | err e => exact .inr (.inr (.inl ⟨by rw [scanVerdict, hdetect], htwo (by simp [hdetect])⟩))
      | panic p => exact .inr (.inl ⟨p, by rw [scanVerdict, hdetect], rfl⟩)
  | ok found =>
      match found, hdetect with
      | none, hdetect => exact .inl ⟨by rw [scanVerdict, hdetect], .inl rfl⟩
      | some (frameLen, headerLen, serialOpt), hdetect =>
          by_cases hbad : frameLen = 0 ∨ frameLen > maxFrameLen
          · have hverdict := scanVerdict_of_announced expectedSerial hdetect
            rw [if_pos hbad] at hverdict
            exact .inr (.inr (.inl ⟨hverdict, htwo (by simp [hdetect])⟩))
          · obtain ⟨hzero, hlong⟩ := not_or.mp hbad
            have hpos : 0 < frameLen := Nat.pos_of_ne_zero hzero
            have hmax : frameLen ≤ maxFrameLen := Nat.not_lt.mp hlong
            by_cases hshort : buf.length < frameLen
            · exact .inl ⟨scanVerdict_of_part expectedSerial hdetect hmax hshort,
                .inr ⟨frameLen, headerLen, serialOpt, rfl, hpos, hmax, hshort⟩⟩
            · have hle : frameLen ≤ buf.length := Nat.not_lt.mp hshort
              exact .inr (.inr (.inr ⟨frameLen, headerLen, serialOpt, rfl, hpos, hmax, hle,
                scanVerdict_of_whole expectedSerial hdetect hpos hmax hle⟩))

theorem scanVerdict_drop {expectedSerial : UInt16} {buf : Bytes} {n : Nat}
    (h : scanVerdict expectedSerial buf = .drop n) : 0 < n ∧ n ≤ buf.length := by
  rcases scanVerdict_cases expectedSerial buf with ⟨hv, -⟩ | ⟨p, hv, -⟩ | ⟨hv, htwo⟩ |
    ⟨frameLen, headerLen, serialOpt, -, hpos, -, hle, hv⟩
  · rw [hv] at h; cases h
  · rw [hv] at h; cases h
  · rw [hv, Framing.Verdict.drop.injEq] at h
    omega
  · rw [hv] at h
    split at h
    · cases h
    · rw [Framing.Verdict.drop.injEq] at h
      omega

/-- A turn that returns a frame found one in the buffer, of the expected serial unless
any serial will do. -/
theorem scanVerdict_deliver {expectedSerial : UInt16} {buf : Bytes} {n : Nat}
    (h : scanVerdict expectedSerial buf = .deliver n) :
    0 < n ∧ n ≤ maxFrameLen ∧ n ≤ buf.length ∧ ∃ headerLen serialOpt,
      detectFrame buf = .ok (some (n, headerLen, serialOpt)) ∧
      (expectedSerial = 0 ∨ serialOpt.getD 0 = expectedSerial) := by
  rcases scanVerdict_cases expectedSerial buf with ⟨hv, -⟩ | ⟨p, hv, -⟩ | ⟨hv, -⟩ |
    ⟨frameLen, headerLen, serialOpt, hdetect, hpos, hmax, hle, hv⟩
  · rw [hv] at h; cases h
  · rw [hv] at h; cases h
  · rw [hv] at h; cases h
  · rw [hv] at h
    split at h
    · rename_i hserial
      rw [Framing.Verdict.deliver.injEq] at h
      subst h
      exact ⟨hpos, hmax, hle, headerLen, serialOpt, hdetect, hserial⟩
    · cases h

/-- A turn that waits has no header, or not all of the frame it announces. -/
theorem scanVerdict_await {expectedSerial : UInt16} {buf : Bytes}
    (h : scanVerdict expectedSerial buf = .await) :
    detectFrame buf = .ok none ∨ ∃ frameLen headerLen serialOpt,
      detectFrame buf = .ok (some (frameLen, headerLen, serialOpt)) ∧
      0 < frameLen ∧ frameLen ≤ maxFrameLen ∧ buf.length < frameLen := by
  rcases scanVerdict_cases expectedSerial buf with ⟨-, hwaits⟩ | ⟨p, hv, -⟩ | ⟨hv, -⟩ |
    ⟨frameLen, headerLen, serialOpt, -, -, -, -, hv⟩
  · exact hwaits
  · rw [hv] at h; cases h
  · rw [hv] at h; cases h
  · rw [hv] at h
    split at h <;> cases h

/-- A turn panics only in `detect_frame`. -/
theorem scanVerdict_abort {expectedSerial : UInt16} {buf : Bytes} {p : Panic}
    (h : scanVerdict expectedSerial buf = .abort p) : detectFrame buf = .error (.panic p) := by
  rcases scanVerdict_cases expectedSerial buf with ⟨hv, -⟩ | ⟨p', hv, hpanic⟩ | ⟨hv, -⟩ |
    ⟨frameLen, headerLen, serialOpt, -, -, -, -, hv⟩
  · rw [hv] at h; cases h
  · rw [hv, Framing.Verdict.abort.injEq] at h
    rw [hpanic, h]
  · rw [hv] at h; cases h
  · rw [hv] at h
    split at h <;> cases h

/-- The scanner of the receive loop.  Its laws are that no drain asks for more than the
buffer holds, and that every turn which goes on has drained something. -/
def receiver (expectedSerial : UInt16) : Framing.Scanner UInt8 Panic where
  verdict := scanVerdict expectedSerial
  drop_pos h := (scanVerdict_drop h).1
  drop_le h := (scanVerdict_drop h).2
  deliver_le h := (scanVerdict_deliver h).2.2.1

/-- What one read or one datagram brings: `Ok(n)` with the bytes, or an error text. -/
inductive ReadResult
  | ok (chunk : Bytes)
  | err (e : String)
  deriving DecidableEq

/-- Where the receive loop stands. -/
inductive RecvState
  /-- awaiting the next read, with this in the buffer -/
  | waiting (buf : Bytes)
  /-- returned the frame; what is left in the buffer is dropped with it -/
  | returned (frame rest : Bytes)
  | failed (e : String)
  | panicked (p : Panic)
  deriving DecidableEq

/-- The outer loop, from one read to the next. -/
def onRead (expectedSerial : UInt16) (buf : Bytes) : ReadResult → RecvState
  | .ok [] => .failed "remote closed without producing matching frame"
  | .ok chunk =>
      match (receiver expectedSerial).scan (buf ++ chunk) with
      | .waiting rest => .waiting rest
      | .delivered frame rest => .returned frame rest
      | .aborted p => .panicked p
  | .err e => .failed e

/-- The outer loop over a list of reads. -/
def receive (expectedSerial : UInt16) : Bytes → List ReadResult → RecvState
  | buf, [] => .waiting buf
  | buf, r :: rs =>
      match onRead expectedSerial buf r with
      | .waiting rest => receive expectedSerial rest rs
      | done => done

/-! ### The receive loop of `send_and_recv_udp` -/

/-- Where the datagram loop of one send attempt stands. -/
inductive UdpState
  /-- awaiting the next datagram, with this much room in the buffer -/
  | waiting (room : Nat)
  | returned (packet : Bytes)
  | failed (e : String)
  deriving DecidableEq

/-- The buffer of one send attempt. -/
def udpBufLen : Nat := 65535

/-- One datagram: `recv_from` copies what fits, and `truncate` cuts the buffer to that. -/
def onDatagram (expectedSerial : UInt16) (room : Nat) : ReadResult → UdpState
  | .ok datagram =>
      let buf := datagram.take room
      if expectedSerial = 0 ∨ serialOf buf = expectedSerial then .returned buf
      else .waiting buf.length
  | .err e => .failed e

/-- The datagram loop over what arrives. -/
def receiveUdp (expectedSerial : UInt16) : Nat → List ReadResult → UdpState
  | room, [] => .waiting room
  | room, r :: rs =>
      match onDatagram expectedSerial room r with
      | .waiting room' => receiveUdp expectedSerial room' rs
      | done => done

/-! ### `send_and_recv_tcp` -/

/-- A TCP connection.  Two connections are the same when their numbers are. -/
abbrev Conn := Nat

/-- A resolved remote address. -/
abbrev SocketAddr := String

/-- `{:?}` of a string, for the characters an error text has. -/
def debugStr (s : String) : String :=
  let escape : Char → List Char
    | '"' => ['\\', '"']
    | '\\' => ['\\', '\\']
    | '\n' => ['\\', 'n']
    | '\r' => ['\\', 'r']
    | '\t' => ['\\', 't']
    | c => [c]
  String.ofList ('"' :: s.toList.flatMap escape ++ ['"'])

/-- `{:?}` of an `Option<String>`. -/
def debugOption : Option String → String
  | none => "None"
  | some s => s!"Some({debugStr s})"

/-- Where a call is suspended, or how it ended. -/
inductive CallPhase
  /-- `lookup_host(addr).await` -/
  | resolving
  /-- the connection map and the target's connection are locked next -/
  | locking (addrs : List SocketAddr)
  /-- `write_all` on a connection; `addrs` are the addresses still to be tried after it -/
  | writing (conn : Conn) (addrs : List SocketAddr)
  /-- `read` on a connection, with the receive buffer so far -/
  | reading (conn : Conn) (addrs : List SocketAddr) (buf : Bytes)
  /-- `TcpStream::connect(remote)` under its timeout -/
  | connecting (remote : SocketAddr) (addrs : List SocketAddr)
  | finished (result : Except Failure Bytes)
  /-- the future was dropped at an `await` -/
  | cancelled
  deriving DecidableEq

/-- What happens at an `await`. -/
inductive CallEvent
  | resolved (addrs : List SocketAddr)
  | resolveFailed (e : String)
  /-- the locks are taken; `fresh` is the idle check on the cached connection, if any -/
  | locked (fresh : Bool)
  | wrote
  | writeFailed (e : String)
  | read (result : ReadResult)
  | connected (conn : Conn)
  | connectFailed (e : String)
  | connectTimedOut (e : String)
  | cancel
  deriving DecidableEq

/-- One call of `send_and_recv_tcp`. -/
structure TcpCall where
  addr : String
  payload : Bytes
  lastErr : Option String
  phase : CallPhase
  deriving DecidableEq

namespace TcpCall

/-- The call before its first `await`. -/
def start (addr : String) (payload : Bytes) : TcpCall where
  addr
  payload
  lastErr := none
  phase := .resolving

/-- The head of the address loop: connect to the next address, or give up. -/
def nextRemote (call : TcpCall) (addrs : List SocketAddr) : TcpCall :=
  match addrs with
  | remote :: rest => { call with phase := .connecting remote rest }
  | [] =>
      { call with
        phase := .finished
          (protocolError s!"failed to send TCP to {call.addr}: {debugOption call.lastErr}") }

/-- An exchange failed: the slot is cleared and the remaining addresses are tried. -/
def exchangeFailed (call : TcpCall) (addrs : List SocketAddr) (e : String) :
    Option Conn × TcpCall :=
  (none, nextRemote { call with lastErr := some e } addrs)

/-- From one `await` to the next: what the call does to the target's slot and to itself. -/
def step (call : TcpCall) (slot : Option Conn) (event : CallEvent) :
    Option (Option Conn × TcpCall) :=
  match call.phase, event with
  | .finished _, _ => none
  | .cancelled, _ => none
  | _, .cancel => some (slot, { call with phase := .cancelled })
  | .resolving, .resolved addrs => some (slot, { call with phase := .locking addrs })
  | .resolving, .resolveFailed e =>
      some (slot, { call with phase := .finished (protocolError s!"bad address {call.addr}: {e}") })
  | .locking addrs, .locked fresh =>
      -- `take()` empties the slot before the idle check
      match slot with
      | none => some (none, nextRemote call addrs)
      | some conn =>
          if fresh then some (none, { call with phase := .writing conn addrs })
          else some (none, nextRemote call addrs)
  | .writing conn addrs, .wrote => some (slot, { call with phase := .reading conn addrs [] })
  | .writing _ addrs, .writeFailed e => some (exchangeFailed call addrs e)
  | .reading conn addrs buf, .read result =>
      match onRead (serialOf call.payload) buf result with
      | .waiting rest => some (slot, { call with phase := .reading conn addrs rest })
      | .returned frame _ => some (some conn, { call with phase := .finished (.ok frame) })
      | .failed e => some (exchangeFailed call addrs e)
      | .panicked p => some (slot, { call with phase := .finished (.error (.panic p)) })
  | .connecting _ addrs, .connected conn => some (slot, { call with phase := .writing conn addrs })
  | .connecting _ _, .connectFailed e =>
      some (slot, { call with phase := .finished (protocolError s!"connect error: {e}") })
  | .connecting _ _, .connectTimedOut e =>
      some (slot, { call with phase := .finished (protocolError s!"connect timeout/error: {e}") })
  | _, _ => none

end TcpCall

end MelsecMc
