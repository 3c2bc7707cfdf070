/-
What a call can do at an `await`.

`TcpCall.step` and `UdpCall.step` are written as the source is, one branch below the other:
where the call is suspended, what happens there, and inside some of these branches a look at
the slot or at what was received.  A proof about a step wants the leaves of that tree instead.

`Step` is the list of the leaves, for either transport: every constructor names one thing a
call can do, with what it needs to have happened and with all that the call and the slot are
afterwards.  The list is the function, no more and no less: `step_cases` is the case analysis
of every lemma about steps, and no other proof opens the function; `Step.step_eq` runs a call
whose next event is known.
-/
import MelsecMc.Udp

namespace MelsecMc

/-! ### TCP

The slot a step leaves is the one it found, but for four kinds of step: the lock empties it,
an answer fills it with the stream the answer came on, and a write or a read that fails
clears it.
-/

namespace TcpCall

/-- What a call does with an event, and what it does to the slot. -/
inductive Step (call : TcpCall) (slot : Option Conn) :
    CallEvent → Option Conn → TcpCall → Prop
  | cancelled (hlive : call.isDone = false) :
      Step call slot .cancel slot { call with phase := .cancelled }
  | resolved {addrs : List SocketAddr} (hphase : call.phase = .resolving) :
      Step call slot (.resolved addrs) slot { call with phase := .locking addrs }
  | unresolved {e : String} (hphase : call.phase = .resolving) :
      Step call slot (.resolveFailed e) slot
        { call with phase := .finished (protocolError s!"bad address {call.addr}: {e}") }
  /-- the lock, and no connection is cached -/
  | nothingCached {addrs : List SocketAddr} {fresh : Bool} (hphase : call.phase = .locking addrs)
      (hslot : slot = none) : Step call slot (.locked fresh) none (nextRemote call addrs)
  | reuses {addrs : List SocketAddr} {conn : Conn} (hphase : call.phase = .locking addrs)
      (hslot : slot = some conn) :
      Step call slot (.locked true) none { call with phase := .writing conn addrs }
  /-- the lock, and the cached connection was idle for too long -/
  | expired {addrs : List SocketAddr} {conn : Conn} (hphase : call.phase = .locking addrs)
      (hslot : slot = some conn) : Step call slot (.locked false) none (nextRemote call addrs)
  | wrote {conn : Conn} {addrs : List SocketAddr} (hphase : call.phase = .writing conn addrs) :
      Step call slot .wrote slot { call with phase := .reading conn addrs [] }
  | writeFailed {conn : Conn} {addrs : List SocketAddr} {e : String}
      (hphase : call.phase = .writing conn addrs) :
      Step call slot (.writeFailed e) none (nextRemote { call with lastErr := some e } addrs)
  | waits {conn : Conn} {addrs : List SocketAddr} {buf rest : Bytes} {result : ReadResult}
      (hphase : call.phase = .reading conn addrs buf)
      (hread : onRead (serialOf call.payload) buf result = .waiting rest) :
      Step call slot (.read result) slot { call with phase := .reading conn addrs rest }
  | returns {conn : Conn} {addrs : List SocketAddr} {buf frame rest : Bytes} {result : ReadResult}
      (hphase : call.phase = .reading conn addrs buf)
      (hread : onRead (serialOf call.payload) buf result = .returned frame rest) :
      Step call slot (.read result) (some conn) { call with phase := .finished (.ok frame) }
  | readFailed {conn : Conn} {addrs : List SocketAddr} {buf : Bytes} {result : ReadResult}
      {e : String} (hphase : call.phase = .reading conn addrs buf)
      (hread : onRead (serialOf call.payload) buf result = .failed e) :
      Step call slot (.read result) none (nextRemote { call with lastErr := some e } addrs)
  | panics {conn : Conn} {addrs : List SocketAddr} {buf : Bytes} {result : ReadResult} {p : Panic}
      (hphase : call.phase = .reading conn addrs buf)
      (hread : onRead (serialOf call.payload) buf result = .panicked p) :
      Step call slot (.read result) slot { call with phase := .finished (.error (.panic p)) }
  | connected {remote : SocketAddr} {addrs : List SocketAddr} {conn : Conn}
      (hphase : call.phase = .connecting remote addrs) :
      Step call slot (.connected conn) slot { call with phase := .writing conn addrs }
  | connectFailed {remote : SocketAddr} {addrs : List SocketAddr} {e : String}
      (hphase : call.phase = .connecting remote addrs) :
      Step call slot (.connectFailed e) slot
        { call with phase := .finished (protocolError s!"connect error: {e}") }
  | connectTimedOut {remote : SocketAddr} {addrs : List SocketAddr} {e : String}
      (hphase : call.phase = .connecting remote addrs) :
      Step call slot (.connectTimedOut e) slot
        { call with phase := .finished (protocolError s!"connect timeout/error: {e}") }

section Step

variable {call call' : TcpCall} {slot slot' : Option Conn} {e : CallEvent}

/-- **Everything a step of a call can do.** -/
theorem step_cases (h : call.step slot e = some (slot', call')) : Step call slot e slot' call' := by
  unfold step at h
  split at h
  · cases h
  · cases h
  · rename_i hfinished hcancelled
    cases h
    refine .cancelled ?_
    unfold isDone
    split
    · rename_i result hphase
      exact absurd hphase (hfinished result)
    · rename_i hphase
      exact absurd hphase hcancelled
    · rfl
  · cases h
    exact .resolved ‹_›
  · cases h
    exact .unresolved ‹_›
  · rename_i addrs fresh hphase
    split at h
    · cases h
      exact .nothingCached hphase rfl
    · cases fresh with
      | true =>
          cases h
          exact .reuses hphase rfl
      | false =>
          cases h
          exact .expired hphase rfl
  · cases h
    exact .wrote ‹_›
  · cases h
    exact .writeFailed ‹_›
  · rename_i hphase
    split at h
    · cases h
      exact .waits hphase ‹_›
    · cases h
      exact .returns hphase ‹_›
    · cases h
      exact .readFailed hphase ‹_›
    · cases h
      exact .panics hphase ‹_›
  · cases h
    exact .connected ‹_›
  · cases h
    exact .connectFailed ‹_›
  · cases h
    exact .connectTimedOut ‹_›
  · cases h

theorem not_isDone_of_step (h : call.step slot e = some (slot', call')) : call.isDone = false := by
  cases step_cases h with
  | cancelled hlive => exact hlive
  | _ => rw [isDone, ‹call.phase = _›]

/-- Only a call that reads gets a read. -/
theorem reading_of_step {result : ReadResult}
    (h : call.step slot (.read result) = some (slot', call')) :
    ∃ conn addrs buf, call.phase = .reading conn addrs buf := by
  cases step_cases h with
  | _ => exact ⟨_, _, _, ‹call.phase = _›⟩

/-- A call can do everything in the list. -/
theorem Step.step_eq (h : Step call slot e slot' call') : call.step slot e = some (slot', call') := by
  cases h with
  | cancelled hlive =>
      unfold isDone at hlive
      cases hphase : call.phase <;> simp_all [step]
  | nothingCached hphase hslot => simp only [step, hphase, hslot]
  | reuses hphase hslot => simp only [step, hphase, hslot, if_true]
  | expired hphase hslot => simp [step, hphase, hslot]
  | writeFailed hphase => simp only [step, hphase, exchangeFailed]
  | waits hphase hread => simp only [step, hphase, hread]
  | returns hphase hread => simp only [step, hphase, hread]
  | readFailed hphase hread => simp only [step, hphase, hread, exchangeFailed]
  | panics hphase hread => simp only [step, hphase, hread]
  | _ => simp only [step, *]

end Step

end TcpCall

/-! ### UDP

There is no slot, and a socket is never handed on.  Every step that is not the end of the call
goes to the head of one of the two loops, `nextRemote` or `nextAttempt`, or waits for a
datagram.
-/

namespace UdpCall

/-- What a call does with an event. -/
inductive Step (call : UdpCall) : UdpEvent → UdpCall → Prop
  | cancelled (hlive : call.isDone = false) : Step call .cancel { call with phase := .cancelled }
  | resolved {addrs : List SocketAddr} (hphase : call.phase = .resolving) :
      Step call (.resolved addrs) (nextRemote call addrs)
  | unresolved {e : String} (hphase : call.phase = .resolving) :
      Step call (.resolveFailed e)
        { call with phase := .finished (protocolError s!"bad address {call.addr}: {e}") }
  | bound {remote : SocketAddr} {addrs : List SocketAddr} {sock : Sock}
      (hphase : call.phase = .binding remote addrs) :
      Step call (.bound sock) (nextAttempt call sock remote addrs 0)
  | bindFailed {remote : SocketAddr} {addrs : List SocketAddr} {e : String}
      (hphase : call.phase = .binding remote addrs) :
      Step call (.bindFailed e) (nextRemote call addrs)
  | sent {sock : Sock} {remote : SocketAddr} {addrs : List SocketAddr} {attempt : Nat}
      (hphase : call.phase = .sending sock remote addrs attempt) :
      Step call .sent { call with phase := .receiving sock remote addrs attempt udpBufLen }
  | sendFailed {sock : Sock} {remote : SocketAddr} {addrs : List SocketAddr} {attempt : Nat}
      {e : String} (hphase : call.phase = .sending sock remote addrs attempt) :
      Step call (.sendFailed e) (nextAttempt call sock remote addrs (attempt + 1))
  | waits {sock : Sock} {remote : SocketAddr} {addrs : List SocketAddr}
      {attempt room room' : Nat} {result : ReadResult}
      (hphase : call.phase = .receiving sock remote addrs attempt room)
      (hread : onDatagram (serialOf call.payload) room result = .waiting room') :
      Step call (.received result) { call with phase := .receiving sock remote addrs attempt room' }
  | returns {sock : Sock} {remote : SocketAddr} {addrs : List SocketAddr} {attempt room : Nat}
      {result : ReadResult} {packet : Bytes}
      (hphase : call.phase = .receiving sock remote addrs attempt room)
      (hread : onDatagram (serialOf call.payload) room result = .returned packet) :
      Step call (.received result) { call with phase := .finished (.ok packet) }
  | receiveFailed {sock : Sock} {remote : SocketAddr} {addrs : List SocketAddr}
      {attempt room : Nat} {result : ReadResult} {e : String}
      (hphase : call.phase = .receiving sock remote addrs attempt room)
      (hread : onDatagram (serialOf call.payload) room result = .failed e) :
      Step call (.received result) (nextAttempt call sock remote addrs (attempt + 1))

section Step

variable {call call' : UdpCall} {e : UdpEvent}

/-- **Everything a step of a call can do.** -/
theorem step_cases (h : call.step e = some call') : Step call e call' := by
  unfold step at h
  split at h
  · cases h
  · cases h
  · rename_i hfinished hcancelled
    cases h
    refine .cancelled ?_
    unfold isDone
    split
    · rename_i result hphase
      exact absurd hphase (hfinished result)
    · rename_i hphase
      exact absurd hphase hcancelled
    · rfl
  · cases h
    exact .resolved ‹_›
  · cases h
    exact .unresolved ‹_›
  · cases h
    exact .bound ‹_›
  · cases h
    exact .bindFailed ‹_›
  · cases h
    exact .sent ‹_›
  · cases h
    exact .sendFailed ‹_›
  · rename_i hphase
    split at h
    · cases h
      exact .waits hphase ‹_›
    · cases h
      exact .returns hphase ‹_›
    · cases h
      exact .receiveFailed hphase ‹_›
  · cases h

theorem not_isDone_of_step (h : call.step e = some call') : call.isDone = false := by
  cases step_cases h with
  | cancelled hlive => exact hlive
  | _ => rw [isDone, ‹call.phase = _›]

/-- What a call was made with stays. -/
structure Same (call call' : UdpCall) : Prop where
  addr : call'.addr = call.addr
  payload : call'.payload = call.payload
  maxAttempts : call'.maxAttempts = call.maxAttempts

theorem same_nextRemote (call : UdpCall) (addrs : List SocketAddr) :
    Same call (nextRemote call addrs) := by
  cases addrs <;> exact ⟨rfl, rfl, rfl⟩

theorem same_nextAttempt (call : UdpCall) (sock : Sock) (remote : SocketAddr)
    (addrs : List SocketAddr) (attempt : Nat) :
    Same call (nextAttempt call sock remote addrs attempt) := by
  rw [nextAttempt]
  split
  · exact ⟨rfl, rfl, rfl⟩
  · exact same_nextRemote call addrs

theorem same_of_step (h : call.step e = some call') : Same call call' := by
  cases step_cases h with
  | resolved _ => exact same_nextRemote call _
  | bound _ => exact same_nextAttempt call _ _ _ _
  | bindFailed _ => exact same_nextRemote call _
  | sendFailed _ => exact same_nextAttempt call _ _ _ _
  | receiveFailed _ _ => exact same_nextAttempt call _ _ _ _
  | _ => exact ⟨rfl, rfl, rfl⟩

theorem sock_nextRemote (call : UdpCall) (addrs : List SocketAddr) :
    (nextRemote call addrs).phase.sock = none := by
  cases addrs <;> rfl

/-- The attempt loop keeps its socket, or leaves it. -/
theorem sock_nextAttempt {sock sock' : Sock} {remote : SocketAddr} {addrs : List SocketAddr}
    {attempt : Nat} (h : (nextAttempt call sock remote addrs attempt).phase.sock = some sock') :
    sock = sock' := by
  rw [nextAttempt] at h
  split at h
  · exact Option.some.inj h
  · rw [sock_nextRemote] at h
    cases h

/-- A socket the call has is the one it had, or was just bound. -/
theorem sock_of_step (h : call.step e = some call') {sock : Sock}
    (hsock : call'.phase.sock = some sock) :
    call.phase.sock = some sock ∨ (call.phase.sock = none ∧ e = .bound sock) := by
  have hnext : ∀ {addrs}, (nextRemote call addrs).phase.sock ≠ some sock := by
    intro addrs hsome
    rw [sock_nextRemote] at hsome
    cases hsome
  cases step_cases h with
  | resolved _ => exact absurd hsock hnext
  | bindFailed _ => exact absurd hsock hnext
  | bound hphase =>
      obtain rfl := sock_nextAttempt hsock
      exact .inr ⟨by rw [hphase]; rfl, rfl⟩
  | sent hphase => exact .inl (by rw [hphase]; exact hsock)
  | waits hphase _ => exact .inl (by rw [hphase]; exact hsock)
  | sendFailed hphase =>
      obtain rfl := sock_nextAttempt hsock
      exact .inl (by rw [hphase]; rfl)
  | receiveFailed hphase _ =>
      obtain rfl := sock_nextAttempt hsock
      exact .inl (by rw [hphase]; rfl)
  | _ => cases hsock

/-- A call can do everything in the list. -/
theorem Step.step_eq (h : Step call e call') : call.step e = some call' := by
  cases h with
  | cancelled hlive =>
      unfold isDone at hlive
      cases hphase : call.phase <;> simp_all [step]
  | waits hphase hread => simp only [step, hphase, hread]
  | returns hphase hread => simp only [step, hphase, hread]
  | receiveFailed hphase hread => simp only [step, hphase, hread]
  | _ => simp only [step, *]

end Step

end UdpCall

end MelsecMc
