/-
Which addresses a call tries.

An exchange that fails sends the call to the next address, with nothing kept but the error
text; a connect that fails ends the call.  So a call walks over the addresses that can be
connected to, one after another, up to the first that answers or cannot be connected to
(`play_unanswered`), and what it finds there is its result.  All addresses count exactly when
no connect fails in front of the first answer (`every_address_tried_iff`).
-/
import MelsecMc.Addresses
import MelsecMc.Proofs.Calls

namespace MelsecMc

namespace TcpCall

variable {addr : String} {payload : Bytes} {lastErr : Option String} {slot : Option Conn}
  {conn : Conn} {addrs : List SocketAddr}

/-! ### An exchange

A write, and reads until the loop has a frame or an error.  Played on a call, it leaves the call
with its frame, or in front of the next address.
-/

theorem play_cons {s s' : Option Conn × TcpCall} {e : CallEvent} (h : s.2.step s.1 e = some s')
    (events : List CallEvent) : play s (e :: events) = play s' events := by
  rw [play, h]

/-- A call that has ended takes no more. -/
theorem play_finished {s : Option Conn × TcpCall} {result : Except Failure Bytes}
    (h : s.2.phase = .finished result) (events : List CallEvent) : play s events = s := by
  cases events with
  | nil => rfl
  | cons e events =>
      cases hstep : s.2.step s.1 e with
      | none => rw [play, hstep]
      | some s' =>
          have hlive := not_isDone_of_step hstep
          rw [isDone, h] at hlive
          cases hlive

/-- Reads that leave the loop waiting. -/
theorem play_reads (events : List CallEvent) {reads : List ReadResult} : ∀ {buf buf' : Bytes},
    receive (serialOf payload) buf reads = .waiting buf' →
    play (slot, ⟨addr, payload, lastErr, .reading conn addrs buf⟩) (reads.map .read ++ events) =
      play (slot, ⟨addr, payload, lastErr, .reading conn addrs buf'⟩) events := by
  induction reads with
  | nil =>
      intro buf buf' h
      cases h
      rfl
  | cons read reads ih =>
      intro buf buf' h
      rw [receive] at h
      cases hread : onRead (serialOf payload) buf read with
      | waiting rest =>
          have hstep : step ⟨addr, payload, lastErr, .reading conn addrs buf⟩ slot (.read read) =
              some (slot, ⟨addr, payload, lastErr, .reading conn addrs rest⟩) :=
            (Step.waits rfl hread).step_eq
          rw [hread] at h
          rw [List.map_cons, List.cons_append, play_cons hstep]
          exact ih h
      | _ =>
          rw [hread] at h
          cases h

/-- An exchange whose last read settles it. -/
theorem play_lastRead {reads : List ReadResult} {buf : Bytes} {last : ReadResult}
    {s : Option Conn × TcpCall} (events : List CallEvent)
    (hreads : receive (serialOf payload) [] reads = .waiting buf)
    (hlast : step ⟨addr, payload, lastErr, .reading conn addrs buf⟩ slot (.read last) = some s) :
    play (slot, ⟨addr, payload, lastErr, .writing conn addrs⟩)
        (.wrote :: (reads.map .read ++ [.read last]) ++ events) = play s events := by
  have hwrote : step ⟨addr, payload, lastErr, .writing conn addrs⟩ slot .wrote =
      some (slot, ⟨addr, payload, lastErr, .reading conn addrs []⟩) := rfl
  rw [List.cons_append, List.append_assoc, play_cons hwrote, play_reads _ hreads,
    List.singleton_append]
  exact play_cons hlast events

/-- An exchange that fails. -/
theorem play_exchange_error {e : String} {exchange : Exchange payload}
    (h : exchange.result = .error e) (events : List CallEvent) :
    play (slot, ⟨addr, payload, lastErr, .writing conn addrs⟩) (exchange.events ++ events) =
      play (none, nextRemote ⟨addr, payload, some e, .resolving⟩ addrs) events := by
  have hnext : ∀ phase phase', nextRemote ⟨addr, payload, some e, phase⟩ addrs =
      nextRemote ⟨addr, payload, some e, phase'⟩ addrs := by
    intro phase phase'
    cases addrs <;> rfl
  obtain ⟨evs, result, hexchange⟩ := exchange
  dsimp only at h ⊢
  subst h
  cases hexchange with
  | writeFails =>
      rw [hnext .resolving (.writing conn addrs)]
      exact play_cons rfl events
  | @readFails reads buf last _ hreads hlast =>
      rw [hnext .resolving (.reading conn addrs buf)]
      exact play_lastRead events hreads (Step.readFailed rfl hlast).step_eq

/-- An exchange that brings a frame. -/
theorem play_exchange_ok {frame : Bytes} {exchange : Exchange payload}
    (h : exchange.result = .ok frame) (events : List CallEvent) :
    (play (slot, ⟨addr, payload, lastErr, .writing conn addrs⟩)
      (exchange.events ++ events)).2.phase = .finished (.ok frame) := by
  obtain ⟨evs, result, hexchange⟩ := exchange
  dsimp only at h ⊢
  subst h
  cases hexchange with
  | answers hreads hlast =>
      rw [play_lastRead events hreads (Step.returns rfl hlast).step_eq, play_finished rfl]

end TcpCall

/-! ### The addresses

An address is refused, times out, or is connected to, with an exchange behind it.  Only the last
kind lets the call go on to the address after it.
-/

section Addresses

open TcpCall

variable {addr : String} {payload : Bytes} {lastErr : Option String} {slot : Option Conn}

/-- The call in front of these addresses. -/
def atRemotes (addr : String) (payload : Bytes) (lastErr : Option String)
    (remotes : List (Remote payload)) : TcpCall :=
  nextRemote ⟨addr, payload, lastErr, .resolving⟩ (remotes.map Remote.addr)

/-- What happens at these addresses. -/
def remoteEvents {payload : Bytes} (remotes : List (Remote payload)) : List CallEvent :=
  remotes.flatMap fun remote => remote.outcome.events

/-- The address can be connected to and does not answer. -/
def Remote.Unanswered {payload : Bytes} (remote : Remote payload) : Prop :=
  remote.outcome.isConnected = true ∧ remote.outcome.frame = none

/-- Behind such an address the call is where it would be without it, but for the error text. -/
theorem play_remote_unanswered (addr : String) (lastErr : Option String) (slot : Option Conn)
    {remote : Remote payload} (h : remote.Unanswered) (remotes : List (Remote payload)) :
    ∃ e, play (slot, atRemotes addr payload lastErr (remote :: remotes))
        (remoteEvents (remote :: remotes)) =
      play (none, atRemotes addr payload (some e) remotes) (remoteEvents remotes) := by
  obtain ⟨name, outcome⟩ := remote
  obtain ⟨hconnected, hframe⟩ := h
  cases outcome with
  | refused e => cases hconnected
  | timedOut e => cases hconnected
  | connects conn exchange =>
      cases hresult : exchange.result with
      | ok frame =>
          rw [Outcome.frame, hresult] at hframe
          cases hframe
      | error e =>
          refine ⟨e, ?_⟩
          have hconnect : step (atRemotes addr payload lastErr
              (⟨name, .connects conn exchange⟩ :: remotes)) slot (.connected conn) =
                some (slot, ⟨addr, payload, lastErr, .writing conn (remotes.map Remote.addr)⟩) := rfl
          rw [remoteEvents, List.flatMap_cons, Outcome.events, List.cons_append, play_cons hconnect,
            play_exchange_error hresult]
          rfl

/-- Behind several of them too. -/
theorem play_unanswered (addr : String) {before : List (Remote payload)}
    (remotes : List (Remote payload)) : ∀ (lastErr : Option String) (slot : Option Conn),
    (∀ r ∈ before, r.Unanswered) →
    ∃ lastErr' slot', play (slot, atRemotes addr payload lastErr (before ++ remotes))
        (remoteEvents (before ++ remotes)) =
      play (slot', atRemotes addr payload lastErr' remotes) (remoteEvents remotes) := by
  induction before with
  | nil => exact fun lastErr slot _ => ⟨lastErr, slot, rfl⟩
  | cons remote before ih =>
      intro lastErr slot h
      obtain ⟨e, hhead⟩ := play_remote_unanswered addr lastErr slot (h remote List.mem_cons_self)
        (before ++ remotes)
      obtain ⟨lastErr', slot', hrest⟩ := ih (some e) none fun r hr => h r (.tail _ hr)
      exact ⟨lastErr', slot', by rw [List.cons_append, hhead, hrest]⟩

/-- An address that answers. -/
theorem play_answers {remote : Remote payload} {frame : Bytes}
    (h : remote.outcome.frame = some frame) (remotes : List (Remote payload)) :
    (play (slot, atRemotes addr payload lastErr (remote :: remotes))
      (remoteEvents (remote :: remotes))).2.phase = .finished (.ok frame) := by
  obtain ⟨name, outcome⟩ := remote
  cases outcome with
  | refused e => cases h
  | timedOut e => cases h
  | connects conn exchange =>
      cases hresult : exchange.result with
      | error e =>
          rw [Outcome.frame, hresult] at h
          cases h
      | ok answer =>
          rw [Outcome.frame, hresult] at h
          cases h
          have hconnect : step (atRemotes addr payload lastErr
              (⟨name, .connects conn exchange⟩ :: remotes)) slot (.connected conn) =
                some (slot, ⟨addr, payload, lastErr, .writing conn (remotes.map Remote.addr)⟩) := rfl
          rw [remoteEvents, List.flatMap_cons, Outcome.events, List.cons_append, play_cons hconnect]
          exact play_exchange_ok hresult _

/-- An address that cannot be connected to ends the call. -/
theorem play_unconnected {remote : Remote payload} (h : remote.outcome.isConnected = false)
    (remotes : List (Remote payload)) :
    ∃ e, (play (slot, atRemotes addr payload lastErr (remote :: remotes))
      (remoteEvents (remote :: remotes))).2.phase = .finished (.error e) := by
  obtain ⟨name, outcome⟩ := remote
  cases outcome with
  | connects conn exchange => cases h
  | refused e =>
      have hstep : step (atRemotes addr payload lastErr (⟨name, .refused e⟩ :: remotes)) slot
          (.connectFailed e) = some (slot, ⟨addr, payload, lastErr,
            .finished (protocolError s!"connect error: {e}")⟩) := rfl
      rw [remoteEvents, List.flatMap_cons, Outcome.events, List.singleton_append, play_cons hstep,
        play_finished rfl]
      exact ⟨_, rfl⟩
  | timedOut e =>
      have hstep : step (atRemotes addr payload lastErr (⟨name, .timedOut e⟩ :: remotes)) slot
          (.connectTimedOut e) = some (slot, ⟨addr, payload, lastErr,
            .finished (protocolError s!"connect timeout/error: {e}")⟩) := rfl
      rw [remoteEvents, List.flatMap_cons, Outcome.events, List.singleton_append, play_cons hstep,
        play_finished rfl]
      exact ⟨_, rfl⟩

/-- A cached connection that brings no answer leaves all addresses to be tried. -/
theorem callWith_eq_play (addr : String) (cached : Cached payload)
    (remotes : List (Remote payload)) :
    ∃ lastErr, callWith addr payload cached remotes =
      play (none, atRemotes addr payload lastErr remotes) (remoteEvents remotes) := by
  have hresolved : ∀ slot, step (TcpCall.start addr payload) slot
      (.resolved (remotes.map Remote.addr)) =
        some (slot, ⟨addr, payload, none, .locking (remotes.map Remote.addr)⟩) := fun slot => rfl
  have hlocking : ∀ phase phase', nextRemote ⟨addr, payload, none, phase⟩ (remotes.map Remote.addr) =
      nextRemote ⟨addr, payload, none, phase'⟩ (remotes.map Remote.addr) := by
    intro phase phase'
    cases remotes.map Remote.addr <;> rfl
  rw [callWith, play_cons (hresolved _)]
  cases cached with
  | empty =>
      refine ⟨none, ?_⟩
      rw [atRemotes, hlocking .resolving (.locking (remotes.map Remote.addr))]
      exact play_cons rfl _
  | expired conn =>
      refine ⟨none, ?_⟩
      rw [atRemotes, hlocking .resolving (.locking (remotes.map Remote.addr))]
      exact play_cons rfl _
  | failing conn exchange fails =>
      cases hresult : exchange.result with
      | ok frame =>
          rw [hresult] at fails
          cases fails
      | error e =>
          refine ⟨some e, ?_⟩
          have hlocked : step ⟨addr, payload, none, .locking (remotes.map Remote.addr)⟩ (some conn)
              (.locked true) =
                some (none, ⟨addr, payload, none, .writing conn (remotes.map Remote.addr)⟩) := rfl
          rw [Cached.slot, Cached.events, List.cons_append, play_cons hlocked,
            play_exchange_error hresult]
          rfl

/-- Nor is an address behind it tried. -/
theorem play_blocked (addr : String) {before : List (Remote payload)}
    (remotes : List (Remote payload)) : ∀ (lastErr : Option String) (slot : Option Conn),
    (∀ r ∈ before, r.outcome.frame = none) → (∃ r ∈ before, r.outcome.isConnected = false) →
    ∃ e, (play (slot, atRemotes addr payload lastErr (before ++ remotes))
      (remoteEvents (before ++ remotes))).2.phase = .finished (.error e) := by
  induction before with
  | nil =>
      rintro lastErr slot - ⟨r, hr, -⟩
      exact absurd hr List.not_mem_nil
  | cons remote before ih =>
      intro lastErr slot hframes hblocked
      rw [List.cons_append]
      cases hconnected : remote.outcome.isConnected with
      | false => exact play_unconnected hconnected _
      | true =>
          obtain ⟨e, hhead⟩ := play_remote_unanswered addr lastErr slot
            ⟨hconnected, hframes remote List.mem_cons_self⟩ (before ++ remotes)
          rw [hhead]
          refine ih _ _ (fun r hr => hframes r (.tail _ hr)) ?_
          obtain ⟨r, hr, hrefused⟩ := hblocked
          rcases List.mem_cons.mp hr with rfl | hr
          · rw [hconnected] at hrefused
            cases hrefused
          · exact ⟨r, hr, hrefused⟩

/-- Without an answer the call ends with an error. -/
theorem play_noAnswer (addr : String) (lastErr : Option String) (slot : Option Conn)
    {remotes : List (Remote payload)} (h : ∀ r ∈ remotes, r.outcome.frame = none) :
    ∃ e, (play (slot, atRemotes addr payload lastErr remotes)
      (remoteEvents remotes)).2.phase = .finished (.error e) := by
  rw [← List.append_nil remotes]
  by_cases hblocked : ∃ r ∈ remotes, r.outcome.isConnected = false
  · exact play_blocked addr [] lastErr slot h hblocked
  · have hunanswered : ∀ r ∈ remotes, r.Unanswered := by
      intro r hr
      refine ⟨?_, h r hr⟩
      by_contra hne
      exact hblocked ⟨r, hr, Bool.eq_false_iff.mpr hne⟩
    obtain ⟨lastErr', slot', hplay⟩ := play_unanswered addr [] lastErr slot hunanswered
    rw [hplay]
    exact ⟨_, rfl⟩

/-! ### The whole call

The cached connection comes first, when there is one that is fresh.  If it brings no answer, all
addresses are tried as if it had never been there.
-/

section Call

variable {cached : Cached payload} {before after : List (Remote payload)} {remote : Remote payload}

theorem callWith_answers {frame : Bytes} (hbefore : ∀ r ∈ before, r.Unanswered)
    (hanswer : remote.outcome.frame = some frame) :
    (callWith addr payload cached (before ++ remote :: after)).2.phase = .finished (.ok frame) := by
  obtain ⟨lastErr, hcall⟩ := callWith_eq_play addr cached (before ++ remote :: after)
  obtain ⟨lastErr', slot', hplay⟩ := play_unanswered addr (remote :: after) lastErr none hbefore
  rw [hcall, hplay]
  exact play_answers hanswer after

theorem callWith_blocked (hframes : ∀ r ∈ before, r.outcome.frame = none)
    (hblocked : ∃ r ∈ before, r.outcome.isConnected = false) :
    ∃ e, (callWith addr payload cached (before ++ after)).2.phase = .finished (.error e) := by
  obtain ⟨lastErr, hcall⟩ := callWith_eq_play addr cached (before ++ after)
  rw [hcall]
  exact play_blocked addr after lastErr none hframes hblocked

theorem callWith_noAnswer {remotes : List (Remote payload)}
    (hframes : ∀ r ∈ remotes, r.outcome.frame = none) :
    ∃ e, (callWith addr payload cached remotes).2.phase = .finished (.error e) := by
  obtain ⟨lastErr, hcall⟩ := callWith_eq_play addr cached remotes
  rw [hcall]
  exact play_noAnswer addr lastErr none hframes

end Call

end Addresses

/-- **Every address is tried exactly when** the ones before the first that answers can all be
connected to. -/
theorem every_address_tried_iff (addr : String) (payload : Bytes) (cached : Cached payload)
    (remotes : List (Remote payload)) :
    EveryAddressTried addr payload cached remotes ↔
      ∀ before remote after, remotes = before ++ remote :: after →
        remote.outcome.frame.isSome → (∀ r ∈ before, r.outcome.frame = none) →
        ∀ r ∈ before, r.outcome.isConnected = true := by
  constructor
  · rintro htried before remote after rfl hanswers hbefore r hr
    by_contra hrefused
    have hnone := htried.err.mp
      (callWith_blocked hbefore ⟨r, hr, Bool.eq_false_iff.mpr hrefused⟩)
    rw [firstAnswer, List.findSome?_eq_none_iff] at hnone
    rw [hnone remote (List.mem_append_right _ List.mem_cons_self)] at hanswers
    cases hanswers
  · intro hconnected
    cases hfirst : firstAnswer remotes with
    | none =>
        obtain ⟨e, he⟩ := callWith_noAnswer (List.findSome?_eq_none_iff.mp hfirst)
        refine ⟨fun frame => ?_, fun _ => hfirst, fun _ => ⟨e, he⟩⟩
        rw [he, hfirst]
        constructor
        · intro h
          cases h
        · intro h
          cases h
    | some answer =>
        obtain ⟨before, remote, after, rfl, hanswer, hbefore⟩ := List.findSome?_eq_some_iff.mp hfirst
        have hunanswered : ∀ r ∈ before, r.Unanswered := fun r hr =>
          ⟨hconnected before remote after rfl (by rw [hanswer]; rfl) hbefore r hr, hbefore r hr⟩
        have hok : (callWith addr payload cached (before ++ remote :: after)).2.phase =
            .finished (.ok answer) := callWith_answers hunanswered hanswer
        refine ⟨fun frame => ?_, ?_, fun h => ?_⟩
        · rw [hok, hfirst]
          simp only [CallPhase.finished.injEq, Except.ok.injEq, Option.some.injEq]
        · rintro ⟨e, he⟩
          rw [hok] at he
          cases he
        · rw [hfirst] at h
          cases h

/-- A request of serial 7, and an answer to it. -/
def requestSeven : Bytes := [0x54, 0x00, 0x07, 0x00]

def answerSeven : Bytes :=
  [0xD4, 0x00, 0x07, 0x00, 0x00, 0x00, 0x00, 0xFF, 0xFF, 0x03, 0x00, 0x02, 0x00, 0x00, 0x00]

/-- The exchange in which it comes in one read. -/
def exchangeSeven : Exchange requestSeven where
  events := [.wrote, .read (.ok answerSeven)]
  result := .ok answerSeven
  exchanges := by
    have hlast : onRead (serialOf requestSeven) [] (.ok answerSeven) = .returned answerSeven [] := by
      decide +kernel
    exact @Exchanges.answers _ [] _ _ _ _ rfl hlast

/-- The address that comes first refuses, the one behind it would answer. -/
def refusedFirst : List (Remote requestSeven) :=
  [⟨"[::1]:5007", .refused "Connection refused (os error 111)"⟩,
    ⟨"127.0.0.1:5007", .connects 0 exchangeSeven⟩]

/-- It is not tried. -/
theorem every_address_tried_fails :
    (callWith "localhost:5007" requestSeven .empty refusedFirst).2.phase =
      .finished (protocolError "connect error: Connection refused (os error 111)") ∧
    ¬ ∀ (addr : String) (payload : Bytes) (cached : Cached payload)
      (remotes : List (Remote payload)), EveryAddressTried addr payload cached remotes := by
  have hend : (callWith "localhost:5007" requestSeven .empty refusedFirst).2.phase =
      .finished (protocolError "connect error: Connection refused (os error 111)") := rfl
  refine ⟨hend, fun h => ?_⟩
  have hnone := (h "localhost:5007" requestSeven .empty refusedFirst).err.mp ⟨_, hend⟩
  have hsome : firstAnswer refusedFirst = some answerSeven := rfl
  rw [hsome] at hnone
  cases hnone

end MelsecMc
