/-
The attempts of a UDP call.

`send_and_recv_udp` goes through its addresses in order and sends a fixed number of times from
each socket it could bind; nothing else decides what it sends.  `Progress` says so of a call
that is under way: which addresses are done with, and how many attempts the present one has
had.  A call that gives up has done it all.

The result is about the order as well as the number: an address comes after all the attempts at
the one before it, and a socket that could not be bound costs its address and nothing else.
What ends a call before that is a datagram it takes for its answer, or a resolver that fails.
-/
import MelsecMc.Lib.Runs
import MelsecMc.Proofs.Calls

namespace MelsecMc

namespace UdpCall

/-! ### What a call did

A record of a run: the addresses that were resolved, the sockets that were bound or not, and
every frame that was handed to a socket.  `attempts` is the list a call works through, made from
the first two alone.
-/

structure Record where
  /-- the addresses the name was resolved to -/
  addrs : List SocketAddr
  /-- what each bind gave -/
  binds : List (Option Sock)
  /-- each `send_to` that was not abandoned, with the socket it used -/
  sends : List (Sock × SocketAddr)

/-- What one event adds. -/
def Record.after (r : Record) (call : UdpCall) (e : UdpEvent) : Record :=
  match call.phase, e with
  | .resolving, .resolved addrs => { r with addrs }
  | .binding _ _, .bound sock => { r with binds := r.binds ++ [some sock] }
  | .binding _ _, .bindFailed _ => { r with binds := r.binds ++ [none] }
  | .sending sock remote _ _, .sent => { r with sends := r.sends ++ [(sock, remote)] }
  | .sending sock remote _ _, .sendFailed _ => { r with sends := r.sends ++ [(sock, remote)] }
  | _, _ => r

theorem Record.after_cancel (r : Record) (call : UdpCall) : r.after call .cancel = r := by
  unfold Record.after
  cases call.phase <;> rfl

/-- What the steps of a call did. -/
def recordOf (steps : List (UdpCall × UdpEvent)) : Record :=
  steps.foldl (fun r p => r.after p.1 p.2) ⟨[], [], []⟩

theorem recordOf_append (steps : List (UdpCall × UdpEvent)) (call : UdpCall) (e : UdpEvent) :
    recordOf (steps ++ [(call, e)]) = (recordOf steps).after call e := by
  rw [recordOf, List.foldl_append]
  rfl

/-- Every attempt at an address: none where there is no socket. -/
def attemptsAt (maxAttempts : Nat) (remote : SocketAddr) : Option Sock → List (Sock × SocketAddr)
  | some sock => List.replicate maxAttempts (sock, remote)
  | none => []

/-- Every attempt at these addresses, one after the other. -/
def attempts (maxAttempts : Nat) (addrs : List SocketAddr) (binds : List (Option Sock)) :
    List (Sock × SocketAddr) :=
  (addrs.zip binds).flatMap fun p => attemptsAt maxAttempts p.1 p.2

section Attempts

variable (maxAttempts : Nat) {done : List SocketAddr} {binds : List (Option Sock)}

/-- One more address that was tried. -/
theorem attempts_append (hlen : binds.length = done.length) (remote : SocketAddr)
    (rest : List SocketAddr) (sock : Option Sock) :
    attempts maxAttempts (done ++ remote :: rest) (binds ++ [sock]) =
      attempts maxAttempts done binds ++ attemptsAt maxAttempts remote sock := by
  rw [attempts, List.zip_append hlen.symm, List.flatMap_append, attempts]
  simp

/-- The addresses behind those that were tried play no part. -/
theorem attempts_rest (hlen : binds.length = done.length) (rest : List SocketAddr) :
    attempts maxAttempts (done ++ rest) binds = attempts maxAttempts done binds := by
  have hzip : (done ++ rest).zip (binds ++ []) = done.zip binds ++ rest.zip [] :=
    List.zip_append hlen.symm
  rw [List.append_nil, List.zip_nil_right, List.append_nil] at hzip
  rw [attempts, hzip, attempts]

end Attempts

/-! ### How far a call has come

The loops over addresses and attempts are nested, so a call that is under way has some addresses
behind it and some attempts at the present one.  What it has sent is a front of the whole list.
-/

/-- The present address: those before it are done with, and it has had some attempts. -/
structure At (maxAttempts : Nat) (r : Record) (sock : Sock) (remote : SocketAddr)
    (rest done : List SocketAddr) (before : List (Option Sock)) (attempt : Nat) : Prop where
  addrs : r.addrs = done ++ remote :: rest
  binds : r.binds = before ++ [some sock]
  length : before.length = done.length
  sends : r.sends = attempts maxAttempts done before ++ List.replicate attempt (sock, remote)
  attempt_le : attempt ≤ maxAttempts

/-- What was done when the call is in this phase. -/
inductive Progress (addr : String) (maxAttempts : Nat) (r : Record) : UdpPhase → Prop
  | resolving (hr : r = ⟨[], [], []⟩) : Progress addr maxAttempts r .resolving
  | binding {done : List SocketAddr} {remote : SocketAddr} {rest : List SocketAddr}
      (haddrs : r.addrs = done ++ remote :: rest) (hbinds : r.binds.length = done.length)
      (hsends : r.sends = attempts maxAttempts done r.binds) :
      Progress addr maxAttempts r (.binding remote rest)
  | sending {sock : Sock} {remote : SocketAddr} {rest done : List SocketAddr}
      {before : List (Option Sock)} {attempt : Nat}
      (h : At maxAttempts r sock remote rest done before attempt) (hlt : attempt < maxAttempts) :
      Progress addr maxAttempts r (.sending sock remote rest attempt)
  | receiving {sock : Sock} {remote : SocketAddr} {rest done : List SocketAddr}
      {before : List (Option Sock)} {attempt room : Nat}
      (h : At maxAttempts r sock remote rest done before (attempt + 1)) :
      Progress addr maxAttempts r (.receiving sock remote rest attempt room)
  | returned {sock : Sock} {remote : SocketAddr} {rest done : List SocketAddr}
      {before : List (Option Sock)} {attempt : Nat} {packet : Bytes}
      (h : At maxAttempts r sock remote rest done before (attempt + 1)) :
      Progress addr maxAttempts r (.finished (.ok packet))
  | unresolved {e : String} (hr : r = ⟨[], [], []⟩) :
      Progress addr maxAttempts r (.finished (protocolError s!"bad address {addr}: {e}"))
  | gaveUp (hbinds : r.binds.length = r.addrs.length)
      (hsends : r.sends = attempts maxAttempts r.addrs r.binds) :
      Progress addr maxAttempts r (.finished (protocolError s!"failed to send UDP to {addr}"))
  | cancelled (hsends : r.sends <+: attempts maxAttempts r.addrs r.binds) :
      Progress addr maxAttempts r .cancelled

section Progress

variable {addr : String} {maxAttempts : Nat} {r : Record}

/-- What was sent up to now. -/
theorem At.sends_isPrefix {sock : Sock} {remote : SocketAddr} {rest done : List SocketAddr}
    {before : List (Option Sock)} {attempt : Nat}
    (h : At maxAttempts r sock remote rest done before attempt) :
    r.sends <+: attempts maxAttempts r.addrs r.binds := by
  rw [h.addrs, h.binds, attempts_append maxAttempts h.length, h.sends,
    List.prefix_append_right_inj]
  refine ⟨List.replicate (maxAttempts - attempt) (sock, remote), ?_⟩
  rw [List.replicate_append_replicate, Nat.add_sub_cancel' h.attempt_le]
  rfl

theorem Progress.sends_isPrefix {phase : UdpPhase} (h : Progress addr maxAttempts r phase) :
    r.sends <+: attempts maxAttempts r.addrs r.binds := by
  cases h with
  | resolving hr =>
      rw [hr]
      exact List.nil_prefix
  | binding haddrs hbinds hsends =>
      rw [haddrs, attempts_rest maxAttempts hbinds]
      exact hsends ▸ List.prefix_refl _
  | sending h _ => exact h.sends_isPrefix
  | receiving h => exact h.sends_isPrefix
  | returned h => exact h.sends_isPrefix
  | unresolved hr =>
      rw [hr]
      exact List.nil_prefix
  | gaveUp _ hsends => exact hsends ▸ List.prefix_refl _
  | cancelled hsends => exact hsends

/-- The address loop goes on. -/
theorem progress_nextRemote (call : UdpCall) (r : Record) {done rest : List SocketAddr}
    (haddrs : r.addrs = done ++ rest) (hbinds : r.binds.length = done.length)
    (hsends : r.sends = attempts maxAttempts done r.binds) :
    Progress call.addr maxAttempts r (nextRemote call rest).phase := by
  cases rest with
  | nil =>
      rw [List.append_nil] at haddrs
      subst haddrs
      exact .gaveUp hbinds hsends
  | cons remote rest => exact .binding haddrs hbinds hsends

/-- The attempt loop goes on. -/
theorem progress_nextAttempt (call : UdpCall) (r : Record) {sock : Sock} {remote : SocketAddr}
    {rest done : List SocketAddr} {before : List (Option Sock)} {attempt : Nat}
    (h : At call.maxAttempts r sock remote rest done before attempt) :
    Progress call.addr call.maxAttempts r (nextAttempt call sock remote rest attempt).phase := by
  rw [nextAttempt]
  split
  · rename_i hlt
    exact .sending h hlt
  · rename_i hge
    have hall : attempt = call.maxAttempts := Nat.le_antisymm h.attempt_le (Nat.not_lt.mp hge)
    have hdone : r.addrs = (done ++ [remote]) ++ rest := by
      rw [h.addrs, List.append_assoc]
      rfl
    refine progress_nextRemote call r hdone ?_ ?_
    · rw [h.binds, List.length_append, List.length_append, h.length]
      rfl
    · rw [h.sends, h.binds, attempts_append call.maxAttempts h.length remote [] (some sock), hall]
      rfl

/-! ### One step

A step is one more attempt, one more address, or the end; each leads from one point of the
list to the next.
-/

/-- The first attempt at an address. -/
theorem At.bound {sock : Sock} {remote : SocketAddr} {rest done : List SocketAddr}
    (haddrs : r.addrs = done ++ remote :: rest) (hbinds : r.binds.length = done.length)
    (hsends : r.sends = attempts maxAttempts done r.binds) :
    At maxAttempts { r with binds := r.binds ++ [some sock] } sock remote rest done r.binds 0 where
  addrs := haddrs
  binds := rfl
  length := hbinds
  sends := by
    rw [List.replicate_zero, List.append_nil]
    exact hsends
  attempt_le := Nat.zero_le _

/-- One more attempt at the present address. -/
theorem At.attempted {sock : Sock} {remote : SocketAddr} {rest done : List SocketAddr}
    {before : List (Option Sock)} {attempt : Nat}
    (h : At maxAttempts r sock remote rest done before attempt) (hlt : attempt < maxAttempts) :
    At maxAttempts { r with sends := r.sends ++ [(sock, remote)] } sock remote rest done before
      (attempt + 1) where
  addrs := h.addrs
  binds := h.binds
  length := h.length
  sends := by
    show r.sends ++ [(sock, remote)] = _
    rw [h.sends, List.append_assoc, List.replicate_succ']
  attempt_le := hlt

/-- No socket for an address, and the address loop goes on. -/
theorem progress_unbound (call : UdpCall) {remote : SocketAddr} {rest done : List SocketAddr}
    (haddrs : r.addrs = done ++ remote :: rest) (hbinds : r.binds.length = done.length)
    (hsends : r.sends = attempts maxAttempts done r.binds) :
    Progress call.addr maxAttempts { r with binds := r.binds ++ [none] }
      (nextRemote call rest).phase := by
  have hdone : r.addrs = (done ++ [remote]) ++ rest := by
    rw [haddrs, List.append_assoc]
    rfl
  refine progress_nextRemote call _ hdone ?_ ?_
  · show (r.binds ++ [none]).length = _
    rw [List.length_append, List.length_append, hbinds]
    rfl
  · show r.sends = attempts maxAttempts (done ++ [remote]) (r.binds ++ [none])
    rw [hsends, attempts_append maxAttempts hbinds remote [] none]
    exact (List.append_nil _).symm

/-- What was done stays in step with the call. -/
theorem Progress.step {call call' : UdpCall} {e : UdpEvent}
    (hprogress : Progress call.addr call.maxAttempts r call.phase) (h : call.step e = some call') :
    Progress call.addr call.maxAttempts (r.after call e) call'.phase := by
  have hprefix := hprogress.sends_isPrefix
  cases step_cases h with
  | cancelled hlive =>
      rw [Record.after_cancel]
      exact .cancelled hprefix
  | @resolved addrs hphase =>
      rw [hphase] at hprogress
      cases hprogress with
      | resolving hr =>
          unfold Record.after
          rw [hphase, hr]
          have haddrs : addrs = [] ++ addrs := rfl
          exact progress_nextRemote call ⟨addrs, [], []⟩ haddrs rfl rfl
  | unresolved hphase =>
      rw [hphase] at hprogress
      cases hprogress with
      | resolving hr =>
          unfold Record.after
          rw [hphase]
          exact .unresolved hr
  | bound hphase =>
      rw [hphase] at hprogress
      cases hprogress with
      | binding haddrs hbinds hsends =>
          unfold Record.after
          rw [hphase]
          exact progress_nextAttempt call _ (At.bound haddrs hbinds hsends)
  | bindFailed hphase =>
      rw [hphase] at hprogress
      cases hprogress with
      | binding haddrs hbinds hsends =>
          unfold Record.after
          rw [hphase]
          exact progress_unbound call haddrs hbinds hsends
  | sent hphase =>
      rw [hphase] at hprogress
      cases hprogress with
      | sending hat hlt =>
          unfold Record.after
          rw [hphase]
          exact .receiving (hat.attempted hlt)
  | sendFailed hphase =>
      rw [hphase] at hprogress
      cases hprogress with
      | sending hat hlt =>
          unfold Record.after
          rw [hphase]
          exact progress_nextAttempt call _ (hat.attempted hlt)
  | waits hphase _ =>
      rw [hphase] at hprogress
      cases hprogress with
      | receiving hat =>
          unfold Record.after
          rw [hphase]
          exact .receiving hat
  | returns hphase _ =>
      rw [hphase] at hprogress
      cases hprogress with
      | receiving hat =>
          unfold Record.after
          rw [hphase]
          exact .returned hat
  | receiveFailed hphase _ =>
      rw [hphase] at hprogress
      cases hprogress with
      | receiving hat =>
          unfold Record.after
          rw [hphase]
          exact progress_nextAttempt call _ hat

end Progress

/-! ### Every run -/

/-- What was done by the steps that led to a call. -/
structure Did (addr : String) (maxAttempts : Nat) (steps : List (UdpCall × UdpEvent))
    (call : UdpCall) : Prop where
  target : call.addr = addr
  configured : call.maxAttempts = maxAttempts
  progress : Progress addr maxAttempts (recordOf steps) call.phase

theorem did_run {addr : String} {payload : Bytes} {maxAttempts : Nat} {events : List UdpEvent}
    {call : UdpCall} (hrun : Runs.run step (start addr payload maxAttempts) events = some call) :
    Did addr maxAttempts (Runs.trace step (start addr payload maxAttempts) events) call := by
  have hstep : ∀ steps call e call', Did addr maxAttempts steps call →
      step call e = some call' → Did addr maxAttempts (steps ++ [(call, e)]) call' := by
    intro steps call e call' hdid h
    obtain ⟨rfl, rfl, hprogress⟩ := hdid
    have hsame := same_of_step h
    refine ⟨hsame.addr, hsame.maxAttempts, ?_⟩
    rw [recordOf_append]
    exact hprogress.step h
  have hstart : Did addr maxAttempts [] (start addr payload maxAttempts) :=
    ⟨rfl, rfl, .resolving rfl⟩
  have hdid := Runs.run_invariant_trace hstep events hstart hrun
  exact hdid

/-- **A UDP call gives up only when it has tried everything.**  What it sends is the beginning
of all its attempts, `maxAttempts` from each socket it could bind, in the order of the
addresses.  It fails with its own message when there is no attempt and no address left, it
returns a packet only behind an attempt, and there is no other failure but the resolver's. -/
theorem gives_up_after_all_attempts {addr : String} {payload : Bytes} {maxAttempts : Nat}
    {events : List UdpEvent} {call : UdpCall}
    (hrun : Runs.run step (start addr payload maxAttempts) events = some call) :
    let r := recordOf (Runs.trace step (start addr payload maxAttempts) events)
    r.sends <+: attempts maxAttempts r.addrs r.binds ∧
    (∀ e, call.phase = .finished (.error e) →
      (r.binds.length = r.addrs.length ∧ r.sends = attempts maxAttempts r.addrs r.binds ∧
        .error e = (protocolError s!"failed to send UDP to {addr}" : Except Failure Bytes)) ∨
      (r.sends = [] ∧
        ∃ msg : String,
          .error e = (protocolError s!"bad address {addr}: {msg}" : Except Failure Bytes))) ∧
    ∀ packet, call.phase = .finished (.ok packet) →
      ∃ done remote rest before sock attempt, r.addrs = done ++ remote :: rest ∧
        r.binds = before ++ [some sock] ∧ before.length = done.length ∧
        attempt < maxAttempts ∧
        r.sends = attempts maxAttempts done before ++ List.replicate (attempt + 1) (sock, remote) := by
  intro r
  have hprogress : Progress addr maxAttempts r call.phase := (did_run hrun).progress
  refine ⟨hprogress.sends_isPrefix, ?_, ?_⟩
  · intro e hphase
    rw [hphase] at hprogress
    generalize hresult : (Except.error e : Except Failure Bytes) = result at hprogress
    cases hprogress with
    | returned h => cases hresult
    | unresolved hr => exact .inr ⟨by rw [hr], _, rfl⟩
    | gaveUp hbinds hsends => exact .inl ⟨hbinds, hsends, rfl⟩
  · intro packet hphase
    rw [hphase] at hprogress
    generalize hresult : (Except.ok packet : Except Failure Bytes) = result at hprogress
    cases hprogress with
    | returned h =>
        rename_i sock remote rest done before attempt _
        exact ⟨done, remote, rest, before, sock, attempt, h.addrs, h.binds, h.length,
          h.attempt_le, h.sends⟩
    | unresolved hr => cases hresult
    | gaveUp hbinds hsends => cases hresult

/-- Two addresses and two attempts each: the first socket cannot be bound, and the answers to
what the second sends do not come. -/
def triedTwice : List UdpEvent :=
  [.resolved ["first", "second"], .bindFailed "no", .bound 7, .sendFailed "unreachable", .sent,
    .received (.ok [0xD4, 0, 2, 0]), .received (.err "timeout")]

theorem gives_up_after_all_attempts_twice :
    ∃ call, Runs.run step (start "plc" [0x54, 0, 1, 0] 2) triedTwice = some call ∧
      call.phase = .finished (protocolError "failed to send UDP to plc") ∧
      (recordOf (Runs.trace step (start "plc" [0x54, 0, 1, 0] 2) triedTwice)).sends =
        [(7, "second"), (7, "second")] ∧
      (recordOf (Runs.trace step (start "plc" [0x54, 0, 1, 0] 2) triedTwice)).sends <+:
        attempts 2
          (recordOf (Runs.trace step (start "plc" [0x54, 0, 1, 0] 2) triedTwice)).addrs
          (recordOf (Runs.trace step (start "plc" [0x54, 0, 1, 0] 2) triedTwice)).binds := by
  have hends : (Runs.run step (start "plc" [0x54, 0, 1, 0] 2) triedTwice).map UdpCall.phase =
      some (.finished (protocolError "failed to send UDP to plc")) := by decide +kernel
  obtain ⟨call, hrun, hphase⟩ := Option.map_eq_some_iff.mp hends
  exact ⟨call, hrun, hphase, by decide +kernel, (gives_up_after_all_attempts hrun).1⟩

end UdpCall

end MelsecMc
