/-
A datagram answers the call it is delivered to.

A call has a socket of its own, so what comes from its port is its frame and what comes to its
port is an answer to it, as often as the network likes.  But a port number outlives a socket:
answers to an earlier call may still be on their way to it, and the station may still get to
the frame of that call.  And since nobody looks at where a datagram comes from, anything at all
may come from elsewhere.  Against all that a call has the serial, and nothing else.

A `Noise` says what may come to a port besides the answers to the frame of the call that has it,
always less than what the call takes for an answer.  `Inv` says of one moment, for a noise:
what is on its way to the port of a call answers the frame of the call or is noise, and what a
call has returned answers its frame.  It is kept as long as only noise disturbs.

Noise costs bytes, since a discarded datagram leaves no more room in the buffer than it had
itself (`Proofs/Datagrams.lean`).  So what is returned is an answer to the call's own frame from
its first byte on, but only without noise is it sure to be all of it (`datagrams_are_own`).
-/
import MelsecMc.Proofs.Calls
import MelsecMc.Proofs.Datagrams
import MelsecMc.Proofs.Plant

namespace MelsecMc

/-! ### What a receive makes of an answer -/

/-- What may come to the port of a call besides the answers to its frame: for a payload, some
of the datagrams that do not answer it. -/
structure Noise where
  allows : Bytes → Bytes → Prop
  unanswering : ∀ payload datagram, allows payload datagram →
    ¬ AnswersRequest (serialOf payload) datagram

/-- Nothing. -/
def Noise.silence : Noise where
  allows _ _ := False
  unanswering _ _ h := h.elim

/-- An answer with the expected serial is returned, all of it when nothing was discarded. -/
theorem onDatagram_answer {expected : UInt16} {f : Mc4eFrame} (hserial : f.serial = expected) :
    onDatagram expected udpBufLen (.ok f.bytes) = .returned f.bytes := by
  have hroom : f.bytes.length ≤ udpBufLen := by
    have hfits := f.fits
    rw [f.length_bytes, udpBufLen]
    omega
  have hanswers : AnswersRequest expected f.bytes := by
    refine .inr ?_
    rw [Mc4eFrame.bytes, Mc4eFrame.header, serialOf_mc4eHeader]
    exact hserial
  rw [onDatagram_ok, List.take_of_length_le hroom, if_pos hanswers]

/-- What is returned is the front of a datagram that answers. -/
theorem onDatagram_returned {expected : UInt16} {room : Nat} {datagram packet : Bytes}
    (h : onDatagram expected room (.ok datagram) = .returned packet) :
    packet <+: datagram ∧ AnswersRequest expected datagram := by
  rw [onDatagram_ok] at h
  split at h
  · rename_i hanswers
    rw [UdpState.returned.injEq] at h
    refine ⟨h ▸ List.take_prefix _ _, ?_⟩
    by_contra hnot
    exact not_answers_take hnot room hanswers
  · cases h

namespace UdpPlant

variable {σ : Type}

/-! ### One action

An action changes one thing.  `Moves` names them, and what each one needs to have been there;
the rest of this file and the proofs about transports go by its cases.
-/

/-- The task's call has gone on to its next await. -/
def after (w : UdpPlant σ) (t : TaskId) (e : UdpEvent) (arrived : Bool) (call call' : UdpCall) :
    UdpPlant σ :=
  { w with
    call := Function.update w.call t (some call')
    ports := portsAfter call.phase call'.phase w.ports
    requests := w.requests ++ sentBy (w.origin t) call e arrived
    sent := w.sent ++ (sentBy (w.origin t) call e arrived).map Prod.snd }

/-- Everything an action can do. -/
inductive Moves (station : Station σ) (w : UdpPlant σ) : UdpPlantAction σ → UdpPlant σ → Prop
  | begins {t : TaskId} {payload : Bytes} {origin : Nat}
      (hdone : (w.call t).all UdpCall.isDone = true) :
      Moves station w (.begin t payload origin) { w with
        call := Function.update w.call t (some (UdpCall.start w.addr payload w.maxAttempts))
        origin := Function.update w.origin t origin
        since := Function.update w.since t w.executed.length }
  | goesOn {t : TaskId} {e : UdpEvent} {arrived : Bool} {call call' : UdpCall}
      (hcall : w.call t = some call) (hmay : w.mayHappen e = true)
      (hstep : call.step e = some call') :
      Moves station w (.event t e arrived) (w.after t e arrived call call')
  | delivers {t : TaskId} {i : Nat} {sock : Sock} {datagram : Bytes} {call call' : UdpCall}
      (hanswer : w.answers[i]? = some (sock, datagram)) (hcall : w.call t = some call)
      (hsock : call.phase.sock = some sock)
      (hstep : call.step (.received (.ok datagram)) = some call') :
      Moves station w (.deliver t i) (w.after t (.received (.ok datagram)) false call call')
  | serves {i : Nat} {sock : Sock} {request : Request}
      (hrequest : w.requests[i]? = some (sock, request)) :
      Moves station w (.serve i) (w.served station sock request)
  | losesRequest {i : Nat} :
      Moves station w (.loseRequest i) { w with requests := w.requests.eraseIdx i }
  | losesAnswer {i : Nat} :
      Moves station w (.loseAnswer i) { w with answers := w.answers.eraseIdx i }
  | changes {state : σ} : Moves station w (.change state) { w with state }

theorem stepCall_eq_some {w w' : UdpPlant σ} {t : TaskId} {e : UdpEvent} {arrived : Bool}
    (h : w.stepCall t e arrived = some w') :
    ∃ call call', w.call t = some call ∧ call.step e = some call' ∧
      w' = w.after t e arrived call call' := by
  unfold stepCall at h
  split at h
  · cases h
  · rename_i call hcall
    obtain ⟨call', hstep, rfl⟩ := Option.map_eq_some_iff.mp h
    exact ⟨call, call', hcall, hstep, rfl⟩

theorem step_cases {station : Station σ} {w w' : UdpPlant σ} {a : UdpPlantAction σ}
    (h : w.step station a = some w') : Moves station w a w' := by
  cases a with
  | begin t payload origin =>
      simp only [step] at h
      split at h
      · cases h
        exact .begins ‹_›
      · cases h
  | event t e arrived =>
      simp only [step] at h
      split at h
      · obtain ⟨call, call', hcall, hstep, rfl⟩ := stepCall_eq_some h
        exact .goesOn hcall ‹_› hstep
      · cases h
  | deliver t i =>
      simp only [step] at h
      split at h
      · cases h
      · rename_i sock datagram hanswer
        split at h
        · rename_i hsock
          obtain ⟨call, call', hcall, hstep, rfl⟩ := stepCall_eq_some h
          rw [hcall, Option.bind_some] at hsock
          exact .delivers hanswer hcall hsock hstep
        · cases h
  | serve i =>
      obtain ⟨⟨sock, request⟩, hrequest, rfl⟩ := Option.map_eq_some_iff.mp h
      exact .serves hrequest
  | loseRequest i =>
      cases h
      exact .losesRequest
  | loseAnswer i =>
      cases h
      exact .losesAnswer
  | change state =>
      cases h
      exact .changes

/-- What an event puts in flight comes from the call's own port. -/
theorem mem_sentBy {origin : Nat} {call : UdpCall} {e : UdpEvent} {arrived : Bool}
    {p : Sock × Request} (h : p ∈ sentBy origin call e arrived) :
    call.phase.sock = some p.1 ∧ p.2 = ⟨origin, call.payload⟩ := by
  unfold sentBy at h
  split at h
  · rename_i hphase
    split at h
    · rw [List.mem_singleton] at h
      rw [h, hphase]
      exact ⟨rfl, rfl⟩
    · exact absurd h List.not_mem_nil
  · exact absurd h List.not_mem_nil

/-! ### Good actions

Two things can go wrong.  A port may be given out while something is on its way to it, or while
the station has still to answer a frame that came from it; and a datagram may come from
elsewhere.  An action is good when all of this is noise to the call.
-/

/-- The event disturbs the call with noise at most. -/
def GoodEvent (noise : Noise) (w : UdpPlant σ) (call : UdpCall) : UdpEvent → Prop
  | .bound sock =>
      (∀ request, (sock, request) ∈ w.requests → ∀ f : Mc4eFrame,
        f.serial = serialOf request.payload → noise.allows call.payload f.bytes) ∧
      ∀ datagram, (sock, datagram) ∈ w.answers → noise.allows call.payload datagram
  | .received (.ok datagram) => noise.allows call.payload datagram
  | _ => True

def GoodAction (noise : Noise) (w : UdpPlant σ) : UdpPlantAction σ → Prop
  | .event t e _ => ∀ call, w.call t = some call → w.GoodEvent noise call e
  | _ => True

/-! ### One moment -/

/-- The datagram answers the frame of the task's call, and was served since the call began. -/
def OwnAnswer (w : UdpPlant σ) (t : TaskId) (payload datagram : Bytes) : Prop :=
  ∃ f : Mc4eFrame,
    ServedIn w.executed (w.since t) ⟨w.origin t, payload⟩ (some f) ∧ datagram = f.bytes

/-- What comes from the port is the call's frame, and what comes to it answers the frame, but
for noise. -/
structure Owns (noise : Noise) (w : UdpPlant σ) (t : TaskId) (payload : Bytes) (sock : Sock) :
    Prop where
  requests : ∀ request, (sock, request) ∈ w.requests → request = ⟨w.origin t, payload⟩ ∨
    ∀ f : Mc4eFrame, f.serial = serialOf request.payload → noise.allows payload f.bytes
  answers : ∀ datagram, (sock, datagram) ∈ w.answers →
    w.OwnAnswer t payload datagram ∨ noise.allows payload datagram

/-- What is true of a task's call, by its phase.  Without noise the buffer stays as it was
made. -/
def PhaseOk (noise : Noise) (w : UdpPlant σ) (t : TaskId) (call : UdpCall) : Prop :=
  match call.phase with
  | .sending sock _ _ _ => w.Owns noise t call.payload sock
  | .receiving sock _ _ _ room => w.Owns noise t call.payload sock ∧
      (room = udpBufLen ∨ ∃ datagram, noise.allows call.payload datagram)
  | .finished (.ok packet) => ∃ answer, w.OwnAnswer t call.payload answer ∧ packet <+: answer ∧
      (packet = answer ∨ ∃ datagram, noise.allows call.payload datagram)
  | _ => True

structure Inv (noise : Noise) (station : Station σ) (w : UdpPlant σ) : Prop where
  ports : ∀ t call sock, w.call t = some call → call.phase.sock = some sock → sock ∈ w.ports
  /-- no two calls have the same port -/
  alone : ∀ t u call other sock, w.call t = some call → w.call u = some other →
    call.phase.sock = some sock → other.phase.sock = some sock → u = t
  since : ∀ t, w.since t ≤ w.executed.length
  logged : Logged station w.executed
  calls : ∀ t call, w.call t = some call → w.PhaseOk noise t call

theorem inv_start (noise : Noise) (station : Station σ) (addr : String) (maxAttempts : Nat)
    (state : σ) : (start addr maxAttempts state).Inv noise station where
  ports t call sock h := by cases h
  alone t u call other sock h := by cases h
  since _ := Nat.le_refl 0
  logged x h := absurd h List.not_mem_nil
  calls t call h := by cases h

section Phase

variable {noise : Noise} {w w' : UdpPlant σ} {t : TaskId} {call : UdpCall}

theorem OwnAnswer.mono {payload datagram : Bytes} (h : w.OwnAnswer t payload datagram)
    (hexecuted : w.executed <+: w'.executed) (hsince : w'.since t = w.since t)
    (horigin : w'.origin t = w.origin t) : w'.OwnAnswer t payload datagram := by
  obtain ⟨f, hserved, hf⟩ := h
  rw [OwnAnswer, hsince, horigin]
  exact ⟨f, hserved.mono hexecuted, hf⟩

/-- A call is not touched by what happens at other ports. -/
theorem Owns.frame {payload : Bytes} {sock : Sock} (h : w.Owns noise t payload sock)
    (hexecuted : w.executed <+: w'.executed) (hsince : w'.since t = w.since t)
    (horigin : w'.origin t = w.origin t)
    (hrequests : ∀ request, (sock, request) ∈ w'.requests → (sock, request) ∈ w.requests)
    (hanswers : ∀ datagram, (sock, datagram) ∈ w'.answers → (sock, datagram) ∈ w.answers) :
    w'.Owns noise t payload sock := by
  refine ⟨fun request hrequest => ?_, fun datagram hdatagram => ?_⟩
  · rw [horigin]
    exact h.requests request (hrequests request hrequest)
  · exact (h.answers datagram (hanswers datagram hdatagram)).imp_left
      fun hown => hown.mono hexecuted hsince horigin

/-- A call stays as it is, when its socket does. -/
theorem phaseOk_mono (h : w.PhaseOk noise t call) (hexecuted : w.executed <+: w'.executed)
    (hsince : w'.since t = w.since t) (horigin : w'.origin t = w.origin t)
    (howns : ∀ sock, call.phase.sock = some sock → w.Owns noise t call.payload sock →
      w'.Owns noise t call.payload sock) : w'.PhaseOk noise t call := by
  unfold PhaseOk at h ⊢
  split at h
  · rename_i sock remote addrs attempt hphase
    exact howns sock (by rw [hphase]; rfl) h
  · rename_i sock remote addrs attempt room hphase
    exact ⟨howns sock (by rw [hphase]; rfl) h.1, h.2⟩
  · obtain ⟨answer, hanswer, hpacket⟩ := h
    exact ⟨answer, hanswer.mono hexecuted hsince horigin, hpacket⟩
  · trivial

theorem PhaseOk.owns (h : w.PhaseOk noise t call) {sock : Sock}
    (hsock : call.phase.sock = some sock) : w.Owns noise t call.payload sock := by
  cases hphase : call.phase with
  | sending s remote addrs attempt =>
      rw [hphase] at hsock
      cases hsock
      rw [PhaseOk, hphase] at h
      exact h
  | receiving s remote addrs attempt room =>
      rw [hphase] at hsock
      cases hsock
      rw [PhaseOk, hphase] at h
      exact h.1
  | _ =>
      rw [hphase] at hsock
      cases hsock

theorem phaseOk_nextRemote (addrs : List SocketAddr) :
    w.PhaseOk noise t (call.nextRemote addrs) := by
  cases addrs <;> trivial

theorem phaseOk_nextAttempt {sock : Sock} (h : w.Owns noise t call.payload sock)
    (remote : SocketAddr) (addrs : List SocketAddr) (attempt : Nat) :
    w.PhaseOk noise t (call.nextAttempt sock remote addrs attempt) := by
  rw [UdpCall.nextAttempt]
  split
  · exact h
  · exact phaseOk_nextRemote addrs

end Phase

namespace Inv

variable {noise : Noise} {w w' : UdpPlant σ} {station : Station σ}

/-- A new call has no socket yet. -/
theorem begin (hinv : Inv noise station w) (t : TaskId) (payload : Bytes) (origin : Nat) :
    Inv noise station { w with
      call := Function.update w.call t (some (UdpCall.start w.addr payload w.maxAttempts))
      origin := Function.update w.origin t origin
      since := Function.update w.since t w.executed.length } := by
  have hold : ∀ {u call sock}, Function.update w.call t
      (some (UdpCall.start w.addr payload w.maxAttempts)) u = some call →
      call.phase.sock = some sock → w.call u = some call := by
    intro u call sock hcall hsock
    by_cases hu : u = t
    · subst hu
      rw [Function.update_self, Option.some.injEq] at hcall
      subst hcall
      cases hsock
    · rwa [Function.update_of_ne hu] at hcall
  refine ⟨?_, ?_, ?_, hinv.logged, ?_⟩
  · intro u call sock hcall hsock
    exact hinv.ports u call sock (hold hcall hsock) hsock
  · intro u v call other sock hcall hother hsock hsock'
    exact hinv.alone u v call other sock (hold hcall hsock) (hold hother hsock') hsock hsock'
  · intro u
    show Function.update w.since t w.executed.length u ≤ w.executed.length
    by_cases hu : u = t
    · rw [hu, Function.update_self]
    · rw [Function.update_of_ne hu]
      exact hinv.since u
  · intro u call hcall
    have hupdate : Function.update w.call t
        (some (UdpCall.start w.addr payload w.maxAttempts)) u = some call := hcall
    by_cases hu : u = t
    · rw [hu, Function.update_self, Option.some.injEq] at hupdate
      subst hupdate
      trivial
    · rw [Function.update_of_ne hu] at hupdate
      exact phaseOk_mono (hinv.calls u call hupdate) (List.prefix_refl _)
        (Function.update_of_ne hu _ _) (Function.update_of_ne hu _ _) fun sock _ howns =>
          howns.frame (List.prefix_refl _) (Function.update_of_ne hu _ _)
            (Function.update_of_ne hu _ _) (fun _ h => h) fun _ h => h

/-! #### A step of a call -/

section Call

variable {t : TaskId} {call call' : UdpCall} {e : UdpEvent}

/-- A socket a call has after a step is in use by then, and was another call's never. -/
theorem sock_after (hinv : Inv noise station w) (hcall : w.call t = some call)
    (hmay : w.mayHappen e = true) (hstep : call.step e = some call') {sock : Sock}
    (hsock : call'.phase.sock = some sock) {u : TaskId} (hu : u ≠ t) {other : UdpCall}
    (hother : w.call u = some other) : other.phase.sock ≠ some sock := by
  intro hsame
  rcases UdpCall.sock_of_step hstep hsock with hkept | ⟨-, rfl⟩
  · exact hu (hinv.alone t u call other sock hcall hother hkept hsame)
  · exact of_decide_eq_true hmay (hinv.ports u other sock hother hsame)

/-- A port the call keeps carries one more copy of its frame at most. -/
theorem owns_after (hinv : Inv noise station w) (hcall : w.call t = some call)
    {sock : Sock} (hsock : call.phase.sock = some sock) (arrived : Bool) :
    (w.after t e arrived call call').Owns noise t call.payload sock := by
  obtain ⟨hrequests, hanswers⟩ := (hinv.calls t call hcall).owns hsock
  refine ⟨fun request hrequest => ?_, hanswers⟩
  rcases List.mem_append.mp hrequest with hbefore | hsent
  · exact hrequests request hbefore
  · exact .inl (mem_sentBy hsent).2

/-- Whatever comes to a port that is given out is noise. -/
theorem owns_bound {sock : Sock} (hgood : w.GoodEvent noise call (.bound sock))
    (hfree : call.phase.sock = none) (arrived : Bool) :
    (w.after t (.bound sock) arrived call call').Owns noise t call.payload sock := by
  refine ⟨fun request hrequest => .inr ?_, fun datagram hdatagram => .inr (hgood.2 _ hdatagram)⟩
  rcases List.mem_append.mp hrequest with hbefore | hsent
  · exact hgood.1 request hbefore
  · rw [(mem_sentBy hsent).1] at hfree
    cases hfree

/-- The task itself is in order after a step, when every datagram it gets is an answer or
noise. -/
theorem phaseOk_after (hinv : Inv noise station w) (hcall : w.call t = some call)
    (hstep : call.step e = some call') (arrived : Bool)
    (hbound : ∀ sock, e = .bound sock → w.GoodEvent noise call (.bound sock))
    (hdatagram : ∀ datagram, e = .received (.ok datagram) →
      w.OwnAnswer t call.payload datagram ∨ noise.allows call.payload datagram) :
    (w.after t e arrived call call').PhaseOk noise t call' := by
  have hok := hinv.calls t call hcall
  cases UdpCall.step_cases hstep with
  | cancelled _ => trivial
  | resolved _ => exact phaseOk_nextRemote _
  | unresolved _ => trivial
  | bound hphase =>
      exact phaseOk_nextAttempt (owns_bound (hbound _ rfl) (by rw [hphase]; rfl) arrived) _ _ _
  | bindFailed _ => exact phaseOk_nextRemote _
  | sent hphase => exact ⟨hinv.owns_after hcall (by rw [hphase]; rfl) arrived, .inl rfl⟩
  | sendFailed hphase =>
      exact phaseOk_nextAttempt (hinv.owns_after hcall (by rw [hphase]; rfl) arrived) _ _ _
  | receiveFailed hphase _ =>
      exact phaseOk_nextAttempt (hinv.owns_after hcall (by rw [hphase]; rfl) arrived) _ _ _
  | @waits sock remote addrs attempt room room' result hphase hread =>
      refine ⟨hinv.owns_after hcall (by rw [hphase]; rfl) arrived, .inr ?_⟩
      rw [PhaseOk, hphase] at hok
      cases result with
      | err msg => cases hread
      | ok datagram =>
          rcases hdatagram datagram rfl with ⟨f, hserved, rfl⟩ | hnoise
          · -- the call would not wait with a buffer that nothing has cut
            rcases hok.2 with hroom | hcut
            · rw [hroom, onDatagram_answer (hinv.logged.serial_of_servedIn hserved)] at hread
              cases hread
            · exact hcut
          · exact ⟨datagram, hnoise⟩
  | @returns sock remote addrs attempt room result packet hphase hread =>
      rw [PhaseOk, hphase] at hok
      cases result with
      | err msg => cases hread
      | ok datagram =>
          obtain ⟨hstart, hanswers⟩ := onDatagram_returned hread
          rcases hdatagram datagram rfl with ⟨f, hserved, rfl⟩ | hnoise
          · refine ⟨f.bytes, ⟨f, hserved, rfl⟩, hstart, ?_⟩
            rcases hok.2 with hroom | hcut
            · rw [hroom, onDatagram_answer (hinv.logged.serial_of_servedIn hserved),
                UdpState.returned.injEq] at hread
              exact .inl hread.symm
            · exact .inr hcut
          · exact absurd hanswers (noise.unanswering _ _ hnoise)

/-- Every call is in order after a step of one of them. -/
theorem after (hinv : Inv noise station w) (hcall : w.call t = some call)
    (hmay : w.mayHappen e = true) (hstep : call.step e = some call') (arrived : Bool)
    (hbound : ∀ sock, e = .bound sock → w.GoodEvent noise call (.bound sock))
    (hdatagram : ∀ datagram, e = .received (.ok datagram) →
      w.OwnAnswer t call.payload datagram ∨ noise.allows call.payload datagram) :
    Inv noise station (w.after t e arrived call call') := by
  have hself : ∀ {other}, Function.update w.call t (some call') t = some other →
      other = call' := by
    intro other hother
    rw [Function.update_self, Option.some.injEq] at hother
    exact hother.symm
  have hothers : ∀ {u other}, u ≠ t → Function.update w.call t (some call') u = some other →
      w.call u = some other := by
    intro u other hu hother
    rwa [Function.update_of_ne hu] at hother
  refine ⟨?_, ?_, hinv.since, hinv.logged, ?_⟩
  · intro u other sock hother hsock
    show sock ∈ portsAfter call.phase call'.phase w.ports
    by_cases hu : u = t
    · subst hu
      rw [hself hother] at hsock
      exact List.mem_append_left _ (by rw [hsock]; exact List.mem_singleton_self _)
    · refine List.mem_append_right _ (List.mem_filter.mpr
        ⟨hinv.ports u other sock (hothers hu hother) hsock, decide_eq_true ?_⟩)
      intro hsame
      exact hu (hinv.alone t u call other sock hcall (hothers hu hother) hsame hsock)
  · intro u v other other' sock hother hother' hsock hsock'
    by_cases hu : u = t <;> by_cases hv : v = t
    · rw [hu, hv]
    · subst hu
      rw [hself hother] at hsock
      exact absurd hsock' (hinv.sock_after hcall hmay hstep hsock hv (hothers hv hother'))
    · subst hv
      rw [hself hother'] at hsock'
      exact absurd hsock (hinv.sock_after hcall hmay hstep hsock' hu (hothers hu hother))
    · exact hinv.alone u v other other' sock (hothers hu hother) (hothers hv hother') hsock hsock'
  · intro u other hother
    by_cases hu : u = t
    · subst hu
      rw [hself hother]
      exact hinv.phaseOk_after hcall hstep arrived hbound hdatagram
    · refine phaseOk_mono (hinv.calls u other (hothers hu hother)) (List.prefix_refl _) rfl rfl ?_
      intro sock hsock howns
      refine howns.frame (List.prefix_refl _) rfl rfl ?_ fun _ h => h
      intro request hrequest
      rcases List.mem_append.mp hrequest with hbefore | hsent
      · exact hbefore
      · exact absurd (hinv.alone t u call other sock hcall (hothers hu hother)
          (mem_sentBy hsent).1 hsock) hu

end Call

/-! #### The network and the station -/

/-- What is in flight grows by the answer to one request: to the call's own frame, or to one
that is noise to the call as all its answers are. -/
theorem serve (hinv : Inv noise station w) {sock : Sock} {request : Request}
    (hrequest : (sock, request) ∈ w.requests) : Inv noise station (w.served station sock request) := by
  refine ⟨hinv.ports, hinv.alone, ?_, hinv.logged.append rfl, ?_⟩
  · intro t
    have hsince := hinv.since t
    show w.since t ≤ (w.executed ++ [_]).length
    rw [List.length_append]
    omega
  · intro t call hcall
    refine phaseOk_mono (hinv.calls t call hcall) (List.prefix_append _ _) rfl rfl ?_
    intro s hsock howns
    refine ⟨howns.requests, fun datagram hdatagram => ?_⟩
    rcases List.mem_append.mp hdatagram with hbefore | hnew
    · exact (howns.answers datagram hbefore).imp_left
        fun hown => hown.mono (List.prefix_append _ _) rfl rfl
    · cases hanswer : (station.serve w.state request.payload).2 with
      | none =>
          rw [hanswer] at hnew
          exact absurd hnew List.not_mem_nil
      | some f =>
          rw [hanswer, answerDatagram, List.mem_singleton, Prod.mk.injEq] at hnew
          obtain ⟨rfl, rfl⟩ := hnew
          rcases howns.requests request hrequest with rfl | hnoise
          · refine .inl ⟨f, ?_, rfl⟩
            rw [← hanswer]
            exact servedIn_append (hinv.since t) _ _
          · exact .inr (hnoise f (station.echoes _ _ f hanswer))

theorem lose (hinv : Inv noise station w) {requests : List (Sock × Request)}
    {answers : List (Sock × Bytes)} (hrequests : requests ⊆ w.requests)
    (hanswers : answers ⊆ w.answers) : Inv noise station { w with requests, answers } := by
  refine ⟨hinv.ports, hinv.alone, hinv.since, hinv.logged, fun t call hcall => ?_⟩
  exact phaseOk_mono (hinv.calls t call hcall) (List.prefix_refl _) rfl rfl fun sock _ howns =>
    howns.frame (List.prefix_refl _) rfl rfl (fun _ h => hrequests h) fun _ h => hanswers h

theorem step (hinv : Inv noise station w) {a : UdpPlantAction σ} (hgood : w.GoodAction noise a)
    (hstep : w.step station a = some w') : Inv noise station w' := by
  cases step_cases hstep with
  | begins _ => exact hinv.begin _ _ _
  | goesOn hcall hmay hcallStep =>
      have hevent := hgood _ hcall
      refine hinv.after hcall hmay hcallStep _ ?_ ?_
      · rintro sock rfl
        exact hevent
      · rintro datagram rfl
        exact .inr hevent
  | delivers hanswer hcall hsock hcallStep =>
      refine hinv.after hcall rfl hcallStep false (by simp) fun datagram he => ?_
      cases he
      exact ((hinv.calls _ _ hcall).owns hsock).answers _ (List.mem_of_getElem? hanswer)
  | serves hrequest => exact hinv.serve (List.mem_of_getElem? hrequest)
  | losesRequest => exact hinv.lose List.eraseIdx_subset (List.Subset.refl _)
  | losesAnswer => exact hinv.lose (List.Subset.refl _) List.eraseIdx_subset
  | changes =>
      refine ⟨hinv.ports, hinv.alone, hinv.since, hinv.logged, fun t call hcall => ?_⟩
      exact phaseOk_mono (hinv.calls t call hcall) (List.prefix_refl _) rfl rfl fun sock _ howns =>
        howns.frame (List.prefix_refl _) rfl rfl (fun _ h => h) fun _ h => h

end Inv

/-- The invariant rule, for a target nobody had called. -/
theorem inv_run {noise : Noise} {station : Station σ} {addr : String} {maxAttempts : Nat}
    {state : σ} {actions : List (UdpPlantAction σ)} {w : UdpPlant σ}
    (hgood : Runs.Along (step station) (GoodAction noise) (start addr maxAttempts state) actions)
    (hrun : Runs.run (step station) (start addr maxAttempts state) actions = some w) :
    w.Inv noise station :=
  Runs.run_invariant_along (fun _ _ _ hinv hgood hstep => hinv.step hgood hstep) actions
    (inv_start noise station addr maxAttempts state) hgood hrun

/-! ### Every run -/

end UdpPlant

end MelsecMc
