/-
What a transport promises its callers.

`Lawful` says it in the words of a channel: a request that is in flight or served is one a
call was made with, a call keeps what it was made with, a call that returns bytes returns an
answer to its own request, served since it began, and the log tells what the station did.
Both transports keep it, each under its own invariant (`tcp_lawful`, `udp_lawful`); TCP asks
that no read ends at a place of an answer that looks like another frame, UDP asks that nothing
but answers to its own frame comes to the port of a call.

Where requests come from, what becomes of the calls and what is logged holds of every step,
and needs neither the invariants nor these conditions; only what a call returns does.
-/
import MelsecMc.Channel
import MelsecMc.Proofs.Udp

namespace MelsecMc

/-! ### The contract

A channel is what the operations see of a transport: calls that begin, go on by themselves and
end with bytes, an error or a cancellation, and a station that is served in between.  The
contract is about these alone, one structure for each kind of step, so that what is proved from
it never looks into a transport.
-/

namespace Channel

variable {σ : Type} (C : Channel σ)

/-- What a call was made with. -/
def made (c : CallView) : Request × Nat := (c.request, c.since)

/-- What a call that begins changes. -/
structure Begun (w w' : C.World) (t : TaskId) (request : Request) : Prop where
  executed : C.executed w' = C.executed w
  state : C.state w' = C.state w
  inFlight : C.inFlight w' = C.inFlight w
  call : C.call w' t = some ⟨request, (C.executed w).length, none⟩
  calls : ∀ u, u ≠ t → C.call w' u = C.call w u

/-- What becomes of the calls in any other step. -/
structure Keeps (w w' : C.World) : Prop where
  made : ∀ t, (C.call w' t).map made = (C.call w t).map made
  /-- a call that goes on has not ended before -/
  live : ∀ t c', C.call w' t = some c' → c'.ended = none →
    ∃ c, C.call w t = some c ∧ c.ended = none

/-- Where the requests come from. -/
structure Carries (w w' : C.World) : Prop extends Keeps C w w' where
  executed : C.executed w <+: C.executed w'
  inFlight : ∀ r ∈ C.inFlight w', r ∈ C.inFlight w ∨ ∃ t c, C.call w t = some c ∧ r = c.request
  served : ∀ x ∈ C.executed w', x ∈ C.executed w ∨ ⟨x.origin, x.payload⟩ ∈ C.inFlight w

/-- What a step does to the log and to the state. -/
inductive Logs (w w' : C.World) : Prop
  | nothing (hexecuted : C.executed w' = C.executed w) (hstate : C.state w' = C.state w)
  | served (x : Execution σ) (hexecuted : C.executed w' = C.executed w ++ [x])
      (hbefore : x.before = C.state w) (hafter : C.state w' = x.after)

/-- Nothing has happened yet. -/
structure Fresh (w : C.World) (state : σ) : Prop where
  executed : C.executed w = []
  state : C.state w = state
  inFlight : C.inFlight w = []
  call : ∀ t, C.call w t = none

structure Lawful (station : Station σ) (Inv : C.World → Prop) (Good : C.World → C.Act → Prop) :
    Prop where
  start : ∀ addr state, Inv (C.start addr state)
  fresh : ∀ addr state, C.Fresh (C.start addr state) state
  begin : ∀ {w w' t request}, Inv w → C.begin w t request = some w' → Inv w'
  act : ∀ {w w' a}, Inv w → Good w a → C.act w a = some w' → Inv w'
  begun : ∀ {w w' t request}, C.begin w t request = some w' → C.Begun w w' t request
  carries : ∀ {w w' a}, C.act w a = some w' → C.Carries w w'
  logs : ∀ {w w' a}, C.changes a = false → C.act w a = some w' → C.Logs w w'
  logged : ∀ {w}, Inv w → Logged station (C.executed w)
  returned : ∀ {w t c buf}, Inv w → C.call w t = some c → c.ended = some (.returned (.ok buf)) →
    ∃ f : Mc4eFrame, ServedIn (C.executed w) c.since c.request (some f) ∧ buf = f.bytes

variable {C} {w w' : C.World}

theorem keeps_of_eq (h : C.call w' = C.call w) : C.Keeps w w' where
  made t := by rw [h]
  live t c' hc' hlive := ⟨c', h ▸ hc', hlive⟩

/-- A call stays the call of its operation. -/
theorem Keeps.origin (h : C.Keeps w w') {t : TaskId} {c c' : CallView} (hc : C.call w t = some c)
    (hc' : C.call w' t = some c') : c'.request.origin = c.request.origin := by
  have hmade := h.made t
  rw [hc, hc', Option.map_some, Option.map_some, Option.some.injEq, Channel.made, Channel.made,
    Prod.mk.injEq] at hmade
  rw [hmade.1]

/-- One call goes on. -/
theorem keeps_of_step {t : TaskId} {c c' : CallView} (hcall : C.call w t = some c)
    (hcall' : C.call w' t = some c') (hmade : made c' = made c) (hlive : c.ended = none)
    (hothers : ∀ u, u ≠ t → C.call w' u = C.call w u) : C.Keeps w w' := by
  refine ⟨fun u => ?_, fun u d hd hended => ?_⟩
  · by_cases hu : u = t
    · rw [hu, hcall, hcall', Option.map_some, Option.map_some, hmade]
    · rw [hothers u hu]
  · by_cases hu : u = t
    · exact ⟨c, hu ▸ hcall, hlive⟩
    · exact ⟨d, hothers u hu ▸ hd, hended⟩

end Channel

/-! ### TCP

A channel sees of the pool which calls there are and how they end; the rest of its state is
the transport's own business.
-/

namespace TcpCall

theorem ended_eq_none {call : TcpCall} (h : call.isDone = false) : call.ended = none := by
  unfold isDone at h
  unfold ended
  cases hphase : call.phase with
  | finished result =>
      rw [hphase] at h
      cases h
  | cancelled =>
      rw [hphase] at h
      cases h
  | _ => rfl

theorem phase_of_ended {call : TcpCall} {result : Except Failure Bytes}
    (h : call.ended = some (.returned result)) : call.phase = .finished result := by
  unfold ended at h
  split at h
  · rename_i hphase
    cases h
    exact hphase
  · cases h
  · cases h

end TcpCall

namespace Plant

variable {σ : Type} {station : Station σ} {w w' : Plant σ}

/-- What an event puts in flight is the call's own. -/
theorem mem_sent {origin : Nat} {call : TcpCall} {e : CallEvent} {arrived : Bool}
    {p : Conn × Request} (h : p ∈ sent origin call e arrived) : p.2 = ⟨origin, call.payload⟩ := by
  unfold sent at h
  split at h
  · split at h
    · rw [List.mem_singleton] at h
      rw [h]
    · exact absurd h List.not_mem_nil
  · exact absurd h List.not_mem_nil

theorem view_of_call {t : TaskId} {call : TcpCall} (h : w.pool.call t = some call) :
    w.view t = some ⟨⟨w.origin t, call.payload⟩, w.since t, call.ended⟩ := by
  rw [view, h, Option.map_some]

/-- The calls, when one of them goes on. -/
theorem keeps_after {t : TaskId} {e : CallEvent} {call call' : TcpCall} {slot' : Option Conn}
    (hcall : w.pool.call t = some call) (hstep : call.step w.pool.slot e = some (slot', call'))
    (hpool : w'.pool = w.pool.after t e call slot' call') (horigin : w'.origin = w.origin)
    (hsince : w'.since = w.since) : (tcpChannel station).Keeps w w' := by
  have hcalls : w'.pool.call = Function.update w.pool.call t (some call') := by
    rw [hpool]
    rfl
  have hcall' : w'.pool.call t = some call' := by rw [hcalls, Function.update_self]
  refine Channel.keeps_of_step (view_of_call hcall) (view_of_call hcall') ?_
    (TcpCall.ended_eq_none (TcpCall.not_isDone_of_step hstep)) ?_
  · rw [Channel.made, Channel.made, horigin, hsince, (TcpCall.step_spec hstep).payload]
  · intro u hu
    show w'.view u = w.view u
    rw [view, view, hcalls, Function.update_of_ne hu, horigin, hsince]

/-- The actions of the channel are those of the plant, but for the begin of a call. -/
theorem step_of_act {a : PlantAction σ} (h : (tcpChannel station).act w a = some w') :
    a.begins = false ∧ w.step station a = some w' := by
  have hact : (if a.begins then none else w.step station a) = some w' := h
  split at hact
  · cases hact
  · exact ⟨Bool.not_eq_true _ ▸ ‹_›, hact⟩

theorem step_carries {a : PlantAction σ} (ha : a.begins = false)
    (h : w.step station a = some w') : (tcpChannel station).Carries w w' := by
  cases step_cases h with
  | begins _ => cases ha
  | goesOn _ hcall _ hstep =>
      refine ⟨keeps_after hcall hstep rfl rfl rfl, List.prefix_refl _, ?_, fun x hx => .inl hx⟩
      intro r hr
      obtain ⟨p, hp, rfl⟩ := List.mem_map.mp hr
      rcases List.mem_append.mp hp with hp | hp
      · exact .inl (List.mem_map.mpr ⟨p, hp, rfl⟩)
      · exact .inr ⟨_, _, view_of_call hcall, mem_sent hp⟩
  | reads hcall _ _ _ hstep =>
      exact ⟨keeps_after hcall hstep rfl rfl rfl, List.prefix_refl _, fun r hr => .inl hr,
        fun x hx => .inl hx⟩
  | serves htake =>
      have hperm := ((Mailboxes.taken_of_take htake).perm).map Prod.snd
      refine ⟨Channel.keeps_of_eq rfl, List.prefix_append _ _, ?_, ?_⟩
      · intro r hr
        exact .inl (hperm.mem_iff.mpr (List.mem_cons_of_mem _ hr))
      · intro x hx
        rcases List.mem_append.mp hx with hx | hx
        · exact .inl hx
        · rw [List.mem_singleton] at hx
          subst hx
          exact .inr (hperm.mem_iff.mpr List.mem_cons_self)
  | changes =>
      exact ⟨Channel.keeps_of_eq rfl, List.prefix_refl _, fun r hr => .inl hr, fun x hx => .inl hx⟩

/-- Unless the station's own program runs, the state changes with the log only. -/
theorem step_logs {a : PlantAction σ} (ha : a.changes = false)
    (h : w.step station a = some w') : (tcpChannel station).Logs w w' := by
  cases step_cases h with
  | serves _ => exact .served _ rfl rfl rfl
  | changes => cases ha
  | _ => exact .nothing rfl rfl

theorem step_begun {t : TaskId} {request : Request}
    (h : w.step station (.begin t request.payload request.origin) = some w') :
    (tcpChannel station).Begun w w' t request := by
  obtain ⟨pool, hpool, rfl⟩ := Option.map_eq_some_iff.mp h
  obtain ⟨-, rfl⟩ := Pool.step_begin hpool
  refine ⟨rfl, rfl, rfl, ?_, ?_⟩
  · refine (view_of_call (Function.update_self _ _ _)).trans ?_
    show some (CallView.mk ⟨Function.update w.origin t request.origin t, request.payload⟩
      (Function.update w.since t w.executed.length t) none) = _
    rw [Function.update_self, Function.update_self]
    rfl
  · intro u hu
    show (Function.update w.pool.call t _ u).map (fun call => CallView.mk
      ⟨Function.update w.origin t request.origin u, call.payload⟩
      (Function.update w.since t w.executed.length u) call.ended) = w.view u
    rw [Function.update_of_ne hu, Function.update_of_ne hu, Function.update_of_ne hu]
    rfl

end Plant

theorem tcp_lawful {σ : Type} (station : Station σ) :
    (tcpChannel station).Lawful station (Plant.Inv station) Plant.GoodAction where
  start addr state := Plant.inv_start station addr state
  fresh addr state := ⟨rfl, rfl, rfl, fun _ => rfl⟩
  begin {w w' t request} hinv h :=
    hinv.step (a := .begin t request.payload request.origin) trivial h
  act hinv hgood h := hinv.step hgood (Plant.step_of_act h).2
  begun h := Plant.step_begun h
  carries h := Plant.step_carries (Plant.step_of_act h).1 (Plant.step_of_act h).2
  logs ha h := Plant.step_logs ha (Plant.step_of_act h).2
  logged hinv := hinv.logged
  returned {w t c buf} hinv hcall hended := by
    obtain ⟨call, hpool, rfl⟩ := Option.map_eq_some_iff.mp hcall
    have hphase : call.phase = .finished (.ok buf) := TcpCall.phase_of_ended hended
    have hok := hinv.calls t call hpool
    unfold Plant.PhaseOk at hok
    rw [hphase] at hok
    exact hok

/-! ### UDP

The same again for the calls that send datagrams.  There is no lock, so no step of one call
touches another.
-/

namespace UdpCall

theorem ended_eq_none {call : UdpCall} (h : call.isDone = false) : call.ended = none := by
  unfold isDone at h
  unfold ended
  cases hphase : call.phase with
  | finished result =>
      rw [hphase] at h
      cases h
  | cancelled =>
      rw [hphase] at h
      cases h
  | _ => rfl

theorem phase_of_ended {call : UdpCall} {result : Except Failure Bytes}
    (h : call.ended = some (.returned result)) : call.phase = .finished result := by
  unfold ended at h
  split at h
  · rename_i hphase
    cases h
    exact hphase
  · cases h
  · cases h

end UdpCall

namespace UdpPlant

variable {σ : Type} {station : Station σ} {maxAttempts : Nat} {w w' : UdpPlant σ}

theorem view_of_call {t : TaskId} {call : UdpCall} (h : w.call t = some call) :
    w.view t = some ⟨⟨w.origin t, call.payload⟩, w.since t, call.ended⟩ := by
  rw [view, h, Option.map_some]

/-- The actions of the channel are those of the plant, but for the begin of a call. -/
theorem step_of_act {a : UdpPlantAction σ}
    (h : (udpChannel maxAttempts station).act w a = some w') :
    a.begins = false ∧ w.step station a = some w' := by
  have hact : (if a.begins then none else w.step station a) = some w' := h
  split at hact
  · cases hact
  · exact ⟨Bool.not_eq_true _ ▸ ‹_›, hact⟩

theorem carries_after {t : TaskId} {e : UdpEvent} {call call' : UdpCall}
    (hcall : w.call t = some call) (hstep : call.step e = some call') (arrived : Bool) :
    (udpChannel maxAttempts station).Carries w (w.after t e arrived call call') := by
  refine ⟨?_, List.prefix_refl _, ?_, fun x hx => .inl hx⟩
  · refine Channel.keeps_of_step (view_of_call hcall)
      (view_of_call (Function.update_self _ _ _)) ?_
      (UdpCall.ended_eq_none (UdpCall.not_isDone_of_step hstep)) ?_
    · rw [Channel.made, Channel.made, (UdpCall.same_of_step hstep).payload]
      rfl
    · intro u hu
      show (Function.update w.call t (some call') u).map _ = w.view u
      rw [Function.update_of_ne hu]
      rfl
  · intro r hr
    obtain ⟨p, hp, rfl⟩ := List.mem_map.mp hr
    rcases List.mem_append.mp hp with hp | hp
    · exact .inl (List.mem_map.mpr ⟨p, hp, rfl⟩)
    · exact .inr ⟨t, _, view_of_call hcall, (mem_sentBy hp).2⟩

theorem step_carries {a : UdpPlantAction σ} (ha : a.begins = false)
    (h : w.step station a = some w') : (udpChannel maxAttempts station).Carries w w' := by
  cases step_cases h with
  | begins _ => cases ha
  | goesOn hcall _ hstep => exact carries_after hcall hstep _
  | delivers _ hcall _ hstep => exact carries_after hcall hstep _
  | serves hrequest =>
      refine ⟨Channel.keeps_of_eq rfl, List.prefix_append _ _, fun r hr => .inl hr, ?_⟩
      intro x hx
      rcases List.mem_append.mp hx with hx | hx
      · exact .inl hx
      · rw [List.mem_singleton] at hx
        subst hx
        exact .inr (List.mem_map.mpr ⟨_, List.mem_of_getElem? hrequest, rfl⟩)
  | losesRequest =>
      refine ⟨Channel.keeps_of_eq rfl, List.prefix_refl _, fun r hr => .inl ?_, fun x hx => .inl hx⟩
      exact List.map_subset _ List.eraseIdx_subset hr
  | losesAnswer =>
      exact ⟨Channel.keeps_of_eq rfl, List.prefix_refl _, fun r hr => .inl hr, fun x hx => .inl hx⟩
  | changes =>
      exact ⟨Channel.keeps_of_eq rfl, List.prefix_refl _, fun r hr => .inl hr, fun x hx => .inl hx⟩

/-- Unless the station's own program runs, the state changes with the log only. -/
theorem step_logs {a : UdpPlantAction σ} (hchanges : a.changes = false)
    (h : w.step station a = some w') : (udpChannel maxAttempts station).Logs w w' := by
  cases step_cases h with
  | serves _ => exact .served _ rfl rfl rfl
  | changes => cases hchanges
  | _ => exact .nothing rfl rfl

theorem step_begun {t : TaskId} {request : Request}
    (h : w.step station (.begin t request.payload request.origin) = some w') :
    (udpChannel maxAttempts station).Begun w w' t request := by
  cases step_cases h with
  | begins _ =>
      refine ⟨rfl, rfl, rfl, ?_, ?_⟩
      · refine (view_of_call (Function.update_self _ _ _)).trans ?_
        show some (CallView.mk ⟨Function.update w.origin t request.origin t, request.payload⟩
          (Function.update w.since t w.executed.length t) none) = _
        rw [Function.update_self, Function.update_self]
        rfl
      · intro u hu
        show (Function.update w.call t _ u).map (fun call => CallView.mk
          ⟨Function.update w.origin t request.origin u, call.payload⟩
          (Function.update w.since t w.executed.length u) call.ended) = w.view u
        rw [Function.update_of_ne hu, Function.update_of_ne hu, Function.update_of_ne hu]
        rfl

end UdpPlant

theorem udp_lawful {σ : Type} (maxAttempts : Nat) (station : Station σ) :
    (udpChannel maxAttempts station).Lawful station (UdpPlant.Inv .silence station)
      (UdpPlant.GoodAction .silence) where
  start addr state := UdpPlant.inv_start .silence station addr maxAttempts state
  fresh addr state := ⟨rfl, rfl, rfl, fun _ => rfl⟩
  begin {w w' t request} hinv h :=
    hinv.step (a := .begin t request.payload request.origin) trivial h
  act hinv hgood h := hinv.step hgood (UdpPlant.step_of_act h).2
  begun h := UdpPlant.step_begun h
  carries h := UdpPlant.step_carries (UdpPlant.step_of_act h).1 (UdpPlant.step_of_act h).2
  logs hchanges h := UdpPlant.step_logs hchanges (UdpPlant.step_of_act h).2
  logged hinv := hinv.logged
  returned {w t c buf} hinv hcall hended := by
    obtain ⟨call, hcall', rfl⟩ := Option.map_eq_some_iff.mp hcall
    have hphase : call.phase = .finished (.ok buf) := UdpCall.phase_of_ended hended
    have hok := hinv.calls t call hcall'
    unfold UdpPlant.PhaseOk at hok
    rw [hphase] at hok
    obtain ⟨answer, ⟨f, hserved, rfl⟩, -, hall⟩ := hok
    exact ⟨f, hserved, hall.resolve_right fun ⟨_, hnoise⟩ => hnoise⟩

end MelsecMc
