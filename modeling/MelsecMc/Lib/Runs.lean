/-
Runs of a partial step function.

A system is given by what one action does to a state, `none` when the action is not
possible there.  A run is a list of actions, each possible where it is taken.  The
one rule needed of runs is the invariant rule: what holds at the start and survives
every possible step holds at the end of every run.  It comes in two more forms, for runs whose
actions meet a condition on the state they are taken in, and for what is true of a state
together with the steps that led to it.

A run of one system can be a run of another one too: `run_simulates` goes through it action by
action.  What a system can still do from a state is said by `CanReach`, with the actions that may be
used; it is put together from single steps.
-/

namespace Runs

variable {σ α : Type}

/-- Take the actions one after another; `none` when one of them is not possible. -/
def run (step : σ → α → Option σ) : σ → List α → Option σ
  | s, [] => some s
  | s, a :: actions =>
      match step s a with
      | none => none
      | some s' => run step s' actions

/-- Every action of a run is taken in a state where `P` allows it. -/
def Along (step : σ → α → Option σ) (P : σ → α → Prop) : σ → List α → Prop
  | _, [] => True
  | s, a :: actions => P s a ∧ ∀ s', step s a = some s' → Along step P s' actions

theorem Along.mono {step : σ → α → Option σ} {P Q : σ → α → Prop} (h : ∀ s a, P s a → Q s a)
    (actions : List α) : ∀ {s : σ}, Along step P s actions → Along step Q s actions := by
  induction actions with
  | nil => exact fun _ => trivial
  | cons a actions ih => exact fun halong => ⟨h _ a halong.1, fun s' hs' => ih (halong.2 s' hs')⟩

instance decidableAlong (step : σ → α → Option σ) (P : σ → α → Prop) [∀ s a, Decidable (P s a)] :
    ∀ s actions, Decidable (Along step P s actions)
  | _, [] => isTrue trivial
  | s, a :: actions =>
      match hstep : step s a with
      | none =>
          decidable_of_iff (P s a)
            ⟨fun ha => ⟨ha, fun s' hs' => absurd (hstep.symm.trans hs') (by simp)⟩, fun h => h.1⟩
      | some t =>
          have : Decidable (Along step P t actions) := decidableAlong step P t actions
          decidable_of_iff (P s a ∧ Along step P t actions)
            ⟨fun h => ⟨h.1, fun s' hs' => Option.some.inj (hstep.symm.trans hs') ▸ h.2⟩,
              fun h => ⟨h.1, h.2 t hstep⟩⟩

/-- The invariant rule, for the runs whose actions are all allowed. -/
theorem run_invariant_along {step : σ → α → Option σ} {P : σ → α → Prop} {Inv : σ → Prop}
    (hstep : ∀ s a s', Inv s → P s a → step s a = some s' → Inv s') (actions : List α) :
    ∀ {s s' : σ}, Inv s → Along step P s actions → run step s actions = some s' → Inv s' := by
  induction actions with
  | nil =>
      intro s s' hs _ hrun
      rw [run, Option.some.injEq] at hrun
      exact hrun ▸ hs
  | cons a actions ih =>
      intro s s' hs halong hrun
      rw [run] at hrun
      split at hrun
      · exact absurd hrun (by simp)
      · rename_i t ht
        exact ih (hstep s a t hs halong.1 ht) (halong.2 t ht) hrun

/-- A run, and then another one. -/
theorem run_append (step : σ → α → Option σ) (first second : List α) : ∀ s : σ,
    run step s (first ++ second) = (run step s first).bind fun s' => run step s' second := by
  induction first with
  | nil => exact fun _ => rfl
  | cons a first ih =>
      intro s
      rw [List.cons_append, run, run]
      split
      · rfl
      · exact ih _

theorem Along.left {step : σ → α → Option σ} {P : σ → α → Prop} {first second : List α} :
    ∀ {s : σ}, Along step P s (first ++ second) → Along step P s first := by
  induction first with
  | nil => exact fun _ => trivial
  | cons a first ih => exact fun h => ⟨h.1, fun s' hs' => ih (h.2 s' hs')⟩

theorem along_of_forall {step : σ → α → Option σ} {P : σ → α → Prop} (h : ∀ s a, P s a)
    (actions : List α) : ∀ s, Along step P s actions := by
  induction actions with
  | nil => exact fun _ => trivial
  | cons a actions ih => exact fun s => ⟨h s a, fun s' _ => ih s'⟩

/-- A condition on the actions alone. -/
theorem along_of_mem {step : σ → α → Option σ} {P : α → Prop} (actions : List α) :
    (∀ a ∈ actions, P a) → ∀ s, Along step (fun _ a => P a) s actions := by
  induction actions with
  | nil => exact fun _ _ => trivial
  | cons a actions ih =>
      exact fun h s => ⟨h a List.mem_cons_self,
        fun s' _ => ih (fun b hb => h b (List.mem_cons_of_mem _ hb)) s'⟩

/-- The steps of a run, each with the state it was taken in. -/
def trace (step : σ → α → Option σ) : σ → List α → List (σ × α)
  | _, [] => []
  | s, a :: actions =>
      match step s a with
      | none => []
      | some s' => (s, a) :: trace step s' actions

/-- The invariant rule, for what is true of a state and of the steps that led to it. -/
theorem run_invariant_trace {step : σ → α → Option σ} {Inv : List (σ × α) → σ → Prop}
    (hstep : ∀ steps s a s', Inv steps s → step s a = some s' → Inv (steps ++ [(s, a)]) s')
    (actions : List α) : ∀ {steps : List (σ × α)} {s s' : σ}, Inv steps s →
      run step s actions = some s' → Inv (steps ++ trace step s actions) s' := by
  induction actions with
  | nil =>
      intro steps s s' hs hrun
      rw [run, Option.some.injEq] at hrun
      rw [trace, List.append_nil]
      exact hrun ▸ hs
  | cons a actions ih =>
      intro steps s s' hs hrun
      rw [run] at hrun
      rw [trace]
      split at hrun
      · exact absurd hrun (by simp)
      · rename_i t ht
        have hlater := ih (hstep steps s a t hs ht) hrun
        rw [List.append_assoc] at hlater
        exact hlater

/-- The invariant rule. -/
theorem run_invariant {step : σ → α → Option σ} {Inv : σ → Prop}
    (hstep : ∀ s a s', Inv s → step s a = some s' → Inv s') (actions : List α) {s s' : σ}
    (hs : Inv s) (hrun : run step s actions = some s') : Inv s' :=
  run_invariant_along (fun s a s' hs _ => hstep s a s' hs) actions hs
    (along_of_forall (fun _ _ => trivial) actions s) hrun

/-! ### A run seen from elsewhere -/

/-- The forward simulation rule.  An action of the one system is some actions of the other, and
what relates the two states may depend on the actions that are still to come. -/
theorem run_simulates {τ β : Type} {step : σ → α → Option σ} {step' : τ → β → Option τ}
    {R : List α → σ → τ → Prop} {project : σ → α → List β}
    (hstep : ∀ a actions s s' t, R (a :: actions) s t → step s a = some s' →
      ∃ t', run step' t (project s a) = some t' ∧ R actions s' t')
    (actions : List α) : ∀ {s s' : σ} {t : τ}, R actions s t → run step s actions = some s' →
      ∃ t', run step' t ((trace step s actions).flatMap fun p => project p.1 p.2) = some t' ∧
        R [] s' t' := by
  induction actions with
  | nil =>
      intro s s' t ht hrun
      rw [run, Option.some.injEq] at hrun
      exact ⟨t, rfl, hrun ▸ ht⟩
  | cons a actions ih =>
      intro s s' t ht hrun
      rw [run] at hrun
      split at hrun
      · cases hrun
      · rename_i mid hmid
        obtain ⟨t₁, hfirst, ht₁⟩ := hstep a actions s mid t ht hmid
        obtain ⟨t', hrest, ht'⟩ := ih ht₁ hrun
        refine ⟨t', ?_, ht'⟩
        rw [trace, hmid]
        dsimp only
        rw [List.flatMap_cons, run_append, hfirst]
        exact hrest

/-! ### What can be reached -/

/-- Allowed actions lead from the state to one where `P` holds. -/
def CanReach (step : σ → α → Option σ) (allowed : α → Prop) (P : σ → Prop) (s : σ) : Prop :=
  ∃ actions s', (∀ a ∈ actions, allowed a) ∧ run step s actions = some s' ∧ P s'

section CanReach

variable {step : σ → α → Option σ} {allowed : α → Prop} {P Q : σ → Prop} {s s' : σ}

theorem canReach_here (h : P s) : CanReach step allowed P s :=
  ⟨[], s, fun _ ha => absurd ha List.not_mem_nil, rfl, h⟩

theorem CanReach.of_step {a : α} (ha : allowed a) (hstep : step s a = some s')
    (h : CanReach step allowed P s') : CanReach step allowed P s := by
  obtain ⟨actions, t, hactions, hrun, ht⟩ := h
  refine ⟨a :: actions, t, ?_, ?_, ht⟩
  · intro b hb
    rcases List.mem_cons.mp hb with rfl | hb
    · exact ha
    · exact hactions b hb
  · rw [run, hstep]
    exact hrun

theorem CanReach.trans (h : CanReach step allowed P s)
    (hnext : ∀ s', P s' → CanReach step allowed Q s') : CanReach step allowed Q s := by
  obtain ⟨actions, t, hactions, hrun, ht⟩ := h
  induction actions generalizing s with
  | nil =>
      rw [run, Option.some.injEq] at hrun
      exact hrun ▸ hnext t ht
  | cons a actions ih =>
      rw [run] at hrun
      split at hrun
      · cases hrun
      · rename_i s' hs'
        exact .of_step (hactions a List.mem_cons_self) hs'
          (ih (fun b hb => hactions b (List.mem_cons_of_mem _ hb)) hrun)

theorem CanReach.mono (h : CanReach step allowed P s) (hPQ : ∀ s, P s → Q s) :
    CanReach step allowed Q s :=
  h.trans fun s' hs' => canReach_here (hPQ s' hs')

/-- A system inside another one: what it can reach there, the larger one can reach. -/
theorem CanReach.lift {τ β : Type} {step' : τ → β → Option τ} {allowed' : β → Prop}
    (g : σ → τ) (f : α → β) (hallowed : ∀ a, allowed a → allowed' (f a))
    (hstep : ∀ s a s', step s a = some s' → step' (g s) (f a) = some (g s'))
    (h : CanReach step allowed P s) :
    CanReach step' allowed' (fun t => ∃ s', P s' ∧ t = g s') (g s) := by
  obtain ⟨actions, t, hactions, hrun, ht⟩ := h
  induction actions generalizing s with
  | nil =>
      rw [run, Option.some.injEq] at hrun
      exact canReach_here ⟨t, ht, by rw [hrun]⟩
  | cons a actions ih =>
      rw [run] at hrun
      split at hrun
      · cases hrun
      · rename_i s' hs'
        exact .of_step (hallowed a (hactions a List.mem_cons_self)) (hstep s a s' hs')
          (ih (fun b hb => hactions b (List.mem_cons_of_mem _ hb)) hrun)

end CanReach

end Runs
