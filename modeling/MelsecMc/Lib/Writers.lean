/-
Writers of a byte string.

A writer is handed what has been written so far.  One that only adds to it is determined by
what it writes to the empty string, and a writer made of such writers only adds as well.
Of a loop over such writers that succeeded, the result falls into chunks, one for each
round of the loop and in the same order, each of them what that round writes on its own
(`foldlM_eq_ok_iff`).
-/
import MelsecMc.Lib.Pointwise

namespace Writers

variable {β ι κ ε : Type}

/-- The writer leaves what is there as it is, and does not look at it. -/
def Adds (write : List β → Except ε (List β)) : Prop :=
  ∀ out, write out = (out ++ ·) <$> write []

namespace Adds

theorem eq_ok {write : List β → Except ε (List β)} (h : Adds write) {out r : List β} :
    write out = .ok r ↔ ∃ chunk, write [] = .ok chunk ∧ r = out ++ chunk := by
  rw [h out]
  cases write [] with
  | error e => exact ⟨fun h => (by cases h), fun ⟨_, h, _⟩ => (by cases h)⟩
  | ok chunk =>
      constructor
      · intro hr
        cases hr
        exact ⟨chunk, rfl, rfl⟩
      · rintro ⟨chunk', hchunk, hr⟩
        cases hchunk
        rw [hr]
        rfl

/-- A writer that adds a fixed string. -/
theorem const (chunk : List β) : Adds (ε := ε) fun out => .ok (out ++ chunk) :=
  fun _ => rfl

/-- A writer that fails. -/
theorem fail (e : ε) : Adds (β := β) fun _ => .error e :=
  fun _ => rfl

/-- A writer that writes nothing. -/
theorem skip : Adds (β := β) (ε := ε) fun out => .ok out := by
  intro out
  show Except.ok out = Except.ok (out ++ [])
  rw [List.append_nil]

/-- One writer after another. -/
theorem seq {write₁ write₂ : List β → Except ε (List β)} (h₁ : Adds write₁) (h₂ : Adds write₂) :
    Adds fun out => write₁ out >>= write₂ := by
  intro out
  dsimp only
  rw [h₁ out]
  cases write₁ [] with
  | error e => rfl
  | ok chunk =>
      show write₂ (out ++ chunk) = (out ++ ·) <$> write₂ chunk
      rw [h₂ (out ++ chunk), h₂ chunk]
      cases write₂ [] with
      | error e => rfl
      | ok chunk' => exact congrArg Except.ok (List.append_assoc out chunk chunk')

/-- A loop. -/
theorem foldlM {write : List β → ι → Except ε (List β)} {l : List ι}
    (h : ∀ i ∈ l, Adds (write · i)) : Adds fun out => l.foldlM write out := by
  induction l with
  | nil => exact skip
  | cons i l ih =>
      have hrest := ih fun j hj => h j (.tail i hj)
      have hseq := seq (h i List.mem_cons_self) hrest
      intro out
      dsimp only
      rw [List.foldlM_cons, List.foldlM_cons]
      exact hseq out

end Adds

/-- A loop that adds what each item comes to, up to the first that comes to nothing. -/
structure Pushes (item : ι → Except ε (List β)) (loop : List β → List ι → Except ε (List β)) :
    Prop where
  nil : ∀ out, loop out [] = .ok out
  cons : ∀ out i l, loop out (i :: l) = item i >>= fun chunk => loop (out ++ chunk) l

namespace Pushes

variable {item : ι → Except ε (List β)} {loop : List β → List ι → Except ε (List β)}

theorem adds (h : Pushes item loop) (l : List ι) : Adds (loop · l) := by
  induction l with
  | nil =>
      intro out
      dsimp only
      rw [h.nil, h.nil]
      exact Adds.skip out
  | cons i l ih =>
      intro out
      dsimp only
      rw [h.cons, h.cons]
      cases item i with
      | error e => rfl
      | ok chunk => exact (Adds.const chunk).seq ih out

/-- The loop succeeds when every item comes to something. -/
theorem ok_iff (h : Pushes item loop) (l : List ι) : ∀ out,
    (∃ r, loop out l = .ok r) ↔ ∀ i ∈ l, ∃ chunk, item i = .ok chunk := by
  induction l with
  | nil =>
      intro out
      exact ⟨fun _ i hi => absurd hi List.not_mem_nil, fun _ => ⟨out, h.nil out⟩⟩
  | cons i l ih =>
      intro out
      rw [h.cons, List.forall_mem_cons]
      cases item i with
      | error e =>
          refine ⟨?_, ?_⟩
          · rintro ⟨r, hr⟩
            cases hr
          · rintro ⟨⟨chunk, hchunk⟩, -⟩
            cases hchunk
      | ok chunk => exact (ih (out ++ chunk)).trans ⟨fun hrest => ⟨⟨chunk, rfl⟩, hrest⟩, And.right⟩

end Pushes

/-- A loop within a loop is one loop. -/
theorem foldlM_flatMap {σ : Type} {step : σ → κ → Except ε σ} (rounds : ι → List κ) (l : List ι)
    (s : σ) : (l.flatMap rounds).foldlM step s =
      l.foldlM (fun s i => (rounds i).foldlM step s) s := by
  induction l generalizing s with
  | nil => rfl
  | cons i l ih =>
      rw [List.flatMap_cons, List.foldlM_append, List.foldlM_cons]
      exact congrArg ((rounds i).foldlM step s >>= ·) (funext ih)

/-- What each round of a loop writes on its own. -/
def Chunks (write : List β → ι → Except ε (List β)) (l : List ι) (chunks : List (List β)) : Prop :=
  List.Forall₂ (fun i chunk => write [] i = .ok chunk) l chunks

/-- **A loop over writers that only add** succeeds when each round does, and the result is
the chunks of the rounds. -/
theorem foldlM_eq_ok_iff {write : List β → ι → Except ε (List β)} {l : List ι}
    (h : ∀ i ∈ l, Adds (write · i)) {out r : List β} :
    l.foldlM write out = .ok r ↔ ∃ chunks, Chunks write l chunks ∧ r = out ++ chunks.flatten := by
  induction l generalizing out with
  | nil =>
      constructor
      · intro hr
        cases hr
        exact ⟨[], .nil, (List.append_nil _).symm⟩
      · rintro ⟨chunks, hchunks, hr⟩
        cases hchunks
        rw [hr, List.flatten_nil, List.append_nil]
        rfl
  | cons i l ih =>
      have hi := h i List.mem_cons_self
      have ih' := fun start => @ih (fun j hj => h j (.tail i hj)) start
      rw [List.foldlM_cons]
      constructor
      · intro hr
        cases hwrite : write out i with
        | error e =>
            rw [hwrite] at hr
            cases hr
        | ok mid =>
            rw [hwrite] at hr
            obtain ⟨chunk, hchunk, hmid⟩ := hi.eq_ok.mp hwrite
            obtain ⟨chunks, hchunks, hrest⟩ := (ih' mid).mp hr
            refine ⟨chunk :: chunks, .cons hchunk hchunks, ?_⟩
            rw [hrest, hmid, List.flatten_cons, List.append_assoc]
      · rintro ⟨chunks, hchunks, hr⟩
        cases hchunks with
        | cons hchunk hchunks =>
            rename_i chunk chunks
            have hwrite : write out i = .ok (out ++ chunk) := hi.eq_ok.mpr ⟨chunk, hchunk, rfl⟩
            rw [hwrite]
            refine (ih' (out ++ chunk)).mpr ⟨chunks, hchunks, ?_⟩
            rw [hr, List.flatten_cons, List.append_assoc]

/-- Rounds that all succeed have their chunks. -/
theorem Chunks.of_forall {write : List β → ι → Except ε (List β)} {l : List ι}
    (h : ∀ i ∈ l, ∃ chunk, write [] i = .ok chunk) : ∃ chunks, Chunks write l chunks :=
  Pointwise.exists_forall₂_iff.mpr h

/-- What holds of the chunks holds of what each round writes. -/
theorem Chunks.forall₂_iff {write : List β → ι → Except ε (List β)} {l : List ι}
    {chunks : List (List β)} {P : ι → List β → Prop} (h : Chunks write l chunks) :
    List.Forall₂ P l chunks ↔ ∀ i ∈ l, ∃ chunk, write [] i = .ok chunk ∧ P i chunk := by
  induction h with
  | nil => exact ⟨fun _ i hi => absurd hi List.not_mem_nil, fun _ => .nil⟩
  | cons hchunk _ ih =>
      rw [List.forall₂_cons, List.forall_mem_cons, ih]
      constructor
      · rintro ⟨hP, hrest⟩
        exact ⟨⟨_, hchunk, hP⟩, hrest⟩
      · rintro ⟨⟨chunk, hchunk', hP⟩, hrest⟩
        rw [hchunk, Except.ok.injEq] at hchunk'
        exact ⟨hchunk' ▸ hP, hrest⟩

/-- Each round has written something. -/
theorem Chunks.exists {write : List β → ι → Except ε (List β)} {l : List ι}
    {chunks : List (List β)} (h : Chunks write l chunks) :
    ∀ i ∈ l, ∃ chunk, write [] i = .ok chunk :=
  Pointwise.exists_forall₂_iff.mp ⟨chunks, h⟩

end Writers
