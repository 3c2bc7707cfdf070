/-
Readers of a byte string.

A reader is handed the whole string and a state that knows the offset of the next byte.
`Reads` is its contract: where the bytes it needs are there, what it does to the state is
a function of these bytes alone and the offset moves behind them; where some are missing it
fails, and the failure is a soft one, an error and not a crash.  The offsets a reader
computes with are bounded, so the contract holds below the bound only.

Contracts compose.  Readers in a row need as many bytes as they do one by one
(`Reads.foldlM`), and reading the chunks of a string one behind the other is a fold over
the chunks (`effAll_flatten`).
-/
import Mathlib.Algebra.BigOperators.Group.List.Basic
import Mathlib.Algebra.GroupWithZero.Nat

namespace Readers

variable {β ι S S' ε : Type}

/-- The contract of a reader of `need` bytes. -/
structure Reads (offset : S → Nat) (soft : ε → Prop) (bound : Nat)
    (read : List β → S → Except ε S) (need : Nat) (eff : List β → S → S) : Prop where
  /-- With its bytes there it returns what they stand for. -/
  there : ∀ bytes s, offset s + need ≤ bytes.length → offset s + need < bound →
    read bytes s = .ok (eff ((bytes.drop (offset s)).take need) s)
  /-- The next reader goes on behind these bytes. -/
  moves : ∀ chunk s, offset (eff chunk s) = offset s + need
  /-- With bytes missing it fails. -/
  short : ∀ bytes s, offset s ≤ bytes.length → bytes.length < offset s + need →
    offset s + need < bound → ∃ e, soft e ∧ read bytes s = .error e

/-- What a list of readers does to the state, given the bytes they need. -/
def effAll (need : ι → Nat) (eff : ι → List β → S → S) : List ι → List β → S → S
  | [], _, s => s
  | i :: l, chunk, s => effAll need eff l (chunk.drop (need i)) (eff i (chunk.take (need i)) s)

/-- Chunks one behind the other are read one after the other. -/
theorem effAll_flatten {need : ι → Nat} (eff : ι → List β → S → S) (l : List ι) :
    ∀ (chunks : List (List β)) (s : S), chunks.map List.length = l.map need →
      effAll need eff l chunks.flatten s = (l.zip chunks).foldl (fun s p => eff p.1 p.2 s) s := by
  induction l with
  | nil => intro chunks s _; rfl
  | cons i l ih =>
      intro chunks s hlen
      cases chunks with
      | nil => exact absurd hlen (by simp)
      | cons chunk chunks =>
          rw [List.map_cons, List.map_cons, List.cons.injEq] at hlen
          rw [List.flatten_cons, effAll, List.take_left' hlen.1, List.drop_left' hlen.1,
            ih chunks _ hlen.2, List.zip_cons_cons, List.foldl_cons]

namespace Reads

variable {offset : S → Nat} {soft : ε → Prop} {bound : Nat}

/-- A reader that has run over a string with its bytes in front. -/
theorem run {read : List β → S → Except ε S} {need : Nat} {eff : List β → S → S}
    (h : Reads offset soft bound read need eff) {s : S} (hs : offset s = 0) {chunk : List β}
    (hlen : chunk.length = need) (hbound : need < bound) (rest : List β) :
    read (chunk ++ rest) s = .ok (eff chunk s) := by
  have hthere := h.there (chunk ++ rest) s
    (by rw [hs, List.length_append]; omega) (by rw [hs]; omega)
  rw [hs, List.drop_zero, List.take_left' hlen] at hthere
  exact hthere

/-- A reader that needs nothing and does nothing. -/
theorem nil : Reads offset soft bound (fun (_ : List β) s => .ok s) 0 fun _ s => s where
  there := fun _ _ _ _ => rfl
  moves := fun _ _ => rfl
  short := by
    intro bytes s hle hlt _
    omega

/-- One reader after another. -/
theorem seq {read₁ read₂ : List β → S → Except ε S} {need₁ need₂ : Nat} {eff₁ eff₂ : List β → S → S}
    (h₁ : Reads offset soft bound read₁ need₁ eff₁) (h₂ : Reads offset soft bound read₂ need₂ eff₂) :
    Reads offset soft bound (fun bytes s => read₁ bytes s >>= read₂ bytes) (need₁ + need₂)
      fun chunk s => eff₂ (chunk.drop need₁) (eff₁ (chunk.take need₁) s) where
  there := by
    intro bytes s hle hbound
    have hnext := h₁.moves ((bytes.drop (offset s)).take need₁) s
    have hread₂ := h₂.there bytes (eff₁ ((bytes.drop (offset s)).take need₁) s)
      (by omega) (by omega)
    have htake : ((bytes.drop (offset s)).take (need₁ + need₂)).take need₁ =
        (bytes.drop (offset s)).take need₁ := by
      rw [List.take_take, Nat.min_eq_left (Nat.le_add_right need₁ need₂)]
    have hdrop : ((bytes.drop (offset s)).take (need₁ + need₂)).drop need₁ =
        (bytes.drop (offset s + need₁)).take need₂ := by
      rw [List.drop_take, List.drop_drop, Nat.add_sub_cancel_left]
    rw [h₁.there bytes s (by omega) (by omega), htake, hdrop, ← hnext]
    exact hread₂
  moves := by
    intro chunk s
    rw [h₂.moves, h₁.moves, Nat.add_assoc]
  short := by
    intro bytes s hle hlt hbound
    by_cases hfirst : offset s + need₁ ≤ bytes.length
    · have hnext := h₁.moves ((bytes.drop (offset s)).take need₁) s
      obtain ⟨e, hsoft, hread₂⟩ := h₂.short bytes (eff₁ ((bytes.drop (offset s)).take need₁) s)
        (by omega) (by omega) (by omega)
      refine ⟨e, hsoft, ?_⟩
      rw [h₁.there bytes s hfirst (by omega)]
      exact hread₂
    · obtain ⟨e, hsoft, hread₁⟩ := h₁.short bytes s hle (by omega) (by omega)
      refine ⟨e, hsoft, ?_⟩
      rw [hread₁]
      rfl

/-- Readers in a row. -/
theorem foldlM {read : List β → S → ι → Except ε S} {need : ι → Nat} {eff : ι → List β → S → S}
    (l : List ι)
    (h : ∀ i ∈ l, Reads offset soft bound (fun bytes s => read bytes s i) (need i) (eff i)) :
    Reads offset soft bound (fun bytes s => l.foldlM (read bytes) s) (l.map need).sum
      (effAll need eff l) := by
  induction l with
  | nil => exact nil
  | cons i l ih =>
      have hrow := seq (h i List.mem_cons_self) (ih fun j hj => h j (.tail i hj))
      rw [List.map_cons, List.sum_cons]
      exact hrow

/-- A reader inside another one, which starts it from a state of its own and takes over
what it ends with. -/
theorem lift {offset' : S' → Nat} {read : List β → S' → Except ε S'} {need : Nat}
    {eff : List β → S' → S'} (h : Reads offset' soft bound read need eff) (start : S → S')
    (finish : S' → S) (hstart : ∀ s, offset' (start s) = offset s)
    (hfinish : ∀ r, offset (finish r) = offset' r) :
    Reads offset soft bound (fun bytes s => read bytes (start s) >>= fun r => .ok (finish r)) need
      fun chunk s => finish (eff chunk (start s)) where
  there := by
    intro bytes s hle hbound
    rw [h.there bytes (start s) (by rw [hstart]; exact hle) (by rw [hstart]; exact hbound), hstart]
    rfl
  moves := by
    intro chunk s
    rw [hfinish, h.moves, hstart]
  short := by
    intro bytes s hle hlt hbound
    obtain ⟨e, hsoft, hread⟩ := h.short bytes (start s) (by rw [hstart]; exact hle)
      (by rw [hstart]; exact hlt) (by rw [hstart]; exact hbound)
    refine ⟨e, hsoft, ?_⟩
    rw [hread]
    rfl

end Reads

end Readers
