/-
The element loop of a typed read, for any type.

`elementTurn` is one turn of the loop of `read_words_as`, which counts what it has read in
one variable and where it stands in another.  A decoder may fail or take any number of words,
none included, so neither variable moves in every turn; their sum does, and that bounds the
loop (`typed_read_loop_safe`).

With decoders that take the words of one element the loop walks over the elements, and an
element that does not decode takes it off their borders: it goes on one word later.  What it
returns is then what was read wherever something decoded, which is what the elements hold when
nothing decodes inside one that fails (`typed_read_skips_iff`).
-/
import MelsecMc.Lib.Loops
import MelsecMc.Lib.Strides
import MelsecMc.Words

namespace MelsecMc

/-- The variables of the loop. -/
structure ElementState (α : Type) where
  idx : Nat
  parsed : Nat
  out : List α

/-- One turn of the loop. -/
def elementTurn {α : Type} [FromWords α] (words : List UInt16) (count : Nat)
    (st : ElementState α) : Loops.Turn (ElementState α) (Except Failure (List α)) :=
  if st.parsed < count ∧ st.idx + FromWords.words α ≤ words.length then
    match wordsFrom words st.idx with
    | .error e => .done (.error e)
    | .ok slice =>
        match FromWords.fromWordsSlice slice with
        | .ok (val, used) => .again ⟨st.idx + used, st.parsed + 1, st.out ++ [val]⟩
        -- a parse error: advance by one word and try to resync
        | .error (.err _) => .again ⟨st.idx + 1, st.parsed, st.out⟩
        | .error (.panic p) => .done (.error (.panic p))
  else .done (.ok st.out)

section Turns

variable {α : Type} [FromWords α] {words : List UInt16} {count : Nat} {st st' : ElementState α}

/-- What a turn that goes on has done. -/
inductive TurnDone (words : List UInt16) (st : ElementState α) : ElementState α → Prop
  | read {val : α} {used : Nat}
      (h : FromWords.fromWordsSlice (words.drop st.idx) = .ok (val, used)) :
      TurnDone words st ⟨st.idx + used, st.parsed + 1, st.out ++ [val]⟩
  | failed {e : MelsecError}
      (h : (FromWords.fromWordsSlice (words.drop st.idx) : Except Failure (α × Nat)) =
        .error (.err e)) : TurnDone words st ⟨st.idx + 1, st.parsed, st.out⟩

theorem elementTurn_of_room (hparsed : st.parsed < count)
    (hroom : st.idx + FromWords.words α ≤ words.length) :
    elementTurn words count st =
      match (FromWords.fromWordsSlice (words.drop st.idx) : Except Failure (α × Nat)) with
      | .ok (val, used) => .again ⟨st.idx + used, st.parsed + 1, st.out ++ [val]⟩
      | .error (.err _) => .again ⟨st.idx + 1, st.parsed, st.out⟩
      | .error (.panic p) => .done (.error (.panic p)) := by
  rw [elementTurn, if_pos ⟨hparsed, hroom⟩, wordsFrom, if_pos (by omega)]

theorem elementTurn_read {val : α} {used : Nat} (hparsed : st.parsed < count)
    (hroom : st.idx + FromWords.words α ≤ words.length)
    (h : FromWords.fromWordsSlice (words.drop st.idx) = .ok (val, used)) :
    elementTurn words count st = .again ⟨st.idx + used, st.parsed + 1, st.out ++ [val]⟩ := by
  rw [elementTurn_of_room hparsed hroom, h]

theorem elementTurn_failed {e : MelsecError} (hparsed : st.parsed < count)
    (hroom : st.idx + FromWords.words α ≤ words.length)
    (h : (FromWords.fromWordsSlice (words.drop st.idx) : Except Failure (α × Nat)) =
      .error (.err e)) :
    elementTurn words count st = .again ⟨st.idx + 1, st.parsed, st.out⟩ := by
  rw [elementTurn_of_room hparsed hroom, h]

theorem elementTurn_again (h : elementTurn words count st = .again st') :
    st.parsed < count ∧ st.idx + FromWords.words α ≤ words.length ∧ TurnDone words st st' := by
  by_cases hguard : st.parsed < count ∧ st.idx + FromWords.words α ≤ words.length
  · rw [elementTurn_of_room hguard.1 hguard.2] at h
    refine ⟨hguard.1, hguard.2, ?_⟩
    split at h
    · rename_i val used hread
      rw [Loops.Turn.again.injEq] at h
      exact h ▸ .read hread
    · rename_i e hfail
      rw [Loops.Turn.again.injEq] at h
      exact h ▸ .failed hfail
    · cases h
  · rw [elementTurn, if_neg hguard] at h
    cases h

/-- The loop ends at its test, or because the decoder panicked. -/
theorem elementTurn_done {r : Except Failure (List α)} (h : elementTurn words count st = .done r) :
    (¬ (st.parsed < count ∧ st.idx + FromWords.words α ≤ words.length) ∧ r = .ok st.out) ∨
    ∃ p, (st.parsed < count ∧ st.idx + FromWords.words α ≤ words.length) ∧
      (FromWords.fromWordsSlice (words.drop st.idx) : Except Failure (α × Nat)) =
        .error (.panic p) ∧ r = .error (.panic p) := by
  by_cases hguard : st.parsed < count ∧ st.idx + FromWords.words α ≤ words.length
  · rw [elementTurn_of_room hguard.1 hguard.2] at h
    split at h
    · cases h
    · cases h
    · rename_i p hpanic
      rw [Loops.Turn.done.injEq] at h
      exact .inr ⟨p, hguard, hpanic, h.symm⟩
  · rw [elementTurn, if_neg hguard, Loops.Turn.done.injEq] at h
    exact .inl ⟨hguard, h.symm⟩

/-- The turns and the recursive loop come to the same. -/
theorem readElements_of_ends {visited : List (ElementState α)} {r : Except Failure (List α)}
    (h : Loops.Ends (elementTurn words count) st visited r) :
    readElements words count st.idx st.parsed st.out = r := by
  induction h with
  | @done st r h =>
      rcases elementTurn_done h with ⟨hguard, rfl⟩ | ⟨p, hguard, hpanic, rfl⟩
      · rw [readElements, dif_neg hguard]
      · rw [readElements, dif_pos hguard, wordsFrom, if_pos (by omega)]
        dsimp only
        rw [hpanic]
  | @again st st' visited r h hrest ih =>
      obtain ⟨hparsed, hroom, hdone⟩ := elementTurn_again h
      rw [readElements, dif_pos ⟨hparsed, hroom⟩, wordsFrom, if_pos (by omega)]
      cases hdone with
      | read hread =>
          dsimp only
          rw [hread]
          exact ih
      | failed hfail =>
          dsimp only
          rw [hfail]
          exact ih

end Turns

/-- A value of two words that is only there if the first is not 0. -/
structure Stamped where
  stamp : UInt16
  value : UInt16
  deriving DecidableEq, Repr

instance : FromWords Stamped where
  words := 2
  fromWordsSlice
    | stamp :: value :: _ =>
        if stamp = 0 then protocolError "no stamp" else .ok (⟨stamp, value⟩, 2)
    | _ => protocolError "not enough words for Stamped"

/-! ### Any decoder

Nothing is assumed of the decoder but that it does not claim more words than it was given.
-/

section Safe

variable {α : Type} [FromWords α]

/-- The decoder fails, or takes no more words than it is given. -/
def TakesWithin (α : Type) [FromWords α] : Prop :=
  ∀ slice : List UInt16,
    (∃ e, (FromWords.fromWordsSlice slice : Except Failure (α × Nat)) = .error (.err e)) ∨
    ∃ (v : α) (used : Nat), FromWords.fromWordsSlice slice = .ok (v, used) ∧ used ≤ slice.length

/-- What holds between two turns. -/
structure ElementInv (words : List UInt16) (count : Nat) (st : ElementState α) : Prop where
  length_out : st.out.length = st.parsed
  parsed_le : st.parsed ≤ count
  idx_le : st.idx ≤ words.length + 1
  /-- once a turn went on, the words of one element were there -/
  fits : st.idx = 0 ∨ FromWords.words α ≤ words.length

/-- The turns that are left at most. -/
def turnsLeft (words : List UInt16) (count : Nat) (st : ElementState α) : Nat :=
  (count - st.parsed) + (words.length + 1 - st.idx)

theorem ElementInv.again (hdec : TakesWithin α) {words : List UInt16} {count : Nat}
    {st st' : ElementState α} (hinv : ElementInv words count st)
    (h : elementTurn words count st = .again st') :
    ElementInv words count st' ∧ turnsLeft words count st' < turnsLeft words count st := by
  obtain ⟨hparsed, hroom, hdone⟩ := elementTurn_again h
  have hidx : st.idx ≤ words.length := by omega
  have hfits : FromWords.words α ≤ words.length := by omega
  rw [turnsLeft, turnsLeft]
  cases hdone with
  | @read val used hread =>
      have hused : used ≤ words.length - st.idx := by
        rcases hdec (words.drop st.idx) with ⟨e, hfail⟩ | ⟨v, used', hread', hle⟩
        · rw [hread] at hfail
          cases hfail
        · rw [hread, Except.ok.injEq, Prod.mk.injEq] at hread'
          rw [hread'.2]
          rwa [List.length_drop] at hle
      refine ⟨⟨?_, hparsed, ?_, .inr hfits⟩, ?_⟩
      · rw [List.length_append, hinv.length_out]
        rfl
      · dsimp only
        omega
      · dsimp only
        omega
  | failed _ =>
      refine ⟨⟨hinv.length_out, hinv.parsed_le, ?_, .inr hfits⟩, ?_⟩
      · dsimp only
        omega
      · dsimp only
        omega

/-- The loop stops with these elements. `last` is the state its test fails in; no sum the test
makes is above the bound, which is that of a `usize` for words that fit in memory. -/
structure ElementLoopSafe (words : List UInt16) (count : Nat) (visited : List (ElementState α))
    (last : ElementState α) (out : List α) : Prop where
  ends : Loops.Ends (elementTurn words count) ⟨0, 0, []⟩ visited (.ok out)
  returned : readElements words count 0 0 [] = .ok out
  turns_le : visited.length ≤ count + words.length + 1
  slices : ∀ st ∈ visited, st.idx ≤ words.length
  length_le : out.length ≤ count
  stopped : elementTurn words count last = .done (.ok out)
  sums : ∀ st ∈ last :: visited,
    st.idx + FromWords.words α ≤ max (FromWords.words α) (2 * words.length + 1)

/-- **The element loop is safe for every decoder.** -/
theorem typed_read_loop_safe (hdec : TakesWithin α) (words : List UInt16) (count : Nat) :
    ∃ (visited : List (ElementState α)) (last : ElementState α) (out : List α),
      ElementLoopSafe words count visited last out := by
  have hstart : ElementInv words count (⟨0, 0, []⟩ : ElementState α) :=
    ⟨rfl, Nat.zero_le count, Nat.zero_le _, .inl rfl⟩
  have hturn : ∀ st st' : ElementState α, ElementInv words count st →
      elementTurn words count st = .again st' →
      ElementInv words count st' ∧ turnsLeft words count st' < turnsLeft words count st :=
    fun st st' hinv h => hinv.again hdec h
  obtain ⟨visited, r, hends⟩ := Loops.exists_ends hturn hstart
  obtain ⟨last, hlast, hdone, hlen⟩ := hends.length_le hturn hstart
  have hvisited := hends.invariant (fun st st' hinv h => (hturn st st' hinv h).1) hstart
  have hsum : ∀ st : ElementState α, ElementInv words count st →
      st.idx + FromWords.words α ≤ max (FromWords.words α) (2 * words.length + 1) := by
    intro st hinv
    have hidx := hinv.idx_le
    rcases hinv.fits with hzero | hfits
    · omega
    · omega
  rcases elementTurn_done hdone with ⟨-, rfl⟩ | ⟨p, -, hpanic, -⟩
  · refine ⟨visited, last, last.out, hends, readElements_of_ends hends, ?_, ?_, ?_, hdone, ?_⟩
    · rw [turnsLeft, turnsLeft] at hlen
      dsimp only at hlen
      omega
    · intro st hst
      obtain ⟨-, st', h⟩ := hvisited st hst
      obtain ⟨-, hroom, -⟩ := elementTurn_again h
      omega
    · rw [hlast.length_out]
      exact hlast.parsed_le
    · exact List.forall_mem_cons.mpr ⟨hsum last hlast, fun st hst => hsum st (hvisited st hst).1⟩
  · rcases hdec (words.drop last.idx) with ⟨e, hfail⟩ | ⟨v, used, hread, -⟩
    · rw [hpanic] at hfail
      cases hfail
    · rw [hpanic] at hread
      cases hread

end Safe

theorem takesWithin_stamped : TakesWithin Stamped := by
  intro slice
  match slice with
  | [] => exact .inl ⟨_, rfl⟩
  | [_] => exact .inl ⟨_, rfl⟩
  | stamp :: value :: rest =>
      by_cases hstamp : stamp = 0
      · exact .inl ⟨_, if_pos hstamp⟩
      · refine .inr ⟨⟨stamp, value⟩, 2, if_neg hstamp, ?_⟩
        rw [List.length_cons, List.length_cons]
        omega

theorem typed_read_loop_safe_stamped :
    ∃ (visited : List (ElementState Stamped)) (last : ElementState Stamped) (out : List Stamped),
      ElementLoopSafe [0, 1, 2, 3] 2 visited last out :=
  typed_read_loop_safe takesWithin_stamped [0, 1, 2, 3] 2

/-! ### Decoders of one element

A decoder that takes the words of one element, or fails.  The loop is then a walk in strides, and
the library says what a walk takes when a stride can be off.
-/

section Aligned

variable (α : Type) [FromWords α]

/-- On a slice of enough words the decoder fails, or takes the words of one element. -/
def TakesWhole : Prop :=
  ∀ slice : List UInt16, FromWords.words α ≤ slice.length →
    (∃ e, (FromWords.fromWordsSlice slice : Except Failure (α × Nat)) = .error (.err e)) ∨
    ∃ v : α, FromWords.fromWordsSlice slice = .ok (v, FromWords.words α)

/-- What a slice decodes to, if it does. -/
def decoded (slice : List UInt16) : Option α :=
  match FromWords.fromWordsSlice slice with
  | .ok (val, _) => some val
  | .error _ => none

/-- The words of element `k`. -/
def elementWords (words : List UInt16) (k : Nat) : List UInt16 :=
  (words.drop (k * FromWords.words α)).take (FromWords.words α)

/-- The elements that decode: the word each one begins at, and its value. -/
def alignedElements (words : List UInt16) (count : Nat) : List (Nat × α) :=
  Strides.slots (fun k => decoded α (elementWords α words k)) (FromWords.words α) 0 count

variable {α}

/-- What the loop read in these turns, and where. -/
def takenAt (words : List UInt16) (visited : List (ElementState α)) : List (Nat × α) :=
  visited.filterMap fun st => (decoded α (words.drop st.idx)).map fun v => (st.idx, v)

variable (α)

/-- The loop returns the values of the elements that decode, and each was read where its element
is. -/
structure ReadsInPlace (words : List UInt16) (count : Nat) : Prop where
  returned : readElements words count 0 0 [] =
    .ok ((alignedElements α words count).map Prod.snd)
  places : ∃ (visited : List (ElementState α)) (r : Except Failure (List α)),
    Loops.Ends (elementTurn words count) ⟨0, 0, []⟩ visited r ∧
      takenAt words visited = alignedElements α words count

/-- Every element decodes as it does with the other words behind it, and where it does not,
nothing decodes that begins inside it. -/
structure ElementsInStep (words : List UInt16) (count : Nat) : Prop where
  alone : ∀ k < count,
    decoded α (elementWords α words k) = decoded α (words.drop (k * FromWords.words α))
  inside : ∀ k < count, decoded α (words.drop (k * FromWords.words α)) = none →
    ∀ p, k * FromWords.words α < p → p < (k + 1) * FromWords.words α →
      p + FromWords.words α ≤ words.length → decoded α (words.drop p) = none

/-- A value that is read off its place is that of an element elsewhere. -/
def Displaced (words : List UInt16) (count : Nat) : Prop :=
  ∃ p k v, k < count ∧ p ≠ k * FromWords.words α ∧ decoded α (words.drop p) = some v ∧
    decoded α (elementWords α words k) = some v

/-- The walk of the loop over the words. -/
abbrev ElementWalk (words : List UInt16) : Nat → List (Nat × α) → Prop :=
  Strides.Walk (fun p => decoded α (words.drop p)) (FromWords.words α) words.length

variable {α} {words : List UInt16}

theorem takenAt_cons (st : ElementState α) (visited : List (ElementState α)) :
    takenAt words (st :: visited) =
      ((decoded α (words.drop st.idx)).map fun v => (st.idx, v)).toList ++ takenAt words visited := by
  rw [takenAt, List.filterMap_cons, takenAt]
  cases decoded α (words.drop st.idx) with
  | none => rfl
  | some v => rfl

/-- What a decoder of one element does with enough words. -/
theorem TakesWhole.read (hdec : TakesWhole α) {slice : List UInt16}
    (hlen : FromWords.words α ≤ slice.length) {v : α} (hv : decoded α slice = some v) :
    FromWords.fromWordsSlice slice = .ok (v, FromWords.words α) := by
  rcases hdec slice hlen with ⟨e, hfail⟩ | ⟨v', hread⟩
  · rw [decoded, hfail] at hv
    cases hv
  · rw [decoded, hread, Option.some.injEq] at hv
    rw [hread, hv]

theorem TakesWhole.failed (hdec : TakesWhole α) {slice : List UInt16}
    (hlen : FromWords.words α ≤ slice.length) (hv : decoded α slice = none) :
    ∃ e, (FromWords.fromWordsSlice slice : Except Failure (α × Nat)) = .error (.err e) := by
  rcases hdec slice hlen with hfail | ⟨v, hread⟩
  · exact hfail
  · rw [decoded, hread] at hv
    cases hv

/-- With as many elements to read as there is room for, the loop is the walk.  The induction is
on the walk; `left` elements are still to be read. -/
theorem ends_of_walk (hw : 1 ≤ FromWords.words α) (hdec : TakesWhole α) {p : Nat}
    {taken : List (Nat × α)} (hwalk : ElementWalk α words p taken) :
    ∀ {parsed left : Nat} {out : List α}, words.length ≤ p + FromWords.words α * left →
      ∃ visited, Loops.Ends (elementTurn words (parsed + left)) ⟨p, parsed, out⟩ visited
          (.ok (out ++ taken.map Prod.snd)) ∧
        takenAt words visited = taken := by
  induction hwalk with
  | stop h =>
      intro parsed left out _
      refine ⟨[], .done ?_, rfl⟩
      rw [elementTurn, if_neg (by dsimp only; omega), List.map_nil, List.append_nil]
  | @take p v taken h hv hrest ih =>
      intro parsed left out hleft
      obtain ⟨left, rfl⟩ : ∃ l, left = l + 1 := by
        cases left with
        | zero => omega
        | succ l => exact ⟨l, rfl⟩
      rw [Nat.mul_succ] at hleft
      have hread := hdec.read (by rw [List.length_drop]; omega) hv
      obtain ⟨visited, hends, htaken⟩ := @ih (parsed + 1) left (out ++ [v]) (by omega)
      rw [Nat.add_right_comm, List.append_assoc] at hends
      refine ⟨⟨p, parsed, out⟩ :: visited, .again (elementTurn_read ?_ h hread) hends, ?_⟩
      · dsimp only
        omega
      · rw [takenAt_cons, hv, htaken]
        rfl
  | @skip p taken h hv hrest ih =>
      intro parsed left out hleft
      have hpos : 0 < left := by
        cases left with
        | zero => omega
        | succ l => exact Nat.succ_pos l
      obtain ⟨e, hfail⟩ := hdec.failed (by rw [List.length_drop]; omega) hv
      obtain ⟨visited, hends, htaken⟩ := @ih parsed left out (by omega)
      refine ⟨⟨p, parsed, out⟩ :: visited, .again (elementTurn_failed ?_ h hfail) hends, ?_⟩
      · dsimp only
        omega
      · rw [takenAt_cons, hv, htaken]
        rfl

variable {count : Nat}

/-- The walk takes the elements that decode exactly when they are in step. -/
theorem walk_elements_iff (hw : 1 ≤ FromWords.words α)
    (hlen : words.length = FromWords.words α * count) :
    ElementWalk α words 0 (alignedElements α words count) ↔ ElementsInStep α words count := by
  have hslots : ElementWalk α words (0 * FromWords.words α) (alignedElements α words count) ↔ _ :=
    Strides.walk_slots_iff hw count (by rw [Nat.zero_add, hlen])
  rw [Nat.zero_mul, Nat.zero_add] at hslots
  rw [hslots]
  constructor
  · exact fun h => ⟨fun k hk => (h k (Nat.zero_le k) hk).value_eq,
      fun k hk => (h k (Nat.zero_le k) hk).inside⟩
  · exact fun h j _ hj => ⟨h.alone j hj, h.inside j hj⟩

/-- **A typed read returns the elements that decode, from their places, exactly when all elements
are in step**; and where they are not, the list is wrong, or right only because a value that was
read elsewhere is that of an element. -/
theorem typed_read_skips_iff (hw : 1 ≤ FromWords.words α) (hdec : TakesWhole α)
    (hlen : words.length = FromWords.words α * count) :
    (ReadsInPlace α words count ↔ ElementsInStep α words count) ∧
      (readElements words count 0 0 [] = .ok ((alignedElements α words count).map Prod.snd) →
        ElementsInStep α words count ∨ Displaced α words count) := by
  obtain ⟨taken, hwalk⟩ : ∃ taken, ElementWalk α words 0 taken := Strides.Walk.total hw 0
  obtain ⟨visited, hends, htaken⟩ :=
    @ends_of_walk α _ words hw hdec 0 taken hwalk 0 count [] (by omega)
  rw [Nat.zero_add, List.nil_append] at hends
  have hsteps : taken = alignedElements α words count ↔ ElementsInStep α words count := by
    rw [← walk_elements_iff hw hlen]
    exact ⟨fun heq => heq ▸ hwalk, fun h => hwalk.unique h⟩
  have hreturned := readElements_of_ends hends
  refine ⟨⟨?_, ?_⟩, ?_⟩
  · rintro ⟨-, visited', r, hends', htaken'⟩
    obtain ⟨rfl, -⟩ := hends.unique hends'
    exact hsteps.mp (htaken.symm.trans htaken')
  · intro h
    have heq := hsteps.mpr h
    exact ⟨by rw [hreturned, heq], visited, _, hends, htaken.trans heq⟩
  · intro h
    by_cases heq : taken = alignedElements α words count
    · exact .inl (hsteps.mp heq)
    · rw [hreturned, Except.ok.injEq] at h
      obtain ⟨t, ht, t', ht', hplace, hvalue⟩ := Strides.exists_displaced h heq
      obtain ⟨k, -, hk, hslot, hplace'⟩ := Strides.mem_slots ht'
      rw [Nat.zero_add] at hk
      refine .inr ⟨t.1, k, t.2, hk, hplace' ▸ hplace, hwalk.decode_of_mem t ht, ?_⟩
      rw [hvalue]
      exact hslot

end Aligned

theorem takesWhole_stamped : TakesWhole Stamped := by
  intro slice hlen
  match slice, hlen with
  | stamp :: value :: rest, _ =>
      by_cases hstamp : stamp = 0
      · exact .inl ⟨_, if_pos hstamp⟩
      · exact .inr ⟨⟨stamp, value⟩, if_neg hstamp⟩

theorem typed_read_skips_iff_stamped :
    (ReadsInPlace Stamped [1, 2, 3, 4] 2 ↔ ElementsInStep Stamped [1, 2, 3, 4] 2) ∧
      (readElements [1, 2, 3, 4] 2 0 0 [] =
          .ok ((alignedElements Stamped [1, 2, 3, 4] 2).map Prod.snd) →
        ElementsInStep Stamped [1, 2, 3, 4] 2 ∨ Displaced Stamped [1, 2, 3, 4] 2) :=
  typed_read_skips_iff (by decide) takesWhole_stamped rfl

/-- The first of two elements fails, and the words in the middle are returned for the second. -/
theorem typed_read_skips_fails :
    TakesWhole Stamped ∧
      readElements [0, 1, 2, 3] 2 0 0 [] = .ok [(⟨1, 2⟩ : Stamped)] ∧
      (alignedElements Stamped [0, 1, 2, 3] 2).map Prod.snd = [⟨2, 3⟩] := by
  refine ⟨takesWhole_stamped, ?_, by decide⟩
  exact @readElements_of_ends _ _ _ _ ⟨0, 0, []⟩ _ _ (.again rfl (.again rfl (.done rfl)))

end MelsecMc
