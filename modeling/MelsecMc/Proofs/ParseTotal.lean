/-
Whether a parse can panic.

Of the parse only the offset matters for this, and the offset is moved by the lengths of the
blocks alone.  `walk` is that part of the parse: it goes from item to item, is refused where
bytes are missing, and crashes where an offset cannot be computed.  The parse is simulated
by it (`parseResponse_walk`), so what is left is a statement about numbers: a parse panics
exactly when the turn comes to a block that reaches beyond the last offset there is
(`parse_never_panics_iff`).  A block's turn comes when everything before it can be read.
-/
import MelsecMc.Lib.Simulation
import MelsecMc.Proofs.BlockKinds

namespace MelsecMc

open Simulation

/-- The two ways a parse can end early. -/
inductive Ending
  | refused
  | crashed
  deriving DecidableEq, Repr

def Failure.ending : Failure → Ending
  | .err _ => .refused
  | .panic _ => .crashed

/-! ### The offset of a parse -/

/-- What a response is made of: blocks of so many bytes, if their descriptors can be used,
and strings that take all that is left. -/
inductive ResponseItem
  | block (need : Option Nat)
  | rest
  deriving DecidableEq, Repr

/-- The number of bytes a descriptor asks for: none without a count, and none if there are
more than a `usize` counts. -/
def blockNeed (kind : BlockKind) (block : JsonValue) : Option Nat :=
  match announcedCount block with
  | some count => if kind.need count < usizeBound then some (kind.need count) else none
  | none => none

/-- The items of an entry: one for each descriptor. -/
def entryItems (params : JsonValue) (entry : ResponseEntry) : List ResponseItem :=
  match entry.kind with
  | some kind =>
      (CommandSpec.cachedArray params entry.name).map fun block => .block (blockNeed kind block)
  | none => [.rest]

/-- The items of a response, in the order they are read in. -/
def responseItems (spec : CommandSpec) (params : JsonValue) : List ResponseItem :=
  spec.responseEntries.flatMap (entryItems params)

/-- The offset behind an item, if the item can be read. -/
def behind (bytes : Bytes) (offset : Nat) : ResponseItem → Option Nat
  | .block none => none
  | .block (some need) => if offset + need ≤ bytes.length then some (offset + need) else none
  | .rest =>
      if offset ≤ bytes.length ∧ (bytes.drop offset).all CommandSpec.isAsciiHex then
        some bytes.length
      else none

/-- Where the next item's turn comes: behind the items before it, if all of them can be read. -/
def offsetBehind (bytes : Bytes) (before : List ResponseItem) : Option Nat :=
  before.foldlM (behind bytes) 0

/-- What the parse does with an item: it goes on, is refused, or crashes. -/
def walk (bytes : Bytes) (offset : Nat) : ResponseItem → Except Ending Nat
  | .block none => .error .refused
  | .block (some need) =>
      if usizeBound ≤ offset + need then .error .crashed
      else if bytes.length < offset + need then .error .refused
      else .ok (offset + need)
  | .rest =>
      if bytes.length < offset then .error .refused
      else if (bytes.drop offset).all CommandSpec.isAsciiHex then .ok bytes.length
      else .error .refused

section Walk

variable {T : DeviceTable} {spec : CommandSpec} {params : JsonValue} {bytes : Bytes}

/-- A block. -/
theorem simulates_block (kind : BlockKind) (name : String) (block : JsonValue) :
    Simulates accOffset Failure.ending
      (fun acc => kind.parse T name params bytes acc block)
      fun offset => walk bytes offset (.block (blockNeed kind block)) := by
  rintro ⟨out, offset, resultMap⟩
  show walk bytes offset (.block (blockNeed kind block)) =
    trace accOffset Failure.ending (kind.parse T name params bytes (out, ⟨offset, resultMap⟩) block)
  unfold blockNeed
  cases hcount : announcedCount block with
  | none =>
      rw [kind.parse_missing hcount]
      rfl
  | some count =>
      dsimp only
      by_cases hsmall : kind.need count < usizeBound
      · rw [if_pos hsmall, walk]
        by_cases hover : usizeBound ≤ offset + kind.need count
        · have hstop : CommandSpec.ensureBytesAvailable bytes offset (kind.need count) kind.label =
              .error (.panic .arithmeticOverflow) := ensureBytesAvailable_overflow kind.label hover
          rw [if_pos hover, kind.parse_stops hcount hsmall hstop]
          rfl
        · rw [if_neg hover]
          have hbound : offset + kind.need count < usizeBound := Nat.not_le.mp hover
          by_cases hshort : bytes.length < offset + kind.need count
          · rw [if_pos hshort, kind.parse_stops hcount hsmall
              (ensureBytesAvailable_of_lt kind.label hshort hbound)]
            rfl
          · rw [if_neg hshort, kind.parse_ok hcount (Nat.not_lt.mp hshort) hbound]
            rfl
      · rw [if_neg hsmall, kind.parse_tooLarge hcount (Nat.not_lt.mp hsmall)]
        rfl

/-- A string of the bytes that are left. -/
theorem simulates_asciiHex (name : String) :
    Simulates ParseState.offset Failure.ending
      (fun st => CommandSpec.parseAsciiHexEntry name bytes st)
      fun offset => walk bytes offset .rest := by
  intro st
  dsimp only
  unfold CommandSpec.parseAsciiHexEntry walk
  by_cases hbeyond : bytes.length < st.offset
  · rw [if_pos hbeyond, if_pos hbeyond]
    rfl
  · rw [if_neg hbeyond, if_neg hbeyond]
    dsimp only
    cases hfind : (bytes.drop st.offset).find? fun b => !CommandSpec.isAsciiHex b with
    | none =>
        have hall : (bytes.drop st.offset).all CommandSpec.isAsciiHex = true := by
          rw [List.all_eq_true]
          intro b hb
          have := List.find?_eq_none.mp hfind b hb
          simpa using this
        rw [if_pos hall]
        rfl
    | some b =>
        have hnot : ¬ (bytes.drop st.offset).all CommandSpec.isAsciiHex = true := by
          intro hall
          have hb := List.all_eq_true.mp hall b (List.mem_of_find?_eq_some hfind)
          have hbad := List.find?_some hfind
          rw [hb] at hbad
          cases hbad
        rw [if_neg hnot]
        rfl

/-- An entry. -/
theorem simulates_entry (entry : ResponseEntry) :
    Simulates ParseState.offset Failure.ending
      (fun st => CommandSpec.parseResponseEntry T params bytes st entry)
      fun offset => (entryItems params entry).foldlM (walk bytes) offset := by
  intro st
  dsimp only
  unfold entryItems
  cases hkind : entry.kind with
  | none =>
      cases entry with
      | asciiHex name =>
          dsimp only
          rw [foldlM_singleton]
          exact simulates_asciiHex name st
      | _ => cases hkind
  | some kind =>
      have hblocks : Simulates accOffset Failure.ending
          (fun acc => (CommandSpec.cachedArray params entry.name).foldlM
            (fun acc block => kind.parse T entry.name params bytes acc block) acc)
          fun offset => ((CommandSpec.cachedArray params entry.name).flatMap fun block =>
            [.block (blockNeed kind block)]).foldlM (walk bytes) offset := by
        refine Simulates.foldlM fun block _ acc => ?_
        dsimp only
        rw [foldlM_singleton]
        exact simulates_block kind entry.name block acc
      have hrun := hblocks ([], st)
      dsimp only at hrun ⊢
      rw [show accOffset ([], st) = st.offset from rfl] at hrun
      rw [parseResponseEntry_blocks hkind, CommandSpec.parseBlocks, List.map_eq_flatMap, hrun]
      cases (CommandSpec.cachedArray params entry.name).foldlM
          (fun acc block => kind.parse T entry.name params bytes acc block) ([], st) with
      | error e => rfl
      | ok acc => rfl

/-- **The offset of a parse** goes the way `walk` goes. -/
theorem parseResponse_walk (T : DeviceTable) (spec : CommandSpec) (params : JsonValue)
    (bytes : Bytes) :
    (∃ p, CommandSpec.parseResponse T spec params bytes = .error (.panic p)) ↔
      (responseItems spec params).foldlM (walk bytes) 0 = .error .crashed := by
  have hentries : Simulates ParseState.offset Failure.ending
      (fun st => spec.responseEntries.foldlM (CommandSpec.parseResponseEntry T params bytes) st)
      fun offset => (responseItems spec params).foldlM (walk bytes) offset :=
    Simulates.foldlM fun entry _ => simulates_entry entry
  have hwalk := hentries ⟨0, []⟩
  dsimp only at hwalk
  rw [hwalk, CommandSpec.parseResponse]
  cases spec.responseEntries.foldlM (CommandSpec.parseResponseEntry T params bytes) ⟨0, []⟩ with
  | ok st =>
      constructor
      · rintro ⟨p, hp⟩
        cases hp
      · intro h
        cases h
  | error e =>
      cases e with
      | err e =>
          constructor
          · rintro ⟨p, hp⟩
            cases hp
          · intro h
            cases h
      | panic p => exact ⟨fun _ => rfl, fun _ => ⟨p, rfl⟩⟩

/-- Only a block can crash the walk. -/
theorem walk_crashed_iff {offset : Nat} {item : ResponseItem} :
    walk bytes offset item = .error .crashed ↔
      ∃ need, item = .block (some need) ∧ usizeBound ≤ offset + need := by
  cases item with
  | rest =>
      rw [walk]
      constructor
      · intro h
        split at h
        · cases h
        · split at h
          · cases h
          · cases h
      · rintro ⟨need, h, -⟩
        cases h
  | block need =>
      cases need with
      | none =>
          rw [walk]
          constructor
          · intro h
            cases h
          · rintro ⟨need, h, -⟩
            cases h
      | some need =>
          rw [walk]
          constructor
          · intro h
            split at h
            · exact ⟨need, rfl, by assumption⟩
            · split at h
              · cases h
              · cases h
          · rintro ⟨need', h, hover⟩
            cases h
            exact if_pos hover

/-- What the walk goes past can be read. -/
theorem behind_of_walk {offset offset' : Nat} {item : ResponseItem}
    (h : walk bytes offset item = .ok offset') : behind bytes offset item = some offset' := by
  cases item with
  | rest =>
      rw [walk] at h
      split at h
      · cases h
      · rename_i hle
        split at h
        · rename_i hall
          cases h
          exact if_pos ⟨Nat.not_lt.mp hle, hall⟩
        · cases h
  | block need =>
      cases need with
      | none => cases h
      | some need =>
          rw [walk] at h
          split at h
          · cases h
          · split at h
            · cases h
            · rename_i hle
              cases h
              exact if_pos (Nat.not_lt.mp hle)

/-- The walk goes past what can be read, or crashes. -/
theorem walk_of_behind {offset offset' : Nat} {item : ResponseItem}
    (h : behind bytes offset item = some offset') :
    walk bytes offset item = .ok offset' ∨ walk bytes offset item = .error .crashed := by
  cases item with
  | rest =>
      rw [behind] at h
      split at h
      · rename_i hread
        cases h
        rw [walk, if_neg (Nat.not_lt.mpr hread.1), if_pos hread.2]
        exact .inl rfl
      · cases h
  | block need =>
      cases need with
      | none => cases h
      | some need =>
          rw [behind] at h
          split at h
          · rename_i hle
            cases h
            rw [walk, if_neg (Nat.not_lt.mpr hle)]
            by_cases hover : usizeBound ≤ offset + need
            · rw [if_pos hover]
              exact .inr rfl
            · rw [if_neg hover]
              exact .inl rfl
          · cases h

theorem foldlM_behind_of_walk {items : List ResponseItem} : ∀ {offset offset' : Nat},
    items.foldlM (walk bytes) offset = .ok offset' →
    items.foldlM (behind bytes) offset = some offset' := by
  induction items with
  | nil =>
      intro offset offset' h
      cases h
      rfl
  | cons item items ih =>
      intro offset offset' h
      rw [List.foldlM_cons] at h ⊢
      cases hitem : walk bytes offset item with
      | error e =>
          rw [hitem] at h
          cases h
      | ok mid =>
          rw [hitem] at h
          rw [behind_of_walk hitem]
          exact ih h

theorem foldlM_walk_of_behind {items : List ResponseItem} : ∀ {offset offset' : Nat},
    items.foldlM (behind bytes) offset = some offset' →
    items.foldlM (walk bytes) offset = .ok offset' ∨
      items.foldlM (walk bytes) offset = .error .crashed := by
  induction items with
  | nil =>
      intro offset offset' h
      cases h
      exact .inl rfl
  | cons item items ih =>
      intro offset offset' h
      rw [List.foldlM_cons] at h ⊢
      cases hitem : behind bytes offset item with
      | none =>
          rw [hitem] at h
          cases h
      | some mid =>
          rw [hitem] at h
          rcases walk_of_behind hitem with hok | hcrashed
          · rw [hok]
            exact ih h
          · rw [hcrashed]
            exact .inr rfl

/-- **When a parse cannot panic**: no block reaches beyond the last offset when its turn
comes. -/
theorem parse_never_panics_iff (T : DeviceTable) (spec : CommandSpec) (params : JsonValue)
    (bytes : Bytes) :
    (∀ p, CommandSpec.parseResponse T spec params bytes ≠ .error (.panic p)) ↔
      ∀ before need after offset,
        responseItems spec params = before ++ .block (some need) :: after →
        offsetBehind bytes before = some offset → offset + need < usizeBound := by
  have hwalk := parseResponse_walk T spec params bytes
  constructor
  · intro hnever before need after offset hitems hbefore
    by_contra hover
    have hcrashed : walk bytes offset (.block (some need)) = .error .crashed :=
      walk_crashed_iff.mpr ⟨need, rfl, Nat.not_lt.mp hover⟩
    have hcrashes : (responseItems spec params).foldlM (walk bytes) 0 = .error .crashed := by
      rw [hitems, List.foldlM_append]
      rcases foldlM_walk_of_behind hbefore with hok | hearlier
      · rw [hok]
        show (ResponseItem.block (some need) :: after).foldlM (walk bytes) offset = _
        rw [List.foldlM_cons, hcrashed]
        rfl
      · rw [hearlier]
        rfl
    obtain ⟨p, hp⟩ := hwalk.mpr hcrashes
    exact hnever p hp
  · intro hfits p hp
    obtain ⟨before, item, after, offset, hitems, hbefore, hcrashed⟩ :=
      foldlM_eq_error_iff.mp (hwalk.mp ⟨p, hp⟩)
    obtain ⟨need, rfl, hover⟩ := walk_crashed_iff.mp hcrashed
    have hlt := hfits before need after offset hitems (foldlM_behind_of_walk hbefore)
    omega

end Walk

/-- One word, and then as many as there are just too many bytes for. -/
def hugeSecondBlock : JsonValue :=
  .object [("word_blocks", .array [deviceBlock 0xA8 1, deviceBlock 0xA8 (2 ^ 63 - 1)]),
    ("bit_blocks", .array [])]

/-- The second block is refused by no check: its `2 ^ 64 - 2` bytes can still be counted, and
the offset behind them cannot. -/
theorem parse_never_panics_fails :
    CommandSpec.parseResponse twoDevices readBlocksSpec hugeSecondBlock [0, 0] =
      .error (.panic .arithmeticOverflow) ∧
    ¬ ∀ (T : DeviceTable) (spec : CommandSpec) (params : JsonValue) (bytes : Bytes) (p : Panic),
      CommandSpec.parseResponse T spec params bytes ≠ .error (.panic p) := by
  have hpanic : CommandSpec.parseResponse twoDevices readBlocksSpec hugeSecondBlock [0, 0] =
      .error (.panic .arithmeticOverflow) := rfl
  exact ⟨hpanic, fun h => h twoDevices readBlocksSpec hugeSecondBlock [0, 0] _ hpanic⟩

end MelsecMc
