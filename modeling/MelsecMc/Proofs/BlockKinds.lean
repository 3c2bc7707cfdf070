/-
The three kinds of blocks, in one.

A block reader takes the count of its descriptor, works out how many bytes it needs, looks
whether they are there, and moves behind them; the kinds differ in how many bytes they need
and in what the bytes stand for.  `BlockKind` says just this, and four lemmas say what a
reader does: with the bytes there, with bytes missing, with a descriptor it cannot use, and
with an offset that overflows.
-/
import MelsecMc.Proofs.MultiBlock

namespace MelsecMc

/-- How the points of a block stand in its bytes. -/
inductive BlockKind
  | words (le : Bool)
  | bitsPacked (lsbFirst : Bool)
  | nibbles (highFirst : Bool)
  deriving DecidableEq, Repr

/-- A count is a `u64`. -/
theorem announcedCount_lt {block : JsonValue} {count : Nat} (h : announcedCount block = some count) :
    count < usizeBound := by
  obtain ⟨v, -, rfl⟩ := Option.map_eq_some_iff.mp h
  exact v.toNat_lt

theorem ensureBytesAvailable_overflow {bytes : Bytes} {offset needed : Nat} (what : String)
    (h : usizeBound ≤ offset + needed) :
    CommandSpec.ensureBytesAvailable bytes offset needed what =
      .error (.panic .arithmeticOverflow) := by
  rw [CommandSpec.ensureBytesAvailable, usizeAdd, if_neg (Nat.not_lt.mpr h)]
  rfl

namespace BlockKind

/-- The number of bytes of so many points. -/
def need : BlockKind → Nat → Nat
  | words _, count => count * 2
  | bitsPacked _, count => (count + 7) / 8
  | nibbles _, count => (count + 1) / 2

/-- What the error about missing bytes calls the kind. -/
def label : BlockKind → String
  | words _ => "word block"
  | bitsPacked _ => "bit block"
  | nibbles _ => "nibble block"

/-- The points in the bytes of a block. -/
def items : BlockKind → Nat → Bytes → List JsonValue
  | words le, _, chunk => jsonWords (chunkWords le chunk)
  | bitsPacked lsbFirst, count, chunk => jsonBits (chunkPoints lsbFirst count chunk)
  | nibbles highFirst, count, chunk => jsonBits ((nibbleBits highFirst chunk).take count)

/-- What a block does to the rest of the result. -/
def report (T : DeviceTable) (params block : JsonValue) (count : Nat) (items : List JsonValue) :
    BlockKind → JsonMap → JsonMap
  | words _, resultMap => CommandSpec.reportBits T params block count items resultMap
  | _, resultMap => resultMap

/-- The reader of the kind. -/
def parse (T : DeviceTable) (name : String) (params : JsonValue) (bytes : Bytes)
    (acc : List JsonValue × ParseState) (block : JsonValue) :
    BlockKind → Except Failure (List JsonValue × ParseState)
  | words le => CommandSpec.parseBlockWords T name le params bytes acc block
  | bitsPacked lsbFirst => CommandSpec.parseBlockBitsPacked name lsbFirst bytes acc block
  | nibbles highFirst => CommandSpec.parseBlockNibbles name highFirst bytes acc block

theorem length_nibbleBits (highFirst : Bool) (chunk : Bytes) :
    (nibbleBits highFirst chunk).length = chunk.length * 2 := by
  induction chunk with
  | nil => rfl
  | cons b chunk ih =>
      rw [nibbleBits, List.length_map] at ih
      rw [nibbleBits, List.length_map, List.flatMap_cons, List.length_append, ih, List.length_cons]
      cases highFirst <;> simp [byteNibbles] <;> omega

/-- There are as many points as the descriptor says. -/
theorem length_items (kind : BlockKind) {count : Nat} {chunk : Bytes}
    (hlen : chunk.length = kind.need count) : (kind.items count chunk).length = count := by
  cases kind with
  | words le =>
      rw [items, jsonWords, List.length_map]
      exact (blockBytes_chunkWords le count chunk hlen).2
  | bitsPacked lsbFirst =>
      rw [items, jsonBits, List.length_map, chunkPoints, List.length_map, List.length_range]
  | nibbles highFirst =>
      rw [need] at hlen
      rw [items, jsonBits, List.length_map, List.length_take, length_nibbleBits]
      omega

/-! ### What a reader does

The four cases are told apart by the count of the descriptor and by the bytes that are left,
and by nothing else.
-/

section Parse

variable {T : DeviceTable} {name : String} {params : JsonValue} {bytes : Bytes}
  {out : List JsonValue} {offset : Nat} {resultMap : JsonMap} {block : JsonValue} {count : Nat}

theorem parse_ok (kind : BlockKind) (hcount : announcedCount block = some count)
    (hle : offset + kind.need count ≤ bytes.length)
    (hbound : offset + kind.need count < usizeBound) :
    kind.parse T name params bytes (out, ⟨offset, resultMap⟩) block =
      .ok (out ++ [.array (kind.items count ((bytes.drop offset).take (kind.need count)))], {
        offset := offset + kind.need count
        resultMap := kind.report T params block count
          (kind.items count ((bytes.drop offset).take (kind.need count))) resultMap }) := by
  have hpoints : blockPoints block = count := by rw [blockPoints, hcount, Option.getD_some]
  have hsome : (announcedCount block).isSome := by rw [hcount]; rfl
  cases kind with
  | words le =>
      have hreads := (reads_blockWords T name le params hsome).there bytes (out, ⟨offset, resultMap⟩)
      rw [hpoints] at hreads
      rw [parse, hreads hle hbound, wordsEff, hpoints]
      rfl
  | bitsPacked lsbFirst =>
      have hreads := (reads_blockBitsPacked name lsbFirst hsome).there bytes
        (out, ⟨offset, resultMap⟩)
      rw [hpoints] at hreads
      rw [parse, hreads hle hbound, bitsEff, hpoints]
      rfl
  | nibbles highFirst =>
      rw [need] at hle hbound
      rw [need, parse]
      obtain ⟨hsplit, hpre, hchunk⟩ := take_drop_split hle
      have hblock := parseBlockNibbles_ok name highFirst (readBlockCount_of_announced name hcount)
        hchunk (bytes.take offset) (bytes.drop (offset + (count + 1) / 2))
        (by rw [hpre, hchunk]; exact hbound) out resultMap
      rw [← hsplit, hpre, hchunk] at hblock
      exact hblock

/-- A descriptor without a count. -/
theorem parse_missing (kind : BlockKind) (hcount : announcedCount block = none) :
    kind.parse T name params bytes (out, ⟨offset, resultMap⟩) block =
      protocolError s!"missing count in block {name}" := by
  have hread : CommandSpec.readBlockCount block name =
      protocolError s!"missing count in block {name}" := by
    rw [announcedCount, Option.map_eq_none_iff] at hcount
    rw [CommandSpec.readBlockCount, hcount]
  cases kind with
  | words le =>
      rw [parse, CommandSpec.parseBlockWords]
      dsimp only
      rw [hread]
      rfl
  | bitsPacked lsbFirst =>
      rw [parse, CommandSpec.parseBlockBitsPacked]
      dsimp only
      rw [hread]
      rfl
  | nibbles highFirst =>
      rw [parse, CommandSpec.parseBlockNibbles]
      dsimp only
      rw [hread]
      rfl

/-- More bytes than a `usize` counts. -/
theorem parse_tooLarge (kind : BlockKind) (hcount : announcedCount block = some count)
    (hlarge : usizeBound ≤ kind.need count) :
    kind.parse T name params bytes (out, ⟨offset, resultMap⟩) block =
      protocolError "count too large" := by
  have hlt := announcedCount_lt hcount
  cases kind with
  | words le =>
      rw [need] at hlarge
      rw [parse, CommandSpec.parseBlockWords]
      dsimp only
      rw [readBlockCount_of_announced name hcount, ok_bind, if_neg (by omega)]
      rfl
  | bitsPacked lsbFirst =>
      rw [need] at hlarge
      omega
  | nibbles highFirst =>
      rw [need] at hlarge
      omega

/-- The bytes are looked for before any is read. -/
theorem parse_stops (kind : BlockKind) (hcount : announcedCount block = some count)
    (hsmall : kind.need count < usizeBound) {e : Failure}
    (hstop : CommandSpec.ensureBytesAvailable bytes offset (kind.need count) kind.label =
      .error e) :
    kind.parse T name params bytes (out, ⟨offset, resultMap⟩) block = .error e := by
  cases kind with
  | words le => exact parseBlockWords_stops hcount hsmall hstop
  | bitsPacked lsbFirst => exact parseBlockBitsPacked_stops hcount hstop
  | nibbles highFirst =>
      rw [need, label] at hstop
      rw [parse, CommandSpec.parseBlockNibbles]
      dsimp only
      rw [readBlockCount_of_announced name hcount, ok_bind, hstop]
      rfl

/-- A reader that returns had its bytes. -/
theorem parse_eq_ok (kind : BlockKind) {r : List JsonValue × ParseState}
    (h : kind.parse T name params bytes (out, ⟨offset, resultMap⟩) block = .ok r) :
    ∃ count, announcedCount block = some count ∧ offset + kind.need count ≤ bytes.length ∧
      r = (out ++ [.array (kind.items count ((bytes.drop offset).take (kind.need count)))], {
        offset := offset + kind.need count
        resultMap := kind.report T params block count
          (kind.items count ((bytes.drop offset).take (kind.need count))) resultMap }) := by
  cases hcount : announcedCount block with
  | none =>
      rw [kind.parse_missing hcount] at h
      cases h
  | some count =>
      by_cases hsmall : kind.need count < usizeBound
      · by_cases hbound : offset + kind.need count < usizeBound
        · by_cases hle : offset + kind.need count ≤ bytes.length
          · rw [kind.parse_ok hcount hle hbound, Except.ok.injEq] at h
            exact ⟨count, rfl, hle, h.symm⟩
          · rw [kind.parse_stops hcount hsmall (ensureBytesAvailable_of_lt kind.label
              (Nat.not_le.mp hle) hbound)] at h
            cases h
        · have hstop : CommandSpec.ensureBytesAvailable bytes offset (kind.need count) kind.label =
              .error (.panic .arithmeticOverflow) :=
            ensureBytesAvailable_overflow kind.label (Nat.not_lt.mp hbound)
          rw [kind.parse_stops hcount hsmall hstop] at h
          cases h
      · rw [kind.parse_tooLarge hcount (Nat.not_lt.mp hsmall)] at h
        cases h

end Parse

end BlockKind

/-! ### Entries of blocks -/

namespace ResponseEntry

def name : ResponseEntry → String
  | blockWords name _ => name
  | blockBitsPacked name _ => name
  | blockNibbles name _ => name
  | asciiHex name => name

/-- The kind of the blocks, of an entry that has blocks. -/
def kind : ResponseEntry → Option BlockKind
  | blockWords _ le => some (.words le)
  | blockBitsPacked _ lsbFirst => some (.bitsPacked lsbFirst)
  | blockNibbles _ highFirst => some (.nibbles highFirst)
  | asciiHex _ => none

end ResponseEntry

/-- An entry of blocks reads them with the reader of their kind. -/
theorem parseResponseEntry_blocks {entry : ResponseEntry} {kind : BlockKind}
    (h : entry.kind = some kind) (T : DeviceTable) (params : JsonValue) (bytes : Bytes)
    (st : ParseState) :
    CommandSpec.parseResponseEntry T params bytes st entry =
      CommandSpec.parseBlocks entry.name params
        (fun acc block => kind.parse T entry.name params bytes acc block) st := by
  cases entry with
  | asciiHex name => cases h
  | _ =>
      cases h
      rfl

end MelsecMc
