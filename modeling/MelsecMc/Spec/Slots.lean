/-
The places of a request where a number stands.

Nothing here is translated from the source.  A request is written slot by slot: the fields
of the command first, then for every block template the fields of every entry of its block
list.  A slot knows where its value comes from; what it writes, in how many bytes and in
which byte order is the source's.

A number is looked at from two sides.  `Slot.value` is what the encoder takes for the slot, a
`u64` or nothing; it says whether the slot can be written.  `Slot.given` is what the caller
gave, read off the params and the definition without the encoder: the number in the JSON, the
length of a list, a code of the command.  What is claimed of the bytes is claimed of the second.
-/
import MelsecMc.BuildRequest
import MelsecMc.Lib.Writers
import MelsecMc.Spec.BlockRequest
import Mathlib.Data.Nat.ModEq

namespace MelsecMc

/-- Where the value of a slot comes from: the params, or an entry of a block list. -/
inductive Origin
  | request
  | entry (bt : BlockTemplate) (map : JsonMap)

structure Slot where
  origin : Origin
  field : FieldSpec

namespace Slot

variable (spec : CommandSpec) (params : JsonValue) (plcSeries : Option PlcSeries)

/-- What is written for a slot. -/
def write (out : Bytes) (slot : Slot) : Except Failure Bytes :=
  match slot.origin with
  | .request => spec.writeField params plcSeries out slot.field
  | .entry _ map => CommandSpec.emitField map plcSeries out slot.field

/-- The number of bytes and the byte order, where the field has a fixed width. -/
def width (slot : Slot) : Option (Nat × Bool) :=
  match slot.field.kind, slot.origin with
  | .fixedBytes n le, .request => some (requestFieldWidth slot.field.name n le plcSeries)
  | .fixedBytes n le, .entry _ _ => some (blockFieldWidth slot.field.name n le plcSeries)
  | _, _ => none

/-- The number the encoder writes for the slot, if it takes one. -/
def value (slot : Slot) : Option UInt64 :=
  match slot.origin with
  | .request => (spec.getNumField slot.field.name params plcSeries).toOption
  | .entry _ map => (map.get slot.field.name).bind JsonValue.asU64

/-- The number the caller gave for the slot: two names stand for the length of a list and two
for the codes of the command, every other one for the number under it. -/
def given (slot : Slot) : Option Nat :=
  match slot.origin with
  | .request =>
      if slot.field.name = "command" then some spec.commandCode.toNat
      else if slot.field.name = "subcommand" then
        some ((spec.effectiveSubcommand plcSeries).getD 0).toNat
      else if slot.field.name = "word_block_count" then
        some (givenBlocks params "word_blocks").length
      else if slot.field.name = "bit_block_count" then
        some (givenBlocks params "bit_blocks").length
      else ((params.get slot.field.name).bind JsonValue.asU64).map UInt64.toNat
  | .entry _ map => ((map.get slot.field.name).bind JsonValue.asU64).map UInt64.toNat

/-- The family that restricts a device code in the slot. -/
def family (slot : Slot) : DeviceFamily :=
  match slot.origin with
  | .request => spec.deviceFamily
  | .entry bt _ => bt.deviceFamily.getD spec.deviceFamily

/-- An array of numbers below a bound. -/
def AllBelow (bound : Nat) (items : List JsonValue) : Prop :=
  ∀ item ∈ items, ∃ v, item.asU64 = some v ∧ v.toNat < bound

/-- There is a value the field can be written with, and a vector for its bytes. -/
def Writable (slot : Slot) : Prop :=
  match slot.field.kind, slot.origin with
  | .fixedBytes _ _, _ => (∃ v, slot.value spec params plcSeries = some v) ∧
      ∀ w le, slot.width plcSeries = some (w, le) → w ≤ isizeMax
  | .words _, .request =>
      ∃ arr, (params.get slot.field.name).bind JsonValue.asArray = some arr ∧ AllBelow 65536 arr
  | .words _, .entry _ map =>
      (∃ arr, (map.get slot.field.name).bind JsonValue.asArray = some arr ∧ AllBelow 65536 arr) ∨
        ∃ v, (map.get slot.field.name).bind JsonValue.asU64 = some v ∧ v.toNat < 65536
  | .bytes, .request =>
      ∀ arr, (params.get slot.field.name).bind JsonValue.asArray = some arr → AllBelow 256 arr
  | .asciiHex, .request =>
      (∀ s, (params.get slot.field.name).bind JsonValue.asStr = some s →
        ∀ b ∈ asBytes s, CommandSpec.isAsciiHex b = true) ∧
      ∀ arr, (params.get slot.field.name).bind JsonValue.asArray = some arr → AllBelow 256 arr
  | .bytes, .entry _ _ => True
  | .asciiHex, .entry _ _ => True

/-- The number given for the slot is below the bound of its bytes, of which eight at most carry
a number. -/
def Fits (slot : Slot) : Prop :=
  ∀ w le n, slot.width plcSeries = some (w, le) → slot.given spec params plcSeries = some n →
    n < 256 ^ min w 8

end Slot

/-- Bytes as a number, in the byte order they were written in. -/
def numberOf (le : Bool) (bs : Bytes) : Nat :=
  LittleEndian.value (if le then bs else bs.reverse)

/-- A slot of fixed width has this many bytes, and they are the number that was given. -/
def Slot.ReadsBack (spec : CommandSpec) (params : JsonValue) (plcSeries : Option PlcSeries)
    (slot : Slot) (chunk : Bytes) : Prop :=
  ∀ w le, slot.width plcSeries = some (w, le) →
    chunk.length = w ∧ slot.given spec params plcSeries = some (numberOf le chunk)

/-- The objects of the block list of a template. -/
def blockEntries (params : JsonValue) (bt : BlockTemplate) : List JsonMap :=
  (givenBlocks params (bt.name ++ "s")).filterMap JsonValue.asObject

def requestSlots (spec : CommandSpec) : List Slot :=
  spec.requestFields.map fun f => ⟨.request, f⟩

def blockSlots (params : JsonValue) (bt : BlockTemplate) : List Slot :=
  (blockEntries params bt).flatMap fun map => bt.fields.map fun f => ⟨.entry bt map, f⟩

/-- All slots of a request, in the order they are written in. -/
def slots (spec : CommandSpec) (params : JsonValue) : List Slot :=
  requestSlots spec ++ spec.blockTemplates.flatMap (blockSlots params)

/-- The request is these chunks, one for each slot. -/
structure IsWritten (spec : CommandSpec) (params : JsonValue) (plcSeries : Option PlcSeries)
    (out : Bytes) (chunks : List Bytes) : Prop where
  each : Writers.Chunks (Slot.write spec params plcSeries) (slots spec params) chunks
  joined : out = chunks.flatten

/-- Every number of the request is read back from the bytes it was written to. -/
def NumbersReadBack (spec : CommandSpec) (params : JsonValue) (plcSeries : Option PlcSeries)
    (out : Bytes) : Prop :=
  ∃ chunks, IsWritten spec params plcSeries out chunks ∧
    List.Forall₂ (Slot.ReadsBack spec params plcSeries) (slots spec params) chunks

/-- There is a list of blocks for the template, and each is an object. -/
def BlocksGiven (params : JsonValue) (bt : BlockTemplate) : Prop :=
  ∃ arr, (params.get (bt.name ++ "s")).bind JsonValue.asArray = some arr ∧
    ∀ entry ∈ arr, entry.asObject.isSome

/-! ### Header fields of block templates -/

/-- The slot, if it is the header field of the template, says how many entries follow. -/
def Slot.CountsEntries (params : JsonValue) (plcSeries : Option PlcSeries) (bt : BlockTemplate)
    (slot : Slot) (chunk : Bytes) : Prop :=
  slot.origin = .request → slot.field.name = bt.repeatField →
    ∃ w le, slot.width plcSeries = some (w, le) ∧
      numberOf le chunk = (blockEntries params bt).length

/-- The request has the header field of the template, and says in it how many entries of
the template there are. -/
def RepeatCounts (spec : CommandSpec) (params : JsonValue) (plcSeries : Option PlcSeries)
    (out : Bytes) (bt : BlockTemplate) : Prop :=
  ∃ chunks, IsWritten spec params plcSeries out chunks ∧
    (∃ f ∈ spec.requestFields, f.name = bt.repeatField) ∧
    List.Forall₂ (Slot.CountsEntries params plcSeries bt) (slots spec params) chunks

/-- The header field of the template stands for the length of the template's own list. -/
def BlockTemplate.CountsItself (bt : BlockTemplate) : Prop :=
  (bt.repeatField = "word_block_count" ∧ bt.name = "word_block") ∨
    (bt.repeatField = "bit_block_count" ∧ bt.name = "bit_block")

/-- The header field of the template has a fixed width, the entries can be counted in it, and
unless the field stands for their list, the number given for it is theirs up to the width. -/
def RepeatFits (spec : CommandSpec) (params : JsonValue) (plcSeries : Option PlcSeries)
    (bt : BlockTemplate) : Prop :=
  ∀ f ∈ spec.requestFields, f.name = bt.repeatField →
    ∃ w le, Slot.width plcSeries ⟨.request, f⟩ = some (w, le) ∧
      (blockEntries params bt).length < 256 ^ min w 8 ∧
      (bt.CountsItself ∨ ∃ n, Slot.given spec params plcSeries ⟨.request, f⟩ = some n ∧
        n ≡ (blockEntries params bt).length [MOD 256 ^ min w 8])

/-! ### Device codes -/

/-- A slot for a device code, in a field of fixed width. -/
def Slot.IsDeviceCode (slot : Slot) : Prop :=
  slot.field.name = "device_code" ∧ ∃ n le, slot.field.kind = .fixedBytes n le

/-- A code of one byte, and if a device has it, one of the family. -/
def Admitted (T : DeviceTable) (family : DeviceFamily) (code : UInt64) : Prop :=
  code.toNat ≤ 255 ∧
    ∀ dev, T.deviceByCode (UInt8.ofNat code.toNat) = some dev →
      CommandSpec.admits family dev.category = true

/-- The device codes the params carry are admitted, whether or not they are written. -/
structure CodesFit (T : DeviceTable) (spec : CommandSpec) (params : JsonValue) : Prop where
  request : ∀ code, (params.get "device_code").bind JsonValue.asU64 = some code →
    Admitted T spec.deviceFamily code
  entries : ∀ bt ∈ spec.blockTemplates, ∀ entry ∈ givenBlocks params (bt.name ++ "s"),
    ∀ code, entry.asObject.bind CommandSpec.deviceCodeOf = some code →
      Admitted T (bt.deviceFamily.getD spec.deviceFamily) code

/-- Every device code the request is written with is admitted. -/
def CodesAdmitted (T : DeviceTable) (spec : CommandSpec) (params : JsonValue)
    (plcSeries : Option PlcSeries) : Prop :=
  ∀ slot ∈ slots spec params, slot.IsDeviceCode →
    ∀ code, slot.value spec params plcSeries = some code → Admitted T (slot.family spec) code

end MelsecMc
