/-
The request data of a command that announces blocks, as a station reads it.

Nothing here is translated from the source.  After the command and the subcommand there is
one byte for the number of word blocks and one for the number of bit blocks, and then as
many descriptors of each kind, an address, a device code and a count, in the widths of the
series.
-/
import MelsecMc.Spec.Batch
import MelsecMc.Json

namespace MelsecMc

/-- The descriptor of a block. -/
structure BlockEntry where
  address : Nat
  deviceCode : Nat
  count : Nat
  deriving DecidableEq, Repr

structure BlockRequest where
  command : Nat
  subcommand : Nat
  words : List BlockEntry
  bits : List BlockEntry
  deriving DecidableEq, Repr

/-- The number of bytes of a descriptor. -/
def entryLen (series : PlcSeries) : Nat :=
  addrWidth series + (codeWidth series + 2)

/-- Take the next descriptor off. -/
def takeEntry (series : PlcSeries) (data : Bytes) : Option (BlockEntry × Bytes) :=
  if data.length < entryLen series then none
  else
    let (address, data) := takeNumber (addrWidth series) data
    let (deviceCode, data) := takeNumber (codeWidth series) data
    let (count, data) := takeNumber 2 data
    some ({ address, deviceCode, count }, data)

/-- Take the next `n` descriptors off. -/
def takeEntries (series : PlcSeries) : Nat → Bytes → Option (List BlockEntry × Bytes)
  | 0, data => some ([], data)
  | n + 1, data =>
      match takeEntry series data with
      | none => none
      | some (entry, data) =>
          (takeEntries series n data).map fun (entries, data) => (entry :: entries, data)

/-- The number of bytes in front of the descriptors. -/
def blockHeaderLen : Nat := 6

/-- The announced descriptors, with nothing missing and nothing left over. -/
def decodeBlockRequest (series : PlcSeries) (data : Bytes) : Option BlockRequest :=
  if data.length < blockHeaderLen then none
  else
    let (command, data) := takeNumber 2 data
    let (subcommand, data) := takeNumber 2 data
    let (wordCount, data) := takeNumber 1 data
    let (bitCount, data) := takeNumber 1 data
    match takeEntries series wordCount data with
    | none => none
    | some (words, data) =>
        match takeEntries series bitCount data with
        | some (bits, []) => some { command, subcommand, words, bits }
        | _ => none

/-- One word block of `D100`, and no bit block. -/
example : decodeBlockRequest .q [0x06, 0x04, 0, 0, 1, 0, 100, 0, 0, 0xA8, 2, 0] =
    some ⟨0x0406, 0, [⟨100, 0xA8, 2⟩], []⟩ := by decide

/-! ### The blocks of the params -/

/-- The entries under a key, none if there is no list. -/
def givenBlocks (params : JsonValue) (key : String) : List JsonValue :=
  ((params.get key).bind JsonValue.asArray).getD []

/-- The descriptor an entry carries. -/
def entryOf (entry : JsonValue) : Option BlockEntry := do
  let address ← (entry.get "start_addr").bind JsonValue.asU64
  let deviceCode ← (entry.get "device_code").bind JsonValue.asU64
  let count ← (entry.get "count").bind JsonValue.asU64
  return ⟨address.toNat, deviceCode.toNat, count.toNat⟩

/-- The request carries exactly these blocks, and says so. -/
def AnnouncesItsBlocks (series : PlcSeries) (words bits : List BlockEntry) (data : Bytes) : Prop :=
  ∃ command subcommand, decodeBlockRequest series data = some ⟨command, subcommand, words, bits⟩

/-- Without bytes there is no descriptor. -/
theorem takeEntries_nil (series : PlcSeries) (n : Nat) :
    takeEntries series n [] = if n = 0 then some ([], []) else none := by
  cases n with
  | zero => rfl
  | succ n =>
      have hlen : ([] : Bytes).length < entryLen series := by
        rw [List.length_nil, entryLen]
        omega
      rw [takeEntries, takeEntry, if_pos hlen, if_neg (Nat.succ_ne_zero n)]

/-- A header with nothing behind it announces nothing, or it is no request. -/
theorem decodeBlockRequest_header (series : PlcSeries) (command subcommand wordCount bitCount : Nat) :
    decodeBlockRequest series (LittleEndian.bytes 2 command ++ (LittleEndian.bytes 2 subcommand ++
        (LittleEndian.bytes 1 wordCount ++ (LittleEndian.bytes 1 bitCount ++ [])))) =
      if wordCount % 256 = 0 ∧ bitCount % 256 = 0 then
        some ⟨command % 256 ^ 2, subcommand % 256 ^ 2, [], []⟩
      else none := by
  rw [decodeBlockRequest, if_neg (by simp [blockHeaderLen])]
  simp only [takeNumber_bytes, pow_one]
  rw [takeEntries_nil]
  by_cases hwords : wordCount % 256 = 0
  · rw [if_pos hwords]
    dsimp only
    rw [takeEntries_nil]
    by_cases hbits : bitCount % 256 = 0
    · rw [if_pos hbits, if_pos ⟨hwords, hbits⟩]
    · rw [if_neg hbits, if_neg fun h => hbits h.2]
  · rw [if_neg hwords, if_neg fun h => hwords h.1]

end MelsecMc
