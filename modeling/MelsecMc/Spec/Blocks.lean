/-
The blocks of a multi-block command, as a station sends them.

Nothing here is translated from the source.  A multi-block response is its word blocks and
then its bit blocks, with nothing between them: words of two bytes, and of each bit block
its points eight to a byte, every block starting on a byte of its own.
-/
import MelsecMc.Spec.Batch
import Mathlib.Data.Nat.Init
import Mathlib.Data.List.GetD

namespace MelsecMc

/-- Where point `i` of a block sits in its byte. -/
def bitPosition (lsbFirst : Bool) (i : Nat) : Nat :=
  if lsbFirst then i % 8 else 7 - i % 8

/-- The bytes hold the points, eight to a byte; what the last byte has left over is free. -/
structure Packs (lsbFirst : Bool) (points : List Bool) (bytes : Bytes) : Prop where
  length_eq : bytes.length = (points.length + 7) / 8
  point : ∀ i, i < points.length →
    (bytes.getD (i / 8) 0).toNat.testBit (bitPosition lsbFirst i) = points.getD i false

/-- A bit block on the wire: its points, and bytes that hold them. -/
structure PackedBlock (lsbFirst : Bool) where
  points : List Bool
  bytes : Bytes
  packs : Packs lsbFirst points bytes

/-- Byte `k` of a block whose last byte is filled up with zeros. -/
def packedByte (lsbFirst : Bool) (points : List Bool) (k : Nat) : UInt8 :=
  UInt8.ofNat (Nat.ofBits fun j : Fin 8 => points.getD (8 * k + bitPosition lsbFirst j) false)

/-- The points of a block, packed and filled up with zeros. -/
def packPoints (lsbFirst : Bool) (points : List Bool) : Bytes :=
  (List.range ((points.length + 7) / 8)).map (packedByte lsbFirst points)

/-- The two orders are their own inverses. -/
theorem bitPosition_bitPosition (lsbFirst : Bool) (i : Nat) :
    bitPosition lsbFirst (bitPosition lsbFirst i) = i % 8 := by
  unfold bitPosition
  split <;> omega

theorem bitPosition_lt (lsbFirst : Bool) (i : Nat) : bitPosition lsbFirst i < 8 := by
  unfold bitPosition
  split <;> omega

theorem packs_packPoints (lsbFirst : Bool) (points : List Bool) :
    Packs lsbFirst points (packPoints lsbFirst points) where
  length_eq := by rw [packPoints, List.length_map, List.length_range]
  point := by
    intro i hi
    have hk : i / 8 < (List.range ((points.length + 7) / 8)).length := by
      rw [List.length_range]
      omega
    have hpos : bitPosition lsbFirst i < 8 := bitPosition_lt lsbFirst i
    have hbits := Nat.ofBits_lt_two_pow fun j : Fin 8 =>
      points.getD (8 * (i / 8) + bitPosition lsbFirst j) false
    rw [packPoints, List.getD_eq_getElem _ _ (by rw [List.length_map]; exact hk), List.getElem_map,
      List.getElem_range, packedByte, UInt8.toNat_ofNat', Nat.mod_eq_of_lt hbits,
      Nat.testBit_ofBits_lt _ _ hpos]
    dsimp only
    rw [bitPosition_bitPosition, Nat.div_add_mod]

/-- The block a station makes of its points. -/
def PackedBlock.ofPoints (lsbFirst : Bool) (points : List Bool) : PackedBlock lsbFirst where
  points
  bytes := packPoints lsbFirst points
  packs := packs_packPoints lsbFirst points

/-- The data of a multi-block response. -/
def multiBlockData {lsbFirst : Bool} (wordBlocks : List (List UInt16))
    (bitBlocks : List (PackedBlock lsbFirst)) : Bytes :=
  (wordBlocks.map wordsLe).flatten ++ (bitBlocks.map PackedBlock.bytes).flatten

end MelsecMc
