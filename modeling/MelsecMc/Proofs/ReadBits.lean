/-
Bits through the wire and back.

The packer goes over the points with a step of two, the reader over the bytes with a count
of the points it has; `highLowNibbles` is where they meet.  The reader takes its two nibbles
off each byte, drops what is beyond the count, and so never sees the half that pads an odd
number of points.
-/
import MelsecMc.Proofs.BlockResponse
import MelsecMc.Proofs.WriteRequest

namespace MelsecMc

/-! ### The halves of a byte -/

theorem byteNibbles_toNat (b : UInt8) :
    (byteNibbles true b).map UInt8.toNat = [b.toNat / 16, b.toNat % 16] := by
  have hb : b.toNat < 256 := b.toNat_lt
  have hhigh : ((b >>> 4) &&& 0x0F).toNat = b.toNat / 16 := by
    rw [UInt8.toNat_and, UInt8.toNat_shiftRight, show (0x0F : UInt8).toNat = 2 ^ 4 - 1 from rfl,
      Nat.and_two_pow_sub_one_eq_mod, show (4 : UInt8).toNat % 8 = 4 from rfl,
      Nat.shiftRight_eq_div_pow]
    omega
  have hlow : (b &&& 0x0F).toNat = b.toNat % 16 := by
    rw [UInt8.toNat_and, show (0x0F : UInt8).toNat = 2 ^ 4 - 1 from rfl,
      Nat.and_two_pow_sub_one_eq_mod]
  rw [byteNibbles, if_pos rfl, List.map_cons, List.map_cons, List.map_nil, hhigh, hlow]

theorem flatMap_byteNibbles (bs : Bytes) :
    (bs.flatMap (byteNibbles true)).map UInt8.toNat = highLowNibbles bs := by
  rw [List.map_flatMap, highLowNibbles]
  congr 1
  funext b
  exact byteNibbles_toNat b

/-- A nibble is 0 or not, whichever way one looks at it. -/
theorem nibbleBits_true (bs : Bytes) :
    nibbleBits true bs = (highLowNibbles bs).map fun n => decide (n ≠ 0) := by
  rw [nibbleBits, ← flatMap_byteNibbles, List.map_map]
  congr 1
  funext nibble
  rw [Function.comp_apply, decide_eq_decide, Ne, Ne, ← UInt8.toNat_inj]
  rfl

/-- **The reader undoes the packer.** -/
theorem nibbleBits_packNibbles (values : List Bool) :
    (nibbleBits true (packNibbles values)).take values.length = values := by
  have hbool : ∀ b : Bool, decide (b.toNat ≠ 0) = b := by decide
  rw [nibbleBits_true, highLowNibbles_packNibbles, List.map_append, List.map_map,
    List.take_left' (by rw [List.length_map])]
  calc values.map ((fun n : Nat => decide (n ≠ 0)) ∘ Bool.toNat)
      = values.map id := List.map_congr_left fun b _ => hbool b
    _ = values := List.map_id values

/-! ### Write, then read -/

/-- **The bits written are the bits read back**, and an answer that lacks a byte is an
error. -/
theorem bits_write_read (T : DeviceTable) (writeDevice readDevice : String) (values : List Bool)
    (hlen : values.length ≤ 65535) :
    ∃ payload spec,
      CommandSpec.writeBytesField "payload" (createWriteBitsParams T writeDevice values) [] =
        .ok payload ∧
      shippedRegistry.get .readBits = some spec ∧
      (∃ parsed, spec.parseResponse T
          (createReadBitsParams T readDevice (UInt16.ofNat values.length)) payload = .ok parsed ∧
        parsed.get "data_blocks" = some (.array [.array (values.map .bool)])) ∧
      ∀ short, short <+: payload → short.length < payload.length →
        ∃ e, spec.parseResponse T
          (createReadBitsParams T readDevice (UInt16.ofNat values.length)) short =
            .error (.err e) := by
  have hcount : (UInt16.ofNat values.length).toNat = values.length := by
    rw [UInt16.toNat_ofNat', Nat.mod_eq_of_lt (by omega)]
  have hread := readBlockCount_descriptor (UInt16.ofNat values.length) "data_blocks"
  rw [hcount] at hread
  have hentries : readBitsSpec.responseEntries = [.blockNibbles "data_blocks" true] := rfl
  have hblocks := cachedArray_readBits T readDevice (UInt16.ofNat values.length)
  have hpacked := length_packNibbles values
  refine ⟨packNibbles values, readBitsSpec, writeBytesField_payload values [], get_readBits,
    ⟨_, parseResponse_blockNibbles T hentries hblocks hread hpacked
      (by rw [hpacked, usizeBound]; omega), ?_⟩, ?_⟩
  · rw [JsonValue.get_object, JsonMap.get_insert_self, nibbleBits_packNibbles, jsonBits]
  · intro short _ hshort
    rw [hpacked] at hshort
    exact ⟨_, parseResponse_blockNibbles_short T hentries hblocks hread hshort
      (by rw [usizeBound]; omega)⟩

/-- Three points of `M0`: two bytes, of which the last half pads. -/
theorem bits_write_read_three :
    ∃ payload spec,
      CommandSpec.writeBytesField "payload"
        (createWriteBitsParams twoDevices "M0" [true, false, true]) [] = .ok payload ∧
      shippedRegistry.get .readBits = some spec ∧
      (∃ parsed, spec.parseResponse twoDevices
          (createReadBitsParams twoDevices "M0" (UInt16.ofNat [true, false, true].length))
          payload = .ok parsed ∧
        parsed.get "data_blocks" =
          some (.array [.array ([true, false, true].map .bool)])) ∧
      ∀ short, short <+: payload → short.length < payload.length →
        ∃ e, spec.parseResponse twoDevices
          (createReadBitsParams twoDevices "M0" (UInt16.ofNat [true, false, true].length)) short =
            .error (.err e) :=
  bits_write_read twoDevices "M0" "M0" [true, false, true] (by decide)

end MelsecMc
