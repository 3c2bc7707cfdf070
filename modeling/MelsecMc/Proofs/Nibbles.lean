/-
Points packed two a byte.

The packer of the client is an index loop with a step of two.  What it computes is `packNibbles`,
which goes over the list itself, and the halves of these bytes are the points again.
-/
import MelsecMc.Spec.Batch

namespace MelsecMc

theorem packLoop_eq (values : List Bool) (i : Nat) (payload : Bytes) :
    packLoop values i payload = payload ++ packNibbles (values.drop i) := by
  induction i, payload using packLoop.induct values with
  | case1 i payload hi high low byte ih =>
      have hdrop : values.drop i = values[i] :: values.drop (i + 1) := List.drop_eq_getElem_cons hi
      have hbyte : nibbleByte values[i] (if h : i + 1 < values.length then values[i + 1] else false)
          = byte := by
        by_cases hi' : i + 1 < values.length
        · simp only [nibbleByte, byte, high, low, dif_pos hi']
        · simp only [nibbleByte, byte, high, low, dif_neg hi']
          rfl
      rw [packLoop, dif_pos hi, ih, hdrop, List.append_assoc, List.singleton_append]
      congr 1
      rcases Nat.lt_or_ge (i + 1) values.length with hi' | hi'
      · rw [List.drop_eq_getElem_cons hi', packNibbles, ← hbyte, dif_pos hi']
      · rw [List.drop_eq_nil_of_le hi', packNibbles, ← hbyte, dif_neg (Nat.not_lt.mpr hi'),
          List.drop_eq_nil_of_le (by omega), packNibbles]
  | case2 i payload hi =>
      rw [packLoop, dif_neg hi, List.drop_eq_nil_of_le (Nat.not_lt.mp hi), packNibbles,
        List.append_nil]

theorem length_packNibbles :
    ∀ values : List Bool, (packNibbles values).length = (values.length + 1) / 2
  | [] => rfl
  | [_] => by simp [packNibbles]
  | _ :: _ :: rest => by
      rw [packNibbles, List.length_cons, length_packNibbles rest, List.length_cons,
        List.length_cons]
      omega

theorem nibbleByte_div (high low : Bool) : (nibbleByte high low).toNat / 16 = high.toNat := by
  cases high <;> cases low <;> rfl

theorem nibbleByte_mod (high low : Bool) : (nibbleByte high low).toNat % 16 = low.toNat := by
  cases high <;> cases low <;> rfl

/-- The halves of the packed bytes are the points, and a 0 behind an odd number of them. -/
theorem highLowNibbles_packNibbles :
    ∀ values : List Bool, highLowNibbles (packNibbles values) =
      values.map Bool.toNat ++ List.replicate (values.length % 2) 0
  | [] => rfl
  | [high] => by
      rw [packNibbles, highLowNibbles, List.flatMap_cons, List.flatMap_nil, nibbleByte_div,
        nibbleByte_mod]
      rfl
  | high :: low :: rest => by
      have ih := highLowNibbles_packNibbles rest
      rw [highLowNibbles] at ih
      rw [packNibbles, highLowNibbles, List.flatMap_cons, nibbleByte_div, nibbleByte_mod, ih,
        List.length_cons, List.length_cons,
        show (rest.length + 1 + 1) % 2 = rest.length % 2 by omega]
      rfl

end MelsecMc
