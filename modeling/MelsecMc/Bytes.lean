/-
Bytes, and the ways a call can fail to return a value.

A Rust function of this crate either returns `Ok`, returns `Err`, or panics: an
index outside its slice panics, and so do an arithmetic overflow and a request for
more memory than a vector can have.  `Failure` has a constructor for each of the two
ways out, so that "it returns `Err`" and "it does not panic" are different statements
about the model.
-/
import MelsecMc.Lib.LittleEndian
import MelsecMc.Lib.Pointwise

namespace MelsecMc

abbrev Bytes := List UInt8

/-- `MelsecError`: the constructors the modelled functions build. -/
inductive MelsecError
  | protocol (msg : String)
  deriving DecidableEq, Repr

/-- `{e}` of a `MelsecError`. -/
def MelsecError.display : MelsecError → String
  | .protocol msg => s!"protocol error: {msg}"

/-- What makes a call panic. -/
inductive Panic
  | indexOutOfBounds
  | arithmeticOverflow
  /-- a `Vec` of more than `isize::MAX` bytes is asked for -/
  | capacityOverflow
  deriving DecidableEq, Repr

/-- The two ways a call can fail to return `Ok`. -/
inductive Failure
  | err (e : MelsecError)
  | panic (p : Panic)
  deriving DecidableEq, Repr

/-- `Err(MelsecError::Protocol(msg))` -/
def protocolError {α : Type} (msg : String) : Except Failure α :=
  .error (.err (.protocol msg))

/-- The call returns `Err`. -/
def Failure.IsErr (f : Failure) : Prop := ∃ e, f = .err e

theorem isErr_protocol (msg : String) : Failure.IsErr (.err (.protocol msg)) := ⟨_, rfl⟩

@[simp] theorem pure_eq_ok {α : Type} (a : α) : (pure a : Except Failure α) = .ok a := rfl

@[simp] theorem ok_bind {α β : Type} (a : α) (f : α → Except Failure β) :
    (Except.ok a >>= f) = f a := rfl

@[simp] theorem error_bind {α β : Type} (e : Failure) (f : α → Except Failure β) :
    (Except.error e >>= f) = Except.error e := rfl

/-- A sequence that returns went through each of its steps. -/
theorem bind_eq_ok {α β : Type} {x : Except Failure α} {f : α → Except Failure β} {r : β} :
    (x >>= f) = .ok r ↔ ∃ a, x = .ok a ∧ f a = .ok r := by
  cases x with
  | ok a => simp
  | error e => simp

/-! ### Loops whose steps all return -/

/-- The results are those of the elements, in their order. -/
theorem mapM_eq_ok_iff {α β : Type} {f : α → Except Failure β} {l : List α} : ∀ {r : List β},
    l.mapM f = .ok r ↔ List.Forall₂ (fun a b => f a = .ok b) l r := by
  induction l with
  | nil =>
      intro r
      rw [List.mapM_nil, pure_eq_ok, Except.ok.injEq, List.forall₂_nil_left_iff]
      exact eq_comm
  | cons a l ih =>
      intro r
      rw [List.mapM_cons, bind_eq_ok]
      constructor
      · rintro ⟨b, hb, h⟩
        obtain ⟨bs, hbs, h⟩ := bind_eq_ok.mp h
        cases h
        exact .cons hb (ih.mp hbs)
      · intro h
        cases h with
        | cons hb hbs =>
            refine ⟨_, hb, ?_⟩
            rw [ih.mpr hbs]
            rfl

theorem mapM_eq_ok {α β : Type} {f : α → Except Failure β} {g : α → β} {l : List α}
    (h : ∀ a ∈ l, f a = .ok (g a)) : l.mapM f = .ok (l.map g) :=
  mapM_eq_ok_iff.mpr (List.forall₂_map_right_iff.mpr (List.forall₂_same.mpr h))

/-- A loop that returned made each result of one of the elements, and one of each. -/
theorem mem_of_mapM_eq_ok {α β : Type} {f : α → Except Failure β} {l : List α} {r : List β}
    (h : l.mapM f = .ok r) :
    (∀ a ∈ l, ∃ b ∈ r, f a = .ok b) ∧ ∀ b ∈ r, ∃ a ∈ l, f a = .ok b := by
  have hsteps := mapM_eq_ok_iff.mp h
  exact ⟨fun _ => Pointwise.exists_result hsteps, fun _ => Pointwise.exists_element hsteps⟩

/-- A loop returns when each of its steps does. -/
theorem exists_mapM_iff {α β : Type} {f : α → Except Failure β} {l : List α} :
    (∃ r, l.mapM f = .ok r) ↔ ∀ a ∈ l, ∃ b, f a = .ok b := by
  simp only [mapM_eq_ok_iff]
  exact Pointwise.exists_forall₂_iff

theorem foldlM_eq_ok {α β : Type} {f : β → α → Except Failure β} {g : β → α → β} {l : List α}
    (h : ∀ b, ∀ a ∈ l, f b a = .ok (g b a)) (b : β) : l.foldlM f b = .ok (l.foldl g b) := by
  induction l generalizing b with
  | nil => rfl
  | cons a l ih =>
      rw [List.foldlM_cons, h b a List.mem_cons_self, ok_bind, List.foldl_cons,
        ih fun b' a' ha' => h b' a' (.tail a ha')]

/-! ### Slices and numbers -/

/-- An index into a slice: out of bounds it panics. -/
def byteAt (buf : Bytes) (i : Nat) : Except Failure UInt8 :=
  match buf[i]? with
  | some b => .ok b
  | none => .error (.panic .indexOutOfBounds)

/-- The slice `&buf[start..stop]`: it panics unless `start ≤ stop ≤ buf.len()`. -/
def slice (buf : Bytes) (start stop : Nat) : Except Failure Bytes :=
  if start ≤ stop ∧ stop ≤ buf.length then .ok ((buf.drop start).take (stop - start))
  else .error (.panic .indexOutOfBounds)

/-- `u16::from_le_bytes` -/
def u16FromLeBytes (lo hi : UInt8) : UInt16 :=
  UInt16.ofNat (LittleEndian.value [lo, hi])

/-- `u16::to_le_bytes` -/
def u16ToLeBytes (v : UInt16) : Bytes :=
  LittleEndian.bytes 2 v.toNat

/-- `u16::to_be_bytes` -/
def u16ToBeBytes (v : UInt16) : Bytes :=
  (u16ToLeBytes v).reverse

/-- Two bytes at `i` read as a little-endian `u16`. -/
def u16At (buf : Bytes) (i : Nat) : Except Failure UInt16 := do
  let lo ← byteAt buf i
  let hi ← byteAt buf (i + 1)
  return u16FromLeBytes lo hi

/-- The number of values of a `usize`. -/
def usizeBound : Nat := 2 ^ 64

/-- `a + b` on `usize`. -/
def usizeAdd (a b : Nat) : Except Failure Nat :=
  if a + b < usizeBound then .ok (a + b) else .error (.panic .arithmeticOverflow)

/-- `a * b` on `usize`. -/
def usizeMul (a b : Nat) : Except Failure Nat :=
  if a * b < usizeBound then .ok (a * b) else .error (.panic .arithmeticOverflow)

/-- `isize::MAX` -/
def isizeMax : Nat := 2 ^ 63 - 1

/-- `Vec::<u8>::with_capacity(n)`: an empty vector, or a panic where `n` bytes are more than
any vector holds. -/
def vecWithCapacity (n : Nat) : Except Failure Bytes :=
  if n ≤ isizeMax then .ok [] else .error (.panic .capacityOverflow)

/-! ### Reading and writing -/

theorem usizeAdd_of_lt {a b : Nat} (h : a + b < usizeBound) : usizeAdd a b = .ok (a + b) := by
  rw [usizeAdd, if_pos h]

theorem usizeMul_of_lt {a b : Nat} (h : a * b < usizeBound) : usizeMul a b = .ok (a * b) := by
  rw [usizeMul, if_pos h]

@[simp] theorem byteAt_cons_zero (b : UInt8) (buf : Bytes) : byteAt (b :: buf) 0 = .ok b := rfl

@[simp] theorem byteAt_cons_succ (b : UInt8) (buf : Bytes) (i : Nat) :
    byteAt (b :: buf) (i + 1) = byteAt buf i := by
  simp [byteAt]

theorem byteAt_of_lt {buf : Bytes} {i : Nat} (h : i < buf.length) : byteAt buf i = .ok buf[i] := by
  simp [byteAt, h]

theorem byteAt_append_left {a : Bytes} (b : Bytes) {i : Nat} (h : i < a.length) :
    byteAt (a ++ b) i = byteAt a i := by
  rw [byteAt, byteAt, List.getElem?_append_left h]

theorem byteAt_length_add (a b : Bytes) (i : Nat) : byteAt (a ++ b) (a.length + i) = byteAt b i := by
  rw [byteAt, byteAt, List.getElem?_append_right (Nat.le_add_right _ _), Nat.add_sub_cancel_left]

theorem slice_of_le {buf : Bytes} {start stop : Nat} (h : start ≤ stop) (hstop : stop ≤ buf.length) :
    slice buf start stop = .ok ((buf.drop start).take (stop - start)) := by
  rw [slice, if_pos ⟨h, hstop⟩]

theorem u16FromLeBytes_toNat (lo hi : UInt8) :
    (u16FromLeBytes lo hi).toNat = lo.toNat + 256 * hi.toNat := by
  have hlo : lo.toNat < 256 := lo.toNat_lt
  have hhi : hi.toNat < 256 := hi.toNat_lt
  simp only [u16FromLeBytes, LittleEndian.value_cons, LittleEndian.value_nil, UInt16.toNat_ofNat']
  omega

/-- A `u16` keeps its value in a `u64`. -/
theorem toNat_ofNat_u16 (w : UInt16) : (UInt64.ofNat w.toNat).toNat = w.toNat := by
  have hw : w.toNat < 65536 := w.toNat_lt
  rw [UInt64.toNat_ofNat', Nat.mod_eq_of_lt (by omega)]

/-- A `u8` keeps its value in a `u64`. -/
theorem toNat_ofNat_u8 (b : UInt8) : (UInt64.ofNat b.toNat).toNat = b.toNat := by
  have hb : b.toNat < 256 := b.toNat_lt
  rw [UInt64.toNat_ofNat', Nat.mod_eq_of_lt (by omega)]

/-- The low byte of a `u16`. -/
def u16Lo (v : UInt16) : UInt8 := UInt8.ofNat v.toNat

/-- The high byte of a `u16`. -/
def u16Hi (v : UInt16) : UInt8 := UInt8.ofNat (v.toNat / 256)

theorem u16ToLeBytes_eq (v : UInt16) : u16ToLeBytes v = [u16Lo v, u16Hi v] := rfl

theorem u16ToBeBytes_eq (v : UInt16) : u16ToBeBytes v = [u16Hi v, u16Lo v] := rfl

@[simp] theorem length_u16ToLeBytes (v : UInt16) : (u16ToLeBytes v).length = 2 := rfl

@[simp] theorem u16FromLeBytes_lo_hi (v : UInt16) : u16FromLeBytes (u16Lo v) (u16Hi v) = v := by
  have hv : v.toNat < 65536 := v.toNat_lt
  apply UInt16.toNat_inj.mp
  rw [u16FromLeBytes_toNat, u16Lo, u16Hi, UInt8.toNat_ofNat', UInt8.toNat_ofNat']
  omega

theorem u16Lo_fromLeBytes (lo hi : UInt8) : u16Lo (u16FromLeBytes lo hi) = lo := by
  have hlo : lo.toNat < 256 := lo.toNat_lt
  apply UInt8.toNat_inj.mp
  rw [u16Lo, UInt8.toNat_ofNat', u16FromLeBytes_toNat]
  omega

theorem u16Hi_fromLeBytes (lo hi : UInt8) : u16Hi (u16FromLeBytes lo hi) = hi := by
  have hlo : lo.toNat < 256 := lo.toNat_lt
  have hhi : hi.toNat < 256 := hi.toNat_lt
  apply UInt8.toNat_inj.mp
  rw [u16Hi, UInt8.toNat_ofNat', u16FromLeBytes_toNat]
  omega

end MelsecMc
