/-
The typed lookup and the device string.

A device is looked up by a `Symbol` or by the letters of a string, and the two are written apart:
the one takes the text of the symbol, the other the upper case of what the string begins with.
They find the same device (`symbol_lookups_agree`).

That the letters come in front of a number is no small thing for a base of sixteen: its digits
begin with a letter as well, and the letters of the symbol do not end before one.  So the
statement is about strings in which it is plain where the letters end.
-/
import MelsecMc.Proofs.DeviceString
import MelsecMc.Symbols

namespace MelsecMc

namespace Symbol

open Text

/-- A string is read as the symbol whose text its upper case is. -/
theorem fromStr_eq_ok_iff {s : String} {sym : Symbol} :
    fromStr s = .ok sym ↔ toUppercase s = sym.asStr := by
  constructor
  · intro h
    unfold fromStr protocolError at h
    split at h
    all_goals first
      | (cases h; assumption)
      | cases h
  · intro h
    unfold fromStr
    rw [h]
    cases sym <;> rfl

/-- The text of a symbol is in upper-case ASCII letters. -/
theorem upperCase_asStr (sym : Symbol) : UpperCase sym.asStr := by
  cases sym <;> exact ⟨by decide, by decide⟩

theorem toDevice_eq_ok_iff {T : DeviceTable} {sym : Symbol} {d : Device} :
    sym.toDevice T = .ok d ↔ T.deviceBySymbol sym.asStr = some d := by
  rw [toDevice, tryToDevice]
  cases T.deviceBySymbol sym.asStr with
  | none => simp [protocolError]
  | some device => simp

/-- ASCII letters in any case are read as the symbol they spell. -/
theorem fromStr_letters {letters : Text} {sym : Symbol}
    (hletters : ∀ c ∈ letters, isAsciiAlphabetic c = true)
    (hsym : letters.map asciiUpper = sym.asStr.toList) :
    fromStr (String.ofList letters) = .ok sym := by
  rw [fromStr_eq_ok_iff, MelsecMc.toUppercase, String.toList_ofList, Text.toUppercase]
  have hupper : letters.flatMap upperChar = letters.map asciiUpper := by
    rw [← List.flatMap_pure_eq_map]
    exact List.flatMap_congr fun c hc =>
      upperChar_of_lt (toNat_lt_of_alphabetic (hletters c hc))
  rw [hupper, hsym, String.ofList_toList]

end Symbol

open Text in
/-- Letters that are no symbol of the table are refused, with a number behind them. -/
theorem parseDeviceAndAddress_unknown {T : DeviceTable} {s : String}
    (hsym : symbolRead (trim s.toList) ≠ []) (hnum : numberRead (trim s.toList) ≠ [])
    (hunknown : T.deviceBySymbol (String.ofList (symbolRead (trim s.toList))) = none) :
    T.parseDeviceAndAddress s =
      protocolError s!"unknown device symbol: {String.ofList (symbolRead (trim s.toList))}" := by
  unfold DeviceTable.parseDeviceAndAddress
  unfold numberRead at hnum
  unfold symbolRead at hsym hnum hunknown ⊢
  dsimp only
  generalize trim s.toList = t at hsym hnum hunknown ⊢
  have ht : t ≠ [] := by
    rintro rfl
    exact hsym rfl
  rw [if_neg ht, if_neg fun h => hsym (List.eq_nil_of_length_eq_zero h), if_neg hnum, hunknown]

open Text in
/-- **A symbol in front of a number is looked up as `Symbol` looks it up.**  In any letter case the
letters are read as the symbol; where they end is plain, the string parses to the device the symbol
has and to an address of three bytes, and if the symbol has no device the string is refused. -/
theorem symbol_lookups_agree (T : DeviceTable) (sym : Symbol) {d : Device} {p : DeviceString}
    {a : Nat} (hp : p.Names sym.asStr d.base a) (hapart : p.Apart) {before after : Text}
    (hbefore : ∀ c ∈ before, isWhitespace c = true)
    (hafter : ∀ c ∈ after, isWhitespace c = true) :
    Symbol.fromStr (String.ofList p.letters) = .ok sym ∧
      (T.parseDeviceAndAddress (String.ofList (before ++ p.text ++ after)) =
          .ok (d, UInt32.ofNat a) ↔ sym.toDevice T = .ok d ∧ a ≤ 0xFFFFFF) ∧
      (sym.tryToDevice T = none →
        T.parseDeviceAndAddress (String.ofList (before ++ p.text ++ after)) =
          protocolError s!"unknown device symbol: {sym.asStr}") := by
  have hupper := sym.upperCase_asStr
  have htrim : trim (String.ofList (before ++ p.text ++ after)).toList = p.text := by
    rw [String.toList_ofList]
    exact Trimming.trim_around (tight_text hp) hbefore hafter
  have hletters : p.letters.map asciiUpper = sym.asStr.toList := by rw [hp.symbol, hupper.upper]
  have hsym : symbolRead p.text = sym.asStr.toList := by rw [symbolRead_text hp hapart, hletters]
  have hnumber : numberRead p.text = p.digits := by
    refine numberRead_text hp ?_
    rw [symbolRead_text hp hapart, List.length_map]
  refine ⟨Symbol.fromStr_letters hp.letters.2 hletters, ⟨?_, ?_⟩, ?_⟩
  · intro h
    obtain ⟨ds, a', hread, -⟩ := parseDeviceAndAddress_ok_iff.mp h
    rw [htrim] at hread
    have hknown := hread.known
    have hsigned := hread.signed
    have hrange := hread.range
    rw [hsym, String.ofList_toList] at hknown
    rw [hnumber] at hsigned
    have hsame : p.digits = ds := (hsigned.eq_of_denotes hp.digits).symm
    have ha : a' = a := (hsame ▸ hread.digits).unique hp.digits
    exact ⟨Symbol.toDevice_eq_ok_iff.mpr hknown, ha ▸ hrange⟩
  · rintro ⟨hdevice, hle⟩
    refine parseDeviceAndAddress_ok_iff.mpr ⟨p.digits, a, ?_, rfl⟩
    rw [htrim]
    refine ⟨?_, ?_, ?_, hp.digits, hle⟩
    · rw [hsym]
      exact hupper.ne_nil
    · rw [hsym, String.ofList_toList]
      exact Symbol.toDevice_eq_ok_iff.mp hdevice
    · rw [hnumber]
      exact .unsigned
  · intro hnone
    have herr := parseDeviceAndAddress_unknown (T := T)
      (s := String.ofList (before ++ p.text ++ after))
      (by rw [htrim, hsym]; exact hupper.ne_nil) (by rw [htrim, hnumber]; exact hp.digits.1)
      (by rw [htrim, hsym, String.ofList_toList]; exact hnone)
    rw [herr, htrim, hsym, String.ofList_toList]

def inputRelay : Device := ⟨.bit, .hexadecimal, 0x9C⟩

/-- `x` and a number that begins with a letter, apart. -/
def xA0 : DeviceString := ⟨['x'], [' '], ['A', '0']⟩

theorem xA0_names : xA0.Names "X" inputRelay.base 160 where
  letters := ⟨by decide, List.forall_mem_singleton.mpr rfl⟩
  symbol := by decide +kernel
  gap := List.forall_mem_singleton.mpr rfl
  digits := ⟨by decide, [10, 0], .cons rfl (.cons rfl .nil), rfl⟩

theorem symbol_lookups_agree_xA0 :
    Symbol.fromStr (String.ofList xA0.letters) = .ok .x ∧
      (shippedTable.parseDeviceAndAddress (String.ofList (['\t'] ++ xA0.text ++ [' '])) =
          .ok (inputRelay, UInt32.ofNat 160) ↔
        Symbol.x.toDevice shippedTable = .ok inputRelay ∧ 160 ≤ 0xFFFFFF) ∧
      (Symbol.x.tryToDevice shippedTable = none →
        shippedTable.parseDeviceAndAddress (String.ofList (['\t'] ++ xA0.text ++ [' '])) =
          protocolError s!"unknown device symbol: {Symbol.x.asStr}") :=
  symbol_lookups_agree shippedTable .x xA0_names (.inl (List.cons_ne_nil _ _))
    (List.forall_mem_singleton.mpr rfl) (List.forall_mem_singleton.mpr rfl)

/-- Without the space the `A` is read as a letter of the symbol. -/
example : shippedTable.parseDeviceAndAddress "xA0" =
    protocolError "unknown device symbol: XA" := by
  decide +kernel

/-- Fourteen of the symbols have no device in the embedded file. -/
example : [Symbol.sn, .hs, .hr, .ar, .dm, .em, .ci, .di, .pi, .si, .bi, .fi, .ai, .ao].all
    (fun sym => (sym.tryToDevice shippedTable).isNone) = true := by
  decide +kernel

end MelsecMc
