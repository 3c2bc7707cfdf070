/-
What a device string is read as.

The symbol is cut from the upper case of the string and the number from the string itself, by
the count of the letters.  `ReadsAs` is what that comes to for any Unicode text, and
`parseDeviceAndAddress_ok_iff` says that nothing else is accepted.  Over letters, white space and
digits the two cuts meet (`symbolRead_text`, `numberRead_text`), so such a string means what it
says.  Past that grammar there are a plus sign, and characters that are no ASCII letters and become
some in upper case; a string that is read with one of these is `Misread` (`only_grammar_iff`).
-/
import MelsecMc.Proofs.Addressing
import MelsecMc.Proofs.Text

namespace MelsecMc

open Text

/-- The ASCII letters the upper case of the string begins with. -/
def symbolRead (t : Text) : Text := (Text.toUppercase t).takeWhile isAsciiAlphabetic

/-- What is left behind the letters, without the white space around it. -/
def numberRead (t : Text) : Text := trim (t.drop (symbolRead t).length)

/-- The letters are those of a device, and the rest is a number in its base, perhaps signed. -/
structure ReadsAs (T : DeviceTable) (t : Text) (d : Device) (ds : Text) (addr : Nat) : Prop where
  letters : symbolRead t ≠ []
  known : T.deviceBySymbol (String.ofList (symbolRead t)) = some d
  signed : MaybeSigned ds (numberRead t)
  digits : Denotes d.base.radix ds addr
  range : addr ≤ 0xFFFFFF

/-- The letters are letters of the string itself, and the number has no sign. -/
structure Plain (t ds : Text) : Prop where
  letters : ∀ c ∈ t.take (symbolRead t).length, isAsciiAlphabetic c = true
  unsigned : numberRead t = ds

/-- The string is read as a device and an address in another way than it is spelt: with a plus
sign, or with a letter of the symbol that is no ASCII letter in the string. -/
inductive Misread (T : DeviceTable) (t : Text) : Prop
  | signed {d : Device} {ds : Text} {addr : Nat} (h : ReadsAs T t d ds addr)
      (hplus : numberRead t = '+' :: ds)
  | borrowed {d : Device} {ds : Text} {addr : Nat} (h : ReadsAs T t d ds addr) {c : Char}
      (hc : c ∈ t.take (symbolRead t).length) (hletter : isAsciiAlphabetic c = false)

/-- The string is a device and an address in the documented grammar. -/
def InGrammar (T : DeviceTable) (s : String) (d : Device) (addr : Nat) : Prop :=
  ∃ p : DeviceString, trim s.toList = p.text ∧ p.Names (T.symbolStr d) d.base addr

/-! ### Digits and letters are tight -/

theorem not_whitespace_of_digit {radix : Nat} {c : Char} (h : (toDigit radix c).isSome) :
    isWhitespace c = false := by
  by_contra hspace
  have hc := of_decide_eq_true (Bool.not_eq_false _ ▸ hspace)
  have hrange : (48 ≤ c.toNat ∧ c.toNat ≤ 57) ∨ (97 ≤ c.toNat ∧ c.toNat ≤ 122) ∨
      (65 ≤ c.toNat ∧ c.toNat ≤ 90) := toDigit_isSome h
  omega

theorem not_whitespace_of_alphabetic {c : Char} (h : isAsciiAlphabetic c = true) :
    isWhitespace c = false := by
  by_contra hspace
  have hc := (upperChar_whitespace (Bool.not_eq_false _ ▸ hspace)).2
  rw [h] at hc
  cases hc

/-- A number, with its sign if it has one, is tight. -/
theorem tight_number {radix addr : Nat} {ds number : Text} (hs : MaybeSigned ds number)
    (hds : Denotes radix ds addr) : Trimming.Tight isWhitespace number := by
  have hdigits : ∀ c ∈ ds, isWhitespace c = false := fun c hc =>
    not_whitespace_of_digit (hds.isSome c hc)
  have hall : ∀ c ∈ number, isWhitespace c = false := by
    cases hs with
    | unsigned => exact hdigits
    | signed => exact List.forall_mem_cons.mpr ⟨by decide, hdigits⟩
  exact ⟨fun c hc => hall c (List.mem_of_head? hc), fun c hc => hall c (List.mem_of_getLast? hc)⟩

theorem trim_gap {gap number : Text} (hgap : ∀ c ∈ gap, isWhitespace c = true)
    (htight : Trimming.Tight isWhitespace number) : trim (gap ++ number) = number := by
  have hnone : ∀ c ∈ ([] : Text), isWhitespace c = true := fun c hc => absurd hc List.not_mem_nil
  have htrim := Trimming.trim_around htight hgap hnone
  rw [List.append_nil] at htrim
  exact htrim

/-! ### What is accepted -/

/-- Behind a known symbol there is nothing but the number. -/
theorem parseDeviceAndAddress_known {T : DeviceTable} {s : String} {d : Device}
    (hsym : symbolRead (trim s.toList) ≠ [])
    (hknown : T.deviceBySymbol (String.ofList (symbolRead (trim s.toList))) = some d) :
    (∃ a, parseUnsigned d.base.radix (2 ^ 32) (numberRead (trim s.toList)) = some a ∧
        a ≤ 0xFFFFFF ∧ T.parseDeviceAndAddress s = .ok (d, UInt32.ofNat a)) ∨
      (∀ a ≤ 0xFFFFFF, parseUnsigned d.base.radix (2 ^ 32) (numberRead (trim s.toList)) ≠ some a) ∧
        ∃ msg, T.parseDeviceAndAddress s = protocolError msg := by
  unfold DeviceTable.parseDeviceAndAddress
  unfold numberRead NumberBase.radix
  unfold symbolRead at hsym hknown ⊢
  dsimp only
  generalize trim s.toList = t at hsym hknown ⊢
  have ht : t ≠ [] := by
    rintro rfl
    exact hsym rfl
  rw [if_neg ht, if_neg fun h => hsym (List.eq_nil_of_length_eq_zero h), hknown]
  generalize trim (t.drop _) = number
  dsimp only
  by_cases hnum : number = []
  · rw [if_pos hnum, hnum]
    exact .inr ⟨fun a _ h => (by cases h), _, rfl⟩
  · rw [if_neg hnum]
    generalize parseUnsigned _ (2 ^ 32) number = parsed
    cases parsed with
    | none => exact .inr ⟨fun a _ h => (by cases h), _, rfl⟩
    | some a =>
        dsimp only
        by_cases hle : 0x00FFFFFF < a
        · rw [if_pos hle]
          refine .inr ⟨fun a' hle' h => ?_, _, rfl⟩
          cases h
          omega
        · rw [if_neg hle]
          exact .inl ⟨a, rfl, by omega, rfl⟩

/-- What is accepted has a known symbol. -/
theorem known_of_ok {T : DeviceTable} {s : String} {d : Device} {addr : UInt32}
    (h : T.parseDeviceAndAddress s = .ok (d, addr)) : symbolRead (trim s.toList) ≠ [] ∧
      T.deviceBySymbol (String.ofList (symbolRead (trim s.toList))) = some d := by
  unfold DeviceTable.parseDeviceAndAddress protocolError at h
  unfold symbolRead
  dsimp only at h
  split at h
  · cases h
  · split at h
    · cases h
    · rename_i hsym
      refine ⟨fun hnil => hsym (by rw [hnil]; rfl), ?_⟩
      split at h
      · cases h
      · split at h
        · cases h
        · rename_i device hknown
          rw [hknown]
          split at h
          · cases h
          · split at h
            · cases h
            · cases h
              rfl

/-- **What is accepted is what reads as a device and an address.** -/
theorem parseDeviceAndAddress_ok_iff {T : DeviceTable} {s : String} {d : Device} {addr : UInt32} :
    T.parseDeviceAndAddress s = .ok (d, addr) ↔
      ∃ ds a, ReadsAs T (trim s.toList) d ds a ∧ addr = UInt32.ofNat a := by
  constructor
  · intro h
    obtain ⟨hsym, hknown⟩ := known_of_ok h
    rcases parseDeviceAndAddress_known hsym hknown with ⟨a, hparse, hle, hok⟩ | ⟨-, msg, herr⟩
    · obtain ⟨-, ds, hs, hds⟩ := parseUnsigned_eq_some_iff.mp hparse
      rw [h, Except.ok.injEq, Prod.mk.injEq] at hok
      exact ⟨ds, a, ⟨hsym, hknown, hs, hds, hle⟩, hok.2⟩
    · rw [herr] at h
      cases h
  · rintro ⟨ds, a, ⟨hsym, hknown, hs, hds, hle⟩, rfl⟩
    have hparse := parseUnsigned_eq_some_iff.mpr
      ⟨show a < 2 ^ 32 by omega, ds, hs, hds⟩
    rcases parseDeviceAndAddress_known hsym hknown with ⟨a', hparse', -, hok⟩ | ⟨hnone, -⟩
    · rw [hparse, Option.some.injEq] at hparse'
      rw [hok, hparse']
    · exact absurd hparse (hnone a hle)

/-! ### Letters

An ASCII letter is read in upper case, a white-space character and a digit end the letters.
-/

theorem symbolRead_cons {c u : Char} (hc : upperChar c = [u]) (hu : isAsciiAlphabetic u = true)
    (t : Text) : symbolRead (c :: t) = u :: symbolRead t := by
  rw [symbolRead, Text.toUppercase, List.flatMap_cons, hc, List.singleton_append,
    List.takeWhile_cons_of_pos hu]
  rfl

/-- ASCII letters at the beginning are read, in upper case. -/
theorem symbolRead_letters {letters : Text} (h : ∀ c ∈ letters, isAsciiAlphabetic c = true)
    (rest : Text) : symbolRead (letters ++ rest) = letters.map asciiUpper ++ symbolRead rest := by
  induction letters with
  | nil => rfl
  | cons c letters ih =>
      obtain ⟨hc, hletters⟩ := List.forall_mem_cons.mp h
      rw [List.cons_append, symbolRead_cons (upperChar_of_lt (toNat_lt_of_alphabetic hc))
        (alphabetic_asciiUpper hc), ih hletters, List.map_cons, List.cons_append]

/-- A character that is its own upper case, and no letter, ends the symbol. -/
theorem symbolRead_eq_nil {t : Text}
    (h : ∀ c ∈ t.head?, upperChar c = [c] ∧ isAsciiAlphabetic c = false) : symbolRead t = [] := by
  cases t with
  | nil => rfl
  | cons c t =>
      obtain ⟨hc, hletter⟩ := h c rfl
      rw [symbolRead, Text.toUppercase, List.flatMap_cons, hc, List.singleton_append,
        List.takeWhile_cons_of_neg (by rw [hletter]; exact Bool.false_ne_true)]

theorem map_asciiUpper_twice {letters : Text} (h : ∀ c ∈ letters, isAsciiAlphabetic c = true) :
    (letters.map asciiUpper).map asciiUpper = letters.map asciiUpper := by
  rw [List.map_map]
  exact List.map_congr_left fun c hc => asciiUpper_twice (h c hc)

/-! ### Strings of the grammar

Letters, perhaps white space, digits.  In front of a digit that is a letter itself the letters do
not end, so white space is needed there (`DeviceString.Apart`).
-/

section Grammar

variable {p : DeviceString} {symbol : String} {base : NumberBase} {addr : Nat}

/-- The text is tight: a letter in front, a digit at the end. -/
theorem tight_text (h : p.Names symbol base addr) : Trimming.Tight isWhitespace p.text := by
  obtain ⟨c, letters, hletters⟩ := List.exists_cons_of_ne_nil h.letters.1
  constructor
  · intro c' hc'
    rw [DeviceString.text, hletters, List.cons_append, List.cons_append, List.head?_cons,
      Option.mem_some_iff] at hc'
    rw [← hc']
    refine not_whitespace_of_alphabetic (h.letters.2 c ?_)
    rw [hletters]
    exact List.mem_cons_self
  · intro c' hc'
    rw [DeviceString.text, List.getLast?_append_of_ne_nil _ h.digits.1] at hc'
    exact (tight_number .unsigned h.digits).last c' hc'

/-- With the letters the grammar has, the number read is its digits. -/
theorem numberRead_text (h : p.Names symbol base addr)
    (hlen : (symbolRead p.text).length = p.letters.length) : numberRead p.text = p.digits := by
  rw [numberRead, hlen, DeviceString.text, List.append_assoc, List.drop_left]
  exact trim_gap h.gap (tight_number .unsigned h.digits)

/-- With white space or a decimal digit behind them, the letters end where the grammar says. -/
theorem symbolRead_text (h : p.Names symbol base addr) (hapart : p.Apart) :
    symbolRead p.text = p.letters.map asciiUpper := by
  rw [DeviceString.text, List.append_assoc, symbolRead_letters h.letters.2, symbolRead_eq_nil,
    List.append_nil]
  intro c hc
  cases hgap : p.gap with
  | nil =>
      obtain ⟨c', hc', hdigit⟩ := hapart.resolve_left (fun hne => hne hgap)
      rw [hgap, List.nil_append, Option.mem_def.mp hc', Option.mem_some_iff] at hc
      rw [← hc]
      exact upperChar_digit hdigit
  | cons g gap =>
      rw [hgap, List.cons_append, List.head?_cons, Option.mem_some_iff] at hc
      rw [← hc]
      exact upperChar_whitespace (h.gap g (by rw [hgap]; exact List.mem_cons_self))

end Grammar

/-! ### The symbols of the process -/

/-- A symbol in upper-case ASCII letters. -/
structure UpperCase (symbol : String) : Prop where
  ne_nil : symbol.toList ≠ []
  upper : symbol.toList.map asciiUpper = symbol.toList

theorem shippedSymbols_upperCase :
    ∀ e ∈ codeByName shippedDevices, e.1.toList ≠ [] ∧ e.1.toList.map asciiUpper = e.1.toList := by
  decide +kernel

/-- A device is filed under an upper-case symbol, whatever file it comes from: its symbol is a
name of the embedded file, or the fallback. -/
theorem upperCase_symbolStr {entries : List (String × UInt8)}
    (hperm : entries.Perm (codeByName shippedDevices)) (devices : List Device) (d : Device) :
    UpperCase ((deviceTable entries devices).symbolStr d) := by
  show UpperCase (deviceCodeAsStr entries d.deviceCode)
  unfold deviceCodeAsStr nameByCode
  cases hfind : entries.reverse.find? fun e => e.2 = d.deviceCode with
  | none => exact ⟨by decide, by decide⟩
  | some e =>
      have hmem := List.mem_reverse.mp (List.mem_of_find?_eq_some hfind)
      obtain ⟨hne, hupper⟩ := shippedSymbols_upperCase e (hperm.mem_iff.mp hmem)
      exact ⟨hne, hupper⟩

/-- **A device string of the grammar, with white space around it, parses to the device and the
address it names; an address of more than three bytes is refused.** -/
theorem device_string_parses {entries : List (String × UInt8)}
    (hperm : entries.Perm (codeByName shippedDevices)) {devices : List Device} {symbol : String}
    {d : Device} (hd : (deviceTable entries devices).deviceBySymbol symbol = some d)
    {p : DeviceString} {a : Nat} (hp : p.Names symbol d.base a)
    (hfirst : ∃ c ∈ p.digits.head?, '0' ≤ c ∧ c ≤ '9') {before after : Text}
    (hbefore : ∀ c ∈ before, isWhitespace c = true) (hafter : ∀ c ∈ after, isWhitespace c = true) :
    (a ≤ 0xFFFFFF → (deviceTable entries devices).parseDeviceAndAddress
        (String.ofList (before ++ p.text ++ after)) = .ok (d, UInt32.ofNat a)) ∧
      (0xFFFFFF < a → ∃ msg, (deviceTable entries devices).parseDeviceAndAddress
        (String.ofList (before ++ p.text ++ after)) = protocolError msg) := by
  have hupper : UpperCase symbol := by
    rw [← (deviceBySymbol_spec hd).2]
    exact upperCase_symbolStr hperm devices d
  have htrim : trim (String.ofList (before ++ p.text ++ after)).toList = p.text := by
    rw [String.toList_ofList]
    exact Trimming.trim_around (tight_text hp) hbefore hafter
  have hsym : symbolRead p.text = symbol.toList := by
    rw [symbolRead_text hp (.inr hfirst), hp.symbol, hupper.upper]
  have hnumber : numberRead p.text = p.digits := by
    refine numberRead_text hp ?_
    rw [symbolRead_text hp (.inr hfirst), List.length_map]
  have hread : ∀ a', parseUnsigned d.base.radix (2 ^ 32) p.digits = some a' → a' = a := by
    intro a' hparse
    obtain ⟨-, ds, hs, hds⟩ := parseUnsigned_eq_some_iff.mp hparse
    rw [hs.eq_of_denotes hp.digits] at hds
    exact hds.unique hp.digits
  have hne : symbolRead (trim (String.ofList (before ++ p.text ++ after)).toList) ≠ [] := by
    rw [htrim, hsym]
    exact hupper.ne_nil
  have hknown : (deviceTable entries devices).deviceBySymbol (String.ofList
      (symbolRead (trim (String.ofList (before ++ p.text ++ after)).toList))) = some d := by
    rw [htrim, hsym, String.ofList_toList]
    exact hd
  have hcases := parseDeviceAndAddress_known hne hknown
  rw [htrim, hnumber] at hcases
  constructor
  · intro hle
    have hparse : parseUnsigned d.base.radix (2 ^ 32) p.digits = some a :=
      parseUnsigned_eq_some_iff.mpr ⟨by omega, p.digits, .unsigned, hp.digits⟩
    rcases hcases with ⟨a', hparse', -, hok⟩ | ⟨hnone, -⟩
    · rw [hok, hread a' hparse']
    · exact absurd hparse (hnone a hle)
  · intro hlt
    rcases hcases with ⟨a', hparse', hle', -⟩ | ⟨-, herr⟩
    · have hsame := hread a' hparse'
      omega
    · exact herr

/-! ### Strings outside the grammar

What is read of a string outside the grammar is a device and an address of which the string,
as it is written, has a sign too many or a letter of another alphabet.
-/

section Reading

variable {T : DeviceTable} {s : String} {d : Device} {ds : Text} {addr : Nat}

/-- The symbol read is the one the device is filed under. -/
theorem ReadsAs.symbol (h : ReadsAs T (trim s.toList) d ds addr) :
    (T.symbolStr d).toList = symbolRead (trim s.toList) := by
  rw [(deviceBySymbol_spec h.known).2, String.toList_ofList]

/-- Where there is a number, there are as many characters in front of it as letters are read. -/
theorem exists_front {t : Text} (h : numberRead t ≠ []) :
    ∃ front rest, t = front ++ rest ∧ t.take (symbolRead t).length = front ∧
      front.length = (symbolRead t).length ∧ numberRead t = trim rest ∧ rest ≠ [] := by
  have hrest : t.drop (symbolRead t).length ≠ [] := by
    intro hnil
    rw [numberRead, hnil] at h
    exact h rfl
  refine ⟨_, _, (List.take_append_drop (symbolRead t).length t).symm, rfl, ?_, rfl, hrest⟩
  refine List.length_take_of_le (Nat.le_of_lt ?_)
  exact Nat.lt_of_not_le fun hle => hrest (List.drop_eq_nil_of_le hle)

/-- A string that is read in letters of its own and without a sign is in the grammar. -/
theorem inGrammar_of_plain (h : ReadsAs T (trim s.toList) d ds addr)
    (hplain : Plain (trim s.toList) ds) : InGrammar T s d addr := by
  have hend := (Trimming.tight_trim (p := isWhitespace) s.toList).last
  change ∀ c ∈ (trim s.toList).getLast?, isWhitespace c = false at hend
  have hsymbol := h.symbol
  obtain ⟨hletters, hnumber⟩ := hplain
  have hne : numberRead (trim s.toList) ≠ [] := by
    rw [hnumber]
    exact h.digits.1
  obtain ⟨front, rest, hsplit, hfront, hlen, htrim, hrest⟩ := exists_front hne
  rw [hfront] at hletters
  -- all the letters read are those of the front
  have hread : symbolRead (trim s.toList) = front.map asciiUpper := by
    have happend := symbolRead_letters hletters rest
    rw [← hsplit] at happend
    have hcount := congrArg List.length happend
    rw [List.length_append, List.length_map, hlen] at hcount
    have hnil : symbolRead rest = [] := List.eq_nil_of_length_eq_zero (by omega)
    rw [happend, hnil, List.append_nil]
  rw [hsplit, List.getLast?_append_of_ne_nil _ hrest] at hend
  obtain ⟨gap, hgap, hspace⟩ := Trimming.exists_before hend
  have hdigits : Trimming.trim isWhitespace rest = ds := htrim.symm.trans hnumber
  rw [hdigits] at hgap
  refine ⟨⟨front, gap, ds⟩, ?_, ⟨?_, hletters⟩, ?_, hspace, h.digits⟩
  · rw [hsplit, hgap, DeviceString.text, List.append_assoc]
  · rintro rfl
    exact h.letters hread
  · rw [hsymbol, hread, map_asciiUpper_twice hletters]

/-- A string of the grammar that is read is read in its own letters and without a sign. -/
theorem plain_of_inGrammar {addr' : Nat} (h : ReadsAs T (trim s.toList) d ds addr)
    (hgrammar : InGrammar T s d addr') : Plain (trim s.toList) ds := by
  obtain ⟨p, hp, hnames⟩ := hgrammar
  have hlen : (symbolRead p.text).length = p.letters.length := by
    have hcount := congrArg List.length hnames.symbol
    rw [h.symbol, List.length_map, List.length_map, hp] at hcount
    exact hcount.symm
  have hnumber := numberRead_text hnames hlen
  rw [hp] at h ⊢
  constructor
  · rw [hlen, DeviceString.text, List.append_assoc, List.take_left]
    exact hnames.letters.2
  · have hsigned := h.signed
    rw [hnumber] at hsigned ⊢
    exact (hsigned.eq_of_denotes hnames.digits).symm

end Reading

theorem misread_of_not_plain {T : DeviceTable} {t : Text} {d : Device} {ds : Text} {addr : Nat}
    (h : ReadsAs T t d ds addr) (hplain : ¬ Plain t ds) : Misread T t := by
  by_cases hletters : ∀ c ∈ t.take (symbolRead t).length, isAsciiAlphabetic c = true
  · rcases h.signed.eq_or with hnumber | hplus
    · exact absurd ⟨hletters, hnumber⟩ hplain
    · exact .signed h hplus
  · push Not at hletters
    obtain ⟨c, hc, hletter⟩ := hletters
    exact .borrowed h hc (Bool.eq_false_iff.mpr hletter)

/-- **Nothing but the grammar is accepted, exactly where the string is not misread.** -/
theorem only_grammar_iff (T : DeviceTable) (s : String) :
    (∀ d addr, T.parseDeviceAndAddress s = .ok (d, addr) → InGrammar T s d addr.toNat) ↔
      ¬ Misread T (trim s.toList) := by
  constructor
  · intro h hmisread
    have hplain : ∀ {d ds a}, ReadsAs T (trim s.toList) d ds a → Plain (trim s.toList) ds :=
      fun hread => plain_of_inGrammar hread
        (h _ _ (parseDeviceAndAddress_ok_iff.mpr ⟨_, _, hread, rfl⟩))
    cases hmisread with
    | signed hread hplus =>
        rw [(hplain hread).unsigned] at hplus
        exact absurd hplus.symm (List.cons_ne_self _ _)
    | borrowed hread hc hletter =>
        rw [(hplain hread).letters _ hc] at hletter
        cases hletter
  · intro h d addr hok
    obtain ⟨ds, a, hread, rfl⟩ := parseDeviceAndAddress_ok_iff.mp hok
    have hrange := hread.range
    rw [UInt32.toNat_ofNat', Nat.mod_eq_of_lt (by omega)]
    by_cases hplain : Plain (trim s.toList) ds
    · exact inGrammar_of_plain hread hplain
    · exact absurd (misread_of_not_plain hread hplain) h

/-- The table of the embedded file. -/
def shippedTable : DeviceTable :=
  deviceTable (codeByName shippedDevices)
    ((parseDevicesToml (codeByName shippedDevices) shippedDevices).toOption.getD [])

def dataRegister : Device := ⟨.word, .decimal, 0xA8⟩

/-- `d` and a number with leading zeros, apart. -/
def d0100 : DeviceString := ⟨['d'], [' '], ['0', '1', '0', '0']⟩

theorem d0100_names : d0100.Names "D" dataRegister.base 100 where
  letters := ⟨by decide, List.forall_mem_singleton.mpr rfl⟩
  symbol := by decide +kernel
  gap := List.forall_mem_singleton.mpr rfl
  digits := ⟨by decide, [0, 1, 0, 0], .cons rfl (.cons rfl (.cons rfl (.cons rfl .nil))), rfl⟩

theorem device_string_parses_d0100 :
    (100 ≤ 0xFFFFFF → shippedTable.parseDeviceAndAddress
        (String.ofList (['\t'] ++ d0100.text ++ [' '])) = .ok (dataRegister, UInt32.ofNat 100)) ∧
      (0xFFFFFF < 100 → ∃ msg, shippedTable.parseDeviceAndAddress
        (String.ofList (['\t'] ++ d0100.text ++ [' '])) = protocolError msg) :=
  device_string_parses (List.Perm.refl _) (by decide +kernel) d0100_names ⟨'0', rfl, by decide⟩
    (List.forall_mem_singleton.mpr rfl) (List.forall_mem_singleton.mpr rfl)

theorem mem_text_of_inGrammar {T : DeviceTable} {s : String} {d : Device} {addr : Nat}
    (h : InGrammar T s d addr) : ∀ c ∈ trim s.toList, isWhitespace c = true ∨
      isAsciiAlphabetic c = true ∨ ('0' ≤ c ∧ c ≤ '9') := by
  obtain ⟨p, hp, hnames⟩ := h
  rw [hp]
  intro c hc
  rcases List.mem_append.mp hc with hc | hc
  · rcases List.mem_append.mp hc with hc | hc
    · exact .inr (.inl (hnames.letters.2 c hc))
    · exact .inl (hnames.gap c hc)
  · rcases toDigit_isSome (hnames.digits.isSome c hc) with hdec | hlow | hup
    · exact .inr (.inr hdec)
    · exact .inr (.inl (decide_eq_true (.inr hlow)))
    · exact .inr (.inl (decide_eq_true (.inl hup)))

/-- A plus sign is let pass, and of a ligature that stands for two letters the symbol takes three
characters: the first digit is lost. -/
theorem only_grammar_fails :
    (∃ d addr, shippedTable.parseDeviceAndAddress "D+5" = .ok (d, addr) ∧
        ¬ InGrammar shippedTable "D+5" d addr.toNat) ∧
      ∃ d, shippedTable.parseDeviceAndAddress "\uFB06S15" = .ok (d, 5) ∧
        ¬ InGrammar shippedTable "\uFB06S15" d 5 := by
  refine ⟨⟨dataRegister, 5, by decide +kernel, fun h => ?_⟩, ⟨.bit, .decimal, 0xC7⟩,
    by decide +kernel, fun h => ?_⟩
  · rcases mem_text_of_inGrammar h '+' (by decide) with hspace | hletter | hdigit
    · exact absurd hspace (by decide)
    · exact absurd hletter (by decide)
    · exact absurd hdigit (by decide)
  · rcases mem_text_of_inGrammar h '\uFB06' (by decide) with hspace | hletter | hdigit
    · exact absurd hspace (by decide)
    · exact absurd hletter (by decide)
    · exact absurd hdigit (by decide)

end MelsecMc
