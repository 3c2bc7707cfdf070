/-
Is every device found under its symbol?

The list of devices keeps the codes of the file and not its symbols: the symbol a device is
filed under is the one `NAME_BY_CODE` gives its code.  So a record is found under its own
symbol exactly when its code has that name (`addressed_as_itself_iff`).  Of two symbols with
one code the inverse map keeps one, and the embedded file has such a pair: whatever order
the map was filled in, `LTN` or `LSTN` is not found.

The embedded file is the only one `NAME_BY_CODE` is made from.  A device file of the application
may give a code another symbol, or use codes the embedded file does not have; what was loaded
from it is then filed under names that are not in it.
-/
import MelsecMc.DeviceFile
import MelsecMc.Lib.Lookup

namespace MelsecMc

/-- `{:?}` of a number base. -/
def NumberBase.debugStr : NumberBase → String
  | .decimal => "Decimal"
  | .hexadecimal => "Hexadecimal"

/-- The device is the entry of this record: it has its code, category and number base. -/
structure Device.IsEntry (dev : Device) (d : RawDevice) : Prop where
  code : dev.deviceCode.toNat = d.code.toNat
  category : dev.category.debugStr = d.category
  base : dev.base.debugStr = d.base

/-- Every record of the file is found under its symbol. -/
def AddressedAsItself (T : DeviceTable) (raws : List RawDevice) : Prop :=
  ∀ d ∈ raws, ∃ dev, T.deviceBySymbol d.symbol = some dev ∧ dev.IsEntry d

/-- The code of a record, as far as it is a `u8`. -/
def RawDevice.codeU8 (d : RawDevice) : UInt8 := UInt8.ofNat d.code.toNat

/-! ### The loader -/

theorem parseCategory_spec {d : RawDevice} {category : DeviceType}
    (h : parseCategory d = .ok category) : category.debugStr = d.category := by
  unfold parseCategory protocolError at h
  split at h
  · rename_i hbit
    rw [hbit, ← Except.ok.inj h]
    rfl
  · split at h
    · rename_i hword
      rw [hword, ← Except.ok.inj h]
      rfl
    · split at h
      · rename_i hdword
        rw [hdword, ← Except.ok.inj h]
        rfl
      · exact absurd h (by simp)

theorem parseBase_spec {d : RawDevice} {base : NumberBase} (h : parseBase d = .ok base) :
    base.debugStr = d.base := by
  unfold parseBase protocolError at h
  split at h
  · rename_i hdec
    rw [hdec, ← Except.ok.inj h]
    rfl
  · split at h
    · rename_i hhex
      rw [hhex, ← Except.ok.inj h]
      rfl
    · exact absurd h (by simp)

/-- A record that loads becomes its entry, and its code has a name. -/
theorem parseDevice_spec {entries : List (String × UInt8)} {d : RawDevice} {dev : Device}
    (h : parseDevice entries d = .ok dev) :
    dev.IsEntry d ∧ dev.deviceCode = d.codeU8 ∧ (nameByCode entries d.codeU8).isSome := by
  unfold parseDevice at h
  obtain ⟨category, hcategory, h⟩ := bind_eq_ok.mp h
  obtain ⟨base, hbase, h⟩ := bind_eq_ok.mp h
  obtain ⟨series, -, h⟩ := bind_eq_ok.mp h
  obtain ⟨code, hcode, h⟩ := bind_eq_ok.mp h
  obtain ⟨deviceCode, hdevice, h⟩ := bind_eq_ok.mp h
  rw [pure_eq_ok, Except.ok.injEq] at h
  subst h
  unfold parseCode at hcode
  by_cases hrange : d.code.toNat < 256
  · rw [if_pos hrange, Except.ok.injEq] at hcode
    unfold deviceCodeTryFrom at hdevice
    by_cases hname : (nameByCode entries code).isSome
    · rw [if_pos hname, Except.ok.injEq] at hdevice
      rw [← hcode] at hname hdevice
      refine ⟨⟨?_, parseCategory_spec hcategory, parseBase_spec hbase⟩, hdevice.symm, hname⟩
      rw [← hdevice, UInt8.toNat_ofNat', Nat.mod_eq_of_lt hrange]
    · rw [if_neg hname] at hdevice
      exact absurd hdevice (by simp [protocolError])
  · rw [if_neg hrange] at hcode
    exact absurd hcode (by simp [protocolError])

/-! ### The lookup

A device is filed under the name its code has.  Of several with one name the map keeps the last,
and a name that no code has leads nowhere.
-/

/-- A device found under a symbol is filed under it. -/
theorem deviceBySymbol_spec {T : DeviceTable} {sym : String} {dev : Device}
    (h : T.deviceBySymbol sym = some dev) : dev ∈ T.devices ∧ T.symbolStr dev = sym := by
  unfold DeviceTable.deviceBySymbol at h
  have hsym := List.find?_some h
  exact ⟨List.mem_reverse.mp (List.mem_of_find?_eq_some h), of_decide_eq_true hsym⟩

/-- A device that is the only one filed under a symbol is found. -/
theorem deviceBySymbol_of_unique {T : DeviceTable} {sym : String} {dev : Device}
    (hmem : dev ∈ T.devices) (hsym : T.symbolStr dev = sym)
    (honly : ∀ other ∈ T.devices, T.symbolStr other = sym → other = dev) :
    T.deviceBySymbol sym = some dev := by
  refine Lookup.find?_of_unique (List.mem_reverse.mpr hmem) (decide_eq_true hsym) ?_
  intro other hother hfound
  exact honly other (List.mem_reverse.mp hother) (of_decide_eq_true hfound)

section Loaded

variable {entries : List (String × UInt8)} {raws : List RawDevice} {devices : List Device}

/-- The name of a code is not the fallback when the code has one. -/
theorem deviceCodeAsStr_eq {code : UInt8} (h : (nameByCode entries code).isSome) (sym : String) :
    deviceCodeAsStr entries code = sym ↔ nameByCode entries code = some sym := by
  obtain ⟨name, hname⟩ := Option.isSome_iff_exists.mp h
  rw [deviceCodeAsStr, hname, Option.getD_some, Option.some.injEq]

/-- A record that is found under its symbol has the name of its code. -/
theorem nameByCode_of_addressed (hload : parseDevicesToml entries raws = .ok devices)
    (haddressed : AddressedAsItself (deviceTable entries devices) raws) :
    ∀ d ∈ raws, nameByCode entries d.codeU8 = some d.symbol := by
  intro d hd
  obtain ⟨dev, hfound, hentry⟩ := haddressed d hd
  obtain ⟨own, -, hown⟩ := (mem_of_mapM_eq_ok hload).1 d hd
  obtain ⟨-, -, hname⟩ := parseDevice_spec hown
  have hcode : dev.deviceCode = d.codeU8 := by
    rw [RawDevice.codeU8, ← hentry.code, UInt8.ofNat_toNat]
  have hsym : deviceCodeAsStr entries dev.deviceCode = d.symbol := (deviceBySymbol_spec hfound).2
  rw [hcode] at hsym
  exact (deviceCodeAsStr_eq hname _).mp hsym

/-- Two records with one code cannot both be found. -/
theorem symbol_eq_of_code_eq (hload : parseDevicesToml entries raws = .ok devices)
    (haddressed : AddressedAsItself (deviceTable entries devices) raws) {d d' : RawDevice}
    (hd : d ∈ raws) (hd' : d' ∈ raws) (hcode : d.codeU8 = d'.codeU8) : d.symbol = d'.symbol := by
  have hsame := nameByCode_of_addressed hload haddressed d hd
  rw [hcode, nameByCode_of_addressed hload haddressed d' hd', Option.some.injEq] at hsame
  exact hsame.symm

/-- **Every device is found under its symbol exactly when every symbol of the file is the
name its code has.** -/
theorem addressed_as_itself_iff (hload : parseDevicesToml entries raws = .ok devices)
    (hdistinct : (raws.map RawDevice.symbol).Nodup) :
    AddressedAsItself (deviceTable entries devices) raws ↔
      ∀ d ∈ raws, nameByCode entries d.codeU8 = some d.symbol := by
  obtain ⟨hloaded, hfrom⟩ := mem_of_mapM_eq_ok hload
  refine ⟨nameByCode_of_addressed hload, ?_⟩
  intro hnames d hd
  obtain ⟨dev, hmem, hdev⟩ := hloaded d hd
  obtain ⟨hentry, hcode, hname⟩ := parseDevice_spec hdev
  refine ⟨dev, ?_, hentry⟩
  refine deviceBySymbol_of_unique hmem ?_ ?_
  · show deviceCodeAsStr entries dev.deviceCode = d.symbol
    rw [hcode]
    exact (deviceCodeAsStr_eq hname _).mpr (hnames d hd)
  · intro other hother hsym
    obtain ⟨d', hd', hdev'⟩ := hfrom other hother
    obtain ⟨-, hcode', hname'⟩ := parseDevice_spec hdev'
    have hsym' : deviceCodeAsStr entries other.deviceCode = d.symbol := hsym
    rw [hcode', deviceCodeAsStr_eq hname', hnames d' hd', Option.some.injEq] at hsym'
    -- the symbols are distinct, so the two records are one
    have hsame : d' = d := List.inj_on_of_nodup_map hdistinct hd' hd hsym'
    rw [hsame, hdev, Except.ok.injEq] at hdev'
    exact hdev'.symm

end Loaded

/-! ### The shipped file

The order of the map of names depends on its hashes.  So what is said of it is said of every
order.
-/

/-- Whether a code has a name does not depend on the order the map was filled in. -/
theorem nameByCode_isSome_iff (entries : List (String × UInt8)) (code : UInt8) :
    (nameByCode entries code).isSome ↔ ∃ e ∈ entries, e.2 = code := by
  rw [nameByCode, Option.isSome_map, List.find?_isSome]
  simp only [List.mem_reverse, decide_eq_true_eq]

theorem deviceCodeTryFrom_perm {entries entries' : List (String × UInt8)}
    (h : entries.Perm entries') (v : UInt8) :
    deviceCodeTryFrom entries v = deviceCodeTryFrom entries' v := by
  have hsame : (nameByCode entries v).isSome ↔ (nameByCode entries' v).isSome := by
    rw [nameByCode_isSome_iff, nameByCode_isSome_iff]
    constructor
    · rintro ⟨e, he, hcode⟩
      exact ⟨e, h.mem_iff.mp he, hcode⟩
    · rintro ⟨e, he, hcode⟩
      exact ⟨e, h.mem_iff.mpr he, hcode⟩
  unfold deviceCodeTryFrom
  by_cases hname : (nameByCode entries v).isSome
  · rw [if_pos hname, if_pos (hsame.mp hname)]
  · rw [if_neg hname, if_neg fun hname' => hname (hsame.mpr hname')]

/-- Nor does what the loader makes of a file. -/
theorem parseDevicesToml_perm {entries entries' : List (String × UInt8)}
    (h : entries.Perm entries') (raws : List RawDevice) :
    parseDevicesToml entries raws = parseDevicesToml entries' raws := by
  have hdevice : parseDevice entries = parseDevice entries' := by
    funext d
    unfold parseDevice
    simp only [deviceCodeTryFrom_perm h]
  rw [parseDevicesToml, hdevice, parseDevicesToml]

theorem shippedDevices_load :
    ∃ devices, parseDevicesToml (codeByName shippedDevices) shippedDevices = .ok devices := by
  have hok : (parseDevicesToml (codeByName shippedDevices) shippedDevices).isOk = true := by
    decide +kernel
  cases hload : parseDevicesToml (codeByName shippedDevices) shippedDevices with
  | ok devices => exact ⟨devices, rfl⟩
  | error e =>
      rw [hload] at hok
      exact absurd hok (by simp [Except.isOk, Except.toBool])

theorem shippedDevices_distinct : (shippedDevices.map RawDevice.symbol).Nodup := by decide +kernel

/-- The long retentive timer has the code of the long timer in the file. -/
def ltn : RawDevice := ⟨"LTN", 0x52, "DoubleWord", "Decimal", ["R"]⟩

def lstn : RawDevice := ⟨"LSTN", 0x52, "Word", "Decimal", ["R"]⟩

/-- A file of one word device and one bit device. -/
def dAndM : List RawDevice :=
  [⟨"D", 0xA8, "Word", "Decimal", ["Q", "R"]⟩, ⟨"M", 0x90, "Bit", "Decimal", ["Q", "R"]⟩]

theorem addressed_as_itself_iff_dAndM :
    AddressedAsItself (deviceTable (codeByName shippedDevices)
        [⟨.word, .decimal, 0xA8⟩, ⟨.bit, .decimal, 0x90⟩]) dAndM ↔
      ∀ d ∈ dAndM, nameByCode (codeByName shippedDevices) d.codeU8 = some d.symbol :=
  addressed_as_itself_iff (by decide +kernel) (by decide)

/-- The shipped file loads and its symbols are distinct; in whatever order the map of names
was filled, not every device is found under its symbol. -/
theorem addressed_as_itself_fails :
    (shippedDevices.map RawDevice.symbol).Nodup ∧
      ∀ entries : List (String × UInt8), entries.Perm (codeByName shippedDevices) →
        ∃ devices, parseDevicesToml entries shippedDevices = .ok devices ∧
          ¬ AddressedAsItself (deviceTable entries devices) shippedDevices := by
  refine ⟨shippedDevices_distinct, ?_⟩
  intro entries hperm
  obtain ⟨devices, hload⟩ := shippedDevices_load
  rw [← parseDevicesToml_perm hperm] at hload
  refine ⟨devices, hload, fun haddressed => ?_⟩
  have hsame := symbol_eq_of_code_eq hload haddressed
    (show ltn ∈ shippedDevices by decide) (show lstn ∈ shippedDevices by decide) rfl
  exact absurd hsame (by decide)

end MelsecMc
