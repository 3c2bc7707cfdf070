/-
Does a device file that was checked load?

The validator and the loader read the same tables into structs of their own.  Symbol, code and
category are the same in both.  The base and the description may be missing for the one and not
for the other, `series` is a key the validator does not know, and of a code the validator checks
less than the loader.  So a checked file loads exactly when every record has what only the
loader asks for (`validated_devices_load_iff`).
-/
import MelsecMc.DeviceRegistry
import MelsecMc.Proofs.Addressing

namespace MelsecMc

open TomlItem

/-- The record has this number under the key. -/
def HasNumber (record : DeviceRecord) (key : String) (n : Nat) : Prop :=
  ∃ i, record.lookup key = some (.integer i) ∧ i.toInt = n

/-- The record has this string under the key. -/
def HasString (record : DeviceRecord) (key s : String) : Prop :=
  record.lookup key = some (.string s)

/-- What the loader asks of a record beyond the validator. -/
structure Loadable (entries : List (String × UInt8)) (record : DeviceRecord) : Prop where
  base : ∃ b ∈ ["Decimal", "Hexadecimal"], HasString record "base" b
  description : ∃ s, HasString record "description" s
  series : ∀ item, record.lookup "series" = some item → ∃ items, item = .array items ∧
    ∀ i ∈ items, ∃ s ∈ ["Q", "R"], i = .string s
  code : ∃ e ∈ entries, HasNumber record "code" e.2.toNat

/-- The device has the code and the category of the record. -/
structure Device.Carries (record : DeviceRecord) (dev : Device) : Prop where
  code : HasNumber record "code" dev.deviceCode.toNat
  category : HasString record "category" dev.category.debugStr

/-- The file loads, and its devices are those of the records, in their order. -/
def DevicesLoad (entries : List (String × UInt8)) (records : List DeviceRecord) : Prop :=
  ∃ devices, parseDevicesFile entries records = .ok devices ∧
    List.Forall₂ Device.Carries records devices

/-! ### Reading a record

A record has a key once.  A reader takes what stands under the key, if it is of the kind it
wants.
-/

theorem required_eq_some_iff {α : Type} {read : TomlItem → Option α} {record : DeviceRecord}
    {key : String} {a : α} :
    required read record key = some a ↔ ∃ item, record.lookup key = some item ∧ read item = some a :=
  Option.bind_eq_some_iff

theorem required_asString_iff {record : DeviceRecord} {key s : String} :
    required asString record key = some s ↔ HasString record key s := by
  rw [required_eq_some_iff, HasString]
  constructor
  · rintro ⟨item, hitem, hread⟩
    cases item with
    | string s' =>
        rw [asString, Option.some.injEq] at hread
        rw [hitem, hread]
    | _ => cases hread
  · exact fun h => ⟨_, h, rfl⟩

theorem required_asU32_iff {record : DeviceRecord} {key : String} {v : UInt32} :
    required asU32 record key = some v ↔ HasNumber record key v.toNat := by
  rw [required_eq_some_iff, HasNumber]
  have hv : v.toNat < 4294967296 := v.toNat_lt
  constructor
  · rintro ⟨item, hitem, hread⟩
    cases item with
    | integer i =>
        refine ⟨i, hitem, ?_⟩
        obtain ⟨n, hn, hv⟩ := Option.map_eq_some_iff.mp hread
        rw [asUnsigned] at hn
        split at hn
        · rename_i hrange
          rw [Option.some.injEq] at hn
          rw [← hv, UInt32.toNat_ofNat', ← hn]
          omega
        · cases hn
    | _ => cases hread
  · rintro ⟨i, hitem, hi⟩
    refine ⟨_, hitem, ?_⟩
    rw [asU32, asUnsigned, if_pos (by omega), Option.map_some, Option.some.injEq, hi]
    exact UInt32.ofNat_toNat

/-- A field that may be missing. -/
theorem optional_eq_some_iff {α : Type} {read : TomlItem → Option α} {record : DeviceRecord}
    {key : String} {a : Option α} :
    TomlItem.optional read record key = some a ↔
      (record.lookup key = none ∧ a = none) ∨
        ∃ item b, record.lookup key = some item ∧ read item = some b ∧ a = some b := by
  unfold TomlItem.optional
  cases record.lookup key with
  | none => simp [eq_comm]
  | some item => simp [Option.map_eq_some_iff, eq_comm]

theorem asVec_eq_some_iff {α : Type} {read : TomlItem → Option α} {item : TomlItem}
    {as : List α} :
    asVec read item = some as ↔
      ∃ items, item = .array items ∧ List.Forall₂ (fun i a => read i = some a) items as := by
  constructor
  · intro h
    cases item with
    | array items => exact ⟨items, rfl, Pointwise.mapM_eq_some_iff.mp h⟩
    | _ => cases h
  · rintro ⟨items, rfl, h⟩
    exact Pointwise.mapM_eq_some_iff.mpr h

theorem asString_eq_some_iff {item : TomlItem} {s : String} :
    item.asString = some s ↔ item = .string s := by
  cases item <;> simp [asString]

/-! ### What the loader asks for

Key by key, in the words of the record.
-/

/-- The record's `series`, with the marks the loader knows. -/
theorem series_loads_iff {record : DeviceRecord} :
    (∃ series, TomlItem.optional (asVec asString) record "series" = some series ∧
        ∀ s ∈ series.getD [], s ∈ ["Q", "R"]) ↔
      ∀ item, record.lookup "series" = some item → ∃ items, item = .array items ∧
        ∀ i ∈ items, ∃ s ∈ ["Q", "R"], i = .string s := by
  simp only [optional_eq_some_iff]
  constructor
  · rintro ⟨series, ⟨hnone, -⟩ | ⟨item, names, hitem, hread, rfl⟩, hmarks⟩ item' hitem'
    · rw [hnone] at hitem'
      cases hitem'
    · rw [hitem, Option.some.injEq] at hitem'
      subst hitem'
      obtain ⟨items, rfl, hitems⟩ := asVec_eq_some_iff.mp hread
      refine ⟨items, rfl, fun i hi => ?_⟩
      obtain ⟨s, hs, his⟩ := Pointwise.exists_result hitems hi
      exact ⟨s, hmarks s hs, asString_eq_some_iff.mp his⟩
  · intro h
    cases hlookup : record.lookup "series" with
    | none => exact ⟨none, .inl ⟨rfl, rfl⟩, fun s hs => absurd hs List.not_mem_nil⟩
    | some item =>
        obtain ⟨items, rfl, hitems⟩ := h item hlookup
        have hnames : ∀ i ∈ items, ∃ s, i.asString = some s ∧ s ∈ ["Q", "R"] := by
          intro i hi
          obtain ⟨s, hs, his⟩ := hitems i hi
          exact ⟨s, asString_eq_some_iff.mpr his, hs⟩
        obtain ⟨names, hall⟩ := Pointwise.exists_forall₂_iff.mpr hnames
        refine ⟨some names, .inr ⟨_, names, rfl, ?_, rfl⟩, fun s hs => ?_⟩
        · exact asVec_eq_some_iff.mpr ⟨items, rfl, hall.imp fun _ _ h => h.1⟩
        · obtain ⟨i, -, his⟩ := Pointwise.exists_element hall hs
          exact his.2

theorem parseCategory_ok_iff {d : RawDevice} :
    (∃ category, parseCategory d = .ok category) ↔ d.category ∈ ["Bit", "Word", "DoubleWord"] := by
  unfold parseCategory protocolError
  by_cases hbit : d.category = "Bit"
  · simp [hbit]
  · by_cases hword : d.category = "Word"
    · simp [hword]
    · by_cases hdword : d.category = "DoubleWord"
      · simp [hdword]
      · simp [hbit, hword, hdword]

theorem parseBase_ok_iff {d : RawDevice} :
    (∃ base, parseBase d = .ok base) ↔ d.base ∈ ["Decimal", "Hexadecimal"] := by
  unfold parseBase protocolError
  by_cases hdec : d.base = "Decimal"
  · simp [hdec]
  · by_cases hhex : d.base = "Hexadecimal"
    · simp [hhex]
    · simp [hdec, hhex]

theorem parseSeries_ok_iff {d : RawDevice} :
    (∃ series, parseSeries d = .ok series) ↔ ∀ s ∈ d.series, s ∈ ["Q", "R"] := by
  unfold parseSeries
  rw [exists_mapM_iff]
  refine forall₂_congr fun s hs => ?_
  by_cases hq : s = "Q"
  · simp [hq]
  · by_cases hr : s = "R"
    · simp [hr]
    · simp [hq, hr, protocolError]

/-- A code the loader takes is in the embedded table. -/
theorem parseCode_ok_iff {entries : List (String × UInt8)} {d : RawDevice} :
    (∃ code, parseCode d = .ok code ∧ ∃ dc, deviceCodeTryFrom entries code = .ok dc) ↔
      ∃ e ∈ entries, e.2.toNat = d.code.toNat := by
  have hnamed : ∀ v : UInt8, (∃ dc, deviceCodeTryFrom entries v = .ok dc) ↔
      ∃ e ∈ entries, e.2 = v := by
    intro v
    rw [← nameByCode_isSome_iff, deviceCodeTryFrom]
    by_cases hname : (nameByCode entries v).isSome
    · simp [hname]
    · simp [hname, protocolError]
  simp only [hnamed]
  unfold parseCode
  by_cases hrange : d.code.toNat < 256
  · rw [if_pos hrange]
    constructor
    · rintro ⟨code, hcode, e, he, rfl⟩
      rw [Except.ok.injEq] at hcode
      exact ⟨e, he, by rw [← hcode, UInt8.toNat_ofNat', Nat.mod_eq_of_lt hrange]⟩
    · rintro ⟨e, he, hcode⟩
      exact ⟨_, rfl, e, he, by rw [← hcode, UInt8.ofNat_toNat]⟩
  · rw [if_neg hrange]
    constructor
    · rintro ⟨code, hcode, -⟩
      cases hcode
    · rintro ⟨e, -, hcode⟩
      have hlt := e.2.toNat_lt
      omega

theorem parseDevice_ok_iff {entries : List (String × UInt8)} {d : RawDevice} :
    (∃ dev, parseDevice entries d = .ok dev) ↔
      d.category ∈ ["Bit", "Word", "DoubleWord"] ∧ d.base ∈ ["Decimal", "Hexadecimal"] ∧
        (∀ s ∈ d.series, s ∈ ["Q", "R"]) ∧ ∃ e ∈ entries, e.2.toNat = d.code.toNat := by
  rw [← parseCategory_ok_iff, ← parseBase_ok_iff, ← parseSeries_ok_iff, ← parseCode_ok_iff]
  unfold parseDevice
  constructor
  · rintro ⟨dev, h⟩
    obtain ⟨category, hcategory, h⟩ := bind_eq_ok.mp h
    obtain ⟨base, hbase, h⟩ := bind_eq_ok.mp h
    obtain ⟨series, hseries, h⟩ := bind_eq_ok.mp h
    obtain ⟨code, hcode, h⟩ := bind_eq_ok.mp h
    obtain ⟨dc, hdc, -⟩ := bind_eq_ok.mp h
    exact ⟨⟨_, hcategory⟩, ⟨_, hbase⟩, ⟨_, hseries⟩, code, hcode, dc, hdc⟩
  · rintro ⟨⟨category, hcategory⟩, ⟨base, hbase⟩, ⟨series, hseries⟩, code, hcode, dc, hdc⟩
    simp only [hcategory, hbase, hseries, hcode, hdc, ok_bind]
    exact ⟨_, rfl⟩

/-! ### One record -/

/-- The loader makes this device of the record. -/
def LoadsAs (entries : List (String × UInt8)) (record : DeviceRecord) (dev : Device) : Prop :=
  ∃ raw, RawDevice.ofRecord record = some raw ∧ parseDevice entries raw = .ok dev

/-- What the validator makes sure of: the keys that both read. -/
structure Checked (record : DeviceRecord) : Prop where
  symbol : ∃ s, HasString record "symbol" s
  code : ∃ v : UInt32, HasNumber record "code" v.toNat
  category : ∃ c ∈ ["Bit", "Word", "DoubleWord"], HasString record "category" c

theorem rawDevice_ofRecord_iff {record : DeviceRecord} {raw : RawDevice} :
    RawDevice.ofRecord record = some raw ↔
      HasString record "symbol" raw.symbol ∧ HasNumber record "code" raw.code.toNat ∧
        HasString record "category" raw.category ∧ HasString record "base" raw.base ∧
        (∃ s, HasString record "description" s) ∧
        ∃ series, TomlItem.optional (asVec asString) record "series" = some series ∧
          raw.series = series.getD [] := by
  simp only [RawDevice.ofRecord, Option.bind_eq_bind, Option.bind_eq_some_iff,
    required_asString_iff, required_asU32_iff]
  constructor
  · rintro ⟨symbol, hsymbol, code, hcode, category, hcategory, base, hbase, description,
      hdescription, series, hseries, hraw⟩
    cases hraw
    exact ⟨hsymbol, hcode, hcategory, hbase, ⟨_, hdescription⟩, _, hseries, rfl⟩
  · rintro ⟨hsymbol, hcode, hcategory, hbase, ⟨description, hdescription⟩, series, hseries, heq⟩
    refine ⟨_, hsymbol, _, hcode, _, hcategory, _, hbase, _, hdescription, _, hseries, ?_⟩
    rw [← heq]
    rfl

theorem hasNumber_unique {record : DeviceRecord} {key : String} {n n' : Nat}
    (h : HasNumber record key n) (h' : HasNumber record key n') : n = n' := by
  obtain ⟨i, hi, hn⟩ := h
  obtain ⟨i', hi', hn'⟩ := h'
  rw [hi, Option.some.injEq] at hi'
  cases hi'
  omega

/-- Of a checked record the loader asks nothing but this. -/
theorem loadsAs_iff {entries : List (String × UInt8)} {record : DeviceRecord}
    (hchecked : Checked record) :
    (∃ dev, LoadsAs entries record dev) ↔ Loadable entries record := by
  constructor
  · rintro ⟨dev, raw, hraw, hdev⟩
    obtain ⟨-, hcode, -, hbase, hdescription, series, hseries, hmarks⟩ :=
      rawDevice_ofRecord_iff.mp hraw
    obtain ⟨-, hbases, hall, e, he, hname⟩ := parseDevice_ok_iff.mp ⟨dev, hdev⟩
    rw [hmarks] at hall
    rw [← hname] at hcode
    exact ⟨⟨_, hbases, hbase⟩, hdescription, series_loads_iff.mp ⟨series, hseries, hall⟩,
      e, he, hcode⟩
  · rintro ⟨⟨base, hbases, hbase⟩, hdescription, hseries, e, he, hname⟩
    obtain ⟨⟨symbol, hsymbol⟩, ⟨code, hcode⟩, category, hcategories, hcategory⟩ := hchecked
    obtain ⟨series, hseries, hall⟩ := series_loads_iff.mpr hseries
    have hraw : RawDevice.ofRecord record =
        some { symbol, code, category, base, series := series.getD [] } :=
      rawDevice_ofRecord_iff.mpr
        ⟨hsymbol, hcode, hcategory, hbase, hdescription, series, hseries, rfl⟩
    have hdev : ∃ dev, parseDevice entries
        { symbol, code, category, base, series := series.getD [] } = .ok dev :=
      parseDevice_ok_iff.mpr
        ⟨hcategories, hbases, hall, e, he, hasNumber_unique hname hcode⟩
    obtain ⟨dev, hdev⟩ := hdev
    exact ⟨dev, _, hraw, hdev⟩

/-- A device that was loaded has the code and the category of its record. -/
theorem carries_of_loadsAs {entries : List (String × UInt8)} {record : DeviceRecord}
    {dev : Device} (h : LoadsAs entries record dev) : dev.Carries record := by
  obtain ⟨raw, hraw, hdev⟩ := h
  obtain ⟨-, hcode, hcategory, -⟩ := rawDevice_ofRecord_iff.mp hraw
  obtain ⟨hentry, -, -⟩ := parseDevice_spec hdev
  constructor
  · rw [hentry.code]
    exact hcode
  · rw [hentry.category]
    exact hcategory

/-! ### The whole file -/

theorem parseDevicesFile_ok_iff {entries : List (String × UInt8)} {records : List DeviceRecord}
    {devices : List Device} :
    parseDevicesFile entries records = .ok devices ↔
      List.Forall₂ (LoadsAs entries) records devices := by
  unfold LoadsAs
  rw [← Pointwise.exists_forall₂_comp, parseDevicesFile]
  simp only [← Pointwise.mapM_eq_some_iff, ← mapM_eq_ok_iff]
  cases records.mapM RawDevice.ofRecord with
  | none => simp [protocolError]
  | some raws =>
      constructor
      · intro h
        exact ⟨raws, rfl, h⟩
      · rintro ⟨raws', hraws, h⟩
        cases hraws
        exact h

/-- The devices of a file that loads are those of its records. -/
theorem devicesLoad_iff {entries : List (String × UInt8)} {records : List DeviceRecord} :
    DevicesLoad entries records ↔ ∀ r ∈ records, ∃ dev, LoadsAs entries r dev := by
  rw [← Pointwise.exists_forall₂_iff]
  constructor
  · rintro ⟨devices, hload, -⟩
    exact ⟨devices, parseDevicesFile_ok_iff.mp hload⟩
  · rintro ⟨devices, hload⟩
    exact ⟨devices, parseDevicesFile_ok_iff.mpr hload, hload.imp fun _ _ => carries_of_loadsAs⟩

theorem validateDevice_category {syms : List String} {d : DeviceRaw}
    (h : DeviceRegistry.validateDevice syms d = .ok ()) :
    d.category ∈ ["Bit", "Word", "DoubleWord"] := by
  by_contra hnot
  unfold DeviceRegistry.validateDevice at h
  dsimp only at h
  split at h
  · cases h
  · split at h
    · cases h
    · split at h
      · cases h
      · cases h

theorem validateDevices_category {syms : List String} {ds : List DeviceRaw}
    (h : DeviceRegistry.validateDevices syms ds = .ok ()) :
    ∀ d ∈ ds, d.category ∈ ["Bit", "Word", "DoubleWord"] := by
  induction ds generalizing syms with
  | nil => exact fun d hd => absurd hd List.not_mem_nil
  | cons d ds ih =>
      rw [DeviceRegistry.validateDevices] at h
      obtain ⟨⟨⟩, hd, hds⟩ := bind_eq_ok.mp h
      exact List.forall_mem_cons.mpr ⟨validateDevice_category hd, ih hds⟩

/-- The keys that both read, as the validator's struct has them. -/
theorem deviceRaw_ofRecord_spec {record : DeviceRecord} {d : DeviceRaw}
    (h : DeviceRaw.ofRecord record = some d) :
    HasString record "symbol" d.symbol ∧ HasNumber record "code" d.code.toNat ∧
      HasString record "category" d.category := by
  simp only [DeviceRaw.ofRecord, Option.bind_eq_bind, Option.bind_eq_some_iff,
    required_asString_iff, required_asU32_iff] at h
  obtain ⟨symbol, hsymbol, code, hcode, category, hcategory, base, -, description, -, guiName, -,
    compatibleSeries, -, bitMapping, -, hd⟩ := h
  cases hd
  exact ⟨hsymbol, hcode, hcategory⟩

theorem checked_of_validateStr {records : List DeviceRecord}
    (h : DeviceRegistry.validateStr records = .ok ()) : ∀ r ∈ records, Checked r := by
  unfold DeviceRegistry.validateStr at h
  cases hraws : records.mapM DeviceRaw.ofRecord with
  | none =>
      rw [hraws] at h
      cases h
  | some raws =>
      rw [hraws] at h
      intro r hr
      obtain ⟨d, hd, hread⟩ := Pointwise.exists_result (Pointwise.mapM_eq_some_iff.mp hraws) hr
      obtain ⟨hsymbol, hcode, hcategory⟩ := deviceRaw_ofRecord_spec hread
      exact ⟨⟨_, hsymbol⟩, ⟨_, hcode⟩, _, validateDevices_category h d hd, hcategory⟩

/-- **A device file that was checked loads, one device for each record, exactly when every
record has a base, a description, only known series, and a code of the embedded table.** -/
theorem validated_devices_load_iff {entries : List (String × UInt8)} {records : List DeviceRecord}
    (hvalid : DeviceRegistry.validateStr records = .ok ()) :
    DevicesLoad entries records ↔ ∀ r ∈ records, Loadable entries r := by
  rw [devicesLoad_iff]
  exact forall₂_congr fun r hr => loadsAs_iff (checked_of_validateStr hvalid r hr)

/-- The data registers, with all the loader asks for. -/
def dataRegisters : DeviceRecord :=
  [("symbol", .string "D"), ("code", .integer 0xA8), ("category", .string "Word"),
    ("base", .string "Decimal"), ("description", .string "data register"),
    ("series", .array [.string "Q", .string "R"])]

theorem validated_devices_load_iff_dataRegisters :
    DevicesLoad (codeByName shippedDevices) [dataRegisters] ↔
      ∀ r ∈ [dataRegisters], Loadable (codeByName shippedDevices) r :=
  validated_devices_load_iff (by decide +kernel)

/-- The validator lets the base and the description be left out, the loader does not. -/
theorem validated_devices_load_fails :
    ∃ records, DeviceRegistry.validateStr records = .ok () ∧
      ¬ DevicesLoad (codeByName shippedDevices) records := by
  refine ⟨[[("symbol", .string "D"), ("code", .integer 0xA8), ("category", .string "Word")]],
    by decide +kernel, ?_⟩
  rintro ⟨devices, hload, -⟩
  cases hload

end MelsecMc
