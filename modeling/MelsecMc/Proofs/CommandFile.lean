/-
Which registries a command file can make.

A file is text, and a loaded registry is not.  Some specs have no spelling: a colon ends a name, a
width is a `usize`, a limit is an `i64` in the file, a table has a key once, and a spec keeps the
`response_format` its response entries were read from.  Every other spec has one
(`exists_parseCommand_iff`), and the later of two records with one id is the one that counts,
so a set of specs is loaded from some file exactly when each of them stands under its own id and
has a spelling (`loadable_iff`).
-/
import MelsecMc.Proofs.BlockKinds
import MelsecMc.Proofs.FieldSpec
import MelsecMc.Proofs.Limits
import MelsecMc.Proofs.Validation

namespace MelsecMc

/-- Some list of arguments gives these results. -/
theorem exists_mapM_eq_iff {α β : Type} {f : α → Except Failure β} {r : List β} :
    (∃ l : List α, l.mapM f = .ok r) ↔ ∀ b ∈ r, ∃ a, f a = .ok b := by
  simp only [mapM_eq_ok_iff]
  rw [← Pointwise.exists_forall₂_iff]
  exact exists_congr fun l => ⟨List.Forall₂.flip, List.Forall₂.flip⟩

/-! ### What can be spelt

A part of a spec that comes from a text can only be what a text can say.
-/

/-- A field has a spelling: its name has no colon, and its width is a `usize`. -/
structure FieldSpec.Spellable (f : FieldSpec) : Prop where
  name : ':' ∉ f.name.toList
  width : ∀ n le, f.kind = .fixedBytes n le → n < usizeBound

/-- Each limit there is fits an `i64`. -/
def Limits.Spellable (limits : Limits) : Prop :=
  ∀ limit ∈ [limits.wordPoints, limits.dwordPoints, limits.bitPoints], ∀ n, limit = some n →
    n.toNat < 2 ^ 63

structure CommandSpec.Spellable (spec : CommandSpec) : Prop where
  request : ∀ f ∈ spec.requestFields, f.Spellable
  templates : ∀ bt ∈ spec.blockTemplates, ∀ f ∈ bt.fields, f.Spellable
  /-- the entries are what the strings say, one by one -/
  response : List.Forall₂ (fun rf e => e.SpeltBy rf) spec.responseFormat spec.responseEntries
  subcommand : ∀ map, spec.subcommand = some (.perSeries map) → (map.map Prod.fst).Nodup
  limits : ∀ limits, spec.limits = some limits → limits.Spellable

/-- A table has each of its keys once. -/
def TomlValue.KeysOnce : TomlValue → Prop
  | .table entries => (entries.map Prod.fst).Nodup
  | _ => True

/-- The tables of a record are tables. -/
def CommandSpecRaw.KeysOnce (raw : CommandSpecRaw) : Prop :=
  ∀ value, raw.subcommand = some value ∨ raw.limits = some value → value.KeysOnce

/-! ### Fields -/

theorem exists_isWidth {n : Nat} (h : n < usizeBound) : ∃ ds, IsWidth ds n := by
  have hten : ∀ v < 10, ∃ c, Text.toDigit 10 c = some v := by
    have hdigit : ∀ v < 10, Text.toDigit 10 (Char.ofNat (48 + v)) = some v := by decide
    exact fun v hv => ⟨_, hdigit v hv⟩
  obtain ⟨ds, hds⟩ := Numerals.exists_denotes (by omega) hten n
  exact ⟨ds, hds, h⟩

theorem exists_readAs_iff {kind : FieldKind} :
    (∃ typ, ReadAs kind typ) ↔ ∀ n le, kind = .fixedBytes n le → n < usizeBound := by
  constructor
  · rintro ⟨typ, hread⟩ n le hkind
    cases hread with
    | bytes h => cases hkind
    | words rest => cases hkind
    | width hs h be le' =>
        cases hkind
        exact h.2
    | asciiHex => cases hkind
  · intro h
    cases kind with
    | fixedBytes n le =>
        obtain ⟨ds, hds⟩ := exists_isWidth (h n le rfl)
        cases le with
        | true => exact ⟨_, (FieldType.width hds).readAs⟩
        | false => exact ⟨_, (FieldType.widthBe hds).readAs⟩
    | words le =>
        cases le with
        | true => exact ⟨_, FieldType.wordsLe.readAs⟩
        | false => exact ⟨_, FieldType.wordsBe.readAs⟩
    | bytes => exact ⟨_, FieldType.bytes.readAs⟩
    | asciiHex => exact ⟨_, FieldType.asciiHex.readAs⟩

theorem exists_parseFieldSpec_iff {f : FieldSpec} :
    (∃ s, parseFieldSpec s = .ok f) ↔ f.Spellable := by
  constructor
  · rintro ⟨s, hs⟩
    obtain ⟨hname, typ, -, hread⟩ := parseFieldSpec_eq_ok_iff.mp hs
    exact ⟨hname, exists_readAs_iff.mp ⟨typ, hread⟩⟩
  · rintro ⟨hname, hwidth⟩
    obtain ⟨typ, hread⟩ := exists_readAs_iff.mpr hwidth
    refine ⟨String.ofList (f.name.toList ++ ':' :: typ), parseFieldSpec_eq_ok_iff.mpr ?_⟩
    exact ⟨hname, typ, String.toList_ofList, hread⟩

/-! ### Response entries

A response entry is cut at its colons, and the cut is undone by writing the colons again.  So a
string is read as an entry exactly when it is one of the ways to write it.
-/

/-- No part of a list that was cut has the separator. -/
theorem not_mem_of_mem_splitOn {α : Type} [DecidableEq α] {sep : α} {xs : List α} :
    ∀ part ∈ xs.splitOn sep, sep ∉ part := by
  induction xs with
  | nil =>
      intro part hpart
      rw [List.splitOn_nil, List.mem_singleton] at hpart
      exact hpart ▸ List.not_mem_nil
  | cons x xs ih =>
      intro part hpart
      rw [List.splitOn_cons_eq_if_modifyHead] at hpart
      by_cases hx : x = sep
      · rw [if_pos (beq_iff_eq.mpr hx)] at hpart
        rcases List.mem_cons.mp hpart with rfl | hpart
        · exact List.not_mem_nil
        · exact ih part hpart
      · rw [if_neg (fun hbeq => hx (beq_iff_eq.mp hbeq))] at hpart
        cases hrest : xs.splitOn sep with
        | nil => exact absurd hrest (List.splitOn_ne_nil sep xs)
        | cons head tail =>
            rw [hrest] at hpart ih
            rw [List.modifyHead_cons] at hpart
            rcases List.mem_cons.mp hpart with rfl | hpart
            · have hhead : sep ∉ head := ih head List.mem_cons_self
              exact fun hmem => (List.mem_cons.mp hmem).elim (fun heq => hx heq.symm) hhead
            · exact ih part (List.mem_cons_of_mem _ hpart)

/-- The parts of a string between its colons. -/
def colonParts (s : String) : List String :=
  (s.toList.splitOn ':').map String.ofList

theorem colon_not_mem_colonParts {s part : String} (h : part ∈ colonParts s) :
    ':' ∉ part.toList := by
  obtain ⟨cs, hcs, rfl⟩ := List.mem_map.mp h
  rw [String.toList_ofList]
  exact not_mem_of_mem_splitOn cs hcs

theorem intercalate_colonParts (s : String) : ":".intercalate (colonParts s) = s := by
  have hparts : (colonParts s).map String.toList = s.toList.splitOn ':' := by
    rw [colonParts, List.map_map]
    exact (List.map_congr_left fun cs _ => String.toList_ofList).trans (List.map_id _)
  rw [← String.toList_inj, String.toList_intercalate, hparts]
  exact List.intercalate_splitOn ':'

theorem colonParts_intercalate {parts : List String} (hne : parts ≠ [])
    (hcolon : ∀ part ∈ parts, ':' ∉ part.toList) : colonParts (":".intercalate parts) = parts := by
  have hsplit : (":".intercalate parts).toList.splitOn ':' = parts.map String.toList := by
    rw [String.toList_intercalate]
    refine List.splitOn_intercalate ':' ?_ (fun hnil => hne (List.map_eq_nil_iff.mp hnil))
    intro cs hcs
    obtain ⟨part, hpart, rfl⟩ := List.mem_map.mp hcs
    exact hcolon part hpart
  rw [colonParts, hsplit, List.map_map]
  exact (List.map_congr_left fun part _ => String.ofList_toList).trans (List.map_id _)

theorem ResponseParts.ne_nil {e : ResponseEntry} {parts : List String}
    (h : ResponseParts e parts) : parts ≠ [] := by
  cases h <;> exact List.cons_ne_nil _ _

/-- Parts that are read as an entry are the parts of that entry. -/
theorem responseParts_of_parse {rf : String} {e : ResponseEntry}
    (h : parseResponseFormat rf = .ok e) : ResponseParts e (colonParts rf) := by
  unfold parseResponseFormat protocolError at h
  rw [show (rf.toList.splitOn ':').map String.ofList = colonParts rf from rfl] at h
  split at h
  · rename_i name kind more hparts
    rw [hparts]
    split at h
    · rename_i hkind
      cases h
      exact hkind ▸ .wordsLe
    · split at h
      · rename_i hkind
        cases h
        exact hkind ▸ .wordsBe
      · split at h
        · rename_i hkind
          cases h
          subst hkind
          by_cases hmsb : more.head? = some "msb"
          · obtain ⟨rest, rfl⟩ := List.head?_eq_some_iff.mp hmsb
            exact .bitsMsb
          · rw [decide_eq_true hmsb]
            exact .bits hmsb
        · split at h
          · rename_i hkind
            cases h
            subst hkind
            by_cases hlow : more.head? = some "low"
            · obtain ⟨rest, rfl⟩ := List.head?_eq_some_iff.mp hlow
              exact .nibblesLow
            · rw [decide_eq_true hlow]
              exact .nibbles hlow
          · split at h
            · rename_i hkind
              cases h
              exact hkind ▸ .asciiHex
            · cases h
  · cases h

theorem parse_of_responseParts {rf : String} {e : ResponseEntry}
    (h : ResponseParts e (colonParts rf)) : parseResponseFormat rf = .ok e := by
  unfold parseResponseFormat
  rw [show (rf.toList.splitOn ':').map String.ofList = colonParts rf from rfl]
  generalize colonParts rf = parts at h
  cases h with
  | wordsLe => rfl
  | wordsBe => rfl
  | bits h =>
      show Except.ok (ResponseEntry.blockBitsPacked _ (decide _)) = _
      rw [decide_eq_true h]
  | bitsMsb => rfl
  | nibbles h =>
      show Except.ok (ResponseEntry.blockNibbles _ (decide _)) = _
      rw [decide_eq_true h]
  | nibblesLow => rfl
  | asciiHex => rfl

theorem parseResponseFormat_eq_ok_iff {rf : String} {e : ResponseEntry} :
    parseResponseFormat rf = .ok e ↔ e.SpeltBy rf := by
  constructor
  · intro h
    exact ⟨colonParts rf, responseParts_of_parse h,
      fun part hpart => colon_not_mem_colonParts hpart, (intercalate_colonParts rf).symm⟩
  · rintro ⟨parts, hparts, hcolon, rfl⟩
    refine parse_of_responseParts ?_
    rwa [colonParts_intercalate hparts.ne_nil hcolon]

theorem parseResponseFormats_eq_ok_iff {formats : List String} {entries : List ResponseEntry} :
    parseResponseFormats formats = .ok entries ↔
      List.Forall₂ (fun rf e => e.SpeltBy rf) formats entries := by
  simp only [parseResponseFormats, mapM_eq_ok_iff, parseResponseFormat_eq_ok_iff]

/-! ### Subcommands and limits

A subcommand of a series and a limit are entries of TOML tables.  The numbers a spec can have are
those the entries can be written with; the keys are those of the table, each once.
-/

theorem u16OfI64_ofNat (v : UInt16) : u16OfI64 (Int64.ofNat v.toNat) = some v := by
  have hlt : v.toNat < 65536 := v.toNat_lt
  rw [u16OfI64, Int64.toInt_ofNat_of_lt (by omega), if_pos (by omega), Int.toNat_natCast,
    UInt16.ofNat_toNat]

/-- Of a table with each key once the numbers are one too. -/
theorem subcommandTable_keys {entries : List (String × TomlValue)} :
    ∀ {map : List (String × UInt16)}, subcommandTable entries = .ok map →
      (map.map Prod.fst).Sublist (entries.map Prod.fst) := by
  fun_induction subcommandTable entries with
  | case1 =>
      intro map h
      cases h
      exact .slnil
  | case2 k i entries v hv ih =>
      intro map h
      obtain ⟨rest, hrest, h⟩ := bind_eq_ok.mp h
      cases h
      exact (ih hrest).cons_cons k
  | case3 k i entries hnone =>
      intro map h
      cases h
  | case4 entry entries hother ih => exact fun h => (ih h).cons entry.1

theorem subcommandTable_map (map : List (String × UInt16)) :
    subcommandTable (map.map fun e => (e.1, .integer (Int64.ofNat e.2.toNat))) = .ok map := by
  induction map with
  | nil => rfl
  | cons e map ih => rw [List.map_cons, subcommandTable, u16OfI64_ofNat, ih]; rfl

theorem exists_parseSubcommand_iff {sub : Option SubcommandSpec} :
    (∃ value, (∀ v, value = some v → v.KeysOnce) ∧ parseSubcommand value = .ok sub) ↔
      ∀ map, sub = some (.perSeries map) → (map.map Prod.fst).Nodup := by
  constructor
  · rintro ⟨value, hkeys, hvalue⟩ map rfl
    cases value with
    | none => cases hvalue
    | some v =>
        cases v with
        | integer i =>
            rw [parseSubcommand] at hvalue
            split at hvalue
            · cases hvalue
            · cases hvalue
        | table entries =>
            obtain ⟨map', hmap, h⟩ := bind_eq_ok.mp hvalue
            cases h
            exact (subcommandTable_keys hmap).nodup (hkeys _ rfl)
        | other => cases hvalue
  · intro h
    cases sub with
    | none => exact ⟨none, fun v hv => absurd hv (by simp), rfl⟩
    | some sub =>
        cases sub with
        | single v =>
            refine ⟨some (.integer (Int64.ofNat v.toNat)), ?_, ?_⟩
            · rintro _ ⟨⟩
              trivial
            · rw [parseSubcommand, u16OfI64_ofNat]
        | perSeries map =>
            refine ⟨some (.table (map.map fun e =>
              (e.1, .integer (Int64.ofNat e.2.toNat)))), ?_, ?_⟩
            · rintro _ ⟨⟩
              show ((map.map _).map Prod.fst).Nodup
              rw [List.map_map]
              exact h map rfl
            · rw [parseSubcommand, subcommandTable_map]
              rfl

/-- The entry of a limit. -/
def limitEntry (key : String) (limit : Option UInt64) : List (String × TomlValue) :=
  limit.toList.map fun n => (key, .integer (Int64.ofNat n.toNat))

theorem lookup_limitEntry {key : String} {limit : Option UInt64}
    (h : ∀ n, limit = some n → n.toNat < 2 ^ 63) {before after : List (String × TomlValue)}
    (hbefore : before.lookup key = none) (hafter : after.lookup key = none) :
    limitOf (before ++ limitEntry key limit ++ after) key = limit := by
  unfold limitOf
  cases limit with
  | none =>
      rw [limitEntry, Option.toList_none, List.map_nil, List.append_nil, List.lookup_append,
        hbefore, Option.none_or, hafter]
  | some n =>
      have hlt := h n rfl
      rw [limitEntry, Option.toList_some, List.map_singleton, List.append_assoc,
        List.lookup_append, hbefore, Option.none_or, List.singleton_append, List.lookup_cons,
        beq_self_eq_true]
      dsimp only
      rw [Int64.toInt_ofNat_of_lt hlt, if_pos (by omega), Int.toNat_natCast, UInt64.ofNat_toNat]

theorem lookup_limitEntry_of_ne {key key' : String} (h : key' ≠ key) (limit : Option UInt64) :
    (limitEntry key limit).lookup key' = none := by
  cases limit with
  | none => rfl
  | some n =>
      rw [limitEntry, Option.toList_some, List.map_singleton, List.lookup_cons,
        beq_eq_false_iff_ne.mpr h]
      rfl

theorem limitEntry_keys (key : String) (limit : Option UInt64) :
    ((limitEntry key limit).map Prod.fst).Sublist [key] := by
  cases limit with
  | none => exact List.nil_sublist _
  | some n => exact .refl _

/-- The table of the limits. -/
def limitTable (limits : Limits) : List (String × TomlValue) :=
  limitEntry "word_points" limits.wordPoints ++ limitEntry "dword_points" limits.dwordPoints ++
    limitEntry "bit_points" limits.bitPoints

theorem limitTable_keys (limits : Limits) : ((limitTable limits).map Prod.fst).Nodup := by
  have hsub : ((limitTable limits).map Prod.fst).Sublist
      (["word_points"] ++ ["dword_points"] ++ ["bit_points"]) := by
    rw [limitTable, List.map_append, List.map_append]
    exact ((limitEntry_keys _ _).append (limitEntry_keys _ _)).append (limitEntry_keys _ _)
  exact hsub.nodup (by decide)

theorem parseLimits_limitTable {limits : Limits} (h : limits.Spellable) :
    parseLimits (some (.table (limitTable limits))) = some limits := by
  obtain ⟨word, dword, bit⟩ := limits
  have hword : limitOf (limitTable ⟨word, dword, bit⟩) "word_points" = word := by
    have hafter : (limitEntry "dword_points" dword ++ limitEntry "bit_points" bit).lookup
        "word_points" = none := by
      rw [List.lookup_append, lookup_limitEntry_of_ne (by decide),
        lookup_limitEntry_of_ne (by decide), Option.or_none]
    have hentry := lookup_limitEntry (h word (by simp)) List.lookup_nil hafter
    rw [limitTable, List.append_assoc]
    exact hentry
  have hdword : limitOf (limitTable ⟨word, dword, bit⟩) "dword_points" = dword :=
    lookup_limitEntry (h dword (by simp)) (lookup_limitEntry_of_ne (by decide) word)
      (lookup_limitEntry_of_ne (by decide) bit)
  have hbit : limitOf (limitTable ⟨word, dword, bit⟩) "bit_points" = bit := by
    have hbefore : (limitEntry "word_points" word ++ limitEntry "dword_points" dword).lookup
        "bit_points" = none := by
      rw [List.lookup_append, lookup_limitEntry_of_ne (by decide),
        lookup_limitEntry_of_ne (by decide), Option.or_none]
    have hentry := lookup_limitEntry (h bit (by simp)) hbefore List.lookup_nil
    rw [List.append_nil] at hentry
    exact hentry
  rw [parseLimits, hword, hdword, hbit]

theorem exists_parseLimits_iff {limits : Option Limits} :
    (∃ value, (∀ v, value = some v → v.KeysOnce) ∧ parseLimits value = limits) ↔
      ∀ l, limits = some l → l.Spellable := by
  constructor
  · rintro ⟨value, -, rfl⟩ l hl
    cases value with
    | none => cases hl
    | some v =>
        cases v with
        | integer i => cases hl
        | table entries =>
            rw [parseLimits, Option.some.injEq] at hl
            subst hl
            intro limit hlimit n hn
            simp only [List.mem_cons, List.not_mem_nil, or_false] at hlimit
            rcases hlimit with rfl | rfl | rfl
            · exact limitOf_bound hn
            · exact limitOf_bound hn
            · exact limitOf_bound hn
        | other => cases hl
  · intro h
    cases limits with
    | none => exact ⟨none, fun v hv => absurd hv (by simp), rfl⟩
    | some l =>
        refine ⟨some (.table (limitTable l)), ?_, parseLimits_limitTable (h l rfl)⟩
        rintro _ ⟨⟩
        exact limitTable_keys l

/-! ### Templates and commands -/

theorem exists_blockDeviceFamily (family : Option DeviceFamily) :
    ∃ s, blockDeviceFamily s = family := by
  cases family with
  | none => exact ⟨none, rfl⟩
  | some family =>
      cases family with
      | any => exact ⟨some "Any", by decide⟩
      | bit => exact ⟨some "Bit", by decide⟩
      | word => exact ⟨some "Word", by decide⟩
      | doubleWord => exact ⟨some "DoubleWord", by decide⟩

theorem exists_parseBlockTemplates_iff {bts : List BlockTemplate} :
    (∃ raws, parseBlockTemplates raws = .ok bts) ↔ ∀ bt ∈ bts, ∀ f ∈ bt.fields, f.Spellable := by
  have hsome : (∃ raws, parseBlockTemplates raws = .ok bts) ↔
      ∃ raws, parseBlockTemplates (some raws) = .ok bts := by
    constructor
    · rintro ⟨raws, h⟩
      exact ⟨raws.getD [], by rw [parseBlockTemplates, Option.getD_some]; exact h⟩
    · rintro ⟨raws, h⟩
      exact ⟨some raws, h⟩
  rw [hsome]
  simp only [parseBlockTemplates, Option.getD_some, exists_mapM_eq_iff]
  refine forall₂_congr fun bt _ => ?_
  constructor
  · rintro ⟨raw, h⟩ f hf
    obtain ⟨fields, hfields, h⟩ := bind_eq_ok.mp h
    cases h
    exact exists_parseFieldSpec_iff.mp (exists_mapM_eq_iff.mp ⟨_, hfields⟩ f hf)
  · intro h
    obtain ⟨fields, hfields⟩ := exists_mapM_eq_iff.mpr fun f hf =>
      exists_parseFieldSpec_iff.mpr (h f hf)
    obtain ⟨family, hfamily⟩ := exists_blockDeviceFamily bt.deviceFamily
    refine ⟨⟨bt.name, bt.repeatField, fields, family⟩, ?_⟩
    dsimp only
    rw [hfields, ok_bind, hfamily]
    rfl

/-- **The specs that some record is parsed to are the ones with a spelling.** -/
theorem exists_parseCommand_iff {spec : CommandSpec} :
    (∃ raw : CommandSpecRaw, raw.KeysOnce ∧ raw.id = spec.id ∧ parseCommand raw = .ok spec) ↔
      spec.Spellable := by
  constructor
  · rintro ⟨raw, hkeys, -, hraw⟩
    obtain ⟨fields, hfields, h⟩ := bind_eq_ok.mp hraw
    obtain ⟨bts, hbts, h⟩ := bind_eq_ok.mp h
    obtain ⟨entries, hentries, h⟩ := bind_eq_ok.mp h
    obtain ⟨sub, hsub, h⟩ := bind_eq_ok.mp h
    cases h
    refine ⟨?_, exists_parseBlockTemplates_iff.mp ⟨_, hbts⟩,
      parseResponseFormats_eq_ok_iff.mp hentries, ?_, ?_⟩
    · exact fun f hf => exists_parseFieldSpec_iff.mp (exists_mapM_eq_iff.mp ⟨_, hfields⟩ f hf)
    · exact exists_parseSubcommand_iff.mp ⟨_, fun v hv => hkeys v (.inl hv), hsub⟩
    · exact exists_parseLimits_iff.mp ⟨_, fun v hv => hkeys v (.inr hv), rfl⟩
  · intro h
    obtain ⟨requestFormat, hrequest⟩ := exists_mapM_eq_iff.mpr fun f hf =>
      exists_parseFieldSpec_iff.mpr (h.request f hf)
    have hresponse := parseResponseFormats_eq_ok_iff.mpr h.response
    obtain ⟨blockTemplates, htemplates⟩ := exists_parseBlockTemplates_iff.mpr h.templates
    obtain ⟨subcommand, hsubKeys, hsub⟩ := exists_parseSubcommand_iff.mpr h.subcommand
    obtain ⟨limits, hlimKeys, hlimits⟩ := exists_parseLimits_iff.mpr h.limits
    obtain ⟨family, hfamily⟩ := exists_blockDeviceFamily (some spec.deviceFamily)
    refine ⟨⟨spec.id, spec.name, spec.commandCode, subcommand, family, limits, requestFormat,
      spec.responseFormat, blockTemplates⟩, ?_, rfl, ?_⟩
    · rintro value (hvalue | hvalue)
      · exact hsubKeys value hvalue
      · exact hlimKeys value hvalue
    · rw [parseCommand, hrequest, ok_bind, htemplates, ok_bind, hresponse, ok_bind,
        hsub, ok_bind, hlimits, commandDeviceFamily, hfamily]
      rfl

/-! ### The file

The records are read one after the other and each replaces the one before it that has its id.  So
a registry is found again in a file that has one record for each of its specs, in any order.
-/

namespace CommandRegistry

/-- What a registry holds after a file was loaded into it is what was there or the spec of a
record. -/
theorem get_of_parseCommands_eq {id : Command} {spec : CommandSpec} :
    ∀ {raws : List CommandSpecRaw} {reg reg' : CommandRegistry},
      parseCommands reg raws = .ok reg' → reg'.get id = some spec →
      reg.get id = some spec ∨ ∃ raw ∈ raws, raw.id = id ∧ parseCommand raw = .ok spec := by
  intro raws
  induction raws with
  | nil =>
      intro reg reg' h hget
      cases h
      exact .inl hget
  | cons raw raws ih =>
      intro reg reg' h hget
      obtain ⟨first, hfirst, hrest⟩ := bind_eq_ok.mp h
      rcases ih hrest hget with hthere | ⟨later, hmem, hlater⟩
      · by_cases hid : id = raw.id
        · subst hid
          rw [get_insert_self, Option.some.injEq] at hthere
          exact .inr ⟨raw, List.mem_cons_self, rfl, hthere ▸ hfirst⟩
        · rw [get_insert_of_ne _ _ hid] at hthere
          exact .inl hthere
      · exact .inr ⟨later, .tail _ hmem, hlater⟩

end CommandRegistry

theorem id_of_parseCommand {raw : CommandSpecRaw} {spec : CommandSpec}
    (h : parseCommand raw = .ok spec) : spec.id = raw.id := by
  obtain ⟨fields, -, h⟩ := bind_eq_ok.mp h
  obtain ⟨bts, -, h⟩ := bind_eq_ok.mp h
  obtain ⟨entries, -, h⟩ := bind_eq_ok.mp h
  obtain ⟨sub, -, h⟩ := bind_eq_ok.mp h
  cases h
  rfl

def Command.all : List Command :=
  [readWords, writeWords, readBits, writeBits, echo, readRandomWords, writeRandomWords,
    writeRandomBits, readBlocks, writeBlocks]

theorem Command.mem_all (id : Command) : id ∈ Command.all := by
  cases id <;> decide

/-- Records that stand for their commands, at most one for each. -/
theorem filterMap_ids_sublist {rawOf : Command → Option CommandSpecRaw}
    (hid : ∀ id raw, rawOf id = some raw → raw.id = id) (ids : List Command) :
    ((ids.filterMap rawOf).map (·.id)).Sublist ids := by
  induction ids with
  | nil => exact .slnil
  | cons id ids ih =>
      cases hraw : rawOf id with
      | none =>
          rw [List.filterMap_cons_none hraw]
          exact ih.cons id
      | some raw =>
          rw [List.filterMap_cons_some hraw, List.map_cons, hid id raw hraw]
          exact ih.cons_cons id

/-- **A set of specs is what some command file is loaded to exactly when each spec stands under its
own id and has a spelling.** -/
theorem CommandRegistry.loadable_iff (specs : Command → Option CommandSpec) :
    (∃ commands reg, (∀ raw ∈ commands, raw.KeysOnce) ∧ parseCommandFile commands = .ok reg ∧
      reg.get = specs) ↔
    ∀ id spec, specs id = some spec → spec.id = id ∧ spec.Spellable := by
  constructor
  · rintro ⟨commands, reg, hkeys, hload, rfl⟩ id spec hget
    rcases get_of_parseCommands_eq hload hget with hempty | ⟨raw, hmem, hid, hraw⟩
    · cases hempty
    · have hspec := id_of_parseCommand hraw
      exact ⟨hspec.trans hid,
        exists_parseCommand_iff.mp ⟨raw, hkeys raw hmem, hspec.symm, hraw⟩⟩
  · intro h
    have hrecord : ∀ id, ∃ record : Option CommandSpecRaw,
        (∀ raw, record = some raw → raw.KeysOnce ∧ raw.id = id ∧
          ∃ spec, specs id = some spec ∧ parseCommand raw = .ok spec) ∧
        (record = none → specs id = none) := by
      intro id
      cases hspecs : specs id with
      | none => exact ⟨none, fun raw hraw => absurd hraw (by simp), fun _ => rfl⟩
      | some spec =>
          obtain ⟨hid, hspellable⟩ := h id spec hspecs
          obtain ⟨raw, hkeys, hraw, hparse⟩ := exists_parseCommand_iff.mpr hspellable
          refine ⟨some raw, ?_, fun hnone => absurd hnone (by simp)⟩
          rintro _ ⟨⟩
          exact ⟨hkeys, hraw.trans hid, spec, rfl, hparse⟩
    choose rawOf hsome hnone using hrecord
    have hfile : ∀ raw ∈ Command.all.filterMap rawOf, rawOf raw.id = some raw := by
      intro raw hraw
      obtain ⟨id, -, hid⟩ := List.mem_filterMap.mp hraw
      rw [(hsome id raw hid).2.1]
      exact hid
    have hids := filterMap_ids_sublist (fun id raw hraw => (hsome id raw hraw).2.1) Command.all
    obtain ⟨reg, hreg⟩ : ∃ reg, parseCommandFile (Command.all.filterMap rawOf) = .ok reg := by
      refine exists_parseCommands_iff.mpr fun raw hraw => ?_
      obtain ⟨spec, -, hparse⟩ := (hsome _ raw (hfile raw hraw)).2.2
      exact ⟨spec, hparse⟩
    refine ⟨Command.all.filterMap rawOf, reg, ?_, hreg, ?_⟩
    · exact fun raw hraw => (hsome _ raw (hfile raw hraw)).1
    · funext id
      cases hraw : rawOf id with
      | none =>
          have hnot : id ∉ (Command.all.filterMap rawOf).map (·.id) := by
            intro hmem
            obtain ⟨raw, hmem, hid⟩ := List.mem_map.mp hmem
            have hthere := hfile raw hmem
            rw [hid, hraw] at hthere
            cases hthere
          rw [get_parseCommands_of_not_mem hreg hnot, hnone id hraw]
          rfl
      | some raw =>
          obtain ⟨-, hid, spec, hspec, hparse⟩ := hsome id raw hraw
          have hmem : raw ∈ Command.all.filterMap rawOf :=
            List.mem_filterMap.mpr ⟨id, id.mem_all, hraw⟩
          obtain ⟨spec', hparse', hget⟩ := get_of_parseCommands hreg
            (hids.nodup (by decide)) hmem
          rw [hparse, Except.ok.injEq] at hparse'
          rw [← hid, hget, ← hparse', hid, hspec]

end MelsecMc
