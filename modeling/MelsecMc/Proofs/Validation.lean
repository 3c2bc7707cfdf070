/-
Does an accepted command file load?

The validator and the loader go over the same records.  What both parse, the field specs of a
command and of its block templates, the loader gets through once the validator has.  Two things
only the loader looks at: the kind of a response entry, of which the validator reads the name,
and the subcommand.  An accepted file loads exactly where these two are in order
(`validated_loads_iff`).

The other direction, that what loads is accepted, does not hold and is not wanted: the
validator is stricter about names.
-/
import MelsecMc.Lib.Lookup
import MelsecMc.Proofs.RepeatField

namespace MelsecMc

/-- The kinds of a response entry. -/
def responseKinds : List String :=
  ["blocks_words_le", "blocks_words_be", "blocks_bits_packed", "blocks_nibbles", "ascii_hex"]

/-- A name, one of the kinds, and perhaps options. -/
def KnownKind (rf : String) : Prop :=
  ∃ name kind params, (rf.toList.splitOn ':').map String.ofList = name :: kind :: params ∧
    kind ∈ responseKinds

/-- A number that is a `u16`. -/
def FitsU16 (i : Int64) : Prop :=
  0 ≤ i.toInt ∧ i.toInt < 65536

/-- A subcommand is absent, one number, or a table in which every number is one. -/
inductive SubcommandFits : Option TomlValue → Prop
  | absent : SubcommandFits none
  | integer {i : Int64} (h : FitsU16 i) : SubcommandFits (some (.integer i))
  | table {entries : List (String × TomlValue)}
      (h : ∀ k i, (k, TomlValue.integer i) ∈ entries → FitsU16 i) :
      SubcommandFits (some (.table entries))

/-- What the validator leaves to the loader. -/
structure LoadsResponse (cmd : CommandSpecRaw) : Prop where
  kinds : ∀ rf ∈ cmd.responseFormat, KnownKind rf
  subcommand : SubcommandFits cmd.subcommand

/-- The spec was built from this record. -/
structure BuiltFrom (cmd : CommandSpecRaw) (spec : CommandSpec) : Prop where
  parsed : parseCommand cmd = .ok spec
  code : spec.commandCode = cmd.commandCode
  fields : spec.requestFields.length = cmd.requestFormat.length
  templates : spec.blockTemplates.length = (cmd.blockTemplates.getD []).length
  entries : spec.responseEntries.length = cmd.responseFormat.length

/-- Every command of the file is found under its id, built from its own record. -/
def LoadsAll (commands : List CommandSpecRaw) : Prop :=
  ∃ reg, CommandRegistry.parseCommandFile commands = .ok reg ∧
    ∀ cmd ∈ commands, ∃ spec, reg.get cmd.id = some spec ∧ BuiltFrom cmd spec

/-! ### One record

The conditions of the loader that the validator does not have, in the terms of the file.
-/

theorem parseResponseFormat_ok_iff {rf : String} :
    (∃ entry, parseResponseFormat rf = .ok entry) ↔ KnownKind rf := by
  unfold parseResponseFormat KnownKind
  cases (rf.toList.splitOn ':').map String.ofList with
  | nil => simp [protocolError]
  | cons name parts =>
      cases parts with
      | nil => simp [protocolError]
      | cons kind params =>
          dsimp only
          constructor
          · rintro ⟨entry, hentry⟩
            refine ⟨name, kind, params, rfl, ?_⟩
            by_contra hnot
            simp only [responseKinds, List.mem_cons, List.not_mem_nil, or_false, not_or] at hnot
            obtain ⟨hle, hbe, hbits, hnibbles, hhex⟩ := hnot
            rw [if_neg hle, if_neg hbe, if_neg hbits, if_neg hnibbles, if_neg hhex] at hentry
            cases hentry
          · rintro ⟨name', kind', params', hparts, hkind⟩
            cases hparts
            simp only [responseKinds, List.mem_cons, List.not_mem_nil, or_false] at hkind
            rcases hkind with rfl | rfl | rfl | rfl | rfl
            · exact ⟨_, rfl⟩
            · exact ⟨_, rfl⟩
            · exact ⟨_, rfl⟩
            · exact ⟨_, rfl⟩
            · exact ⟨_, rfl⟩

theorem u16OfI64_isSome_iff {i : Int64} : (∃ v, u16OfI64 i = some v) ↔ FitsU16 i := by
  unfold u16OfI64 FitsU16
  by_cases h : 0 ≤ i.toInt ∧ i.toInt < 65536
  · rw [if_pos h]
    exact ⟨fun _ => h, fun _ => ⟨_, rfl⟩⟩
  · rw [if_neg h]
    exact ⟨fun ⟨_, hv⟩ => (by cases hv), fun h' => absurd h' h⟩

/-- Entries that are no numbers do not matter. -/
theorem subcommandTable_ok_iff {entries : List (String × TomlValue)} :
    (∃ map, subcommandTable entries = .ok map) ↔
      ∀ k i, (k, TomlValue.integer i) ∈ entries → FitsU16 i := by
  fun_induction subcommandTable entries with
  | case1 => exact ⟨fun _ k i h => absurd h List.not_mem_nil, fun _ => ⟨[], rfl⟩⟩
  | case2 k i entries v hv ih =>
      have hfits := u16OfI64_isSome_iff.mp ⟨v, hv⟩
      constructor
      · rintro ⟨map, hmap⟩ k' i' hmem
        obtain ⟨rest, hrest, -⟩ := bind_eq_ok.mp hmap
        rcases List.mem_cons.mp hmem with heq | hmem
        · cases heq
          exact hfits
        · exact ih.mp ⟨rest, hrest⟩ k' i' hmem
      · intro h
        obtain ⟨rest, hrest⟩ := ih.mpr fun k' i' hmem => h k' i' (.tail _ hmem)
        rw [hrest]
        exact ⟨_, rfl⟩
  | case3 k i entries hnone =>
      constructor
      · rintro ⟨map, hmap⟩
        cases hmap
      · intro h
        obtain ⟨v, hv⟩ := u16OfI64_isSome_iff.mpr (h k i List.mem_cons_self)
        rw [hnone] at hv
        cases hv
  | case4 entry entries hother ih =>
      rw [ih]
      constructor
      · intro h k i hmem
        rcases List.mem_cons.mp hmem with heq | hmem
        · exact absurd heq.symm (hother k i)
        · exact h k i hmem
      · exact fun h k i hmem => h k i (.tail _ hmem)

theorem parseSubcommand_ok_iff {sub : Option TomlValue} :
    (∃ spec, parseSubcommand sub = .ok spec) ↔ SubcommandFits sub := by
  cases sub with
  | none => exact ⟨fun _ => .absent, fun _ => ⟨none, rfl⟩⟩
  | some v =>
      cases v with
      | integer i =>
          rw [parseSubcommand]
          constructor
          · rintro ⟨spec, hspec⟩
            cases hv : u16OfI64 i with
            | none =>
                rw [hv] at hspec
                cases hspec
            | some v => exact .integer (u16OfI64_isSome_iff.mp ⟨v, hv⟩)
          · rintro (_ | h | _)
            obtain ⟨v, hv⟩ := u16OfI64_isSome_iff.mpr h
            rw [hv]
            exact ⟨_, rfl⟩
      | table entries =>
          rw [parseSubcommand]
          constructor
          · rintro ⟨spec, hspec⟩
            obtain ⟨map, hmap, -⟩ := bind_eq_ok.mp hspec
            exact .table (subcommandTable_ok_iff.mp ⟨map, hmap⟩)
          · rintro (_ | _ | h)
            obtain ⟨map, hmap⟩ := subcommandTable_ok_iff.mpr h
            rw [hmap]
            exact ⟨_, rfl⟩
      | other =>
          constructor
          · rintro ⟨spec, hspec⟩
            cases hspec
          · intro h
            cases h

/-- A block template is made when its fields parse. -/
theorem parseBlockTemplates_ok_iff {raws : Option (List BlockTemplateRaw)} :
    (∃ bts, parseBlockTemplates raws = .ok bts) ↔
      ∀ bt ∈ raws.getD [], ∀ f ∈ bt.fields, ∃ spec, parseFieldSpec f = .ok spec := by
  rw [parseBlockTemplates, exists_mapM_iff]
  refine forall₂_congr fun bt _ => ?_
  rw [← exists_mapM_iff]
  constructor
  · rintro ⟨b, hb⟩
    obtain ⟨fields, hfields, -⟩ := bind_eq_ok.mp hb
    exact ⟨fields, hfields⟩
  · rintro ⟨fields, hfields⟩
    rw [hfields]
    exact ⟨_, rfl⟩

theorem fields_of_validateBlockTemplate {id : Command} {reqNames : List String}
    {bt : BlockTemplateRaw} (h : validateBlockTemplate id reqNames bt = .ok ()) :
    ∀ f ∈ bt.fields, ∃ spec, parseFieldSpec f = .ok spec := by
  have hmem : ¬ bt.repeatField ∉ reqNames := fun hnot => hnot (validateBlockTemplate_ok h)
  have hfields : (bt.fields.forM fun f => do let _ ← parseFieldSpec f) = .ok () := by
    rw [validateBlockTemplate, if_neg hmem] at h
    cases hfamily : bt.deviceFamily with
    | none =>
        rw [hfamily] at h
        exact h
    | some df =>
        rw [hfamily] at h
        by_cases hknown : df ∉ knownFamilies
        · dsimp only at h
          rw [if_pos hknown] at h
          cases h
        · dsimp only at h
          rw [if_neg hknown] at h
          exact h
  intro f hf
  obtain ⟨spec, hspec, -⟩ := bind_eq_ok.mp (forM_ok hfields f hf)
  exact ⟨spec, hspec⟩

/-- What an accepted record has in common with one that loads. -/
theorem fields_of_validateCommand {cmd : CommandSpecRaw} (h : validateCommand cmd = .ok ()) :
    (∃ fields, cmd.requestFormat.mapM parseFieldSpec = .ok fields) ∧
      ∃ bts, parseBlockTemplates cmd.blockTemplates = .ok bts := by
  obtain ⟨fields, hfields, h⟩ := bind_eq_ok.mp h
  obtain ⟨u, hblocks, -⟩ := bind_eq_ok.mp h
  refine ⟨⟨fields, hfields⟩, parseBlockTemplates_ok_iff.mpr ?_⟩
  intro bt hbt f hf
  exact fields_of_validateBlockTemplate (forM_ok hblocks bt hbt) f hf

theorem builtFrom_of_parseCommand {cmd : CommandSpecRaw} {spec : CommandSpec}
    (h : parseCommand cmd = .ok spec) : BuiltFrom cmd spec := by
  have hparsed := h
  obtain ⟨fields, hfields, h⟩ := bind_eq_ok.mp h
  obtain ⟨bts, hbts, h⟩ := bind_eq_ok.mp h
  obtain ⟨entries, hentries, h⟩ := bind_eq_ok.mp h
  obtain ⟨sub, -, h⟩ := bind_eq_ok.mp h
  cases h
  exact ⟨hparsed, rfl, (mapM_eq_ok_iff.mp hfields).length_eq.symm,
    (mapM_eq_ok_iff.mp hbts).length_eq.symm, (mapM_eq_ok_iff.mp hentries).length_eq.symm⟩

/-- An accepted record loads exactly when the rest of it is in order. -/
theorem parseCommand_ok_iff {cmd : CommandSpecRaw} (hvalid : validateCommand cmd = .ok ()) :
    (∃ spec, parseCommand cmd = .ok spec) ↔ LoadsResponse cmd := by
  obtain ⟨⟨fields, hfields⟩, bts, hbts⟩ := fields_of_validateCommand hvalid
  have hentries : (∃ entries, parseResponseFormats cmd.responseFormat = .ok entries) ↔
      ∀ rf ∈ cmd.responseFormat, KnownKind rf := by
    rw [parseResponseFormats, exists_mapM_iff]
    exact forall₂_congr fun rf _ => parseResponseFormat_ok_iff
  rw [parseCommand, hfields, ok_bind, hbts, ok_bind]
  constructor
  · rintro ⟨spec, h⟩
    obtain ⟨entries, hok, h⟩ := bind_eq_ok.mp h
    obtain ⟨sub, hsub, -⟩ := bind_eq_ok.mp h
    exact ⟨hentries.mp ⟨entries, hok⟩, parseSubcommand_ok_iff.mp ⟨sub, hsub⟩⟩
  · rintro ⟨hkinds, hfits⟩
    obtain ⟨entries, hok⟩ := hentries.mpr hkinds
    obtain ⟨sub, hsub⟩ := parseSubcommand_ok_iff.mpr hfits
    rw [hok, ok_bind, hsub, ok_bind]
    exact ⟨_, rfl⟩

/-! ### The whole file

The validator refuses a second record with the same id, so no record replaces another.
-/

namespace CommandRegistry

@[simp] theorem get_insert_self (reg : CommandRegistry) (id : Command) (spec : CommandSpec) :
    (reg.insert id spec).get id = some spec := by
  rw [get, insert, List.lookup_cons, beq_self_eq_true]

theorem get_insert_of_ne (reg : CommandRegistry) {id id' : Command} (spec : CommandSpec)
    (h : id' ≠ id) : (reg.insert id spec).get id' = reg.get id' := by
  rw [get, insert, List.lookup_cons, beq_eq_false_iff_ne.mpr h]
  exact Lookup.lookup_filter_ne h reg.byId

/-- Later records with other ids leave a command where it is. -/
theorem get_parseCommands_of_not_mem {id : Command} : ∀ {raws : List CommandSpecRaw}
    {reg reg' : CommandRegistry}, parseCommands reg raws = .ok reg' → id ∉ raws.map (·.id) →
      reg'.get id = reg.get id := by
  intro raws
  induction raws with
  | nil =>
      intro reg reg' h _
      cases h
      rfl
  | cons raw raws ih =>
      intro reg reg' h hnot
      obtain ⟨spec, -, hrest⟩ := bind_eq_ok.mp h
      obtain ⟨hne, hnot⟩ := not_or.mp (List.mem_cons.not.mp hnot)
      rw [ih hrest hnot, get_insert_of_ne _ _ hne]

/-- With distinct ids every record of a loaded file is found. -/
theorem get_of_parseCommands {cmd : CommandSpecRaw} : ∀ {raws : List CommandSpecRaw}
    {reg reg' : CommandRegistry}, parseCommands reg raws = .ok reg' →
      (raws.map (·.id)).Nodup → cmd ∈ raws →
      ∃ spec, parseCommand cmd = .ok spec ∧ reg'.get cmd.id = some spec := by
  intro raws
  induction raws with
  | nil => exact fun _ _ hmem => absurd hmem List.not_mem_nil
  | cons raw raws ih =>
      intro reg reg' h hnodup hmem
      obtain ⟨spec, hspec, hrest⟩ := bind_eq_ok.mp h
      obtain ⟨hnot, hnodup⟩ := List.nodup_cons.mp hnodup
      rcases List.mem_cons.mp hmem with rfl | hmem
      · exact ⟨spec, hspec, by rw [get_parseCommands_of_not_mem hrest hnot, get_insert_self]⟩
      · exact ih hrest hnodup hmem

theorem exists_parseCommands_iff : ∀ {raws : List CommandSpecRaw} {reg : CommandRegistry},
    (∃ reg', parseCommands reg raws = .ok reg') ↔
      ∀ raw ∈ raws, ∃ spec, parseCommand raw = .ok spec := by
  intro raws
  induction raws with
  | nil => exact fun {reg} => ⟨fun _ raw h => absurd h List.not_mem_nil, fun _ => ⟨reg, rfl⟩⟩
  | cons raw raws ih =>
      intro reg
      rw [List.forall_mem_cons, parseCommands]
      constructor
      · rintro ⟨reg', h⟩
        obtain ⟨spec, hspec, hrest⟩ := bind_eq_ok.mp h
        exact ⟨⟨spec, hspec⟩, ih.mp ⟨reg', hrest⟩⟩
      · rintro ⟨⟨spec, hspec⟩, hrest⟩
        rw [hspec, ok_bind]
        exact ih.mpr hrest

end CommandRegistry

/-- Of an accepted file the ids are distinct. -/
theorem nodup_of_validateCommands : ∀ {cmds : List CommandSpecRaw} {ids : List Command},
    validateCommands ids cmds = .ok () → (cmds.map (·.id)).Nodup ∧ ∀ cmd ∈ cmds, cmd.id ∉ ids := by
  intro cmds
  induction cmds with
  | nil => exact fun _ => ⟨List.nodup_nil, fun cmd h => absurd h List.not_mem_nil⟩
  | cons cmd cmds ih =>
      intro ids h
      rw [validateCommands] at h
      split at h
      · cases h
      · rename_i hfresh
        obtain ⟨u, -, hrest⟩ := bind_eq_ok.mp h
        obtain ⟨hnodup, hnot⟩ := ih hrest
        refine ⟨List.nodup_cons.mpr ⟨?_, hnodup⟩, List.forall_mem_cons.mpr ⟨hfresh, ?_⟩⟩
        · intro hmem
          obtain ⟨cmd', hcmd', hid⟩ := List.mem_map.mp hmem
          exact hnot cmd' hcmd' (hid ▸ List.mem_cons_self)
        · exact fun cmd' hcmd' hmem => hnot cmd' hcmd' (.tail _ hmem)

/-- **An accepted file loads completely exactly when every response entry is of one of the kinds
and every subcommand is a `u16` or a table of them.** -/
theorem validated_loads_iff {commands : List CommandSpecRaw}
    (hvalid : CommandRegistry.validateStr commands = .ok ()) :
    LoadsAll commands ↔ ∀ cmd ∈ commands, LoadsResponse cmd := by
  have hcommand : ∀ cmd ∈ commands, validateCommand cmd = .ok () :=
    fun cmd hcmd => validateCommand_of_mem hvalid hcmd
  constructor
  · rintro ⟨reg, -, hfound⟩ cmd hcmd
    obtain ⟨spec, -, hbuilt⟩ := hfound cmd hcmd
    exact (parseCommand_ok_iff (hcommand cmd hcmd)).mp ⟨spec, hbuilt.parsed⟩
  · intro h
    obtain ⟨reg, hreg⟩ := CommandRegistry.exists_parseCommands_iff.mpr
      fun cmd hcmd => (parseCommand_ok_iff (hcommand cmd hcmd)).mpr (h cmd hcmd)
    refine ⟨reg, hreg, fun cmd hcmd => ?_⟩
    obtain ⟨spec, hspec, hget⟩ := CommandRegistry.get_of_parseCommands hreg
      (nodup_of_validateCommands hvalid).1 hcmd
    exact ⟨spec, hget, builtFrom_of_parseCommand hspec⟩

theorem validated_loads_iff_echo :
    LoadsAll [rawEcho] ↔ ∀ cmd ∈ [rawEcho], LoadsResponse cmd :=
  validated_loads_iff (by decide +kernel)

/-- The echo command with a kind of response there is not. -/
def echoHex : CommandSpecRaw :=
  { rawEcho with responseFormat := ["payload:hex"] }

/-- The file is accepted, and the loader refuses it. -/
theorem validated_loads_fails :
    CommandRegistry.validateStr [echoHex] = .ok () ∧
    CommandRegistry.parseCommandFile [echoHex] = protocolError "unsupported response kind: hex" ∧
    ¬ ∀ commands, CommandRegistry.validateStr commands = .ok () → LoadsAll commands := by
  have hload : CommandRegistry.parseCommandFile [echoHex] =
      protocolError "unsupported response kind: hex" := by decide +kernel
  have hvalid : CommandRegistry.validateStr [echoHex] = .ok () := by decide +kernel
  refine ⟨hvalid, hload, fun h => ?_⟩
  obtain ⟨reg, hreg, -⟩ := h _ hvalid
  rw [hload] at hreg
  cases hreg

end MelsecMc
