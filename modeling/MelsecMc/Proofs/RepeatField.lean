/-
The repeat field of a block template.

A command file that is accepted has, for every block template, a request field with the name
of its repeat field (`repeatField_mem`).  What is written into that field is whatever the
encoder makes of the name: the length of a block list for two names, a number of the params
for most.  Of that the low bytes are written, as many as the field has.  So the field counts
the entries where their number fits the width, and where the name stands for their list or
the params happen to give their number (`repeat_field_counts_iff`).

The encoder counts for two names only, and it counts the lists it knows, whatever the
template that names them repeats.
-/
import MelsecMc.Proofs.RequestValues
import MelsecMc.Proofs.BlockRequest
import MelsecMc.Validation

namespace MelsecMc

open Checks

/-! ### What an accepted file contains

The validator looks for the repeat field among the request fields of the same record, and
the loader keeps both.
-/

theorem validateBlockTemplate_ok {id : Command} {reqNames : List String} {bt : BlockTemplateRaw}
    (h : validateBlockTemplate id reqNames bt = .ok ()) : bt.repeatField ∈ reqNames := by
  by_contra hnot
  rw [validateBlockTemplate, if_pos hnot] at h
  cases h

theorem forM_ok {α : Type} {f : α → Except Failure Unit} {l : List α} (h : l.forM f = .ok ()) :
    ∀ a ∈ l, f a = .ok () := by
  induction l with
  | nil => exact fun a ha => absurd ha List.not_mem_nil
  | cons a l ih =>
      obtain ⟨u, ha, hrest⟩ := bind_eq_ok.mp h
      exact List.forall_mem_cons.mpr ⟨ha, ih hrest⟩

theorem validateCommand_of_mem {cmd : CommandSpecRaw} : ∀ {cmds : List CommandSpecRaw}
    {ids : List Command}, validateCommands ids cmds = .ok () → cmd ∈ cmds →
      validateCommand cmd = .ok () := by
  intro cmds
  induction cmds with
  | nil =>
      intro ids _ hmem
      exact absurd hmem List.not_mem_nil
  | cons head cmds ih =>
      intro ids h hmem
      rw [validateCommands] at h
      split at h
      · cases h
      · obtain ⟨u, hhead, hrest⟩ := bind_eq_ok.mp h
        rcases List.mem_cons.mp hmem with rfl | hmem
        · exact hhead
        · exact ih hrest hmem

/-- What the registry holds was parsed from a record of the file. -/
theorem CommandRegistry.mem_of_parseCommands {entry : Command × CommandSpec} :
    ∀ {raws : List CommandSpecRaw} {reg reg' : CommandRegistry},
      parseCommands reg raws = .ok reg' → entry ∈ reg'.byId →
        entry ∈ reg.byId ∨ ∃ raw ∈ raws, parseCommand raw = .ok entry.2 := by
  intro raws
  induction raws with
  | nil =>
      intro reg reg' h hmem
      cases h
      exact .inl hmem
  | cons raw raws ih =>
      intro reg reg' h hmem
      obtain ⟨spec, hspec, hrest⟩ := bind_eq_ok.mp h
      rcases ih hrest hmem with hold | ⟨raw', hraw', hparse⟩
      · rcases List.mem_cons.mp hold with rfl | hold
        · exact .inr ⟨raw, List.mem_cons_self, hspec⟩
        · exact .inl (List.mem_of_mem_filter hold)
      · exact .inr ⟨raw', .tail raw hraw', hparse⟩

/-- A command that was loaded comes from a record. -/
theorem CommandRegistry.parseCommand_of_get {commands : List CommandSpecRaw}
    {reg : CommandRegistry} (hload : parseCommandFile commands = .ok reg) {id : Command}
    {spec : CommandSpec} (hget : reg.get id = some spec) :
    ∃ raw ∈ commands, parseCommand raw = .ok spec := by
  rcases mem_of_parseCommands hload (mem_of_get hget) with hnone | hraw
  · exact absurd hnone List.not_mem_nil
  · exact hraw

/-- **An accepted file has the header field of every block template.** -/
theorem repeatField_mem {commands : List CommandSpecRaw} {reg : CommandRegistry}
    (hvalid : CommandRegistry.validateStr commands = .ok ())
    (hload : CommandRegistry.parseCommandFile commands = .ok reg) {id : Command}
    {spec : CommandSpec} (hget : reg.get id = some spec) {bt : BlockTemplate}
    (hbt : bt ∈ spec.blockTemplates) :
    ∃ f ∈ spec.requestFields, f.name = bt.repeatField := by
  obtain ⟨raw, hraw, hparse⟩ := CommandRegistry.parseCommand_of_get hload hget
  have hcommand := validateCommand_of_mem hvalid hraw
  rw [parseCommand] at hparse
  obtain ⟨fields, hfields, hparse⟩ := bind_eq_ok.mp hparse
  obtain ⟨templates, htemplates, hparse⟩ := bind_eq_ok.mp hparse
  obtain ⟨entries, -, hparse⟩ := bind_eq_ok.mp hparse
  obtain ⟨sub, -, hparse⟩ := bind_eq_ok.mp hparse
  cases hparse
  obtain ⟨btRaw, hbtRaw, hmade⟩ := (mem_of_mapM_eq_ok htemplates).2 bt hbt
  obtain ⟨btFields, -, hmade⟩ := bind_eq_ok.mp hmade
  cases hmade
  rw [validateCommand] at hcommand
  obtain ⟨fields', hfields', hcommand⟩ := bind_eq_ok.mp hcommand
  rw [hfields, Except.ok.injEq] at hfields'
  obtain ⟨u, hblocks, -⟩ := bind_eq_ok.mp hcommand
  have hmem := validateBlockTemplate_ok (forM_ok hblocks btRaw hbtRaw)
  rw [← hfields'] at hmem
  exact List.mem_map.mp hmem

/-! ### What is written into the header field

The encoder does not know that the field is to count anything.  It writes the number it finds for
the name, cut to the width of the field.
-/

section Counts

variable {T : DeviceTable} {spec : CommandSpec} {params : JsonValue} {plcSeries : Option PlcSeries}
  {bt : BlockTemplate}

/-- Where every entry is an object, none of the list is left out. -/
theorem length_blockEntries (h : BlocksGiven params bt) :
    (blockEntries params bt).length = (givenBlocks params (bt.name ++ "s")).length := by
  obtain ⟨arr, harr, hobjects⟩ := h
  rw [blockEntries, givenBlocks, harr, Option.getD_some]
  clear harr
  induction arr with
  | nil => rfl
  | cons entry arr ih =>
      obtain ⟨hentry, hrest⟩ := List.forall_mem_cons.mp hobjects
      obtain ⟨map, hmap⟩ := Option.isSome_iff_exists.mp hentry
      rw [List.filterMap_cons_some hmap, List.length_cons, List.length_cons, ih hrest]

/-- The two computed names give the length of their list. -/
theorem BlockTemplate.CountsItself.given (h : bt.CountsItself) (hblocks : BlocksGiven params bt)
    {f : FieldSpec} (hname : f.name = bt.repeatField) :
    Slot.given spec params plcSeries ⟨.request, f⟩ = some (blockEntries params bt).length := by
  rw [length_blockEntries hblocks]
  rcases h with ⟨hfield, hlist⟩ | ⟨hfield, hlist⟩
  · rw [hlist]
    simp only [Slot.given, hname, hfield]
    rfl
  · rw [hlist]
    simp only [Slot.given, hname, hfield]
    rfl

theorem RepeatCounts.fits {out : Bytes} (h : RepeatCounts spec params plcSeries out bt) :
    RepeatFits spec params plcSeries bt := by
  obtain ⟨chunks, hwritten, -, hcounts⟩ := h
  intro f hf hname
  have hslot : (⟨.request, f⟩ : Slot) ∈ slots spec params :=
    List.mem_append_left _ (List.mem_map.mpr ⟨f, hf, rfl⟩)
  obtain ⟨chunk, hchunk, hslot⟩ := hwritten.each.forall₂_iff.mp hcounts ⟨.request, f⟩ hslot
  obtain ⟨w, le, hwidth, hnumber⟩ := hslot rfl hname
  obtain ⟨n, hgiven, -, hwrote⟩ := Slot.written hchunk hwidth
  rw [hnumber] at hwrote
  refine ⟨w, le, hwidth, ?_, .inr ⟨n, hgiven, ?_⟩⟩
  · rw [hwrote]
    exact Nat.mod_lt _ (Nat.pow_pos (by decide))
  · rw [hwrote]
    exact (Nat.mod_modEq _ _).symm

theorem RepeatFits.counts {slot : Slot} {chunk : Bytes}
    (hfits : RepeatFits spec params plcSeries bt) (hblocks : BlocksGiven params bt)
    (hslot : slot ∈ slots spec params)
    (hchunk : Slot.write spec params plcSeries [] slot = .ok chunk) :
    Slot.CountsEntries params plcSeries bt slot chunk := by
  intro horigin hname
  obtain ⟨origin, f⟩ := slot
  cases horigin
  have hf : f ∈ spec.requestFields := by
    rcases List.mem_append.mp hslot with hrequest | hblock
    · obtain ⟨f', hf', heq⟩ := List.mem_map.mp hrequest
      cases heq
      exact hf'
    · obtain ⟨bt', -, hblock⟩ := List.mem_flatMap.mp hblock
      obtain ⟨map, -, hfield⟩ := List.mem_flatMap.mp hblock
      obtain ⟨f', -, heq⟩ := List.mem_map.mp hfield
      cases heq
  obtain ⟨w, le, hwidth, hlt, hgives⟩ := hfits f hf hname
  obtain ⟨n, hgiven, -, hnumber⟩ := Slot.written hchunk hwidth
  have hmod : n ≡ (blockEntries params bt).length [MOD 256 ^ min w 8] := by
    rcases hgives with hitself | ⟨n', hgiven', hmod⟩
    · rw [hitself.given hblocks hname, Option.some.injEq] at hgiven
      rw [hgiven]
    · rw [hgiven, Option.some.injEq] at hgiven'
      rw [hgiven']
      exact hmod
  refine ⟨w, le, hwidth, ?_⟩
  rw [hnumber, hmod, Nat.mod_eq_of_lt hlt]

/-- **The header field of a block template counts the entries** exactly when their number fits
its width, and is what the field stands for or what the params give for it. -/
theorem repeat_field_counts_iff {commands : List CommandSpecRaw} {reg : CommandRegistry}
    (hvalid : CommandRegistry.validateStr commands = .ok ())
    (hload : CommandRegistry.parseCommandFile commands = .ok reg) {id : Command}
    (hget : reg.get id = some spec) (hbt : bt ∈ spec.blockTemplates) {out : Bytes}
    (hout : spec.buildRequest T params plcSeries = .ok out) :
    RepeatCounts spec params plcSeries out bt ↔ RepeatFits spec params plcSeries bt := by
  refine ⟨RepeatCounts.fits, fun hfits => ?_⟩
  obtain ⟨chunks, hwritten⟩ := buildRequest_isWritten hout
  obtain ⟨⟨-, -, hblocks⟩, -⟩ := buildRequest_eq_ok_iff.mp hout
  refine ⟨chunks, hwritten, repeatField_mem hvalid hload hget hbt, ?_⟩
  refine hwritten.each.forall₂_iff.mpr fun slot hslot => ?_
  obtain ⟨chunk, hchunk⟩ := hwritten.each.exists slot hslot
  exact ⟨chunk, hchunk, hfits.counts (hblocks bt hbt) hslot hchunk⟩

end Counts

/-! ### A file with counted blocks -/

/-- The block templates of the shipped file, with the header fields they name. -/
def countedBlocksFile : List CommandSpecRaw :=
  [{ rawWriteBlocks with requestFormat := blockHeader }]

def countedBlocksSpec : CommandSpec :=
  { writeBlocksSpec with requestFields := blockFields }

def countedBlocksRegistry : CommandRegistry :=
  ⟨[(.writeBlocks, countedBlocksSpec)]⟩

theorem countedBlocks_accepted :
    CommandRegistry.validateStr countedBlocksFile = .ok () ∧
      CommandRegistry.parseCommandFile countedBlocksFile = .ok countedBlocksRegistry := by
  decide +kernel

/-- So many word blocks of `D100`, and no bit block. -/
def manyWordBlocks (n : Nat) : JsonValue :=
  .object [("word_blocks", .array (List.replicate n (.object [("start_addr", .ofNat 100),
    ("device_code", .ofNat 0xA8), ("count", .ofNat 1)]))), ("bit_blocks", .array [])]

def wordBlockTemplate : BlockTemplate :=
  ⟨"word_block", "word_block_count", blockEntryFields, some .word⟩

theorem repeat_field_counts_iff_one :
    RepeatCounts countedBlocksSpec (manyWordBlocks 1) (some .q)
        [0x06, 0x14, 0x00, 0x00, 0x01, 0x00, 100, 0x00, 0x00, 0xA8, 0x01, 0x00]
        wordBlockTemplate ↔
      RepeatFits countedBlocksSpec (manyWordBlocks 1) (some .q) wordBlockTemplate := by
  have hbuilt : countedBlocksSpec.buildRequest twoDevices (manyWordBlocks 1) (some .q) =
      .ok [0x06, 0x14, 0x00, 0x00, 0x01, 0x00, 100, 0x00, 0x00, 0xA8, 0x01, 0x00] := by
    decide +kernel
  have hget : countedBlocksRegistry.get .writeBlocks = some countedBlocksSpec := rfl
  exact repeat_field_counts_iff countedBlocks_accepted.1 countedBlocks_accepted.2 hget
    List.mem_cons_self hbuilt

/-- Of 256 blocks the header says 0. -/
theorem repeat_field_counts_fails :
    ¬ ∀ (T : DeviceTable) (commands : List CommandSpecRaw) (reg : CommandRegistry) (id : Command)
        (spec : CommandSpec) (params : JsonValue) (plcSeries : Option PlcSeries) (out : Bytes)
        (bt : BlockTemplate),
      CommandRegistry.validateStr commands = .ok () →
      CommandRegistry.parseCommandFile commands = .ok reg → reg.get id = some spec →
      bt ∈ spec.blockTemplates → spec.buildRequest T params plcSeries = .ok out →
      RepeatCounts spec params plcSeries out bt := by
  intro h
  have hbuilds : (countedBlocksSpec.buildRequest twoDevices (manyWordBlocks 256) (some .q)).isOk =
      true := by
    decide +kernel
  cases hbuilt : countedBlocksSpec.buildRequest twoDevices (manyWordBlocks 256) (some .q) with
  | error e =>
      rw [hbuilt] at hbuilds
      cases hbuilds
  | ok out =>
      have hcounts := h twoDevices countedBlocksFile countedBlocksRegistry .writeBlocks
        countedBlocksSpec (manyWordBlocks 256) (some .q) out wordBlockTemplate
        countedBlocks_accepted.1 countedBlocks_accepted.2 rfl List.mem_cons_self hbuilt
      obtain ⟨w, le, hwidth, hlt, -⟩ := hcounts.fits ⟨"word_block_count", .fixedBytes 1 true⟩
        (by decide) rfl
      have hlength : (blockEntries (manyWordBlocks 256) wordBlockTemplate).length = 256 := by
        decide +kernel
      have hone : w = 1 := by
        have hpair : some (1, true) = some (w, le) := hwidth
        simp only [Option.some.injEq, Prod.mk.injEq] at hpair
        exact hpair.1.symm
      rw [hlength, hone] at hlt
      exact absurd hlt (by decide)

end MelsecMc
