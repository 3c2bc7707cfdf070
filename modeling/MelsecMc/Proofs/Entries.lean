/-
What one entry of a response does to another.

All entries of a response share the offset and the result.  An entry of blocks stores its
blocks under its own name when it has read them all, so that with distinct names nothing it
does before can be seen in another entry.  One thing can: a one-word block of a bit device
is reported a second time under `bit_blocks`, and where an entry has stored blocks under that
name already, the report is appended to them.  `decoded_iff` says that this is all that can
go wrong.
-/
import MelsecMc.Proofs.BlockKinds

namespace MelsecMc

/-! ### What should be stored

The statement is about one entry at a time: it finds the blocks the entries in front of it
have left, and stores them under its name.
-/

/-- The blocks in the bytes of an entry, one for each descriptor. -/
def decodeBlocks (kind : BlockKind) : List JsonValue → Bytes → List (List JsonValue)
  | [], _ => []
  | d :: descriptors, bytes =>
      kind.items (blockPoints d) (bytes.take (kind.need (blockPoints d))) ::
        decodeBlocks kind descriptors (bytes.drop (kind.need (blockPoints d)))

/-- The number of bytes of an entry, of those that are left. -/
def entryLength (params : JsonValue) (entry : ResponseEntry) (left : Nat) : Nat :=
  match entry.kind with
  | some kind =>
      ((CommandSpec.cachedArray params entry.name).map fun d => kind.need (blockPoints d)).sum
  | none => left

/-- The bytes of an entry start behind those of the entries before it. -/
def entryStart (params : JsonValue) (bytes : Bytes) (before : List ResponseEntry) : Nat :=
  before.foldl (fun offset entry => offset + entryLength params entry (bytes.length - offset)) 0

/-- Under the name of the entry are its blocks and nothing else: one for each descriptor, with
as many points as the descriptor says, decoded from the entry's own bytes. -/
def StoresItsBlocks (params : JsonValue) (bytes : Bytes) (resultMap : JsonMap) (kind : BlockKind)
    (entry : ResponseEntry) (offset : Nat) : Prop :=
  ∃ blocks, blocks = decodeBlocks kind (CommandSpec.cachedArray params entry.name)
      (bytes.drop offset) ∧
    List.Forall₂ (fun d block => announcedCount d = some block.length)
      (CommandSpec.cachedArray params entry.name) blocks ∧
    resultMap.get entry.name = some (.array (blocks.map .array))

/-- Every entry of blocks has its blocks in the result. -/
def EntriesDecoded (spec : CommandSpec) (params : JsonValue) (bytes : Bytes)
    (result : JsonValue) : Prop :=
  ∀ before entry after kind, spec.responseEntries = before ++ entry :: after →
    entry.kind = some kind →
    ∃ resultMap, result = .object resultMap ∧
      StoresItsBlocks params bytes resultMap kind entry (entryStart params bytes before)

/-! ### What disturbs it -/

/-- A block of one word, of a bit device. -/
def ReportsBits (T : DeviceTable) (params block : JsonValue) : Prop :=
  announcedCount block = some 1 ∧
    ∃ dev, (((block.asObject.bind (·.get "device_code")).bind JsonValue.asU64).or
        ((params.get "device_code").bind JsonValue.asU64)).bind (knownDevice T) = some dev ∧
      dev.category = .bit

/-- The descriptors have such a block, and it is read as words. -/
def Disturbs (T : DeviceTable) (params : JsonValue) (kind : BlockKind)
    (descriptors : List JsonValue) : Prop :=
  (∃ le, kind = .words le) ∧ ∃ d ∈ descriptors, ReportsBits T params d

/-- The entry has such a block. -/
def ResponseEntry.Disturbs (T : DeviceTable) (params : JsonValue) (entry : ResponseEntry) : Prop :=
  ∃ kind, entry.kind = some kind ∧
    MelsecMc.Disturbs T params kind (CommandSpec.cachedArray params entry.name)

/-- Behind an entry of blocks named `bit_blocks` none of the words is a word of a bit device. -/
def Undisturbed (T : DeviceTable) (spec : CommandSpec) (params : JsonValue) : Prop :=
  ∀ before entry after, spec.responseEntries = before ++ entry :: after →
    entry.kind.isSome → entry.name = "bit_blocks" →
    ∀ later ∈ after, ¬ later.Disturbs T params

section Entries

variable {T : DeviceTable} {params : JsonValue} {bytes : Bytes}

/-! ### One block

A block is stored, and if it is one word of a bit device it is reported as a bit as well.
-/

theorem get_pushArray_of_ne {resultMap : JsonMap} {key : String} (value : JsonValue)
    (h : key ≠ "bit_blocks") :
    (pushArrayInResultMap resultMap "bit_blocks" value).get key = resultMap.get key := by
  unfold pushArrayInResultMap
  split
  · exact JsonMap.get_insert_of_ne _ _ h
  · exact JsonMap.get_insert_of_ne _ _ h

theorem get_pushArray_self {resultMap : JsonMap} {key : String} {arr : List JsonValue}
    (h : resultMap.get key = some (.array arr)) (value : JsonValue) :
    (pushArrayInResultMap resultMap key value).get key = some (.array (arr ++ [value])) := by
  rw [pushArrayInResultMap, h, Option.bind_some, JsonValue.asArray_array]
  exact JsonMap.get_insert_self _ _ _

theorem disturbs_singleton {le : Bool} {block : JsonValue} :
    Disturbs T params (.words le) [block] ↔ ReportsBits T params block := by
  constructor
  · rintro ⟨-, d, hd, hreports⟩
    rw [List.mem_singleton.mp hd] at hreports
    exact hreports
  · exact fun h => ⟨⟨le, rfl⟩, block, List.mem_singleton.mpr rfl, h⟩

/-- One word of a bit device is reported, everything else is not. -/
theorem reportBits_cases {block : JsonValue} {words : List UInt16}
    (hcount : announcedCount block = some words.length) (resultMap : JsonMap) :
    (ReportsBits T params block ∧ ∃ bits,
      CommandSpec.reportBits T params block words.length (jsonWords words) resultMap =
        pushArrayInResultMap resultMap "bit_blocks" bits) ∨
    (¬ ReportsBits T params block ∧
      CommandSpec.reportBits T params block words.length (jsonWords words) resultMap =
        resultMap) := by
  unfold CommandSpec.reportBits ReportsBits
  dsimp only
  cases ((block.asObject.bind (·.get "device_code")).bind JsonValue.asU64).or
      ((params.get "device_code").bind JsonValue.asU64) with
  | none =>
      refine .inr ⟨?_, rfl⟩
      rintro ⟨-, dev, hdev, -⟩
      cases hdev
  | some dc =>
      dsimp only
      rw [Option.bind_some, knownDevice]
      by_cases hrange : 256 ≤ dc.toNat
      · rw [if_pos hrange, if_pos hrange]
        refine .inr ⟨?_, rfl⟩
        rintro ⟨-, dev, hdev, -⟩
        cases hdev
      · rw [if_neg hrange, if_neg hrange]
        cases T.deviceByCode (UInt8.ofNat dc.toNat) with
        | none =>
            refine .inr ⟨?_, rfl⟩
            rintro ⟨-, dev, hdev, -⟩
            cases hdev
        | some dev =>
            dsimp only
            by_cases hreports : dev.category = .bit ∧ words.length = 1
            · obtain ⟨hbit, hone⟩ := hreports
              obtain ⟨w, rfl⟩ := List.length_eq_one_iff.mp hone
              rw [if_pos ⟨hbit, hone⟩]
              exact .inl ⟨⟨hcount, dev, rfl, hbit⟩, _, rfl⟩
            · rw [if_neg hreports]
              refine .inr ⟨?_, rfl⟩
              rintro ⟨hone, dev', hdev, hbit⟩
              cases hdev
              rw [hcount, Option.some.injEq] at hone
              exact hreports ⟨hbit, hone⟩

/-- A block reports its bits, or the result stays as it is. -/
theorem report_cases (kind : BlockKind) {block : JsonValue} {count : Nat} {chunk : Bytes}
    (hcount : announcedCount block = some count) (hlen : chunk.length = kind.need count)
    (resultMap : JsonMap) :
    (Disturbs T params kind [block] ∧ ∃ bits,
      kind.report T params block count (kind.items count chunk) resultMap =
        pushArrayInResultMap resultMap "bit_blocks" bits) ∨
    (¬ Disturbs T params kind [block] ∧
      kind.report T params block count (kind.items count chunk) resultMap = resultMap) := by
  cases kind with
  | words le =>
      have hwords : (chunkWords le chunk).length = count :=
        (blockBytes_chunkWords le count chunk hlen).2
      rw [disturbs_singleton, BlockKind.report, BlockKind.items, ← hwords]
      exact reportBits_cases (by rw [hwords]; exact hcount) resultMap
  | bitsPacked lsbFirst =>
      refine .inr ⟨?_, rfl⟩
      rintro ⟨⟨le, hle⟩, -⟩
      cases hle
  | nibbles highFirst =>
      refine .inr ⟨?_, rfl⟩
      rintro ⟨⟨le, hle⟩, -⟩
      cases hle

/-- What a part of the parse leaves of an array stored before: under `bit_blocks` something is
appended to it if the part disturbs, and that is all. -/
def Appends (key : String) (disturbs : Prop) (before after : JsonMap) : Prop :=
  ∀ arr, before.get key = some (.array arr) → ∃ extra,
    after.get key = some (.array (arr ++ extra)) ∧
      (extra = [] ↔ ¬ (key = "bit_blocks" ∧ disturbs))

theorem Appends.refl {key : String} {disturbs : Prop} (h : ¬ disturbs) (resultMap : JsonMap) :
    Appends key disturbs resultMap resultMap :=
  fun arr harr => ⟨[], by rw [List.append_nil, harr], fun _ h' => h h'.2, fun _ => rfl⟩

theorem Appends.trans {key : String} {p q : Prop} {m₁ m₂ m₃ : JsonMap} (h₁ : Appends key p m₁ m₂)
    (h₂ : Appends key q m₂ m₃) : Appends key (p ∨ q) m₁ m₃ := by
  intro arr harr
  obtain ⟨extra₁, hget₁, hnil₁⟩ := h₁ arr harr
  obtain ⟨extra₂, hget₂, hnil₂⟩ := h₂ _ hget₁
  refine ⟨extra₁ ++ extra₂, by rw [hget₂, List.append_assoc], ?_⟩
  rw [List.append_eq_nil_iff, hnil₁, hnil₂]
  constructor
  · rintro ⟨hp, hq⟩ ⟨hkey, h | h⟩
    · exact hp ⟨hkey, h⟩
    · exact hq ⟨hkey, h⟩
  · intro h
    exact ⟨fun hp => h ⟨hp.1, .inl hp.2⟩, fun hq => h ⟨hq.1, .inr hq.2⟩⟩

theorem Appends.congr {key : String} {p q : Prop} {m₁ m₂ : JsonMap} (h : Appends key p m₁ m₂)
    (hpq : p ↔ q) : Appends key q m₁ m₂ := by
  intro arr harr
  obtain ⟨extra, hget, hnil⟩ := h arr harr
  exact ⟨extra, hget, by rw [hnil, hpq]⟩

/-- A block. -/
theorem appends_report (kind : BlockKind) {block : JsonValue} {count : Nat} {chunk : Bytes}
    (hcount : announcedCount block = some count) (hlen : chunk.length = kind.need count)
    (key : String) (resultMap : JsonMap) :
    Appends key (Disturbs T params kind [block]) resultMap
      (kind.report T params block count (kind.items count chunk) resultMap) := by
  rcases @report_cases T params kind block count chunk hcount hlen resultMap with
    ⟨hdisturbs, bits, hreport⟩ | ⟨hquiet, hreport⟩
  · rw [hreport]
    intro arr harr
    by_cases hkey : key = "bit_blocks"
    · subst hkey
      refine ⟨[bits], get_pushArray_self harr bits, ?_⟩
      exact ⟨fun h => (by cases h), fun h => absurd ⟨rfl, hdisturbs⟩ h⟩
    · refine ⟨[], ?_, fun _ h => hkey h.1, fun _ => rfl⟩
      rw [get_pushArray_of_ne bits hkey, harr, List.append_nil]
  · rw [hreport]
    exact Appends.refl hquiet resultMap

/-! ### The blocks of an entry -/

/-- What reading the blocks of an entry comes to. -/
structure BlocksRead (T : DeviceTable) (params : JsonValue) (kind : BlockKind)
    (descriptors : List JsonValue) (bytes : Bytes) (acc acc' : List JsonValue × ParseState) :
    Prop where
  offset : acc'.2.offset =
    acc.2.offset + (descriptors.map fun d => kind.need (blockPoints d)).sum
  stored : acc'.1 =
    acc.1 ++ (decodeBlocks kind descriptors (bytes.drop acc.2.offset)).map .array
  counts : List.Forall₂ (fun d block => announcedCount d = some block.length) descriptors
    (decodeBlocks kind descriptors (bytes.drop acc.2.offset))
  appends : ∀ key, Appends key (Disturbs T params kind descriptors) acc.2.resultMap
    acc'.2.resultMap

theorem disturbs_cons {kind : BlockKind} {d : JsonValue} {descriptors : List JsonValue} :
    (Disturbs T params kind [d] ∨ Disturbs T params kind descriptors) ↔
      Disturbs T params kind (d :: descriptors) := by
  unfold Disturbs
  rw [← and_or_left, List.exists_mem_cons_iff, List.exists_mem_cons_iff]
  simp only [List.not_mem_nil, false_and, exists_false, or_false]

theorem blocksRead {kind : BlockKind} {name : String} {descriptors : List JsonValue} :
    ∀ {acc acc' : List JsonValue × ParseState},
      descriptors.foldlM (fun acc block => kind.parse T name params bytes acc block) acc =
        .ok acc' → BlocksRead T params kind descriptors bytes acc acc' := by
  induction descriptors with
  | nil =>
      intro acc acc' h
      cases h
      refine ⟨rfl, (List.append_nil _).symm, .nil, fun key => Appends.refl ?_ _⟩
      rintro ⟨-, d, hd, -⟩
      exact absurd hd List.not_mem_nil
  | cons d descriptors ih =>
      rintro ⟨out, offset, resultMap⟩ acc' h
      rw [List.foldlM_cons] at h
      obtain ⟨mid, hmid, hrest⟩ := bind_eq_ok.mp h
      obtain ⟨count, hcount, hle, rfl⟩ := kind.parse_eq_ok hmid
      have hpoints : blockPoints d = count := by rw [blockPoints, hcount, Option.getD_some]
      have hlen : ((bytes.drop offset).take (kind.need count)).length = kind.need count := by
        rw [List.length_take, List.length_drop]
        omega
      obtain ⟨hoffset, hstored, hcounts, happends⟩ := ih hrest
      dsimp only at hoffset hstored hcounts happends
      rw [← List.drop_drop] at hstored hcounts
      refine ⟨?_, ?_, ?_, fun key => ?_⟩
      · rw [hoffset, List.map_cons, List.sum_cons, hpoints, Nat.add_assoc]
      · rw [hstored, decodeBlocks, hpoints, List.map_cons, List.append_assoc, List.singleton_append]
      · rw [decodeBlocks, hpoints]
        refine .cons ?_ hcounts
        rw [kind.length_items hlen]
        exact hcount
      · exact ((appends_report kind hcount hlen key resultMap).trans (happends key)).congr
          disturbs_cons

/-! ### One entry -/

/-- What reading an entry comes to. -/
structure EntryRead (T : DeviceTable) (params : JsonValue) (bytes : Bytes) (entry : ResponseEntry)
    (st st' : ParseState) : Prop where
  offset : st'.offset = st.offset + entryLength params entry (bytes.length - st.offset)
  appends : ∀ key, key ≠ entry.name →
    Appends key (entry.Disturbs T params) st.resultMap st'.resultMap
  stores : ∀ kind, entry.kind = some kind →
    StoresItsBlocks params bytes st'.resultMap kind entry st.offset

/-- A string moves behind the last byte, and disturbs nothing. -/
theorem entryRead_asciiHex {name : String} {st st' : ParseState}
    (h : CommandSpec.parseAsciiHexEntry name bytes st = .ok st') :
    EntryRead T params bytes (.asciiHex name) st st' := by
  unfold CommandSpec.parseAsciiHexEntry at h
  by_cases hbeyond : bytes.length < st.offset
  · rw [if_pos hbeyond] at h
    cases h
  · rw [if_neg hbeyond] at h
    dsimp only at h
    cases hfind : (bytes.drop st.offset).find? fun b => !CommandSpec.isAsciiHex b with
    | some b =>
        rw [hfind] at h
        cases h
    | none =>
        rw [hfind, Except.ok.injEq] at h
        subst h
        refine ⟨?_, fun key hkey arr harr => ⟨[], ?_, fun _ h => ?_, fun _ => rfl⟩,
          fun kind hkind => by cases hkind⟩
        · show bytes.length = st.offset + (bytes.length - st.offset)
          omega
        · have hne : key ≠ name := hkey
          dsimp only
          rw [JsonMap.get_insert_of_ne _ _ hne, harr, List.append_nil]
        · obtain ⟨-, kind, hkind, -⟩ := h
          cases hkind

/-- An entry of blocks stores them last, over whatever its words have reported. -/
theorem entryRead {entry : ResponseEntry} {st st' : ParseState}
    (h : CommandSpec.parseResponseEntry T params bytes st entry = .ok st') :
    EntryRead T params bytes entry st st' := by
  cases hkind : entry.kind with
  | none =>
      cases entry with
      | asciiHex name => exact entryRead_asciiHex h
      | _ => cases hkind
  | some kind =>
      rw [parseResponseEntry_blocks hkind, CommandSpec.parseBlocks] at h
      obtain ⟨⟨out, mid⟩, hread, hinsert⟩ := bind_eq_ok.mp h
      cases hinsert
      obtain ⟨hoffset, hstored, hcounts, happends⟩ := blocksRead hread
      dsimp only at hoffset hstored hcounts happends
      rw [List.nil_append] at hstored
      refine ⟨?_, fun key hkey => ?_, fun kind' hkind' => ?_⟩
      · rw [hoffset, entryLength, hkind]
      · have hdisturbs : Disturbs T params kind (CommandSpec.cachedArray params entry.name) ↔
            entry.Disturbs T params := by
          constructor
          · exact fun hd => ⟨kind, hkind, hd⟩
          · rintro ⟨kind', hkind', hd⟩
            rw [hkind, Option.some.injEq] at hkind'
            rw [hkind']
            exact hd
        intro arr harr
        obtain ⟨extra, hget, hnil⟩ := (happends key).congr hdisturbs arr harr
        exact ⟨extra, by rw [JsonMap.get_insert_of_ne _ _ hkey, hget], hnil⟩
      · rw [hkind, Option.some.injEq] at hkind'
        subst hkind'
        refine ⟨_, rfl, hcounts, ?_⟩
        rw [JsonMap.get_insert_self, hstored]

/-! ### Entries in a row

The offset of an entry is the sum of what the entries in front of it have read.  What they stored
is not its business, but for the reports of bits.
-/

/-- Every entry starts where the ones before it end. -/
theorem offset_entries {entries : List ResponseEntry} : ∀ {st st' : ParseState},
    entries.foldlM (CommandSpec.parseResponseEntry T params bytes) st = .ok st' →
    st'.offset = entries.foldl
      (fun offset entry => offset + entryLength params entry (bytes.length - offset))
      st.offset := by
  induction entries with
  | nil =>
      intro st st' h
      cases h
      rfl
  | cons entry entries ih =>
      intro st st' h
      rw [List.foldlM_cons] at h
      obtain ⟨mid, hentry, hrest⟩ := bind_eq_ok.mp h
      rw [ih hrest, (entryRead hentry).offset, List.foldl_cons]

/-- What entries leave of an array that none of them is named after. -/
theorem appends_entries {key : String} {entries : List ResponseEntry} : ∀ {st st' : ParseState},
    entries.foldlM (CommandSpec.parseResponseEntry T params bytes) st = .ok st' →
    (∀ entry ∈ entries, key ≠ entry.name) →
    Appends key (∃ entry ∈ entries, entry.Disturbs T params) st.resultMap st'.resultMap := by
  induction entries with
  | nil =>
      intro st st' h hnames
      cases h
      refine Appends.refl ?_ _
      rintro ⟨entry, hentry, -⟩
      exact absurd hentry List.not_mem_nil
  | cons entry entries ih =>
      intro st st' h hnames
      rw [List.foldlM_cons] at h
      obtain ⟨mid, hentry, hrest⟩ := bind_eq_ok.mp h
      have hhead := (entryRead hentry).appends key (hnames entry List.mem_cons_self)
      have htail := ih hrest fun later hlater => hnames later (.tail _ hlater)
      exact (hhead.trans htail).congr (List.exists_mem_cons_iff _ _ _).symm

theorem parseResponse_eq_ok {spec : CommandSpec} {result : JsonValue}
    (h : CommandSpec.parseResponse T spec params bytes = .ok result) :
    ∃ st, spec.responseEntries.foldlM (CommandSpec.parseResponseEntry T params bytes) ⟨0, []⟩ =
      .ok st ∧ result = .object st.resultMap := by
  obtain ⟨st, hst, hresult⟩ := bind_eq_ok.mp h
  cases hresult
  exact ⟨st, hst, rfl⟩

/-- One entry among the others: its blocks are in the result unless something is appended. -/
theorem storesItsBlocks_iff {before after : List ResponseEntry} {entry : ResponseEntry}
    {kind : BlockKind} {st : ParseState} (hkind : entry.kind = some kind)
    (hnames : ∀ later ∈ after, entry.name ≠ later.name)
    (h : (before ++ entry :: after).foldlM (CommandSpec.parseResponseEntry T params bytes) ⟨0, []⟩ =
      .ok st) :
    StoresItsBlocks params bytes st.resultMap kind entry (entryStart params bytes before) ↔
      ¬ (entry.name = "bit_blocks" ∧ ∃ later ∈ after, later.Disturbs T params) := by
  rw [List.foldlM_append] at h
  obtain ⟨st₁, hbefore, h⟩ := bind_eq_ok.mp h
  rw [List.foldlM_cons] at h
  obtain ⟨st₂, hentry, hafter⟩ := bind_eq_ok.mp h
  obtain ⟨blocks, hblocks, hcounts, hget⟩ := (entryRead hentry).stores kind hkind
  rw [show st₁.offset = entryStart params bytes before from offset_entries hbefore] at hblocks
  obtain ⟨extra, hget', hnil⟩ := appends_entries hafter hnames _ hget
  rw [← hnil]
  constructor
  · rintro ⟨blocks', hblocks', -, hstored⟩
    rw [hget', hblocks', ← hblocks, Option.some.injEq, JsonValue.array.injEq] at hstored
    exact List.append_right_eq_self.mp hstored
  · rintro rfl
    rw [List.append_nil] at hget'
    exact ⟨blocks, hblocks, hcounts, hget'⟩

end Entries

/-- **Entries with distinct names are decoded as if each were alone, exactly when** no word of a
bit device is read behind an entry of blocks named `bit_blocks`. -/
theorem decoded_iff {T : DeviceTable} {spec : CommandSpec} {params : JsonValue} {bytes : Bytes}
    {result : JsonValue} (hdistinct : (spec.responseEntries.map ResponseEntry.name).Nodup)
    (hout : CommandSpec.parseResponse T spec params bytes = .ok result) :
    EntriesDecoded spec params bytes result ↔ Undisturbed T spec params := by
  obtain ⟨st, hst, rfl⟩ := parseResponse_eq_ok hout
  have hnames : ∀ {before entry after}, spec.responseEntries = before ++ entry :: after →
      ∀ later ∈ after, entry.name ≠ later.name := by
    intro before entry after hsplit later hlater heq
    rw [hsplit, List.map_append, List.map_cons] at hdistinct
    have hnodup := (List.nodup_cons.mp (List.nodup_append.mp hdistinct).2.1).1
    exact hnodup (heq ▸ List.mem_map_of_mem hlater)
  have hsplits : ∀ {before entry after}, spec.responseEntries = before ++ entry :: after →
      (before ++ entry :: after).foldlM (CommandSpec.parseResponseEntry T params bytes) ⟨0, []⟩ =
        .ok st := fun hsplit => hsplit ▸ hst
  constructor
  · intro hdecoded before entry after hsplit hsome hname later hlater hdisturbs
    obtain ⟨kind, hkind⟩ := Option.isSome_iff_exists.mp hsome
    obtain ⟨resultMap, hresult, hstores⟩ := hdecoded before entry after kind hsplit hkind
    rw [JsonValue.object.injEq] at hresult
    subst hresult
    exact (storesItsBlocks_iff hkind (hnames hsplit) (hsplits hsplit)).mp hstores
      ⟨hname, later, hlater, hdisturbs⟩
  · intro hundisturbed before entry after kind hsplit hkind
    refine ⟨st.resultMap, rfl,
      (storesItsBlocks_iff hkind (hnames hsplit) (hsplits hsplit)).mpr ?_⟩
    rintro ⟨hname, later, hlater, hdisturbs⟩
    exact hundisturbed before entry after hsplit (by rw [hkind]; rfl) hname later hlater hdisturbs

/-- A word of the bit device `M`, and eight points. -/
def wordAndPoints : JsonValue :=
  .object [("word_blocks", .array [deviceBlock 0x90 1]), ("bit_blocks", .array [deviceBlock 0x90 8])]

/-- Words first, as the shipped command has them: the report is written over. -/
theorem decoded_iff_wordsFirst :
    ∃ result, CommandSpec.parseResponse twoDevices readBlocksSpec wordAndPoints [0x34, 0x12, 0x05] =
        .ok result ∧
      (EntriesDecoded readBlocksSpec wordAndPoints [0x34, 0x12, 0x05] result ↔
        Undisturbed twoDevices readBlocksSpec wordAndPoints) :=
  ⟨_, rfl, decoded_iff (by decide) rfl⟩

/-- The shipped command with its two entries the other way round. -/
def pointsFirstSpec : CommandSpec :=
  { readBlocksSpec with
    responseEntries := [.blockBitsPacked "bit_blocks" true, .blockWords "word_blocks" true] }

/-- One descriptor, and two blocks: the second is the word again. -/
theorem decoded_fails :
    (∃ result, CommandSpec.parseResponse twoDevices pointsFirstSpec wordAndPoints
        [0x05, 0x34, 0x12] = .ok result ∧
      result.get "bit_blocks" = some (.array
        [.array (jsonBits [true, false, true, false, false, false, false, false]),
          .array (CommandSpec.bitsOfWord 0x1234)])) ∧
    ¬ ∀ (T : DeviceTable) (spec : CommandSpec) (params : JsonValue) (bytes : Bytes)
      (result : JsonValue), (spec.responseEntries.map ResponseEntry.name).Nodup →
      CommandSpec.parseResponse T spec params bytes = .ok result →
      EntriesDecoded spec params bytes result := by
  refine ⟨⟨_, rfl, rfl⟩, fun h => ?_⟩
  obtain ⟨result, hout⟩ : ∃ result, CommandSpec.parseResponse twoDevices pointsFirstSpec
      wordAndPoints [0x05, 0x34, 0x12] = .ok result := ⟨_, rfl⟩
  obtain ⟨st, hst, rfl⟩ := parseResponse_eq_ok hout
  have hdecoded := h twoDevices pointsFirstSpec wordAndPoints _ _ (by decide) hout
  obtain ⟨resultMap, hresult, hstores⟩ :=
    hdecoded [] (.blockBitsPacked "bit_blocks" true) [.blockWords "word_blocks" true] _ rfl rfl
  rw [JsonValue.object.injEq] at hresult
  subst hresult
  refine (storesItsBlocks_iff rfl ?_ hst).mp hstores
    ⟨rfl, .blockWords "word_blocks" true, List.mem_singleton.mpr rfl, .words true, rfl, ⟨true, rfl⟩,
      deviceBlock 0x90 1, List.mem_singleton.mpr rfl, rfl, ⟨.bit, .decimal, 0x90⟩, rfl, rfl⟩
  intro later hlater
  rw [List.mem_singleton.mp hlater]
  decide

end MelsecMc
