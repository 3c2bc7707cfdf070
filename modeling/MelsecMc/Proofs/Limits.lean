/-
Limits.

The check of the limits walks the block lists with three counters of 64 bits.  It decides
what the limits say as long as the exact totals fit (`block_limits_iff`); two blocks of
`2 ^ 63` points are enough for an overflow.  And it walks the block lists only: the count of
a command without blocks meets no check at all.  Whether a request is built can be said without
its count (`Acceptable`, `acceptable_withCount`), so that a declared limit binds the count
exactly where the request is refused with every count (`count_limit_iff`).

The two halves are about different commands.  Limits are enforced where there are block
templates; the shipped file declares them where there are none.
-/
import MelsecMc.Proofs.RepeatField
import MelsecMc.Spec.Limits

namespace MelsecMc

open Checks Totals

/-- A counter as a number. -/
def CommandSpec.Points.get (total : CommandSpec.Points) : DeviceType → Nat
  | .word => total.word.toNat
  | .doubleWord => total.dword.toNat
  | .bit => total.bit.toNat

theorem u64Add_cases (a b : UInt64) :
    (u64Add a b = .ok (a + b) ∧ (a + b).toNat = a.toNat + b.toNat) ∨
      (u64Add a b = .error (.panic .arithmeticOverflow) ∧ 2 ^ 64 ≤ a.toNat + b.toNat) := by
  unfold u64Add
  by_cases hlt : a.toNat + b.toNat < 2 ^ 64
  · rw [if_pos hlt, UInt64.toNat_add, Nat.mod_eq_of_lt hlt]
    exact .inl ⟨rfl, rfl⟩
  · rw [if_neg hlt]
    exact .inr ⟨rfl, by omega⟩

section Limits

variable {T : DeviceTable} {spec : CommandSpec} {params : JsonValue} {plcSeries : Option PlcSeries}
  {lim : Limits}

/-! ### The totals of the blocks

The exact totals are sums of natural numbers; the counters are these sums as long as none of them
reaches `2 ^ 64`.  Where one does, the addition panics, whatever the limits say.
-/

/-- Adding to one counter, whichever it is. -/
theorem counts_add {total : CommandSpec.Points} {category : DeviceType} {a : UInt64}
    {set : UInt64 → CommandSpec.Points} (count : UInt64) (ha : total.get category = a.toNat)
    (hself : ∀ s, (set s).get category = s.toNat)
    (hother : ∀ s c, c ≠ category → (set s).get c = total.get c) :
    (∃ total', (u64Add a count >>= fun s => pure (set s)) = .ok total' ∧
      ∀ c, total'.get c = total.get c + if category = c then count.toNat else 0) ∨
    ((u64Add a count >>= fun s => pure (set s)) = .error (.panic .arithmeticOverflow) ∧
      ∃ c, 2 ^ 64 ≤ total.get c + if category = c then count.toNat else 0) := by
  rcases u64Add_cases a count with ⟨hadd, hsum⟩ | ⟨hadd, hover⟩
  · refine .inl ⟨set (a + count), by rw [hadd, ok_bind, pure_eq_ok], fun c => ?_⟩
    by_cases hc : category = c
    · rw [if_pos hc, ← hc, hself, ha, hsum]
    · rw [if_neg hc, hother _ c fun h => hc h.symm, Nat.add_zero]
  · refine .inr ⟨by rw [hadd, error_bind], category, ?_⟩
    rw [if_pos rfl, ha]
    exact hover

/-- An entry counts towards the category of its device. -/
theorem counts_countEntry (T : DeviceTable) :
    Counts CommandSpec.Points.get (2 ^ 64) (Failure.panic .arithmeticOverflow) (entryPoints T)
      (CommandSpec.countEntry T) := by
  intro total entry
  unfold CommandSpec.countEntry entryPoints
  cases entry.asObject with
  | none => exact .inl ⟨total, rfl, fun c => rfl⟩
  | some obj =>
      dsimp only
      cases CommandSpec.deviceCodeOf obj with
      | none => exact .inl ⟨total, rfl, fun c => rfl⟩
      | some code =>
          cases (obj.get "count").bind JsonValue.asU64 with
          | none =>
              refine .inl ⟨total, rfl, fun c => ?_⟩
              split
              · rename_i hcount
                cases hcount
              · rfl
          | some count =>
              dsimp only
              rw [Option.bind_some, knownDevice]
              by_cases hrange : 256 ≤ code.toNat
              · rw [if_pos hrange, if_pos hrange]
                exact .inl ⟨total, rfl, fun c => rfl⟩
              · rw [if_neg hrange, if_neg hrange]
                cases T.deviceByCode (UInt8.ofNat code.toNat) with
                | none => exact .inl ⟨total, rfl, fun c => rfl⟩
                | some dev =>
                    dsimp only
                    cases dev.category with
                    | word =>
                        refine counts_add count rfl (fun _ => rfl) fun s c hc => ?_
                        cases c <;> first | rfl | exact absurd rfl hc
                    | doubleWord =>
                        refine counts_add count rfl (fun _ => rfl) fun s c hc => ?_
                        cases c <;> first | rfl | exact absurd rfl hc
                    | bit =>
                        refine counts_add count rfl (fun _ => rfl) fun s c hc => ?_
                        cases c <;> first | rfl | exact absurd rfl hc

theorem decides_checkLimit (spec : CommandSpec) (name : String) (total : UInt64)
    (limit : Option UInt64) :
    Decides Failure.IsErr (CommandSpec.checkLimit spec name total limit)
      (∀ l, limit = some l → total.toNat ≤ l.toNat) := by
  unfold CommandSpec.checkLimit
  cases limit with
  | none => exact Decides.pass fun l hl => by cases hl
  | some l =>
      dsimp only
      by_cases hlt : l < total
      · rw [if_pos hlt]
        refine Decides.fail (isErr_protocol _) fun h => ?_
        have hle := h l rfl
        have hlt' := UInt64.lt_iff_toNat_lt.mp hlt
        omega
      · rw [if_neg hlt]
        refine Decides.pass fun l' hl => ?_
        cases hl
        exact Nat.not_lt.mp fun h => hlt (UInt64.lt_iff_toNat_lt.mpr h)

/-- The three checks decide whether the counters are within the limits. -/
theorem decides_checkLimits (spec : CommandSpec) (total : CommandSpec.Points) (lim : Limits) :
    Decides Failure.IsErr
      (do
        CommandSpec.checkLimit spec "word_points" total.word lim.wordPoints
        CommandSpec.checkLimit spec "dword_points" total.dword lim.dwordPoints
        CommandSpec.checkLimit spec "bit_points" total.bit lim.bitPoints)
      (∀ c l, lim.limitFor c = some l → total.get c ≤ l.toNat) := by
  refine ((decides_checkLimit spec "word_points" total.word lim.wordPoints).seq
    ((decides_checkLimit spec "dword_points" total.dword lim.dwordPoints).seq
      (decides_checkLimit spec "bit_points" total.bit lim.bitPoints))).congr ?_
  constructor
  · rintro ⟨hword, hdword, hbit⟩ c l hl
    cases c with
    | word => exact hword l hl
    | doubleWord => exact hdword l hl
    | bit => exact hbit l hl
  · intro h
    exact ⟨fun l hl => h .word l hl, fun l hl => h .doubleWord l hl, fun l hl => h .bit l hl⟩

/-- Either the totals fit and the limits are decided, or it overflows. -/
theorem validateBlockLimits_cases (T : DeviceTable) (params : JsonValue)
    (hlim : spec.limits = some lim) :
    ((∀ c, blockPointsTotal T spec params c < 2 ^ 64) ∧
      Decides Failure.IsErr (CommandSpec.validateBlockLimits T spec params)
        (BlocksWithin T spec params lim)) ∨
    ((∃ c, 2 ^ 64 ≤ blockPointsTotal T spec params c) ∧
      CommandSpec.validateBlockLimits T spec params = .error (.panic .arithmeticOverflow)) := by
  have hzero : ∀ c, CommandSpec.Points.get ⟨0, 0, 0⟩ c = 0 := by
    intro c
    cases c <;> rfl
  have hfold : ∀ s, spec.blockTemplates.foldlM (fun total bt =>
      (((params.get (bt.name ++ "s")).bind JsonValue.asArray).getD []).foldlM
        (CommandSpec.countEntry T) total) s =
      (allEntries spec params).foldlM (CommandSpec.countEntry T) s :=
    fun s => (Writers.foldlM_flatMap (fun bt : BlockTemplate =>
      givenBlocks params (bt.name ++ "s")) spec.blockTemplates s).symm
  rw [CommandSpec.validateBlockLimits, hlim]
  dsimp only
  rw [hfold]
  rcases (counts_countEntry T).foldlM (allEntries spec params) ⟨0, 0, 0⟩ with
    ⟨total, htotal, hget⟩ | ⟨hover, c, hc⟩
  · have hexact : ∀ c, total.get c = blockPointsTotal T spec params c := by
      intro c
      rw [hget, hzero, Nat.zero_add]
      rfl
    left
    refine ⟨fun c => ?_, ?_⟩
    · rw [← hexact c]
      cases c <;> exact UInt64.toNat_lt _
    · rw [htotal, ok_bind]
      refine (decides_checkLimits spec total lim).congr ?_
      unfold BlocksWithin
      simp only [hexact]
  · right
    refine ⟨⟨c, ?_⟩, ?_⟩
    · rw [hzero, Nat.zero_add] at hc
      exact hc
    · rw [hover]
      rfl

/-- **The blocks are held against their true totals** exactly when these fit in 64 bits. -/
theorem block_limits_iff (T : DeviceTable) (params : JsonValue) (hlim : spec.limits = some lim) :
    ((∀ p, CommandSpec.validateBlockLimits T spec params ≠ .error (.panic p)) ∧
      (CommandSpec.validateBlockLimits T spec params = .ok () ↔
        BlocksWithin T spec params lim)) ↔
    ∀ c, blockPointsTotal T spec params c < 2 ^ 64 := by
  rcases validateBlockLimits_cases T params hlim with ⟨hfits, hdecides⟩ | ⟨⟨c, hc⟩, hover⟩
  · refine ⟨fun _ => hfits, fun _ => ⟨fun p hp => ?_, hdecides.ok_iff⟩⟩
    rcases hdecides with ⟨hok, -⟩ | ⟨⟨e, ⟨msg, rfl⟩, he⟩, -⟩
    · rw [hok] at hp
      cases hp
    · rw [he] at hp
      cases hp
  · constructor
    · rintro ⟨hnone, -⟩
      exact absurd hover (hnone .arithmeticOverflow)
    · intro hfits
      exact absurd (hfits c) (by omega)

/-! ### The count of a request

No check and no writer looks at the count of the params, but the writer of the count field.
So whether a request is built is a matter of everything else.
-/

theorem validateBlockLimits_ok_iff :
    CommandSpec.validateBlockLimits T spec params = .ok () ↔
      ∀ lim, spec.limits = some lim →
        (∀ c, blockPointsTotal T spec params c < 2 ^ 64) ∧ BlocksWithin T spec params lim := by
  cases hlim : spec.limits with
  | none =>
      rw [CommandSpec.validateBlockLimits, hlim]
      exact ⟨fun _ lim h => (by cases h), fun _ => rfl⟩
  | some lim =>
      rcases validateBlockLimits_cases T params hlim with ⟨hfits, hdecides⟩ | ⟨⟨c, hc⟩, hover⟩
      · rw [hdecides.ok_iff]
        constructor
        · intro hwithin lim' hlim'
          cases hlim'
          exact ⟨hfits, hwithin⟩
        · exact fun h => (h lim rfl).2
      · rw [hover]
        constructor
        · intro h
          cases h
        · intro h
          exact absurd ((h lim rfl).1 c) (by omega)

/-- **A request is built exactly when it is acceptable**; its own count is not looked at. -/
theorem buildRequest_ok_iff :
    (∃ out, spec.buildRequest T params plcSeries = .ok out) ↔
      Acceptable T spec params plcSeries := by
  constructor
  · rintro ⟨out, hout⟩
    obtain ⟨⟨hcodes, hlimits, hblocks⟩, hslots⟩ := buildRequest_eq_ok_iff.mp hout
    refine ⟨hcodes, validateBlockLimits_ok_iff.mp hlimits, hblocks, fun slot hslot => ?_⟩
    obtain ⟨chunks, hchunks, -⟩ :=
      (Writers.foldlM_eq_ok_iff fun slot _ => slot.adds_write).mp hslots
    exact slot.write_ok_iff.mp (hchunks.exists slot hslot)
  · intro h
    obtain ⟨chunks, hchunks⟩ := Writers.Chunks.of_forall
      fun (slot : Slot) hslot => slot.write_ok_iff.mpr (h.values slot hslot)
    refine ⟨chunks.flatten, buildRequest_eq_ok_iff.mpr ⟨⟨h.codes, ?_, h.blocks⟩, ?_⟩⟩
    · exact validateBlockLimits_ok_iff.mpr h.totals
    · exact (Writers.foldlM_eq_ok_iff fun slot _ => slot.adds_write).mpr ⟨chunks, hchunks, rfl⟩

/-! ### Another count

With all other params as they are, nothing that is checked depends on the count: a request is
built with every count or with none.  And above every limit that can be declared there is one
more count, since a limit is an `i64` in the file and a count a `u64`. -/

theorem get_withCount_self (obj : JsonMap) (count : UInt64) :
    (withCount obj count).get "count" = some (.posInt count) :=
  JsonMap.get_insert_self obj "count" (.posInt count)

theorem get_withCount_of_ne (obj : JsonMap) (count : UInt64) {key : String} (h : key ≠ "count") :
    (withCount obj count).get key = obj.get key :=
  JsonMap.get_insert_of_ne obj (.posInt count) h

/-- The key of a block list ends in an `s`. -/
theorem blockKey_ne_count (name : String) : name ++ "s" ≠ "count" := by
  intro h
  have hlast := congrArg (fun s => s.toList.getLast?) h
  rw [String.toList_append, show "s".toList = ['s'] from rfl, List.getLast?_concat] at hlast
  exact absurd hlast (by decide)

theorem givenBlocks_withCount (obj : JsonMap) (count count' : UInt64) {key : String}
    (h : key ≠ "count") :
    givenBlocks (withCount obj count) key = givenBlocks (withCount obj count') key := by
  rw [givenBlocks, givenBlocks, get_withCount_of_ne obj count h, get_withCount_of_ne obj count' h]

theorem slots_withCount (spec : CommandSpec) (obj : JsonMap) (count count' : UInt64) :
    slots spec (withCount obj count) = slots spec (withCount obj count') := by
  have hblocks : ∀ bt : BlockTemplate,
      blockSlots (withCount obj count) bt = blockSlots (withCount obj count') bt := by
    intro bt
    rw [blockSlots, blockSlots, blockEntries, blockEntries,
      givenBlocks_withCount obj count count' (blockKey_ne_count bt.name)]
  rw [slots, slots, funext hblocks]

/-- A field that takes the count takes any. -/
theorem writable_withCount {obj : JsonMap} {count : UInt64} (count' : UInt64) {slot : Slot}
    (h : slot.Writable spec (withCount obj count) plcSeries) :
    slot.Writable spec (withCount obj count') plcSeries := by
  obtain ⟨origin, name, kind⟩ := slot
  cases origin with
  | entry bt map =>
      cases kind with
      | fixedBytes n le => exact h
      | words le => exact h
      | bytes => exact h
      | asciiHex => exact h
  | request =>
      by_cases hname : name = "count"
      · subst hname
        cases kind with
        | fixedBytes n le =>
            refine ⟨⟨count', Slot.value_request.mpr ?_⟩, h.2⟩
            rw [CommandSpec.getNumField_plain spec _ _ (show "count" ∉ _ by decide),
              CommandSpec.numParam_eq_ok_iff, get_withCount_self]
            rfl
        | words le =>
            obtain ⟨arr, harr, -⟩ := h
            rw [get_withCount_self] at harr
            cases harr
        | bytes =>
            intro arr harr
            rw [get_withCount_self] at harr
            cases harr
        | asciiHex =>
            refine ⟨fun s hs => ?_, fun arr harr => ?_⟩
            · rw [get_withCount_self] at hs
              cases hs
            · rw [get_withCount_self] at harr
              cases harr
      · have hget : (withCount obj count').get name = (withCount obj count).get name := by
          rw [get_withCount_of_ne obj count hname, get_withCount_of_ne obj count' hname]
        have hcounted : ∀ key ∈ ["word_blocks", "bit_blocks"],
            CommandSpec.blockCount (withCount obj count') key =
              CommandSpec.blockCount (withCount obj count) key := by
          intro key hkey
          have hne : key ≠ "count" := by
            revert key
            decide
          rw [CommandSpec.blockCount_eq, CommandSpec.blockCount_eq,
            givenBlocks_withCount obj count' count hne]
        have hnum : spec.getNumField name (withCount obj count') plcSeries =
            spec.getNumField name (withCount obj count) plcSeries := by
          unfold CommandSpec.getNumField CommandSpec.numParam
          rw [hget, hcounted _ (by decide), hcounted _ (by decide)]
        unfold Slot.Writable Slot.value at h ⊢
        dsimp only at h ⊢
        rw [hget, hnum]
        exact h

/-- Whether a request is acceptable does not depend on its count. -/
theorem acceptable_withCount {obj : JsonMap} {count : UInt64} (count' : UInt64)
    (h : Acceptable T spec (withCount obj count) plcSeries) :
    Acceptable T spec (withCount obj count') plcSeries := by
  have hcode : (withCount obj count').get "device_code" =
      (withCount obj count).get "device_code" := by
    rw [get_withCount_of_ne obj count (by decide), get_withCount_of_ne obj count' (by decide)]
  have hblocks : ∀ bt : BlockTemplate, givenBlocks (withCount obj count') (bt.name ++ "s") =
      givenBlocks (withCount obj count) (bt.name ++ "s") := fun bt =>
    givenBlocks_withCount obj count' count (blockKey_ne_count bt.name)
  have htotal : ∀ c, blockPointsTotal T spec (withCount obj count') c =
      blockPointsTotal T spec (withCount obj count) c := by
    intro c
    rw [blockPointsTotal, blockPointsTotal, allEntries, allEntries, funext hblocks]
  refine ⟨⟨?_, ?_⟩, ?_, ?_, ?_⟩
  · rw [hcode]
    exact h.codes.request
  · intro bt hbt
    rw [hblocks bt]
    exact h.codes.entries bt hbt
  · intro lim hlim
    obtain ⟨hfits, hwithin⟩ := h.totals lim hlim
    refine ⟨fun c => htotal c ▸ hfits c, fun c l hl => ?_⟩
    rw [htotal c]
    exact hwithin c l hl
  · intro bt hbt
    obtain ⟨arr, harr, hobjects⟩ := h.blocks bt hbt
    refine ⟨arr, ?_, hobjects⟩
    rw [get_withCount_of_ne obj count' (blockKey_ne_count bt.name),
      ← get_withCount_of_ne obj count (blockKey_ne_count bt.name)]
    exact harr
  · intro slot hslot
    rw [slots_withCount spec obj count' count] at hslot
    exact writable_withCount count' (h.values slot hslot)

theorem limitOf_bound {entries : List (String × TomlValue)} {key : String} {n : UInt64}
    (h : limitOf entries key = some n) : n.toNat < 2 ^ 63 := by
  unfold limitOf at h
  split at h
  · rename_i i _
    split at h
    · rename_i hnonneg
      have hlt := i.toInt_lt
      rw [← Option.some.inj h, UInt64.toNat_ofNat', Nat.mod_eq_of_lt (by omega)]
      omega
    · cases h
  · cases h

/-- A limit a file declares is an `i64`. -/
theorem declaredLimit_lt {commands : List CommandSpecRaw} {reg : CommandRegistry}
    (hload : CommandRegistry.parseCommandFile commands = .ok reg) {id : Command}
    (hget : reg.get id = some spec) {l : UInt64} (hl : DeclaredLimit T spec params l) :
    l.toNat < 2 ^ 63 := by
  obtain ⟨raw, -, hparse⟩ := CommandRegistry.parseCommand_of_get hload hget
  rw [parseCommand] at hparse
  obtain ⟨fields, -, hparse⟩ := bind_eq_ok.mp hparse
  obtain ⟨templates, -, hparse⟩ := bind_eq_ok.mp hparse
  obtain ⟨entries, -, hparse⟩ := bind_eq_ok.mp hparse
  obtain ⟨sub, -, hparse⟩ := bind_eq_ok.mp hparse
  cases hparse
  obtain ⟨lim, hlim, code, dev, -, -, hfor⟩ := hl
  have hparsed : parseLimits raw.limits = some lim := hlim
  unfold parseLimits at hparsed
  split at hparsed
  · cases hparsed
    cases hcategory : dev.category with
    | word =>
        rw [hcategory] at hfor
        exact limitOf_bound hfor
    | doubleWord =>
        rw [hcategory] at hfor
        exact limitOf_bound hfor
    | bit =>
        rw [hcategory] at hfor
        exact limitOf_bound hfor
  · cases hparsed

/-- **A declared limit binds the count of the request** exactly when the request is refused
whatever its count is, for what the other params are: the count itself is never refused. -/
theorem count_limit_iff {commands : List CommandSpecRaw} {reg : CommandRegistry}
    (hload : CommandRegistry.parseCommandFile commands = .ok reg) {id : Command}
    (hget : reg.get id = some spec) (T : DeviceTable) (obj : JsonMap)
    (plcSeries : Option PlcSeries) :
    (∀ count out, spec.buildRequest T (withCount obj count) plcSeries = .ok out →
      CountWithin T spec (withCount obj count)) ↔
    ∀ l, DeclaredLimit T spec (.object obj) l →
      ∀ count, ¬ Acceptable T spec (withCount obj count) plcSeries := by
  have hdeclared : ∀ count l, DeclaredLimit T spec (withCount obj count) l ↔
      DeclaredLimit T spec (.object obj) l := by
    intro count l
    unfold DeclaredLimit
    rw [get_withCount_of_ne obj count (by decide), JsonValue.get_object]
  constructor
  · intro h l hl count hacceptable
    have hlt := declaredLimit_lt hload hget hl
    -- one more than the limit is a count as well
    have habove : (l + 1).toNat = l.toNat + 1 := by
      rw [UInt64.toNat_add, show (1 : UInt64).toNat = 1 from rfl, Nat.mod_eq_of_lt (by omega)]
    obtain ⟨out, hout⟩ := buildRequest_ok_iff.mpr (acceptable_withCount (l + 1) hacceptable)
    have hwithin := h (l + 1) out hout (l + 1) l (by rw [get_withCount_self]; rfl)
      ((hdeclared _ l).mpr hl)
    omega
  · intro h count out hout count' l _ hl
    exact absurd (buildRequest_ok_iff.mp ⟨out, hout⟩) (h l ((hdeclared count l).mp hl) count)

end Limits

/-! ### Where the limits do not hold -/

/-- Read from `D100` on, so many words as the count says. -/
def readFromD100 : JsonMap := [("start_addr", .ofNat 100), ("device_code", .ofNat 0xA8)]

theorem count_limit_iff_d100 :
    (∀ count out, readWordsSpec.buildRequest twoDevices (withCount readFromD100 count) (some .q) =
        .ok out → CountWithin twoDevices readWordsSpec (withCount readFromD100 count)) ↔
    ∀ l, DeclaredLimit twoDevices readWordsSpec (.object readFromD100) l →
      ∀ count, ¬ Acceptable twoDevices readWordsSpec (withCount readFromD100 count) (some .q) :=
  count_limit_iff parseCommandFile_shipped get_readWords twoDevices readFromD100 (some .q)

/-- Read 961 words from `D100` on. -/
def overLimitRead : JsonValue :=
  .object [("start_addr", .ofNat 100), ("device_code", .ofNat 0xA8), ("count", .ofNat 961)]

/-- The shipped limit is 960 words. -/
theorem count_limit_fails :
    CommandRegistry.parseCommandFile shippedCommands = .ok shippedRegistry ∧
      shippedRegistry.get .readWords = some readWordsSpec ∧
      readWordsSpec.buildRequest twoDevices overLimitRead (some .q) =
        .ok [0x01, 0x04, 0x00, 0x00, 100, 0x00, 0x00, 0xA8, 0xC1, 0x03] ∧
      ¬ ∀ (T : DeviceTable) (spec : CommandSpec) (params : JsonValue)
          (plcSeries : Option PlcSeries) (out : Bytes),
        spec.buildRequest T params plcSeries = .ok out → CountWithin T spec params := by
  have hbuilt : readWordsSpec.buildRequest twoDevices overLimitRead (some .q) =
      .ok [0x01, 0x04, 0x00, 0x00, 100, 0x00, 0x00, 0xA8, 0xC1, 0x03] := by
    decide +kernel
  refine ⟨parseCommandFile_shipped, get_readWords, hbuilt, fun h => ?_⟩
  have hwithin := h twoDevices readWordsSpec overLimitRead (some .q) _ hbuilt
  exact absurd (hwithin 961 960 rfl ⟨⟨some 960, some 480, some 15360⟩, rfl, 0xA8,
    ⟨.word, .decimal, 0xA8⟩, rfl, rfl, rfl⟩) (by decide)

/-- The block templates of the shipped file with the limits of its word commands. -/
def limitedBlocksSpec : CommandSpec :=
  { writeBlocksSpec with limits := some ⟨some 960, some 480, some 15360⟩ }

/-- A block of `n` words. -/
def wordsBlock (n : Nat) : JsonValue :=
  .object [("start_addr", .ofNat 0), ("device_code", .ofNat 0xA8), ("count", .ofNat n)]

/-- Two blocks of `n` words each, and no bit block. -/
def twoWordBlocks (n : Nat) : JsonValue :=
  .object [("word_blocks", .array [wordsBlock n, wordsBlock n]), ("bit_blocks", .array [])]

theorem block_limits_iff_twoWordBlocks :
    ((∀ p, CommandSpec.validateBlockLimits twoDevices limitedBlocksSpec (twoWordBlocks 480) ≠
        .error (.panic p)) ∧
      (CommandSpec.validateBlockLimits twoDevices limitedBlocksSpec (twoWordBlocks 480) = .ok () ↔
        BlocksWithin twoDevices limitedBlocksSpec (twoWordBlocks 480)
          ⟨some 960, some 480, some 15360⟩)) ↔
    ∀ c, blockPointsTotal twoDevices limitedBlocksSpec (twoWordBlocks 480) c < 2 ^ 64 :=
  block_limits_iff twoDevices (twoWordBlocks 480) rfl

/-- Two blocks of `2 ^ 63` words are more than a counter holds. -/
theorem block_limits_fails :
    CommandSpec.validateBlockLimits twoDevices limitedBlocksSpec (twoWordBlocks (2 ^ 63)) =
        .error (.panic .arithmeticOverflow) ∧
      ¬ ∀ (T : DeviceTable) (spec : CommandSpec) (params : JsonValue) (lim : Limits),
        spec.limits = some lim →
        (∀ p, CommandSpec.validateBlockLimits T spec params ≠ .error (.panic p)) ∧
          (CommandSpec.validateBlockLimits T spec params = .ok () ↔
            BlocksWithin T spec params lim) := by
  have hover : CommandSpec.validateBlockLimits twoDevices limitedBlocksSpec
      (twoWordBlocks (2 ^ 63)) = .error (.panic .arithmeticOverflow) := by
    decide +kernel
  refine ⟨hover, fun h => ?_⟩
  exact (h twoDevices limitedBlocksSpec (twoWordBlocks (2 ^ 63)) _ rfl).1 _ hover

end MelsecMc
