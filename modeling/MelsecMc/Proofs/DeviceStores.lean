/-
The device table of a process.

Everything else here takes one device table and looks devices up in it by symbol and by code.  A
process has two maps, made at different times, and a list that may still change.  What was made
stays (`Later`), so all lookups of one kind answer from one list; that list is the embedded one
or the one file the process ever loads (`Known`).  The two kinds can differ, when the file turns
up between their first uses.  If every call finds the same, there is one table.

Each map is made when it is first needed, and whatever file is there at that moment is tried.  A
file that turns up between two lookups can therefore be in one of the maps and not in the other,
and a lookup by symbol can find a device the lookup by code does not know.
-/
import MelsecMc.DeviceStores

namespace MelsecMc

namespace DeviceCall

/-- The map a call looks something up in. -/
def map? : DeviceCall → Option LookupMap
  | deviceBySymbol _ => some .bySymbol
  | deviceByCode _ => some .byCode
  | getRuntimeDevicesSlice => none

/-- What a call answers if these are the devices. -/
def answerFrom (entries : List (String × UInt8)) (devices : List Device) :
    DeviceCall → DeviceAnswer
  | deviceBySymbol sym => .device ((deviceTable entries devices).deviceBySymbol sym)
  | deviceByCode code => .device ((deviceTable entries devices).deviceByCode code)
  | getRuntimeDevicesSlice => .devices devices

end DeviceCall

namespace DeviceStores

variable {entries : List (String × UInt8)}

/-! ### One call

A lookup may make one of the two maps, and it may load the file for it; what it answers it takes
from a map it then has.  `Later` is all a call can do to the stores.
-/

/-- What is loaded after a read that finds the file. -/
def loaded (entries : List (String × UInt8)) (s : DeviceStores) (file : FoundFile) :
    Option (List Device) :=
  s.runtime.or (parsedFile entries file)

/-- The devices a read yields. -/
def read (entries : List (String × UInt8)) (s : DeviceStores) (file : FoundFile) : List Device :=
  (loaded entries s file).getD (getCompiledDevicesSlice entries)

theorem getRuntimeDevicesSlice_eq (s : DeviceStores) (file : FoundFile) :
    getRuntimeDevicesSlice entries s file =
      (read entries s file, { s with runtime := loaded entries s file }) := by
  unfold getRuntimeDevicesSlice read loaded
  cases parsedFile entries file with
  | none => rw [Option.or_none]
  | some devices => rfl

variable (entries) in
/-- A lookup in a map that is there changes nothing; every other call reads the list, and makes
the map it needs of it. -/
theorem call_cases (s : DeviceStores) (file : FoundFile) (c : DeviceCall) :
    (∃ map devices, c.map? = some map ∧ s.maps map = some devices ∧
      call entries s file c = (c.answerFrom entries devices, s)) ∨
    ((∀ map, c.map? = some map → s.maps map = none) ∧
      call entries s file c = (c.answerFrom entries (read entries s file),
        { runtime := loaded entries s file
          maps := fun map => if c.map? = some map then some (read entries s file)
            else s.maps map })) := by
  have hforce : ∀ map, (∃ devices, s.maps map = some devices ∧
      force entries s file map = (devices, s)) ∨ (s.maps map = none ∧
      force entries s file map = (read entries s file,
        { runtime := loaded entries s file
          maps := fun map' => if some map = some map' then some (read entries s file)
            else s.maps map' })) := by
    intro map
    unfold force
    cases hmade : s.maps map with
    | some devices => exact .inl ⟨devices, rfl, rfl⟩
    | none =>
        refine .inr ⟨rfl, ?_⟩
        rw [getRuntimeDevicesSlice_eq]
        refine Prod.ext rfl (congrArg (DeviceStores.mk _) ?_)
        funext map'
        by_cases hmap : map = map'
        · subst hmap
          simp
        · simp [hmap, Function.update_of_ne (Ne.symm hmap)]
  cases c with
  | deviceBySymbol sym =>
      rcases hforce .bySymbol with ⟨devices, hmade, heq⟩ | ⟨hnone, heq⟩
      · refine .inl ⟨.bySymbol, devices, rfl, hmade, ?_⟩
        rw [call, heq]
        rfl
      · refine .inr ⟨fun map hmap => Option.some.inj hmap ▸ hnone, ?_⟩
        rw [call, heq]
        rfl
  | deviceByCode code =>
      rcases hforce .byCode with ⟨devices, hmade, heq⟩ | ⟨hnone, heq⟩
      · refine .inl ⟨.byCode, devices, rfl, hmade, ?_⟩
        rw [call, heq]
        rfl
      · refine .inr ⟨fun map hmap => Option.some.inj hmap ▸ hnone, ?_⟩
        rw [call, heq]
        rfl
  | getRuntimeDevicesSlice =>
      refine .inr ⟨fun map hmap => absurd hmap (by simp [DeviceCall.map?]), ?_⟩
      rw [call, getRuntimeDevicesSlice_eq]
      rfl

/-! ### What stays

A map that was made is never made again, and a file is loaded once.  So a fact about a map, once
true, is true of every later call.
-/

/-- What was loaded or made is still there. -/
structure Later (s s' : DeviceStores) : Prop where
  runtime : ∀ devices, s.runtime = some devices → s'.runtime = some devices
  maps : ∀ map devices, s.maps map = some devices → s'.maps map = some devices

theorem Later.refl (s : DeviceStores) : Later s s := ⟨fun _ h => h, fun _ _ h => h⟩

theorem Later.trans {s t u : DeviceStores} (hst : Later s t) (htu : Later t u) : Later s u :=
  ⟨fun devices h => htu.runtime devices (hst.runtime devices h),
    fun map devices h => htu.maps map devices (hst.maps map devices h)⟩

variable (entries) in
theorem call_later (s : DeviceStores) (file : FoundFile) (c : DeviceCall) :
    Later s (call entries s file c).2 := by
  rcases call_cases entries s file c with ⟨map, devices, -, -, heq⟩ | ⟨hnone, heq⟩
  · rw [heq]
    exact .refl s
  · rw [heq]
    refine ⟨?_, ?_⟩
    · intro devices hruntime
      show loaded entries s file = some devices
      rw [loaded, hruntime, Option.some_or]
    · intro map devices hmade
      show (if c.map? = some map then some (read entries s file) else s.maps map) = some devices
      rw [if_neg, hmade]
      intro hmap
      rw [hnone map hmap] at hmade
      cases hmade

/-- The devices are the embedded ones, or those of the file that was loaded. -/
def Known (entries : List (String × UInt8)) (s : DeviceStores) (devices : List Device) : Prop :=
  devices = getCompiledDevicesSlice entries ∨ s.runtime = some devices

theorem Known.later {s s' : DeviceStores} {devices : List Device} (h : Known entries s devices)
    (hlater : Later s s') : Known entries s' devices := by
  rcases h with hcompiled | hruntime
  · exact .inl hcompiled
  · exact .inr (hlater.runtime devices hruntime)

/-- The devices a map was made from; the embedded ones before its first use. -/
def madeFrom (entries : List (String × UInt8)) (s : DeviceStores) (map : LookupMap) :
    List Device :=
  (s.maps map).getD (getCompiledDevicesSlice entries)

/-- The answer comes from known devices, and for a lookup from those its map was made from. -/
def Answered (entries : List (String × UInt8)) (s : DeviceStores) (c : DeviceCall)
    (answer : DeviceAnswer) : Prop :=
  ∃ devices, Known entries s devices ∧ answer = c.answerFrom entries devices ∧
    ∀ map, c.map? = some map → s.maps map = some devices

theorem Answered.later {s s' : DeviceStores} {c : DeviceCall} {answer : DeviceAnswer}
    (h : Answered entries s c answer) (hlater : Later s s') : Answered entries s' c answer := by
  obtain ⟨devices, hknown, hanswer, hmaps⟩ := h
  exact ⟨devices, hknown.later hlater, hanswer,
    fun map hmap => hlater.maps map devices (hmaps map hmap)⟩

/-- The maps were made from known devices, and what is loaded is a file that was found. -/
structure Sound (entries : List (String × UInt8)) (found : List Device → Prop)
    (s : DeviceStores) : Prop where
  maps : ∀ map devices, s.maps map = some devices → Known entries s devices
  runtime : ∀ devices, s.runtime = some devices → found devices

theorem call_sound {found : List Device → Prop} {s : DeviceStores} (hs : Sound entries found s)
    {file : FoundFile} (hfile : ∀ devices, parsedFile entries file = some devices → found devices)
    (c : DeviceCall) :
    Sound entries found (call entries s file c).2 ∧
      Answered entries (call entries s file c).2 c (call entries s file c).1 := by
  have hlater := call_later entries s file c
  rcases call_cases entries s file c with
    ⟨map, devices, hmap, hmade, heq⟩ | ⟨hnone, heq⟩
  · rw [heq]
    refine ⟨hs, devices, hs.maps map devices hmade, rfl, ?_⟩
    intro map' hmap'
    rw [hmap, Option.some.injEq] at hmap'
    exact hmap' ▸ hmade
  · rw [heq] at hlater ⊢
    have hread : Known entries ⟨loaded entries s file, fun map =>
        if c.map? = some map then some (read entries s file) else s.maps map⟩
        (read entries s file) := by
      unfold Known read
      cases loaded entries s file with
      | none => exact .inl rfl
      | some devices => exact .inr rfl
    refine ⟨⟨?_, ?_⟩, read entries s file, hread, rfl, fun map hmap => if_pos hmap⟩
    · intro map devices hmade
      by_cases hmap : c.map? = some map
      · simp only [hmap, if_true, Option.some.injEq] at hmade
        exact hmade ▸ hread
      · simp only [hmap, if_false] at hmade
        exact (hs.maps map devices hmade).later hlater
    · intro devices hloaded
      rcases Option.or_eq_some_iff.mp hloaded with hruntime | ⟨-, hparsed⟩
      · exact hs.runtime devices hruntime
      · exact hfile devices hparsed

/-! ### Runs -/

theorem calls_later (cs : List (FoundFile × DeviceCall)) :
    ∀ s : DeviceStores, Later s (calls entries s cs).2 := by
  induction cs with
  | nil => exact .refl
  | cons c cs ih => exact fun s => (call_later entries s c.1 c.2).trans (ih _)

theorem calls_sound {found : List Device → Prop} (cs : List (FoundFile × DeviceCall)) :
    (∀ c ∈ cs, ∀ devices, parsedFile entries c.1 = some devices → found devices) →
    ∀ s : DeviceStores, Sound entries found s → Sound entries found (calls entries s cs).2 ∧
      ∀ x ∈ (calls entries s cs).1, Answered entries (calls entries s cs).2 x.1 x.2 := by
  induction cs with
  | nil => exact fun _ s hs => ⟨hs, by simp [calls]⟩
  | cons c cs ih =>
      intro hfound s hs
      obtain ⟨file, c⟩ := c
      obtain ⟨hsound, hanswered⟩ := call_sound hs (hfound _ List.mem_cons_self) c
      obtain ⟨hlast, hrest⟩ := ih (fun c hc => hfound c (List.mem_cons_of_mem _ hc)) _ hsound
      refine ⟨hlast, ?_⟩
      intro x hx
      rcases List.mem_cons.mp hx with rfl | hx
      · exact hanswered.later (calls_later cs _)
      · exact hrest x hx

/-! ### When every call finds the same

Then both maps come from one list, whichever of them is made first, and the process has a
device table as everything else here assumes.
-/

/-- The maps were made from the one list there is. -/
structure Settled (entries : List (String × UInt8)) (parsed : Option (List Device))
    (s : DeviceStores) : Prop where
  maps : ∀ map devices, s.maps map = some devices →
    devices = parsed.getD (getCompiledDevicesSlice entries)
  runtime : s.runtime.or parsed = parsed

theorem call_settled {parsed : Option (List Device)} {s : DeviceStores}
    (hs : Settled entries parsed s) {file : FoundFile} (hfile : parsedFile entries file = parsed)
    (c : DeviceCall) :
    Settled entries parsed (call entries s file c).2 ∧
      (call entries s file c).1 =
        c.answerFrom entries (parsed.getD (getCompiledDevicesSlice entries)) := by
  have hloaded : loaded entries s file = parsed := by rw [loaded, hfile, hs.runtime]
  have hread : read entries s file = parsed.getD (getCompiledDevicesSlice entries) := by
    rw [read, hloaded]
  rcases call_cases entries s file c with
    ⟨map, devices, -, hmade, heq⟩ | ⟨-, heq⟩
  · rw [heq, hs.maps map devices hmade]
    exact ⟨hs, rfl⟩
  · rw [heq, hloaded, hread]
    refine ⟨⟨?_, Option.or_self⟩, rfl⟩
    intro map devices hmade
    by_cases hmap : c.map? = some map
    · simp only [hmap, if_true, Option.some.injEq] at hmade
      exact hmade.symm
    · simp only [hmap, if_false] at hmade
      exact hs.maps map devices hmade

theorem calls_settled {parsed : Option (List Device)} (cs : List (FoundFile × DeviceCall)) :
    (∀ c ∈ cs, parsedFile entries c.1 = parsed) → ∀ s : DeviceStores, Settled entries parsed s →
    ∀ x ∈ (calls entries s cs).1,
      x.2 = x.1.answerFrom entries (parsed.getD (getCompiledDevicesSlice entries)) := by
  induction cs with
  | nil => exact fun _ s _ => by simp [calls]
  | cons c cs ih =>
      intro hfiles s hs
      obtain ⟨file, c⟩ := c
      obtain ⟨hsettled, hanswer⟩ := call_settled hs (hfiles _ List.mem_cons_self) c
      intro x hx
      rcases List.mem_cons.mp hx with rfl | hx
      · exact hanswer
      · exact ih (fun c hc => hfiles c (List.mem_cons_of_mem _ hc)) _ hsettled x hx

end DeviceStores

open DeviceStores in
/-- **All lookups by symbol answer from one list of devices, and so do all lookups by code; the
lists are the embedded one or that of the one file the process loads.  They are the same list if
every call finds the same file.** -/
theorem DeviceStores.answers_spec (entries : List (String × UInt8))
    (cs : List (FoundFile × DeviceCall)) :
    (∀ map, Known entries (calls entries start cs).2
      (madeFrom entries (calls entries start cs).2 map)) ∧
    (∀ devices, (calls entries start cs).2.runtime = some devices →
      ∃ c ∈ cs, parsedFile entries c.1 = some devices) ∧
    (∀ x ∈ (calls entries start cs).1, ∃ devices,
      Known entries (calls entries start cs).2 devices ∧
      x.2 = x.1.answerFrom entries devices ∧
      ∀ map, x.1.map? = some map →
        devices = madeFrom entries (calls entries start cs).2 map) ∧
    ∀ parsed, (∀ c ∈ cs, parsedFile entries c.1 = parsed) →
      ∀ x ∈ (calls entries start cs).1,
        x.2 = x.1.answerFrom entries (parsed.getD (getCompiledDevicesSlice entries)) := by
  have hstart : ∀ map devices, start.maps map ≠ some devices := fun _ _ h => by cases h
  have hfound : ∀ c ∈ cs, ∀ devices, parsedFile entries c.1 = some devices →
      ∃ c ∈ cs, parsedFile entries c.1 = some devices :=
    fun c hc devices hparsed => ⟨c, hc, hparsed⟩
  obtain ⟨hsound, hanswered⟩ := calls_sound cs hfound start
    ⟨fun map devices h => absurd h (hstart map devices), fun _ h => by cases h⟩
  refine ⟨?_, hsound.runtime, ?_, ?_⟩
  · intro map
    rw [madeFrom]
    cases hmade : (calls entries start cs).2.maps map with
    | none => exact .inl rfl
    | some devices => exact hsound.maps map devices hmade
  · intro x hx
    obtain ⟨devices, hknown, hanswer, hmaps⟩ := hanswered x hx
    refine ⟨devices, hknown, hanswer, ?_⟩
    intro map hmap
    rw [madeFrom, hmaps map hmap, Option.getD_some]
  · intro parsed hfiles
    exact calls_settled cs hfiles start
      ⟨fun map devices h => absurd h (hstart map devices), Option.none_or ..⟩

/-- A file in which `M` is a word device. -/
def wordMFile : List DeviceRecord :=
  [[("symbol", .string "M"), ("code", .integer 0x90), ("category", .string "Word"),
    ("base", .string "Decimal"), ("description", .string "")]]

/-- It is there all the time. -/
theorem DeviceStores.answers_spec_wordM :
    ∀ x ∈ (calls (codeByName shippedDevices) start
        [(some wordMFile, .deviceBySymbol "M"), (some wordMFile, .deviceByCode 0x90)]).1,
      x.2 = x.1.answerFrom (codeByName shippedDevices) [⟨.word, .decimal, 0x90⟩] := by
  have hparsed : parsedFile (codeByName shippedDevices) (some wordMFile) =
      some [⟨.word, .decimal, 0x90⟩] := by decide +kernel
  refine (answers_spec (codeByName shippedDevices) _).2.2.2 (some [⟨.word, .decimal, 0x90⟩]) ?_
  intro c hc
  rcases List.mem_cons.mp hc with rfl | hc
  · exact hparsed
  · rw [List.mem_singleton] at hc
    exact hc ▸ hparsed

/-- It turns up after the first lookup: `M` is a bit device by its symbol, and a word device by
its code. -/
example : (DeviceStores.calls (codeByName shippedDevices) DeviceStores.start
    [(none, .deviceBySymbol "M"), (some wordMFile, .deviceByCode 0x90),
      (some wordMFile, .deviceBySymbol "M")]).1.map Prod.snd =
    [.device (some ⟨.bit, .decimal, 0x90⟩), .device (some ⟨.word, .decimal, 0x90⟩),
      .device (some ⟨.bit, .decimal, 0x90⟩)] := by
  decide +kernel

end MelsecMc
