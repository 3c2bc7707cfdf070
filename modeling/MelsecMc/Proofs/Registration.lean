/-
What loading the built-in table does to the application's.

`register_or_merge` inserts, and an insert replaces.  A code that both tables have gets the
built-in entry, whatever the application had registered; every other code stays as it was.
Loading the table again changes nothing more.
-/
import MelsecMc.Lib.Lookup
import MelsecMc.Registration

namespace MelsecMc

namespace ErrorRegistry

/-! ### What a table does to the map

Registering goes through the entries of a table in their order, so the last entry of a code
is the one that stays, and codes of no entry are not touched.
-/

/-- The entry a table leaves a code with: its last one. -/
def lastEntry (codes : List ErrorCodeEntry) (code : UInt16) : Option ErrorEntryOwned :=
  (codes.reverse.find? fun e => e.code = code).map ErrorCodeEntry.owned

theorem insertAll_apply (codes : List ErrorCodeEntry) (code : UInt16) :
    ∀ map : UInt16 → Option ErrorEntryOwned,
      insertAll codes map code = (lastEntry codes code).or (map code) := by
  induction codes with
  | nil => exact fun map => rfl
  | cons e codes ih =>
      intro map
      have hcons : insertAll (e :: codes) map =
          insertAll codes (Function.update map e.code (some e.owned)) := rfl
      have hlast : lastEntry (e :: codes) code =
          (lastEntry codes code).or (if e.code = code then some e.owned else none) := by
        rw [lastEntry, List.reverse_cons, List.find?_append, lastEntry]
        cases codes.reverse.find? fun e => e.code = code with
        | some found => rfl
        | none =>
            by_cases hcode : e.code = code
            · simp [hcode]
            · simp [hcode]
      rw [hcons, ih, hlast, Option.or_assoc]
      congr 1
      by_cases hcode : e.code = code
      · rw [if_pos hcode, hcode, Function.update_self, Option.some_or]
      · rw [if_neg hcode, Function.update_of_ne (Ne.symm hcode), Option.none_or]

theorem registered_registerOrMerge (reg : ErrorRegistry) (cell : ErrorRegistryCell)
    (code : UInt16) :
    registered (reg.registerOrMerge cell) code =
      (lastEntry reg.codes code).or (registered cell code) := by
  cases cell with
  | none => exact insertAll_apply reg.codes code fun _ => none
  | some map => exact insertAll_apply reg.codes code map

/-- The codes of the table are distinct: each of its entries is the one it leaves. -/
theorem lastEntry_of_mem {codes : List ErrorCodeEntry}
    (hdistinct : (codes.map ErrorCodeEntry.code).Nodup) {e : ErrorCodeEntry} (he : e ∈ codes) :
    lastEntry codes e.code = some e.owned := by
  rw [lastEntry, Lookup.find?_reverse_key hdistinct he, Option.map_some]

theorem lastEntry_eq_none {codes : List ErrorCodeEntry} {code : UInt16}
    (h : ∀ e ∈ codes, e.code ≠ code) : lastEntry codes code = none := by
  rw [lastEntry, Option.map_eq_none_iff, List.find?_eq_none]
  intro e he
  rw [decide_eq_true_eq]
  exact h e (List.mem_reverse.mp he)

end ErrorRegistry

/-! ### Loading the built-in table -/

theorem shippedErrorCodes_distinct :
    (shippedErrorRegistry.codes.map ErrorCodeEntry.code).Nodup := by
  decide +kernel

namespace Globals

theorem mergeShipped_errors (g : Globals) :
    g.mergeShipped.errors = shippedErrorRegistry.registerOrMerge g.errors := by
  rw [mergeShipped, fromStr_shippedErrorCodes, Option.elim_some]

/-- Setting the command registry succeeds or fails with the one error `init_defaults`
ignores, and leaves the error registry alone. -/
theorem loadAndSetGlobalFromSrc_spec (g : Globals) :
    goesOn g.loadAndSetGlobalFromSrc.1 = true ∧ g.loadAndSetGlobalFromSrc.2.errors = g.errors := by
  have halready : goesOn (protocolError "global CommandRegistry already set") = true := by
    decide +kernel
  rw [loadAndSetGlobalFromSrc, parseCommandFile_shipped, setParsed, setGlobal]
  cases g.commands with
  | none => exact ⟨rfl, rfl⟩
  | some reg => exact ⟨halready, rfl⟩

/-- Both ways of loading merge the table, whether or not the command registry was set. -/
theorem loadCall_errors (g : Globals) (load : LoadCall) :
    (g.loadCall load).errors = shippedErrorRegistry.registerOrMerge g.errors := by
  obtain ⟨hgoesOn, herrors⟩ := loadAndSetGlobalFromSrc_spec g
  cases load with
  | newClient =>
      show g.newClient.errors = _
      rw [newClient, mergeShipped_errors, herrors]
  | initDefaults =>
      show g.initDefaults.errors = _
      rw [initDefaults, if_pos hgoesOn, mergeShipped_errors, herrors]

/-- The first load decides, the others repeat it. -/
theorem registered_afterLoads (g : Globals) (code : UInt16) {loads : List LoadCall}
    (hloads : loads ≠ []) :
    registered (g.afterLoads loads).errors code =
      (ErrorRegistry.lastEntry shippedErrorRegistry.codes code).or (registered g.errors code) := by
  induction loads generalizing g with
  | nil => exact absurd rfl hloads
  | cons load loads ih =>
      have hfirst : registered (g.loadCall load).errors code =
          (ErrorRegistry.lastEntry shippedErrorRegistry.codes code).or
            (registered g.errors code) := by
        rw [loadCall_errors, ErrorRegistry.registered_registerOrMerge]
      show registered ((g.loadCall load).afterLoads loads).errors code = _
      by_cases hlast : loads = []
      · subst hlast
        exact hfirst
      · rw [ih _ hlast, hfirst, ← Option.or_assoc, Option.or_self]

end Globals

/-- What the loads must not do, and what they must. -/
structure Preserves (loads : List LoadCall) (before after : ErrorRegistryCell) : Prop where
  /-- a registered code keeps its entry -/
  kept : ∀ code entry, registered before code = some entry → registered after code = some entry
  /-- a built-in code that was not registered is registered by the first load -/
  present : loads ≠ [] → ∀ e ∈ shippedErrorRegistry.codes, registered before e.code = none →
    registered after e.code = some e.owned

/-- **Loading the built-in table keeps the application's entries exactly when they differ
nowhere from it.** -/
theorem loads_preserve_iff (commands : Option CommandRegistry) (app : List AppCall)
    (loads : List LoadCall) :
    Preserves loads (Globals.afterApp commands app).errors
        ((Globals.afterApp commands app).afterLoads loads).errors ↔
      loads = [] ∨ ∀ e ∈ shippedErrorRegistry.codes, ∀ entry,
        registered (Globals.afterApp commands app).errors e.code = some entry →
          entry = e.owned := by
  by_cases hloads : loads = []
  · subst hloads
    refine iff_of_true ⟨?_, ?_⟩ (.inl rfl)
    · exact fun code entry h => h
    · exact fun hne => absurd rfl hne
  · have hafter := fun code =>
      Globals.registered_afterLoads (Globals.afterApp commands app) code hloads
    constructor
    · intro hpreserves
      refine .inr ?_
      intro e he entry hentry
      have hkept := hpreserves.kept e.code entry hentry
      rw [hafter, ErrorRegistry.lastEntry_of_mem shippedErrorCodes_distinct he, Option.some_or,
        Option.some.injEq] at hkept
      exact hkept.symm
    · intro h
      have hsame := h.resolve_left hloads
      refine ⟨?_, ?_⟩
      · intro code entry hentry
        rw [hafter]
        by_cases hshipped : ∃ e ∈ shippedErrorRegistry.codes, e.code = code
        · obtain ⟨e, he, rfl⟩ := hshipped
          rw [ErrorRegistry.lastEntry_of_mem shippedErrorCodes_distinct he, Option.some_or,
            hsame e he entry hentry]
        · have hnone : ErrorRegistry.lastEntry shippedErrorRegistry.codes code = none :=
            ErrorRegistry.lastEntry_eq_none fun e he hcode => hshipped ⟨e, he, hcode⟩
          rw [hnone, Option.none_or, hentry]
      · intro _ e he _
        rw [hafter, ErrorRegistry.lastEntry_of_mem shippedErrorCodes_distinct he, Option.some_or]

/-- An application's own words for a code that is in the built-in table too. -/
def ownWords : ErrorRegistry :=
  ⟨[⟨0xC061, some "LENGTH", some "request length", none⟩]⟩

/-- They are gone with the first client. -/
theorem loads_preserve_fails :
    (registered (Globals.afterApp none [.registerOrMerge ownWords]).errors 0xC061).bind
        ErrorEntryOwned.name = some "LENGTH" ∧
      (registered ((Globals.afterApp none [.registerOrMerge ownWords]).afterLoads
        [.newClient]).errors 0xC061).bind ErrorEntryOwned.name = some "MC_ERR_C061" ∧
      ¬ ∀ (commands : Option CommandRegistry) (app : List AppCall) (loads : List LoadCall),
        Preserves loads (Globals.afterApp commands app).errors
          ((Globals.afterApp commands app).afterLoads loads).errors := by
  have hbefore : registered (Globals.afterApp none [.registerOrMerge ownWords]).errors 0xC061 =
      some ⟨0xC061, some "LENGTH", some "request length", none⟩ := by decide
  have hafter : (registered ((Globals.afterApp none [.registerOrMerge ownWords]).afterLoads
      [.newClient]).errors 0xC061).bind ErrorEntryOwned.name = some "MC_ERR_C061" := by
    rw [Globals.registered_afterLoads _ _ (by simp)]
    decide +kernel
  refine ⟨by rw [hbefore]; rfl, hafter, fun h => ?_⟩
  have hkept := (h none [.registerOrMerge ownWords] [.newClient]).kept 0xC061 _ hbefore
  rw [hkept] at hafter
  exact absurd hafter (by decide)

end MelsecMc
