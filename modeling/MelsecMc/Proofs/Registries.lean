/-
What the registries hold.

Which commands, codes and overrides a process works with is decided by the calls it has made,
in their order, and by nothing else: the first command registry and the first overrides stay,
and of the error tables that took effect the last one that has a code describes it.  Whether a
call succeeds is decided by the calls before it.

So of every call it is enough to say what it offers to each registry, and a file that does
not parse offers nothing; which offers are taken is decided by the order.
-/
import Mathlib.Data.List.Induction
import MelsecMc.Lib.Cells
import MelsecMc.Proofs.Registration
import MelsecMc.Registries

namespace MelsecMc

namespace RegistryCall

/-! ### What a call offers

Each of the three registries is a cell.  Of a call it matters what it would put into each of
them, if anything; two of them take only the first offer, and the third adds up what it is
offered.
-/

/-- The command registry a call would set. -/
def commands : RegistryCall → Option CommandRegistry
  | .setGlobal file => (CommandRegistry.parseCommandFile file).toOption
  | .loadAndSetGlobalFromSrc | .newClient | .initDefaults => some shippedRegistry
  | .registerCodes _ | .registerOrMerge _ | .registerOverrides _ => none

/-- The error table a call would register. -/
def codes : RegistryCall → Option ErrorRegistry
  | .newClient | .initDefaults => some shippedErrorRegistry
  | .registerCodes file | .registerOrMerge file => ErrorRegistry.fromStr file
  | .setGlobal _ | .loadAndSetGlobalFromSrc | .registerOverrides _ => none

/-- The error table a call adds to a registry that is there. -/
def mergedCodes : RegistryCall → Option ErrorRegistry
  | .newClient | .initDefaults => some shippedErrorRegistry
  | .registerOrMerge file => ErrorRegistry.fromStr file
  | .setGlobal _ | .loadAndSetGlobalFromSrc | .registerCodes _ | .registerOverrides _ => none

/-- The devices a call would register overrides for. -/
def devices : RegistryCall → Option (List DeviceRaw)
  | .registerOverrides file => (DeviceRegistry.fromStr file).toOption
  | .setGlobal _ | .loadAndSetGlobalFromSrc | .newClient | .initDefaults | .registerCodes _
  | .registerOrMerge _ => none

/-- The error tables that took effect, oldest first: the first one there was, and those that were
merged into it. -/
def tables (calls : List RegistryCall) : List ErrorRegistry :=
  match calls.dropWhile fun c => c.codes.isNone with
  | [] => []
  | first :: later => first.codes.toList ++ later.filterMap mergedCodes

/-- What a call returns after those in `before`. -/
def result (before : List RegistryCall) : RegistryCall → CallResult
  | .setGlobal file =>
      match CommandRegistry.parseCommandFile file with
      | .error f => .failed f
      | .ok _ =>
          if before.findSome? commands = none then .ok
          else .failed (.err (.protocol "global CommandRegistry already set"))
  | .loadAndSetGlobalFromSrc =>
      if before.findSome? commands = none then .ok
      else .failed (.err (.protocol "global CommandRegistry already set"))
  | .newClient | .initDefaults => .ok
  | .registerCodes file =>
      if (ErrorRegistry.fromStr file).isNone then errorCodesParseError
      else if tables before = [] then .ok
      else .alreadyRegistered
  | .registerOrMerge file =>
      if (ErrorRegistry.fromStr file).isNone then errorCodesParseError else .ok
  | .registerOverrides file =>
      match DeviceRegistry.fromStr file with
      | .error f => .failed f
      | .ok _ =>
          if before.findSome? devices = none then .ok
          else .failed (.err (.protocol "device overrides already registered"))

end RegistryCall

namespace DeviceRegistry

/-- The override of a symbol is the last device that has it. -/
theorem overrideMap_apply (devices : List DeviceRaw) (sym : String) :
    overrideMap devices sym =
      (devices.reverse.find? fun d => d.symbol = sym).map DeviceRaw.owned := by
  have hinsert : ∀ (map : String → Option DeviceOverride) (d : DeviceRaw),
      Function.update map d.symbol (some d.owned) sym =
        (if d.symbol = sym then some d.owned else none).or (map sym) := by
    intro map d
    by_cases hsym : d.symbol = sym
    · rw [if_pos hsym, hsym, Function.update_self, Option.some_or]
    · rw [if_neg hsym, Function.update_of_ne (Ne.symm hsym), Option.none_or]
  have hfind : ∀ ds : List DeviceRaw,
      (ds.findSome? fun d => if d.symbol = sym then some d.owned else none) =
        (ds.find? fun d => d.symbol = sym).map DeviceRaw.owned := by
    intro ds
    induction ds with
    | nil => rfl
    | cons d ds ih =>
        by_cases hsym : d.symbol = sym
        · simp [hsym]
        · simp [hsym, ih]
  have hlast := Cells.last_write (fun map : String → Option DeviceOverride => map sym) hinsert
    devices fun _ => none
  rw [Option.or_none, hfind] at hlast
  exact hlast

end DeviceRegistry

/-! ### What a call does -/

namespace Registries

theorem setGlobal_commands (g : Globals) (reg : CommandRegistry) :
    (g.setGlobal reg).2.commands = g.commands.or (some reg) ∧
      (g.setGlobal reg).2.errors = g.errors := by
  rw [Globals.setGlobal]
  cases hcommands : g.commands with
  | none => exact ⟨rfl, rfl⟩
  | some set => exact ⟨hcommands, rfl⟩

theorem setGlobal_result (g : Globals) (reg : CommandRegistry) :
    CallResult.ofExcept (g.setGlobal reg).1 =
      if g.commands = none then .ok
      else .failed (.err (.protocol "global CommandRegistry already set")) := by
  rw [Globals.setGlobal]
  cases g.commands with
  | none => rfl
  | some set => rfl

theorem loadAndSetGlobalFromSrc_eq (g : Globals) :
    g.loadAndSetGlobalFromSrc = g.setGlobal shippedRegistry := by
  rw [Globals.loadAndSetGlobalFromSrc, parseCommandFile_shipped, Globals.setParsed]

theorem mergeShipped_commands (g : Globals) : g.mergeShipped.commands = g.commands := by
  rw [Globals.mergeShipped, fromStr_shippedErrorCodes, Option.elim_some]

/-- `new` and `init_defaults` leave the same behind. -/
theorem initDefaults_eq (g : Globals) : g.initDefaults = g.newClient := by
  rw [Globals.initDefaults, if_pos (Globals.loadAndSetGlobalFromSrc_spec g).1, Globals.newClient]

theorem newClient_commands (g : Globals) :
    g.newClient.commands = g.commands.or (some shippedRegistry) := by
  rw [Globals.newClient, mergeShipped_commands, loadAndSetGlobalFromSrc_eq,
    (setGlobal_commands g shippedRegistry).1]

theorem newClient_errors (g : Globals) :
    g.newClient.errors = shippedErrorRegistry.registerOrMerge g.errors :=
  Globals.loadCall_errors g .newClient

/-- The first command registry stays. -/
theorem call_commands (g : Registries) (c : RegistryCall) :
    (g.call c).2.commands = g.commands.or c.commands := by
  cases c with
  | setGlobal file =>
      show (g.toGlobals.setParsed (CommandRegistry.parseCommandFile file)).2.commands = _
      rw [RegistryCall.commands]
      cases CommandRegistry.parseCommandFile file with
      | error f => exact (Option.or_none ..).symm
      | ok reg => exact (setGlobal_commands g.toGlobals reg).1
  | loadAndSetGlobalFromSrc =>
      show g.toGlobals.loadAndSetGlobalFromSrc.2.commands = _
      rw [loadAndSetGlobalFromSrc_eq]
      exact (setGlobal_commands g.toGlobals shippedRegistry).1
  | newClient => exact newClient_commands g.toGlobals
  | initDefaults =>
      show g.toGlobals.initDefaults.commands = _
      rw [initDefaults_eq]
      exact newClient_commands g.toGlobals
  | registerCodes file =>
      rw [call, RegistryCall.commands, Option.or_none]
      cases ErrorRegistry.fromStr file with
      | none => rfl
      | some reg => rfl
  | registerOrMerge file =>
      rw [call, RegistryCall.commands, Option.or_none]
      cases ErrorRegistry.fromStr file with
      | none => rfl
      | some reg => rfl
  | registerOverrides file =>
      rw [call, RegistryCall.commands, Option.or_none]
      cases DeviceRegistry.fromStr file with
      | error f => rfl
      | ok devices => rfl

/-- The first overrides stay. -/
theorem call_overrides (g : Registries) (c : RegistryCall) :
    (g.call c).2.overrides = g.overrides.or (c.devices.map DeviceRegistry.overrideMap) := by
  cases c with
  | setGlobal file => exact (Option.or_none ..).symm
  | loadAndSetGlobalFromSrc => exact (Option.or_none ..).symm
  | newClient => exact (Option.or_none ..).symm
  | initDefaults => exact (Option.or_none ..).symm
  | registerCodes file =>
      rw [call, RegistryCall.devices, Option.map_none, Option.or_none]
      cases ErrorRegistry.fromStr file with
      | none => rfl
      | some reg => rfl
  | registerOrMerge file =>
      rw [call, RegistryCall.devices, Option.map_none, Option.or_none]
      cases ErrorRegistry.fromStr file with
      | none => rfl
      | some reg => rfl
  | registerOverrides file =>
      rw [call, RegistryCall.devices]
      cases DeviceRegistry.fromStr file with
      | error f => exact (Option.or_none ..).symm
      | ok devices =>
          show (DeviceRegistry.registerOverrides devices g.overrides).2 = _
          cases g.overrides with
          | none => rfl
          | some map => rfl

/-- A table is merged, except by `register_codes` into a registry that is there. -/
theorem call_errors (g : Registries) (c : RegistryCall) :
    (g.call c).2.errors =
      (if g.errors = none then c.codes else c.mergedCodes).elim g.errors fun reg =>
        reg.registerOrMerge g.errors := by
  cases c with
  | setGlobal file =>
      have hsame : (g.call (.setGlobal file)).2.errors = g.errors := by
        show (g.toGlobals.setParsed (CommandRegistry.parseCommandFile file)).2.errors = _
        cases CommandRegistry.parseCommandFile file with
        | error f => rfl
        | ok reg => exact (setGlobal_commands g.toGlobals reg).2
      rw [hsame, RegistryCall.codes, RegistryCall.mergedCodes, ite_self, Option.elim_none]
  | loadAndSetGlobalFromSrc =>
      have hsame : (g.call .loadAndSetGlobalFromSrc).2.errors = g.errors :=
        (Globals.loadAndSetGlobalFromSrc_spec g.toGlobals).2
      rw [hsame, RegistryCall.codes, RegistryCall.mergedCodes, ite_self, Option.elim_none]
  | newClient =>
      show g.toGlobals.newClient.errors = _
      rw [newClient_errors, RegistryCall.codes, RegistryCall.mergedCodes, ite_self,
        Option.elim_some]
  | initDefaults =>
      show g.toGlobals.initDefaults.errors = _
      rw [initDefaults_eq, newClient_errors, RegistryCall.codes, RegistryCall.mergedCodes, ite_self,
        Option.elim_some]
  | registerCodes file =>
      rw [call, RegistryCall.codes, RegistryCall.mergedCodes]
      cases ErrorRegistry.fromStr file with
      | none => rw [ite_self, Option.elim_none]
      | some reg =>
          show (reg.registerCodes g.errors).2 = _
          cases g.errors with
          | none => rfl
          | some map => rfl
  | registerOrMerge file =>
      rw [call, RegistryCall.mergedCodes, RegistryCall.codes, ite_self]
      cases ErrorRegistry.fromStr file with
      | none => rfl
      | some reg => rfl
  | registerOverrides file =>
      rw [call, RegistryCall.mergedCodes, RegistryCall.codes, ite_self]
      cases DeviceRegistry.fromStr file with
      | error f => rfl
      | ok devices => rfl

/-! ### What the cells hold after some calls

The induction is on the calls, from behind: what the cells hold is what they held before the
last call, with what that call offered.
-/

theorem after_concat (calls : List RegistryCall) (c : RegistryCall) :
    after (calls ++ [c]) = ((after calls).call c).2 := by
  rw [after, List.foldl_concat, after]

theorem after_commands (calls : List RegistryCall) :
    (after calls).commands = calls.findSome? RegistryCall.commands :=
  Cells.first_write (fun g : Registries => g.commands) call_commands calls empty

theorem after_overrides (calls : List RegistryCall) :
    (after calls).overrides =
      (calls.findSome? RegistryCall.devices).map DeviceRegistry.overrideMap := by
  rw [List.map_findSome?]
  exact Cells.first_write (fun g : Registries => g.overrides) call_overrides calls empty

/-- One more call adds its table, if it takes effect. -/
theorem tables_concat (calls : List RegistryCall) (c : RegistryCall) :
    RegistryCall.tables (calls ++ [c]) =
      RegistryCall.tables calls ++
        (if RegistryCall.tables calls = [] then c.codes else c.mergedCodes).toList := by
  unfold RegistryCall.tables
  rw [List.dropWhile_append]
  cases hdrop : calls.dropWhile fun c => c.codes.isNone with
  | nil =>
      rw [List.isEmpty_nil, if_pos rfl, List.nil_append, if_pos rfl]
      cases hcodes : c.codes with
      | none => simp [hcodes]
      | some reg => simp [hcodes]
  | cons first later =>
      have hfirst : first.codes.isNone = false := by
        have hne : (calls.dropWhile fun c => c.codes.isNone) ≠ [] := by
          rw [hdrop]
          exact List.cons_ne_nil first later
        have hhead := List.head_dropWhile_not (fun c : RegistryCall => c.codes.isNone) hne
        simpa [hdrop] using hhead
      obtain ⟨reg, hreg⟩ := Option.isSome_iff_exists.mp (Option.isNone_eq_false_iff.mp hfirst)
      simp only [List.isEmpty_cons, Bool.false_eq_true, if_false, hreg, Option.toList_some,
        List.cons_append, List.nil_append, reduceCtorEq, List.filterMap_append]
      cases hmerged : c.mergedCodes with
      | none => simp [hmerged]
      | some merged => simp [hmerged]

/-- The error cell is unset until a table takes effect, and then the last table that has a code
describes it. -/
theorem after_errors (calls : List RegistryCall) :
    ((after calls).errors = none ↔ RegistryCall.tables calls = []) ∧
      ∀ code, registered (after calls).errors code =
        (RegistryCall.tables calls).reverse.findSome? fun t =>
          ErrorRegistry.lastEntry t.codes code := by
  induction calls using List.reverseRecOn with
  | nil => exact ⟨iff_of_true rfl rfl, fun code => rfl⟩
  | append_singleton calls c ih =>
      obtain ⟨hunset, hentries⟩ := ih
      have htables := tables_concat calls c
      have herrors := call_errors (after calls) c
      simp only [hunset] at herrors
      rw [after_concat, herrors, htables]
      cases (if RegistryCall.tables calls = [] then c.codes else c.mergedCodes) with
      | none =>
          rw [Option.elim_none, Option.toList_none, List.append_nil]
          exact ⟨hunset, hentries⟩
      | some reg =>
          rw [Option.elim_some, Option.toList_some]
          refine ⟨iff_of_false ?_ (by simp), ?_⟩
          · cases (after calls).errors with
            | none => exact Option.some_ne_none _
            | some map => exact Option.some_ne_none _
          · intro code
            rw [ErrorRegistry.registered_registerOrMerge, hentries, List.reverse_append,
              List.findSome?_append, List.reverse_singleton, List.findSome?_singleton]

/-- What a call returns is decided by the calls before it. -/
theorem call_result (calls : List RegistryCall) (c : RegistryCall) :
    ((after calls).call c).1 = c.result calls := by
  have hcommands := after_commands calls
  cases c with
  | setGlobal file =>
      show CallResult.ofExcept
        ((after calls).toGlobals.setParsed (CommandRegistry.parseCommandFile file)).1 = _
      rw [RegistryCall.result, ← hcommands]
      cases CommandRegistry.parseCommandFile file with
      | error f => rfl
      | ok reg => exact setGlobal_result (after calls).toGlobals reg
  | loadAndSetGlobalFromSrc =>
      show CallResult.ofExcept (after calls).toGlobals.loadAndSetGlobalFromSrc.1 = _
      rw [RegistryCall.result, ← hcommands, loadAndSetGlobalFromSrc_eq]
      exact setGlobal_result (after calls).toGlobals shippedRegistry
  | newClient => rfl
  | initDefaults =>
      show (after calls).toGlobals.initDefaultsResult = _
      rw [Globals.initDefaultsResult,
        if_pos (Globals.loadAndSetGlobalFromSrc_spec (after calls).toGlobals).1,
        fromStr_shippedErrorCodes]
      rfl
  | registerCodes file =>
      rw [call, RegistryCall.result]
      cases ErrorRegistry.fromStr file with
      | none => rfl
      | some reg =>
          show CallResult.ofRegister (reg.registerCodes (after calls).errors).1 =
            if RegistryCall.tables calls = [] then .ok else .alreadyRegistered
          by_cases hnone : (after calls).errors = none
          · rw [if_pos ((after_errors calls).1.mp hnone), hnone]
            rfl
          · rw [if_neg fun h => hnone ((after_errors calls).1.mpr h)]
            obtain ⟨map, hmap⟩ := Option.ne_none_iff_exists'.mp hnone
            rw [hmap]
            rfl
  | registerOrMerge file =>
      rw [call, RegistryCall.result]
      cases ErrorRegistry.fromStr file with
      | none => rfl
      | some reg => rfl
  | registerOverrides file =>
      have hoverrides := after_overrides calls
      rw [call, RegistryCall.result]
      cases DeviceRegistry.fromStr file with
      | error f => rfl
      | ok devices =>
          show CallResult.ofExcept
            (DeviceRegistry.registerOverrides devices (after calls).overrides).1 = _
          rw [hoverrides]
          cases calls.findSome? RegistryCall.devices with
          | none => rfl
          | some first => rfl

end Registries

/-- **The calls a process has made decide what its registries hold, and what the next call
returns.** -/
theorem Registries.after_spec (calls : List RegistryCall) :
    (after calls).commands = calls.findSome? RegistryCall.commands ∧
    (∀ code, registered (after calls).errors code =
      (RegistryCall.tables calls).reverse.findSome? fun t =>
        ErrorRegistry.lastEntry t.codes code) ∧
    (∀ sym, DeviceRegistry.getOverrideBySymbol (after calls).overrides sym =
      (calls.findSome? RegistryCall.devices).bind fun devices =>
        (devices.reverse.find? fun d => d.symbol = sym).map DeviceRaw.owned) ∧
    ∀ c, ((after calls).call c).1 = c.result calls := by
  refine ⟨after_commands calls, (after_errors calls).2, ?_, call_result calls⟩
  intro sym
  rw [DeviceRegistry.getOverrideBySymbol, after_overrides]
  cases calls.findSome? RegistryCall.devices with
  | none => rfl
  | some devices => exact DeviceRegistry.overrideMap_apply devices sym

/-- Once there is a client, `register_codes` fails in this process, and a registry of commands
comes too late. -/
example : ((Registries.after [.newClient]).call (.registerCodes [])).1 = .alreadyRegistered ∧
    ((Registries.after [.newClient]).call (.setGlobal [])).1 =
      .failed (.err (.protocol "global CommandRegistry already set")) := by
  decide +kernel

end MelsecMc
