/-
What the limits of a command say.

Nothing here is translated from the source.  A limits table bounds, for each category of
devices, the number of points a request asks for.  The points of the blocks are summed up
as they are; a command without blocks has the one count of its params.
-/
import MelsecMc.Spec.Slots
import MelsecMc.Lib.Totals

namespace MelsecMc

/-- The limit for a category, if one is declared. -/
def Limits.limitFor (lim : Limits) : DeviceType → Option UInt64
  | .word => lim.wordPoints
  | .doubleWord => lim.dwordPoints
  | .bit => lim.bitPoints

/-- The points an entry asks for in a category. -/
def entryPoints (T : DeviceTable) (category : DeviceType) (entry : JsonValue) : Nat :=
  match entry.asObject with
  | none => 0
  | some obj =>
      match (CommandSpec.deviceCodeOf obj).bind (knownDevice T),
        (obj.get "count").bind JsonValue.asU64 with
      | some dev, some count => if dev.category = category then count.toNat else 0
      | _, _ => 0

/-- All entries of all block lists. -/
def allEntries (spec : CommandSpec) (params : JsonValue) : List JsonValue :=
  spec.blockTemplates.flatMap fun bt => givenBlocks params (bt.name ++ "s")

/-- The points all blocks together ask for in a category. -/
def blockPointsTotal (T : DeviceTable) (spec : CommandSpec) (params : JsonValue)
    (category : DeviceType) : Nat :=
  Totals.total (entryPoints T) (allEntries spec params) category

/-- No total of the blocks is above its limit. -/
def BlocksWithin (T : DeviceTable) (spec : CommandSpec) (params : JsonValue) (lim : Limits) : Prop :=
  ∀ category l, lim.limitFor category = some l →
    blockPointsTotal T spec params category ≤ l.toNat

/-- What a request needs, of all the code looks at: admitted device codes, blocks within the
limits, a list of objects for each block template and a value for every field. -/
structure Acceptable (T : DeviceTable) (spec : CommandSpec) (params : JsonValue)
    (plcSeries : Option PlcSeries) : Prop where
  codes : CodesFit T spec params
  totals : ∀ lim, spec.limits = some lim →
    (∀ c, blockPointsTotal T spec params c < 2 ^ 64) ∧ BlocksWithin T spec params lim
  blocks : ∀ bt ∈ spec.blockTemplates, BlocksGiven params bt
  values : ∀ slot ∈ slots spec params, slot.Writable spec params plcSeries

/-- The limit the command declares for the device the params name. -/
def DeclaredLimit (T : DeviceTable) (spec : CommandSpec) (params : JsonValue) (l : UInt64) : Prop :=
  ∃ lim, spec.limits = some lim ∧
    ∃ code dev, (params.get "device_code").bind JsonValue.asU64 = some code ∧
      knownDevice T code = some dev ∧ lim.limitFor dev.category = some l

/-- The count of the params is not above the limit declared for the device they name. -/
def CountWithin (T : DeviceTable) (spec : CommandSpec) (params : JsonValue) : Prop :=
  ∀ count l, (params.get "count").bind JsonValue.asU64 = some count →
    DeclaredLimit T spec params l → count.toNat ≤ l.toNat

/-- The params with this count. -/
def withCount (params : JsonMap) (count : UInt64) : JsonValue :=
  .object (params.insert "count" (.posInt count))

end MelsecMc
