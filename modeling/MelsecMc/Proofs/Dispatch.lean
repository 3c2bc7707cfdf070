/-
A request leads back to the command it was built from.

A request is its slots, and each of them only adds to those before it
(`buildRequest_first`), so the first four bytes of a request are what its first two fields
wrote: the command code and the subcommand, little-endian whatever the definition says.
The two places that work out the subcommand agree (`effectiveSub_eq`), and the scan of the
registry finds the one command that has both numbers.
-/
import MelsecMc.Dispatch
import MelsecMc.Lib.Lookup
import MelsecMc.Proofs.BlockRequest
import MelsecMc.Proofs.Slots

namespace MelsecMc

namespace CommandSpec

variable {spec : CommandSpec} {params : JsonValue} {plcSeries : Option PlcSeries}

/-- The first fields of a request are the first bytes of it: the slots behind them only add. -/
theorem buildRequest_first {T : DeviceTable} {first more : List FieldSpec}
    (hfields : spec.requestFields = first ++ more) {out : Bytes}
    (h : spec.buildRequest T params plcSeries = .ok out) :
    ∃ header, first.foldlM (spec.writeField params plcSeries) [] = .ok header ∧ header <+: out := by
  obtain ⟨-, hslots⟩ := buildRequest_eq_ok_iff.mp h
  rw [slots, requestSlots, hfields, List.map_append, List.append_assoc, List.foldlM_append] at hslots
  obtain ⟨header, hheader, hmore⟩ := bind_eq_ok.mp hslots
  rw [List.foldlM_map] at hheader
  obtain ⟨chunk, -, rfl⟩ := (Writers.Adds.foldlM fun slot _ => slot.adds_write).eq_ok.mp hmore
  exact ⟨header, hheader, List.prefix_append header chunk⟩

/-- Both places work out the same subcommand. -/
theorem effectiveSub_eq (spec : CommandSpec) (plcSeries : Option PlcSeries) :
    spec.effectiveSub plcSeries = (spec.effectiveSubcommand plcSeries).getD 0 := by
  unfold effectiveSub effectiveSubcommand
  cases spec.subcommand with
  | none => rfl
  | some sub =>
      cases sub with
      | single v => rfl
      | perSeries map =>
          cases plcSeries with
          | none => rfl
          | some series => cases series <;> rfl

/-- The command code and the subcommand in front of a request. -/
theorem buildRequest_header {T : DeviceTable} {le le' : Bool} {more : List FieldSpec}
    (hfields : spec.requestFields =
      ⟨"command", .fixedBytes 2 le⟩ :: ⟨"subcommand", .fixedBytes 2 le'⟩ :: more)
    {out : Bytes} (h : spec.buildRequest T params plcSeries = .ok out) :
    u16At out 0 = .ok spec.commandCode ∧ u16At out 2 = .ok (spec.effectiveSub plcSeries) := by
  obtain ⟨header, hheader, rest, hout⟩ := buildRequest_first
    (show spec.requestFields = [⟨"command", .fixedBytes 2 le⟩,
      ⟨"subcommand", .fixedBytes 2 le'⟩] ++ more from hfields) h
  rw [List.foldlM_cons, writeField_command, ok_bind, List.foldlM_cons, writeField_subcommand,
    ok_bind, List.foldlM_nil, pure_eq_ok, Except.ok.injEq, ← effectiveSub_eq] at hheader
  have hcode : LittleEndian.bytes 2 spec.commandCode.toNat =
      [u16Lo spec.commandCode, u16Hi spec.commandCode] := u16ToLeBytes_eq _
  have hsub : LittleEndian.bytes 2 (spec.effectiveSub plcSeries).toNat =
      [u16Lo (spec.effectiveSub plcSeries), u16Hi (spec.effectiveSub plcSeries)] :=
    u16ToLeBytes_eq _
  rw [← hout, ← hheader, hcode, hsub]
  simp only [u16At, List.cons_append, List.nil_append, byteAt_cons_succ, byteAt_cons_zero, ok_bind,
    pure_eq_ok, u16FromLeBytes_lo_hi, and_self]

/-- What a request says about the command it was built from. -/
def dispatchKey (plcSeries : Option PlcSeries) (spec : CommandSpec) : UInt16 × UInt16 :=
  (spec.commandCode, (spec.effectiveSubcommand plcSeries).getD 0)

end CommandSpec

namespace CommandRegistry

open CommandSpec

theorem findIn_eq_find? (commandCode subcommand : UInt16) (plcSeries : Option PlcSeries)
    (entries : List (Command × CommandSpec)) :
    findIn commandCode subcommand plcSeries entries =
      (entries.map Prod.snd).find? fun spec =>
        dispatchKey plcSeries spec = (commandCode, subcommand) := by
  induction entries with
  | nil => rfl
  | cons entry entries ih =>
      obtain ⟨id, spec⟩ := entry
      rw [findIn, ih, List.map_cons, effectiveSub_eq]
      by_cases hcode : spec.commandCode = commandCode
      · by_cases hsub : (spec.effectiveSubcommand plcSeries).getD 0 = subcommand
        · rw [if_neg (not_not_intro hcode), if_pos hsub, List.find?_cons_of_pos]
          rw [decide_eq_true_eq, dispatchKey, hcode, hsub]
        · rw [if_neg (not_not_intro hcode), if_neg hsub, List.find?_cons_of_neg]
          rw [decide_eq_true_eq, dispatchKey, Prod.mk.injEq]
          exact fun h => hsub h.2
      · rw [if_pos hcode, List.find?_cons_of_neg]
        rw [decide_eq_true_eq, dispatchKey, Prod.mk.injEq]
        exact fun h => hcode h.1

/-- The scan finds the one command with the two numbers, wherever it stands. -/
theorem findByCodeAndSub_of_mem {reg : CommandRegistry} {plcSeries : Option PlcSeries}
    (hdistinct : (reg.byId.map fun entry => dispatchKey plcSeries entry.2).Nodup)
    {id : Command} {spec : CommandSpec} (hmem : (id, spec) ∈ reg.byId) :
    reg.findByCodeAndSub spec.commandCode (spec.effectiveSub plcSeries) plcSeries = some spec := by
  have hkeys : ((reg.byId.map Prod.snd).map (dispatchKey plcSeries)).Nodup := by
    rw [List.map_map]
    exact hdistinct
  rw [findByCodeAndSub, findIn_eq_find?, effectiveSub_eq]
  exact Lookup.find?_key hkeys (List.mem_map_of_mem hmem)

/-- **Dispatch undoes encoding.**  The first two numbers of a request lead to the command it
was built from, in every order of the registry and for every shape of the subcommand. -/
theorem findByCodeAndSub_buildRequest {T : DeviceTable} {reg : CommandRegistry}
    {plcSeries : Option PlcSeries}
    (hdistinct : (reg.byId.map fun entry => dispatchKey plcSeries entry.2).Nodup)
    {id : Command} {spec : CommandSpec} (hmem : (id, spec) ∈ reg.byId) {le le' : Bool}
    {more : List FieldSpec}
    (hfields : spec.requestFields =
      ⟨"command", .fixedBytes 2 le⟩ :: ⟨"subcommand", .fixedBytes 2 le'⟩ :: more)
    {params : JsonValue} {out : Bytes} (hout : spec.buildRequest T params plcSeries = .ok out) :
    ∃ commandCode subcommand, u16At out 0 = .ok commandCode ∧ u16At out 2 = .ok subcommand ∧
      reg.findByCodeAndSub commandCode subcommand plcSeries = some spec := by
  obtain ⟨hcode, hsub⟩ := buildRequest_header hfields hout
  exact ⟨spec.commandCode, spec.effectiveSub plcSeries, hcode, hsub,
    findByCodeAndSub_of_mem hdistinct hmem⟩

theorem findByCodeAndSub_buildRequest_oneWordBlock :
    ∃ commandCode subcommand,
      u16At [0x06, 0x04, 0x00, 0x00, 0x01, 0x00] 0 = .ok commandCode ∧
      u16At [0x06, 0x04, 0x00, 0x00, 0x01, 0x00] 2 = .ok subcommand ∧
      shippedRegistry.findByCodeAndSub commandCode subcommand (some .q) = some readBlocksSpec :=
  findByCodeAndSub_buildRequest (by decide +kernel) (mem_of_get get_readBlocks) rfl
    buildRequest_oneWordBlock

end CommandRegistry

end MelsecMc
