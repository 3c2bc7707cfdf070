/-
Checking a command file.

`validate_str` goes over the same records as the loader and looks for what the loader
accepts in silence: two commands with one id, a block template without its header field, a
family that is no family, a response entry that names nothing.
-/
import MelsecMc.CommandSpec

namespace MelsecMc

/-- The families a block template may name. -/
def knownFamilies : List String :=
  ["Bit", "bit", "Word", "word", "DoubleWord", "doubleword", "Any", "any"]

/-- One block template of `validate_str`; `reqNames` are the names of the request fields. -/
def validateBlockTemplate (id : Command) (reqNames : List String) (bt : BlockTemplateRaw) :
    Except Failure Unit := do
  if bt.repeatField ∉ reqNames then
    protocolError s!"block template '{bt.name}' repeat_field '{bt.repeatField}' not found in request_format for command {id.asStr}"
  match bt.deviceFamily with
  | some df =>
      if df ∉ knownFamilies then
        protocolError s!"invalid device_family '{df}' on block template '{bt.name}' for command {id.asStr}"
  | none => pure ()
  bt.fields.forM fun f => do
    let _ ← parseFieldSpec f

/-- One response entry of `validate_str`. -/
def validateResponseFormat (id : Command) (reqNames : List String)
    (bts : List BlockTemplateRaw) (rf : String) : Except Failure Unit :=
  match (rf.toList.splitOn ':').map String.ofList with
  | name :: _ :: _ =>
      if name ∈ reqNames ∨ bts.any (fun bt => bt.name ++ "s" = name) then .ok ()
      else
        protocolError s!"response_format name '{name}' not found in request fields or block templates for command {id.asStr}"
  | _ => protocolError s!"invalid response_format entry: {rf}"

/-- One command of `validate_str`. -/
def validateCommand (cmd : CommandSpecRaw) : Except Failure Unit := do
  let fields ← cmd.requestFormat.mapM parseFieldSpec
  let reqNames := fields.map FieldSpec.name
  let bts := cmd.blockTemplates.getD []
  bts.forM (validateBlockTemplate cmd.id reqNames)
  cmd.responseFormat.forM (validateResponseFormat cmd.id reqNames bts)

/-- The commands of `validate_str`, after those with the ids in `ids`. -/
def validateCommands : List Command → List CommandSpecRaw → Except Failure Unit
  | _, [] => .ok ()
  | ids, cmd :: cmds =>
      if cmd.id ∈ ids then protocolError s!"duplicate command id: {cmd.id.asStr}"
      else do
        validateCommand cmd
        validateCommands (cmd.id :: ids) cmds

/-- `CommandRegistry::validate_str` -/
def CommandRegistry.validateStr (commands : List CommandSpecRaw) : Except Failure Unit :=
  validateCommands [] commands

end MelsecMc
