/-
Finding the command of a request.

A server reads the command code and the subcommand off a request and looks for the command
they belong to.  The subcommand of a command is worked out here once more, apart from the
place where requests are built.
-/
import MelsecMc.CommandSpec
import MelsecMc.Define

namespace MelsecMc

namespace CommandSpec

/-- `effective_sub`: the subcommand of the command for the series. -/
def effectiveSub (spec : CommandSpec) (plcSeries : Option PlcSeries) : UInt16 :=
  match spec.subcommand with
  | some (.single v) => v
  | some (.perSeries map) =>
      -- prefer series-specific mapping if provided, otherwise first value
      match plcSeries with
      | some series =>
          let key := match series with
            | .q => "Q"
            | .r => "R"
          ((map.lookup key).or (map.head?.map (·.2))).getD 0
      | none => ((map.lookup "Q").or (map.head?.map (·.2))).getD 0
  | none => 0

end CommandSpec

namespace CommandRegistry

/-- The loop over `by_id.values()`. -/
def findIn (commandCode subcommand : UInt16) (plcSeries : Option PlcSeries) :
    List (Command × CommandSpec) → Option CommandSpec
  | [] => none
  | (_, spec) :: rest =>
      if spec.commandCode ≠ commandCode then findIn commandCode subcommand plcSeries rest
      else if spec.effectiveSub plcSeries = subcommand then some spec
      else findIn commandCode subcommand plcSeries rest

/-- `find_by_code_and_sub` -/
def findByCodeAndSub (reg : CommandRegistry) (commandCode subcommand : UInt16)
    (plcSeries : Option PlcSeries) : Option CommandSpec :=
  findIn commandCode subcommand plcSeries reg.byId

end CommandRegistry

end MelsecMc
