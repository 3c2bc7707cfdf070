/-
The error-code registry.

The registry is a process-wide cell holding a map from end codes to entries; it is
empty until something registers.  Here it is a value that the lookups take.
-/
import MelsecMc.Bytes

namespace MelsecMc

/-- `ErrorCategory` -/
inductive ErrorCategory
  | success
  | addressing
  | dataFormat
  | executionMode
  | bufferRange
  | network
  | transport
  | icmp
  | unknown
  deriving DecidableEq, Repr

/-- `ErrorEntryOwned` -/
structure ErrorEntryOwned where
  code : UInt16
  name : Option String
  description : Option String
  category : Option ErrorCategory
  deriving DecidableEq

/-- `ERROR_REGISTRY`: unset, or the registered entries by code. -/
abbrev ErrorRegistryCell := Option (UInt16 → Option ErrorEntryOwned)

/-- `code_description` -/
def codeDescription (registry : ErrorRegistryCell) (code : UInt16) : Option String :=
  registry.bind fun map => (map code).bind (·.description)

/-- `code_name` -/
def codeName (registry : ErrorRegistryCell) (code : UInt16) : Option String :=
  registry.bind fun map => (map code).bind (·.name)

end MelsecMc
