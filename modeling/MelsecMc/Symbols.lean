/-
The symbols with a name in the program.

`Symbol` is the typed way to a device: a fixed list of symbols, each with its text, and a lookup
that goes through the text.  The list and the device file are kept apart; a symbol need not have
a device, and most devices have no symbol here.
-/
import MelsecMc.Device
import MelsecMc.Params

namespace MelsecMc

/-- `Symbol` -/
inductive Symbol
  | d
  | w
  | m
  | x
  | y
  | l
  | f
  | v
  | b
  | ts
  | tc
  | tn
  | sn
  | cn
  | cs
  | hs
  | hr
  | ar
  | dm
  | em
  | zr
  | ltn
  | sw
  | cc
  | ci
  | di
  | pi
  | si
  | bi
  | fi
  | ai
  | ao
  deriving DecidableEq, Repr

namespace Symbol

/-- `Symbol::as_str` -/
def asStr : Symbol → String
  | d => "D"
  | w => "W"
  | m => "M"
  | x => "X"
  | y => "Y"
  | l => "L"
  | f => "F"
  | v => "V"
  | b => "B"
  | ts => "TS"
  | tc => "TC"
  | tn => "TN"
  | sn => "SN"
  | cn => "CN"
  | cs => "CS"
  | hs => "HS"
  | hr => "HR"
  | ar => "AR"
  | dm => "DM"
  | em => "EM"
  | zr => "ZR"
  | ltn => "LTN"
  | sw => "SW"
  | cc => "CC"
  | ci => "CI"
  | di => "DI"
  | pi => "PI"
  | si => "SI"
  | bi => "BI"
  | fi => "FI"
  | ai => "AI"
  | ao => "AO"

/-- `Symbol::from_str` -/
def fromStr (s : String) : Except Failure Symbol :=
  match toUppercase s with
  | "D" => .ok d
  | "W" => .ok w
  | "M" => .ok m
  | "X" => .ok x
  | "Y" => .ok y
  | "L" => .ok l
  | "F" => .ok f
  | "V" => .ok v
  | "B" => .ok b
  | "TS" => .ok ts
  | "TC" => .ok tc
  | "TN" => .ok tn
  | "SN" => .ok sn
  | "CN" => .ok cn
  | "CS" => .ok cs
  | "HS" => .ok hs
  | "HR" => .ok hr
  | "AR" => .ok ar
  | "DM" => .ok dm
  | "EM" => .ok em
  | "ZR" => .ok zr
  | "LTN" => .ok ltn
  | "SW" => .ok sw
  | "CC" => .ok cc
  | "CI" => .ok ci
  | "DI" => .ok di
  | "PI" => .ok pi
  | "SI" => .ok si
  | "BI" => .ok bi
  | "FI" => .ok fi
  | "AI" => .ok ai
  | "AO" => .ok ao
  | other => protocolError s!"unknown symbol: {other}"

/-- `Symbol::try_to_device`, which is `device_by_symbol_enum` -/
def tryToDevice (T : DeviceTable) (sym : Symbol) : Option Device :=
  T.deviceBySymbol sym.asStr

/-- `Symbol::to_device` -/
def toDevice (T : DeviceTable) (sym : Symbol) : Except Failure Device :=
  match sym.tryToDevice T with
  | some device => .ok device
  | none => protocolError "known device symbol not found"

end Symbol

end MelsecMc
