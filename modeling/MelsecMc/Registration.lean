/-
Filling the error registry.

Applications register their own tables of end codes, and every `McClient::new()` and every
`init_defaults()` merges the table the crate comes with.  All of it goes into one
process-wide cell.  The lock around the map is left out: a registration is one step.
-/
import Mathlib.Logic.Function.Basic
import MelsecMc.ErrorCodes
import MelsecMc.ShippedCommands

namespace MelsecMc

/-- How a table may write a code. -/
inductive CodeValue
  | int (v : Int)
  | str (s : String)
  deriving DecidableEq

/-- `parse_hex_or_int`; `none` where it fails. -/
def parseHexOrInt : CodeValue → Option UInt16
  | .int v => if 0 ≤ v ∧ v < 65536 then some (UInt16.ofNat v.toNat) else none
  | .str s =>
      let parsed := match Text.trim s.toList with
        | '0' :: 'x' :: hex => Text.parseUnsigned 16 65536 hex
        | decimal => Text.parseUnsigned 10 65536 decimal
      parsed.map UInt16.ofNat

/-- A `[[codes]]` table. -/
structure RawErrorCode where
  code : CodeValue
  name : Option String
  description : Option String
  category : Option ErrorCategory

/-- `ErrorCodeEntry` -/
structure ErrorCodeEntry where
  code : UInt16
  name : Option String
  description : Option String
  category : Option ErrorCategory
  deriving DecidableEq

/-- `ErrorRegistry` -/
structure ErrorRegistry where
  codes : List ErrorCodeEntry

/-- The entry as the map holds it. -/
def ErrorCodeEntry.owned (e : ErrorCodeEntry) : ErrorEntryOwned where
  code := e.code
  name := e.name
  description := e.description
  category := e.category

/-- `MelsecError::AlreadyRegistered` -/
inductive RegisterError
  | alreadyRegistered
  deriving DecidableEq

namespace ErrorRegistry

/-- `from_str`, from the tables of the file; `none` where the parser's error is returned. -/
def fromStr (raws : List RawErrorCode) : Option ErrorRegistry :=
  (raws.mapM fun raw => (parseHexOrInt raw.code).map fun code =>
    (⟨code, raw.name, raw.description, raw.category⟩ : ErrorCodeEntry)).map ErrorRegistry.mk

/-- The loop over `self.codes`: `insert` puts an entry in place of one that is there. -/
def insertAll (codes : List ErrorCodeEntry) (map : UInt16 → Option ErrorEntryOwned) :
    UInt16 → Option ErrorEntryOwned :=
  codes.foldl (fun map e => Function.update map e.code (some e.owned)) map

/-- `register_codes` -/
def registerCodes (self : ErrorRegistry) (cell : ErrorRegistryCell) :
    Except RegisterError Unit × ErrorRegistryCell :=
  let map := insertAll self.codes fun _ => none
  match cell with
  | none => (.ok (), some map)
  | some existing => (.error .alreadyRegistered, some existing)

/-- `register_or_merge` -/
def registerOrMerge (self : ErrorRegistry) (cell : ErrorRegistryCell) : ErrorRegistryCell :=
  let map := insertAll self.codes fun _ => none
  match cell with
  | none => some map
  | some existing => some (insertAll self.codes existing)

end ErrorRegistry

/-- `error_codes.toml` -/
def shippedErrorCodes : List RawErrorCode :=
  [⟨.str "0x0000", some "MC_ERR_0000", some "正常完了",
      some .success⟩,
    ⟨.str "0x0002", some "MC_ERR_0002", some "読出し/書込み対象範囲の指定に誤りがある",
      some .addressing⟩,
    ⟨.str "0x0050", some "MC_ERR_0050", some "コマンド/レスポンス種別やデータ長などの不整合",
      some .dataFormat⟩,
    ⟨.str "0x0054", some "MC_ERR_0054", some "Ethernet設定のデータ形式(ASCII/BINARY)不整合",
      some .dataFormat⟩,
    ⟨.str "0x0055", some "MC_ERR_0055", some "実行モード(RUN/STOP)に起因する書込み制限エラー",
      some .executionMode⟩,
    ⟨.str "0x0060", some "MC_ERR_0060", some "CPU監視タイマを超える通信遅延",
      some .executionMode⟩,
    ⟨.str "0x00A0", some "MC_ERR_BUF_MIN", some "バッファ書込みエラー領域 - 最小",
      some .bufferRange⟩,
    ⟨.str "0xFFFF", some "MC_ERR_BUF_MAX", some "バッファ書込みエラー領域 - 最大",
      some .bufferRange⟩,
    ⟨.str "0xC001", some "MC_ERR_C001", some "ルータ/IP設定等に誤りがある",
      some .network⟩,
    ⟨.str "0xC00F", some "MC_ERR_C00F", some "IPアドレスの重複が検出された",
      some .network⟩,
    ⟨.str "0xC017", some "MC_ERR_C017", some "TCPコネクションのオープンに失敗した",
      some .transport⟩,
    ⟨.str "0xC032", some "MC_ERR_C032", some "TCP/UDPのタイムアウト/ACK未受信等",
      some .transport⟩,
    ⟨.str "0xC044", some "MC_ERR_C044", some "ICMPのエラーパケットを受信した",
      some .icmp⟩,
    ⟨.str "0xC061", some "MC_ERR_C061", some "伝文の要求データ長が，キャラクタ部(テキストの一部)のデータ数と合わない",
      some .dataFormat⟩,
    ⟨.str "0xC060", some "MC_ERR_C060", some "伝文の，ビットデバイスに対する要求内容に誤りがある",
      some .dataFormat⟩]

/-- The table `McClient::new` and `init_defaults` merge. -/
def shippedErrorRegistry : ErrorRegistry :=
  (ErrorRegistry.fromStr shippedErrorCodes).getD ⟨[]⟩

theorem fromStr_shippedErrorCodes :
    ErrorRegistry.fromStr shippedErrorCodes = some shippedErrorRegistry := by
  have hparses : (ErrorRegistry.fromStr shippedErrorCodes).isSome = true := by decide +kernel
  obtain ⟨reg, hreg⟩ := Option.isSome_iff_exists.mp hparses
  rw [shippedErrorRegistry, hreg, Option.getD_some]

/-- The process-wide registries. -/
structure Globals where
  /-- `GLOBAL_COMMAND_REGISTRY` -/
  commands : Option CommandRegistry
  /-- `ERROR_REGISTRY` -/
  errors : ErrorRegistryCell

namespace Globals

/-- `CommandRegistry::set_global` -/
def setGlobal (g : Globals) (reg : CommandRegistry) : Except Failure Unit × Globals :=
  match g.commands with
  | none => (.ok (), { g with commands := some reg })
  | some _ => (protocolError "global CommandRegistry already set", g)

/-- The registry that was parsed is set; an error of the parser is returned. -/
def setParsed (g : Globals) : Except Failure CommandRegistry → Except Failure Unit × Globals
  | .error e => (.error e, g)
  | .ok reg => g.setGlobal reg

/-- `CommandRegistry::load_and_set_global_from_src` -/
def loadAndSetGlobalFromSrc (g : Globals) : Except Failure Unit × Globals :=
  g.setParsed (CommandRegistry.parseCommandFile shippedCommands)

/-- The embedded table is parsed, and merged if it parses. -/
def mergeShipped (g : Globals) : Globals :=
  (ErrorRegistry.fromStr shippedErrorCodes).elim g fun reg =>
    { g with errors := reg.registerOrMerge g.errors }

/-- `McClient::new`: both results are ignored. -/
def newClient (g : Globals) : Globals :=
  g.loadAndSetGlobalFromSrc.2.mergeShipped

/-- `init_defaults` goes on after setting the command registry, and after the one error
whose text it looks for. -/
def goesOn : Except Failure Unit → Bool
  | .ok () => true
  | .error (.err e) =>
      Text.contains "global CommandRegistry already set".toList e.display.toList
  | .error (.panic _) => false

/-- `init_defaults`, for what it leaves behind. -/
def initDefaults (g : Globals) : Globals :=
  let loaded := g.loadAndSetGlobalFromSrc
  if goesOn loaded.1 then loaded.2.mergeShipped else loaded.2

end Globals

/-- What an application does with a table of its own. -/
inductive AppCall
  | registerCodes (reg : ErrorRegistry)
  | registerOrMerge (reg : ErrorRegistry)

/-- What loads the table the crate comes with. -/
inductive LoadCall
  | newClient
  | initDefaults
  deriving DecidableEq

/-- The entry a code is registered with. -/
def registered (cell : ErrorRegistryCell) (code : UInt16) : Option ErrorEntryOwned :=
  cell.bind fun map => map code

namespace Globals

def appCall (g : Globals) : AppCall → Globals
  | .registerCodes reg => { g with errors := (reg.registerCodes g.errors).2 }
  | .registerOrMerge reg => { g with errors := reg.registerOrMerge g.errors }

def loadCall (g : Globals) : LoadCall → Globals
  | .newClient => g.newClient
  | .initDefaults => g.initDefaults

/-- The registries after the application has registered its tables; nothing had been
registered before. -/
def afterApp (commands : Option CommandRegistry) (app : List AppCall) : Globals :=
  app.foldl appCall ⟨commands, none⟩

def afterLoads (g : Globals) (loads : List LoadCall) : Globals :=
  loads.foldl loadCall g

end Globals

end MelsecMc
