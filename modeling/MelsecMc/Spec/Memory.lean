/-
A station with device memory.

Nothing here is translated from the source.  The memory of a station is read and written by
device code and address, in words or in points, and it may refuse what it does not have.
The station takes an MC4E request apart by the layout of the batch commands, does to its
memory what the request says, and answers with the serial and the access route of the
request and an end code, which is 0 when the request was carried out.
-/
import MelsecMc.Plant
import MelsecMc.Spec.Batch

namespace MelsecMc

/-- Device memory.  A read brings as many words or points as it was asked for. -/
structure DeviceMemory (σ : Type) where
  readWords : σ → Nat → Nat → Nat → Option (List UInt16)
  readBits : σ → Nat → Nat → Nat → Option (List Bool)
  writeWords : σ → Nat → Nat → List UInt16 → Option σ
  writeBits : σ → Nat → Nat → List Bool → Option σ
  length_readWords : ∀ s code address count words,
    readWords s code address count = some words → words.length = count
  length_readBits : ∀ s code address count bits,
    readBits s code address count = some bits → bits.length = count

/-- What a station answers besides what it repeats of the request. -/
structure Reply where
  endCode : UInt16
  data : Bytes
  fits : 15 + data.length ≤ 65535

/-- An answer without data fits in a frame. -/
theorem fits_nil : 15 + ([] : Bytes).length ≤ 65535 := by decide

/-- The end code of a request that is not carried out. -/
def refusalCode : UInt16 := 0xC059

def Reply.refused : Reply where
  endCode := refusalCode
  data := []
  fits := fits_nil

def Reply.done : Reply where
  endCode := 0
  data := []
  fits := fits_nil

/-- The data that was read, if it fits in a frame. -/
def Reply.ofData (data : Bytes) : Reply :=
  if h : 15 + data.length ≤ 65535 then ⟨0, data, h⟩ else .refused

/-- The words of the bytes, if they are whole words. -/
def wordsOf : Bytes → Option (List UInt16)
  | [] => some []
  | [_] => none
  | lo :: hi :: rest => (wordsOf rest).map (u16FromLeBytes lo hi :: ·)

/-- The first `count` points of the bytes, two a byte. -/
def pointsOf (count : Nat) (bytes : Bytes) : List Bool :=
  ((highLowNibbles bytes).take count).map fun nibble => nibble ≠ 0

/-- The subcommand for access by words, and for access by points. -/
def batchSubcommand (points : Bool) : PlcSeries → Nat
  | .q => if points then 1 else 0
  | .r => if points then 3 else 2

namespace DeviceMemory

variable {σ : Type} (mem : DeviceMemory σ)

/-- What was written, if it was. -/
def written (s : σ) : Option σ → σ × Reply
  | some s' => (s', .done)
  | none => (s, .refused)

/-- A batch request is carried out. -/
def perform (series : PlcSeries) (s : σ) (request : BatchData) : σ × Reply :=
  let ⟨command, subcommand, address, code, count, points⟩ := request
  if command = 0x0401 ∧ subcommand = batchSubcommand false series then
    (s, ((mem.readWords s code address count).map fun ws => Reply.ofData (wordsLe ws)).getD .refused)
  else if command = 0x0401 ∧ subcommand = batchSubcommand true series then
    (s, ((mem.readBits s code address count).map fun bs =>
      Reply.ofData (packNibbles bs)).getD .refused)
  else if command = 0x1401 ∧ subcommand = batchSubcommand false series then
    match wordsOf points with
    | some words =>
        if words.length = count then written s (mem.writeWords s code address words)
        else (s, .refused)
    | none => (s, .refused)
  else if command = 0x1401 ∧ subcommand = batchSubcommand true series then
    if points.length = (count + 1) / 2 then
      written s (mem.writeBits s code address (pointsOf count points))
    else (s, .refused)
  else (s, .refused)

/-- The access route of an MC4E request. -/
def routeOf : Bytes → AccessRoute
  | _ :: _ :: _ :: _ :: _ :: _ :: network :: pc :: ioLo :: ioHi :: station :: _ =>
      ⟨network, pc, u16FromLeBytes ioLo ioHi, station⟩
  | _ => AccessRoute.default

theorem lead_response : IsMc4eLead (leadByte mcSubheaderResponse) := Or.inr rfl

/-- The answer to a request. -/
def answerFrame (request : Bytes) (reply : Reply) : Mc4eFrame where
  subheader := mcSubheaderResponse
  serial := serialOf request
  reserved := 0
  route := routeOf request
  endCode := reply.endCode
  data := reply.data
  lead := lead_response
  fits := reply.fits

/-- The station with this memory. -/
def station (series : PlcSeries) : Station σ where
  serve s request :=
    match decodeBatch series (request.drop 15) with
    | some batch =>
        let (s', reply) := mem.perform series s batch
        (s', some (answerFrame request reply))
    | none => (s, some (answerFrame request .refused))
  echoes := by
    intro s request f h
    split at h
    · cases h
      rfl
    · cases h
      rfl

end DeviceMemory

end MelsecMc
