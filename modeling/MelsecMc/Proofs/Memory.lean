/-
What an operation does to the memory of a station.

The client and the station are written from the two ends of one layout, and here they meet.
A station that answers the frame of an operation has either done the operation to its memory,
and then the client's result is what was read, or it has left the memory alone, and then the
client has an error (`outcome_of_serve`).  A `write_bits` of more points than the count
can say is one the station refuses: no number of two bytes goes with that many points.

A station need not do what it is asked.  It may refuse any request, for the device, for the
address or for no reason that can be seen from outside; what counts is that it then says so and
changes nothing.
-/
import MelsecMc.Proofs.BatchRequest
import MelsecMc.Proofs.Mc4eResponse
import MelsecMc.Proofs.ReadBits
import MelsecMc.Spec.Memory

namespace MelsecMc

/-- The operation, done to a memory at a device code and address: the state before and after,
and the value. -/
inductive Performed {σ : Type} (mem : DeviceMemory σ) (code addr : Nat) :
    BatchOp → σ → σ → JsonValue → Prop
  | readWords {device : String} {count : UInt16} {s : σ} {words : List UInt16} {value : JsonValue}
      (hread : mem.readWords s code addr count.toNat = some words)
      (hvalue : value.get "data_blocks" = some (.array [.array (jsonWords words)])) :
      Performed mem code addr (.readWords device count) s s value
  | readBits {device : String} {count : UInt16} {s : σ} {bits : List Bool} {value : JsonValue}
      (hread : mem.readBits s code addr count.toNat = some bits)
      (hvalue : value.get "data_blocks" = some (.array [.array (jsonBits bits)])) :
      Performed mem code addr (.readBits device count) s s value
  | writeWords {device : String} {values : List UInt16} {s s' : σ} {value : JsonValue}
      (hwrite : mem.writeWords s code addr values = some s') :
      Performed mem code addr (.writeWords device values) s s' value
  | writeBits {device : String} {values : List Bool} {s s' : σ} {value : JsonValue}
      (hwrite : mem.writeBits s code addr values = some s') :
      Performed mem code addr (.writeBits device values) s s' value

/-! ### The station reads the points

What the client packs the station unpacks: words of two bytes, and points two a byte.
-/

theorem wordsOf_wordsLe (words : List UInt16) : wordsOf (wordsLe words) = some words := by
  induction words with
  | nil => rfl
  | cons w words ih =>
      have hcons : wordsLe (w :: words) = u16Lo w :: u16Hi w :: wordsLe words := rfl
      rw [hcons, wordsOf, ih, u16FromLeBytes_lo_hi]
      rfl

theorem pointsOf_packNibbles (values : List Bool) :
    pointsOf values.length (packNibbles values) = values := by
  have hbits := nibbleBits_packNibbles values
  rw [nibbleBits_true, ← List.map_take] at hbits
  rw [pointsOf]
  exact hbits

/-! ### The station does the operation

For each of the four operations, what the station makes of its request: the memory is asked,
and grants or refuses.
-/

section Station

variable {σ : Type} (mem : DeviceMemory σ) (series : PlcSeries) (s : σ) (dev : Device) (addr : Nat)

section Perform

variable (code count : Nat) (points : Bytes)

theorem perform_read_words :
    mem.perform series s ⟨0x0401, batchSubcommand false series, addr, code, count, points⟩ =
      (s, ((mem.readWords s code addr count).map fun ws =>
        Reply.ofData (wordsLe ws)).getD .refused) :=
  if_pos ⟨rfl, rfl⟩

theorem perform_read_points :
    mem.perform series s ⟨0x0401, batchSubcommand true series, addr, code, count, points⟩ =
      (s, ((mem.readBits s code addr count).map fun bs =>
        Reply.ofData (packNibbles bs)).getD .refused) := by
  unfold DeviceMemory.perform
  dsimp only
  rw [if_neg (by cases series <;> decide)]
  exact if_pos ⟨rfl, rfl⟩

theorem perform_write_words {words : List UInt16} (hwords : wordsOf points = some words)
    (hcount : words.length = count) :
    mem.perform series s ⟨0x1401, batchSubcommand false series, addr, code, count, points⟩ =
      DeviceMemory.written s (mem.writeWords s code addr words) := by
  unfold DeviceMemory.perform
  dsimp only
  rw [if_neg (by cases series <;> decide), if_neg (by cases series <;> decide),
    if_pos ⟨rfl, rfl⟩, hwords]
  exact if_pos hcount

theorem perform_write_points :
    mem.perform series s ⟨0x1401, batchSubcommand true series, addr, code, count, points⟩ =
      if points.length = (count + 1) / 2 then
        DeviceMemory.written s (mem.writeBits s code addr (pointsOf count points))
      else (s, .refused) := by
  unfold DeviceMemory.perform
  dsimp only
  rw [if_neg (by cases series <;> decide), if_neg (by cases series <;> decide),
    if_neg (by cases series <;> decide), if_pos ⟨rfl, rfl⟩]

end Perform

/-- The request data of an operation as it arrives. -/
def arrived (op : BatchOp) : BatchData :=
  { op.data series dev addr with count := op.count % 65536 }

theorem perform_readWords (device : String) (count : UInt16) :
    mem.perform series s (arrived series dev addr (.readWords device count)) =
      (s, ((mem.readWords s dev.deviceCode.toNat addr count.toNat).map fun ws =>
        Reply.ofData (wordsLe ws)).getD .refused) := by
  have harrived : arrived series dev addr (.readWords device count) =
      ⟨0x0401, batchSubcommand false series, addr, dev.deviceCode.toNat, count.toNat % 65536, []⟩ := by
    cases series <;> rfl
  rw [harrived, Nat.mod_eq_of_lt count.toNat_lt]
  exact perform_read_words mem series s addr _ _ _

theorem perform_readBits (device : String) (count : UInt16) :
    mem.perform series s (arrived series dev addr (.readBits device count)) =
      (s, ((mem.readBits s dev.deviceCode.toNat addr count.toNat).map fun bs =>
        Reply.ofData (packNibbles bs)).getD .refused) := by
  have harrived : arrived series dev addr (.readBits device count) =
      ⟨0x0401, batchSubcommand true series, addr, dev.deviceCode.toNat, count.toNat % 65536, []⟩ := by
    cases series <;> rfl
  rw [harrived, Nat.mod_eq_of_lt count.toNat_lt]
  exact perform_read_points mem series s addr _ _ _

theorem perform_writeWords (device : String) {values : List UInt16} (h : values.length < 65536) :
    mem.perform series s (arrived series dev addr (.writeWords device values)) =
      DeviceMemory.written s (mem.writeWords s dev.deviceCode.toNat addr values) := by
  have harrived : arrived series dev addr (.writeWords device values) =
      ⟨0x1401, batchSubcommand false series, addr, dev.deviceCode.toNat, values.length % 65536,
        wordsLe values⟩ := by
    cases series <;> rfl
  rw [harrived]
  exact perform_write_words mem series s addr _ _ _ (wordsOf_wordsLe values)
    (Nat.mod_eq_of_lt h).symm

/-- No count of two bytes goes with more points than it can say. -/
theorem perform_writeBits (device : String) (values : List Bool) :
    mem.perform series s (arrived series dev addr (.writeBits device values)) =
      if values.length < 65536 then
        DeviceMemory.written s (mem.writeBits s dev.deviceCode.toNat addr values)
      else (s, .refused) := by
  have harrived : arrived series dev addr (.writeBits device values) =
      ⟨0x1401, batchSubcommand true series, addr, dev.deviceCode.toNat, values.length % 65536,
        packNibbles values⟩ := by
    cases series <;> rfl
  rw [harrived, perform_write_points, length_packNibbles]
  by_cases hlt : values.length < 65536
  · rw [Nat.mod_eq_of_lt hlt, if_pos rfl, if_pos hlt, pointsOf_packNibbles]
  · rw [if_neg hlt]
    exact if_neg (by omega)

end Station

/-! ### The client reads the answer

An answer with the end code 0 and with the data of the operation is parsed to its value, and
one with another end code is an error, whatever its data.
-/

namespace BatchOp

variable {S : Setting}

theorem answer_bytes (hreg : S.registry = shippedRegistry) (op : BatchOp) (f : Mc4eFrame) :
    (f.endCode = 0 →
      op.answer S f.bytes = op.spec.parseResponse S.table (op.params S.table) f.data) ∧
    (f.endCode ≠ 0 → ∃ e, op.answer S f.bytes = .error (.err e)) := by
  have hresponse := f.tryNew_bytes
  have hhas : (decodedMc4e f.subheader f.serial f.route f.endCode f.data).hasEndCode = true := rfl
  have hcode : (decodedMc4e f.subheader f.serial f.route f.endCode f.data).endCode =
      some f.endCode := rfl
  have hanswer : op.answer S f.bytes =
      McClient.checkResponseEndCode S.errors
        (decodedMc4e f.subheader f.serial f.route f.endCode f.data) >>= fun _ =>
          op.spec.parseResponse S.table (op.params S.table) f.data := by
    rw [answer, hreg, op.get_spec]
    dsimp only
    rw [hresponse, ok_bind]
    rfl
  rw [hanswer]
  constructor
  · intro hzero
    rw [(checkResponseEndCode_ok_iff S.errors hhas hcode).mpr hzero, ok_bind]
  · intro hne
    obtain ⟨e, he⟩ := checkResponseEndCode_error S.errors hhas hcode hne
    rw [he]
    exact ⟨e, rfl⟩

/-- The values of a read are the words the answer has. -/
theorem parse_readWords (T : DeviceTable) (device : String) {count : UInt16} {words : List UInt16}
    (hlen : words.length = count.toNat) :
    ∃ value, readWordsSpec.parseResponse T (createReadWordsParams T device count) (wordsLe words) =
        .ok value ∧ value.get "data_blocks" = some (.array [.array (jsonWords words)]) := by
  have hcount := readBlockCount_descriptor count "data_blocks"
  rw [← hlen] at hcount
  have hbound : words.length * 2 < usizeBound := by
    have hlt := count.toNat_lt
    rw [usizeBound]
    omega
  have hentries : readWordsSpec.responseEntries = [.blockWords "data_blocks" true] := rfl
  have hparse := parseResponse_blockWords T hentries (cachedArray_readWords T device count) hcount
    hbound
  rw [blockBytes_true] at hparse
  exact ⟨_, hparse, by rw [JsonValue.get_object, JsonMap.get_insert_self]⟩

theorem parse_readBits (T : DeviceTable) (device : String) {count : UInt16} {bits : List Bool}
    (hlen : bits.length = count.toNat) :
    ∃ value, readBitsSpec.parseResponse T (createReadBitsParams T device count) (packNibbles bits) =
        .ok value ∧ value.get "data_blocks" = some (.array [.array (jsonBits bits)]) := by
  have hcount := readBlockCount_descriptor count "data_blocks"
  rw [← hlen] at hcount
  have hbound : (packNibbles bits).length < usizeBound := by
    have hlt := count.toNat_lt
    rw [length_packNibbles, usizeBound]
    omega
  have hentries : readBitsSpec.responseEntries = [.blockNibbles "data_blocks" true] := rfl
  have hparse := parseResponse_blockNibbles T hentries (cachedArray_readBits T device count) hcount
    (length_packNibbles bits) hbound
  rw [nibbleBits_packNibbles] at hparse
  exact ⟨_, hparse, by rw [JsonValue.get_object, JsonMap.get_insert_self]⟩

end BatchOp

/-! ### Both ends

The frame the client builds is decoded to the operation, so the answer is that of the
memory, and what the client makes of the answer is the outcome.
-/

section BothEnds

variable {σ : Type} {mem : DeviceMemory σ} {S : Setting} {op : BatchOp} {dev : Device} {addr : Nat}
  {s s' : σ}

/-- What became of the operation: it was done, and this is its value, or the memory is as it
was, and the client has an error. -/
inductive OpOutcome (mem : DeviceMemory σ) (S : Setting) (op : BatchOp) (dev : Device) (addr : Nat)
    (s s' : σ) (f : Mc4eFrame) : Prop
  | performed {value : JsonValue} (hvalue : op.answer S f.bytes = .ok value)
      (hperformed : Performed mem dev.deviceCode.toNat addr op s s' value)
  | refused {e : MelsecError} (he : op.answer S f.bytes = .error (.err e)) (hsame : s' = s)

theorem serve_builtFrame (mem : DeviceMemory σ) (hformat : S.client.mcFormat = .mc4e)
    (hnames : op.Names S.table dev addr) (counter : UInt16) (s : σ) :
    (mem.station S.client.plcSeries).serve s (op.builtFrame S dev addr counter) =
      ((mem.perform S.client.plcSeries s (arrived S.client.plcSeries dev addr op)).1,
        some (DeviceMemory.answerFrame (op.builtFrame S dev addr counter)
          (mem.perform S.client.plcSeries s (arrived S.client.plcSeries dev addr op)).2)) := by
  have hdecode := op.decodeBatch_builtFrame S hnames counter
  rw [hformat] at hdecode
  have hdrop : decodeBatch S.client.plcSeries ((op.builtFrame S dev addr counter).drop 15) =
      some (arrived S.client.plcSeries dev addr op) := hdecode
  unfold DeviceMemory.station
  dsimp only
  rw [hdrop]

theorem outcome_refused (hreg : S.registry = shippedRegistry) (request : Bytes) :
    OpOutcome mem S op dev addr s s (DeviceMemory.answerFrame request .refused) := by
  have hcode : (DeviceMemory.answerFrame request .refused).endCode ≠ 0 :=
    show refusalCode ≠ 0 by decide
  obtain ⟨e, he⟩ := (op.answer_bytes hreg (DeviceMemory.answerFrame request .refused)).2 hcode
  exact .refused he rfl

/-- Data that is read comes back, or it is too much for a frame. -/
theorem outcome_ofData (hreg : S.registry = shippedRegistry) (request : Bytes) {data : Bytes}
    {value : JsonValue} (hparse : op.spec.parseResponse S.table (op.params S.table) data = .ok value)
    (hperformed : Performed mem dev.deviceCode.toNat addr op s s value) :
    OpOutcome mem S op dev addr s s (DeviceMemory.answerFrame request (.ofData data)) := by
  rw [Reply.ofData]
  by_cases hfits : 15 + data.length ≤ 65535
  · rw [dif_pos hfits]
    have hanswer := (op.answer_bytes hreg (DeviceMemory.answerFrame request ⟨0, data, hfits⟩)).1 rfl
    exact .performed (hanswer.trans hparse) hperformed
  · rw [dif_neg hfits]
    exact outcome_refused hreg request

/-- A write is done or not. -/
theorem outcome_written (hreg : S.registry = shippedRegistry) (request : Bytes) {wrote : Option σ}
    (hempty : op.spec.responseEntries = [])
    (hperformed : ∀ s', wrote = some s' →
      Performed mem dev.deviceCode.toNat addr op s s' (.object [])) :
    OpOutcome mem S op dev addr s (DeviceMemory.written s wrote).1
      (DeviceMemory.answerFrame request (DeviceMemory.written s wrote).2) := by
  cases wrote with
  | none => exact outcome_refused hreg request
  | some s' =>
      have hanswer := (op.answer_bytes hreg (DeviceMemory.answerFrame request .done)).1 rfl
      rw [CommandSpec.parseResponse, hempty] at hanswer
      exact .performed hanswer (hperformed s' rfl)

/-- **What the station makes of an operation's frame**, whatever its memory: the operation is
done, or nothing is. -/
theorem outcome_of_serve (mem : DeviceMemory σ) (hreg : S.registry = shippedRegistry)
    (hformat : S.client.mcFormat = .mc4e) (hnames : op.Names S.table dev addr)
    (hfits : op.dataLen S.client.plcSeries ≤ 65533) (counter : UInt16) (s : σ) :
    ∃ s' f, (mem.station S.client.plcSeries).serve s (op.builtFrame S dev addr counter) =
        (s', some f) ∧ OpOutcome mem S op dev addr s s' f := by
  refine ⟨_, _, serve_builtFrame mem hformat hnames counter s, ?_⟩
  cases op with
  | readWords device count =>
      rw [perform_readWords]
      cases hread : mem.readWords s dev.deviceCode.toNat addr count.toNat with
      | none => exact outcome_refused hreg _
      | some words =>
          obtain ⟨value, hparse, hvalue⟩ := BatchOp.parse_readWords S.table device
            (mem.length_readWords _ _ _ _ _ hread)
          exact outcome_ofData hreg _ hparse (.readWords hread hvalue)
  | readBits device count =>
      rw [perform_readBits]
      cases hread : mem.readBits s dev.deviceCode.toNat addr count.toNat with
      | none => exact outcome_refused hreg _
      | some bits =>
          obtain ⟨value, hparse, hvalue⟩ := BatchOp.parse_readBits S.table device
            (mem.length_readBits _ _ _ _ _ hread)
          exact outcome_ofData hreg _ hparse (.readBits hread hvalue)
  | writeWords device values =>
      have hlen : values.length < 65536 := by
        rw [BatchOp.dataLen, BatchOp.points, length_wordsLe] at hfits
        omega
      rw [perform_writeWords _ _ _ _ _ _ hlen]
      exact outcome_written hreg _ rfl fun s' hwrote => .writeWords hwrote
  | writeBits device values =>
      rw [perform_writeBits]
      by_cases hlen : values.length < 65536
      · rw [if_pos hlen]
        exact outcome_written hreg _ rfl fun s' hwrote => .writeBits hwrote
      · rw [if_neg hlen]
        exact outcome_refused hreg _

end BothEnds

end MelsecMc
