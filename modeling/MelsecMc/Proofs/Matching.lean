/-
The answer to a request, at both transports.

The serial both transports expect is read from bytes 2 and 3 of the request, whatever
its format.  In an MC4E request that is the serial; in an MC3E request it is the network
and PC number of the route.  The UDP side reads the same two bytes of each datagram, and
an MC3E response repeats the route, so the two agree.  The TCP side compares with the
serial `detect_frame` announces, and an MC3E frame announces none: the loop takes that
for 0 and drops the answer unless 0 is what it expects.
-/
import MelsecMc.Proofs.Reassembly

namespace MelsecMc

/-- The response a station sends to `req`, in the format of the request. -/
def answer (format : McFrameFormat) (req : McRequest) (endCode : UInt16) (data : Bytes) : Bytes :=
  match format with
  | .mc4e =>
      mc4eHeader mcSubheaderResponse req.serialNumber 0x0000 req.accessRoute (dataLenField data)
        endCode ++ data
  | .mc3e => mc3eHeader mc3eSubheaderResponse req.accessRoute (dataLenField data) endCode ++ data

/-- The reads bring the whole response, and the first of them brings the header. -/
structure DeliveredWhole (response : Bytes) (chunks : List Bytes) : Prop where
  nonempty : ∀ c ∈ chunks, c ≠ []
  whole : chunks.flatten = response
  header : ∀ c ∈ chunks.head?, min 15 response.length ≤ c.length

/-- Both transports return the answer, unchanged and with nothing left over. -/
structure BothAccept (payload response : Bytes) (chunks : List Bytes) : Prop where
  tcp : receive (serialOf payload) [] (chunks.map .ok) = .returned response []
  udp : receiveUdp (serialOf payload) udpBufLen [.ok response] = .returned response

/-! ### Reads that bring the header first

The condition on the reads excludes what `Proofs/Reassembly` is about, so that what remains
is the question which serial is compared with which.
-/

theorem head_le_take {chunks : List Bytes} {i : Nat} (hi : 0 < i) :
    ∀ c ∈ chunks.head?, c.length ≤ (chunks.take i).flatten.length := by
  intro c hc
  cases chunks with
  | nil => simp at hc
  | cons d chunks =>
      obtain ⟨j, rfl⟩ : ∃ j, i = j + 1 := ⟨i - 1, by omega⟩
      rw [List.head?_cons, Option.mem_some_iff] at hc
      rw [List.take_succ_cons, List.flatten_cons, List.length_append, hc]
      omega

/-- If the loop waits at every cut behind the header, the reads do not matter. -/
theorem receive_deliveredWhole {expected : UInt16} {response : Bytes} {chunks : List Bytes}
    (hdeliv : DeliveredWhole response chunks)
    (hwaits : ∀ k, min 15 response.length ≤ k → k < response.length →
      scanVerdict expected (response.take k) = .await) :
    receive expected [] (chunks.map .ok) = .ofOutcome ((receiver expected).scan response) := by
  have hsettled : ∀ i, 0 < i → i < chunks.length →
      (receiver expected).Settled (chunks.take i).flatten := by
    intro i hpos hi
    obtain ⟨hpre, hlt⟩ := take_flatten_spec hdeliv.nonempty hi
    have hlong : min 15 response.length ≤ (chunks.take i).flatten.length := by
      obtain ⟨c, hc⟩ : ∃ c, chunks.head? = some c :=
        ⟨chunks[0], List.head?_eq_getElem? ▸ List.getElem?_eq_getElem (by omega)⟩
      exact Nat.le_trans (hdeliv.header c hc) (head_le_take hpos c hc)
    rw [hdeliv.whole] at hlt
    refine ⟨[], (chunks.take i).flatten, by simp, rfl, ?_⟩
    rw [hpre, hdeliv.whole]
    exact hwaits _ hlong hlt
  rw [receive_ok expected hdeliv.nonempty,
    (receiver expected).feed_eq_scan (scanVerdict_nil expected) hsettled, hdeliv.whole]

/-- A datagram that carries the expected serial is returned as it is. -/
theorem receiveUdp_same_serial {payload response : Bytes} (hlen : response.length ≤ udpBufLen)
    (hserial : serialOf response = serialOf payload) :
    receiveUdp (serialOf payload) udpBufLen [.ok response] = .returned response := by
  rw [receiveUdp, onDatagram, List.take_of_length_le hlen, if_pos (.inr hserial)]

/-! ### MC4E

The answer repeats the serial, and both transports find it where the request had it.
-/

section Mc4e

variable (req : McRequest) (endCode : UInt16) {data : Bytes}

theorem bothAccept_mc4e {chunks : List Bytes}
    (hlen : (answer .mc4e req endCode data).length ≤ maxFrameLen)
    (hdeliv : DeliveredWhole (answer .mc4e req endCode data) chunks) :
    BothAccept (req.buildWithFormat .mc4e) (answer .mc4e req endCode data) chunks := by
  have hfits : 15 + data.length ≤ 65535 := by
    rwa [answer, List.length_append, length_mc4eHeader] at hlen
  let f : Mc4eFrame := ⟨mcSubheaderResponse, req.serialNumber, 0x0000, req.accessRoute, endCode,
    data, Or.inr rfl, hfits⟩
  have hbytes : answer .mc4e req endCode data = f.bytes := rfl
  have hf := f.length_bytes
  constructor
  · have hscan := (receiver (serialOf (req.buildWithFormat .mc4e))).scan_delivers
      (Mc4eFrame.delivers (f := f) (.inr (serialOf_buildWithFormat_mc4e req).symm)) []
    rw [List.append_nil] at hscan
    rw [receive_deliveredWhole hdeliv fun k hk hlt => ?_, hbytes, hscan]
    · rfl
    · rw [hbytes] at hk hlt ⊢
      exact f.scanVerdict_take_long _ (by omega) hlt
  · refine receiveUdp_same_serial hlen ?_
    rw [answer, serialOf_mc4eHeader, serialOf_buildWithFormat_mc4e]

end Mc4e

/-! ### MC3E

There is no serial in the answer.  Over UDP the bytes of the route stand for one on both sides;
over TCP they do on one side only.
-/

section Mc3e

variable (req : McRequest) (endCode : UInt16) {data : Bytes}

/-- The front of the answer, once it holds the header. -/
theorem take_answer_mc3e {k : Nat} (hk : 11 ≤ k) :
    (answer .mc3e req endCode data).take k =
      mc3eHeader mc3eSubheaderResponse req.accessRoute (dataLenField data) endCode
        ++ data.take (k - 11) := by
  rw [answer, List.take_append, length_mc3eHeader,
    List.take_of_length_le (by rw [length_mc3eHeader]; exact hk)]

/-- The loop finds the answer's own length, and no serial. -/
theorem detectFrame_answer_mc3e (hfits : data.length + 2 < 65536) {k : Nat} (hk : 11 ≤ k) :
    detectFrame ((answer .mc3e req endCode data).take k) =
      .ok (some ((answer .mc3e req endCode data).length, 11, none)) := by
  have hdataLen := McRequest.dataLenField_toNat hfits
  rw [take_answer_mc3e req endCode hk, detectFrame_mc3eHeader, hdataLen, Nat.add_sub_cancel,
    answer, List.length_append, length_mc3eHeader]
  · rw [mc3eHeader_eq]
    exact startsMc4e_of_not_lead (by decide)
  · omega

theorem scanVerdict_answer_mc3e (hlen : (answer .mc3e req endCode data).length ≤ maxFrameLen)
    (expected : UInt16) :
    scanVerdict expected (answer .mc3e req endCode data) =
      if expected = 0 then .deliver (answer .mc3e req endCode data).length
      else .drop (answer .mc3e req endCode data).length := by
  have hlength : (answer .mc3e req endCode data).length = 11 + data.length := by
    rw [answer, List.length_append, length_mc3eHeader]
  have hfits : data.length + 2 < 65536 := by
    rw [maxFrameLen] at hlen
    omega
  have hdetect := detectFrame_answer_mc3e req endCode hfits
    (show 11 ≤ (answer .mc3e req endCode data).length by omega)
  rw [List.take_length] at hdetect
  rw [scanVerdict_of_whole expected hdetect (by omega) hlen (Nat.le_refl _), Option.getD_none]
  by_cases h0 : expected = 0
  · rw [if_pos (.inl h0), if_pos h0]
  · rw [if_neg fun h => h.elim h0 fun h => h0 h.symm, if_neg h0]

theorem scanVerdict_answer_mc3e_take (hlen : (answer .mc3e req endCode data).length ≤ maxFrameLen)
    (expected : UInt16) {k : Nat} (hk : 11 ≤ k) (hlt : k < (answer .mc3e req endCode data).length) :
    scanVerdict expected ((answer .mc3e req endCode data).take k) = .await := by
  have hlength : (answer .mc3e req endCode data).length = 11 + data.length := by
    rw [answer, List.length_append, length_mc3eHeader]
  have hfits : data.length + 2 < 65536 := by
    rw [maxFrameLen] at hlen
    omega
  have hdetect := detectFrame_answer_mc3e req endCode hfits hk
  refine scanVerdict_of_part expected hdetect hlen ?_
  rw [List.length_take, Nat.min_eq_left (Nat.le_of_lt hlt)]
  exact hlt

/-- The loop returns the answer if it expects the serial 0, and otherwise drops it and
waits on with an empty buffer. -/
theorem receive_answer_mc3e {chunks : List Bytes} (expected : UInt16)
    (hlen : (answer .mc3e req endCode data).length ≤ maxFrameLen)
    (hdeliv : DeliveredWhole (answer .mc3e req endCode data) chunks) :
    receive expected [] (chunks.map .ok) =
      if expected = 0 then .returned (answer .mc3e req endCode data) [] else .waiting [] := by
  have hlength : (answer .mc3e req endCode data).length = 11 + data.length := by
    rw [answer, List.length_append, length_mc3eHeader]
  have hverdict := scanVerdict_answer_mc3e req endCode hlen expected
  rw [receive_deliveredWhole hdeliv fun k hk hlt =>
    scanVerdict_answer_mc3e_take req endCode hlen expected (by omega) hlt]
  by_cases h0 : expected = 0
  · rw [if_pos h0] at hverdict
    rw [if_pos h0, (receiver expected).scan_deliver hverdict, List.take_length, List.drop_length]
    rfl
  · rw [if_neg h0] at hverdict
    have hempty : (receiver expected).scan [] = .waiting [] :=
      (receiver expected).scan_await (scanVerdict_nil expected)
    rw [if_neg h0, (receiver expected).scan_drop hverdict, List.drop_length, hempty]
    rfl

/-- The route bytes stand for the serial 0 when both are 0. -/
theorem u16FromLeBytes_eq_zero_iff (lo hi : UInt8) : u16FromLeBytes lo hi = 0 ↔ lo = 0 ∧ hi = 0 := by
  constructor
  · intro h
    have hnat := congrArg UInt16.toNat h
    rw [u16FromLeBytes_toNat, show (0 : UInt16).toNat = 0 from rfl] at hnat
    exact ⟨UInt8.toNat_inj.mp (by rw [show (0 : UInt8).toNat = 0 from rfl]; omega),
      UInt8.toNat_inj.mp (by rw [show (0 : UInt8).toNat = 0 from rfl]; omega)⟩
  · rintro ⟨rfl, rfl⟩
    rfl

theorem bothAccept_mc3e_iff {chunks : List Bytes}
    (hlen : (answer .mc3e req endCode data).length ≤ maxFrameLen)
    (hdeliv : DeliveredWhole (answer .mc3e req endCode data) chunks) :
    BothAccept (req.buildWithFormat .mc3e) (answer .mc3e req endCode data) chunks ↔
      req.accessRoute.networkNumber = 0 ∧ req.accessRoute.pcNumber = 0 := by
  have hexpected : serialOf (req.buildWithFormat .mc3e) =
      u16FromLeBytes req.accessRoute.networkNumber req.accessRoute.pcNumber :=
    serialOf_buildWithFormat_mc3e req
  have htcp := receive_answer_mc3e req endCode (serialOf (req.buildWithFormat .mc3e)) hlen hdeliv
  have hudp : receiveUdp (serialOf (req.buildWithFormat .mc3e)) udpBufLen
      [.ok (answer .mc3e req endCode data)] = .returned (answer .mc3e req endCode data) :=
    receiveUdp_same_serial hlen (by rw [hexpected, answer, serialOf_mc3eHeader])
  rw [← u16FromLeBytes_eq_zero_iff, ← hexpected]
  by_cases h0 : serialOf (req.buildWithFormat .mc3e) = 0
  · rw [if_pos h0] at htcp
    exact ⟨fun _ => h0, fun _ => ⟨htcp, hudp⟩⟩
  · rw [if_neg h0] at htcp
    refine ⟨fun h => ?_, fun h => absurd h h0⟩
    have hreturned := h.tcp
    rw [htcp] at hreturned
    cases hreturned

end Mc3e

/-- **Both transports accept the answer exactly when the format is MC4E or the route's
network and PC number are 0.** -/
theorem both_accept_iff {format : McFrameFormat} {req : McRequest} {endCode : UInt16}
    {data : Bytes} {chunks : List Bytes}
    (hlen : (answer format req endCode data).length ≤ maxFrameLen)
    (hdeliv : DeliveredWhole (answer format req endCode data) chunks) :
    BothAccept (req.buildWithFormat format) (answer format req endCode data) chunks ↔
      format = .mc4e ∨ (req.accessRoute.networkNumber = 0 ∧ req.accessRoute.pcNumber = 0) := by
  cases format with
  | mc4e => exact ⟨fun _ => .inl rfl, fun _ => bothAccept_mc4e req endCode hlen hdeliv⟩
  | mc3e =>
      rw [bothAccept_mc3e_iff req endCode hlen hdeliv]
      exact ⟨.inr, fun h => h.resolve_left (by simp)⟩

/-- An MC3E request over the default route, whose PC number is 0xFF. -/
def defaultMc3e : McRequest :=
  { McRequest.new 2 with requestDataLen := 4, requestData := [0x01, 0x04] }

theorem delivered_defaultMc3e :
    DeliveredWhole (answer .mc3e defaultMc3e 0 [0x34, 0x12])
      [answer .mc3e defaultMc3e 0 [0x34, 0x12]] where
  nonempty := by decide
  whole := by decide
  header := by decide

theorem both_accept_iff_defaultMc3e :
    BothAccept (defaultMc3e.buildWithFormat .mc3e) (answer .mc3e defaultMc3e 0 [0x34, 0x12])
        [answer .mc3e defaultMc3e 0 [0x34, 0x12]] ↔
      McFrameFormat.mc3e = .mc4e ∨
        (defaultMc3e.accessRoute.networkNumber = 0 ∧ defaultMc3e.accessRoute.pcNumber = 0) :=
  both_accept_iff (by decide) delivered_defaultMc3e

/-- The answer to that request arrives in one read, and the TCP loop drops it. -/
theorem both_accept_fails :
    receive (serialOf (defaultMc3e.buildWithFormat .mc3e)) []
        [.ok (answer .mc3e defaultMc3e 0 [0x34, 0x12])] = .waiting [] ∧
      ¬ ∀ (format : McFrameFormat) (req : McRequest) (endCode : UInt16) (data : Bytes)
          (chunks : List Bytes), (answer format req endCode data).length ≤ maxFrameLen →
        DeliveredWhole (answer format req endCode data) chunks →
        BothAccept (req.buildWithFormat format) (answer format req endCode data) chunks := by
  have hdropped : receive (serialOf (defaultMc3e.buildWithFormat .mc3e)) []
      [.ok (answer .mc3e defaultMc3e 0 [0x34, 0x12])] = .waiting [] := by decide +kernel
  refine ⟨hdropped, fun h => ?_⟩
  have haccept := (h .mc3e defaultMc3e 0 [0x34, 0x12] _ (by decide) delivered_defaultMc3e).tcp
  rw [List.map_singleton, hdropped] at haccept
  cases haccept

end MelsecMc
