/-
MC4E responses, from the buffer to the caller.

A frame says where it ends, so a buffer of whole frames is taken apart at their borders:
the receive loop throws the stale ones away, one by one, and returns the first that answers
the request with the rest still behind it (`skip_stale_responses`).  The frame is then
decoded to what its station put in, and both ways to ask whether the operation succeeded
look at the end code (`mc4e_response_decoded`).
-/
import MelsecMc.Proofs.Reassembly
import MelsecMc.Proofs.Response

namespace MelsecMc

/-! ### Decoding -/

/-- What a response with this header and this data is decoded to. -/
def decodedMc4e (sh : Vector UInt8 2) (serial : UInt16) (route : AccessRoute) (endCode : UInt16)
    (data : Bytes) : McResponse where
  subheader := sh
  accessRoute := route.toBytes
  requestDataLen := dataLenField data
  data
  endCode := some endCode
  hasEndCode := true
  serialNumber := some serial

/-- The length field counts the end code as well, and cuts off what follows the data. -/
theorem tryNew_mc4e {sh : Vector UInt8 2} (hlead : IsMc4eLead (leadByte sh))
    (serial reserved : UInt16) (route : AccessRoute) (endCode : UInt16) {data : Bytes}
    (hdata : data.length ≤ 65533) (trailing : Bytes) :
    McResponse.tryNew (mc4eHeader sh serial reserved route (dataLenField data) endCode ++
        (data ++ trailing)) = .ok (decodedMc4e sh serial route endCode data) := by
  have hlen : (dataLenField data).toNat = data.length + 2 := McRequest.dataLenField_toNat (by omega)
  have hparse := parseFrame_mc4eHeader hlead serial reserved route endCode (data ++ trailing)
    (show 2 ≤ (dataLenField data).toNat by omega)
  rw [tryNew_append hparse (by rw [length_mc4eHeader])]
  dsimp only
  rw [hlen, Nat.add_sub_cancel, List.take_left]
  rfl

/-- With an end code there, the two ways to ask for success are one question. -/
theorem checkResponseEndCode_ok_iff (errors : ErrorRegistryCell) {response : McResponse}
    {code : UInt16} (hhas : response.hasEndCode = true) (hcode : response.endCode = some code) :
    McClient.checkResponseEndCode errors response = .ok () ↔ code = 0 := by
  constructor
  · intro hok
    by_contra hne
    obtain ⟨e, he⟩ := checkResponseEndCode_error errors hhas hcode hne
    rw [he] at hok
    exact absurd hok (by simp)
  · intro hzero
    unfold McClient.checkResponseEndCode
    rw [if_pos hhas, hcode]
    exact if_neg fun hne => hne hzero

theorem isSuccess_iff {response : McResponse} {code : UInt16}
    (hcode : response.endCode = some code) : response.isSuccess = true ↔ code = 0 := by
  rw [McResponse.isSuccess, hcode]
  exact decide_eq_true_iff

/-- **An MC4E response is decoded to what the station put in, and whether it succeeded is
its end code alone.** -/
theorem mc4e_response_decoded (serial reserved : UInt16) (route : AccessRoute) (endCode : UInt16)
    (data : Bytes) (hdata : data.length ≤ 65533) (trailing : Bytes) :
    ∃ response, McResponse.tryNew
        (mc4eHeader mcSubheaderResponse serial reserved route (dataLenField data) endCode ++
          (data ++ trailing)) = .ok response ∧
      response.serialNumber = some serial ∧ response.accessRoute = route.toBytes ∧
      response.endCode = some endCode ∧ response.hasEndCode = true ∧ response.data = data ∧
      (response.isSuccess = true ↔ endCode = 0) ∧
      ∀ errors, McClient.checkResponseEndCode errors response = .ok () ↔ endCode = 0 :=
  ⟨_, tryNew_mc4e (.inr rfl) serial reserved route endCode hdata trailing, rfl, rfl, rfl, rfl, rfl,
    isSuccess_iff rfl, fun errors => checkResponseEndCode_ok_iff errors rfl rfl⟩

theorem mc4e_response_decoded_two :
    ∃ response, McResponse.tryNew
        (mc4eHeader mcSubheaderResponse 7 0 AccessRoute.default (dataLenField [0x34, 0x12]) 0xC051 ++
          ([0x34, 0x12] ++ [0xD4, 0x00])) = .ok response ∧
      response.serialNumber = some 7 ∧ response.accessRoute = AccessRoute.default.toBytes ∧
      response.endCode = some 0xC051 ∧ response.hasEndCode = true ∧ response.data = [0x34, 0x12] ∧
      (response.isSuccess = true ↔ (0xC051 : UInt16) = 0) ∧
      ∀ errors, McClient.checkResponseEndCode errors response = .ok () ↔ (0xC051 : UInt16) = 0 :=
  mc4e_response_decoded 7 0 AccessRoute.default 0xC051 [0x34, 0x12] (by decide) [0xD4, 0x00]

/-! ### Stale responses -/

namespace Mc4eFrame

theorem tryNew_bytes (f : Mc4eFrame) :
    McResponse.tryNew f.bytes = .ok (decodedMc4e f.subheader f.serial f.route f.endCode f.data) := by
  have hfits := f.fits
  have hread := tryNew_mc4e f.lead f.serial f.reserved f.route f.endCode
    (show f.data.length ≤ 65533 by omega) []
  rw [List.append_nil] at hread
  exact hread

end Mc4eFrame

/-- **Stale responses are skipped without loss.**  Of a buffer of whole frames the loop
throws away the ones before the answer, returns the answer and leaves the ones behind it;
without an answer it throws all of them away and waits. -/
theorem skip_stale_responses (frames : List Mc4eFrame) (expected : UInt16) :
    (∀ (before : List Mc4eFrame) (f : Mc4eFrame) (after : List Mc4eFrame),
      frames = before ++ f :: after → (∀ g ∈ before, ¬ g.Answers expected) → f.Answers expected →
        (receiver expected).scan (stream frames) = .delivered f.bytes (stream after) ∧
        (receiver expected).dropped (stream frames) = before.map Mc4eFrame.bytes ∧
        parseMcPayload f.bytes =
          .ok (decodedMc4e f.subheader f.serial f.route f.endCode f.data)) ∧
    ((∀ g ∈ frames, ¬ g.Answers expected) →
        (receiver expected).scan (stream frames) = .waiting [] ∧
        (receiver expected).dropped (stream frames) = frames.map Mc4eFrame.bytes) := by
  have hawait : (receiver expected).verdict [] = .await := scanVerdict_nil expected
  refine ⟨?_, ?_⟩
  · rintro before f after rfl hstale hanswers
    have hdrops := Mc4eFrame.drops_map hstale
    have hdeliver := Mc4eFrame.delivers hanswers (stream after)
    have hsplit : stream (before ++ f :: after) =
        (before.map Mc4eFrame.bytes).flatten ++ (f.bytes ++ stream after) := by
      rw [stream_append, stream_cons, stream]
    refine ⟨?_, ?_, f.tryNew_bytes⟩
    · rw [hsplit, (receiver expected).scan_drops hdrops,
        (receiver expected).scan_delivers (Mc4eFrame.delivers hanswers)]
    · rw [hsplit, (receiver expected).dropped_drops hdrops,
        (receiver expected).dropped_of_not_drop fun n h => by
          rw [hdeliver] at h
          exact absurd h (by simp),
        List.append_nil]
  · intro hstale
    have hdrops := Mc4eFrame.drops_map hstale
    have hsplit : stream frames = (frames.map Mc4eFrame.bytes).flatten ++ [] := by
      rw [stream, List.append_nil]
    refine ⟨?_, ?_⟩
    · rw [hsplit, (receiver expected).scan_drops hdrops,
        (receiver expected).scan_await hawait]
    · rw [hsplit, (receiver expected).dropped_drops hdrops,
        (receiver expected).dropped_of_not_drop fun n h => by
          rw [hawait] at h
          exact absurd h (by simp),
        List.append_nil]

end MelsecMc
