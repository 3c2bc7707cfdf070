/-
What a failed MC3E operation looks like to the client.

A station reports failure in the end code.  The two MC3E response layouts are read by
branches that were written for requests as well: the one with a subheader takes the end
code for a monitoring timer and reports none, and the one without is taken for the one
with whenever its end code could be a length.  So a failure reaches the caller in one
narrow case only, and `failure_reported_iff` says which.
-/
import MelsecMc.Proofs.Request
import MelsecMc.Client

namespace MelsecMc

/-! ### The end code a client reports -/

/-- An end code that is there and is not zero is reported, whatever the registry holds. -/
theorem checkResponseEndCode_error (errors : ErrorRegistryCell) {response : McResponse}
    {code : UInt16} (hhas : response.hasEndCode = true) (hcode : response.endCode = some code)
    (hne : code ≠ 0) : ∃ e, McClient.checkResponseEndCode errors response = .error (.err e) := by
  unfold McClient.checkResponseEndCode
  rw [if_pos hhas, hcode]
  exact ⟨_, if_pos hne⟩

/-- A response is what its frame was parsed to, with the announced part of the rest as data. -/
theorem tryNew_append {header rest : Bytes} {parsed : FrameParseResult}
    (hparse : parseFrame (header ++ rest) = .ok parsed)
    (hoffset : parsed.dataOffset = header.length) :
    McResponse.tryNew (header ++ rest) = .ok {
      subheader := parsed.subheader
      accessRoute := parsed.accessRoute
      requestDataLen := parsed.requestDataLen
      data := rest.take parsed.dataBytes
      endCode := parsed.endCode
      hasEndCode := parsed.hasEndCode
      serialNumber := parsed.serialNumber } := by
  rw [McResponse.tryNew, parseMcPayload, hparse, ok_bind, McRequest.dataSlice_append hoffset]
  rfl

/-! ### MC3E responses -/

/-- The two response layouts `parse_frame` documents for MC3E. -/
inductive Mc3eLayout
  | withSubheader
  | withoutSubheader
  deriving DecidableEq

/-- An MC3E response.  Without a subheader the route's first byte opens the frame, and
must not be one of the bytes that open an MC4E frame. -/
structure Mc3eResponse where
  layout : Mc3eLayout
  route : AccessRoute
  endCode : UInt16
  data : Bytes
  fits : data.length + 2 < 65536
  lead : layout = .withoutSubheader → ¬ IsMc4eLead route.networkNumber

namespace Mc3eResponse

def bytes (r : Mc3eResponse) : Bytes :=
  match r.layout with
  | .withSubheader =>
      mc3eHeader mc3eSubheaderResponse r.route (dataLenField r.data) r.endCode ++ r.data
  | .withoutSubheader => bareHeader r.route (dataLenField r.data) r.endCode ++ r.data

/-- The client is told of the failure: the end code is there, and the check fails. -/
def FailureReported (errors : ErrorRegistryCell) (r : Mc3eResponse) : Prop :=
  ∃ response, McResponse.tryNew r.bytes = .ok response ∧ response.hasEndCode = true ∧
    response.endCode = some r.endCode ∧
    ∃ e, McClient.checkResponseEndCode errors response = .error (.err e)

theorem startsMc4e_bytes (r : Mc3eResponse) : startsMc4e r.bytes = .ok false := by
  unfold bytes
  cases hlayout : r.layout with
  | withSubheader =>
      simp only [mc3eHeader_eq, List.cons_append]
      exact startsMc4e_of_not_lead (by decide)
  | withoutSubheader =>
      simp only [bareHeader_eq, List.cons_append]
      exact startsMc4e_of_not_lead (r.lead hlayout)

theorem two_le_dataLen (r : Mc3eResponse) : 2 ≤ (dataLenField r.data).toNat := by
  rw [McRequest.dataLenField_toNat r.fits]
  omega

/-- A parse that finds no end code leaves the failure unreported. -/
theorem not_reported_of_parse {errors : ErrorRegistryCell} {r : Mc3eResponse}
    {parsed : FrameParseResult} (hparse : parseFrame r.bytes = .ok parsed)
    (hnone : parsed.hasEndCode = false) : ¬ r.FailureReported errors := by
  rintro ⟨response, hnew, hhas, -⟩
  rw [McResponse.tryNew, parseMcPayload, hparse, ok_bind, bind_eq_ok] at hnew
  obtain ⟨data, -, hresponse⟩ := hnew
  rw [pure_eq_ok, Except.ok.injEq] at hresponse
  rw [← hresponse, hnone] at hhas
  exact Bool.false_ne_true hhas

theorem not_reported_withSubheader {errors : ErrorRegistryCell} {r : Mc3eResponse}
    (hlayout : r.layout = .withSubheader) : ¬ r.FailureReported errors := by
  have hbytes : r.bytes = mc3eHeader mc3eSubheaderResponse r.route (dataLenField r.data) r.endCode
      ++ r.data := by rw [bytes, hlayout]
  have hstart := r.startsMc4e_bytes
  rw [hbytes] at hstart
  have hparse := parseFrame_mc3eHeader _ _ _ _ hstart r.two_le_dataLen
  rw [← hbytes] at hparse
  exact not_reported_of_parse hparse rfl

theorem reported_withoutSubheader_iff {errors : ErrorRegistryCell} {r : Mc3eResponse}
    (hlayout : r.layout = .withoutSubheader) (hfailed : r.endCode ≠ 0) :
    r.FailureReported errors ↔ r.data.length < 2 ∨ r.endCode = 1 := by
  have hbytes : r.bytes = bareHeader r.route (dataLenField r.data) r.endCode ++ r.data := by
    rw [bytes, hlayout]
  have hstart := r.startsMc4e_bytes
  rw [hbytes] at hstart
  constructor
  · intro hreported
    by_contra hlook
    obtain ⟨hdata, hone⟩ := not_or.mp hlook
    have hend : 2 ≤ r.endCode.toNat := by
      have h0 : r.endCode.toNat ≠ 0 := fun h => hfailed (UInt16.toNat_inj.mp h)
      have h1 : r.endCode.toNat ≠ 1 := fun h => hone (UInt16.toNat_inj.mp h)
      omega
    obtain ⟨parsed, hparse, hnone⟩ :=
      parseFrame_bareHeader_lookalike _ _ hstart (Nat.not_lt.mp hdata) hend
    rw [← hbytes] at hparse
    exact not_reported_of_parse hparse hnone hreported
  · intro hcond
    have hend : r.data.length < 2 ∨ r.endCode.toNat < 2 :=
      hcond.imp id fun h => by rw [h]; decide
    have hnew := tryNew_append (parseFrame_bareHeader _ _ hstart r.two_le_dataLen hend)
      (by rw [length_bareHeader])
    rw [← hbytes] at hnew
    exact ⟨_, hnew, rfl, rfl, checkResponseEndCode_error errors rfl rfl hfailed⟩

/-- **A failed MC3E operation is reported exactly when the frame has no subheader and is
too short, or its end code too small, to be taken for one that has.** -/
theorem failure_reported_iff (errors : ErrorRegistryCell) (r : Mc3eResponse)
    (hfailed : r.endCode ≠ 0) :
    r.FailureReported errors ↔
      r.layout = .withoutSubheader ∧ (r.data.length < 2 ∨ r.endCode = 1) := by
  cases hlayout : r.layout with
  | withSubheader =>
      exact ⟨fun h => absurd h (not_reported_withSubheader hlayout), fun h => by simp at h⟩
  | withoutSubheader =>
      rw [reported_withoutSubheader_iff hlayout hfailed]
      exact ⟨fun h => ⟨rfl, h⟩, fun h => h.2⟩

/-- The PLC refuses a request for an address out of range, with a subheader and no data. -/
def refused : Mc3eResponse where
  layout := .withSubheader
  route := AccessRoute.default
  endCode := 0x4031
  data := []
  fits := by decide
  lead := by decide

theorem failure_reported_iff_refused :
    refused.FailureReported none ↔
      refused.layout = .withoutSubheader ∧ (refused.data.length < 2 ∨ refused.endCode = 1) :=
  failure_reported_iff none refused (by decide)

/-- The refusal reaches the caller as a success: no end code, and the check passes. -/
theorem failure_reported_fails :
    refused.endCode ≠ 0 ∧ ¬ refused.FailureReported none ∧
      (∃ response, McResponse.tryNew refused.bytes = .ok response ∧
        response.hasEndCode = false ∧ response.isSuccess = true ∧
        McClient.checkResponseEndCode none response = .ok ()) := by
  refine ⟨by decide, ?_, ?_⟩
  · rintro ⟨response, hnew, hhas, -⟩
    have hread : McResponse.tryNew refused.bytes = .ok {
        subheader := mc3eSubheaderResponse
        accessRoute := AccessRoute.default.toBytes
        requestDataLen := 2
        data := []
        endCode := none
        hasEndCode := false
        serialNumber := none } := by decide
    rw [hread, Except.ok.injEq] at hnew
    rw [← hnew] at hhas
    exact Bool.false_ne_true hhas
  · exact ⟨_, rfl, rfl, rfl, rfl⟩

end Mc3eResponse

end MelsecMc
