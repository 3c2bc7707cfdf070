/-
Two encoders of the echo command.

`echo` writes its request by hand: it has its own length check, its own test of the
characters and its own command code, while the command table has a record for the same
command that `build_request` encodes.  Both are brought to one form, four bytes and then
the payload if it is hexadecimal digits (`echoRequest_ok_iff`, `buildRequest_echo_ok_iff`),
and what is left between them is the length check.

What `echo` sends is a statement about `echo` itself (`EchoSends`): it is what it returns for
every exchange with the station, so that the frame of the hand-written request is the only one
it can have handed over (`echo_cases`, `EchoSends.unique`).
-/
import MelsecMc.Proofs.Payload

namespace MelsecMc

theorem get_echo : shippedRegistry.get .echo = some echoSpec := by
  decide +kernel

/-- The bytes of a string are its string. -/
theorem fromUtf8_asBytes (s : String) : McClient.fromUtf8 (asBytes s) = some s := by
  rw [McClient.fromUtf8, toByteArray_asBytes, String.fromUTF8?, dif_pos s.isValidUTF8]
  rfl

/-! ### The table

The record of the table: two numbers and the payload behind them.
-/

/-- A payload of digits, behind the command code and no subcommand. -/
def echoData (s : String) : Bytes := [0x19, 0x06, 0x00, 0x00] ++ asBytes s

theorem get_payloadParams (v : JsonValue) (key : String) :
    (payloadParams v).get key = if key = "payload" then some v else none := by
  rw [payloadParams, JsonValue.get_object, JsonMap.get_cons, JsonMap.get_nil]

theorem foldlM_echoFields (s : String) (plcSeries : Option PlcSeries) :
    echoSpec.requestFields.foldlM (echoSpec.writeField (payloadParams (.string s)) plcSeries) [] =
      CommandSpec.pushAsciiHex [0x19, 0x06, 0x00, 0x00] (asBytes s) := by
  have hpayload : ∀ out, echoSpec.writeField (payloadParams (.string s)) plcSeries out
      ⟨"payload", .asciiHex⟩ = CommandSpec.pushAsciiHex out (asBytes s) := by
    intro out
    show CommandSpec.writeAsciiHexField "payload" (payloadParams (.string s)) out = _
    rw [CommandSpec.writeAsciiHexField, get_payloadParams, if_pos rfl]
    rfl
  have hheader : LittleEndian.bytes 2 echoSpec.commandCode.toNat ++
      LittleEndian.bytes 2 ((echoSpec.effectiveSubcommand plcSeries).getD 0).toNat =
      [0x19, 0x06, 0x00, 0x00] := by
    rw [show echoSpec.effectiveSubcommand plcSeries = none from rfl]
    decide
  rw [show echoSpec.requestFields = [⟨"command", .fixedBytes 2 false⟩,
      ⟨"subcommand", .fixedBytes 2 false⟩, ⟨"payload", .asciiHex⟩] from rfl, List.foldlM_cons,
    CommandSpec.writeField_command, ok_bind, List.foldlM_cons, CommandSpec.writeField_subcommand,
    ok_bind, List.foldlM_cons, hpayload, List.nil_append, hheader]
  simp only [List.foldlM_nil, bind_pure]

theorem buildRequest_echo (T : DeviceTable) (s : String) (plcSeries : Option PlcSeries) :
    echoSpec.buildRequest T (payloadParams (.string s)) plcSeries =
      CommandSpec.pushAsciiHex [0x19, 0x06, 0x00, 0x00] (asBytes s) := by
  rw [CommandSpec.buildRequest, CommandSpec.writeRequestFields, get_payloadParams,
    if_neg (by decide), Option.bind_none]
  dsimp only
  rw [show echoSpec.blockTemplates = [] from rfl, List.forM_eq_forM, List.forM_nil, pure_eq_ok,
    ok_bind, foldlM_echoFields]
  cases CommandSpec.pushAsciiHex [0x19, 0x06, 0x00, 0x00] (asBytes s) with
  | error e => rfl
  | ok out => rfl

theorem buildRequest_echo_ok_iff {T : DeviceTable} {s : String} {plcSeries : Option PlcSeries}
    {out : Bytes} :
    echoSpec.buildRequest T (payloadParams (.string s)) plcSeries = .ok out ↔
      (∀ b ∈ asBytes s, CommandSpec.isAsciiHex b = true) ∧ out = echoData s := by
  rw [buildRequest_echo, CommandSpec.pushAsciiHex_eq_ok_iff, echoData]

/-! ### The method -/

/-- The request is sent when the payload has a length in range and consists of digits. -/
theorem echoRequest_ok_iff {client : McClient} {s : String} {serial : UInt16}
    {req : McRequest} :
    client.echoRequest s serial = .ok req ↔
      (1 ≤ (asBytes s).length ∧ (asBytes s).length ≤ 960) ∧
      (∀ b ∈ asBytes s, CommandSpec.isAsciiHex b = true) ∧
      req = { (McRequest.new serial).withAccessRoute client.accessRoute with
        requestDataLen := dataLenField (echoData s), requestData := echoData s } := by
  rw [McClient.echoRequest]
  dsimp only
  by_cases hlen : 1 ≤ (asBytes s).length ∧ (asBytes s).length ≤ 960
  · rw [if_neg (not_not_intro hlen)]
    by_cases hhex : (asBytes s).all CommandSpec.isAsciiHex = true
    · have hfits : (echoData s).length + 2 < 65536 := by
        rw [echoData, List.length_append]
        show 4 + (asBytes s).length + 2 < 65536
        omega
      rw [if_neg (not_not_intro hhex)]
      show McRequest.tryWithRequestData _ (echoData s) = _ ↔ _
      rw [McRequest.tryWithRequestData_ok]
      exact ⟨fun h => ⟨hlen, List.all_eq_true.mp hhex, h.2⟩, fun h => ⟨hfits, h.2.2⟩⟩
    · rw [if_pos hhex]
      exact ⟨fun h => (by cases h), fun h => absurd (List.all_eq_true.mpr h.2.1) hhex⟩
  · rw [if_pos hlen]
    exact ⟨fun h => (by cases h), fun h => absurd h.1 hlen⟩

/-! ### What is sent

`echo` gets the exchange with the station as a function.  That it hands a frame over, and which,
is what it returns for every such function: what it makes of the bytes the function returns for
this frame.  With two exchanges that differ on one frame the frame is determined. -/

/-- `echo` hands this frame over, and looks at the bytes that come back. -/
def EchoSends (errors : ErrorRegistryCell) (client : McClient) (s : String) (serial : UInt16)
    (frame : Bytes) : Prop :=
  ∀ sendAndRecv, client.echo errors sendAndRecv s serial =
    sendAndRecv frame >>= McClient.echoAnswer errors

/-- `echo` returns this error, and hands nothing over. -/
def EchoRefuses (errors : ErrorRegistryCell) (client : McClient) (s : String) (serial : UInt16)
    (e : MelsecError) : Prop :=
  ∀ sendAndRecv, client.echo errors sendAndRecv s serial = .error (.err e)

theorem echoSends_of_request {errors : ErrorRegistryCell} {client : McClient} {s : String}
    {serial : UInt16} {req : McRequest} (hreq : client.echoRequest s serial = .ok req) :
    EchoSends errors client s serial (req.buildWithFormat client.mcFormat) := by
  intro sendAndRecv
  rw [McClient.echo, hreq, ok_bind]

/-- An exchange that knows one frame only. -/
def onlyFor (frame frame' : Bytes) : Except Failure Bytes :=
  protocolError (if frame' = frame then "this frame" else "another frame")

theorem EchoSends.unique {errors : ErrorRegistryCell} {client : McClient} {s : String}
    {serial : UInt16} {frame frame' : Bytes} (h : EchoSends errors client s serial frame)
    (h' : EchoSends errors client s serial frame') : frame' = frame := by
  have heq := (h (onlyFor frame)).symm.trans (h' (onlyFor frame))
  rw [onlyFor, onlyFor, if_pos rfl, protocolError, protocolError, error_bind, error_bind,
    Except.error.injEq, Failure.err.injEq, MelsecError.protocol.injEq] at heq
  by_contra hne
  rw [if_neg hne] at heq
  exact absurd heq (by decide)

/-- What is refused is not sent. -/
theorem EchoRefuses.not_sends {errors : ErrorRegistryCell} {client : McClient} {s : String}
    {serial : UInt16} {e : MelsecError} (h : EchoRefuses errors client s serial e)
    (frame : Bytes) : ¬ EchoSends errors client s serial frame := by
  intro hsends
  have hthis := (hsends fun _ => protocolError "this").symm.trans (h fun _ => protocolError "this")
  have hthat := (hsends fun _ => protocolError "that").symm.trans (h fun _ => protocolError "that")
  have heq := hthis.trans hthat.symm
  rw [protocolError, protocolError, error_bind, error_bind, Except.error.injEq, Failure.err.injEq,
    MelsecError.protocol.injEq] at heq
  exact absurd heq (by decide)

/-- The request of `echo` is made, or there is an error. -/
theorem echoRequest_cases (client : McClient) (s : String) (serial : UInt16) :
    (∃ req, client.echoRequest s serial = .ok req) ∨
      ∃ e, client.echoRequest s serial = .error (.err e) := by
  by_cases hlen : 1 ≤ (asBytes s).length ∧ (asBytes s).length ≤ 960
  · by_cases hhex : (asBytes s).all CommandSpec.isAsciiHex = true
    · exact .inl ⟨_, echoRequest_ok_iff.mpr ⟨hlen, List.all_eq_true.mp hhex, rfl⟩⟩
    · refine .inr ⟨.protocol "echo payload contains invalid characters; allowed: 0-9 A-F", ?_⟩
      rw [McClient.echoRequest]
      dsimp only
      rw [if_neg (not_not_intro hlen), if_pos hhex]
      rfl
  · refine .inr ⟨.protocol s!"echo payload length out of range: {(asBytes s).length}", ?_⟩
    rw [McClient.echoRequest]
    dsimp only
    rw [if_pos hlen]
    rfl

/-- `echo` sends the frame of its request, or returns the error of it. -/
theorem echo_cases (errors : ErrorRegistryCell) (client : McClient) (s : String)
    (serial : UInt16) :
    (∃ req, client.echoRequest s serial = .ok req ∧
      EchoSends errors client s serial (req.buildWithFormat client.mcFormat)) ∨
    ∃ e, client.echoRequest s serial = .error (.err e) ∧ EchoRefuses errors client s serial e := by
  rcases echoRequest_cases client s serial with ⟨req, hreq⟩ | ⟨e, he⟩
  · exact .inl ⟨req, hreq, echoSends_of_request hreq⟩
  · refine .inr ⟨e, he, fun sendAndRecv => ?_⟩
    rw [McClient.echo, he, error_bind]

/-! ### The answer -/

/-- The exchange brings a response with this data and no error. -/
def Answers (errors : ErrorRegistryCell) (sendAndRecv : Bytes → Except Failure Bytes)
    (frame data : Bytes) : Prop :=
  ∃ buf response, sendAndRecv frame = .ok buf ∧ McResponse.tryNew buf = .ok response ∧
    McClient.checkResponseEndCode errors response = .ok () ∧ response.data = data

theorem EchoSends.answered {errors : ErrorRegistryCell} {client : McClient} {s answer : String}
    {serial : UInt16} {frame : Bytes} (h : EchoSends errors client s serial frame)
    {sendAndRecv : Bytes → Except Failure Bytes}
    (hanswer : Answers errors sendAndRecv frame (asBytes answer)) :
    client.echo errors sendAndRecv s serial = .ok answer := by
  obtain ⟨buf, response, hbuf, hresponse, hcheck, hdata⟩ := hanswer
  rw [h sendAndRecv, hbuf, ok_bind, McClient.echoAnswer, hresponse, ok_bind, hcheck, ok_bind,
    hdata, fromUtf8_asBytes]
  rfl

/-- Digits that come back are decoded to their string. -/
theorem parseResponse_echo (T : DeviceTable) (params : JsonValue) {s : String}
    (h : ∀ b ∈ asBytes s, CommandSpec.isAsciiHex b = true) :
    echoSpec.parseResponse T params (asBytes s) = .ok (.object [("payload", .string s)]) := by
  have hs : asciiString (asBytes s) = s :=
    asBytes_inj (asBytes_asciiString fun b hb => CommandSpec.isAsciiHex_lt (h b hb))
  rw [echoSpec, parseResponse_asciiHex h, hs]

/-- **The hand-written echo and the command table agree**: on which payloads a frame is sent
for, on the bytes of its request, and on what comes back.  What is not sent is refused with an
error, and a frame that is sent carries what the table makes of the payload. -/
theorem echo_agrees (T : DeviceTable) (errors : ErrorRegistryCell) (client : McClient)
    (s : String) (serial : UInt16) :
    ∃ spec, shippedRegistry.get .echo = some spec ∧
      ((∃ frame, EchoSends errors client s serial frame) ↔
        (1 ≤ (asBytes s).length ∧ (asBytes s).length ≤ 960) ∧
          ∃ out, spec.buildRequest T (payloadParams (.string s)) (some client.plcSeries) =
            .ok out) ∧
      ((¬ ∃ frame, EchoSends errors client s serial frame) →
        ∃ e, EchoRefuses errors client s serial e) ∧
      ∀ frame, EchoSends errors client s serial frame →
        (∃ req, client.echoRequest s serial = .ok req ∧
          frame = req.buildWithFormat client.mcFormat ∧
          spec.buildRequest T (payloadParams (.string s)) (some client.plcSeries) =
            .ok req.requestData) ∧
        spec.parseResponse T (payloadParams (.string s)) (asBytes s) =
          .ok (.object [("payload", .string s)]) ∧
        ∀ sendAndRecv, Answers errors sendAndRecv frame (asBytes s) →
          client.echo errors sendAndRecv s serial = .ok s := by
  -- a frame that is sent is that of the request
  have hrequest : ∀ frame, EchoSends errors client s serial frame →
      ∃ req, client.echoRequest s serial = .ok req ∧
        frame = req.buildWithFormat client.mcFormat := by
    intro frame hsends
    rcases echo_cases errors client s serial with ⟨req, hreq, hown⟩ | ⟨e, -, hrefuses⟩
    · exact ⟨req, hreq, hown.unique hsends⟩
    · exact absurd hsends (hrefuses.not_sends frame)
  refine ⟨echoSpec, get_echo, ⟨?_, ?_⟩, ?_, ?_⟩
  · rintro ⟨frame, hsends⟩
    obtain ⟨req, hreq, -⟩ := hrequest frame hsends
    obtain ⟨hlen, hhex, -⟩ := echoRequest_ok_iff.mp hreq
    exact ⟨hlen, echoData s, buildRequest_echo_ok_iff.mpr ⟨hhex, rfl⟩⟩
  · rintro ⟨hlen, out, hout⟩
    exact ⟨_, echoSends_of_request
      (echoRequest_ok_iff.mpr ⟨hlen, (buildRequest_echo_ok_iff.mp hout).1, rfl⟩)⟩
  · intro hnone
    rcases echo_cases errors client s serial with ⟨req, -, hsends⟩ | ⟨e, -, hrefuses⟩
    · exact absurd ⟨_, hsends⟩ hnone
    · exact ⟨e, hrefuses⟩
  · intro frame hsends
    obtain ⟨req, hreq, hframe⟩ := hrequest frame hsends
    obtain ⟨-, hhex, hsent⟩ := echoRequest_ok_iff.mp hreq
    refine ⟨⟨req, hreq, hframe, buildRequest_echo_ok_iff.mpr ⟨hhex, by rw [hsent]⟩⟩,
      parseResponse_echo T _ hhex, fun sendAndRecv hanswer => hsends.answered hanswer⟩

end MelsecMc
