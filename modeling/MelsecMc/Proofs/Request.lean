/-
Reading a built request back.

`try_from_payload` calls itself the inverse of the builder.  It restores an MC4E
request in every field but the monitoring timer, which the MC4E branch of the parser
never reports; and it restores an MC3E request that keeps the default subheader only
while the frame is too short to be taken for MC4E.  Both theorems say exactly when the
request comes back.  With a subheader that belongs to no MC4E frame it always does
(`mc3e_subheader_round_trip`).
-/
import MelsecMc.Proofs.Frame

namespace MelsecMc

namespace McRequest

/-! ### Builder chains

`try_with_request_data` is the only builder method that touches the data or its length,
and it sets both; so once a chain has called it, the length field counts the data for
the rest of the chain.
-/

/-- The length field is the data length and two. -/
structure DataSet (req : McRequest) : Prop where
  len : req.requestDataLen.toNat = req.requestData.length + 2

theorem tryWithRequestData_ok {req req' : McRequest} {data : Bytes} :
    req.tryWithRequestData data = .ok req' ↔ data.length + 2 < 65536 ∧
      req' = { req with requestDataLen := dataLenField data, requestData := data } := by
  have hbound : usizeBound = 18446744073709551616 := rfl
  unfold tryWithRequestData
  simp only [protocolError]
  split
  · simp; omega
  · split
    · simp; omega
    · simp only [Except.ok.injEq]
      exact ⟨fun h => ⟨by omega, h.symm⟩, fun h => h.2.symm⟩

theorem dataLenField_toNat {data : Bytes} (h : data.length + 2 < 65536) :
    (dataLenField data).toNat = data.length + 2 := by
  rw [dataLenField, UInt16.toNat_ofNat', Nat.mod_eq_of_lt h]

theorem tryWithRequestData_dataSet {req req' : McRequest} {data : Bytes}
    (h : req.tryWithRequestData data = .ok req') : req'.DataSet := by
  obtain ⟨hlt, rfl⟩ := tryWithRequestData_ok.mp h
  exact ⟨dataLenField_toNat hlt⟩

/-- No later builder call loses what `try_with_request_data` established. -/
theorem applyCall_dataSet {req req' : McRequest} {call : BuilderCall} (hset : req.DataSet)
    (h : req.applyCall call = .ok req') : req'.DataSet := by
  cases call with
  | tryWithRequestData data => exact tryWithRequestData_dataSet h
  | withSubheader _ | withAccessRoute _ | withSerialNumber _ | withMonitoringTimer _ =>
      rw [applyCall, Except.ok.injEq] at h
      subst h
      exact ⟨hset.len⟩

theorem applyCalls_keep_dataSet {calls : List BuilderCall} :
    ∀ {req req' : McRequest}, req.DataSet → req.applyCalls calls = .ok req' → req'.DataSet := by
  induction calls with
  | nil =>
      intro req req' hset h
      rw [applyCalls, Except.ok.injEq] at h
      exact h ▸ hset
  | cons call calls ih =>
      intro req req' hset h
      rw [applyCalls] at h
      split at h
      · rename_i mid hmid
        exact ih (applyCall_dataSet hset hmid) h
      · exact absurd h (by simp)

/-- **A chain that sets the data leaves a request whose length field counts it.** -/
theorem applyCalls_dataSet {calls : List BuilderCall}
    (hcall : ∃ data, .tryWithRequestData data ∈ calls) :
    ∀ {req req' : McRequest}, req.applyCalls calls = .ok req' → req'.DataSet := by
  obtain ⟨data, hmem⟩ := hcall
  induction calls with
  | nil => simp at hmem
  | cons call calls ih =>
      intro req req' h
      rw [applyCalls] at h
      split at h
      · rename_i mid hmid
        rcases List.mem_cons.mp hmem with rfl | htail
        · exact applyCalls_keep_dataSet (tryWithRequestData_dataSet hmid) h
        · exact ih htail h
      · exact absurd h (by simp)

/-! ### What the builder writes

The two formats, as headers of the wire with the data behind.
-/

/-- The timer as the two bytes would read in the other byte order. -/
def swapBytes (v : UInt16) : UInt16 :=
  u16FromLeBytes (u16Hi v) (u16Lo v)

theorem buildWithFormat_mc4e (req : McRequest) :
    req.buildWithFormat .mc4e =
      mc4eHeader req.subheader req.serialNumber 0 req.accessRoute req.requestDataLen
        (swapBytes req.monitoringTimer) ++ req.requestData := by
  rw [buildWithFormat, buildMcPayloadWithFormat, mc4eHeader, u16ToBeBytes_eq,
    u16ToLeBytes_eq (swapBytes _), swapBytes, u16Lo_fromLeBytes, u16Hi_fromLeBytes]

theorem buildWithFormat_mc3e (req : McRequest) :
    req.buildWithFormat .mc3e =
      mc3eHeader req.subheader req.accessRoute req.requestDataLen req.monitoringTimer
        ++ req.requestData := rfl

/-! ### What the parser reads -/

/-- The data slice is what the announced length takes of the bytes after the header. -/
theorem dataSlice_append {header rest : Bytes} {parsed : FrameParseResult}
    (h : parsed.dataOffset = header.length) :
    dataSlice (header ++ rest) parsed = .ok (rest.take parsed.dataBytes) := by
  rw [dataSlice, h, if_pos (by simp), slice_of_le (by simp) (Nat.min_le_left _ _),
    List.drop_left, List.length_append]
  rw [show min (header.length + rest.length) (header.length + parsed.dataBytes) - header.length
    = min parsed.dataBytes rest.length by omega, ← List.take_eq_take_min]

/-- Reading an MC4E request back restores everything but the timer. -/
theorem tryFromPayload_mc4e {req : McRequest} (hlead : IsMc4eLead (leadByte req.subheader))
    (hset : req.DataSet) :
    tryFromPayload (req.buildWithFormat .mc4e) = .ok { req with monitoringTimer := 0x1000 } := by
  have hlen := hset.len
  rw [buildWithFormat_mc4e, tryFromPayload,
    parseFrame_mc4eHeader hlead _ _ _ _ _ (by omega), ok_bind,
    dataSlice_append (by rw [length_mc4eHeader]), ok_bind, hlen, Nat.add_sub_cancel,
    List.take_length, AccessRoute.ofBytes_toBytes]
  rfl

/-- **A built MC4E request is restored exactly when its timer is the default one.** -/
theorem mc4e_round_trip_iff {serial : UInt16} {calls : List BuilderCall} {req : McRequest}
    (hbuilt : (new serial).applyCalls calls = .ok req)
    (hdata : ∃ data, .tryWithRequestData data ∈ calls)
    (hlead : IsMc4eLead (leadByte req.subheader)) :
    tryFromPayload (req.buildWithFormat .mc4e) = .ok req ↔ req.monitoringTimer = 0x1000 := by
  rw [tryFromPayload_mc4e hlead (applyCalls_dataSet hdata hbuilt), Except.ok.injEq]
  constructor
  · intro h
    rw [← h]
  · intro h
    rw [← h]

/-- A two-byte request with the client's own timer of five units. -/
def timerFive : McRequest where
  subheader := mcSubheaderRequest
  accessRoute := AccessRoute.default
  requestDataLen := 4
  monitoringTimer := 5
  requestData := [0x01, 0x04]
  serialNumber := 2

theorem timerFive_built :
    (new 2).applyCalls [.withMonitoringTimer 5, .tryWithRequestData [0x01, 0x04]] = .ok timerFive :=
  rfl

theorem mc4e_round_trip_iff_timerFive :
    tryFromPayload (timerFive.buildWithFormat .mc4e) = .ok timerFive
      ↔ timerFive.monitoringTimer = 0x1000 :=
  mc4e_round_trip_iff timerFive_built ⟨[0x01, 0x04], by simp⟩ (Or.inl rfl)

/-- The builder's inverse does not give this request back: its timer comes back as 0x1000. -/
theorem mc4e_round_trip_fails :
    ¬ ∀ (serial : UInt16) (calls : List BuilderCall) (req : McRequest),
      (new serial).applyCalls calls = .ok req → (∃ data, .tryWithRequestData data ∈ calls) →
      IsMc4eLead (leadByte req.subheader) → tryFromPayload (req.buildWithFormat .mc4e) = .ok req := by
  intro h
  have hbad := h 2 [.withMonitoringTimer 5, .tryWithRequestData [0x01, 0x04]] timerFive rfl
    ⟨[0x01, 0x04], by simp⟩ (Or.inl rfl)
  exact absurd hbad (by decide)

/-! ### MC3E with the default subheader

The default subheader is the one an MC4E frame starts with, and the parser tries MC4E first.
A frame of fifteen bytes or more is therefore read in the other layout.
-/

/-- What an MC3E frame carries of a request: every field but the serial number. -/
structure SameFields (parsed req : McRequest) : Prop where
  subheader : parsed.subheader = req.subheader
  accessRoute : parsed.accessRoute = req.accessRoute
  requestDataLen : parsed.requestDataLen = req.requestDataLen
  monitoringTimer : parsed.monitoringTimer = req.monitoringTimer
  requestData : parsed.requestData = req.requestData

/-- The MC3E frame of a request is read back to the same fields. -/
def RestoredFromMc3e (req : McRequest) : Prop :=
  ∃ parsed, tryFromPayload (req.buildWithFormat .mc3e) = .ok parsed ∧ SameFields parsed req

/-- A frame the parser does not take for MC4E is read back, whatever follows it. -/
theorem tryFromPayload_mc3e {req : McRequest} (hset : req.DataSet) (tail : Bytes)
    (hstart : startsMc4e (req.buildWithFormat .mc3e ++ tail) = .ok false) :
    tryFromPayload (req.buildWithFormat .mc3e ++ tail) = .ok { req with serialNumber := 0 } := by
  have hlen := hset.len
  rw [buildWithFormat_mc3e, List.append_assoc] at hstart ⊢
  rw [tryFromPayload, parseFrame_mc3eHeader _ _ _ _ hstart (by omega), ok_bind,
    dataSlice_append (by rw [length_mc3eHeader]), ok_bind, hlen, Nat.add_sub_cancel,
    List.take_left, AccessRoute.ofBytes_toBytes]
  rfl

theorem restoredFromMc3e_of_not_mc4e {req : McRequest} (hset : req.DataSet)
    (hstart : startsMc4e (req.buildWithFormat .mc3e) = .ok false) : RestoredFromMc3e req := by
  rw [← List.append_nil (req.buildWithFormat .mc3e)] at hstart
  have hread := tryFromPayload_mc3e hset [] hstart
  rw [List.append_nil] at hread
  exact ⟨_, hread, ⟨rfl, rfl, rfl, rfl, rfl⟩⟩

/-- Read as MC4E, a frame yields at most the bytes after a fifteen-byte header. -/
theorem tryFromPayload_mc4e_data_le {payload : Bytes} {parsed : McRequest}
    (hstart : startsMc4e payload = .ok true) (h : tryFromPayload payload = .ok parsed) :
    parsed.requestData.length ≤ payload.length - 15 := by
  obtain ⟨sh, serial, reserved, route, dataLen, endCode, hlead, hsplit⟩ :=
    exists_mc4eHeader hstart
  rcases Nat.lt_or_ge dataLen.toNat 2 with hshort | hlen
  · obtain ⟨msg, herr⟩ := parseFrame_mc4eHeader_short hlead serial reserved route endCode
      (payload.drop 15) hshort
    rw [tryFromPayload, hsplit, herr] at h
    simp [protocolError] at h
  · rw [tryFromPayload, hsplit, parseFrame_mc4eHeader hlead _ _ _ _ _ hlen, ok_bind,
      dataSlice_append (by rw [length_mc4eHeader]), ok_bind, pure_eq_ok, Except.ok.injEq] at h
    rw [← h, List.length_take, List.length_drop]
    exact Nat.min_le_right _ _

/-- **An MC3E request with the default subheader is restored exactly when its data is
shorter than four bytes**: from fifteen bytes on the frame is read as MC4E. -/
theorem mc3e_round_trip_iff {serial : UInt16} {calls : List BuilderCall} {req : McRequest}
    (hbuilt : (new serial).applyCalls calls = .ok req)
    (hdata : ∃ data, .tryWithRequestData data ∈ calls)
    (hsub : req.subheader = (new serial).subheader) :
    RestoredFromMc3e req ↔ req.requestData.length < 4 := by
  have hset := applyCalls_dataSet hdata hbuilt
  have hframe : (req.buildWithFormat .mc3e).length = 11 + req.requestData.length := by
    rw [buildWithFormat_mc3e, List.length_append, length_mc3eHeader]
  constructor
  · rintro ⟨parsed, hparsed, hsame⟩
    by_contra hlong
    have hstart : startsMc4e (req.buildWithFormat .mc3e) = .ok true := by
      rw [buildWithFormat_mc3e, mc3eHeader_eq, List.cons_append,
        startsMc4e_cons (by simp; omega), hsub]
      rfl
    have hle := tryFromPayload_mc4e_data_le hstart hparsed
    rw [hframe, hsame.requestData] at hle
    omega
  · intro hshort
    exact restoredFromMc3e_of_not_mc4e hset (startsMc4e_short (by rw [hframe]; omega))

theorem mc3e_round_trip_iff_timerFive :
    RestoredFromMc3e timerFive ↔ timerFive.requestData.length < 4 :=
  mc3e_round_trip_iff timerFive_built ⟨[0x01, 0x04], by simp⟩ rfl

/-- Command and subcommand alone, four bytes, with everything else left as `new` sets it. -/
def fourBytes : McRequest where
  subheader := mcSubheaderRequest
  accessRoute := AccessRoute.default
  requestDataLen := 6
  monitoringTimer := 0x1000
  requestData := [0x01, 0x04, 0x00, 0x00]
  serialNumber := 2

/-- Four bytes of data make the frame fifteen bytes long, and it is read as MC4E: the
command, taken for a length, reaches past the end and no data is left. -/
theorem mc3e_round_trip_fails :
    ¬ ∀ (serial : UInt16) (calls : List BuilderCall) (req : McRequest),
      (new serial).applyCalls calls = .ok req → (∃ data, .tryWithRequestData data ∈ calls) →
      req.subheader = (new serial).subheader → RestoredFromMc3e req := by
  intro h
  obtain ⟨parsed, hparsed, hsame⟩ := h 2 [.tryWithRequestData [0x01, 0x04, 0x00, 0x00]] fourBytes
    rfl ⟨[0x01, 0x04, 0x00, 0x00], by simp⟩ rfl
  have hread : tryFromPayload (fourBytes.buildWithFormat .mc3e) = .ok {
      subheader := mcSubheaderRequest
      accessRoute := ⟨0x00, 0x06, 0x0000, 0x10⟩
      requestDataLen := 0x0401
      monitoringTimer := 0x1000
      requestData := []
      serialNumber := 0xFF00 } := by decide
  rw [hread, Except.ok.injEq] at hparsed
  have hdata := hsame.requestData
  rw [← hparsed] at hdata
  exact absurd hdata (by decide)

/-! ### MC3E with a subheader of its own -/

theorem startsMc4e_buildWithFormat_mc3e {req : McRequest}
    (hlead : ¬ IsMc4eLead (leadByte req.subheader)) (tail : Bytes) :
    startsMc4e (req.buildWithFormat .mc3e ++ tail) = .ok false := by
  rw [buildWithFormat_mc3e, mc3eHeader_eq, List.cons_append, List.cons_append]
  exact startsMc4e_of_not_lead hlead

/-- The length of the frame stands in its header. -/
theorem detectFrame_mc3e {req : McRequest} (hset : req.DataSet)
    (hlead : ¬ IsMc4eLead (leadByte req.subheader)) (tail : Bytes) :
    detectFrame (req.buildWithFormat .mc3e ++ tail) =
      .ok (some ((req.buildWithFormat .mc3e).length, 11, none)) := by
  have hlen := hset.len
  have hstart := startsMc4e_buildWithFormat_mc3e hlead tail
  rw [buildWithFormat_mc3e, List.append_assoc] at hstart ⊢
  rw [detectFrame_mc3eHeader _ _ _ _ hstart (by omega), hlen, Nat.add_sub_cancel,
    List.length_append, length_mc3eHeader]

/-- **With a subheader that is no MC4E one, an MC3E frame delimits itself and is restored**,
whatever follows it in the stream; only the serial is not in the frame. -/
theorem mc3e_subheader_round_trip {serial : UInt16} {calls : List BuilderCall} {req : McRequest}
    (hbuilt : (new serial).applyCalls calls = .ok req)
    (hdata : ∃ data, .tryWithRequestData data ∈ calls)
    (hlead : ¬ IsMc4eLead (leadByte req.subheader)) (tail : Bytes) :
    detectFrame (req.buildWithFormat .mc3e ++ tail) =
        .ok (some ((req.buildWithFormat .mc3e).length, 11, none)) ∧
      tryFromPayload (req.buildWithFormat .mc3e) = .ok { req with serialNumber := 0 } ∧
      tryFromPayload (req.buildWithFormat .mc3e ++ tail) =
        tryFromPayload (req.buildWithFormat .mc3e) := by
  have hset := applyCalls_dataSet hdata hbuilt
  have hread := fun rest =>
    tryFromPayload_mc3e hset rest (startsMc4e_buildWithFormat_mc3e hlead rest)
  have hwhole := hread []
  rw [List.append_nil] at hwhole
  exact ⟨detectFrame_mc3e hset hlead tail, hwhole, (hread tail).trans hwhole.symm⟩

/-- The request of the unit tests, with the subheader of an MC3E request. -/
theorem mc3e_subheader_round_trip_5000 :
    let req : McRequest :=
      ⟨#v[0x50, 0x00], AccessRoute.default, 4, 10, [0x01, 0x04], 2⟩
    detectFrame (req.buildWithFormat .mc3e ++ [0x50]) =
        .ok (some ((req.buildWithFormat .mc3e).length, 11, none)) ∧
      tryFromPayload (req.buildWithFormat .mc3e) = .ok { req with serialNumber := 0 } ∧
      tryFromPayload (req.buildWithFormat .mc3e ++ [0x50]) =
        tryFromPayload (req.buildWithFormat .mc3e) :=
  @mc3e_subheader_round_trip 2
    [.withSubheader #v[0x50, 0x00], .withMonitoringTimer 10, .tryWithRequestData [0x01, 0x04]]
    _ rfl ⟨[0x01, 0x04], by simp⟩ (by decide) [0x50]

end McRequest

end MelsecMc
