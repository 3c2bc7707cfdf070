/-
What is left of a datagram.

One buffer receives every datagram of a send attempt, and each receive cuts it to what has
come: a discarded datagram leaves room for as many bytes as it had, never for more again.
So the room in front of a datagram is the length of the shortest one before it
(`le_roomAfter_iff`), a datagram that is longer is not returned whole, and one that is not
is (`returned_whole_iff`).

How much room is left depends on every datagram that was discarded in this attempt, and is the
whole buffer again in the next one.  The serial is read from the first four bytes, so a datagram
is told from the answer even where it would not fit.
-/
import MelsecMc.Transport

namespace MelsecMc

/-- The request is answered by a datagram like this one. -/
def AnswersRequest (expectedSerial : UInt16) (datagram : Bytes) : Prop :=
  expectedSerial = 0 ∨ serialOf datagram = expectedSerial

instance (expectedSerial : UInt16) (datagram : Bytes) :
    Decidable (AnswersRequest expectedSerial datagram) :=
  inferInstanceAs (Decidable (_ ∨ _))

/-- The first datagram that answers the request, and the ones before it. -/
def FirstAnswer (expectedSerial : UInt16) (datagrams before : List Bytes) (answer : Bytes) : Prop :=
  (∃ after, datagrams = before ++ answer :: after) ∧
    (∀ d ∈ before, ¬ AnswersRequest expectedSerial d) ∧ AnswersRequest expectedSerial answer

/-- One send attempt: what is returned is one of the datagrams and answers the request, and
the first one that does is not passed over. -/
def AnsweredWhole (expectedSerial : UInt16) (datagrams : List Bytes) : Prop :=
  (∀ packet, receiveUdp expectedSerial udpBufLen (datagrams.map .ok) = .returned packet →
    packet ∈ datagrams ∧ AnswersRequest expectedSerial packet) ∧
  ∀ before answer, FirstAnswer expectedSerial datagrams before answer →
    receiveUdp expectedSerial udpBufLen (datagrams.map .ok) = .returned answer

/-- The room in the buffer after these datagrams. -/
def roomAfter (room : Nat) (datagrams : List Bytes) : Nat :=
  datagrams.foldl (fun room d => min room d.length) room

theorem le_roomAfter_iff {n : Nat} {datagrams : List Bytes} : ∀ {room : Nat},
    n ≤ roomAfter room datagrams ↔ n ≤ room ∧ ∀ d ∈ datagrams, n ≤ d.length := by
  induction datagrams with
  | nil =>
      intro room
      rw [roomAfter, List.foldl_nil]
      exact ⟨fun h => ⟨h, fun d hd => absurd hd List.not_mem_nil⟩, fun h => h.1⟩
  | cons d datagrams ih =>
      intro room
      rw [roomAfter, List.foldl_cons, ← roomAfter, ih, le_min_iff, List.forall_mem_cons, and_assoc]

section Receive

variable {expectedSerial : UInt16}

/-- Less of a datagram has the same serial, or none. -/
theorem serialOf_take (room : Nat) (datagram : Bytes) :
    serialOf (datagram.take room) = serialOf datagram ∨ serialOf (datagram.take room) = 0 := by
  match room, datagram with
  | 0, _ => exact .inr rfl
  | _ + 1, [] => exact .inr rfl
  | 1, [_] => exact .inr rfl
  | 1, _ :: _ :: _ => exact .inr rfl
  | _ + 2, [_] => exact .inr rfl
  | 2, _ :: _ :: _ => exact .inr rfl
  | _ + 3, [_, _] => exact .inr rfl
  | 3, _ :: _ :: _ :: _ => exact .inr rfl
  | _ + 4, [_, _, _] => exact .inr rfl
  | _ + 4, _ :: _ :: _ :: _ :: _ => exact .inl rfl

/-- What does not answer the request does not if it is cut. -/
theorem not_answers_take {datagram : Bytes} (h : ¬ AnswersRequest expectedSerial datagram)
    (room : Nat) : ¬ AnswersRequest expectedSerial (datagram.take room) := by
  rintro (hzero | hserial)
  · exact h (.inl hzero)
  · rcases serialOf_take room datagram with hsame | hnone
    · exact h (.inr (hsame ▸ hserial))
    · exact h (.inl (hserial.symm.trans hnone))

/-- A receive: what fits of the datagram is returned, or the buffer is cut to it. -/
theorem onDatagram_ok (room : Nat) (datagram : Bytes) :
    onDatagram expectedSerial room (.ok datagram) =
      if AnswersRequest expectedSerial (datagram.take room) then .returned (datagram.take room)
      else .waiting (min room datagram.length) := by
  rw [onDatagram, List.length_take]
  rfl

/-- A datagram that does not answer is discarded. -/
theorem onDatagram_discards {datagram : Bytes} (h : ¬ AnswersRequest expectedSerial datagram)
    (room : Nat) :
    onDatagram expectedSerial room (.ok datagram) = .waiting (min room datagram.length) := by
  rw [onDatagram_ok, if_neg (not_answers_take h room)]

/-- So is every one in a row. -/
theorem receiveUdp_discards {datagrams : List Bytes} (rest : List ReadResult) : ∀ {room : Nat},
    (∀ d ∈ datagrams, ¬ AnswersRequest expectedSerial d) →
    receiveUdp expectedSerial room (datagrams.map .ok ++ rest) =
      receiveUdp expectedSerial (roomAfter room datagrams) rest := by
  induction datagrams with
  | nil => exact fun _ => rfl
  | cons d datagrams ih =>
      intro room h
      rw [List.map_cons, List.cons_append, receiveUdp,
        onDatagram_discards (h d List.mem_cons_self)]
      exact ih fun d hd => h d (.tail _ hd)

/-- Nothing longer than the room is returned. -/
theorem length_returned_le {packet : Bytes} {events : List ReadResult} : ∀ {room : Nat},
    receiveUdp expectedSerial room events = .returned packet → packet.length ≤ room := by
  induction events with
  | nil =>
      intro room h
      cases h
  | cons event events ih =>
      intro room h
      cases event with
      | err e => cases h
      | ok datagram =>
          rw [receiveUdp, onDatagram_ok] at h
          by_cases hanswers : AnswersRequest expectedSerial (datagram.take room)
          · rw [if_pos hanswers] at h
            cases h
            exact List.length_take_le _ _
          · rw [if_neg hanswers] at h
            exact (ih h).trans (Nat.min_le_left _ _)

/-- The first answer is returned if there is room for it, and only then. -/
theorem returned_firstAnswer_iff {datagrams before : List Bytes} {answer : Bytes} {room : Nat}
    (h : FirstAnswer expectedSerial datagrams before answer) :
    receiveUdp expectedSerial room (datagrams.map .ok) = .returned answer ↔
      answer.length ≤ roomAfter room before := by
  obtain ⟨⟨after, rfl⟩, hbefore, hanswer⟩ := h
  rw [List.map_append, List.map_cons, receiveUdp_discards _ hbefore]
  constructor
  · exact length_returned_le
  · intro hroom
    rw [receiveUdp, onDatagram_ok, List.take_of_length_le hroom, if_pos hanswer]

/-- A call that returns has been answered. -/
theorem exists_firstAnswer {datagrams : List Bytes} {packet : Bytes} {room : Nat}
    (h : receiveUdp expectedSerial room (datagrams.map .ok) = .returned packet) :
    ∃ before answer, FirstAnswer expectedSerial datagrams before answer := by
  cases hfind : datagrams.find? fun d => decide (AnswersRequest expectedSerial d) with
  | none =>
      have hnone : ∀ d ∈ datagrams, ¬ AnswersRequest expectedSerial d := fun d hd => by
        simpa using List.find?_eq_none.mp hfind d hd
      have hdiscards : receiveUdp expectedSerial room (datagrams.map .ok ++ []) =
          .waiting (roomAfter room datagrams) := receiveUdp_discards [] hnone
      rw [List.append_nil] at hdiscards
      rw [hdiscards] at h
      cases h
  | some answer =>
      obtain ⟨hanswer, before, after, hsplit, hbefore⟩ := List.find?_eq_some_iff_append.mp hfind
      refine ⟨before, answer, ⟨after, hsplit⟩, fun d hd => ?_, of_decide_eq_true hanswer⟩
      simpa using hbefore d hd

end Receive

/-- **A datagram is returned whole exactly when** none before it is shorter. -/
theorem returned_whole_iff (expectedSerial : UInt16) {datagrams : List Bytes}
    (hlen : ∀ d ∈ datagrams, d.length ≤ udpBufLen) :
    AnsweredWhole expectedSerial datagrams ↔
      ∀ before answer, FirstAnswer expectedSerial datagrams before answer →
        ∀ d ∈ before, answer.length ≤ d.length := by
  have hroom : ∀ {before answer}, FirstAnswer expectedSerial datagrams before answer →
      (receiveUdp expectedSerial udpBufLen (datagrams.map .ok) = .returned answer ↔
        ∀ d ∈ before, answer.length ≤ d.length) := by
    intro before answer hfirst
    have hmem : answer ∈ datagrams := by
      obtain ⟨⟨after, rfl⟩, -⟩ := hfirst
      exact List.mem_append_right _ List.mem_cons_self
    rw [returned_firstAnswer_iff hfirst, le_roomAfter_iff]
    exact ⟨fun h => h.2, fun h => ⟨hlen answer hmem, h⟩⟩
  constructor
  · exact fun h before answer hfirst => (hroom hfirst).mp (h.2 before answer hfirst)
  · intro h
    have hsecond := fun before answer hfirst => (hroom hfirst).mpr (h before answer hfirst)
    refine ⟨fun packet hpacket => ?_, hsecond⟩
    obtain ⟨before, answer, hfirst⟩ := exists_firstAnswer hpacket
    obtain ⟨⟨after, rfl⟩, -, hanswer⟩ := id hfirst
    rw [hsecond before answer hfirst, UdpState.returned.injEq] at hpacket
    subst hpacket
    exact ⟨List.mem_append_right _ List.mem_cons_self, hanswer⟩

/-- A stale datagram of six bytes, and an answer of five. -/
theorem returned_whole_iff_longer :
    AnsweredWhole 7 [[0xD4, 0x00, 0x06, 0x00, 0x01, 0x02], [0xD4, 0x00, 0x07, 0x00, 0x01]] ↔
      ∀ before answer, FirstAnswer 7
        [[0xD4, 0x00, 0x06, 0x00, 0x01, 0x02], [0xD4, 0x00, 0x07, 0x00, 0x01]] before answer →
        ∀ d ∈ before, answer.length ≤ d.length :=
  returned_whole_iff 7 (by decide)

/-- A stale datagram of four bytes cuts the answer to four. -/
theorem returned_whole_fails :
    receiveUdp 7 udpBufLen [.ok [0xD4, 0x00, 0x06, 0x00], .ok [0xD4, 0x00, 0x07, 0x00, 0x01]] =
      .returned [0xD4, 0x00, 0x07, 0x00] ∧
    ¬ ∀ (expectedSerial : UInt16) (datagrams : List Bytes),
      (∀ d ∈ datagrams, d.length ≤ udpBufLen) → AnsweredWhole expectedSerial datagrams := by
  have hcut : receiveUdp 7 udpBufLen
      [.ok [0xD4, 0x00, 0x06, 0x00], .ok [0xD4, 0x00, 0x07, 0x00, 0x01]] =
        .returned [0xD4, 0x00, 0x07, 0x00] := by decide
  refine ⟨hcut, fun h => ?_⟩
  have hmem := (h 7 [[0xD4, 0x00, 0x06, 0x00], [0xD4, 0x00, 0x07, 0x00, 0x01]] (by decide)).1 _ hcut
  exact absurd hmem.1 (by decide)

end MelsecMc
