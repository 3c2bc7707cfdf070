/-
Cutting a stream into frames.

A receiver keeps a buffer, appends whatever the next read brings, and then scans:
it looks at the front of the buffer, and the look tells it to wait for more, to
drop some elements and look again, to deliver some elements, or to give up.  What
the look decides is a parameter, the `Scanner`; what is proved here is how such
a receiver behaves for any of them.

The question the file answers is when the way the stream was cut into reads does
not matter.  Scanning after every read differs from scanning once at the end only
if some intermediate scan took a decision it would not have taken with more of the
stream at hand.  So the condition is `Settled`: what the scan removed so far is a
list of whole frames, and the look at what is left says to wait.  If every proper
prefix the reads produce is settled, feeding the reads one at a time is scanning
their concatenation (`feed_eq_scan`).
-/
import Mathlib.Data.List.Basic

namespace Framing

/-- What a look at the buffer decides. -/
inductive Verdict (ε : Type)
  /-- not enough there yet -/
  | await
  /-- throw the first `n` elements away and look again -/
  | drop (n : Nat)
  /-- hand out the first `n` elements -/
  | deliver (n : Nat)
  /-- give up -/
  | abort (e : ε)
  deriving DecidableEq

/-- A way of looking at a buffer which drops something whenever it drops, and never
asks for more than is there. -/
structure Scanner (α ε : Type) where
  verdict : List α → Verdict ε
  drop_pos : ∀ {buf n}, verdict buf = .drop n → 0 < n
  drop_le : ∀ {buf n}, verdict buf = .drop n → n ≤ buf.length
  deliver_le : ∀ {buf n}, verdict buf = .deliver n → n ≤ buf.length

/-- How a scan ends. -/
inductive Outcome (α ε : Type)
  /-- the scan stopped for more input; this is what it left -/
  | waiting (buf : List α)
  /-- a frame was handed out; this is what followed it -/
  | delivered (frame rest : List α)
  | aborted (e : ε)
  deriving DecidableEq

namespace Scanner

variable {α ε : Type} (S : Scanner α ε)

/-- Look, act, and look again until the look says to stop. -/
def scan (buf : List α) : Outcome α ε :=
  match _h : S.verdict buf with
  | .await => .waiting buf
  | .drop n => scan (buf.drop n)
  | .deliver n => .delivered (buf.take n) (buf.drop n)
  | .abort e => .aborted e
termination_by buf.length
decreasing_by
  have hpos := S.drop_pos _h
  have hle := S.drop_le _h
  rw [List.length_drop]
  omega

/-- Append each read to what the last scan left, and scan. -/
def feed : List α → List (List α) → Outcome α ε
  | buf, [] => .waiting buf
  | buf, chunk :: chunks =>
      match S.scan (buf ++ chunk) with
      | .waiting rest => feed rest chunks
      | .delivered frame rest => .delivered frame rest
      | .aborted e => .aborted e

/-! ### One look -/

theorem scan_await {buf : List α} (h : S.verdict buf = .await) : S.scan buf = .waiting buf := by
  rw [scan]
  split <;> simp_all

theorem scan_drop {buf : List α} {n : Nat} (h : S.verdict buf = .drop n) :
    S.scan buf = S.scan (buf.drop n) := by
  rw [scan]
  split <;> simp_all

theorem scan_deliver {buf : List α} {n : Nat} (h : S.verdict buf = .deliver n) :
    S.scan buf = .delivered (buf.take n) (buf.drop n) := by
  rw [scan]
  split <;> simp_all

theorem scan_abort {buf : List α} {e : ε} (h : S.verdict buf = .abort e) :
    S.scan buf = .aborted e := by
  rw [scan]
  split <;> simp_all

/-- A scan is a run of drops that ends in one other verdict: a property of the outcome
that holds for every such verdict and survives a drop in front holds of the scan. -/
theorem scan_induct {P : List α → Outcome α ε → Prop}
    (hawait : ∀ buf, S.verdict buf = .await → P buf (.waiting buf))
    (hdrop : ∀ buf n, S.verdict buf = .drop n → P (buf.drop n) (S.scan (buf.drop n)) →
      P buf (S.scan (buf.drop n)))
    (hdeliver : ∀ buf n, S.verdict buf = .deliver n →
      P buf (.delivered (buf.take n) (buf.drop n)))
    (habort : ∀ buf e, S.verdict buf = .abort e → P buf (.aborted e)) :
    ∀ buf, P buf (S.scan buf) := by
  intro buf
  induction hlen : buf.length using Nat.strongRecOn generalizing buf with
  | ind len ih =>
      cases hv : S.verdict buf with
      | await => rw [S.scan_await hv]; exact hawait buf hv
      | drop n =>
          have hpos := S.drop_pos hv
          have hle := S.drop_le hv
          rw [S.scan_drop hv]
          exact hdrop buf n hv (ih _ (by rw [List.length_drop]; omega) _ rfl)
      | deliver n => rw [S.scan_deliver hv]; exact hdeliver buf n hv
      | abort e => rw [S.scan_abort hv]; exact habort buf e hv

/-- What a scan leaves is a suffix of what it was given, strictly shorter when the
first look did not say to wait. -/
theorem scan_waiting_length {buf rest : List α} (h : S.scan buf = .waiting rest) :
    rest.length ≤ buf.length ∧ (S.verdict buf ≠ .await → rest.length < buf.length) := by
  refine S.scan_induct (P := fun buf out => ∀ rest, out = .waiting rest →
    rest.length ≤ buf.length ∧ (S.verdict buf ≠ .await → rest.length < buf.length))
    ?_ ?_ ?_ ?_ buf rest h
  · rintro buf hv rest ⟨⟩
    exact ⟨Nat.le_refl _, fun hne => absurd hv hne⟩
  · intro buf n hv ih rest hrest
    have hpos := S.drop_pos hv
    have hle := S.drop_le hv
    have hlen := (ih rest hrest).1
    rw [List.length_drop] at hlen
    exact ⟨by omega, fun _ => by omega⟩
  · rintro buf n - rest ⟨⟩
  · rintro buf e - rest ⟨⟩

/-- A delivered frame is the front of a suffix of the buffer at which the look said so. -/
theorem scan_delivered {buf frame rest : List α} (h : S.scan buf = .delivered frame rest) :
    ∃ tail n, tail <:+ buf ∧ S.verdict tail = .deliver n ∧
      frame = tail.take n ∧ rest = tail.drop n := by
  refine S.scan_induct (P := fun buf out => ∀ frame rest, out = .delivered frame rest →
    ∃ tail n, tail <:+ buf ∧ S.verdict tail = .deliver n ∧
      frame = tail.take n ∧ rest = tail.drop n) ?_ ?_ ?_ ?_ buf frame rest h
  · rintro buf - frame rest ⟨⟩
  · intro buf n hv ih frame rest hout
    obtain ⟨tail, m, hsuf, htail⟩ := ih frame rest hout
    exact ⟨tail, m, hsuf.trans (List.drop_suffix n buf), htail⟩
  · rintro buf n hv frame rest ⟨⟩
    exact ⟨buf, n, List.suffix_refl buf, hv, rfl, rfl⟩
  · rintro buf e - frame rest ⟨⟩

/-! ### Frames that say where they end

A frame is self-delimiting for the scanner when the look at it takes exactly the
frame, whatever follows.
-/

/-- The look at `frame` drops exactly it, whatever follows. -/
def Drops (frame : List α) : Prop :=
  ∀ rest, S.verdict (frame ++ rest) = .drop frame.length

/-- The look at `frame` delivers exactly it, whatever follows. -/
def Delivers (frame : List α) : Prop :=
  ∀ rest, S.verdict (frame ++ rest) = .deliver frame.length

theorem scan_delivers {frame : List α} (h : S.Delivers frame) (rest : List α) :
    S.scan (frame ++ rest) = .delivered frame rest := by
  rw [S.scan_deliver (h rest), List.take_left, List.drop_left]

/-- Dropped frames in front of the buffer do not change the outcome. -/
theorem scan_drops {frames : List (List α)} (h : ∀ f ∈ frames, S.Drops f) (rest : List α) :
    S.scan (frames.flatten ++ rest) = S.scan rest := by
  induction frames with
  | nil => rfl
  | cons f frames ih =>
      have hf : S.Drops f := h f List.mem_cons_self
      rw [List.flatten_cons, List.append_assoc, S.scan_drop (hf _), List.drop_left]
      exact ih fun g hg => h g (List.mem_cons_of_mem f hg)

/-- What a scan throws away, one piece for each look that says so. -/
def dropped (buf : List α) : List (List α) :=
  match _h : S.verdict buf with
  | .drop n => buf.take n :: dropped (buf.drop n)
  | _ => []
termination_by buf.length
decreasing_by
  have hpos := S.drop_pos _h
  have hle := S.drop_le _h
  rw [List.length_drop]
  omega

theorem dropped_drop {buf : List α} {n : Nat} (h : S.verdict buf = .drop n) :
    S.dropped buf = buf.take n :: S.dropped (buf.drop n) := by
  rw [dropped]
  split <;> simp_all

theorem dropped_of_not_drop {buf : List α} (h : ∀ n, S.verdict buf ≠ .drop n) :
    S.dropped buf = [] := by
  rw [dropped]
  split
  · rename_i n hn
    exact absurd hn (h n)
  · rfl

/-- Dropped frames in front are thrown away one by one, and nothing else of them is. -/
theorem dropped_drops {frames : List (List α)} (h : ∀ f ∈ frames, S.Drops f) (rest : List α) :
    S.dropped (frames.flatten ++ rest) = frames ++ S.dropped rest := by
  induction frames with
  | nil => rfl
  | cons f frames ih =>
      have hf : S.Drops f := h f List.mem_cons_self
      rw [List.flatten_cons, List.append_assoc, S.dropped_drop (hf _), List.take_left,
        List.drop_left, ih fun g hg => h g (List.mem_cons_of_mem f hg), List.cons_append]

/-! ### What has to go before a frame

In front of a frame there may be anything.  It is thrown away piece by piece, and the frame
behind it is delivered exactly when the pieces end where the frame begins, as long as what
is thrown away does not depend on what follows the frame (`finds_iff`).
-/

/-- The looks at `front` throw it away, and nothing of what follows. -/
inductive Clears (tail : List α) : List α → Prop
  | done : Clears tail []
  | drop {front : List α} {n : Nat} (hdrop : S.verdict (front ++ tail) = .drop n)
      (hle : n ≤ front.length) (hrest : Clears tail (front.drop n)) : Clears tail front

theorem Clears.scan_eq {tail front : List α} (h : S.Clears tail front) :
    S.scan (front ++ tail) = S.scan tail := by
  induction h with
  | done => rfl
  | drop hdrop hle hrest ih => rw [S.scan_drop hdrop, List.drop_append_of_le_length hle, ih]

/-- A frame with this much behind it stands here or before. -/
theorem length_of_delivered {buf frame rest : List α} (h : S.scan buf = .delivered frame rest) :
    frame.length + rest.length ≤ buf.length := by
  obtain ⟨tail, n, hsuf, hv, rfl, rfl⟩ := S.scan_delivered h
  have hle := S.deliver_le hv
  have hlen := hsuf.length_le
  rw [List.length_take, List.length_drop]
  omega

theorem clears_of_delivered {front frame rest : List α}
    (h : S.scan (front ++ (frame ++ rest)) = .delivered frame rest) :
    S.Clears (frame ++ rest) front := by
  induction hlen : front.length using Nat.strongRecOn generalizing front with
  | ind len ih =>
      cases hv : S.verdict (front ++ (frame ++ rest)) with
      | await =>
          rw [S.scan_await hv] at h
          cases h
      | abort e =>
          rw [S.scan_abort hv] at h
          cases h
      | deliver n =>
          -- what is left behind the frame is too much if anything stood in front of it
          have hle := S.deliver_le hv
          rw [S.scan_deliver hv, Outcome.delivered.injEq] at h
          have htake := congrArg List.length h.1
          have hdrop := congrArg List.length h.2
          rw [List.length_take, List.length_append, List.length_append] at htake
          rw [List.length_drop, List.length_append, List.length_append] at hdrop
          rw [List.length_append, List.length_append] at hle
          have hnil : front = [] := List.length_eq_zero_iff.mp (by omega)
          rw [hnil]
          exact .done
      | drop n =>
          have hpos := S.drop_pos hv
          rw [S.scan_drop hv] at h
          by_cases hle : n ≤ front.length
          · rw [List.drop_append_of_le_length hle] at h
            exact .drop hv hle (ih _ (by rw [List.length_drop]; omega) h rfl)
          · have hshort := S.length_of_delivered h
            have hn := S.drop_le hv
            rw [List.length_drop, List.length_append, List.length_append] at hshort
            rw [List.length_append, List.length_append] at hn
            omega

/-- A scan that leaves all of `tail` has stopped somewhere in front of it. -/
theorem exists_front_of_waiting {front tail left : List α}
    (h : S.scan (front ++ tail) = .waiting left) (hall : tail.length ≤ left.length) :
    ∃ front', front' <:+ front ∧ left = front' ++ tail ∧
      (S.Clears tail front' → S.Clears tail front) := by
  induction hlen : front.length using Nat.strongRecOn generalizing front with
  | ind len ih =>
      cases hv : S.verdict (front ++ tail) with
      | await =>
          rw [S.scan_await hv, Outcome.waiting.injEq] at h
          exact ⟨front, List.suffix_refl front, h.symm, id⟩
      | abort e =>
          rw [S.scan_abort hv] at h
          cases h
      | deliver n =>
          rw [S.scan_deliver hv] at h
          cases h
      | drop n =>
          have hpos := S.drop_pos hv
          rw [S.scan_drop hv] at h
          by_cases hle : n ≤ front.length
          · rw [List.drop_append_of_le_length hle] at h
            obtain ⟨front', hsuf, hleft, hclears⟩ :=
              ih _ (by rw [List.length_drop]; omega) h rfl
            exact ⟨front', hsuf.trans (List.drop_suffix n front), hleft,
              fun hfront => .drop hv hle (hclears hfront)⟩
          · have hshort := (S.scan_waiting_length h).1
            have hn := S.drop_le hv
            rw [List.length_drop, List.length_append] at hshort
            rw [List.length_append] at hn
            omega

/-- The frame is delivered, now or after more has come, with `rest` and all of that behind it. -/
inductive Finds (frame : List α) : List α → List α → Prop
  | now {buf rest : List α} (h : S.scan buf = .delivered frame rest) : Finds frame buf rest
  | later {buf left rest more : List α} (h : S.scan buf = .waiting left) (hne : more ≠ [])
      (hrest : Finds frame (left ++ more) (rest ++ more)) : Finds frame buf rest

theorem Finds.length_le {frame buf rest : List α} (h : S.Finds frame buf rest) :
    frame.length + rest.length ≤ buf.length := by
  induction h with
  | now h => exact S.length_of_delivered h
  | later h hne hrest ih =>
      have hleft := (S.scan_waiting_length h).1
      rw [List.length_append, List.length_append] at ih
      omega

theorem Finds.exists_scan {frame buf rest : List α} (h : S.Finds frame buf rest) :
    ∃ buf' rest', S.scan buf' = .delivered frame rest' := by
  induction h with
  | now h => exact ⟨_, _, h⟩
  | later h hne hrest ih => exact ih

/-- What is thrown away of `front` does not depend on what follows the frame. -/
def Stable (front frame : List α) : Prop :=
  ∀ {front' rest rest' : List α} {n : Nat}, front' <:+ front → n ≤ front'.length →
    S.verdict (front' ++ (frame ++ rest)) = .drop n →
    S.verdict (front' ++ (frame ++ rest')) = .drop n

theorem Stable.clears {front frame front' rest : List α} (h : S.Stable front frame)
    (hsuf : front' <:+ front) (hclears : S.Clears (frame ++ rest) front') (rest' : List α) :
    S.Clears (frame ++ rest') front' := by
  induction hclears with
  | done => exact .done
  | drop hdrop hle hrest ih =>
      exact .drop (h hsuf hle hdrop) hle (ih ((List.drop_suffix _ _).trans hsuf))

theorem clears_of_finds {front frame buf rest : List α} (hstable : S.Stable front frame)
    (h : S.Finds frame buf rest) : ∀ {front' : List α}, front' <:+ front →
    buf = front' ++ (frame ++ rest) → S.Clears (frame ++ rest) front' := by
  induction h with
  | now h =>
      rintro front' - rfl
      exact S.clears_of_delivered h
  | @later buf left rest more h hne hrest ih =>
      rintro front' hsuf rfl
      have hlen := hrest.length_le
      rw [List.length_append, List.length_append] at hlen
      obtain ⟨front'', hsuf', rfl, hclears⟩ := S.exists_front_of_waiting h
        (by rw [List.length_append]; omega)
      have hnext := ih (hsuf'.trans hsuf) (by rw [List.append_assoc, List.append_assoc])
      exact hclears (hstable.clears S (hsuf'.trans hsuf) hnext rest)

/-- **What comes later does not help**: the frame is found exactly when `front` is thrown away. -/
theorem finds_iff {front frame rest : List α} (hstable : S.Stable front frame)
    (h : S.Delivers frame) :
    S.Finds frame (front ++ (frame ++ rest)) rest ↔ S.Clears (frame ++ rest) front := by
  constructor
  · intro hfinds
    exact S.clears_of_finds hstable hfinds (List.suffix_refl front) rfl
  · intro hclears
    refine .now ?_
    rw [hclears.scan_eq, S.scan_delivers h]

/-! ### Cutting the stream -/

/-- What the scan has removed from `received` is whole frames, and at the rest it waits. -/
def Settled (received : List α) : Prop :=
  ∃ (frames : List (List α)) (rest : List α), (∀ f ∈ frames, S.Drops f) ∧
    received = frames.flatten ++ rest ∧ S.verdict rest = .await

theorem scan_settled {frames : List (List α)} {rest : List α} (hf : ∀ f ∈ frames, S.Drops f)
    (hrest : S.verdict rest = .await) : S.scan (frames.flatten ++ rest) = .waiting rest := by
  rw [S.scan_drops hf, S.scan_await hrest]

/-- The receiver holds `rest` after `received`; it then gets `chunks`.  The induction is
on the chunks, and `received` grows along, so that the settled prefixes are stated once
for the whole stream and never for the buffer alone. -/
theorem feed_settled (chunks : List (List α)) :
    ∀ {received : List α} {frames : List (List α)} {rest : List α},
      (∀ f ∈ frames, S.Drops f) → received = frames.flatten ++ rest →
      S.verdict rest = .await →
      (∀ i, 0 < i → i < chunks.length → S.Settled (received ++ (chunks.take i).flatten)) →
      S.feed rest chunks = S.scan (received ++ chunks.flatten) := by
  induction chunks with
  | nil =>
      intro received frames rest hf hrec hrest _
      rw [feed, List.flatten_nil, List.append_nil, hrec, S.scan_settled hf hrest]
  | cons chunk chunks ih =>
      intro received frames rest hf hrec hrest hcuts
      have hscan : S.scan (rest ++ chunk) = S.scan (received ++ chunk) := by
        rw [hrec, List.append_assoc, S.scan_drops hf]
      by_cases hlast : chunks = []
      · subst hlast
        rw [feed, hscan, List.flatten_cons, List.flatten_nil, List.append_nil]
        cases S.scan (received ++ chunk) <;> rfl
      · have hlen : 0 < chunks.length := List.length_pos_iff.mpr hlast
        obtain ⟨frames', rest', hf', hrec', hrest'⟩ :=
          hcuts 1 Nat.one_pos (by rw [List.length_cons]; omega)
        simp only [List.take_succ_cons, List.take_zero, List.flatten_cons, List.flatten_nil,
          List.append_nil] at hrec'
        rw [feed, hscan, hrec', S.scan_settled hf' hrest']
        show S.feed rest' chunks = _
        rw [ih hf' hrec' hrest' fun i hpos hi => ?_, List.flatten_cons, List.append_assoc]
        have hcut := hcuts (i + 1) (Nat.succ_pos i) (by rw [List.length_cons]; omega)
        rwa [List.take_succ_cons, List.flatten_cons, ← List.append_assoc] at hcut

/-- **The cuts do not matter when every one of them is settled.** -/
theorem feed_eq_scan (hempty : S.verdict [] = .await) {chunks : List (List α)}
    (hcuts : ∀ i, 0 < i → i < chunks.length → S.Settled (chunks.take i).flatten) :
    S.feed [] chunks = S.scan chunks.flatten := by
  have hnone : ∀ f ∈ ([] : List (List α)), S.Drops f := by simp
  exact S.feed_settled chunks hnone rfl hempty hcuts

end Scanner

/-! ### Positions in a concatenation of frames -/

/-- Position `p` lies `k` elements into `frame`, which follows `before`. -/
structure CutAt {α : Type} (frames : List (List α)) (p : Nat) (before : List (List α))
    (frame : List α) (k : Nat) : Prop where
  split : ∃ after, frames = before ++ frame :: after
  pos : p = before.flatten.length + k
  lt : k < frame.length

/-- Every position inside the stream lies in one of the frames. -/
theorem exists_cutAt {α : Type} (frames : List (List α)) :
    ∀ {p : Nat}, p < frames.flatten.length → ∃ before frame k, CutAt frames p before frame k := by
  induction frames with
  | nil => intro p hp; simp at hp
  | cons f frames ih =>
      intro p hp
      by_cases hlt : p < f.length
      · exact ⟨[], f, p, ⟨frames, rfl⟩, by simp, hlt⟩
      · rw [List.flatten_cons, List.length_append] at hp
        obtain ⟨before, g, k, ⟨after, hsplit⟩, hpos, hk⟩ := ih (p := p - f.length) (by omega)
        refine ⟨f :: before, g, k, ⟨after, by rw [hsplit, List.cons_append]⟩, ?_, hk⟩
        rw [List.flatten_cons, List.length_append]
        omega

namespace CutAt

variable {α : Type} {frames before : List (List α)} {frame : List α} {p k : Nat}

/-- The stream up to the position is the frames before it and the front of its frame. -/
theorem take_eq (h : CutAt frames p before frame k) :
    frames.flatten.take p = before.flatten ++ frame.take k := by
  obtain ⟨after, hsplit⟩ := h.split
  have hk : k ≤ frame.length := Nat.le_of_lt h.lt
  rw [hsplit, h.pos, List.flatten_append, List.flatten_cons, List.take_length_add_append,
    List.take_append_of_le_length hk]

/-- No frame border lies between the start of the frame and the position. -/
theorem border_le (h : CutAt frames p before frame k) {d : Nat}
    (hd : (frames.take d).flatten.length ≤ p) :
    (frames.take d).flatten.length ≤ before.flatten.length := by
  obtain ⟨after, hsplit⟩ := h.split
  have hlt := h.lt
  rw [h.pos, hsplit] at hd
  rw [hsplit]
  rcases Nat.lt_or_ge before.length d with hgt | hle
  · exfalso
    obtain ⟨m, rfl⟩ : ∃ m, d = before.length + (m + 1) := ⟨d - before.length - 1, by omega⟩
    rw [List.take_length_add_append, List.take_succ_cons, List.flatten_append,
      List.flatten_cons, List.length_append, List.length_append] at hd
    omega
  · rw [List.take_append_of_le_length hle]
    have hsplit' := congrArg (fun l => l.flatten.length) (List.take_append_drop d before)
    simp only [List.flatten_append, List.length_append] at hsplit'
    omega

end CutAt

end Framing
