/-
What is written is read back.

Values that `write_words_as` writes go through the client, the network and the memory of the
station, and `read_words_as` brings them back the same way.  The frame of the write may be
executed several times, so what matters is what the memory holds between the execution that
answered the write and the one that answers the read: the log is a history of the memory, the
write's own frame writes the same words again, and every other operation leaves them alone.

Of the memory and of the other operations this asks three things: that the memory keeps what was
written to it, that no other operation touches these words, and that the read was called when the
write had returned.  A read that was already under way may have been served before.
-/
import MelsecMc.Proofs.Operations
import MelsecMc.Proofs.TypedWords

namespace MelsecMc

/-! ### The memory

What is asked of a memory is that words which were written can be read, and of the other
operations that they leave these words alone.  A memory of words by address shows that both can
be met, by operations on other addresses.
-/

section Memory

variable {σ : Type} (mem : DeviceMemory σ)

/-- Words that are written can be read. -/
def DeviceMemory.Remembers : Prop :=
  ∀ s code addr words s', mem.writeWords s code addr words = some s' →
    mem.readWords s' code addr words.length = some words

/-- The operation does not touch these words. -/
def LeavesAlone (T : DeviceTable) (op : BatchOp) (code addr count : Nat) : Prop :=
  ∀ dev daddr s s' value, op.Names T dev daddr →
    Performed mem dev.deviceCode.toNat daddr op s s' value →
      mem.readWords s' code addr count = mem.readWords s code addr count

/-- A read touches nothing. -/
theorem leavesAlone_readWords (T : DeviceTable) (device : String) (n : UInt16)
    (code addr count : Nat) : LeavesAlone mem T (.readWords device n) code addr count := by
  intro dev daddr s s' value _ hperformed
  cases hperformed
  rfl

end Memory

/-- A memory of words, each at its own address, without points. -/
def wordMemory : DeviceMemory (Nat → Nat → UInt16) where
  readWords s code addr count := some ((List.range count).map fun i => s code (addr + i))
  readBits _ _ _ _ := none
  writeWords s code addr words := some fun c a =>
    if c = code ∧ addr ≤ a then words.getD (a - addr) (s c a) else s c a
  writeBits _ _ _ _ := none
  length_readWords := by
    intro s code addr count words h
    cases h
    rw [List.length_map, List.length_range]
  length_readBits := by
    intro s code addr count bits h
    cases h

theorem wordMemory_remembers : wordMemory.Remembers := by
  intro s code addr words s' h
  cases h
  refine congrArg some (List.ext_getElem (by simp) fun i hi hi' => ?_)
  rw [List.getElem_map, List.getElem_range]
  dsimp only
  rw [if_pos ⟨rfl, Nat.le_add_right _ _⟩, Nat.add_sub_cancel_left, List.getD_eq_getElem?_getD,
    List.getElem?_eq_getElem hi', Option.getD_some]

/-- Words written elsewhere. -/
theorem leavesAlone_wordMemory (T : DeviceTable) {device : String} {values : List UInt16}
    {code addr count : Nat}
    (h : ∀ dev daddr, resolve T device = some (dev, daddr) → dev.deviceCode.toNat ≠ code ∨
      daddr + values.length ≤ addr ∨ addr + count ≤ daddr) :
    LeavesAlone wordMemory T (.writeWords device values) code addr count := by
  intro dev daddr s s' value hnames hperformed
  have hplace := h dev daddr hnames.1
  cases hperformed with
  | writeWords hwrite =>
      cases hwrite
      refine congrArg some (List.map_congr_left fun i hi => ?_)
      have hlt := List.mem_range.mp hi
      dsimp only
      by_cases hin : code = dev.deviceCode.toNat ∧ daddr ≤ addr + i
      · rw [if_pos hin, List.getD_eq_default _ _ (by omega)]
      · rw [if_neg hin]

/-! ### The history

The log leads from one state of the memory to the next.  What an execution makes true and all
those after it keep is true when a later one begins.
-/

namespace Process

variable {σ : Type}

theorem chained_append {log log' : List (Execution σ)} {s s' : σ} (h : Chained s (log ++ log') s') :
    ∃ m, Chained s log m ∧ Chained m log' s' := by
  induction log generalizing s with
  | nil => exact ⟨s, rfl, h⟩
  | cons x log ih =>
      obtain ⟨m, hlog, hlog'⟩ := ih h.2
      exact ⟨m, ⟨h.1, hlog⟩, hlog'⟩

/-- What every execution of a history keeps, the history keeps. -/
theorem Chained.keeps {P : σ → Prop} {log : List (Execution σ)} {s s' : σ}
    (h : Chained s log s') (hs : P s) (hstep : ∀ x ∈ log, P x.before → P x.after) : P s' := by
  induction log generalizing s with
  | nil => exact h ▸ hs
  | cons x log ih =>
      obtain ⟨rfl, hlog⟩ := h
      exact ih hlog (hstep x List.mem_cons_self hs) fun y hy => hstep y (List.mem_cons_of_mem _ hy)

/-- From one execution to a later one. -/
theorem Chained.between (P : σ → Prop) {log log' : List (Execution σ)} {s s' : σ}
    (h : Chained s (log ++ log') s') {x y : Execution σ} (hx : x ∈ log) (hy : y ∈ log')
    (hafter : P x.after)
    (hstep : ∀ z ∈ log ++ log', P z.before → P z.after) : P y.before := by
  obtain ⟨before, between, rfl⟩ := List.append_of_mem hx
  obtain ⟨between', after, rfl⟩ := List.append_of_mem hy
  rw [List.append_assoc] at h
  obtain ⟨_, -, hx'⟩ := chained_append h
  obtain ⟨-, hrest⟩ : x.before = _ ∧ Chained x.after (between ++ (between' ++ y :: after)) s' := hx'
  rw [← List.append_assoc] at hrest
  obtain ⟨m, hbetween, hy'⟩ := chained_append hrest
  obtain ⟨hbefore, -⟩ : y.before = m ∧ Chained y.after after s' := hy'
  rw [hbefore]
  refine hbetween.keeps hafter fun z hz => hstep z ?_
  rcases List.mem_append.mp hz with hz | hz
  · exact List.mem_append_left _ (List.mem_append_right _ (List.mem_cons_of_mem _ hz))
  · exact List.mem_append_right _ (List.mem_append_left _ hz)

end Process

/-! ### Later operations

An operation that was asked for after another had returned was served later too: its request was
not there before.  `After` compares two moments of one run, and every step keeps it.
-/

namespace Process

variable {σ : Type} {C : Channel σ} {S : Setting} {w₁ w w' : Process C}

/-- What is true of an operation that was asked for later. -/
def RunAfter (w₁ : Process C) (run : OpRun) : Prop :=
  w₁.asked.length ≤ run.origin → w₁.executed.length ≤ run.since

/-- The process is at a later moment. -/
structure After (w₁ w : Process C) : Prop where
  asked : w₁.asked <+: w.asked
  executed : w₁.executed <+: w.executed
  runs : ∀ t run, (w.task t).run? = some run → RunAfter w₁ run

section After

variable {station : Station σ} {WorldInv : C.World → Prop} {Good : C.World → C.Act → Prop}

/-- Only one task changes. -/
theorem After.update_task (h : After w₁ w) {t : TaskId} {task : OpState}
    (htask : ∀ run, task.run? = some run → RunAfter w₁ run) :
    After w₁ { w with task := Function.update w.task t task } := by
  refine ⟨h.asked, h.executed, fun u run hrun => ?_⟩
  have hupdate : (Function.update w.task t task u).run? = some run := hrun
  by_cases hu : u = t
  · rw [hu, Function.update_self] at hupdate
    exact htask run hupdate
  · rw [Function.update_of_ne hu] at hupdate
    exact h.runs u run hupdate

theorem After.proceed (hlaw : C.Lawful station WorldInv Good) (h : After w₁ w) {t : TaskId}
    {run : OpRun} {phase : RetryPhase} (hrun : RunAfter w₁ run)
    (hproceed : w.proceed S t run phase = some w') : After w₁ w' := by
  have hsame : ∀ {task : OpState}, task.run? = some run →
      ∀ r, task.run? = some r → RunAfter w₁ r := by
    intro task htask r hr
    rw [htask, Option.some.injEq] at hr
    exact hr ▸ hrun
  cases phase with
  | sending attempt =>
      obtain ⟨world, hbegin, rfl⟩ := Option.map_eq_some_iff.mp hproceed
      have htask : After w₁ { w with
          task := Function.update w.task t (.running run (.sending attempt)) } :=
        h.update_task (hsame rfl)
      refine ⟨h.asked, ?_, htask.runs⟩
      show w₁.executed <+: C.executed world
      rw [(hlaw.begun hbegin).executed]
      exact h.executed
  | sleeping attempt ms =>
      cases hproceed
      exact h.update_task (hsame rfl)
  | finished result =>
      cases hproceed
      exact h.update_task (hsame rfl)

theorem After.step (hlaw : C.Lawful station WorldInv Good) (h : After w₁ w) {a : ProcessAction C}
    (hstep : w.step S a = some w') : After w₁ w' := by
  have hnone : ∀ {task : OpState}, task.run? = none →
      ∀ run, task.run? = some run → RunAfter w₁ run := by
    intro task htask run hrun
    rw [htask] at hrun
    cases hrun
  have hold : ∀ {t run phase}, w.task t = .running run phase → RunAfter w₁ run := by
    intro t run phase htask
    exact h.runs t run (by rw [htask]; rfl)
  cases step_cases hstep with
  | @refuses t op e hrest hframe =>
      have htask : After w₁ { w with task := Function.update w.task t (.refused op e) } :=
        h.update_task (hnone rfl)
      exact ⟨htask.asked, htask.executed, htask.runs⟩
  | @asks t op frame w' hrest hframe hproceed =>
      have hasked : After w₁ { w with
          counter := (op.request S w.counter).1, asked := w.asked ++ [⟨op, frame⟩] } :=
        ⟨h.asked.trans (List.prefix_append _ _), h.executed, h.runs⟩
      exact hasked.proceed hlaw (fun _ => h.executed.length_le) hproceed
  | acts hact =>
      exact ⟨h.asked, h.executed.trans (hlaw.carries hact).executed, h.runs⟩
  | settles htask hended hproceed => exact h.proceed hlaw (hold htask) hproceed
  | isCancelled htask hended => exact h.update_task (hnone rfl)
  | wakes htask hproceed => exact h.proceed hlaw (hold htask) hproceed
  | drops htask => exact h.update_task (hnone rfl)
  | takesSerial => exact ⟨h.asked, h.executed, h.runs⟩

/-- A moment is later than itself. -/
theorem Inv.after_self (hinv : w.Inv S WorldInv) : After w w := by
  refine ⟨List.prefix_refl _, List.prefix_refl _, fun t run hrun horigin => ?_⟩
  have hok := hinv.tasks t
  unfold TaskOk at hok
  have hrunOk : w.RunOk run := by
    cases htask : w.task t with
    | running r phase =>
        rw [htask] at hrun hok
        cases hrun
        cases phase with
        | sending attempt => exact hok.1
        | sleeping attempt ms => exact hok
        | finished result => exact hok
    | returned r result upTo =>
        rw [htask] at hrun hok
        cases hrun
        exact hok.1
    | _ =>
        rw [htask] at hrun
        cases hrun
  have hlt := (List.getElem?_eq_some_iff.mp hrunOk.asked).1
  omega

end After

end Process

/-! ### The words of a typed value

`write_words_as` writes the words of its values one behind another, and `read_words_as` asks
for as many words as so many values have.
-/

/-- The number of words a typed read asks for. -/
theorem requiredWords_eq_ok {α : Type} [FromWords α] {count required : UInt16}
    (h : requiredWords α count = .ok required) :
    required.toNat = FromWords.words α % 2 ^ 32 * count.toNat := by
  unfold requiredWords at h
  dsimp only at h
  split at h
  · cases h
  · split at h
    · cases h
    · rename_i hle
      rw [Except.ok.injEq] at h
      rw [← h, UInt16.toNat_ofNat', Nat.mod_eq_of_lt (by omega)]

section Typed

variable {α : Type} [FromWords α] [ToWords α] [LawfulWords α]

theorem length_flattenWords (values : List α) :
    (flattenWords values).length = FromWords.words α * values.length := by
  rw [flattenWords_eq, List.length_flatMap]
  induction values with
  | nil => rfl
  | cons v values ih =>
      rw [List.map_cons, List.sum_cons, ih, LawfulWords.length_toWords, List.length_cons,
        Nat.mul_succ, Nat.add_comm]

/-- A typed read of as many values as were written asks for the words that were written. -/
theorem readWordsAs_eq_ok {device : String} {count : UInt16} {op : BatchOp} {values : List α}
    (h : readWordsAs α device count = .ok op) (hcount : count.toNat = values.length)
    (hlen : (flattenWords values).length < 65536) :
    ∃ required : UInt16, op = .readWords device required ∧
      required.toNat = (flattenWords values).length := by
  unfold readWordsAs at h
  cases hrequired : requiredWords α count with
  | error e =>
      rw [hrequired, error_bind] at h
      cases h
  | ok required =>
      rw [hrequired, ok_bind, pure_eq_ok, Except.ok.injEq] at h
      refine ⟨required, h.symm, ?_⟩
      rw [requiredWords_eq_ok hrequired, hcount]
      rw [length_flattenWords] at hlen ⊢
      by_cases hempty : values.length = 0
      · rw [hempty, Nat.mul_zero, Nat.mul_zero]
      · have hwords : FromWords.words α ≤ FromWords.words α * values.length :=
          Nat.le_mul_of_pos_right _ (Nat.pos_of_ne_zero hempty)
        rw [Nat.mod_eq_of_lt (by omega)]

/-- The values of the words a read brought. -/
theorem elements_eq_ok {count : UInt16} {parsed : JsonValue} {values : List α}
    (hcount : count.toNat = values.length)
    (hparsed : parsed.get "data_blocks" =
      some (.array [.array (jsonWords (flattenWords values))])) :
    elements α count parsed = .ok values := by
  rw [elements, collectWords_of_data_blocks hparsed, ok_bind, hcount, readElements_flattenWords]

end Typed

/-! ### Every run

The frame of the write may be executed again between the two, and puts the same words there.  No
other operation touches them.  So from the execution that answered the write to the one that
answers the read the words stay.
-/

section Performed

variable {σ : Type} {mem : DeviceMemory σ} {code addr : Nat} {s s' : σ} {value : JsonValue}

theorem Performed.writes {device : String} {words : List UInt16}
    (h : Performed mem code addr (.writeWords device words) s s' value) :
    mem.writeWords s code addr words = some s' := by
  cases h with
  | writeWords hwrite => exact hwrite

theorem Performed.reads {device : String} {count : UInt16}
    (h : Performed mem code addr (.readWords device count) s s' value) :
    ∃ words, mem.readWords s code addr count.toNat = some words ∧
      value.get "data_blocks" = some (.array [.array (jsonWords words)]) := by
  cases h with
  | readWords hread hvalue => exact ⟨_, hread, hvalue⟩

end Performed

/-- Two operations on one device string name the same words. -/
theorem BatchOp.Names.same_place {T : DeviceTable} {op op' : BatchOp} {dev dev' : Device}
    {addr addr' : Nat} (h : op.Names T dev addr) (h' : op'.Names T dev' addr')
    (hsame : resolve T op'.device = resolve T op.device) : dev' = dev ∧ addr' = addr := by
  have heq := (h'.1.symm.trans hsame).trans h.1
  rw [Option.some.injEq, Prod.mk.injEq] at heq
  exact heq

namespace Process

variable {σ : Type}

/-- A write that has a frame has no more words than fit in one. -/
theorem Inv.writtenWords_lt {α : Type} [ToWords α] {C : Channel σ} {WorldInv : C.World → Prop}
    {S : Setting} {w : Process C} (hinv : w.Inv S WorldInv) (hreg : S.registry = shippedRegistry)
    {asked : Asked} (hasked : asked ∈ w.asked) {device : String} {values : List α}
    (hop : asked.op = writeWordsAs device values) : (flattenWords values).length < 65536 := by
  obtain ⟨_, _, _, -, hfits, -⟩ := hinv.asked_builtFrame hreg hasked
  rw [hop, writeWordsAs, BatchOp.dataLen, BatchOp.points, length_wordsLe] at hfits
  omega

/-- Once the words are there, they stay. -/
theorem Inv.words_stay {C : Channel σ} {WorldInv : C.World → Prop} {Good : C.World → C.Act → Prop}
    {S : Setting} {mem : DeviceMemory σ}
    (hlaw : C.Lawful (mem.station S.client.plcSeries) WorldInv Good) {w : Process C}
    (hinv : w.Inv S WorldInv) (hreg : S.registry = shippedRegistry)
    (hformat : S.client.mcFormat = .mc4e) (hmem : mem.Remembers) {run : OpRun}
    (hrun : w.RunOk run) {device : String} {words : List UInt16}
    (hop : run.op = .writeWords device words) {dev : Device} {addr : Nat}
    (hnames : run.op.Names S.table dev addr)
    (hothers : ∀ i asked, w.asked[i]? = some asked → i ≠ run.origin →
      LeavesAlone mem S.table asked.op dev.deviceCode.toNat addr words.length)
    {x : Execution σ} (hx : x ∈ w.executed)
    (hbefore : mem.readWords x.before dev.deviceCode.toNat addr words.length = some words) :
    mem.readWords x.after dev.deviceCode.toNat addr words.length = some words := by
  obtain ⟨asked, dev', addr', f, hget, hnames', -, houtcome⟩ := hinv.outcome hlaw hreg hformat hx
  cases houtcome with
  | refused _ hsame =>
      rw [hsame]
      exact hbefore
  | performed _ hperformed =>
      by_cases horigin : x.origin = run.origin
      · -- the write's own frame, once more
        rw [horigin, hrun.asked, Option.some.injEq] at hget
        subst hget
        obtain ⟨rfl, rfl⟩ := hnames.unique hnames'
        rw [hop] at hperformed
        exact hmem _ _ _ _ _ hperformed.writes
      · rw [hothers _ asked hget horigin dev' addr' _ _ _ hnames' hperformed]
        exact hbefore

/-- **What is written is read back.**  Values were written with `write_words_as`, and after
that as many were asked for with `read_words_as`: if the read returns and no other operation
touched these words, it returns the values that were written.  Over TCP and over UDP, with any
number of tasks, with frames that are sent again and executed late, and for every type of
value. -/
theorem typed_read_back {α : Type} [FromWords α] [ToWords α] [LawfulWords α] {S : Setting}
    {mem : DeviceMemory σ} {addr : String} {state : σ}
    {first second : List (ProcessAction (S.channel (mem.station S.client.plcSeries)))}
    {w₁ w : Process (S.channel (mem.station S.client.plcSeries))}
    (hreg : S.registry = shippedRegistry) (hformat : S.client.mcFormat = .mc4e)
    (hmem : mem.Remembers)
    (hgood : Runs.Along (step S)
      (GoodAction (S.protocol.Good S.config (mem.station S.client.plcSeries)))
      (start (S.channel (mem.station S.client.plcSeries)) addr state) (first ++ second))
    (hquiet : ∀ a ∈ first ++ second, isChange a = false)
    (hfirst : Runs.run (step S) (start (S.channel (mem.station S.client.plcSeries)) addr state)
      first = some w₁)
    (hsecond : Runs.run (step S) w₁ second = some w)
    {t : TaskId} {run : OpRun} {value : JsonValue} {upTo : Nat} {device : String} {values : List α}
    (hwrite : w₁.task t = .returned run (.ok value) upTo)
    (hop : run.op = writeWordsAs device values)
    (hothers : ∀ i asked, w.asked[i]? = some asked → i ≠ run.origin →
      ∀ dev daddr, run.op.Names S.table dev daddr →
        LeavesAlone mem S.table asked.op dev.deviceCode.toNat daddr (flattenWords values).length)
    {u : TaskId} {run' : OpRun} {value' : JsonValue} {upTo' : Nat} {device' : String}
    {count : UInt16} (hread : w.task u = .returned run' (.ok value') upTo')
    (hop' : readWordsAs α device' count = .ok run'.op)
    (hcount : count.toNat = values.length)
    (hdevice : resolve S.table device' = resolve S.table device)
    (hlater : w₁.asked.length ≤ run'.origin) :
    elements α count value' = .ok values := by
  have hlaw : (S.channel (mem.station S.client.plcSeries)).Lawful (mem.station S.client.plcSeries)
      (S.protocol.WorldInv S.config (mem.station S.client.plcSeries))
      (S.protocol.Good S.config (mem.station S.client.plcSeries)) :=
    S.protocol.lawful S.config (mem.station S.client.plcSeries)
  have hinv₁ := inv_run hlaw hgood.left hfirst
  have hrun : Runs.run (step S) (start (S.channel (mem.station S.client.plcSeries)) addr state)
      (first ++ second) = some w := by
    rw [Runs.run_append, hfirst]
    exact hsecond
  have hinv := inv_run hlaw hgood hrun
  have hafter : After w₁ w :=
    Runs.run_invariant (fun _ _ _ h hstep => h.step hlaw hstep) second hinv₁.after_self hsecond
  have hsince : w₁.executed.length ≤ run'.since :=
    hafter.runs u run' (by rw [hread]; rfl) hlater
  obtain ⟨hok₁, dev, daddr, hnames, x, hx, -, hxperformed⟩ :=
    hinv₁.performed hlaw hreg hformat hwrite
  obtain ⟨-, dev', daddr', hnames', y, hy, -, hyperformed⟩ :=
    hinv.performed hlaw hreg hformat hread
  have hok := hok₁.mono hafter.asked hafter.executed
  have hlen : (flattenWords values).length < 65536 :=
    hinv.writtenWords_lt hreg (List.mem_of_getElem? hok.asked) hop
  obtain ⟨required, hreadOp, hrequired⟩ := readWordsAs_eq_ok hop' hcount hlen
  have hplace : resolve S.table run'.op.device = resolve S.table run.op.device := by
    rw [hop, hreadOp]
    exact hdevice
  obtain ⟨rfl, rfl⟩ := hnames.same_place hnames' hplace
  rw [hop] at hxperformed
  rw [hreadOp] at hyperformed
  -- from the execution that answered the write to the one that answers the read
  have hwords : mem.readWords y.before dev'.deviceCode.toNat daddr' (flattenWords values).length =
      some (flattenWords values) := by
    obtain ⟨more, hmore⟩ := hafter.executed
    have hchained := chained_run hlaw hquiet hrun
    rw [← hmore] at hchained
    have hxmem : x ∈ w₁.executed := List.mem_of_mem_take (List.mem_of_mem_drop hx)
    have hymem : y ∈ more := by
      rw [← hmore, List.drop_take, List.drop_append, List.drop_eq_nil_of_le hsince,
        List.nil_append] at hy
      exact List.mem_of_mem_drop (List.mem_of_mem_take hy)
    refine Chained.between (fun s => mem.readWords s dev'.deviceCode.toNat daddr'
        (flattenWords values).length = some (flattenWords values)) hchained hxmem hymem
      (hmem _ _ _ _ _ hxperformed.writes) fun z hz hbefore => ?_
    rw [hmore] at hz
    exact hinv.words_stay hlaw hreg hformat hmem hok hop hnames
      (fun i asked hget hne => hothers i asked hget hne dev' daddr' hnames) hz hbefore
  obtain ⟨words, hreads, hvalue⟩ := hyperformed.reads
  rw [hrequired, hwords, Option.some.injEq] at hreads
  subst hreads
  exact elements_eq_ok hcount hvalue

/-- A write of two words whose first attempt fails after the frame got through. -/
def writtenFirst : List (ProcessAction (tcpChannel (wordMemory.station .r))) :=
  [.invoke 0 (writeWordsAs "D0" [(0x12345678 : UInt32)]), .net (.event 0 (.resolved ["remote"]) false),
    .net (.event 0 (.locked false) false), .net (.event 0 (.connected 7) false),
    .net (.event 0 (.writeFailed "reset") true), .settle 0, .wake 0,
    .net (.event 0 (.resolved ["remote"]) false), .net (.event 0 (.locked false) false),
    .net (.event 0 (.connected 8) false), .net (.event 0 .wrote true), .net (.serve 8),
    .net (.read 0 15), .settle 0]

/-- A write somewhere else, and a read before which the station gets to the first frame. -/
def readLater : List (ProcessAction (tcpChannel (wordMemory.station .r))) :=
  [.invoke 2 (.writeWords "D100" [7]), .net (.event 2 (.resolved ["remote"]) false),
    .net (.event 2 (.locked true) false), .net (.event 2 .wrote true), .net (.serve 8),
    .net (.read 2 15), .settle 2,
    .invoke 1 (.readWords "D0" 2), .net (.event 1 (.resolved ["remote"]) false),
    .net (.event 1 (.locked true) false), .net (.event 1 .wrote true), .net (.serve 7),
    .net (.serve 8), .net (.read 1 8), .net (.read 1 11), .settle 1]

/-- The operation that returned a value, and its number. -/
def done? {C : Channel σ} (w : Process C) (t : TaskId) : Option (BatchOp × Nat) :=
  match w.task t with
  | .returned run (.ok _) _ => some (run.op, run.origin)
  | _ => none

theorem eq_of_done? {C : Channel σ} {w : Process C} {t : TaskId} {op : BatchOp} {i : Nat}
    (h : w.done? t = some (op, i)) : ∃ run value upTo,
      w.task t = .returned run (.ok value) upTo ∧ run.op = op ∧ run.origin = i := by
  unfold done? at h
  split at h
  · rename_i run value upTo htask
    rw [Option.some.injEq, Prod.mk.injEq] at h
    exact ⟨run, value, upTo, htask, h.1, h.2⟩
  · cases h

theorem typed_read_back_late :
    ∃ w, Runs.run (step twoDevicesSetting)
        (start (tcpChannel (wordMemory.station .r)) "plc" fun _ _ => 0)
        (writtenFirst ++ readLater) = some w ∧
      ∃ run value upTo, w.task 1 = .returned run (.ok value) upTo ∧
        elements UInt32 1 value = .ok [0x12345678] := by
  have hwritten : (Runs.run (step twoDevicesSetting)
      (start (tcpChannel (wordMemory.station .r)) "plc" fun _ _ => 0) writtenFirst).map
      (fun w₁ => (w₁.done? 0, w₁.asked.length)) =
        some (some (writeWordsAs "D0" [(0x12345678 : UInt32)], 0), 1) := by decide +kernel
  have hends : (Runs.run (step twoDevicesSetting)
      (start (tcpChannel (wordMemory.station .r)) "plc" fun _ _ => 0)
      (writtenFirst ++ readLater)).map (fun w => (w.done? 1, w.asked.map Asked.op)) =
        some (some (.readWords "D0" 2, 2), [writeWordsAs "D0" [(0x12345678 : UInt32)],
          .writeWords "D100" [7], .readWords "D0" 2]) := by decide +kernel
  have hclear : Runs.Along (step twoDevicesSetting) (fun w a => w.clear a = true)
      (start (tcpChannel (wordMemory.station .r)) "plc" fun _ _ => 0)
      (writtenFirst ++ readLater) := by
    decide +kernel
  have hd0 : resolve twoDevices "D0" = some (⟨.word, .decimal, 0xA8⟩, 0) := by decide +kernel
  have hd100 : resolve twoDevices "D100" = some (⟨.word, .decimal, 0xA8⟩, 100) := by decide +kernel
  have hquiet : (writtenFirst ++ readLater).all (fun a => !isChange a) = true := by decide +kernel
  obtain ⟨w₁, hfirst, hw₁⟩ := Option.map_eq_some_iff.mp hwritten
  obtain ⟨w, hrun, hw⟩ := Option.map_eq_some_iff.mp hends
  rw [Prod.mk.injEq] at hw₁ hw
  obtain ⟨run₀, value₀, upTo₀, htask₀, hop₀, horigin₀⟩ := eq_of_done? hw₁.1
  obtain ⟨run, value, upTo, htask, hop, horigin⟩ := eq_of_done? hw.1
  refine ⟨w, hrun, run, value, upTo, htask, ?_⟩
  have hsecond : Runs.run (step twoDevicesSetting) w₁ readLater = some w := by
    rw [Runs.run_append, hfirst] at hrun
    exact hrun
  have hothers : ∀ i asked, w.asked[i]? = some asked → i ≠ run₀.origin →
      ∀ dev daddr, run₀.op.Names twoDevices dev daddr →
        LeavesAlone wordMemory twoDevices asked.op dev.deviceCode.toNat daddr 2 := by
    intro i asked hget hne dev daddr hnames
    have hop : (w.asked.map Asked.op)[i]? = some asked.op := by rw [List.getElem?_map, hget]; rfl
    have hplace := hnames.1
    rw [hop₀] at hplace
    rw [show resolve twoDevices "D0" = some (dev, daddr) from hplace, Option.some.injEq,
      Prod.mk.injEq] at hd0
    rw [hw.2] at hop
    rw [horigin₀] at hne
    rcases i with _ | _ | _ | i
    · exact absurd rfl hne
    · rw [← Option.some.inj hop, hd0.1, hd0.2]
      refine leavesAlone_wordMemory _ fun dev' daddr' hdev' => ?_
      rw [hd100, Option.some.injEq, Prod.mk.injEq] at hdev'
      exact .inr (.inr (hdev'.2 ▸ by decide))
    · rw [← Option.some.inj hop]
      exact leavesAlone_readWords _ _ _ _ _ _ _
    · cases hop
  exact @typed_read_back (Nat → Nat → UInt16) UInt32 _ _ _ twoDevicesSetting wordMemory "plc"
    (fun _ _ => 0)
    writtenFirst readLater w₁ w rfl rfl wordMemory_remembers
    (hclear.mono goodAction_of_clear (writtenFirst ++ readLater))
    (fun a ha => Bool.not_eq_true' _ |>.mp (List.all_eq_true.mp hquiet a ha)) hfirst hsecond
    0 run₀ value₀ upTo₀ "D0" [0x12345678] htask₀ hop₀ hothers 1 run value upTo "D0" 1 htask
    (hop ▸ rfl) rfl rfl (by rw [hw₁.2, horigin]; decide)

end Process

end MelsecMc
