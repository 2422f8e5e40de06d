import RustUma.Found.Reach
import RustUma.Model.Protobuf
import RustUma.Pipeline.Batcher

/-!
# What the batcher makes of its stream

The batcher against everything that is sent to it: records arrive on the channel at any moment, the
loop takes them off, groups them and hands each group to `encode_frame`. A group the encoder refuses
is logged and gone.
-/

namespace RustUma.Pipeline

open RustUma.Found RustUma.Model RustUma.Hub

/-! ## The loop and its senders -/

structure Intake extends BatchLoop where
  shutdown : Bool
  arrived : List EventRecord

inductive IntakeAction where
  | arrive (record : EventRecord)
  | batch (a : BatchAction)
  | shutdown
  deriving DecidableEq

namespace Intake

def start (capacity : ℕ) (frames : FrameHub) : Intake where
  toBatcher := Batcher.new
  rx := Channel.new capacity
  frames := frames
  shutdown := false
  arrived := []

def step (codec : Codec) (config : BatchConfig) (s : Intake) : IntakeAction → Option Intake
  | .arrive record =>
    (s.rx.trySend record).map fun rx => { s with rx := rx, arrived := s.arrived ++ [record] }
  | .batch a =>
    (s.toBatchLoop.step codec config s.shutdown a).map fun b => { s with toBatchLoop := b }
  | .shutdown => some { s with shutdown := true }

inductive Step (codec : Codec) (config : BatchConfig) (s : Intake) : IntakeAction → Intake → Prop
  where
  | arrive (record : EventRecord) (hroom : s.rx.HasRoom) :
      Step codec config s (.arrive record)
        { s with rx := s.rx.push record, arrived := s.arrived ++ [record] }
  | batch (a : BatchAction) (b : BatchLoop)
      (hstep : s.toBatchLoop.Step codec config s.shutdown a b) :
      Step codec config s (.batch a) { s with toBatchLoop := b }
  | shutdown : Step codec config s .shutdown { s with shutdown := true }

variable {codec : Codec} {config : BatchConfig} {s s' : Intake} {a : IntakeAction}

theorem step_sound (h : s.step codec config a = some s') : Step codec config s a s' := by
  cases a with
  | arrive record =>
    obtain ⟨rx, hsend, rfl⟩ := Option.map_eq_some_iff.mp h
    unfold Channel.trySend at hsend
    split_ifs at hsend with hroom
    cases hsend
    exact .arrive record hroom
  | batch a =>
    obtain ⟨b, hstep, rfl⟩ := Option.map_eq_some_iff.mp h
    exact .batch a b (BatchLoop.step_sound hstep)
  | shutdown =>
    cases h
    exact .shutdown

end Intake

/-! ## Groups -/

def sent (as : List IntakeAction) : List EventRecord :=
  as.filterMap fun
    | .arrive record => some record
    | _ => none

def encodes (as : List IntakeAction) : ℕ :=
  as.countP fun
    | .batch (.encode _ _) => true
    | _ => false

def GroupsFit (codec : Codec) (config : BatchConfig) (stream : List EventRecord) : Prop :=
  ∀ group, group <:+: stream → 2 ≤ group.length → group.length ≤ config.batchMaxEvents →
    (group.map (encodedEventLen codec)).sum ≤ config.batchMaxBytes → ∀ n sentAtUs,
      (codec.encodeBatch (pbBatch n group sentAtUs)).length ≤ config.wire.maxDecompressedBytes

def Encodable (codec : Codec) (config : BatchConfig) (s : Intake) : IntakeAction → Prop
  | .batch (.encode sentAtUs _) =>
    let payload :=
      codec.encodeBatch (pbBatch (nextBatchSequence s.batchSequence) s.group sentAtUs)
    s.batches.length + 1 < 2 ^ 64 ∧
      (s.group.length = 1 ∨ payload.length ≤ config.wire.maxDecompressedBytes) ∧
      (config.wire.zstdThreshold ≤ payload.length → (codec.compress payload).isSome)
  | _ => True

def Closed (codec : Codec) (config : BatchConfig) (n : ℕ)
    (entry : List EventRecord × Except WireError WireFrame) : Prop :=
  entry.1 ≠ [] ∧ entry.1.length ≤ max config.batchMaxEvents 1 ∧
    ∃ sentAtUs, entry.2 = encodeFrame codec n entry.1 config.wire sentAtUs ∧
      ∀ error, entry.2 = .error error → ∃ event, entry.1 = [event] ∧
        config.wire.maxDecompressedBytes <
          (codec.encodeBatch (pbBatch n [event] sentAtUs)).length

lemma encodeFrame_error {codec : Codec} {n : ℕ} {events : List EventRecord} {config : WireConfig}
    {sentAtUs : ℕ} {error : WireError}
    (h : encodeFrame codec n events config sentAtUs = .error error) (hne : events ≠ []) :
    config.maxDecompressedBytes < (codec.encodeBatch (pbBatch n events sentAtUs)).length ∨
      (config.zstdThreshold ≤ (codec.encodeBatch (pbBatch n events sentAtUs)).length ∧
        codec.compress (codec.encodeBatch (pbBatch n events sentAtUs)) = none) := by
  cases events with
  | nil => exact absurd rfl hne
  | cons first rest =>
    unfold encodeFrame encodeBody at h
    rw [List.head?_cons, List.getLast?_cons] at h
    dsimp only at h
    split_ifs at h with hlarge hthreshold
    · exact Or.inl hlarge
    · refine Or.inr ⟨hthreshold, ?_⟩
      split at h
      · cases h
      omega
    · cases h

structure Limited (codec : Codec) (config : BatchConfig) (batch : List EventRecord) : Prop where
  ne_nil : batch ≠ []
  length_le : batch.length ≤ max config.batchMaxEvents 1
  bytes_le : batch.length = 1 ∨
    (batch.map (encodedEventLen codec)).sum ≤ config.batchMaxBytes

def OpenGroup (codec : Codec) (config : BatchConfig) : BatchPhase → Prop
  | .collecting batch estimatedBytes =>
    Limited codec config batch ∧ estimatedBytes = (batch.map (encodedEventLen codec)).sum
  | .ready batch => Limited codec config batch
  | _ => True

structure StoppedAt (s : Intake) : Prop where
  phase : s.phase = .stopped
  closed : s.rx.closed = true
  pending : s.pending = none
  dropped : ∃ dropped, s.arrived = s.inOrder ++ dropped

structure Streamed (codec : Codec) (config : BatchConfig) (s : Intake) : Prop where
  carries : s.CarriesNone
  opened : OpenGroup codec config s.phase
  stream : s.phase ≠ .stopped ∧ s.arrived = s.inOrder ++ s.rx.items ∨ StoppedAt s

structure Grouped (codec : Codec) (config : BatchConfig) (s : Intake) : Prop
    extends Streamed codec config s where
  numbered : s.batchSequence = s.batches.length
  entries : ∀ i entry, s.batches[i]? = some entry → Closed codec config (i + 1) entry

variable {codec : Codec} {config : BatchConfig} {s s' : Intake} {a : IntakeAction}

lemma streamed_start (capacity : ℕ) (frames : FrameHub) :
    Streamed codec config (Intake.start capacity frames) where
  carries := Batcher.new_carriesNone
  opened := trivial
  stream := Or.inl ⟨by simp [Intake.start, Batcher.new], rfl⟩

lemma BatchLoop.Step.opened {shutdown : Bool} {b b' : BatchLoop} {a : BatchAction}
    (h : BatchLoop.Step codec config shutdown b a b') (hb : OpenGroup codec config b.phase) :
    OpenGroup codec config b'.phase := by
  cases h with
  | carry event | recv event =>
    exact ⟨⟨List.cons_ne_nil _ _, le_max_right _ _, Or.inl rfl⟩, by simp⟩
  | close batch estimatedBytes hphase =>
    rw [hphase] at hb
    exact hb.1
  | carryOver batch estimatedBytes next rx hphase =>
    rw [hphase] at hb
    exact hb.1
  | append batch estimatedBytes next rx hphase hlen hrecv hbytes =>
    rw [hphase] at hb
    obtain ⟨hlimited, rfl⟩ := hb
    have hbytes := hbytes.resolve_right hlimited.ne_nil
    refine ⟨⟨by simp, ?_, Or.inr ?_⟩, ?_⟩
    · rw [List.length_append]
      exact hlen
    · simpa using hbytes
    · simp
  | _ => trivial

lemma BatchLoop.Step.stopped {shutdown : Bool} {b b' : BatchLoop} {a : BatchAction}
    (h : BatchLoop.Step codec config shutdown b a b') :
    b.phase ≠ .stopped ∧
      (a ≠ .stop ∧ b'.phase ≠ .stopped ∨ a = .stop ∧ b'.phase = .stopped ∧ b'.pending = none ∧
        b'.rx.closed = true) := by
  cases h with
  | carry _ hphase | recv _ _ hphase | close _ _ hphase | carryOver _ _ _ _ hphase
  | append _ _ _ _ hphase | publish _ _ _ _ hphase | encodeFailed _ _ _ _ hphase
  | notify _ hphase => simp_all
  | stop hphase _ hpending => exact ⟨by simp [hphase], Or.inr ⟨rfl, rfl, hpending, rfl⟩⟩

lemma Streamed.step (h : Streamed codec config s) (hstep : s.step codec config a = some s') :
    Streamed codec config s' := by
  cases Intake.step_sound hstep with
  | arrive record hroom =>
    refine ⟨h.carries, h.opened, ?_⟩
    rcases h.stream with ⟨hphase, harrived⟩ | hstopped
    · simp_all
    · -- the receiver of a stopped loop is gone
      exact absurd hroom.1 (by rw [hstopped.closed]; decide)
  | shutdown => exact ⟨h.carries, h.opened, h.stream.imp id fun hs => ⟨hs.1, hs.2, hs.3, hs.4⟩⟩
  | batch b loop hloop =>
    obtain ⟨hrunning, hafter⟩ := hloop.stopped
    refine ⟨hloop.carriesNone h.carries, hloop.opened h.opened, ?_⟩
    obtain ⟨-, harrived⟩ := h.stream.resolve_right fun hs => hrunning hs.phase
    rcases hafter with ⟨hstop, hphase⟩ | ⟨rfl, hphase, hpending, hclosed⟩
    · obtain ⟨hsame, -⟩ := (hloop.inOrder_append_items h.carries).resolve_right
        fun hright => hstop hright.1
      simp_all
    · refine Or.inr ⟨hphase, hclosed, hpending, ?_⟩
      rw [harrived]
      rcases hloop.inOrder_append_items h.carries with ⟨hsame, -⟩ | ⟨-, hsame, -⟩
      · grind
      simp_all

/-! ## Numbers and refusals -/

lemma grouped_start (capacity : ℕ) (frames : FrameHub) :
    Grouped codec config (Intake.start capacity frames) where
  toStreamed := streamed_start capacity frames
  numbered := rfl
  entries := fun i entry hentry => by cases hentry

lemma nextBatchSequence_of_lt {n : ℕ} (h : n + 1 < 2 ^ 64) : nextBatchSequence n = n + 1 := by
  unfold nextBatchSequence
  omega

lemma closed_concat {batches : List (List EventRecord × Except WireError WireFrame)}
    {entry : List EventRecord × Except WireError WireFrame}
    (h : ∀ i e, batches[i]? = some e → Closed codec config (i + 1) e)
    (hentry : Closed codec config (batches.length + 1) entry) :
    ∀ i e, (batches ++ [entry])[i]? = some e → Closed codec config (i + 1) e := by
  grind

lemma Grouped.closes (h : Grouped codec config s) {batch : List EventRecord} {sentAtUs nowUs : ℕ}
    (hphase : s.phase = .ready batch)
    (hok : Encodable codec config s (.batch (.encode sentAtUs nowUs))) :
    nextBatchSequence s.batchSequence = s.batches.length + 1 ∧
      Closed codec config (s.batches.length + 1)
        (batch, encodeFrame codec (s.batches.length + 1) batch config.wire sentAtUs) := by
  have hgroup : s.group = batch := by simp [Batcher.group, hphase]
  have hopened := h.opened
  rw [hphase] at hopened
  obtain ⟨hwrap, hfits, hzstd⟩ := hok
  have hnext : nextBatchSequence s.batchSequence = s.batches.length + 1 := by
    rw [h.numbered]
    exact nextBatchSequence_of_lt hwrap
  rw [hnext, hgroup] at hfits hzstd
  refine ⟨hnext, hopened.ne_nil, hopened.length_le, sentAtUs, rfl, fun error herror => ?_⟩
  rcases encodeFrame_error herror hopened.ne_nil with hlarge | ⟨hthreshold, hnone⟩
  · obtain ⟨event, rfl⟩ := List.length_eq_one_iff.mp (hfits.resolve_right (not_le.mpr hlarge))
    simp_all
  simp_all

lemma Grouped.step (h : Grouped codec config s) (hok : Encodable codec config s a)
    (hstep : s.step codec config a = some s') : Grouped codec config s' := by
  have hstream := h.toStreamed.step hstep
  cases Intake.step_sound hstep with
  | arrive record hroom => exact ⟨hstream, h.numbered, h.entries⟩
  | shutdown => exact ⟨hstream, h.numbered, h.entries⟩
  | batch b loop hloop =>
    cases hloop with
    | publish batch sentAtUs nowUs frame hphase hframe
    | encodeFailed batch sentAtUs nowUs error hphase hframe =>
      obtain ⟨hnext, hclosed⟩ := h.closes hphase hok
      rw [hnext] at hframe
      refine ⟨hstream, ?_, closed_concat h.entries (hframe ▸ hclosed)⟩
      simpa using hnext
    | _ => exact ⟨hstream, h.numbered, h.entries⟩

/-! ## Along a run -/

lemma Streamed.group_infix (h : Streamed codec config s) {batch : List EventRecord}
    (hphase : s.phase = .ready batch) : batch <:+: s.arrived := by
  have hrunning : ¬StoppedAt s := fun hs => by
    rw [hs.phase] at hphase
    cases hphase
  rw [(h.stream.resolve_right hrunning).2]
  refine ⟨s.batches.flatMap Prod.fst, s.pending.toList ++ s.rx.items, ?_⟩
  simp [Batcher.inOrder, Batcher.group, hphase]

lemma Grouped.encodable (h : Grouped codec config s) (hfit : GroupsFit codec config s.arrived)
    (hzstd : ∀ payload, config.wire.zstdThreshold ≤ payload.length →
      (codec.compress payload).isSome)
    (hwrap : s.batches.length + encodes [a] < 2 ^ 64 - 1)
    (hstep : s.step codec config a = some s') : Encodable codec config s a := by
  unfold Encodable
  split
  · next sentAtUs nowUs =>
    have hcount : encodes [.batch (.encode sentAtUs nowUs)] = 1 := rfl
    refine ⟨by omega, ?_, hzstd _⟩
    have hready : ∃ batch, s.phase = .ready batch := by
      cases Intake.step_sound hstep with
      | batch _ loop hloop =>
        cases hloop with
        | publish batch _ _ _ hphase | encodeFailed batch _ _ _ hphase => exact ⟨batch, hphase⟩
    obtain ⟨batch, hphase⟩ := hready
    have hgroup : s.group = batch := by simp [Batcher.group, hphase]
    have hopened := h.opened
    rw [hphase] at hopened
    rw [hgroup]
    by_cases hone : batch.length = 1
    · exact Or.inl hone
    · have hpos := List.length_pos_iff.mpr hopened.ne_nil
      have hle := hopened.length_le
      exact Or.inr (hfit batch (h.group_infix hphase) (by omega) (by omega)
        (hopened.bytes_le.resolve_left hone) _ _)
  · trivial

lemma GroupsFit.mono {stream stream' : List EventRecord} (h : GroupsFit codec config stream)
    (hle : stream' <:+: stream) : GroupsFit codec config stream' :=
  fun group hgroup => h group (hgroup.trans hle)

lemma Intake.step_sent (hstep : s.step codec config a = some s') :
    s'.arrived = s.arrived ++ sent [a] ∧ s'.batches.length = s.batches.length + encodes [a] := by
  cases Intake.step_sound hstep with
  | arrive record hroom => exact ⟨rfl, rfl⟩
  | shutdown => exact ⟨(List.append_nil _).symm, rfl⟩
  | batch b loop hloop =>
    refine ⟨(List.append_nil _).symm, ?_⟩
    cases hloop <;> first | rfl | exact List.length_append

lemma Grouped.run {as : List IntakeAction} (h : Grouped codec config s)
    (hfit : GroupsFit codec config (s.arrived ++ sent as))
    (hzstd : ∀ payload, config.wire.zstdThreshold ≤ payload.length →
      (codec.compress payload).isSome)
    (hwrap : s.batches.length + encodes as < 2 ^ 64 - 1)
    (hrun : run (Intake.step codec config) s as = some s') : Grouped codec config s' := by
  induction as generalizing s with
  | nil =>
    cases hrun
    exact h
  | cons a as ih =>
    obtain ⟨s₁, hstep, hrest⟩ := Option.bind_eq_some_iff.mp hrun
    obtain ⟨harrived, hbatches⟩ := Intake.step_sent hstep
    have hcons : encodes (a :: as) = encodes [a] + encodes as := by
      rw [encodes, ← List.singleton_append, List.countP_append]
      rfl
    have hsent : sent (a :: as) = sent [a] ++ sent as := by
      rw [sent, ← List.singleton_append, List.filterMap_append]
      rfl
    refine ih (h.step (h.encodable ?_ hzstd (by omega) hstep) hstep) ?_ (by omega) hrest
    · exact hfit.mono (List.prefix_append _ _).isInfix
    · rwa [harrived, List.append_assoc, ← hsent]

/-! ## The loop runs on -/

def BatchLoop.work (b : BatchLoop) : ℕ :=
  4 * b.rx.items.length + 4 * b.pending.toList.length +
    match b.phase with
    | .collecting _ _ => 3
    | .ready _ => 2
    | .notifying _ => 1
    | _ => 0

lemma BatchLoop.Step.work_lt {shutdown : Bool} {b b' : BatchLoop} {a : BatchAction}
    (h : BatchLoop.Step codec config shutdown b a b') (hb : b.CarriesNone) (ha : a ≠ .stop) :
    b'.work < b.work := by
  cases h with
  | carry event hphase hpending =>
    simp only [BatchLoop.work, hphase, hpending, Option.toList_some, Option.toList_none,
      List.length_cons, List.length_nil]
    omega
  | recv event rx hphase hpending hrecv | append batch estimatedBytes next rx hphase hlen hrecv =>
    simp only [BatchLoop.work, hphase, (Channel.recv_eq_some hrecv).1, List.length_cons]
    omega
  | close batch estimatedBytes hphase =>
    simp only [BatchLoop.work, hphase]
    omega
  | carryOver batch estimatedBytes next rx hphase hlen hrecv =>
    simp only [BatchLoop.work, hphase, hb _ _ hphase, (Channel.recv_eq_some hrecv).1,
      Option.toList_some, Option.toList_none, List.length_cons, List.length_nil]
    omega
  | publish batch sentAtUs nowUs frame hphase | encodeFailed batch sentAtUs nowUs error hphase
  | notify latest hphase =>
    simp only [BatchLoop.work, hphase]
    omega
  | stop => exact absurd rfl ha

def Intake.Idle (s : Intake) : Prop := s.phase = .waiting ∧ s.pending = none ∧ s.rx.items = []

lemma Intake.exists_step (codec : Codec) (config : BatchConfig) (hrunning : s.phase ≠ .stopped)
    (hidle : ¬ s.Idle) :
    ∃ b s', b ≠ .stop ∧ s.step codec config (.batch b) = some s' := by
  have hlift : ∀ b : BatchAction, b ≠ .stop →
      (s.toBatchLoop.step codec config s.shutdown b).isSome →
        ∃ b s', b ≠ .stop ∧ s.step codec config (.batch b) = some s' := by
    intro b hb hstep
    obtain ⟨loop, hloop⟩ := Option.isSome_iff_exists.mp hstep
    exact ⟨b, { s with toBatchLoop := loop }, hb, by simp only [Intake.step, hloop]; rfl⟩
  cases hphase : s.phase with
  | waiting =>
    refine hlift .first (by simp) ?_
    cases hpending : s.pending with
    | some event => simp [BatchLoop.step, hphase, hpending]
    | none =>
      cases hitems : s.rx.items with
      | nil => exact absurd ⟨hphase, hpending, hitems⟩ hidle
      | cons event rest => simp [BatchLoop.step, hphase, hpending, Channel.recv, hitems]
  | collecting batch estimatedBytes =>
    refine hlift .collect (by simp) ?_
    simp only [BatchLoop.step, hphase]
    grind
  | ready batch =>
    refine hlift (.encode 0 0) (by simp) ?_
    simp only [BatchLoop.step, hphase]
    split <;> rfl
  | notifying latest =>
    refine hlift .notify (by simp) ?_
    simp [BatchLoop.step, hphase]
  | stopped => simp_all

lemma Intake.drains (h : Streamed codec config s) (hrunning : s.phase ≠ .stopped) :
    Reaches (Intake.step codec config) (fun a => ∃ b, a = .batch b)
      (fun s' => s'.arrived = s.arrived ∧ s'.batches.flatMap Prod.fst = s.arrived) s := by
  have hidle : Reaches (Intake.step codec config) (fun a => ∃ b, a = .batch b)
      (fun s' => (Streamed codec config s' ∧ s'.phase ≠ .stopped ∧ s'.arrived = s.arrived) ∧ s'.Idle)
      s := by
    refine Reaches.of_rank
      (I := fun s' => Streamed codec config s' ∧ s'.phase ≠ .stopped ∧ s'.arrived = s.arrived)
      (fun s' => s'.toBatchLoop.work) ?_ ⟨h, hrunning, rfl⟩
    rintro t ⟨ht, hphase, harrived⟩
    by_cases hidle : t.Idle
    · exact Reaches.here (Or.inl ⟨⟨ht, hphase, harrived⟩, hidle⟩)
    · obtain ⟨b, t', hb, hstep⟩ := Intake.exists_step codec config hphase hidle
      refine Reaches.next ⟨b, rfl⟩ hstep (Reaches.here (Or.inr ?_))
      have ht' := ht.step hstep
      cases Intake.step_sound hstep with
      | batch _ loop hloop =>
        refine ⟨⟨ht', ?_, harrived⟩, hloop.work_lt ht.carries hb⟩
        rcases hloop.stopped.2 with ⟨-, hrun⟩ | ⟨hstop, -⟩
        · exact hrun
        · exact absurd hstop hb
  refine hidle.mono ?_
  rintro t ⟨⟨ht, hphase, harrived⟩, hwaiting, hpending, hitems⟩
  obtain ⟨-, hstream⟩ := ht.stream.resolve_right fun hs => hphase hs.phase
  rw [← harrived, hstream]
  simp [Batcher.inOrder, Batcher.group, hwaiting, hpending, hitems]

/-! ## Every event -/

lemma mem_framesOf {batches : List (List EventRecord × Except WireError WireFrame)}
    {batch : List EventRecord} {frame : WireFrame} (h : (batch, .ok frame) ∈ batches) :
    (batch, frame) ∈ framesOf batches := by
  induction batches with
  | nil => cases h
  | cons entry rest ih =>
    rcases List.mem_cons.mp h with heq | hrest
    · rw [← heq]
      exact List.mem_cons_self
    · obtain ⟨group, result⟩ := entry
      cases result with
      | ok other => exact List.mem_cons_of_mem _ (ih hrest)
      | error error => exact ih hrest

lemma encodeFrame_batchSequence {n : ℕ} {events : List EventRecord} {config : WireConfig}
    {sentAtUs : ℕ} {frame : WireFrame}
    (h : encodeFrame codec n events config sentAtUs = .ok frame) : frame.batchSequence = n := by
  unfold encodeFrame at h
  split at h
  · cases hbody : encodeBody codec config (codec.encodeBatch (pbBatch n events sentAtUs)) with
    | error e =>
      simp only [hbody] at h
      cases h
    | ok body =>
      simp only [hbody] at h
      cases h
      rfl
  · cases h

def groupedRun : List IntakeAction :=
  [.arrive (testRecord 1 1), .batch .first, .arrive (testRecord 2 2), .batch .collect,
    .batch .collect, .batch (.encode 0 0)]

lemma length_varint_le (n : ℕ) : (varint n).length ≤ 10 := by
  have hdigits : ∀ d n, (varintDigits d n).length ≤ d := by
    intro d
    induction d with
    | zero => simp [varintDigits]
    | succ d ih =>
      intro n
      rw [varintDigits]
      split_ifs
      · simp
      · exact Nat.succ_le_succ (ih _)
  exact hdigits 10 n

lemma length_encodeUmaBatch_le (b : PbUmaBatch) : (encodeUmaBatch b).length ≤
    33 + ((b.events.map fun e => (encodeUmaEvent e).length).sum + 11 * b.events.length) := by
  have hfield : ∀ number ≤ 15, ∀ value, (varintField number value).length ≤ 11 := by
    intro number hnumber value
    have htag : (varint (number * 8)).length = 1 := by
      rw [varint, varintDigits, if_pos (by omega)]
      rfl
    have hvalue := length_varint_le value
    unfold varintField
    split_ifs
    · simp
    · rw [List.length_append]
      omega
  have hevents : ∀ values : List (List UInt8), (repeatedBytesField 4 values).length ≤
      (values.map List.length).sum + 11 * values.length := by
    intro values
    induction values with
    | nil => simp [repeatedBytesField]
    | cons value values ih =>
      have hvalue := length_varint_le value.length
      have htag : (varint (4 * 8 + 2)).length = 1 := rfl
      simp only [repeatedBytesField, List.flatMap_cons, delimited, List.length_append,
        List.map_cons, List.sum_cons, List.length_cons] at ih ⊢
      omega
  have hbatch := hevents (b.events.map encodeUmaEvent)
  have hversion := hfield 1 (by omega) b.schemaVersion
  have hsequence := hfield 2 (by omega) b.batchSequence
  have hsent := hfield 3 (by omega) b.sentAtUs
  rw [List.map_map, List.length_map] at hbatch
  simp only [encodeUmaBatch, List.length_append]
  exact (Nat.add_le_add (Nat.add_le_add (Nat.add_le_add hversion hsequence) hsent) hbatch).trans
    le_rfl

lemma groupsFit_of_le (hevent : codec.encodeEvent = encodeUmaEvent)
    (hbatch : codec.encodeBatch = encodeUmaBatch) (hroom : config.batchMaxBytes +
      11 * config.batchMaxEvents + 33 ≤ config.wire.maxDecompressedBytes)
    (stream : List EventRecord) : GroupsFit codec config stream := by
  intro group _ _ hlength hbytes n sentAtUs
  have hlimit := length_encodeUmaBatch_le (pbBatch n group sentAtUs)
  have hsum : ((pbBatch n group sentAtUs).events.map fun e => (encodeUmaEvent e).length) =
      group.map (encodedEventLen codec) := by
    rw [pbBatch, List.map_map]
    refine List.map_congr_left fun e _ => ?_
    rw [encodedEventLen, hevent]
    rfl
  rw [hsum, show (pbBatch n group sentAtUs).events.length = group.length from List.length_map _]
    at hlimit
  rw [hbatch]
  omega

end RustUma.Pipeline
