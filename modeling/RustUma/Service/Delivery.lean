import RustUma.Service.Machine
import RustUma.Service.Order

/-!
# From the batcher to a connected subscriber

A session asks the ring for the frames above its cursor, and a frame is filed under the sequence of
its *last* event. A frame that reaches the ring after a frame with a higher last sequence can
therefore stay below the cursor for ever.
-/

namespace RustUma.Service

open RustUma.Found RustUma.Model RustUma.Hub RustUma.Pipeline RustUma.Api RustUma.Storage

def NoEviction (s : Server) : ServerAction → Prop
  | .batch (.encode _ _) => s.frames.frames.length < s.frames.capacity
  | _ => True

def PublishesInOrder (s : Server) : ServerAction → Prop
  | .batch (.encode _ _) =>
    ∀ last ∈ s.batcher.group.getLast?, s.session.after < last.sequence ∧
      ∀ p ∈ s.batcher.published, p.2.lastSequence < last.sequence
  | _ => True

instance (s : Server) (a : ServerAction) : Decidable (NoEviction s a) := by
  delta NoEviction
  split <;> infer_instance

instance (s : Server) (a : ServerAction) : Decidable (PublishesInOrder s a) := by
  delta PublishesInOrder
  split <;> infer_instance

def Server.published (s : Server) : List WireFrame := s.batcher.published.map Prod.snd

structure Delivery (s : Server) : Prop where
  ring : s.frames.frames = s.published
  order : s.published.Pairwise fun f g => f.lastSequence < g.lastSequence
  since_le : s.session.since ≤ s.session.read
  read_le : s.session.read ≤ s.published.length
  above : ∀ f ∈ s.published.drop s.session.read, s.session.after < f.lastSequence
  snapshot : ∀ rest, s.session.phase = .sending rest → ∀ f ∈ rest,
    f ∈ s.published.take s.session.read
  delivered : s.session.phase ≠ .closed →
    ∀ f ∈ (s.published.take s.session.read).drop s.session.since,
      f ∈ s.session.delivered ∨ ∃ rest, s.session.phase = .sending rest ∧ f ∈ rest

namespace Delivery

variable {s s' : Server}

lemma of_eq (h : Delivery s) (hframes : s'.frames.frames = s.frames.frames)
    (hpublished : s'.published = s.published) (hsession : s'.session = s.session) :
    Delivery s' := by
  constructor
  · rw [hframes, hpublished]
    exact h.ring
  · rw [hpublished]
    exact h.order
  · rw [hsession]
    exact h.since_le
  · rw [hsession, hpublished]
    exact h.read_le
  · rw [hsession, hpublished]
    exact h.above
  · rw [hsession, hpublished]
    exact h.snapshot
  · rw [hsession, hpublished]
    exact h.delivered

lemma publish (h : Delivery s) {frame : WireFrame}
    (hroom : s.frames.frames.length < s.frames.capacity)
    (hcursor : s.session.after < frame.lastSequence)
    (hlast : ∀ f ∈ s.published, f.lastSequence < frame.lastSequence)
    (hframes : s'.frames = s.frames.push frame)
    (hpublished : s'.published = s.published ++ [frame]) (hsession : s'.session = s.session) :
    Delivery s' := by
  have htake : s'.published.take s.session.read = s.published.take s.session.read := by
    rw [hpublished, List.take_append_of_le_length h.read_le]
  constructor
  · rw [hframes, hpublished, FrameHub.push_frames, h.ring]
    refine rtake_of_length_le ?_
    rw [← h.ring, List.length_append]
    exact hroom
  · rw [hpublished, List.pairwise_append]
    refine ⟨h.order, List.pairwise_singleton _ _, ?_⟩
    simp_all
  · rw [hsession]
    exact h.since_le
  · rw [hsession, hpublished, List.length_append]
    exact Nat.le_add_right_of_le h.read_le
  · intro f hf
    rw [hsession] at hf ⊢
    rw [hpublished, List.drop_append_of_le_length h.read_le, List.mem_append] at hf
    rcases hf with hf | hf
    · exact h.above f hf
    simp_all
  · rw [hsession, htake]
    exact h.snapshot
  · rw [hsession, htake]
    exact h.delivered

lemma drop_since (h : Delivery s) :
    s.published.drop s.session.since =
      (s.published.take s.session.read).drop s.session.since ++
        s.published.drop s.session.read := by
  conv_lhs => rw [← List.take_append_drop s.session.read s.published]
  refine List.drop_append_of_le_length ?_
  rw [List.length_take, min_eq_left h.read_le]
  exact h.since_le

lemma read (h : Delivery s) (hphase : s.session.phase = .reading) {frames : List WireFrame}
    (hafter : s.frames.after s.session.after = .ok frames) :
    Delivery { s with session := { s.session with
      phase := .sending frames, read := s.batcher.published.length } } := by
  have hlen : s.batcher.published.length = s.published.length := by simp [Server.published]
  have hframes : frames = s.published.filter fun f => s.session.after < f.lastSequence := by
    unfold FrameHub.after at hafter
    split_ifs at hafter
    rw [← h.ring]
    simp_all
  have hopen : s.session.phase ≠ .closed := by
    rw [hphase]
    simp
  have hall : s.published.take s.batcher.published.length = s.published :=
    List.take_of_length_le (le_of_eq hlen.symm)
  refine ⟨h.ring, h.order, ?_, le_of_eq hlen, ?_, ?_, ?_⟩
  · exact le_trans h.since_le (le_of_le_of_eq h.read_le hlen.symm)
  · intro f hf
    exact absurd (List.drop_of_length_le (le_of_eq hlen.symm) ▸ hf) List.not_mem_nil
  · rintro rest hrest f hf
    cases hrest
    show f ∈ s.published.take s.batcher.published.length
    simp_all
  · intro _ f hf
    change f ∈ (s.published.take s.batcher.published.length).drop s.session.since at hf
    rw [hall, h.drop_since, List.mem_append] at hf
    rcases hf with hf | hf
    · -- looked at before, and nothing of that pass is left to send
      rcases h.delivered hopen f hf with hdone | ⟨rest, hrest, -⟩
      · exact Or.inl hdone
      simp_all
    · refine Or.inr ⟨frames, rfl, ?_⟩
      rw [hframes, List.mem_filter]
      exact ⟨List.mem_of_mem_drop hf, decide_eq_true (h.above f hf)⟩

lemma send (h : Delivery s) {frame : WireFrame} {rest : List WireFrame}
    (hphase : s.session.phase = .sending (frame :: rest)) :
    Delivery { s with session := s.session.sent frame rest } := by
  have hopen : s.session.phase ≠ .closed := by
    rw [hphase]
    simp
  have hsnap := h.snapshot _ hphase
  refine ⟨h.ring, h.order, h.since_le, h.read_le, ?_, ?_, ?_⟩
  · intro f hf
    have horder := h.order
    rw [← List.take_append_drop s.session.read s.published, List.pairwise_append] at horder
    have hlt := horder.2.2 frame (hsnap frame List.mem_cons_self) f hf
    exact max_lt (h.above f hf) hlt
  · rintro rest' hrest f hf
    cases hrest
    exact hsnap f (List.mem_cons_of_mem _ hf)
  · intro _ f hf
    rcases h.delivered hopen f hf with hdone | ⟨rest', hrest, hmem⟩
    · exact Or.inl (List.mem_append_left _ hdone)
    · rw [hphase] at hrest
      cases hrest
      rcases List.mem_cons.mp hmem with rfl | hmem
      · exact Or.inl (List.mem_append_right _ (List.mem_singleton_self _))
      · exact Or.inr ⟨rest, rfl, hmem⟩

lemma close (h : Delivery s) (rejected dropped : ℕ) :
    Delivery { s with session := { s.session with
      phase := .closed, wsCursorRejected := rejected, slowClientsDropped := dropped } } where
  ring := h.ring
  order := h.order
  since_le := h.since_le
  read_le := h.read_le
  above := h.above
  snapshot rest hrest := by cases hrest
  delivered hopen := absurd rfl hopen

lemma moveOn (h : Delivery s) {phase : SessionPhase} (hopen : s.session.phase ≠ .closed)
    (hsent : ∀ rest, s.session.phase = .sending rest → rest = [])
    (hphase : ∀ rest, phase ≠ .sending rest) :
    Delivery { s with session := { s.session with phase := phase } } := by
  refine ⟨h.ring, h.order, h.since_le, h.read_le, h.above,
    fun rest hrest => absurd hrest (hphase rest), fun _ f hf => ?_⟩
  rcases h.delivered hopen f hf with hdone | ⟨rest, hrest, hmem⟩
  · exact Or.inl hdone
  simp_all

lemma session (h : Delivery s) {a : SessionAction} {session : Session}
    (hstep : s.session.Step s.frames s.batcher.published.length a session) :
    Delivery { s with session := session } := by
  have hlen : s.batcher.published.length = s.published.length := by simp [Server.published]
  cases hstep with
  | connect requestedAfter hphase =>
    refine ⟨h.ring, h.order, le_rfl, le_of_eq hlen, ?_, ?_, ?_⟩
    · intro f hf
      exact absurd (List.drop_of_length_le (le_of_eq hlen.symm) ▸ hf) List.not_mem_nil
    · simp
    simp
  | read frames hphase hafter => exact h.read hphase hafter
  | lagged hphase hafter => exact h.close _ _
  | send frame rest hphase => exact h.send hphase
  | slow frame rest hphase => exact h.close _ _
  | gone frame rest hphase => exact h.close _ _
  | finish hphase =>
    refine h.moveOn (by rw [hphase]; simp) (fun rest hrest => ?_) fun rest hrest => by cases hrest
    simp_all
  | wake hphase =>
    refine h.moveOn (by rw [hphase]; simp) (fun rest hrest => ?_) fun rest hrest => by cases hrest
    simp_all
  | leave hphase => exact h.close _ _

theorem step {codec : Codec} {config : Config} {a : ServerAction} (h : Delivery s)
    (hok : NoEviction s a ∧ PublishesInOrder s a) (hstep : s.step codec config a = some s') :
    Delivery s' := by
  cases Server.step_sound hstep with
  | process b p hproc => exact h.of_eq rfl rfl rfl
  | batch b loop hbatch =>
    rcases hbatch.published with ⟨hpub, hframes, -⟩ |
      ⟨batch, sentAtUs, nowUs, frame, rfl, hgroup, hframe, hpub, hframes⟩
    · refine h.of_eq hframes ?_ rfl
      show loop.published.map Prod.snd = s.batcher.published.map Prod.snd
      rw [hpub]
      rfl
    · obtain ⟨-, -, last, hlast, -, hseq⟩ := encodeFrame_ok hframe
      rw [← hgroup] at hlast
      obtain ⟨hcursor, hbelow⟩ := hok.2 last hlast
      refine h.publish hok.1 (hseq ▸ hcursor) ?_ hframes ?_ rfl
      · intro f hf
        obtain ⟨p, hp, rfl⟩ := List.mem_map.mp hf
        grind
      · show loop.published.map Prod.snd = s.batcher.published.map Prod.snd ++ [frame]
        rw [hpub, List.map_append]
        rfl
  | session b session hsession => exact h.session hsession
  | write b w hwrite => exact h.of_eq rfl rfl rfl
  | shutdown => exact h.of_eq rfl rfl rfl

end Delivery

/-! ## The session can always catch up -/

variable {codec : Codec} {config : Config} {blockedBefore : Bytes 32 → ℕ → Bool}
  {wal : Option (List UInt8)} {cursorFile : Option ℕ} {as : List ServerAction} {s s' : Server}

structure Resumed (floor : ℕ) (s : Server) : Prop where
  replayFloor : s.frames.replayFloor = floor
  cursor : (∃ rest, s.session.phase = .sending rest) ∨ s.session.phase = .waiting →
    s.session.after = 0 ∨ floor ≤ s.session.after

lemma Resumed.step {floor : ℕ} {a : ServerAction} (h : Resumed floor s) (hd : Delivery s)
    (hfloor : ∀ f ∈ s.published, floor < f.lastSequence) (hok : NoEviction s a)
    (hstep : s.step codec config a = some s') : Resumed floor s' := by
  cases Server.step_sound hstep with
  | process b p hproc => exact ⟨h.replayFloor, h.cursor⟩
  | batch b loop hbatch =>
    refine ⟨?_, h.cursor⟩
    show loop.frames.replayFloor = floor
    rcases hbatch.published with ⟨-, -, hsame, -⟩ |
      ⟨batch, sentAtUs, nowUs, frame, rfl, -, -, -, hframes⟩
    · exact hsame.trans h.replayFloor
    · have hroom : s.frames.frames.length < s.frames.capacity := hok
      have hnone : (s.frames.frames ++ [frame]).rdrop s.frames.capacity = [] := by
        unfold List.rdrop
        rw [List.length_append, List.length_singleton, Nat.sub_eq_zero_of_le hroom,
          List.take_zero]
      rw [hframes, FrameHub.push_replayFloor]
      show ((s.frames.frames ++ [frame]).rdrop s.frames.capacity).foldl _ _ = floor
      rw [hnone]
      exact h.replayFloor
  | session b session hsession =>
    refine ⟨h.replayFloor, ?_⟩
    cases hsession with
    | read frames hphase hafter =>
      intro _
      unfold FrameHub.after at hafter
      split_ifs at hafter with hlag
      rw [h.replayFloor, not_and_or, not_lt, not_lt, Nat.le_zero] at hlag
      exact hlag
    | send frame rest hphase =>
      intro _
      have hmem := hd.snapshot _ hphase frame List.mem_cons_self
      have hlt := hfloor frame (List.mem_of_mem_take hmem)
      exact Or.inr (le_max_of_le_right hlt.le)
    | finish hphase => exact fun _ => h.cursor (Or.inl ⟨[], hphase⟩)
    | connect requestedAfter hphase =>
      simp
    | wake hphase => simp
    | lagged hphase hafter => simp
    | slow frame rest hphase => simp
    | gone frame rest hphase => simp
    | leave hphase => simp
  | write b w hwrite => exact ⟨h.replayFloor, h.cursor⟩
  | shutdown => exact ⟨h.replayFloor, h.cursor⟩

lemma delivery_run
    (hok : AllSteps (Server.step codec config) (fun s a => NoEviction s a ∧ PublishesInOrder s a)
      (Server.boot codec config blockedBefore wal cursorFile) as)
    (hrun : run (Server.step codec config)
      (Server.boot codec config blockedBefore wal cursorFile) as = some s) :
    Delivery s ∧
      Resumed (lastBroadcastSequence blockedBefore (recoverEvents codec config wal)) s := by
  -- reachability rides along, for what is known of published frames in every reachable state
  have hinv := run_invariant (I := fun s : Server =>
    (∃ as, run (Server.step codec config)
      (Server.boot codec config blockedBefore wal cursorFile) as = some s) ∧ Delivery s ∧
      Resumed (lastBroadcastSequence blockedBefore (recoverEvents codec config wal)) s)
    ?_ ?_ hok hrun
  · exact hinv.2
  · rintro s a s' ⟨⟨as, hreach⟩, hd, hr⟩ hcond hstep
    refine ⟨⟨as ++ [a], run_concat hreach hstep⟩, hd.step hcond hstep,
      hr.step hd ?_ hcond.1 hstep⟩
    intro f hf
    obtain ⟨p, hp, rfl⟩ := List.mem_map.mp hf
    exact lt_lastSequence_of_published hreach hp
  · refine ⟨⟨[], rfl⟩, ?_, rfl, ?_⟩
    · exact ⟨rfl, List.Pairwise.nil, le_rfl, le_rfl, fun f hf => absurd hf List.not_mem_nil,
        fun rest hrest => (by cases hrest), fun _ f hf => absurd hf List.not_mem_nil⟩
    · rintro (⟨rest, hrest⟩ | hrest) <;> cases hrest

lemma Resumed.catch_up {floor : ℕ} (codec : Codec) (config : Config) (h : Resumed floor s)
    (hwait : s.session.phase = .waiting) :
    Reaches (Server.step codec config) (fun b => ∃ c, b = ServerAction.session c)
      (fun s' => s'.session.phase = .waiting ∧ s'.session.read = s.batcher.published.length ∧
        s'.session.since = s.session.since ∧ s'.batcher = s.batcher) s := by
  have hafter : ∃ frames, s.frames.after s.session.after = .ok frames := by
    unfold FrameHub.after
    rw [if_neg]
    · exact ⟨_, rfl⟩
    · rintro ⟨hpos, hlt⟩
      rw [h.replayFloor] at hlt
      rcases h.cursor (Or.inr hwait) with hzero | hle
      · omega
      · omega
  obtain ⟨frames, hafter⟩ := hafter
  have hwake : s.session.step s.frames s.batcher.published.length .wake =
      some { s.session with phase := .reading } := by
    simp only [Session.step, hwait]
  have hpass : Reaches (Session.step s.frames s.batcher.published.length) Session.Proceeds
      (fun t => t.phase = .waiting ∧ t.read = s.batcher.published.length ∧
        t.since = s.session.since) s.session :=
    .next (a := .wake) trivial hwake
      (Session.pass_completes rfl hafter)
  -- the other parts of the server stand still
  have hserver : Reaches (Server.step codec config) (fun b => ∃ c, b = ServerAction.session c)
      (fun s' => ∃ t : Session, s' = { s with session := t } ∧ t.phase = .waiting ∧
        t.read = s.batcher.published.length ∧ t.since = s.session.since) s :=
    hpass.embed (fun session => { s with session := session }) ServerAction.session
      (fun t b t' _ hstep => by simp only [Server.step, hstep, Option.map_some])
      fun b _ => ⟨b, rfl⟩
  refine hserver.mono fun s' hs' => ?_
  grind

/-! ## Delivery -/

def Carries (codec : Codec) (config : Config) (frame : WireFrame) (r : EventRecord) : Prop :=
  ∃ n batch sentAtUs, encodeFrame codec n batch config.batch.wire sentAtUs = .ok frame ∧ r ∈ batch

theorem published_frame_delivered (codec : Codec) (config : Config)
    (blockedBefore : Bytes 32 → ℕ → Bool) (wal : Option (List UInt8)) (cursorFile : Option ℕ)
    (as : List ServerAction) (s : Server)
    (hok : AllSteps (Server.step codec config) (fun s a => NoEviction s a ∧ PublishesInOrder s a)
      (Server.boot codec config blockedBefore wal cursorFile) as)
    (hrun : run (Server.step codec config)
      (Server.boot codec config blockedBefore wal cursorFile) as = some s)
    (hwait : s.session.phase = .waiting) :
    (∀ batch frame,
      (batch, frame) ∈ (s.batcher.published.take s.session.read).drop s.session.since →
        ∀ r ∈ batch, r ∈ s.proc.sent ∧ frame ∈ s.session.delivered ∧
          Carries codec config frame r) ∧
    ∃ bs s', (∀ b ∈ bs, ∃ c, b = ServerAction.session c) ∧
      run (Server.step codec config) s bs = some s' ∧
      ∀ batch frame, (batch, frame) ∈ s.batcher.published.drop s.session.since →
        frame ∈ s'.session.delivered := by
  obtain ⟨hd, hr⟩ := delivery_run hok hrun
  -- what a waiting session has looked at it has delivered
  have hdone : ∀ {t : Server}, Delivery t → t.session.phase = .waiting → ∀ batch frame,
      (batch, frame) ∈ (t.batcher.published.take t.session.read).drop t.session.since →
        frame ∈ t.session.delivered := by
    intro t ht hphase batch frame hmem
    have hframe : frame ∈ (t.published.take t.session.read).drop t.session.since := by
      unfold Server.published
      rw [← List.map_take, ← List.map_drop]
      grind
    rcases ht.delivered (by rw [hphase]; simp) frame hframe with hin | ⟨rest, hrest, -⟩
    · exact hin
    simp_all
  refine ⟨?_, ?_⟩
  · intro batch frame hmem r hrec
    have hpub : (batch, frame) ∈ s.batcher.published :=
      List.mem_of_mem_take (List.mem_of_mem_drop hmem)
    obtain ⟨n, sentAtUs, hframe⟩ := publishedEncoded_run hrun batch frame hpub
    exact ⟨(fifo_run hrun).mem_sent hpub hrec, hdone hd hwait batch frame hmem,
      n, batch, sentAtUs, hframe, hrec⟩
  · obtain ⟨bs, s', hbs, hrun', hwait', hread, hsince, hbatcher⟩ :=
      hr.catch_up codec config hwait
    refine ⟨bs, s', hbs, hrun', ?_⟩
    have hd' : Delivery s' := by
      refine run_invariant ?_ hd
        (allSteps_of_forall hbs s) hrun'
      rintro t _ t' ht ⟨c, rfl⟩ hstep
      exact ht.step (a := .session c) ⟨trivial, trivial⟩ hstep
    grind

def sessionPass (n : ℕ) : List ServerAction :=
  .session .read :: List.replicate n (.session (.send .ok)) ++ [.session .finish]

/-- One call after another: both events reach the subscriber. -/
theorem published_frame_delivered_in_turn :
    let codec := prostCodec []
    let config := testConfig 4
    let as := .session (.connect none) :: sessionPass 0 ++
      callUpToSend 0 (testUmaEvent 1 1) ++ [.process (.send 0)] ++ publishQueued ++
      callUpToSend 1 (testUmaEvent 2 1) ++ [.process (.send 1)] ++ publishQueued ++
      [.session .wake] ++ sessionPass 2
    ∃ s, run (Server.step codec config)
        (Server.boot codec config (fun _ _ => false) none none) as = some s ∧
      s.batcher.published.length = 2 ∧
      ∀ batch frame, (batch, frame) ∈ s.batcher.published → frame ∈ s.session.delivered := by
  intro codec config as
  have hok : AllSteps (Server.step codec config)
      (fun s a => NoEviction s a ∧ PublishesInOrder s a)
      (Server.boot codec config (fun _ _ => false) none none) as := by
    decide +kernel
  have hsome : ((run (Server.step codec config)
      (Server.boot codec config (fun _ _ => false) none none) as).map
        fun s => (s.session.phase, s.session.since, s.session.read, s.batcher.published.length)) =
      some (.waiting, 0, 2, 2) := by
    decide +kernel
  obtain ⟨s, hrun, hvals⟩ := Option.map_eq_some_iff.mp hsome
  simp only [Prod.mk.injEq] at hvals
  obtain ⟨hwait, hsince, hread, hlen⟩ := hvals
  refine ⟨s, hrun, hlen, ?_⟩
  intro batch frame hmem
  have hmain := published_frame_delivered codec config _ none none as s hok hrun hwait
  obtain ⟨n, sentAtUs, hframe⟩ := publishedEncoded_run hrun batch frame hmem
  obtain ⟨first, hfirst, -⟩ := encodeFrame_ok hframe
  grind

theorem overtaken_frame_never_delivered :
    let codec := prostCodec []
    let config := testConfig 4
    let event := testUmaEvent 1 1
    let record := buildRecord 1 event (some testMarket)
    let as := .session (.connect none) :: sessionPass 0 ++
      [.process (.receive 0 (some event) 8 "wss[0]"), .process (.contains 0),
        .process (.resolve 0 (some testMarket)), .process (.fetchAdd 0)] ++
      callUpToSend 1 (testUmaEvent 2 1) ++ [.process (.send 1)] ++ publishQueued ++
      [.session .wake] ++ sessionPass 1 ++
      [.process (.insert 0), .process (.credit 0), .process (.store 0), .process (.lookup 0 none),
        .process (.send 0)] ++ publishQueued ++
      [.session .wake] ++ sessionPass 0
    ∃ s, run (Server.step codec config)
        (Server.boot codec config (fun _ _ => false) none none) as = some s ∧
      AllSteps (Server.step codec config) NoEviction
        (Server.boot codec config (fun _ _ => false) none none) as ∧
      s.session.phase = .waiting ∧ s.session.since = 0 ∧
      s.session.read = s.batcher.published.length ∧ record ∈ s.proc.accepted ∧
      (∃ frame, ([record], frame) ∈ s.batcher.published) ∧
      ∀ batch frame, (batch, frame) ∈ s.batcher.published → record ∈ batch →
        frame ∉ s.session.delivered := by
  intro codec config event record as
  have hok : AllSteps (Server.step codec config) NoEviction
      (Server.boot codec config (fun _ _ => false) none none) as := by
    decide +kernel
  have hsome : ((run (Server.step codec config)
      (Server.boot codec config (fun _ _ => false) none none) as).map
        fun s => (s.session.phase, s.session.since, s.session.read, s.batcher.published.length,
          decide (record ∈ s.proc.accepted))) = some (.waiting, 0, 2, 2, true) := by
    decide +kernel
  have hframes : ((run (Server.step codec config)
      (Server.boot codec config (fun _ _ => false) none none) as).map
        fun s => (s.batcher.published.map Prod.fst,
          s.batcher.published.map fun p => decide (p.2 ∈ s.session.delivered))) =
      some ([[buildRecord 2 (testUmaEvent 2 1) (some testMarket)], [record]], [true, false]) := by
    decide +kernel
  obtain ⟨s, hrun, hvals⟩ := Option.map_eq_some_iff.mp hsome
  rw [hrun] at hframes
  obtain ⟨hbatches, hdelivered⟩ := Prod.mk.inj (Option.some.inj hframes)
  simp only [Prod.mk.injEq, decide_eq_true_eq] at hvals
  obtain ⟨hwait, hsince, hread, hlen, hacc⟩ := hvals
  obtain ⟨⟨b₁, f₁⟩, ⟨b₂, f₂⟩, hpub⟩ : ∃ p q, s.batcher.published = [p, q] := by
    exact List.length_eq_two.mp hlen
  rw [hpub] at hbatches hdelivered
  simp only [List.map_cons, List.map_nil, List.cons.injEq, and_true, decide_eq_true_eq,
    decide_eq_false_iff_not] at hbatches hdelivered
  obtain ⟨rfl, rfl⟩ := hbatches
  refine ⟨s, hrun, hok, hwait, hsince, hread.trans hlen.symm, hacc, ⟨f₂, ?_⟩, ?_⟩
  · simp_all
  · intro batch frame hmem hrec
    rw [hpub] at hmem
    rcases List.mem_cons.mp hmem with heq | hmem
    · cases heq
      exact absurd hrec (by decide +kernel)
    simp_all

end RustUma.Service
