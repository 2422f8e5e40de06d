import RustUma.Found.Reach
import RustUma.Api.Session

/-!
# A session and the frames published meanwhile (`src/api.rs`, `src/hub.rs`)

The batcher publishes frames with increasing ranges; a session, at its own pace, reads the ring and
sends. `FrameHub::after` rejects a cursor that has missed something, except the cursor `0`, which is
also the cursor of a session that connects before anything was published.
-/

namespace RustUma.Api

open RustUma.Found RustUma.Model RustUma.Hub

/-! ## The system -/

structure Stream where
  hub : FrameHub
  todo : List WireFrame
  unnotified : Option ℕ
  published : List WireFrame
  session : Session
  deriving DecidableEq

inductive StreamAction where
  | push
  | notify
  | session (a : SessionAction)
  deriving DecidableEq

namespace Stream

def start (capacity floor : ℕ) (frames : List WireFrame) : Stream where
  hub := FrameHub.resumingAfter capacity floor
  todo := frames
  unnotified := none
  published := []
  session := Session.none

def step (s : Stream) : StreamAction → Option Stream
  | .push =>
    match s.unnotified, s.todo with
    | none, frame :: rest =>
      some { s with
        hub := s.hub.push frame
        todo := rest
        unnotified := some frame.lastSequence
        published := s.published ++ [frame] }
    | _, _ => none
  | .notify =>
    match s.unnotified with
    | some latest => some { s with hub := s.hub.notify latest, unnotified := none }
    | none => none
  | .session a =>
    (s.session.step s.hub s.published.length a).map fun session => { s with session := session }

inductive Step (s : Stream) : StreamAction → Stream → Prop where
  | push (frame : WireFrame) (rest : List WireFrame) (htodo : s.todo = frame :: rest) :
      Step s .push
        { s with
          hub := s.hub.push frame
          todo := rest
          unnotified := some frame.lastSequence
          published := s.published ++ [frame] }
  | notify (latest : ℕ) :
      Step s .notify { s with hub := s.hub.notify latest, unnotified := none }
  | session (a : SessionAction) (session : Session)
      (hstep : s.session.Step s.hub s.published.length a session) :
      Step s (.session a) { s with session := session }

theorem step_sound {s s' : Stream} {a : StreamAction} (h : s.step a = some s') : Step s a s' := by
  cases a with
  | push =>
    simp only [step] at h
    split at h
    · next frame rest hnotified htodo =>
      cases h
      exact .push frame rest htodo
    · cases h
  | notify =>
    simp only [step] at h
    split at h
    · next latest hlatest =>
      cases h
      exact .notify latest
    · cases h
  | session a =>
    obtain ⟨session, hstep, rfl⟩ := Option.map_eq_some_iff.mp h
    exact .session a session (Session.step_sound hstep)

end Stream

/-! ## What is sent is contiguous -/

structure Contiguous (capacity floor : ℕ) (s : Stream) : Prop where
  hub : s.hub =
    ((FrameHub.resumingAfter capacity floor).publishAll s.published).notify s.hub.latest
  increasing : IncreasingAbove floor (s.published ++ s.todo)
  since_le : s.session.since ≤ s.session.read
  read_le : s.session.read ≤ s.published.length
  stretch : s.session.delivered <:+: s.published
  seen : s.session.phase ≠ .closed →
    s.session.delivered ++ s.session.unsent <:+ s.published.take s.session.read
  cursor : s.session.phase ≠ .closed →
    ∀ f ∈ s.session.delivered.getLast?, s.session.after = f.lastSequence
  unsent : ∀ f ∈ s.session.unsent, s.session.after < f.lastSequence
  fresh : s.session.phase = .absent → s.session.delivered = []

namespace Contiguous

variable {capacity floor : ℕ} {s s' : Stream}

lemma hub_frames (h : Contiguous capacity floor s) :
    s.hub.frames = s.published.rtake (max capacity 1) := by
  rw [h.hub, FrameHub.notify_frames, FrameHub.publishAll_frames]

lemma hub_capacity (h : Contiguous capacity floor s) : s.hub.capacity = max capacity 1 := by
  rw [h.hub, FrameHub.notify_capacity, FrameHub.publishAll_capacity]
  rfl

lemma published_increasing (h : Contiguous capacity floor s) :
    IncreasingAbove floor s.published :=
  ⟨fun f hf => h.increasing.1 f (List.mem_append_left _ hf),
    (List.pairwise_append.mp h.increasing.2).1⟩

lemma lastSequence_pos (h : Contiguous capacity floor s) {f : WireFrame} (hf : f ∈ s.published) :
    0 < f.lastSequence := by
  have hrange := h.published_increasing.1 f hf
  omega

lemma after_of_pos (h : Contiguous capacity floor s) {c : ℕ} (hc : 0 < c)
    {frames : List WireFrame} (hafter : s.hub.after c = .ok frames) :
    frames = s.published.filter (fun f => c < f.lastSequence) ∧
      ∀ f ∈ s.published, c < f.lastSequence → f ∈ s.hub.frames := by
  have hsame : s.hub.after c =
      ((FrameHub.resumingAfter capacity floor).publishAll s.published).after c := by
    rw [h.hub]
    rfl
  have hmiss : ¬ MissedAbove floor s.published
      ((FrameHub.resumingAfter capacity floor).publishAll s.published).frames c := by
    rw [← FrameHub.after_publishAll_lagged_iff h.published_increasing hc, ← hsame, hafter]
    simp
  have hall := FrameHub.after_publishAll_of_not_missed h.published_increasing hmiss
  rw [← hsame, hafter] at hall
  refine ⟨Except.ok.inj hall, fun f hf hlt => ?_⟩
  by_contra hgone
  rw [h.hub] at hgone
  exact hmiss (Or.inr ⟨f, hf, hgone, hlt⟩)

lemma read_suffix (h : Contiguous capacity floor s) (hphase : s.session.phase = .reading)
    {frames : List WireFrame} (hafter : s.hub.after s.session.after = .ok frames) :
    s.session.delivered ++ frames <:+ s.published := by
  have hopen : s.session.phase ≠ .closed := by simp [hphase]
  have hunsent : s.session.unsent = [] := by simp [Session.unsent, hphase]
  cases hdelivered : s.session.delivered using List.reverseRecOn with
  | nil =>
    -- nothing sent yet: an end of the ring, which is an end of what was published
    have hframes : frames = s.hub.frames.filter fun f => s.session.after < f.lastSequence := by
      unfold FrameHub.after at hafter
      grind
    have hring := rtake_suffix s.published (max capacity 1)
    have hinc := h.published_increasing.pairwise_last.sublist hring.sublist
    rw [hframes, h.hub_frames]
    exact (filter_above_suffix _ hinc).trans hring
  | append_singleton old f =>
    -- the cursor is at `f`, the last frame of the previous read
    have hcursor : s.session.after = f.lastSequence := by
      refine h.cursor hopen f ?_
      simp_all
    obtain ⟨older, hsplit⟩ := h.seen hopen
    rw [hunsent, hdelivered] at hsplit
    have hpublished : s.published = (older ++ old) ++ f :: s.published.drop s.session.read := by
      grind [List.take_append_drop]
    have hf : f ∈ s.published := by
      grind
    rw [hcursor] at hafter
    have hpairwise := h.published_increasing.pairwise_last
    rw [hpublished] at hpairwise
    have hnew := filter_above_split hpairwise
    rw [← hpublished] at hnew
    rw [(h.after_of_pos (h.lastSequence_pos hf) hafter).1, hnew]
    grind

lemma push (h : Contiguous capacity floor s) {frame : WireFrame} {rest : List WireFrame}
    (htodo : s.todo = frame :: rest) :
    Contiguous capacity floor
      { s with
        hub := s.hub.push frame
        todo := rest
        unnotified := some frame.lastSequence
        published := s.published ++ [frame] } where
  hub := by
    have hsame : s.hub.push frame =
        (((FrameHub.resumingAfter capacity floor).publishAll s.published).push frame).notify
          s.hub.latest := by
      conv_lhs => rw [h.hub]
      rfl
    rw [FrameHub.publishAll_concat]
    exact hsame
  increasing := by
    have hinc := h.increasing
    simp_all
  since_le := h.since_le
  read_le := by
    rw [List.length_append]
    exact Nat.le_add_right_of_le h.read_le
  stretch := h.stretch.trans (List.prefix_append _ _).isInfix
  seen := by
    intro hopen
    rw [List.take_append_of_le_length h.read_le]
    exact h.seen hopen
  cursor := h.cursor
  unsent := h.unsent
  fresh := h.fresh

lemma close (h : Contiguous capacity floor s) {session : Session} (hphase : session.phase = .closed)
    (hdelivered : session.delivered = s.session.delivered)
    (hsince : session.since = s.session.since) (hread : session.read = s.session.read) :
    Contiguous capacity floor { s with session := session } where
  hub := h.hub
  increasing := h.increasing
  since_le := by
    rw [hsince, hread]
    exact h.since_le
  read_le := by
    rw [hread]
    exact h.read_le
  stretch := by
    rw [hdelivered]
    exact h.stretch
  seen := fun hopen => absurd hphase hopen
  cursor := fun hopen => absurd hphase hopen
  unsent := by simp [Session.unsent, hphase]
  fresh := fun habsent => by simp [hphase] at habsent

lemma turn (h : Contiguous capacity floor s) (hunsent : s.session.unsent = [])
    (hopen : s.session.phase ≠ .closed) {phase : SessionPhase}
    (hphase : phase = .waiting ∨ phase = .reading) :
    Contiguous capacity floor { s with session := { s.session with phase := phase } } := by
  have hnone : Session.unsent { s.session with phase := phase } = [] := by
    rcases hphase with rfl | rfl <;> rfl
  refine ⟨h.hub, h.increasing, h.since_le, h.read_le, h.stretch, ?_, fun _ => h.cursor hopen, ?_,
    ?_⟩
  · intro _
    rw [hnone, ← hunsent]
    exact h.seen hopen
  · simp_all
  grind

lemma session (h : Contiguous capacity floor s) {a : SessionAction} {session : Session}
    (hstep : s.session.Step s.hub s.published.length a session) :
    Contiguous capacity floor { s with session := session } := by
  cases hstep with
  | connect requestedAfter hphase =>
    have hnone := h.fresh hphase
    refine ⟨h.hub, h.increasing, le_rfl, le_rfl, h.stretch, ?_, ?_, ?_, ?_⟩
    · intro _
      rw [hnone]
      exact List.nil_suffix
    · simp_all
    · exact fun f hf => absurd hf List.not_mem_nil
    · exact fun _ => hnone
  | read frames hphase hafter =>
    have hopen : s.session.phase ≠ .closed := by simp [hphase]
    refine ⟨h.hub, h.increasing, h.since_le.trans h.read_le, le_rfl, h.stretch, ?_, ?_, ?_, ?_⟩
    · intro _
      rw [List.take_length]
      exact h.read_suffix hphase hafter
    · exact fun _ => h.cursor hopen
    · intro f hf
      unfold FrameHub.after at hafter
      split_ifs at hafter
      rw [← Except.ok.inj hafter] at hf
      exact of_decide_eq_true (List.mem_filter.mp hf).2
    simp
  | send frame rest hphase =>
    have hopen : s.session.phase ≠ .closed := by simp [hphase]
    have hunsent : s.session.unsent = frame :: rest := by simp [Session.unsent, hphase]
    have hseen := h.seen hopen
    rw [hunsent] at hseen
    have hmore : (s.session.delivered ++ [frame]) ++ rest <:+
        s.published.take s.session.read := by
      simp_all
    have hafter : max s.session.after frame.lastSequence = frame.lastSequence := by
      refine max_eq_right (h.unsent frame ?_).le
      simp_all
    refine ⟨h.hub, h.increasing, h.since_le, h.read_le, ?_, ?_, ?_, ?_, ?_⟩
    · exact ((List.prefix_append _ _).isInfix.trans hmore.isInfix).trans
        (List.take_prefix _ _).isInfix
    · exact fun _ => hmore
    · intro _ f hf
      change f ∈ (s.session.delivered ++ [frame]).getLast? at hf
      rw [List.getLast?_concat] at hf
      cases hf
      exact hafter
    · intro f hf
      show max s.session.after frame.lastSequence < f.lastSequence
      rw [hafter]
      have hpairwise := h.published_increasing.pairwise_last.sublist
        (hseen.sublist.trans (List.take_sublist _ _))
      exact (List.pairwise_cons.mp (List.pairwise_append.mp hpairwise).2.1).1 f hf
    · exact fun habsent => absurd habsent (by simp [Session.sent])
  | finish hphase => exact h.turn (by simp [Session.unsent, hphase]) (by simp [hphase]) (Or.inl rfl)
  | wake hphase => exact h.turn (by simp [Session.unsent, hphase]) (by simp [hphase]) (Or.inr rfl)
  | lagged hphase hafter => exact h.close rfl rfl rfl rfl
  | slow frame rest hphase => exact h.close rfl rfl rfl rfl
  | gone frame rest hphase => exact h.close rfl rfl rfl rfl
  | leave hphase => exact h.close rfl rfl rfl rfl

theorem step (h : Contiguous capacity floor s) {a : StreamAction} (hstep : s.step a = some s') :
    Contiguous capacity floor s' := by
  cases Stream.step_sound hstep with
  | push frame rest htodo => exact h.push htodo
  | notify latest =>
    refine ⟨?_, h.increasing, h.since_le, h.read_le, h.stretch, h.seen, h.cursor, h.unsent,
      h.fresh⟩
    conv_lhs => rw [h.hub]
    rfl
  | session a session hsession => exact h.session hsession

end Contiguous

lemma contiguous_start {capacity floor : ℕ} {frames : List WireFrame}
    (h : IncreasingAbove floor frames) :
    Contiguous capacity floor (Stream.start capacity floor frames) where
  hub := rfl
  increasing := h
  since_le := le_rfl
  read_le := le_rfl
  stretch := List.nil_infix
  seen := fun _ => List.nil_suffix
  cursor := fun _ f hf => by cases hf
  unsent := fun f hf => absurd hf List.not_mem_nil
  fresh := fun _ => rfl

/-! ## Everything since the start is sent -/

def Unhurried (s : Stream) : StreamAction → Prop
  | .push => s.session.Open →
      (∀ f ∈ s.todo.head?, s.session.after < f.lastSequence) ∧
        (s.session.unsent = [] → s.session.after = 0 →
          s.published.length < s.hub.capacity + s.session.read)
  | _ => True

instance (s : Stream) : (a : StreamAction) → Decidable (Unhurried s a)
  | .push => inferInstanceAs (Decidable (_ → _))
  | .notify | .session _ => .isTrue trivial

structure Complete (s : Stream) : Prop where
  sent : ∀ f ∈ (s.published.take s.session.read).drop s.session.since,
    f ∈ s.session.delivered ++ s.session.unsent
  above : ∀ f ∈ s.published.drop s.session.read, s.session.after < f.lastSequence
  kept : s.session.unsent = [] → s.session.after = 0 →
    s.published.length ≤ s.hub.capacity + s.session.read

namespace Complete

variable {capacity floor : ℕ} {s s' : Stream}

lemma mem_drop_since (h : Contiguous capacity floor s) {f : WireFrame}
    (hf : f ∈ s.published.drop s.session.since) :
    f ∈ (s.published.take s.session.read).drop s.session.since ∨
      f ∈ s.published.drop s.session.read := by
  rw [← List.mem_append]
  have hle : s.session.since ≤ (s.published.take s.session.read).length := by
    rw [List.length_take, min_eq_left h.read_le]
    exact h.since_le
  rwa [← List.drop_append_of_le_length hle, List.take_append_drop]

lemma mem_ring_of_zero (h : Contiguous capacity floor s) (hc : Complete s)
    (hunsent : s.session.unsent = []) (hzero : s.session.after = 0) {f : WireFrame}
    (hf : f ∈ s.published.drop s.session.read) : f ∈ s.hub.frames := by
  have hkept := hc.kept hunsent hzero
  rw [h.hub_capacity] at hkept
  have hsuffix : s.published.drop s.session.read <:+ s.published.rtake (max capacity 1) := by
    refine suffix_rtake_of_length_le (List.drop_suffix _ _) ?_
    grind
  rw [h.hub_frames]
  exact hsuffix.subset hf

lemma read (h : Contiguous capacity floor s) (hc : Complete s)
    (hphase : s.session.phase = .reading) {frames : List WireFrame}
    (hafter : s.hub.after s.session.after = .ok frames) {f : WireFrame}
    (hf : f ∈ s.published.drop s.session.read) : f ∈ frames := by
  have hunsent : s.session.unsent = [] := by simp [Session.unsent, hphase]
  have hlt := hc.above f hf
  have hmem : f ∈ s.published := List.mem_of_mem_drop hf
  have hring : f ∈ s.hub.frames := by
    rcases Nat.eq_zero_or_pos s.session.after with hzero | hpos
    · exact mem_ring_of_zero h hc hunsent hzero hf
    · exact (h.after_of_pos hpos hafter).2 f hmem hlt
  unfold FrameHub.after at hafter
  grind

lemma push (h : Contiguous capacity floor s) (hc : Complete s) (hopen : s.session.Open)
    (hok : Unhurried s .push) {frame : WireFrame} {rest : List WireFrame}
    (htodo : s.todo = frame :: rest) :
    Complete
      { s with
        hub := s.hub.push frame
        todo := rest
        unnotified := some frame.lastSequence
        published := s.published ++ [frame] } := by
  obtain ⟨hcursor, hroom⟩ := hok hopen
  rw [htodo] at hcursor
  refine ⟨?_, ?_, ?_⟩
  · intro f hf
    rw [List.take_append_of_le_length h.read_le] at hf
    exact hc.sent f hf
  · intro f hf
    rw [List.drop_append_of_le_length h.read_le, List.mem_append] at hf
    rcases hf with hf | hf
    · exact hc.above f hf
    simp_all
  · intro hunsent hzero
    rw [List.length_append]
    exact hroom hunsent hzero

lemma session (h : Contiguous capacity floor s) (hc : s.session.Open → Complete s)
    {a : SessionAction} {session : Session}
    (hstep : s.session.Step s.hub s.published.length a session) (hopen : session.Open) :
    Complete { s with session := session } := by
  -- a session that goes on with nothing left to send
  have hturn : ∀ phase, s.session.Open → s.session.unsent = [] →
      Session.unsent { s.session with phase := phase } = [] →
      Complete { s with session := { s.session with phase := phase } } := by
    intro phase hwas hunsent hnone
    obtain ⟨hsent, habove, hkept⟩ := hc hwas
    refine ⟨?_, habove, fun _ => hkept hunsent⟩
    simp_all
  cases hstep with
  | connect requestedAfter hphase =>
    refine ⟨?_, ?_, fun _ _ => Nat.le_add_left _ _⟩
    · simp
    simp
  | read frames hphase hafter =>
    have hwas := hc ⟨by simp [hphase], by simp [hphase]⟩
    refine ⟨?_, ?_, fun _ _ => Nat.le_add_left _ _⟩
    · intro f hf
      rw [List.take_length] at hf
      rw [List.mem_append]
      rcases mem_drop_since h hf with hf | hf
      · have hsent := hwas.sent f hf
        grind [Session.unsent]
      · exact Or.inr (hwas.read h hphase hafter hf)
    simp
  | send frame rest hphase =>
    obtain ⟨hsent, habove, hkept⟩ := hc ⟨by simp [hphase], by simp [hphase]⟩
    have hunsent : s.session.unsent = frame :: rest := by simp [Session.unsent, hphase]
    have hseen := h.seen (by simp [hphase])
    rw [hunsent] at hsent hseen
    have hframe : frame ∈ s.published.take s.session.read :=
      hseen.subset (List.mem_append_right _ List.mem_cons_self)
    refine ⟨?_, ?_, ?_⟩
    · intro f hf
      show f ∈ (s.session.delivered ++ [frame]) ++ rest
      rw [List.append_assoc]
      exact hsent f hf
    · intro f hf
      have hpairwise := h.published_increasing.pairwise_last
      rw [← List.take_append_drop s.session.read s.published, List.pairwise_append] at hpairwise
      exact max_lt (habove f hf) (hpairwise.2.2 frame hframe f hf)
    · intro _ hzero
      change max s.session.after frame.lastSequence = 0 at hzero
      have hpos := h.lastSequence_pos (List.mem_of_mem_take hframe)
      omega
  | finish hphase =>
    exact hturn .waiting ⟨by simp [hphase], by simp [hphase]⟩
      (by simp [Session.unsent, hphase]) rfl
  | wake hphase =>
    exact hturn .reading ⟨by simp [hphase], by simp [hphase]⟩
      (by simp [Session.unsent, hphase]) rfl
  | lagged hphase hafter => exact absurd rfl hopen.2
  | slow frame rest hphase => exact absurd rfl hopen.2
  | gone frame rest hphase => exact absurd rfl hopen.2
  | leave hphase => exact absurd rfl hopen.2

theorem step (h : Contiguous capacity floor s) (hc : s.session.Open → Complete s)
    {a : StreamAction} (hok : Unhurried s a) (hstep : s.step a = some s') :
    s'.session.Open → Complete s' := by
  intro hopen
  cases Stream.step_sound hstep with
  | push frame rest htodo => exact (hc hopen).push h hopen hok htodo
  | notify latest =>
    obtain ⟨hsent, habove, hkept⟩ := hc hopen
    exact ⟨hsent, habove, hkept⟩
  | session b session hsession => exact Complete.session h hc hsession hopen

end Complete

/-! ## A session that has missed a frame -/

def Lost (s : Stream) (f : WireFrame) : Prop :=
  f ∈ s.published.drop s.session.since ∧ f ∉ s.hub.frames ∧
    f ∉ s.session.delivered ++ s.session.unsent

structure Doomed (f : WireFrame) (s : Stream) : Prop where
  floor : f.lastSequence ≤ s.hub.replayFloor
  started : s.session.phase ≠ .absent
  notMem : f ∉ s.session.delivered
  below : s.session.Open → s.session.after < f.lastSequence
  unsent : ∀ g ∈ s.session.unsent, 0 < g.lastSequence ∧ g.lastSequence < f.lastSequence
  pos : s.session.Open → s.session.unsent = [] → 0 < s.session.after

namespace Doomed

variable {f : WireFrame} {s s' : Stream}

lemma lagged (h : Doomed f s) (hphase : s.session.phase = .reading) :
    s.hub.after s.session.after = .error .lagged := by
  have hopen : s.session.Open := ⟨by simp [hphase], by simp [hphase]⟩
  have hpos := h.pos hopen (by simp [Session.unsent, hphase])
  unfold FrameHub.after
  rw [if_pos ⟨hpos, lt_of_lt_of_le (h.below hopen) h.floor⟩]

lemma close (h : Doomed f s) {session : Session} (hphase : session.phase = .closed)
    (hdelivered : session.delivered = s.session.delivered) :
    Doomed f { s with session := session } where
  floor := h.floor
  started := by simp [hphase]
  notMem := by
    rw [hdelivered]
    exact h.notMem
  below := fun hopen => absurd hphase hopen.2
  unsent := by simp [Session.unsent, hphase]
  pos := fun hopen => absurd hphase hopen.2

theorem step (h : Doomed f s) {a : StreamAction} (hstep : s.step a = some s') : Doomed f s' := by
  cases Stream.step_sound hstep with
  | push frame rest htodo =>
    refine ⟨?_, h.started, h.notMem, h.below, h.unsent, h.pos⟩
    rw [FrameHub.push_replayFloor, ← not_lt]
    intro hlt
    have hmore := (FrameHub.lt_foldl_max_iff _ s.hub.replayFloor
      ((s.hub.frames ++ [frame]).rdrop s.hub.capacity)).mpr (Or.inl (hlt.trans_le h.floor))
    exact lt_irrefl _ hmore
  | notify latest => exact ⟨h.floor, h.started, h.notMem, h.below, h.unsent, h.pos⟩
  | session b session hsession =>
    cases hsession with
    | connect requestedAfter hphase => exact absurd hphase h.started
    | read frames hphase hafter =>
      rw [h.lagged hphase] at hafter
      cases hafter
    | send frame rest hphase =>
      have hunsent : s.session.unsent = frame :: rest := by simp [Session.unsent, hphase]
      have hopen : s.session.Open := ⟨by simp [hphase], by simp [hphase]⟩
      have hbelow := h.unsent
      rw [hunsent] at hbelow
      obtain ⟨hpos, hlt⟩ := hbelow frame List.mem_cons_self
      refine ⟨h.floor, by simp [Session.sent], ?_, ?_, ?_, ?_⟩
      · show f ∉ s.session.delivered ++ [frame]
        rw [List.mem_append, List.mem_singleton, not_or]
        exact ⟨h.notMem, fun heq => lt_irrefl _ (heq ▸ hlt)⟩
      · exact fun _ => max_lt (h.below hopen) hlt
      · exact fun g hg => hbelow g (List.mem_cons_of_mem _ hg)
      · exact fun _ _ => lt_max_of_lt_right hpos
    | finish hphase | wake hphase =>
      have hopen : s.session.Open := ⟨by simp [hphase], by simp [hphase]⟩
      exact ⟨h.floor, by simp, h.notMem, fun _ => h.below hopen,
        fun g hg => absurd hg List.not_mem_nil,
        fun _ _ => h.pos hopen (by simp [Session.unsent, hphase])⟩
    | lagged hphase hafter => exact h.close rfl rfl
    | slow frame rest hphase => exact h.close rfl rfl
    | gone frame rest hphase => exact h.close rfl rfl
    | leave hphase => exact h.close rfl rfl

end Doomed

variable {capacity floor : ℕ} {s s' : Stream}

lemma Lost.doomed {f : WireFrame} (hlost : Lost s f) (h : Contiguous capacity floor s)
    (hopen : s.session.Open) (hc : Complete s) : Doomed f s := by
  obtain ⟨hsince, hring, hunseen⟩ := hlost
  have hunread : f ∈ s.published.drop s.session.read :=
    (Complete.mem_drop_since h hsince).resolve_left fun hread => hunseen (hc.sent f hread)
  have hmem : f ∈ s.published := List.mem_of_mem_drop hsince
  rw [List.mem_append, not_or] at hunseen
  refine ⟨?_, hopen.1, hunseen.1, fun _ => hc.above f hunread, ?_, ?_⟩
  · -- an evicted frame has raised the floor
    have hgone : f ∈ s.published.rdrop (max capacity 1) := by
      rw [h.published_increasing.mem_rdrop_iff, ← h.hub_frames]
      exact ⟨hmem, hring⟩
    have hpos := h.lastSequence_pos hmem
    have hfloor := (FrameHub.lt_publishAll_replayFloor_iff capacity floor (f.lastSequence - 1)
      s.published).mpr (Or.inr ⟨f, hgone, by omega⟩)
    rw [h.hub, FrameHub.notify_replayFloor]
    omega
  · intro g hg
    have hread : g ∈ s.published.take s.session.read :=
      (h.seen hopen.2).subset (List.mem_append_right _ hg)
    have hpairwise := h.published_increasing.pairwise_last
    rw [← List.take_append_drop s.session.read s.published, List.pairwise_append] at hpairwise
    exact ⟨h.lastSequence_pos (List.mem_of_mem_take hread), hpairwise.2.2 g hread f hunread⟩
  · intro _ hunsent
    rcases Nat.eq_zero_or_pos s.session.after with hzero | hpos
    · exact absurd (hc.mem_ring_of_zero h hunsent hzero hunread) hring
    · exact hpos

/-! ## The result -/

def Undisturbed : StreamAction → Prop
  | .session a => Session.Proceeds a
  | _ => False

def Rejected (s : Stream) : Prop := s.session.phase = .closed ∧ 0 < s.session.wsCursorRejected

lemma Complete.reaches (h : Contiguous capacity floor s) (hopen : s.session.Open)
    (hc : Complete s) :
    Reaches Stream.step Undisturbed
      (fun t => (t.session.phase = .waiting ∧
        ∀ f ∈ s.published.drop s.session.since, f ∈ t.session.delivered) ∨ Rejected t) s := by
  have hpass : Reaches Stream.step Undisturbed
      (fun t => ∃ session : Session, t = { s with session := session } ∧
        session.since = s.session.since ∧ session.PassOver s.hub s.published.length) s :=
    (Session.reads_on s.hub s.published.length hopen).embed
      (fun session => { s with session := session }) StreamAction.session
      (fun u b u' _ hstep => by simp only [Stream.step, hstep, Option.map_some]) (fun b hb => hb)
  obtain ⟨as, t, has, hrun, ⟨session, rfl, hsince, hover⟩⟩ := hpass
  refine ⟨as, _, has, hrun, ?_⟩
  rcases hover with ⟨hwait, hread⟩ | ⟨u, -, -, rfl⟩
  · left
    -- the session's own steps meet the condition, so it is complete where it waits
    have hinv := run_invariant
      (I := fun t => Contiguous capacity floor t ∧ (t.session.Open → Complete t))
      ?_ ⟨h, fun _ => hc⟩ (allSteps_of_forall has s) hrun
    · refine ⟨hwait, fun f hf => ?_⟩
      have hsent := (hinv.2 ⟨by simp [hwait], by simp [hwait]⟩).sent f
      grind [Session.unsent]
    · rintro t a t' ⟨ht, hct⟩ hok hstep
      have hquiet : Unhurried t a := by
        cases a with
        | push => exact hok.elim
        | notify => trivial
        | session b => trivial
      exact ⟨ht.step hstep, Complete.step ht hct hquiet hstep⟩
  · exact Or.inr ⟨rfl, Nat.succ_pos _⟩

theorem session_has_no_silent_gap (capacity floor : ℕ) (frames : List WireFrame)
    (as : List StreamAction) (s : Stream) (hinc : IncreasingAbove floor frames)
    (hrun : run Stream.step (Stream.start capacity floor frames) as = some s) :
    (s.session.delivered <:+: s.published ∧ s.session.delivered.Nodup) ∧
    (AllSteps Stream.step Unhurried (Stream.start capacity floor frames) as → s.session.Open →
      (s.session.phase = .waiting →
        ∀ f ∈ (s.published.take s.session.read).drop s.session.since, f ∈ s.session.delivered) ∧
      Reaches Stream.step Undisturbed
        (fun t => (t.session.phase = .waiting ∧
          ∀ f ∈ s.published.drop s.session.since, f ∈ t.session.delivered) ∨ Rejected t) s ∧
      ∀ f, Lost s f →
        Reaches Stream.step Undisturbed Rejected s ∧
        ∀ bs t, run Stream.step s bs = some t → f ∉ t.session.delivered ∧
          (t.session.phase = .reading → t.hub.after t.session.after = .error .lagged)) := by
  have hcontiguous : Contiguous capacity floor s :=
    run_invariant_of_step (fun t a t' ht hstep => ht.step hstep) (contiguous_start hinc) hrun
  refine ⟨⟨hcontiguous.stretch, ?_⟩, fun hok hopen => ?_⟩
  · exact hcontiguous.published_increasing.nodup.sublist hcontiguous.stretch.sublist
  · have hinv := run_invariant
      (I := fun t => Contiguous capacity floor t ∧ (t.session.Open → Complete t))
      (fun t a t' ht hquiet hstep => ⟨ht.1.step hstep, Complete.step ht.1 ht.2 hquiet hstep⟩)
      ⟨contiguous_start hinc, fun hstarted => absurd rfl hstarted.1⟩ hok hrun
    have hc := hinv.2 hopen
    have hreaches := hc.reaches hcontiguous hopen
    refine ⟨?_, hreaches, fun f hlost => ?_⟩
    · intro hwait f hf
      have hsent := hc.sent f hf
      grind [Session.unsent]
    · have hdoomed := hlost.doomed hcontiguous hopen hc
      refine ⟨?_, fun bs t hbs => ?_⟩
      · refine (hreaches.and_invariant (fun t a t' ht hstep => Doomed.step ht hstep)
          hdoomed).mono ?_
        rintro t ⟨⟨-, hall⟩ | hrejected, ht⟩
        · exact absurd (hall f hlost.1) ht.notMem
        · exact hrejected
      · have ht : Doomed f t :=
          run_invariant_of_step (fun u a u' hu hstep => hu.step hstep) hdoomed hbs
        exact ⟨ht.notMem, ht.lagged⟩

/-- A ring of one. The first frame is sent; the second is evicted by the third before the session
reads again, so the session is closed with 1013. -/
theorem session_has_no_silent_gap_ring_of_one :
    let frames : List WireFrame := [⟨1, 1, 1, []⟩, ⟨2, 2, 3, []⟩, ⟨3, 4, 4, []⟩]
    let as : List StreamAction :=
      [.session (.connect none), .push, .notify, .session .read, .session (.send .ok),
        .session .finish, .push, .notify, .push]
    ∃ s, run Stream.step (Stream.start 1 0 frames) as = some s ∧
      AllSteps Stream.step Unhurried (Stream.start 1 0 frames) as ∧
      s.session.delivered = [⟨1, 1, 1, []⟩] ∧ Lost s ⟨2, 2, 3, []⟩ ∧
      Reaches Stream.step Undisturbed Rejected s := by
  intro frames as
  have hok : AllSteps Stream.step Unhurried (Stream.start 1 0 frames) as := by decide +kernel
  have hsome : ((run Stream.step (Stream.start 1 0 frames) as).map fun s =>
      (s.session.phase, s.session.delivered, s.session.since, s.published, s.hub.frames)) =
      some (.waiting, [⟨1, 1, 1, []⟩], 0, frames, [⟨3, 4, 4, []⟩]) := by decide +kernel
  obtain ⟨s, hrun, hvals⟩ := Option.map_eq_some_iff.mp hsome
  simp only [Prod.mk.injEq] at hvals
  obtain ⟨hwait, hdelivered, hsince, hpublished, hring⟩ := hvals
  have hopen : s.session.Open := ⟨by simp [hwait], by simp [hwait]⟩
  have hlost : Lost s ⟨2, 2, 3, []⟩ := by
    unfold Lost Session.unsent
    grind
  have hmain := (session_has_no_silent_gap 1 0 frames as s (by decide) hrun).2 hok hopen
  grind

/-- A ring of one. The session connects before anything is published, so its cursor is `0`; two
frames are published before it reads. It sends the second and goes on; the first is never sent. -/
theorem stalled_session_skips_frame :
    let frames : List WireFrame := [⟨1, 1, 1, []⟩, ⟨2, 2, 2, []⟩]
    let as : List StreamAction :=
      [.session (.connect none), .push, .notify, .push, .notify, .session .read,
        .session (.send .ok), .session .finish]
    IncreasingAbove 0 frames ∧
    ∃ s, run Stream.step (Stream.start 1 0 frames) as = some s ∧
      s.session.phase = .waiting ∧ s.session.wsCursorRejected = 0 ∧
      s.session.read = s.published.length ∧
      (⟨1, 1, 1, []⟩ : WireFrame) ∈ s.published.drop s.session.since ∧
      (⟨1, 1, 1, []⟩ : WireFrame) ∉ s.hub.frames ∧
      s.session.delivered = [⟨2, 2, 2, []⟩] := by
  exact ⟨by decide, exists_some_of_any (by decide +kernel)⟩

end RustUma.Api
