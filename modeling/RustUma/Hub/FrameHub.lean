import RustUma.Found.Ring
import RustUma.Model.Wire
import Mathlib.Order.MinMax

/-!
# The frame ring and the resume rule (`src/hub.rs` `FrameRing`, `FrameHub`)

`FrameHub` keeps the last `capacity` encoded frames and a *replay floor*: the highest sequence
that was broadcast but can no longer be replayed, which is either the last frame evicted or, after
a restart, what the previous process broadcast. A reader resumes with `after cursor`.
-/

namespace RustUma.Hub

open RustUma.Found RustUma.Model

inductive FrameReadError where
  | lagged
  deriving DecidableEq

structure FrameHub where
  capacity : ℕ
  frames : List WireFrame
  replayFloor : ℕ
  latest : ℕ
  deriving DecidableEq

namespace FrameHub

def resumingAfter (capacity lastBroadcastSequence : ℕ) : FrameHub where
  capacity := max capacity 1
  frames := []
  replayFloor := lastBroadcastSequence
  latest := 0

def new (capacity : ℕ) : FrameHub := resumingAfter capacity 0

def push (hub : FrameHub) (frame : WireFrame) : FrameHub :=
  let ring := trim hub.capacity (fun floor evicted => max floor evicted.lastSequence)
    (hub.frames ++ [frame]) hub.replayFloor
  { hub with frames := ring.1, replayFloor := ring.2 }

def notify (hub : FrameHub) (latest : ℕ) : FrameHub := { hub with latest := latest }

def publish (hub : FrameHub) (frame : WireFrame) : FrameHub :=
  (hub.push frame).notify frame.lastSequence

def latestSequence (hub : FrameHub) : ℕ := hub.latest

def after (hub : FrameHub) (sequence : ℕ) : Except FrameReadError (List WireFrame) :=
  if 0 < sequence ∧ sequence < hub.replayFloor then .error .lagged
  else .ok (hub.frames.filter fun frame => sequence < frame.lastSequence)

def publishAll (hub : FrameHub) (frames : List WireFrame) : FrameHub := frames.foldl publish hub

@[simp] lemma push_capacity (hub : FrameHub) (frame : WireFrame) :
    (hub.push frame).capacity = hub.capacity := rfl

@[simp] lemma push_frames (hub : FrameHub) (frame : WireFrame) :
    (hub.push frame).frames = (hub.frames ++ [frame]).rtake hub.capacity := by
  simp [push, trim_eq]

@[simp] lemma push_replayFloor (hub : FrameHub) (frame : WireFrame) :
    (hub.push frame).replayFloor =
      ((hub.frames ++ [frame]).rdrop hub.capacity).foldl
        (fun floor evicted => max floor evicted.lastSequence) hub.replayFloor := by
  simp [push, trim_eq]

@[simp] lemma notify_capacity (hub : FrameHub) (n : ℕ) : (hub.notify n).capacity = hub.capacity :=
  rfl

@[simp] lemma notify_frames (hub : FrameHub) (n : ℕ) : (hub.notify n).frames = hub.frames := rfl

@[simp] lemma notify_replayFloor (hub : FrameHub) (n : ℕ) :
    (hub.notify n).replayFloor = hub.replayFloor := rfl

lemma publishAll_concat (hub : FrameHub) (frames : List WireFrame) (frame : WireFrame) :
    hub.publishAll (frames ++ [frame]) = (hub.publishAll frames).publish frame := by
  simp [publishAll]

@[simp] lemma publishAll_capacity (hub : FrameHub) (frames : List WireFrame) :
    (hub.publishAll frames).capacity = hub.capacity := by
  induction frames using List.reverseRecOn with
  | nil => rfl
  | append_singleton frames frame ih => simp [publishAll_concat, publish, ih]

lemma publishAll_frames (capacity floor : ℕ) (frames : List WireFrame) :
    ((resumingAfter capacity floor).publishAll frames).frames =
      frames.rtake (max capacity 1) := by
  induction frames using List.reverseRecOn with
  | nil => simp [publishAll, resumingAfter]
  | append_singleton frames frame ih =>
    rw [publishAll_concat]
    simp only [publish, notify_frames, push_frames, publishAll_capacity, ih]
    exact rtake_append_of_rtake _ _ _

lemma lt_foldl_max_iff (c floor : ℕ) (frames : List WireFrame) :
    c < frames.foldl (fun floor evicted => max floor evicted.lastSequence) floor ↔
      c < floor ∨ ∃ f ∈ frames, c < f.lastSequence := by
  induction frames generalizing floor with
  | nil => simp
  | cons f frames ih =>
    grind

theorem lt_publishAll_replayFloor_iff (capacity floor c : ℕ) (frames : List WireFrame) :
    c < ((resumingAfter capacity floor).publishAll frames).replayFloor ↔
      c < floor ∨ ∃ f ∈ frames.rdrop (max capacity 1), c < f.lastSequence := by
  induction frames using List.reverseRecOn with
  | nil => simp [publishAll, resumingAfter]
  | append_singleton frames frame ih =>
    rw [publishAll_concat]
    simp only [publish, notify_replayFloor, push_replayFloor, publishAll_capacity,
      publishAll_frames, lt_foldl_max_iff, ih]
    have hcap : 0 < max capacity 1 := by omega
    have hmem := mem_rdrop_concat_iff hcap frames frame
    constructor
    · rintro ((h | ⟨f, hf, hlt⟩) | ⟨f, hf, hlt⟩)
      · exact Or.inl h
      · grind
      · exact Or.inr ⟨f, (hmem f).mpr (Or.inr hf), hlt⟩
    · rintro (h | ⟨f, hf, hlt⟩)
      · exact Or.inl (Or.inl h)
      · rcases (hmem f).mp hf with hf | hf
        · grind
        · exact Or.inr ⟨f, hf, hlt⟩

end FrameHub

/-! ## Resuming after a publish history -/

def IncreasingAbove (floor : ℕ) (frames : List WireFrame) : Prop :=
  (∀ f ∈ frames, floor < f.firstSequence ∧ f.firstSequence ≤ f.lastSequence) ∧
    frames.Pairwise fun f g => f.lastSequence < g.firstSequence

instance (floor : ℕ) (frames : List WireFrame) : Decidable (IncreasingAbove floor frames) :=
  inferInstanceAs (Decidable (_ ∧ _))

def MissedAbove (floor : ℕ) (published retained : List WireFrame) (c : ℕ) : Prop :=
  c < floor ∨ ∃ f ∈ published, f ∉ retained ∧ c < f.lastSequence

namespace IncreasingAbove

variable {floor : ℕ} {frames : List WireFrame}

lemma pairwise_last (h : IncreasingAbove floor frames) :
    frames.Pairwise fun f g => f.lastSequence < g.lastSequence := by
  refine h.2.imp_of_mem ?_
  intro f g _ hg hfg
  exact lt_of_lt_of_le hfg (h.1 g hg).2

lemma nodup (h : IncreasingAbove floor frames) : frames.Nodup := by
  refine h.pairwise_last.imp ?_
  grind

lemma mem_rdrop_iff (h : IncreasingAbove floor frames) (n : ℕ) (f : WireFrame) :
    f ∈ frames.rdrop n ↔ f ∈ frames ∧ f ∉ frames.rtake n := by
  have hsplit := rdrop_append_rtake frames n
  have hnodup := h.nodup
  grind

end IncreasingAbove

lemma filter_above_suffix {frames : List WireFrame} (c : ℕ)
    (h : frames.Pairwise fun f g => f.lastSequence < g.lastSequence) :
    frames.filter (fun f => c < f.lastSequence) <:+ frames := by
  induction frames with
  | nil => exact List.suffix_refl _
  | cons f frames ih =>
    obtain ⟨hf, hrest⟩ := List.pairwise_cons.mp h
    by_cases hc : c < f.lastSequence
    · have hall : (f :: frames).filter (fun f => c < f.lastSequence) = f :: frames := by
        rw [List.filter_eq_self]
        grind
      rw [hall]
    grind

lemma filter_above_split {old new : List WireFrame} {f : WireFrame}
    (h : (old ++ f :: new).Pairwise fun f g => f.lastSequence < g.lastSequence) :
    (old ++ f :: new).filter (fun g => f.lastSequence < g.lastSequence) = new := by
  rw [List.pairwise_append, List.pairwise_cons] at h
  obtain ⟨-, ⟨hnew, -⟩, hold⟩ := h
  have hbefore : old.filter (fun g => f.lastSequence < g.lastSequence) = [] := by
    rw [List.filter_eq_nil_iff]
    intro g hg
    have hlt := hold g hg f List.mem_cons_self
    simpa using hlt.le
  rw [List.filter_append, hbefore, List.nil_append, List.filter_cons_of_neg (by simp),
    List.filter_eq_self]
  simp_all

namespace FrameHub

variable {capacity floor c : ℕ} {frames : List WireFrame}

lemma after_publishAll_lagged_iff (h : IncreasingAbove floor frames) (hc : 0 < c) :
    ((resumingAfter capacity floor).publishAll frames).after c = .error .lagged ↔
      MissedAbove floor frames ((resumingAfter capacity floor).publishAll frames).frames c := by
  have hmiss : c < ((resumingAfter capacity floor).publishAll frames).replayFloor ↔
      MissedAbove floor frames ((resumingAfter capacity floor).publishAll frames).frames c := by
    rw [lt_publishAll_replayFloor_iff, publishAll_frames]
    unfold MissedAbove
    simp only [h.mem_rdrop_iff, and_assoc]
  unfold after
  simp_all

lemma after_publishAll_of_not_missed (h : IncreasingAbove floor frames)
    (hmiss : ¬ MissedAbove floor frames
      ((resumingAfter capacity floor).publishAll frames).frames c) :
    ((resumingAfter capacity floor).publishAll frames).after c =
      .ok (frames.filter fun f => c < f.lastSequence) := by
  unfold MissedAbove at hmiss
  rw [publishAll_frames] at hmiss
  have hfloor : ¬ c < ((resumingAfter capacity floor).publishAll frames).replayFloor := by
    rw [lt_publishAll_replayFloor_iff]
    simpa only [h.mem_rdrop_iff, and_assoc] using hmiss
  unfold after
  rw [if_neg fun hlag => hfloor hlag.2, publishAll_frames]
  -- nothing above the cursor was evicted, so filtering the ring is filtering the history
  have hnone : (frames.rdrop (max capacity 1)).filter (fun f => c < f.lastSequence) = [] := by
    rw [List.filter_eq_nil_iff]
    intro f hf hlt
    rw [h.mem_rdrop_iff] at hf
    grind
  conv_rhs => rw [← rdrop_append_rtake frames (max capacity 1), List.filter_append, hnone]
  rfl

theorem frameHub_after_exact (capacity floor c : ℕ) (frames : List WireFrame)
    (h : IncreasingAbove floor frames) (hc : 0 < c) :
    let hub := (resumingAfter capacity floor).publishAll frames
    let above := frames.filter fun f => c < f.lastSequence
    (hub.after c = .error .lagged ↔ MissedAbove floor frames hub.frames c) ∧
    (¬ MissedAbove floor frames hub.frames c → hub.after c = .ok above ∧ above.Nodup) ∧
    (∀ got, hub.after c = .ok got → ∀ f ∈ frames, c < f.lastSequence → f ∈ got) ∧
    (floor ≤ c → (∀ f ∈ frames, f ∉ hub.frames → f.lastSequence ≤ c) →
      (∀ f ∈ hub.frames, c < f.firstSequence) → hub.after c = .ok hub.frames) := by
  intro hub above
  have hlag : hub.after c = .error .lagged ↔ MissedAbove floor frames hub.frames c :=
    after_publishAll_lagged_iff h hc
  have hok : ¬ MissedAbove floor frames hub.frames c → hub.after c = .ok above :=
    after_publishAll_of_not_missed h
  refine ⟨hlag, ?_, ?_, ?_⟩
  · intro hmiss
    exact ⟨hok hmiss, h.nodup.filter _⟩
  · grind
  · intro hfloor hlost hring
    have hmiss : ¬ MissedAbove floor frames hub.frames c := by
      rintro (hlt | ⟨f, hf, hgone, hlt⟩)
      · omega
      grind
    unfold after
    have hnolag : ¬ (0 < c ∧ c < hub.replayFloor) := by
      intro hcond
      apply hmiss
      rw [← hlag]
      unfold after
      rw [if_pos hcond]
    rw [if_neg hnolag]
    congr 1
    rw [List.filter_eq_self]
    intro f hf
    have hmem : f ∈ frames := by
      have hsuffix : hub.frames = frames.rtake (max capacity 1) :=
        publishAll_frames capacity floor frames
      rw [hsuffix] at hf
      exact (rtake_suffix frames _).subset hf
    exact decide_eq_true (lt_of_lt_of_le (hring f hf) (h.1 f hmem).2)

/-- The resume rule on a ring of two that lost its first frame, for a cursor in the gap between
the restart floor `5` and the lost frame, and for one past it. -/
theorem frameHub_after_exact_ring_of_two :
    let frames : List WireFrame := [⟨1, 7, 8, []⟩, ⟨2, 11, 11, []⟩, ⟨3, 14, 16, []⟩]
    let hub := (resumingAfter 2 5).publishAll frames
    hub.after 6 = .error .lagged ∧ hub.after 9 = .ok [⟨2, 11, 11, []⟩, ⟨3, 14, 16, []⟩] := by
  intro frames hub
  have hinc : IncreasingAbove 5 frames := by decide
  have hlost := frameHub_after_exact 2 5 6 frames hinc (by decide)
  have hgap := frameHub_after_exact 2 5 9 frames hinc (by decide)
  refine ⟨hlost.1.mpr (Or.inr ⟨⟨1, 7, 8, []⟩, by decide, by decide, by decide⟩), ?_⟩
  rfl

end FrameHub

end RustUma.Hub
