import RustUma.Found.Reach
import RustUma.Hub.FrameHub

/-!
# One websocket session (`src/api.rs` `websocket_session`, `send_available`)

A session keeps a cursor. It reads every frame above the cursor, sends them one by one, and raises
the cursor by each frame it sent; then it waits for a notification, a heartbeat or a message and
reads again.
-/

namespace RustUma.Api

open RustUma.Found RustUma.Model RustUma.Hub

inductive SessionPhase where
  | absent
  | reading
  | sending (frames : List WireFrame)
  | waiting
  | closed
  deriving DecidableEq

inductive WriteResult where
  | ok
  | timeout
  | closed
  deriving DecidableEq

inductive SessionAction where
  /-- The client connects, with the `after_sequence` it asked for. -/
  | connect (requestedAfter : Option ℕ)
  | read
  | send (result : WriteResult)
  | finish
  /-- A notification, a heartbeat or a client message. -/
  | wake
  | leave
  deriving DecidableEq

structure Session where
  phase : SessionPhase
  after : ℕ
  wsFramesSent : ℕ
  wsBytesSent : ℕ
  wsCursorRejected : ℕ
  slowClientsDropped : ℕ
  delivered : List WireFrame
  since : ℕ
  read : ℕ
  deriving DecidableEq

namespace Session

def none : Session := ⟨.absent, 0, 0, 0, 0, 0, [], 0, 0⟩

def Open (s : Session) : Prop := s.phase ≠ .absent ∧ s.phase ≠ .closed

instance (s : Session) : Decidable s.Open := inferInstanceAs (Decidable (_ ∧ _))

def unsent (s : Session) : List WireFrame :=
  match s.phase with
  | .sending frames => frames
  | _ => []

def sent (s : Session) (frame : WireFrame) (rest : List WireFrame) : Session :=
  { s with
    phase := .sending rest
    after := max s.after frame.lastSequence
    wsFramesSent := s.wsFramesSent + 1
    wsBytesSent := s.wsBytesSent + frame.bytes.length
    delivered := s.delivered ++ [frame] }

def step (hub : FrameHub) (published : ℕ) (s : Session) : SessionAction → Option Session
  | .connect requestedAfter =>
    match s.phase with
    | .absent =>
      some { s with
        phase := .reading
        after := requestedAfter.getD hub.latestSequence
        since := published
        read := published }
    | _ => Option.none
  | .read =>
    match s.phase with
    | .reading =>
      match hub.after s.after with
      | .ok frames => some { s with phase := .sending frames, read := published }
      | .error .lagged =>
        some { s with phase := .closed, wsCursorRejected := s.wsCursorRejected + 1 }
    | _ => Option.none
  | .send result =>
    match s.phase with
    | .sending (frame :: rest) =>
      match result with
      | .ok => some (s.sent frame rest)
      | .timeout =>
        some { s with phase := .closed, slowClientsDropped := s.slowClientsDropped + 1 }
      | .closed => some { s with phase := .closed }
    | _ => Option.none
  | .finish =>
    match s.phase with
    | .sending [] => some { s with phase := .waiting }
    | _ => Option.none
  | .wake =>
    match s.phase with
    | .waiting => some { s with phase := .reading }
    | _ => Option.none
  | .leave =>
    match s.phase with
    | .waiting => some { s with phase := .closed }
    | _ => Option.none

inductive Step (hub : FrameHub) (published : ℕ) (s : Session) : SessionAction → Session → Prop where
  | connect (requestedAfter : Option ℕ) (hphase : s.phase = .absent) :
      Step hub published s (.connect requestedAfter)
        { s with
          phase := .reading
          after := requestedAfter.getD hub.latestSequence
          since := published
          read := published }
  | read (frames : List WireFrame) (hphase : s.phase = .reading)
      (hafter : hub.after s.after = .ok frames) :
      Step hub published s .read { s with phase := .sending frames, read := published }
  | lagged (hphase : s.phase = .reading) (hafter : hub.after s.after = .error .lagged) :
      Step hub published s .read
        { s with phase := .closed, wsCursorRejected := s.wsCursorRejected + 1 }
  | send (frame : WireFrame) (rest : List WireFrame) (hphase : s.phase = .sending (frame :: rest)) :
      Step hub published s (.send .ok) (s.sent frame rest)
  | slow (frame : WireFrame) (rest : List WireFrame) (hphase : s.phase = .sending (frame :: rest)) :
      Step hub published s (.send .timeout)
        { s with phase := .closed, slowClientsDropped := s.slowClientsDropped + 1 }
  | gone (frame : WireFrame) (rest : List WireFrame) (hphase : s.phase = .sending (frame :: rest)) :
      Step hub published s (.send .closed) { s with phase := .closed }
  | finish (hphase : s.phase = .sending []) :
      Step hub published s .finish { s with phase := .waiting }
  | wake (hphase : s.phase = .waiting) :
      Step hub published s .wake { s with phase := .reading }
  | leave (hphase : s.phase = .waiting) :
      Step hub published s .leave { s with phase := .closed }

theorem step_sound {hub : FrameHub} {published : ℕ} {s s' : Session} {a : SessionAction}
    (h : s.step hub published a = some s') : Step hub published s a s' := by
  cases a with
  | connect requestedAfter =>
    simp only [step] at h
    split at h
    · next hphase =>
      cases h
      exact .connect requestedAfter hphase
    · cases h
  | read =>
    simp only [step] at h
    split at h
    · next hphase =>
      split at h
      · next frames hafter =>
        cases h
        exact .read frames hphase hafter
      · next hafter =>
        cases h
        exact .lagged hphase hafter
    · cases h
  | send result =>
    simp only [step] at h
    split at h
    · next frame rest hphase =>
      cases result with
      | ok =>
        cases h
        exact .send frame rest hphase
      | timeout =>
        cases h
        exact .slow frame rest hphase
      | closed =>
        cases h
        exact .gone frame rest hphase
    · cases h
  | finish =>
    simp only [step] at h
    split at h
    · next hphase =>
      cases h
      exact .finish hphase
    · cases h
  | wake =>
    simp only [step] at h
    split at h
    · next hphase =>
      cases h
      exact .wake hphase
    · cases h
  | leave =>
    simp only [step] at h
    split at h
    · next hphase =>
      cases h
      exact .leave hphase
    · cases h

/-! ## A session that is not disturbed -/

def Proceeds : SessionAction → Prop
  | .read | .send .ok | .finish | .wake => True
  | _ => False

def PassOver (hub : FrameHub) (published : ℕ) (t : Session) : Prop :=
  (t.phase = .waiting ∧ t.read = published) ∨
    ∃ u : Session, u.phase = .reading ∧ hub.after u.after = .error .lagged ∧
      t = { u with phase := .closed, wsCursorRejected := u.wsCursorRejected + 1 }

section Progress

variable {hub : FrameHub} {published : ℕ} {s : Session}

lemma sends_out {frames : List WireFrame} (hphase : s.phase = .sending frames) :
    Reaches (step hub published) Proceeds
      (fun t => t.phase = .waiting ∧ t.read = s.read ∧ t.since = s.since) s := by
  induction frames generalizing s with
  | nil =>
    have hstep : s.step hub published .finish = some { s with phase := .waiting } := by
      simp only [step, hphase]
    exact .next (a := .finish) trivial hstep (.here ⟨rfl, rfl, rfl⟩)
  | cons frame rest ih =>
    have hstep : s.step hub published (.send .ok) = some (s.sent frame rest) := by
      simp only [step, hphase]
    exact .next (a := .send .ok) trivial hstep (ih rfl)

lemma pass_completes (hphase : s.phase = .reading) {frames : List WireFrame}
    (hafter : hub.after s.after = .ok frames) :
    Reaches (step hub published) Proceeds
      (fun t => t.phase = .waiting ∧ t.read = published ∧ t.since = s.since) s := by
  have hstep : s.step hub published .read =
      some { s with phase := .sending frames, read := published } := by
    simp only [step, hphase, hafter]
  exact .next (a := .read) trivial hstep (sends_out rfl)

lemma reads_on (hub : FrameHub) (published : ℕ) (hopen : s.Open) :
    Reaches (step hub published) Proceeds
      (fun t => t.since = s.since ∧ t.PassOver hub published) s := by
  -- from the top of the loop
  have hreading : ∀ u : Session, u.phase = .reading → u.since = s.since →
      Reaches (step hub published) Proceeds
        (fun t => t.since = s.since ∧ t.PassOver hub published) u := by
    intro u hphase hsince
    cases hafter : hub.after u.after with
    | ok frames =>
      refine (pass_completes hphase hafter).mono fun t ht => ?_
      exact ⟨ht.2.2.trans hsince, Or.inl ⟨ht.1, ht.2.1⟩⟩
    | error e =>
      have hstep : u.step hub published .read =
          some { u with phase := .closed, wsCursorRejected := u.wsCursorRejected + 1 } := by
        simp only [step, hphase, hafter]
      exact .next (a := .read) trivial hstep (.here ⟨hsince, Or.inr ⟨u, hphase, hafter, rfl⟩⟩)
  have hwaiting : ∀ u : Session, u.phase = .waiting → u.since = s.since →
      Reaches (step hub published) Proceeds
        (fun t => t.since = s.since ∧ t.PassOver hub published) u := by
    intro u hphase hsince
    have hstep : u.step hub published .wake = some { u with phase := .reading } := by
      simp only [step, hphase]
    exact .next (a := .wake) trivial hstep (hreading _ rfl hsince)
  cases hphase : s.phase with
  | absent => exact absurd hphase hopen.1
  | reading => grind
  | sending frames => exact (sends_out hphase).trans fun t ht => hwaiting t ht.1 ht.2.2
  | waiting => grind
  | closed => exact absurd hphase hopen.2

end Progress

end Session

end RustUma.Api
