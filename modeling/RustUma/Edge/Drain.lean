import RustUma.Edge.Hub
import RustUma.Edge.Server

/-!
# Draining an edge (`src/edge/server.rs` `start_drain`, `cancel_drain`)

Three flags are shared: `draining`, `drain_exits` and `drain_active`. A call of `start_drain` writes
them one after the other and spawns the loop if none holds `drain_active`; `cancel_drain` reads
`drain_exits` and then swaps `draining`; the loop reads `draining` at the top of every pass and
`drain_exits` after it has given `drain_active` back.
-/

namespace RustUma.Edge

open RustUma.Found

/-! ## Calls and loops -/

inductive StartPhase
  | storingExits
  | storingDraining
  | swapping
  | returned
  deriving DecidableEq

inductive Ending
  | cancelled
  | empty
  | deadline
  deriving DecidableEq

structure StartCall where
  exitAfter : Bool
  phase : StartPhase
  relies : Option ℕ
  cancelled : Bool
  kept : Bool
  endings : List (ℕ × Ending)
  deriving DecidableEq

inductive CancelPhase
  | loading
  | swapping
  | returned (succeeded : Bool)
  deriving DecidableEq

inductive LoopPhase
  | spawned
  | top
  | counting
  | timing
  | releasing
  | sleeping (wake : ℕ)
  | stopping (why : Ending)
  | checking (why : Ending)
  | exiting (wake : ℕ)
  | ended (why : Ending)
  deriving DecidableEq

structure DrainLoop where
  phase : LoopPhase
  deadline : ℕ
  deriving DecidableEq

structure DrainConfig where
  timeout : ℕ
  batch : ℕ
  interval : ℕ
  deriving DecidableEq

def flushMs : ℕ := 1500

structure Drain where
  draining : Bool
  exits : Bool
  active : Bool
  exited : Bool
  now : ℕ
  hub : Hub
  starts : ℕ → Option StartCall
  cancels : ℕ → Option CancelPhase
  loops : ℕ → Option DrainLoop
  holder : Option ℕ

inductive DrainAction
  | start (i : ℕ) (exitAfter : Bool)
  | startStep (i : ℕ)
  | cancel (j : ℕ)
  | cancelStep (j : ℕ)
  | loopStep (i : ℕ) (picked : List ℕ)
  | tick (ms : ℕ)
  | hub (a : HubAction)

namespace Drain

def init (ringCapacity queue : ℕ) : Drain where
  draining := false
  exits := false
  active := false
  exited := false
  now := 0
  hub := .new ringCapacity queue
  starts := fun _ => none
  cancels := fun _ => none
  loops := fun _ => none
  holder := none

def setStart (s : Drain) (i : ℕ) (c : StartCall) : Drain :=
  { s with starts := Function.update s.starts i (some c) }

def setCancel (s : Drain) (j : ℕ) (phase : CancelPhase) : Drain :=
  { s with cancels := Function.update s.cancels j (some phase) }

def setLoop (s : Drain) (i : ℕ) (l : DrainLoop) : Drain :=
  { s with loops := Function.update s.loops i (some l) }

def mapStarts (s : Drain) (f : StartCall → StartCall) : Drain :=
  { s with starts := fun i => (s.starts i).map f }

end Drain

def StartCall.new (exitAfter : Bool) : StartCall where
  exitAfter := exitAfter
  phase := if exitAfter then .storingExits else .storingDraining
  relies := none
  cancelled := false
  kept := false
  endings := []

def StartCall.cancel (c : StartCall) : StartCall := { c with cancelled := true, kept := false }

def StartCall.ending (i : ℕ) (why : Ending) (c : StartCall) : StartCall :=
  { c with endings := c.endings ++ [(i, why)] }

namespace Drain

def finish (s : Drain) (i : ℕ) (l : DrainLoop) (why : Ending) : Drain :=
  (s.setLoop i { l with phase := .ended why }).mapStarts (.ending i why)

def clearActive (s : Drain) : Drain := { s with active := false, holder := none }

def spawnLoop (s : Drain) (i : ℕ) : Drain :=
  { s with active := true, holder := some i }.setLoop i ⟨.spawned, 0⟩

def startNext (s : Drain) (i : ℕ) (c : StartCall) : Option Drain :=
  match c.phase with
  | .storingExits => some ({ s with exits := true }.setStart i { c with phase := .storingDraining })
  | .storingDraining =>
    some ({ s with draining := true }.setStart i { c with phase := .swapping, kept := true })
  | .swapping =>
    if s.active then some (s.setStart i { c with phase := .returned, relies := s.holder })
    else
      some ((s.spawnLoop i).setStart i { c with phase := .returned, relies := some i })
  | .returned => none

def cancelNext (s : Drain) (j : ℕ) (phase : CancelPhase) : Option Drain :=
  match phase with
  | .loading => some (s.setCancel j (if s.exits then .returned false else .swapping))
  | .swapping =>
    if s.draining then
      some (({ s with draining := false }.mapStarts .cancel).setCancel j (.returned true))
    else some (s.setCancel j (.returned false))
  | .returned _ => none

def loopNext (config : DrainConfig) (s : Drain) (i : ℕ) (l : DrainLoop) (picked : List ℕ) :
    Option Drain :=
  match l.phase with
  | .spawned => some (s.setLoop i ⟨.top, s.now + config.timeout⟩)
  | .top =>
    some (s.setLoop i
      { l with phase := if s.draining then .counting else .stopping .cancelled })
  | .counting =>
    some (s.setLoop i
      { l with phase := if s.hub.clients = 0 then .stopping .empty else .timing })
  | .timing =>
    some (s.setLoop i
      { l with phase := if l.deadline ≤ s.now then .stopping .deadline else .releasing })
  | .releasing =>
    if s.hub.Picks config.batch picked then
      some ({ s with hub := s.hub.release closeRestart picked }.setLoop i
        { l with phase := .sleeping (s.now + config.interval) })
    else none
  | .sleeping wake => if wake ≤ s.now then some (s.setLoop i { l with phase := .top }) else none
  | .stopping .cancelled => some (s.clearActive.finish i l .cancelled)
  | .stopping why => some (s.clearActive.setLoop i { l with phase := .checking why })
  | .checking why =>
    if s.exits then some (s.setLoop i { l with phase := .exiting (s.now + flushMs) })
    else some (s.finish i l why)
  | .exiting wake => if wake ≤ s.now then some { s with exited := true } else none
  | .ended _ => none

def step (config : DrainConfig) (s : Drain) (a : DrainAction) : Option Drain :=
  if s.exited then none
  else
    match a with
    | .start i exitAfter =>
      if s.starts i = none then some (s.setStart i (.new exitAfter)) else none
    | .startStep i => (s.starts i).bind (s.startNext i)
    | .cancel j => if s.cancels j = none then some (s.setCancel j .loading) else none
    | .cancelStep j => (s.cancels j).bind (s.cancelNext j)
    | .loopStep i picked => (s.loops i).bind fun l => s.loopNext config i l picked
    | .tick ms => some { s with now := s.now + ms }
    | .hub a => (s.hub.step a).map fun hub => { s with hub := hub }

inductive Moves (config : DrainConfig) (s : Drain) : DrainLoop → DrainLoop → Prop
  | begin {d : ℕ} : Moves config s ⟨.spawned, d⟩ ⟨.top, s.now + config.timeout⟩
  | goOn {d : ℕ} (h : s.draining = true) : Moves config s ⟨.top, d⟩ ⟨.counting, d⟩
  | cancelled {d : ℕ} (h : s.draining = false) : Moves config s ⟨.top, d⟩ ⟨.stopping .cancelled, d⟩
  | empty {d : ℕ} (h : s.hub.clients = 0) : Moves config s ⟨.counting, d⟩ ⟨.stopping .empty, d⟩
  | occupied {d : ℕ} (h : s.hub.clients ≠ 0) : Moves config s ⟨.counting, d⟩ ⟨.timing, d⟩
  | late {d : ℕ} (h : d ≤ s.now) : Moves config s ⟨.timing, d⟩ ⟨.stopping .deadline, d⟩
  | early {d : ℕ} (h : s.now < d) : Moves config s ⟨.timing, d⟩ ⟨.releasing, d⟩
  | wake {wake d : ℕ} (h : wake ≤ s.now) : Moves config s ⟨.sleeping wake, d⟩ ⟨.top, d⟩
  | exits {why : Ending} {d : ℕ} (h : s.exits = true) :
      Moves config s ⟨.checking why, d⟩ ⟨.exiting (s.now + flushMs), d⟩

inductive Step (config : DrainConfig) (s : Drain) : DrainAction → Drain → Prop
  | start {i : ℕ} {exitAfter : Bool} (hnew : s.starts i = none) :
      Step config s (.start i exitAfter) (s.setStart i (.new exitAfter))
  | storeExits {i : ℕ} {c : StartCall} (hc : s.starts i = some c)
      (hphase : c.phase = .storingExits) :
      Step config s (.startStep i)
        ({ s with exits := true }.setStart i { c with phase := .storingDraining })
  | storeDraining {i : ℕ} {c : StartCall} (hc : s.starts i = some c)
      (hphase : c.phase = .storingDraining) :
      Step config s (.startStep i)
        ({ s with draining := true }.setStart i { c with phase := .swapping, kept := true })
  | rely {i : ℕ} {c : StartCall} (hc : s.starts i = some c) (hphase : c.phase = .swapping)
      (hactive : s.active = true) :
      Step config s (.startStep i) (s.setStart i { c with phase := .returned, relies := s.holder })
  | spawn {i : ℕ} {c : StartCall} (hc : s.starts i = some c) (hphase : c.phase = .swapping)
      (hactive : s.active = false) :
      Step config s (.startStep i)
        ((s.spawnLoop i).setStart i { c with phase := .returned, relies := some i })
  | cancel {j : ℕ} (hnew : s.cancels j = none) :
      Step config s (.cancel j) (s.setCancel j .loading)
  | look {j : ℕ} (hphase : s.cancels j = some .loading) :
      Step config s (.cancelStep j)
        (s.setCancel j (if s.exits then .returned false else .swapping))
  | succeed {j : ℕ} (hphase : s.cancels j = some .swapping) (hdraining : s.draining = true) :
      Step config s (.cancelStep j)
        (({ s with draining := false }.mapStarts .cancel).setCancel j (.returned true))
  | fail {j : ℕ} (hphase : s.cancels j = some .swapping) (hdraining : s.draining = false) :
      Step config s (.cancelStep j) (s.setCancel j (.returned false))
  | move {i : ℕ} {l l' : DrainLoop} {picked : List ℕ} (hl : s.loops i = some l)
      (hmoves : Moves config s l l') : Step config s (.loopStep i picked) (s.setLoop i l')
  | batch {i d : ℕ} {picked : List ℕ} (hl : s.loops i = some ⟨.releasing, d⟩)
      (hpicks : s.hub.Picks config.batch picked) :
      Step config s (.loopStep i picked)
        ({ s with hub := s.hub.release closeRestart picked }.setLoop i
          ⟨.sleeping (s.now + config.interval), d⟩)
  | quit {i d : ℕ} {picked : List ℕ} (hl : s.loops i = some ⟨.stopping .cancelled, d⟩) :
      Step config s (.loopStep i picked)
        (s.clearActive.finish i ⟨.stopping .cancelled, d⟩ .cancelled)
  | clear {i d : ℕ} {why : Ending} {picked : List ℕ} (hl : s.loops i = some ⟨.stopping why, d⟩)
      (hwhy : why ≠ .cancelled) :
      Step config s (.loopStep i picked) (s.clearActive.setLoop i ⟨.checking why, d⟩)
  | finish {i d : ℕ} {why : Ending} {picked : List ℕ} (hl : s.loops i = some ⟨.checking why, d⟩)
      (hexits : s.exits = false) :
      Step config s (.loopStep i picked) (s.finish i ⟨.checking why, d⟩ why)
  | exit {i wake d : ℕ} {picked : List ℕ} (hl : s.loops i = some ⟨.exiting wake, d⟩)
      (hwake : wake ≤ s.now) : Step config s (.loopStep i picked) { s with exited := true }
  | tick (ms : ℕ) : Step config s (.tick ms) { s with now := s.now + ms }
  | hub {a : HubAction} {hub : Hub} (hstep : s.hub.Step a hub) :
      Step config s (.hub a) { s with hub := hub }

variable {config : DrainConfig} {s s' : Drain}

lemma startNext_sound {i : ℕ} {c : StartCall} (hc : s.starts i = some c)
    (h : s.startNext i c = some s') :
    Step config s (.startStep i) s' := by
  unfold startNext at h
  split at h
  · next hphase =>
    cases h
    exact .storeExits hc hphase
  · next hphase =>
    cases h
    exact .storeDraining hc hphase
  · next hphase =>
    split_ifs at h with hactive
    · cases h
      exact .rely hc hphase hactive
    · cases h
      exact .spawn hc hphase (Bool.eq_false_iff.mpr hactive)
  · cases h

lemma cancelNext_sound {j : ℕ} {phase : CancelPhase} (hphase : s.cancels j = some phase)
    (h : s.cancelNext j phase = some s') :
    Step config s (.cancelStep j) s' := by
  cases phase with
  | loading =>
    cases h
    exact .look hphase
  | swapping =>
    unfold cancelNext at h
    dsimp only at h
    split_ifs at h with hdraining
    · cases h
      exact .succeed hphase hdraining
    · cases h
      exact .fail hphase (Bool.eq_false_iff.mpr hdraining)
  | returned succeeded => cases h

lemma loopNext_sound {i : ℕ} {l : DrainLoop} {picked : List ℕ} (hl : s.loops i = some l)
    (h : s.loopNext config i l picked = some s') :
    Step config s (.loopStep i picked) s' := by
  obtain ⟨phase, d⟩ := l
  cases phase with
  | spawned =>
    cases h
    exact .move hl .begin
  | top =>
    cases h
    by_cases hdraining : s.draining = true
    · rw [if_pos hdraining]
      exact .move hl (.goOn hdraining)
    · rw [if_neg hdraining]
      exact .move hl (.cancelled (Bool.eq_false_iff.mpr hdraining))
  | counting =>
    cases h
    by_cases hempty : s.hub.clients = 0
    · rw [if_pos hempty]
      exact .move hl (.empty hempty)
    · rw [if_neg hempty]
      exact .move hl (.occupied hempty)
  | timing =>
    cases h
    by_cases hlate : d ≤ s.now
    · rw [if_pos hlate]
      exact .move hl (.late hlate)
    · rw [if_neg hlate]
      exact .move hl (.early (Nat.lt_of_not_le hlate))
  | releasing =>
    simp only [loopNext, Option.ite_none_right_eq_some, Option.some.injEq] at h
    obtain ⟨hpicks, rfl⟩ := h
    exact .batch hl hpicks
  | sleeping wake =>
    simp only [loopNext, Option.ite_none_right_eq_some, Option.some.injEq] at h
    obtain ⟨hwake, rfl⟩ := h
    exact .move hl (.wake hwake)
  | stopping why =>
    cases why with
    | cancelled =>
      cases h
      exact .quit hl
    | empty =>
      cases h
      exact .clear hl (by decide)
    | deadline =>
      cases h
      exact .clear hl (by decide)
  | checking why =>
    unfold loopNext at h
    dsimp only at h
    split_ifs at h with hexits
    · cases h
      exact .move hl (.exits hexits)
    · cases h
      exact .finish hl (Bool.eq_false_iff.mpr hexits)
  | exiting wake =>
    simp only [loopNext, Option.ite_none_right_eq_some, Option.some.injEq] at h
    obtain ⟨hwake, rfl⟩ := h
    exact .exit hl hwake
  | ended why => cases h

lemma step_sound {a : DrainAction} (h : s.step config a = some s') :
    s.exited = false ∧ Step config s a s' := by
  unfold step at h
  rw [Option.ite_none_left_eq_some] at h
  obtain ⟨hexited, h⟩ := h
  refine ⟨Bool.eq_false_iff.mpr hexited, ?_⟩
  cases a with
  | start i exitAfter =>
    simp only [Option.ite_none_right_eq_some, Option.some.injEq] at h
    obtain ⟨hnew, rfl⟩ := h
    exact .start hnew
  | startStep i =>
    grind [Option.bind_eq_some_iff, startNext_sound]
  | cancel j =>
    simp only [Option.ite_none_right_eq_some, Option.some.injEq] at h
    obtain ⟨hnew, rfl⟩ := h
    exact .cancel hnew
  | cancelStep j =>
    grind [Option.bind_eq_some_iff, cancelNext_sound]
  | loopStep i picked =>
    grind [Option.bind_eq_some_iff, loopNext_sound]
  | tick ms =>
    cases h
    exact .tick ms
  | hub a =>
    obtain ⟨hub, hhub, rfl⟩ := Option.map_eq_some_iff.mp h
    exact .hub (Hub.step_sound hhub)

end Drain

/-! ## A drain that exits -/

def StartCall.Stored (c : StartCall) : Prop := c.phase = .swapping ∨ c.phase = .returned

namespace Drain

def NoLateCancel (s : Drain) : DrainAction → Prop
  | .cancelStep j => s.cancels j = some .swapping → s.exits = false
  | _ => True

instance (s : Drain) (a : DrainAction) : Decidable (s.NoLateCancel a) := by
  cases a <;> unfold NoLateCancel <;> infer_instance

def Bound (exits draining : Bool) (c : StartCall) : Prop :=
  c.exitAfter = true →
    (c.phase ≠ .storingExits → exits = true) ∧ (c.Stored → draining = true)

def Binding (s : Drain) : Prop := ∀ i c, s.starts i = some c → Bound s.exits s.draining c

variable {s : Drain} {i : ℕ}

lemma Binding.setStart (h : Binding s) {c : StartCall} (hc : Bound s.exits s.draining c) :
    Binding (s.setStart i c) := by
  intro j d hd
  rcases update_eq_some_iff.mp hd with ⟨-, rfl⟩ | ⟨-, hd⟩
  · exact hc
  · exact h j d hd

lemma Binding.mapStarts {f : StartCall → StartCall}
    (h : ∀ i c, s.starts i = some c → Bound s.exits s.draining (f c)) :
    Binding (s.mapStarts f) := by
  intro i d hd
  obtain ⟨c, hc, rfl⟩ := Option.map_eq_some_iff.mp hd
  exact h i c hc

lemma Binding.step {config : DrainConfig} {s' : Drain} {a : DrainAction} (h : Binding s)
    (hok : s.NoLateCancel a) (hstep : s.step config a = some s') : Binding s' := by
  obtain ⟨-, hsound⟩ := step_sound hstep
  have hending : ∀ {i : ℕ} {l : DrainLoop} {why : Ending} {active : Bool} {holder : Option ℕ},
      Binding (({ s with active := active, holder := holder } : Drain).finish i l why) := by
    exact Binding.mapStarts fun j c hc => h j c hc
  cases hsound with
  | @start i exitAfter hnew =>
    refine h.setStart fun hexit => ?_
    subst hexit
    exact ⟨fun hphase => absurd rfl hphase, fun hstored => by cases hstored <;> contradiction⟩
  | @storeExits i c hc hphase =>
    refine Binding.setStart (fun j d hd hexit => ?_)
      fun hexit => ?_
    · exact ⟨fun _ => rfl, (h j d hd hexit).2⟩
    · exact ⟨fun _ => rfl, fun hstored => by cases hstored <;> contradiction⟩
  | @storeDraining i c hc hphase =>
    refine Binding.setStart (fun j d hd hexit => ?_)
      fun hexit => ?_
    · exact ⟨(h j d hd hexit).1, fun _ => rfl⟩
    · refine ⟨fun _ => (h i c hc hexit).1 ?_, fun _ => rfl⟩
      rw [hphase]
      decide
  | @rely i c hc hphase hactive =>
    refine h.setStart fun hexit => ?_
    obtain ⟨hexits, hdraining⟩ := h i c hc hexit
    exact ⟨fun _ => hexits (by rw [hphase]; decide), fun _ => hdraining (Or.inl hphase)⟩
  | @spawn i c hc hphase hactive =>
    refine Binding.setStart (fun j d hd => h j d hd) fun hexit => ?_
    obtain ⟨hexits, hdraining⟩ := h i c hc hexit
    exact ⟨fun _ => hexits (by rw [hphase]; decide), fun _ => hdraining (Or.inl hphase)⟩
  | cancel hnew => exact h
  | look hphase => exact h
  | succeed hphase hdraining =>
    -- no call that exits has come as far as `drain_exits`
    have hexits := hok hphase
    refine Binding.mapStarts fun j c hc hexit => ?_
    have hearly : c.phase = .storingExits := by
      by_contra hphase
      have hset := (h j c hc hexit).1 hphase
      simp_all
    refine ⟨fun hphase => absurd hearly hphase, fun hstored => ?_⟩
    change c.phase = _ ∨ c.phase = _ at hstored
    simp_all
  | fail hphase hdraining => exact h
  | move hl hmoves => exact h
  | batch hl hpicks => exact h
  | quit hl => exact hending
  | clear hl hwhy => exact h
  | finish hl hexits => exact hending
  | exit hl hwake => exact h
  | tick ms => exact h
  | hub hhub => exact h

lemma setStart_of_ne {j : ℕ} (hne : i ≠ j) (c : StartCall) :
    (s.setStart i c).starts j = s.starts j := Function.update_of_ne hne.symm _ _

lemma Step.returned {config : DrainConfig} {s' : Drain} {a : DrainAction}
    (hstep : Step config s a s') {c : StartCall} (hc : s.starts i = some c)
    (hreturned : c.phase = .returned) :
    ∃ c', s'.starts i = some c' ∧ c'.exitAfter = c.exitAfter ∧ c'.phase = .returned := by
  have hother : ∀ {j : ℕ} {d : StartCall}, s.starts j = some d → d.phase ≠ .returned → j ≠ i := by
    rintro j d hd hphase rfl
    rw [hc] at hd
    cases hd
    exact hphase hreturned
  have hsame : ∀ {j : ℕ}, j ≠ i → ∀ (t : Drain) (d : StartCall), t.starts = s.starts →
      ∃ c', (t.setStart j d).starts i = some c' ∧ c'.exitAfter = c.exitAfter ∧
        c'.phase = .returned := by
    intro j hne t d ht
    rw [setStart_of_ne hne, ht]
    exact ⟨c, hc, rfl, hreturned⟩
  have hmap : ∀ f : StartCall → StartCall, (f c).exitAfter = c.exitAfter →
      (f c).phase = c.phase → ∃ c', (s.starts i).map f = some c' ∧ c'.exitAfter = c.exitAfter ∧
        c'.phase = .returned := by
    intro f hexit hphase
    rw [hc]
    exact ⟨f c, rfl, hexit, hphase.trans hreturned⟩
  cases hstep with
  | @start j exitAfter hnew =>
    have hne : j ≠ i := by
      rintro rfl
      rw [hc] at hnew
      cases hnew
    exact hsame hne s _ rfl
  | storeExits hd hphase | storeDraining hd hphase | rely hd hphase hactive
  | spawn hd hphase hactive => exact hsame (hother hd (by rw [hphase]; decide)) _ _ rfl
  | cancel hnew => exact ⟨c, hc, rfl, hreturned⟩
  | look hphase => exact ⟨c, hc, rfl, hreturned⟩
  | succeed hphase hdraining => exact hmap _ rfl rfl
  | fail hphase hdraining => exact ⟨c, hc, rfl, hreturned⟩
  | move hl hmoves => exact ⟨c, hc, rfl, hreturned⟩
  | batch hl hpicks => exact ⟨c, hc, rfl, hreturned⟩
  | quit hl => exact hmap _ rfl rfl
  | clear hl hwhy => exact ⟨c, hc, rfl, hreturned⟩
  | finish hl hexits => exact hmap _ rfl rfl
  | exit hl hwake => exact ⟨c, hc, rfl, hreturned⟩
  | tick ms => exact ⟨c, hc, rfl, hreturned⟩
  | hub hhub => exact ⟨c, hc, rfl, hreturned⟩

end Drain

theorem exit_drain_is_irrevocable (config : DrainConfig) (ringCapacity queue : ℕ)
    {as bs : List DrainAction} {s s' : Drain}
    (hok : AllSteps (Drain.step config) Drain.NoLateCancel (.init ringCapacity queue) (as ++ bs))
    (hs : run (Drain.step config) (.init ringCapacity queue) as = some s) {i : ℕ} {c : StartCall}
    (hc : s.starts i = some c) (hexit : c.exitAfter = true) (hreturned : c.phase = .returned)
    (hs' : run (Drain.step config) s bs = some s') :
    s'.draining = true ∧ ∀ node : Node, node.draining = s'.draining →
      ready node = (503, "not ready") ∧
        ∀ query headers accepted, websocket node query headers ≠ .ok accepted := by
  have hbinding : Drain.Binding s' :=
    run_invariant (fun _ _ _ h hok hstep => h.step hok hstep)
      (fun _ _ hc => by cases hc) hok (run_append_eq_some.mpr ⟨s, hs, hs'⟩)
  obtain ⟨c', hc', hexit', hreturned'⟩ := run_invariant_of_step
    (I := fun s => ∃ c, s.starts i = some c ∧ c.exitAfter = true ∧ c.phase = .returned)
    (fun t a t' ⟨d, hd, hdexit, hdreturned⟩ hstep => by
      obtain ⟨d', hd', hsame, hphase⟩ := (Drain.step_sound hstep).2.returned hd hdreturned
      simp_all) ⟨c, hc, hexit, hreturned⟩ hs'
  have hdraining := (hbinding i c' hc' hexit').2 (Or.inr hreturned')
  grind [not_ready_of_draining, websocket_of_draining]

def testDrain : DrainConfig := ⟨1000, 1, 100⟩

/-- A console drain is cancelled; then the process is told to exit, and a cancellation that comes
after that fails. -/
theorem exit_drain_outlives_cancel :
    ∃ s s', run (Drain.step testDrain) (.init 4 2)
        [.start 0 false, .startStep 0, .startStep 0, .cancel 0, .cancelStep 0, .cancelStep 0,
          .start 1 true, .startStep 1, .startStep 1, .startStep 1] = some s ∧
      run (Drain.step testDrain) s [.cancel 1, .cancelStep 1] = some s' ∧
      s'.cancels 1 = some (.returned false) ∧ s'.draining = true := by
  refine exists_some₂_imp (P := fun s s' => ((s.starts 1).map fun c => (c.exitAfter, c.phase)) =
    some (true, .returned) ∧ s'.cancels 1 = some (.returned false)) (by decide +kernel) ?_
  rintro s s' hs hs' ⟨hcall, hcancel⟩
  obtain ⟨c, hc, hcall⟩ := Option.map_eq_some_iff.mp hcall
  simp only [Prod.mk.injEq] at hcall
  exact ⟨hcancel,
    (exit_drain_is_irrevocable testDrain 4 2 (by decide +kernel) hs hc hcall.1 hcall.2 hs').1⟩

theorem cancelled_exit_drain :
    ((run (Drain.step testDrain) (.init 4 2)
      [.cancel 0, .cancelStep 0, .start 0 true, .startStep 0, .startStep 0, .startStep 0,
        .cancelStep 0, .loopStep 0 [], .loopStep 0 []]).map fun s =>
      ((s.starts 0).map fun c => (c.exitAfter, c.phase), s.cancels 0,
        (s.exits, s.draining, (s.loops 0).map DrainLoop.phase))) =
      some (some (true, .returned), some (.returned true),
        (true, false, some (.stopping .cancelled))) ∧
    ready ⟨.new ["sa"], false, true, 0, 10⟩ = (200, "ok") ∧
    websocket ⟨.new ["sa"], false, true, 0, 10⟩ ⟨some "sa".toList, none⟩ dialHeaders =
      .ok ⟨"env", 0⟩ := by
  decide +kernel

end RustUma.Edge
