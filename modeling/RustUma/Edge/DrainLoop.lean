import RustUma.Edge.Drain
import RustUma.Found.Reach

/-!
# Every drain has its loop

A call of `start_drain` that finds `drain_active` set leaves the drain to the loop that holds it.
That loop may have read `draining` already, or counted the clients, and be about to stop.
-/

namespace RustUma.Edge

open RustUma.Found

/-! ## Loops -/

namespace LoopPhase

def Holding : LoopPhase → Prop
  | .checking _ | .exiting _ | .ended _ => False
  | _ => True

def Ended : LoopPhase → Prop
  | .ended _ => True
  | _ => False

def Carries (exits : Bool) (clients : ℕ) : LoopPhase → Prop
  | .stopping .cancelled | .checking .cancelled | .ended .cancelled => False
  | .stopping .empty | .checking .empty => exits = true ∨ clients = 0
  | .ended .empty => clients = 0
  | _ => True

lemma Holding.not_ended {phase : LoopPhase} (h : phase.Holding) : ¬phase.Ended := by
  cases phase <;> first | exact id | exact absurd h id

lemma Carries.mono {exits exits' : Bool} {clients clients' : ℕ} {phase : LoopPhase}
    (h : phase.Carries exits clients) (hexits : exits = true → exits' = true)
    (hclients : clients = 0 → clients' = 0) : phase.Carries exits' clients' := by
  cases phase with
  | stopping why | checking why =>
    cases why with
    | cancelled => exact h
    | empty => exact h.imp hexits hclients
    | deadline => trivial
  | ended why =>
    cases why with
    | cancelled => exact h
    | empty => exact hclients h
    | deadline => trivial
  | _ => trivial

end LoopPhase

namespace Drain

section Moves

variable {config : DrainConfig} {s : Drain} {l l' : DrainLoop}

lemma Moves.holding (h : Moves config s l l') : l'.phase.Holding ↔ l.phase.Holding := by
  cases h <;> exact Iff.rfl

lemma Moves.not_ended (h : Moves config s l l') : ¬l'.phase.Ended := by
  cases h <;> exact id

lemma Moves.carries (h : Moves config s l l') (hdraining : s.draining = true) :
    l'.phase.Carries s.exits s.hub.clients := by
  cases h with
  | cancelled hnot =>
    simp_all
  | empty hempty => exact Or.inr hempty
  | _ => trivial

end Moves

/-! ## The condition -/

def Dependable (exits : Bool) (clients : ℕ) (l : DrainLoop) : Prop :=
  l.phase ≠ .stopping .cancelled ∧ (l.phase = .stopping .empty → exits = true ∨ clients = 0)

instance (exits : Bool) (clients : ℕ) (l : DrainLoop) : Decidable (Dependable exits clients l) :=
  inferInstanceAs (Decidable (_ ∧ _))

def Orderly (s : Drain) : DrainAction → Prop
  | .startStep i => ∀ c ∈ s.starts i, c.phase = .swapping →
      ∀ j ∈ s.holder, ∀ l ∈ s.loops j, Dependable s.exits s.hub.clients l
  | .hub (.subscribe _ _) => s.draining = false
  | _ => True

instance (s : Drain) : (a : DrainAction) → Decidable (s.Orderly a)
  | .startStep _ => inferInstanceAs (Decidable (∀ _ ∈ _, _ → ∀ _ ∈ _, ∀ _ ∈ _, _))
  | .hub (.subscribe ..) => inferInstanceAs (Decidable (_ = _))
  | .hub (.publish ..) | .hub (.recv ..) | .hub (.hangUp ..) | .hub (.unsubscribe ..)
  | .hub (.release ..) | .hub (.kick ..) | .start .. | .cancel _ | .cancelStep _ | .loopStep ..
  | .tick _ => .isTrue trivial

lemma carries_of_dependable {exits : Bool} {clients : ℕ} {l : DrainLoop}
    (h : Dependable exits clients l) (hholding : l.phase.Holding) :
    l.phase.Carries exits clients := by
  obtain ⟨phase, d⟩ := l
  cases phase with
  | stopping why =>
    cases why with
    | cancelled => exact absurd rfl h.1
    | empty => exact h.2 rfl
    | deadline => trivial
  | checking why => exact absurd hholding id
  | ended why => exact absurd hholding id
  | _ => trivial

/-! ## Calls -/

structure Relies (exits : Bool) (clients : ℕ) (loops : ℕ → Option DrainLoop) (c : StartCall) (i : ℕ)
    (l : DrainLoop) : Prop where
  relies : c.relies = some i
  loop : loops i = some l
  carries : c.kept = true → l.phase.Carries exits clients
  goesOn : c.kept = true → c.exitAfter = true → ¬l.phase.Ended
  recorded : ∀ why, l.phase = .ended why → (i, why) ∈ c.endings

structure Served (exits draining : Bool) (clients : ℕ) (loops : ℕ → Option DrainLoop)
    (c : StartCall) : Prop where
  marked : c.exitAfter = true → c.phase ≠ .storingExits → exits = true
  uncancelled : c.Stored → c.cancelled = false → c.kept = true
  inForce : c.kept = true → draining = true ∧ c.Stored
  loop : c.phase = .returned → ∃ i l, Relies exits clients loops c i l

structure Carried (s : Drain) : Prop extends Ordered s.hub where
  active : s.active = s.holder.isSome
  holding : ∀ i l, s.loops i = some l → (l.phase.Holding ↔ s.holder = some i)
  held : ∀ i, s.holder = some i → ∃ l, s.loops i = some l
  spawned : ∀ i l, s.loops i = some l → ∃ c, s.starts i = some c ∧ c.phase = .returned
  served : ∀ i c, s.starts i = some c → Served s.exits s.draining s.hub.clients s.loops c

lemma Relies.of_ended {exits : Bool} {clients : ℕ} {loops : ℕ → Option DrainLoop} {c : StartCall}
    {i : ℕ} {l : DrainLoop} (h : Relies exits clients loops c i l) (hkept : c.kept = true)
    (hended : l.phase.Ended) :
    (i, .deadline) ∈ c.endings ∨ (i, .empty) ∈ c.endings ∧ clients = 0 := by
  have hcarries := h.carries hkept
  cases hphase : l.phase with
  | ended why =>
    have hrecorded := h.recorded why hphase
    rw [hphase] at hcarries
    cases why with
    | cancelled => exact absurd hcarries id
    | empty => exact Or.inr ⟨hrecorded, hcarries⟩
    | deadline => exact Or.inl hrecorded
  | _ =>
    rw [hphase] at hended
    exact absurd hended id

section Served

variable {exits draining : Bool} {clients : ℕ} {loops : ℕ → Option DrainLoop} {c : StartCall}

lemma Served.mono (h : Served exits draining clients loops c) {exits' draining' : Bool}
    {clients' : ℕ} (hexits : exits = true → exits' = true)
    (hdraining : draining = true → draining' = true)
    (hclients : draining = true → clients = 0 → clients' = 0) :
    Served exits' draining' clients' loops c := by
  refine ⟨fun hexit hphase => hexits (h.marked hexit hphase), h.uncancelled,
    fun hkept => ⟨hdraining (h.inForce hkept).1, (h.inForce hkept).2⟩, fun hreturned => ?_⟩
  obtain ⟨i, l, hrelies⟩ := h.loop hreturned
  exact ⟨i, l, hrelies.relies, hrelies.loop,
    fun hkept => (hrelies.carries hkept).mono hexits (hclients (h.inForce hkept).1),
    hrelies.goesOn, hrelies.recorded⟩

lemma Served.update (h : Served exits draining clients loops c) {i : ℕ} {l l' : DrainLoop}
    (hl : loops i = some l)
    (hcarries : draining = true → l.phase.Carries exits clients → l'.phase.Carries exits clients)
    (hended : ¬l'.phase.Ended) :
    Served exits draining clients (Function.update loops i (some l')) c := by
  refine ⟨h.marked, h.uncancelled, h.inForce, fun hreturned => ?_⟩
  obtain ⟨j, d, hrelies⟩ := h.loop hreturned
  by_cases hj : j = i
  · subst hj
    have hd := hrelies.loop
    rw [hl] at hd
    cases hd
    exact ⟨j, l', hrelies.relies, Function.update_self _ _ _,
      fun hkept => hcarries (h.inForce hkept).1 (hrelies.carries hkept), fun _ _ => hended,
      fun why hwhy => absurd (by rw [hwhy]; trivial) hended⟩
  · exact ⟨j, d, hrelies.relies, (Function.update_of_ne hj _ _).trans hrelies.loop,
      hrelies.carries, hrelies.goesOn, hrelies.recorded⟩

lemma Served.finish (h : Served exits draining clients loops c) {i : ℕ} {l : DrainLoop}
    {why : Ending} (hl : loops i = some l)
    (hcarries : draining = true → l.phase.Carries exits clients →
      (LoopPhase.ended why).Carries exits clients ∧ exits = false) :
    Served exits draining clients
      (Function.update loops i (some { l with phase := .ended why })) (c.ending i why) := by
  refine ⟨h.marked, h.uncancelled, h.inForce, fun hreturned => ?_⟩
  obtain ⟨j, d, hrelies⟩ := h.loop hreturned
  by_cases hj : j = i
  · subst hj
    have hd := hrelies.loop
    rw [hl] at hd
    cases hd
    refine ⟨j, _, hrelies.relies, Function.update_self _ _ _,
      fun hkept => (hcarries (h.inForce hkept).1 (hrelies.carries hkept)).1,
      fun hkept hexit => ?_, fun why' hwhy' => ?_⟩
    · -- a call that exits has set `drain_exits`
      have hset := h.marked hexit (by rw [show c.phase = .returned from hreturned]; decide)
      rw [(hcarries (h.inForce hkept).1 (hrelies.carries hkept)).2] at hset
      cases hset
    · cases hwhy'
      exact List.mem_append_right _ List.mem_cons_self
  · exact ⟨j, d, hrelies.relies, (Function.update_of_ne hj _ _).trans hrelies.loop,
      hrelies.carries, hrelies.goesOn,
      fun why' hwhy' => List.mem_append_left _ (hrelies.recorded why' hwhy')⟩

end Served

/-! ## What every step keeps -/

namespace Carried

variable {config : DrainConfig} {s s' : Drain}

variable {i : ℕ} {c : StartCall} {l : DrainLoop}

lemma loops_eq_none (h : Carried s) (hcall : ∀ c, s.starts i = some c → c.phase ≠ .returned) :
    s.loops i = none := by
  cases hl : s.loops i with
  | none => rfl
  | some l =>
    obtain ⟨c, hc, hreturned⟩ := h.spawned i l hl
    simp_all

lemma setFlags (h : Carried s) (exits draining : Bool) (hexits : s.exits = true → exits = true)
    (hdraining : s.draining = true → draining = true) :
    Carried { s with exits := exits, draining := draining } :=
  ⟨h.toOrdered, h.active, h.holding, h.held, h.spawned,
    fun i c hc => (h.served i c hc).mono hexits hdraining fun _ => id⟩

lemma setHub (h : Carried s) {hub : Hub} (hordered : Ordered hub)
    (hclients : s.draining = true → s.hub.clients = 0 → hub.clients = 0) :
    Carried { s with hub := hub } :=
  ⟨hordered, h.active, h.holding, h.held, h.spawned,
    fun i c hc => (h.served i c hc).mono id id hclients⟩

lemma setStart (h : Carried s) (hcall : ∀ c, s.starts i = some c → c.phase ≠ .returned)
    (hserved : Served s.exits s.draining s.hub.clients s.loops c) : Carried (s.setStart i c) := by
  refine ⟨h.toOrdered, h.active, h.holding, h.held, fun j l hl => ?_, fun j d hd => ?_⟩
  · have hne : i ≠ j := by
      rintro rfl
      change s.loops i = some l at hl
      rw [h.loops_eq_none hcall] at hl
      cases hl
    rw [setStart_of_ne hne]
    exact h.spawned j l hl
  · rcases update_eq_some_iff.mp hd with ⟨-, rfl⟩ | ⟨-, hd⟩
    · exact hserved
    · exact h.served j d hd

lemma setLoops (h : Carried s) {l' : DrainLoop} {active : Bool} {holder : Option ℕ}
    {starts : ℕ → Option StartCall} (hactive : active = holder.isSome)
    (hself : l'.phase.Holding ↔ holder = some i)
    (hothers : ∀ j, j ≠ i → (s.holder = some j ↔ holder = some j))
    (hcall : ∃ c, starts i = some c ∧ c.phase = .returned)
    (hreturned : ∀ j c, s.starts j = some c → c.phase = .returned →
      ∃ c', starts j = some c' ∧ c'.phase = .returned)
    (hserved : ∀ j c, starts j = some c →
      Served s.exits s.draining s.hub.clients (Function.update s.loops i (some l')) c)
    :
    Carried { s with
      active := active
      holder := holder
      loops := Function.update s.loops i (some l')
      starts := starts } := by
  refine ⟨h.toOrdered, hactive, fun j d hd => ?_, fun j hj => ?_, fun j d hd => ?_, hserved⟩
  · rcases update_eq_some_iff.mp hd with ⟨rfl, rfl⟩ | ⟨hj, hold⟩
    · exact hself
    · exact (h.holding j d hold).trans (hothers j hj)
  · by_cases hji : j = i
    · simp_all
    · obtain ⟨d, hd⟩ := h.held j ((hothers j hji).mpr hj)
      simp_all
  · rcases update_eq_some_iff.mp hd with ⟨rfl, rfl⟩ | ⟨-, hold⟩
    · exact hcall
    · obtain ⟨c, hc, hphase⟩ := h.spawned j d hold
      simp_all

lemma setLoop (h : Carried s) {l' : DrainLoop} (hl : s.loops i = some l)
    (hholding : l'.phase.Holding ↔ l.phase.Holding)
    (hcarries : s.draining = true → l.phase.Carries s.exits s.hub.clients →
      l'.phase.Carries s.exits s.hub.clients)
    (hended : ¬l'.phase.Ended) :
    Carried (s.setLoop i l') :=
  h.setLoops h.active (hholding.trans (h.holding i l hl)) (fun _ _ => Iff.rfl)
    (h.spawned i l hl) (fun _ c hc hphase => ⟨c, hc, hphase⟩)
    fun j c hc => (h.served j c hc).update hl hcarries hended

lemma finish (h : Carried s) {why : Ending} {active : Bool} {holder : Option ℕ}
    (hl : s.loops i = some l) (hactive : active = holder.isSome) (hself : holder ≠ some i)
    (hothers : ∀ j, j ≠ i → (s.holder = some j ↔ holder = some j))
    (hcarries : s.draining = true → l.phase.Carries s.exits s.hub.clients →
      (LoopPhase.ended why).Carries s.exits s.hub.clients ∧ s.exits = false)
    :
    Carried ({ s with active := active, holder := holder }.finish i l why) := by
  have hreturned : ∀ j c, s.starts j = some c → c.phase = .returned →
      ∃ c', (s.starts j).map (StartCall.ending i why) = some c' ∧ c'.phase = .returned := by
    intro j c hc hphase
    rw [hc]
    exact ⟨c.ending i why, rfl, hphase⟩
  obtain ⟨c, hc, hphase⟩ := h.spawned i l hl
  refine h.setLoops hactive (iff_of_false id hself) hothers (hreturned i c hc hphase) hreturned
    fun j d hd => ?_
  obtain ⟨d, hold, rfl⟩ := Option.map_eq_some_iff.mp hd
  exact (h.served j d hold).finish hl hcarries

lemma spawn (h : Carried s) (hc : s.starts i = some c) (hphase : c.phase = .swapping)
    (hactive : s.active = false) :
    Carried ((s.spawnLoop i).setStart i { c with phase := .returned, relies := some i }) := by
  have hfree : s.holder = none := by
    have hnone := h.active
    simp_all
  have hnew : s.loops i = none := h.loops_eq_none fun d hd => by
    simp_all
  have hserved := h.served i c hc
  refine h.setLoops rfl (iff_of_true trivial rfl) (fun j hj => ?_)
    ⟨_, Function.update_self _ _ _, rfl⟩ (fun j d hd hreturned => ?_) fun j d hd => ?_
  · rw [hfree]
    refine iff_of_false (by simp) fun heq => hj ?_
    cases heq
    rfl
  · have hne : j ≠ i := by
      grind
    exact ⟨d, (Function.update_of_ne hne _ _).trans hd, hreturned⟩
  · rcases update_eq_some_iff.mp hd with ⟨-, rfl⟩ | ⟨-, hd⟩
    · refine ⟨fun hexit _ => hserved.marked hexit (by rw [hphase]; decide),
        fun _ => hserved.uncancelled (Or.inl hphase),
        fun hkept => ⟨(hserved.inForce hkept).1, Or.inr rfl⟩,
        fun _ => ⟨i, ⟨.spawned, 0⟩, rfl, Function.update_self _ _ _, fun _ => trivial,
          fun _ _ => id, fun why hwhy => by cases hwhy⟩⟩
    · have hold := h.served j d hd
      refine ⟨hold.marked, hold.uncancelled, hold.inForce, fun hreturned => ?_⟩
      obtain ⟨k, l, hrelies⟩ := hold.loop hreturned
      have hk : k ≠ i := by
        rintro rfl
        have hloop := hrelies.loop
        simp_all
      exact ⟨k, l, hrelies.relies, (Function.update_of_ne hk _ _).trans hrelies.loop,
        hrelies.carries, hrelies.goesOn, hrelies.recorded⟩

lemma rely (h : Carried s) (hc : s.starts i = some c) (hphase : c.phase = .swapping)
    (hactive : s.active = true) (hok : s.Orderly (.startStep i)) :
    Carried (s.setStart i { c with phase := .returned, relies := s.holder }) := by
  have hserved := h.served i c hc
  obtain ⟨j, hj⟩ : ∃ j, s.holder = some j := by
    refine Option.isSome_iff_exists.mp ?_
    rw [← h.active]
    exact hactive
  obtain ⟨l, hl⟩ := h.held j hj
  have hholding := (h.holding j l hl).mpr hj
  have hcarries := carries_of_dependable (hok c hc hphase j hj l hl) hholding
  refine h.setStart (fun d hd => ?_) ⟨fun hexit _ => hserved.marked hexit (by rw [hphase]; decide),
    fun _ => hserved.uncancelled (Or.inl hphase),
    fun hkept => ⟨(hserved.inForce hkept).1, Or.inr rfl⟩,
    fun _ => ⟨j, l, hj, hl, fun _ => hcarries, fun _ _ => hholding.not_ended, fun why hwhy => ?_⟩⟩
  · simp_all
  · exact absurd (by rw [hwhy]; trivial) hholding.not_ended

lemma cancel (h : Carried s) (j : ℕ) (phase : CancelPhase) :
    Carried (({ s with draining := false }.mapStarts .cancel).setCancel j phase) := by
  refine ⟨h.toOrdered, h.active, h.holding, h.held, fun i l hl => ?_, fun i d hd => ?_⟩
  · obtain ⟨c, hc, hreturned⟩ := h.spawned i l hl
    refine ⟨c.cancel, ?_, hreturned⟩
    show (s.starts i).map _ = _
    rw [hc]
    rfl
  · obtain ⟨c, hc, rfl⟩ := Option.map_eq_some_iff.mp hd
    have hserved := h.served i c hc
    refine ⟨hserved.marked, fun _ hnot => (by cases hnot), fun hkept => (by cases hkept),
      fun hreturned => ?_⟩
    obtain ⟨k, l, hrelies⟩ := hserved.loop hreturned
    exact ⟨k, l, hrelies.relies, hrelies.loop, fun hkept => (by cases hkept),
      fun hkept => (by cases hkept), hrelies.recorded⟩

lemma others_of_holding (h : Carried s) (hl : s.loops i = some l) (hholding : l.phase.Holding)
    (j : ℕ) (hj : j ≠ i) : s.holder = some j ↔ none = some j := by
  rw [(h.holding i l hl).mp hholding]
  grind

lemma step {a : DrainAction} (h : Carried s) (hok : s.Orderly a)
    (hstep : s.step config a = some s') : Carried s' := by
  have hstarted : ∀ {i : ℕ} {c : StartCall}, s.starts i = some c → c.phase ≠ .returned →
      ∀ d, s.starts i = some d → d.phase ≠ .returned := by
    simp_all
  cases (step_sound hstep).2 with
  | @start i exitAfter hnew =>
    refine h.setStart (fun d hd => ?_) ⟨fun hexit hphase => ?_, fun hstored => ?_,
      fun hkept => (by cases hkept), fun hreturned => ?_⟩
    · simp_all
    · subst hexit
      exact absurd rfl hphase
    · cases exitAfter <;> cases hstored <;> contradiction
    · cases exitAfter <;> cases hreturned
  | @storeExits i c hc hphase =>
    have hnext := h.setFlags true s.draining (fun _ => rfl) id
    have hserved := hnext.served i c hc
    refine hnext.setStart (hstarted hc (by rw [hphase]; decide)) ⟨fun _ _ => rfl,
      fun hstored => ?_, fun hkept => ?_, fun hreturned => by cases hreturned⟩
    · cases hstored <;> contradiction
    · have hstored := (hserved.inForce hkept).2
      unfold StartCall.Stored at hstored
      simp_all
  | @storeDraining i c hc hphase =>
    have hnext := h.setFlags s.exits true id fun _ => rfl
    exact hnext.setStart (hstarted hc (by rw [hphase]; decide))
      ⟨fun hexit _ => (h.served i c hc).marked hexit (by rw [hphase]; decide), fun _ _ => rfl,
        fun _ => ⟨rfl, Or.inl rfl⟩, fun hreturned => by cases hreturned⟩
  | rely hc hphase hactive => exact h.rely hc hphase hactive hok
  | spawn hc hphase hactive => exact h.spawn hc hphase hactive
  | cancel hnew | look hphase | fail hphase hdraining =>
    exact ⟨h.toOrdered, h.active, h.holding, h.held, h.spawned, h.served⟩
  | succeed hphase hdraining => exact h.cancel _ _
  | move hl hmoves =>
    exact h.setLoop hl hmoves.holding (fun hdraining _ => hmoves.carries hdraining)
      hmoves.not_ended
  | @batch i d picked hl hpicks =>
    have hrelease : s.hub.Step (.release config.batch closeRestart picked) _ := .release hpicks
    have hnext := h.setHub (h.toOrdered.step hrelease).1 fun _ =>
      hrelease.clients_zero h.toOrdered fun _ _ hne => by cases hne
    exact hnext.setLoop hl Iff.rfl (fun _ _ => trivial) id
  | quit hl =>
    exact h.finish hl rfl (Option.some_ne_none _).symm (h.others_of_holding hl trivial)
      fun _ hcarries => absurd hcarries id
  | @clear i d why picked hl hwhy =>
    refine h.setLoops rfl (iff_of_false id (Option.some_ne_none _).symm)
      (h.others_of_holding hl trivial) (h.spawned i _ hl)
      (fun _ c hc hphase => ⟨c, hc, hphase⟩) fun j c hc => ?_
    refine (h.served j c hc).update hl (fun _ hcarries => ?_) id
    cases why with
    | cancelled => exact absurd rfl hwhy
    | empty => exact hcarries
    | deadline => trivial
  | @finish i d why picked hl hexits =>
    have hself : s.holder ≠ some i := fun hholder => (h.holding i _ hl).mpr hholder
    refine h.finish hl h.active hself (fun _ _ => Iff.rfl) fun _ hcarries => ⟨?_, hexits⟩
    cases why with
    | cancelled => exact absurd hcarries id
    | empty => exact hcarries.resolve_left (by simp_all)
    | deadline => trivial
  | exit hl hwake | tick ms =>
    exact ⟨h.toOrdered, h.active, h.holding, h.held, h.spawned, h.served⟩
  | @hub b hub hhub =>
    refine h.setHub (h.toOrdered.step hhub).1 fun hdraining => ?_
    refine hhub.clients_zero h.toOrdered fun replay info hne => ?_
    subst hne
    change s.draining = false at hok
    simp_all

end Carried

def Announced (s : Drain) : Prop :=
  s.draining = true → ∃ i c, s.starts i = some c ∧ c.kept = true

section Announced

variable {config : DrainConfig} {s s' : Drain}

lemma announced_setStart {i : ℕ} {c' : StartCall} (h : Announced s)
    (hkept : ∀ c, s.starts i = some c → c.kept = true → c'.kept = true) :
    Announced (s.setStart i c') := by
  intro hdraining
  obtain ⟨j, c, hc, hc_kept⟩ := h hdraining
  by_cases hj : i = j
  · subst hj
    exact ⟨i, c', Function.update_self _ _ _, hkept c hc hc_kept⟩
  · exact ⟨j, c, (setStart_of_ne hj c').trans hc, hc_kept⟩

lemma Announced.step {a : DrainAction} (h : Announced s) (hstep : s.step config a = some s') :
    Announced s' := by
  have hsame : ∀ {i : ℕ} {c c' : StartCall}, s.starts i = some c → c'.kept = c.kept →
      ∀ d, s.starts i = some d → d.kept = true → c'.kept = true := by
    simp_all
  have hending : ∀ (i : ℕ) (why : Ending), s.draining = true →
      ∃ j c, (s.starts j).map (StartCall.ending i why) = some c ∧ c.kept = true := by
    intro i why hdraining
    obtain ⟨j, c, hc, hkept⟩ := h hdraining
    exact ⟨j, c.ending i why, by rw [hc]; rfl, hkept⟩
  cases (step_sound hstep).2 with
  | start hnew =>
    refine announced_setStart h fun c hc => ?_
    simp_all
  | storeExits hc hphase =>
    exact announced_setStart h (hsame hc rfl)
  | @storeDraining i c hc hphase => exact fun _ => ⟨i, _, Function.update_self _ _ _, rfl⟩
  | rely hc hphase hactive => exact announced_setStart h (hsame hc rfl)
  | @spawn i c hc hphase hactive =>
    exact announced_setStart h (hsame hc rfl)
  | succeed hphase hdraining => exact fun hnot => by cases hnot
  | quit hl => exact hending _ _
  | finish hl hexits => exact hending _ _
  | _ => exact h

end Announced

/-! ## The way out -/

structure OnWay (s : Drain) (i : ℕ) (l : DrainLoop) : Prop where
  running : s.exited = false
  exits : s.exits = true
  draining : s.draining = true
  loop : s.loops i = some l

def Own (i : ℕ) (a : DrainAction) : Prop :=
  (∃ picked, a = .loopStep i picked) ∨ ∃ ms, a = .tick ms

def Exits (config : DrainConfig) (i : ℕ) (s : Drain) : Prop :=
  Reaches (Drain.step config) (Own i) (fun s' => s'.exited = true) s

namespace OnWay

variable {config : DrainConfig} {s s' : Drain} {i d : ℕ} {l l' : DrainLoop}

lemma setLoop (h : OnWay s i l) (l' : DrainLoop) : OnWay (s.setLoop i l') i l' :=
  ⟨h.running, h.exits, h.draining, Function.update_self _ _ _⟩

lemma next (h : OnWay s i l) (picked : List ℕ) (hnext : s.loopNext config i l picked = some s')
    (hexits : Exits config i s') : Exits config i s := by
  refine Reaches.next (Or.inl ⟨picked, rfl⟩) ?_ hexits
  unfold Drain.step
  rw [if_neg (by rw [h.running]; exact Bool.false_ne_true)]
  show (s.loops i).bind _ = some s'
  rw [h.loop]
  exact hnext

lemma tick (h : OnWay s i l) (ms : ℕ) (hexits : Exits config i { s with now := s.now + ms }) :
    Exits config i s := by
  refine Reaches.next (Or.inr ⟨ms, rfl⟩) ?_ hexits
  unfold Drain.step
  rw [if_neg (by rw [h.running]; exact Bool.false_ne_true)]

lemma later (h : OnWay s i l) (ms : ℕ) : OnWay { s with now := s.now + ms } i l :=
  ⟨h.running, h.exits, h.draining, h.loop⟩

lemma exits_of_exiting {wake : ℕ} (h : OnWay s i ⟨.exiting wake, d⟩) : Exits config i s := by
  have hnext : ({ s with now := s.now + wake } : Drain).loopNext config i ⟨.exiting wake, d⟩ [] =
      some { s with now := s.now + wake, exited := true } := if_pos (Nat.le_add_left wake s.now)
  exact h.tick wake ((h.later wake).next [] hnext (.here rfl))

lemma exits_of_checking {why : Ending} (h : OnWay s i ⟨.checking why, d⟩) : Exits config i s :=
  h.next [] (if_pos h.exits) (h.setLoop _).exits_of_exiting

lemma exits_of_stopping {why : Ending} (h : OnWay s i ⟨.stopping why, d⟩)
    (hwhy : why ≠ .cancelled) : Exits config i s := by
  have hclear : OnWay s.clearActive i ⟨.stopping why, d⟩ :=
    ⟨h.running, h.exits, h.draining, h.loop⟩
  refine h.next [] ?_ (hclear.setLoop ⟨.checking why, d⟩).exits_of_checking
  cases why with
  | cancelled => exact absurd rfl hwhy
  | empty => rfl
  | deadline => rfl

lemma exits_of_timing (h : OnWay s i ⟨.timing, d⟩) : Exits config i s := by
  refine h.tick d ((h.later d).next [] rfl ?_)
  rw [if_pos (Nat.le_add_left d s.now)]
  exact ((h.later d).setLoop _).exits_of_stopping (by decide)

lemma exits_of_counting (h : OnWay s i ⟨.counting, d⟩) : Exits config i s := by
  refine h.next [] rfl ?_
  by_cases hempty : s.hub.clients = 0
  · rw [if_pos hempty]
    exact (h.setLoop _).exits_of_stopping (by decide)
  · rw [if_neg hempty]
    exact (h.setLoop _).exits_of_timing

lemma exits_of_top (h : OnWay s i ⟨.top, d⟩) : Exits config i s := by
  refine h.next [] rfl ?_
  rw [if_pos h.draining]
  exact (h.setLoop _).exits_of_counting

lemma exits_of_sleeping {wake : ℕ} (h : OnWay s i ⟨.sleeping wake, d⟩) : Exits config i s :=
  h.tick wake ((h.later wake).next [] (if_pos (Nat.le_add_left wake s.now))
    ((h.later wake).setLoop _).exits_of_top)

lemma exits_of_releasing (h : OnWay s i ⟨.releasing, d⟩) : Exits config i s := by
  obtain ⟨picked, hpicks⟩ := s.hub.exists_picks config.batch
  have hreleased : OnWay { s with hub := s.hub.release closeRestart picked } i ⟨.releasing, d⟩ :=
    ⟨h.running, h.exits, h.draining, h.loop⟩
  exact h.next picked (if_pos hpicks) (hreleased.setLoop _).exits_of_sleeping

lemma exits_of_carries (h : OnWay s i l) (hended : ¬l.phase.Ended)
    (hcarries : l.phase.Carries s.exits s.hub.clients) : Exits config i s := by
  obtain ⟨phase, d⟩ := l
  cases phase with
  | spawned => exact h.next [] rfl (h.setLoop _).exits_of_top
  | top => exact h.exits_of_top
  | counting => exact h.exits_of_counting
  | timing => exact h.exits_of_timing
  | releasing => exact h.exits_of_releasing
  | sleeping wake => exact h.exits_of_sleeping
  | stopping why =>
    refine h.exits_of_stopping ?_
    rintro rfl
    exact hcarries
  | checking why => exact h.exits_of_checking
  | exiting wake => exact h.exits_of_exiting
  | ended why => exact absurd trivial hended

end OnWay

/-! ## Every drain -/

lemma carried_init (ringCapacity queue : ℕ) : Carried (init ringCapacity queue) :=
  ⟨ordered_new ringCapacity queue, rfl, fun _ _ hl => (by cases hl), fun _ hi => (by cases hi),
    fun _ _ hl => (by cases hl), fun _ _ hc => (by cases hc)⟩

end Drain

theorem every_drain_is_carried_out (config : DrainConfig) (ringCapacity queue : ℕ)
    {as : List DrainAction} {s : Drain}
    (hok : AllSteps (Drain.step config) Drain.Orderly (.init ringCapacity queue) as)
    (hrun : run (Drain.step config) (.init ringCapacity queue) as = some s) :
    (∀ i c, s.starts i = some c → c.phase = .returned → c.cancelled = false →
      ((∃ j l, s.loops j = some l ∧ ¬l.phase.Ended) ∨
        ∃ j, (j, .empty) ∈ c.endings ∨ (j, .deadline) ∈ c.endings) ∧
      (c.exitAfter = true → s.exited = true ∨
        ∃ j l, s.loops j = some l ∧ ¬l.phase.Ended ∧ Drain.Exits config j s)) ∧
    (s.draining = true → 0 < s.hub.clients →
      (∀ i c, s.starts i = some c → c.phase ≠ .swapping) →
      (∀ j l, s.loops j = some l → l.phase.Ended) →
      ∃ i c j, s.starts i = some c ∧ c.kept = true ∧ (j, .deadline) ∈ c.endings) := by
  have hcarried : Drain.Carried s :=
    run_invariant (fun _ _ _ h hok hstep => h.step hok hstep)
      (Drain.carried_init ringCapacity queue) hok hrun
  have hannounced : Drain.Announced s :=
    run_invariant_of_step (fun _ _ _ h hstep => h.step hstep)
      (fun hnot => by cases hnot) hrun
  refine ⟨fun i c hc hreturned hcancelled => ?_, fun hdraining hclients hcalls hended => ?_⟩
  · have hserved := hcarried.served i c hc
    have hkept := hserved.uncancelled (Or.inr hreturned) hcancelled
    obtain ⟨j, l, hrelies⟩ := hserved.loop hreturned
    refine ⟨?_, fun hexit => ?_⟩
    · by_cases hended : l.phase.Ended
      · exact Or.inr ⟨j, (hrelies.of_ended hkept hended).symm.imp_left And.left⟩
      · exact Or.inl ⟨j, l, hrelies.loop, hended⟩
    · have hended := hrelies.goesOn hkept hexit
      cases hexited : s.exited with
      | true => exact Or.inl rfl
      | false =>
        have honWay : s.OnWay j l :=
          ⟨hexited, hserved.marked hexit (by rw [hreturned]; decide), (hserved.inForce hkept).1,
            hrelies.loop⟩
        exact Or.inr ⟨j, l, hrelies.loop, hended,
          honWay.exits_of_carries hended (hrelies.carries hkept)⟩
  · obtain ⟨i, c, hc, hkept⟩ := hannounced hdraining
    have hserved := hcarried.served i c hc
    have hreturned := (hserved.inForce hkept).2.resolve_left (hcalls i c hc)
    obtain ⟨j, l, hrelies⟩ := hserved.loop hreturned
    rcases hrelies.of_ended hkept (hended j l hrelies.loop) with hdeadline | ⟨-, hempty⟩
    · grind
    omega

def drainInfo : ClientInfo := ⟨"10.0.0.1", 4000, some "a", 5⟩

def underWay : List DrainAction :=
  [.hub (.subscribe 0 drainInfo), .hub (.subscribe 0 drainInfo), .start 0 false, .startStep 0,
    .startStep 0, .loopStep 0 [], .loopStep 0 [], .loopStep 0 [], .loopStep 0 [], .loopStep 0 [1]]

/-- The process is told to exit; the loop that sleeps goes on to do it. -/
theorem console_drain_upgraded_to_exit :
    ∃ s c, run (Drain.step testDrain) (.init 4 2)
        (underWay ++ [.start 1 true, .startStep 1, .startStep 1, .startStep 1]) = some s ∧
      s.starts 1 = some c ∧ c.phase = .returned ∧ s.hub.clients = 1 ∧
      ∃ j l, s.loops j = some l ∧ ¬l.phase.Ended ∧ Drain.Exits testDrain j s := by
  refine exists_some₂_imp (P := fun s c => s.exited = false ∧ s.hub.clients = 1 ∧
    c.exitAfter = true ∧ c.phase = .returned ∧ c.cancelled = false) (by decide +kernel) ?_
  rintro s c hs hc ⟨hexited, hclients, hexit, hreturned, hcancelled⟩
  have hcarried := (every_drain_is_carried_out testDrain 4 2 (by decide +kernel) hs).1 1 c hc
    hreturned hcancelled
  simp_all

theorem drain_left_to_a_leaving_loop :
    ∃ s, run (Drain.step testDrain) (.init 4 2)
        (underWay ++ [.cancel 0, .cancelStep 0, .cancelStep 0, .tick 100, .loopStep 0 [],
          .loopStep 0 [], .start 1 true, .startStep 1, .startStep 1, .startStep 1,
          .loopStep 0 []]) = some s ∧
      s.starts 1 = some ⟨true, .returned, some 0, false, true, [(0, .cancelled)]⟩ ∧
      s.draining = true ∧ s.exited = false ∧ s.hub.clients = 1 ∧
      s.loops 0 = some ⟨.ended .cancelled, testDrain.timeout⟩ ∧ s.loops 1 = none :=
  exists_some_of_any (by decide +kernel)

end RustUma.Edge
