import Mathlib.Data.List.AList
import RustUma.Edge.Drain

/-!
# Handshakes under way (`src/edge/server.rs` `websocket`, `session`)

`websocket` loads `draining`, then counts the clients, and answers. The subscriber is registered by
`session`, which runs once the connection has been upgraded; neither test is made again.
-/

namespace RustUma.Edge

open RustUma.Found

/-! ## The node with its handshakes -/

structure WsRequest where
  auth : TokenSet
  query : WsQuery
  headers : Headers
  deriving DecidableEq

inductive Handshake
  | loading (request : WsRequest)
  | counting (request : WsRequest) (draining : Bool)
  | upgrading (accepted : Accepted)
  deriving DecidableEq

def WsRequest.answer (request : WsRequest) (draining : Bool) (clients maxClients : ℕ) :
    Option Handshake :=
  match websocket ⟨request.auth, draining, true, clients, maxClients⟩ request.query
      request.headers with
  | .ok accepted => some (.upgrading accepted)
  | .error _ => none

def Handshake.passed : Handshake → Bool
  | .loading _ => false
  | .counting _ draining => !draining
  | .upgrading _ => true

def Handshake.isUpgrading : Handshake → Bool
  | .upgrading _ => true
  | _ => false

structure Front where
  drain : Drain
  handshakes : AList fun _ : ℕ => Handshake
  vacated : Bool

inductive FrontAction
  | arrive (j : ℕ) (request : WsRequest)
  | loadDraining (j : ℕ)
  | loadClients (j : ℕ)
  | register (j : ℕ) (ip : String) (port connectedAtMs : ℕ)
  | abandon (j : ℕ)
  | drain (a : DrainAction)

def DrainAction.isSubscribe : DrainAction → Bool
  | .hub (.subscribe _ _) => true
  | _ => false

def Drain.findsEmpty (s : Drain) : DrainAction → Bool
  | .loopStep i _ =>
    decide ((s.loops i).map DrainLoop.phase = some .counting) && decide (s.hub.clients = 0)
  | _ => false

namespace Front

def init (ringCapacity queue : ℕ) : Front := ⟨.init ringCapacity queue, ∅, false⟩

def setHandshake (s : Front) (j : ℕ) : Option Handshake → Front
  | some h => { s with handshakes := s.handshakes.insert j h }
  | none => { s with handshakes := s.handshakes.erase j }

def step (config : DrainConfig) (maxClients : ℕ) (s : Front) : FrontAction → Option Front
  | .arrive j request =>
    if s.handshakes.lookup j = none then some (s.setHandshake j (some (.loading request))) else none
  | .loadDraining j =>
    match s.handshakes.lookup j with
    | some (.loading request) =>
      some (s.setHandshake j (some (.counting request s.drain.draining)))
    | _ => none
  | .loadClients j =>
    match s.handshakes.lookup j with
    | some (.counting request draining) =>
      some (s.setHandshake j (request.answer draining s.drain.hub.clients maxClients))
    | _ => none
  | .register j ip port connectedAtMs =>
    match s.handshakes.lookup j with
    | some (.upgrading accepted) =>
      (s.drain.step config (.hub (.subscribe accepted.replay
        ⟨ip, port, some accepted.tokenId, connectedAtMs⟩))).map fun drain =>
          { s.setHandshake j none with drain := drain }
    | _ => none
  | .abandon j => if s.handshakes.lookup j = none then none else some (s.setHandshake j none)
  | .drain a =>
    if a.isSubscribe then none
    else
      (s.drain.step config a).map fun drain =>
        { s with
          drain := drain
          vacated := drain.draining && (s.vacated || s.drain.findsEmpty a) }

inductive Step (config : DrainConfig) (maxClients : ℕ) (s : Front) : FrontAction → Front → Prop
  | wait {a : FrontAction} (j : ℕ) {h : Option Handshake} (hother : ∀ b, a ≠ .drain b)
      (hpassed : ∀ h' ∈ h, h'.passed = true → s.drain.draining = false ∨
        ∃ h₀ ∈ s.handshakes.lookup j, h₀.passed = true)
      (hroom : ∀ h' ∈ h, h'.isUpgrading = true → s.drain.hub.clients < maxClients) :
      Step config maxClients s a (s.setHandshake j h)
  | register {j port ms replay : ℕ} {ip : String} {info : ClientInfo} {accepted : Accepted}
      (hj : s.handshakes.lookup j = some (.upgrading accepted)) :
      Step config maxClients s (.register j ip port ms)
        { s.setHandshake j none with
          drain := { s.drain with hub := s.drain.hub.subscribe replay info } }
  | drain {a : DrainAction} {drain : Drain} (ha : a.isSubscribe = false)
      (hstep : s.drain.Step config a drain) :
      Step config maxClients s (.drain a)
        { s with
          drain := drain
          vacated := drain.draining && (s.vacated || s.drain.findsEmpty a) }

lemma answer_eq_some {request : WsRequest} {draining : Bool} {clients maxClients : ℕ}
    {h : Handshake} (hanswer : request.answer draining clients maxClients = some h) :
    draining = false ∧ clients < maxClients := by
  unfold WsRequest.answer at hanswer
  split at hanswer
  · next accepted haccepted =>
    obtain ⟨-, hdraining, hclients, -⟩ := websocket_eq_ok.mp haccepted
    exact ⟨hdraining, hclients⟩
  · cases hanswer

lemma step_sound {config : DrainConfig} {maxClients : ℕ} {s s' : Front} {a : FrontAction}
    (h : s.step config maxClients a = some s') : Step config maxClients s a s' := by
  cases a with
  | arrive j request =>
    simp only [step, Option.ite_none_right_eq_some, Option.some.injEq] at h
    obtain ⟨-, rfl⟩ := h
    exact .wait j nofun (by simp [Handshake.passed]) (by simp [Handshake.isUpgrading])
  | loadDraining j =>
    unfold step at h
    dsimp only at h
    split at h
    · cases h
      refine .wait j nofun (fun h' hh' hpass => Or.inl ?_) (by simp [Handshake.isUpgrading])
      obtain rfl := Option.some.inj hh'
      simpa [Handshake.passed] using hpass
    · cases h
  | loadClients j =>
    unfold step at h
    dsimp only at h
    split at h
    · next request draining hj =>
      cases h
      refine .wait j nofun (fun h' hh' _ => Or.inr ⟨_, hj, ?_⟩) fun h' hh' _ => ?_
      · rw [Handshake.passed, (answer_eq_some hh').1]
        rfl
      · exact (answer_eq_some hh').2
    · cases h
  | register j ip port ms =>
    unfold step at h
    dsimp only at h
    split at h
    · next accepted hj =>
      obtain ⟨drain, hdrain, rfl⟩ := Option.map_eq_some_iff.mp h
      obtain ⟨-, hsound⟩ := Drain.step_sound hdrain
      cases hsound with
      | hub hhub =>
        cases hhub with
        | subscribe replay info => exact .register hj
    · cases h
  | abandon j =>
    simp only [step, Option.ite_none_left_eq_some, Option.some.injEq] at h
    obtain ⟨-, rfl⟩ := h
    exact .wait j nofun nofun nofun
  | drain a =>
    simp only [step, Option.ite_none_left_eq_some] at h
    obtain ⟨ha, h⟩ := h
    obtain ⟨drain, hdrain, rfl⟩ := Option.map_eq_some_iff.mp h
    exact .drain (Bool.eq_false_iff.mpr ha) (Drain.step_sound hdrain).2

@[simp] lemma setHandshake_drain (s : Front) (j : ℕ) (h : Option Handshake) :
    (s.setHandshake j h).drain = s.drain := by cases h <;> rfl

@[simp] lemma setHandshake_vacated (s : Front) (j : ℕ) (h : Option Handshake) :
    (s.setHandshake j h).vacated = s.vacated := by cases h <;> rfl

lemma lookup_setHandshake {s : Front} {j k : ℕ} {h : Option Handshake} :
    (s.setHandshake j h).handshakes.lookup k = if k = j then h else s.handshakes.lookup k := by
  split_ifs with hk
  · subst hk
    cases h <;> simp [setHandshake]
  · cases h <;> simp [setHandshake, hk]

end Front

lemma Drain.Step.hub_eq_or_step {config : DrainConfig} {s s' : Drain} {a : DrainAction}
    (h : s.Step config a s') (ha : a.isSubscribe = false) :
    s'.hub = s.hub ∨
      ∃ b, s.hub.Step b s'.hub ∧ ∀ replay info, b ≠ .subscribe replay info := by
  cases h with
  | @batch i d picked hl hpicks =>
    exact Or.inr ⟨.release config.batch closeRestart picked, .release hpicks,
      fun _ _ hne => by cases hne⟩
  | @hub b hub hstep =>
    refine Or.inr ⟨b, hstep, ?_⟩
    rintro replay info rfl
    cases ha
  | _ => exact Or.inl rfl

lemma Drain.Step.clients_le {config : DrainConfig} {s s' : Drain} {a : DrainAction}
    (h : s.Step config a s') (ha : a.isSubscribe = false) (hordered : Ordered s.hub) :
    Ordered s'.hub ∧ s'.hub.clients ≤ s.hub.clients := by
  rcases h.hub_eq_or_step ha with hsame | ⟨b, hb, hnot⟩
  · simp_all
  · exact ⟨(hordered.step hb).1, hb.clients_le hordered hnot⟩

lemma Ordered.subscribe {s : Hub} (h : Ordered s) (replay : ℕ) (info : ClientInfo) :
    Ordered (s.subscribe replay info) := (h.step (.subscribe replay info)).1

lemma Drain.Step.of_findsEmpty {config : DrainConfig} {s s' : Drain} {a : DrainAction}
    (h : s.Step config a s') (hfinds : s.findsEmpty a = true) :
    s.hub.clients = 0 ∧ s'.draining = s.draining := by
  cases h <;>
    first
      | cases hfinds
      | exact ⟨of_decide_eq_true (Bool.and_eq_true_iff.mp hfinds).2, rfl⟩

/-! ## A drained node -/

namespace Front

def InTime (s : Front) : FrontAction → Prop
  | .drain a => s.drain.findsEmpty a = true → s.drain.draining = true →
    ∀ p ∈ s.handshakes.entries, p.2.passed = false
  | _ => True

instance (s : Front) (a : FrontAction) : Decidable (s.InTime a) := by
  cases a <;> unfold InTime <;> infer_instance

structure Vacated (s : Front) : Prop extends Ordered s.drain.hub where
  empty : s.vacated = true → s.drain.draining = true ∧ s.drain.hub.clients = 0 ∧
    ∀ j, ∀ h ∈ s.handshakes.lookup j, h.passed = false

lemma Vacated.step {config : DrainConfig} {maxClients : ℕ} {s s' : Front} {a : FrontAction}
    (h : Vacated s) (hok : s.InTime a) (hstep : s.step config maxClients a = some s') :
    Vacated s' := by
  cases step_sound hstep with
  | wait j hother hpassed hroom =>
    refine ⟨by simpa using h.toOrdered, fun hset => ?_⟩
    rw [setHandshake_vacated] at hset
    obtain ⟨hdraining, hempty, hnone⟩ := h.empty hset
    refine ⟨by simpa using hdraining, by simpa using hempty, fun k h' hk => ?_⟩
    rw [lookup_setHandshake] at hk
    split_ifs at hk with hkj
    · -- the handshake that moves finds `draining` set
      refine (Bool.not_eq_true _).mp fun hpass => ?_
      rcases hpassed h' hk hpass with hunset | ⟨h₀, hj, hpass₀⟩
      · simp [hdraining] at hunset
      · simp [hnone j h₀ hj] at hpass₀
    · exact hnone k h' hk
  | register hj =>
    refine ⟨h.toOrdered.subscribe _ _, fun hset => ?_⟩
    simpa [Handshake.passed] using (h.empty hset).2.2 _ _ hj
  | @drain a drain ha hsound =>
    obtain ⟨hordered, hle⟩ := hsound.clients_le ha h.toOrdered
    refine ⟨hordered, fun hset => ?_⟩
    rw [Bool.and_eq_true, Bool.or_eq_true] at hset
    obtain ⟨hdraining, hset | hfinds⟩ := hset
    · obtain ⟨-, hempty, hnone⟩ := h.empty hset
      exact ⟨hdraining, Nat.le_zero.mp (hle.trans_eq hempty), hnone⟩
    · obtain ⟨hzero, hwas⟩ := hsound.of_findsEmpty hfinds
      exact ⟨hdraining, Nat.le_zero.mp (hle.trans_eq hzero), fun j h' hj =>
        hok hfinds (hwas ▸ hdraining) ⟨j, h'⟩ (AList.mem_lookup_iff.mp hj)⟩

lemma vacated_of_draining {config : DrainConfig} {maxClients : ℕ} {s s' : Front}
    {a : FrontAction} (h : s.vacated = true) (hstep : s.step config maxClients a = some s')
    (hdraining : s'.drain.draining = true) : s'.vacated = true := by
  cases step_sound hstep with
  | wait j hother hpassed hroom => simpa using h
  | register hj => exact h
  | drain ha hsound => simp_all

end Front

lemma Drain.findsEmpty_of_stopping {config : DrainConfig} {s s' : Drain} {i : ℕ}
    {picked : List ℕ} (hstep : s.Step config (.loopStep i picked) s')
    (hstops : (s'.loops i).map DrainLoop.phase = some (.stopping .empty)) :
    s.findsEmpty (.loopStep i picked) = true := by
  have hphase : ∀ {phase : LoopPhase} {d : ℕ},
      (Function.update s.loops i (some ⟨phase, d⟩) i).map DrainLoop.phase =
        some (.stopping .empty) → phase = .stopping .empty := by
    simp
  cases hstep with
  | @move _ l l' _ hl hmoves =>
    have hempty : l'.phase = .stopping .empty := hphase hstops
    cases hmoves with
    | empty hzero =>
      simp only [Drain.findsEmpty, hl, hzero]
      rfl
    | _ => cases hempty
  | batch hl hpicks => cases hphase hstops
  | quit hl => cases hphase hstops
  | clear hl hwhy => cases hphase hstops
  | finish hl hexits => cases hphase hstops
  | exit hl hwake =>
    simp_all

theorem drained_node_stays_empty (config : DrainConfig) (maxClients ringCapacity queue : ℕ)
    {as bs : List FrontAction} {s t s' : Front} {i : ℕ} {picked : List ℕ}
    (hok : AllSteps (Front.step config maxClients) Front.InTime (.init ringCapacity queue)
      (as ++ .drain (.loopStep i picked) :: bs))
    (hs : run (Front.step config maxClients) (.init ringCapacity queue) as = some s)
    (ht : s.step config maxClients (.drain (.loopStep i picked)) = some t)
    (hstops : (t.drain.loops i).map DrainLoop.phase = some (.stopping .empty))
    (hs' : run (Front.step config maxClients) t bs = some s')
    (hdraining : AllSteps (Front.step config maxClients) (fun u _ => u.drain.draining = true) t bs)
    (hdraining' : s'.drain.draining = true) : s'.drain.hub.clients = 0 := by
  have hvacated : Front.Vacated s' := by
    refine run_invariant (fun _ _ _ h hok hstep => h.step hok hstep)
      ⟨ordered_new _ _, fun hset => by cases hset⟩ hok
      (run_append_eq_some.mpr ⟨s, hs, ?_⟩)
    simp_all
  refine (hvacated.empty (run_invariant
    (fun u a u' h hset hstep hset' => Front.vacated_of_draining (h hset) hstep hset')
    (fun hset => ?_) hdraining hs' hdraining')).2.1
  cases Front.step_sound ht with
  | wait j hother => exact absurd rfl (hother _)
  | drain ha hsound =>
    exact Bool.and_eq_true_iff.mpr ⟨hset, Bool.or_eq_true_iff.mpr
      (Or.inr (Drain.findsEmpty_of_stopping hsound hstops))⟩

def testRequest : WsRequest :=
  ⟨.new ["s"], ⟨some "s".toList, none⟩, ⟨none, some subprotocol.toList⟩⟩

def comes (j : ℕ) : List FrontAction :=
  [.arrive j testRequest, .loadDraining j, .loadClients j, .register j "a" 1 0]

def drains (i : ℕ) : List FrontAction :=
  [.drain (.start i false), .drain (.startStep i), .drain (.startStep i),
    .drain (.loopStep i []), .drain (.loopStep i [])]

def straggler : List FrontAction :=
  comes 0 ++ (comes 1).take 3 ++ drains 0 ++
    [.drain (.loopStep 0 []), .drain (.loopStep 0 []), .drain (.loopStep 0 [1]),
      .register 1 "b" 2 0, .drain (.tick 100), .drain (.loopStep 0 []), .drain (.loopStep 0 []),
      .drain (.loopStep 0 []), .drain (.loopStep 0 []), .drain (.loopStep 0 [2]),
      .drain (.tick 100), .drain (.loopStep 0 []), .drain (.loopStep 0 [])]

def latecomer : List FrontAction :=
  .drain (.loopStep 0 []) :: (comes 2).take 3 ++ [.drain (.loopStep 0 [])]

theorem drained_node_with_straggler :
    ∃ s t s', run (Front.step testDrain 8) (.init 4 2) straggler = some s ∧
      s.step testDrain 8 (.drain (.loopStep 0 [])) = some t ∧
      run (Front.step testDrain 8) t latecomer = some s' ∧
      s'.handshakes.lookup 2 = none ∧ s'.drain.hub.clients = 0 := by
  have hvals : ((run (Front.step testDrain 8) (.init 4 2) straggler).bind fun s =>
      (s.step testDrain 8 (.drain (.loopStep 0 []))).bind fun t =>
        (run (Front.step testDrain 8) t latecomer).map fun s' =>
          ((t.drain.loops 0).map DrainLoop.phase, s'.handshakes.lookup 2, s'.drain.draining,
            decide (AllSteps (Front.step testDrain 8) (fun u _ => u.drain.draining = true) t
              latecomer))) =
      some (some (.stopping .empty), none, true, true) := by decide +kernel
  obtain ⟨s, hs, hvals⟩ := Option.bind_eq_some_iff.mp hvals
  obtain ⟨t, ht, hvals⟩ := Option.bind_eq_some_iff.mp hvals
  obtain ⟨s', hs', hvals⟩ := Option.map_eq_some_iff.mp hvals
  simp only [Prod.mk.injEq, decide_eq_true_eq] at hvals
  obtain ⟨hstops, hhandshake, hset, hdraining⟩ := hvals
  exact ⟨s, t, s', hs, ht, hs', hhandshake,
    drained_node_stays_empty testDrain 8 4 2 (by decide +kernel) hs ht hstops hs' hdraining hset⟩

/-- **An upgrade that took longer than the drain.** A handshake is accepted before the drain begins
and registers after its loop has counted no client and returned; `draining` is still set. -/
theorem registered_after_drain :
    ∃ s, run (Front.step testDrain 8) (.init 4 2)
        ((comes 0).take 3 ++ drains 0 ++
          [.drain (.loopStep 0 []), .drain (.loopStep 0 []), .drain (.loopStep 0 []),
            .register 0 "a" 1 0]) = some s ∧
      (s.drain.loops 0).map DrainLoop.phase = some (.ended .empty) ∧
      s.drain.draining = true ∧ s.drain.hub.clients = 1 :=
  exists_some_of_any (by decide +kernel)

/-! ## The cap -/

namespace Front

def Alone (s : Front) : FrontAction → Prop
  | .register j _ _ _ => ∀ p ∈ s.handshakes.entries, p.2.isUpgrading = true → p.1 = j
  | _ => True

instance (s : Front) (a : FrontAction) : Decidable (s.Alone a) := by
  cases a <;> unfold Alone <;> infer_instance

structure Capped (maxClients : ℕ) (s : Front) : Prop extends Ordered s.drain.hub where
  le : s.drain.hub.clients ≤ maxClients
  room : ∀ j, ∀ h ∈ s.handshakes.lookup j, h.isUpgrading = true → s.drain.hub.clients < maxClients

lemma Capped.step {config : DrainConfig} {maxClients : ℕ} {s s' : Front} {a : FrontAction}
    (h : Capped maxClients s) (hok : s.Alone a)
    (hstep : s.step config maxClients a = some s') : Capped maxClients s' := by
  cases step_sound hstep with
  | wait j hother hpassed hroom =>
    refine ⟨by simpa using h.toOrdered, by simpa using h.le, fun k h' hk hup => ?_⟩
    rw [setHandshake_drain]
    rw [lookup_setHandshake] at hk
    split_ifs at hk
    · exact hroom h' hk hup
    · exact h.room k h' hk hup
  | @register j _ _ _ _ _ _ hj =>
    refine ⟨h.toOrdered.subscribe _ _, ?_, fun k h' hk hup => ?_⟩
    · rw [Hub.clients_subscribe]
      exact h.room j _ hj rfl
    · -- no other one is being upgraded
      have hk : (s.setHandshake j none).handshakes.lookup k = some h' := hk
      rw [lookup_setHandshake] at hk
      split_ifs at hk with hkj
      exact absurd (hok ⟨k, h'⟩ (AList.mem_lookup_iff.mp hk) hup) hkj
  | drain ha hsound =>
    obtain ⟨hordered, hle⟩ := hsound.clients_le ha h.toOrdered
    exact ⟨hordered, hle.trans h.le, fun k h' hk hup => hle.trans_lt (h.room k h' hk hup)⟩

end Front

/-- **The client cap holds.** Never more than `max_clients` are registered, in every run in which no
session registers between the count of another handshake and its registration. -/
theorem client_cap_holds (config : DrainConfig) (maxClients ringCapacity queue : ℕ)
    {as : List FrontAction} {s : Front}
    (hok : AllSteps (Front.step config maxClients) Front.Alone (.init ringCapacity queue) as)
    (hs : run (Front.step config maxClients) (.init ringCapacity queue) as = some s) :
    s.drain.hub.clients ≤ maxClients :=
  (run_invariant (fun _ _ _ h hok hstep => Front.Capped.step h hok hstep)
    ⟨ordered_new _ _, Nat.zero_le _, fun _ _ hj => by cases hj⟩ hok hs).le

/-- Two clients under a cap of two: a third handshake is turned away, and accepted when one of them
has gone. -/
theorem client_cap_reached :
    ∃ s, run (Front.step testDrain 2) (.init 4 2)
        (comes 0 ++ comes 1 ++ (comes 2).take 3 ++ [.drain (.hub (.unsubscribe 1))] ++ comes 2) =
        some s ∧ s.drain.hub.nextId = 4 ∧ s.drain.hub.clients ≤ 2 :=
  exists_some_imp (by decide +kernel) fun _ hs hnext =>
    ⟨hnext, client_cap_holds testDrain 2 4 2 (by decide +kernel) hs⟩

/-- **Two handshakes that counted the same clients.** Both are accepted under a cap of one, and both
register. -/
theorem registered_over_cap :
    ∃ s, run (Front.step testDrain 1) (.init 4 2)
        ((comes 0).take 3 ++ (comes 1).take 3 ++ [.register 0 "a" 1 0, .register 1 "b" 2 0]) =
        some s ∧ s.drain.hub.clients = 2 :=
  exists_some_of_any (by decide +kernel)

end RustUma.Edge
