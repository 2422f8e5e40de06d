import RustUma.Console.Balance

/-!
# Console and edge agree on a drain (`src/console/registry.rs` `heartbeat`,
`src/edge/heartbeat.rs`)

Whether a node is to drain is kept in the memory of the console, whether it does in that of the
edge. A heartbeat reports the one and is answered with the other. A node that has restarted is known
by its start time, and is not to drain any more.
-/

namespace RustUma.Cluster

open RustUma.Found RustUma.Console

/-! ## The registry seen from a node -/

def about (id : String) : RegistryAction → Bool
  | .action id' _ => id' = id
  | .release id' _ => id' = id
  | .heartbeat hb _ _ => hb.nodeId = id
  | .restart => true
  | .note _ _ | .balance _ => false

section Frame

variable {config : RegistryConfig} {inner : Inner} {r r' : Registry} {id : String}
  {a : RegistryAction} {hb : Heartbeat} {remoteIp : String} {now : ℕ}

lemma get?_decideRelease_of_ne {id' : String} (hid : id ≠ id') :
    (inner.decideRelease config id' now).1.nodes.get? id = inner.nodes.get? id := by
  rcases inner.decideRelease_nodes config id' now with heq | ⟨_, _, -, heq, -⟩
  · rw [heq]
  · rw [heq, Table.get?_put_of_ne hid]

lemma get?_heartbeat_of_ne (hid : id ≠ hb.nodeId) :
    (inner.heartbeat config hb remoteIp now).1.nodes.get? id = inner.nodes.get? id := by
  grind [Inner.heartbeat, Table.get?_put_of_ne, get?_decideRelease_of_ne]

lemma get?_modifyNode_of_ne {id' : String} (hid : id ≠ id') (f : Node → Node) :
    (inner.modifyNode id' f).1.nodes.get? id = inner.nodes.get? id := by
  unfold Inner.modifyNode
  split
  · exact Table.get?_put_of_ne hid
  · rfl

lemma mutateAdmin_nodes (id : String) (f : NodeAdmin → NodeAdmin) :
    (r.mutateAdmin id f none).1.inner.nodes = r.inner.nodes := by
  unfold Registry.mutateAdmin
  split_ifs <;> rfl

lemma get?_step (hstep : r.step config a = some r') (ha : about id a = false) :
    r'.inner.nodes.get? id = r.inner.nodes.get? id := by
  cases a with
  | action id' action =>
    cases hstep
    have hid : id ≠ id' := fun heq => of_decide_eq_false ha heq.symm
    unfold Registry.adminNodeAction
    split_ifs
    · rfl
    · cases action with
      | relay | unrelay | disable | enable => exact congrArg (·.get? id) (mutateAdmin_nodes _ _)
      | drain | undrain => exact get?_modifyNode_of_ne hid _
      | forget =>
        unfold Registry.forget
        split_ifs
        · exact Table.get?_erase_of_ne hid
        · rfl
      | unknown => rfl
  | release id' count =>
    cases hstep
    unfold Registry.adminNodeRelease
    split_ifs
    · rfl
    · rfl
    · exact get?_modifyNode_of_ne (fun heq => of_decide_eq_false ha heq.symm) _
  | note id' note =>
    cases hstep
    exact congrArg (·.get? id) (mutateAdmin_nodes _ _)
  | balance enabled =>
    cases hstep
    rfl
  | heartbeat hb remoteIp now =>
    cases hstep
    exact get?_heartbeat_of_ne fun heq => of_decide_eq_false ha heq.symm
  | restart => cases ha

lemma relay_edit {f : NodeAdmin → NodeAdmin} (hf : a.edit? id = some f)
    (ha : a ≠ .action id .relay) {admin : NodeAdmin} (h : admin.relay = false) :
    (f admin).relay = false := by
  cases a with
  | action id' action =>
    simp only [RegistryAction.edit?] at hf
    split_ifs at hf with hid
    subst hid
    cases action with
    | relay => exact absurd rfl ha
    | unrelay =>
      cases hf
      rfl
    | disable | enable =>
      cases hf
      exact h
    | drain | undrain | forget | unknown => cases hf
  | note id' note =>
    simp only [RegistryAction.edit?] at hf
    split_ifs at hf
    cases hf
    exact h
  | release | balance | heartbeat | restart => cases hf

lemma relay_step (hsaved : r.Saved) (h : (r.inner.adminOf id).relay = false)
    (hstep : r.step config a = some r') (ha : a ≠ .action id .relay) :
    (r'.inner.adminOf id).relay = false := by
  have hentry : EntryStep r id a (r'.inner.admin.get? id) := step_entry hsaved hstep
  unfold Inner.adminOf
  generalize r'.inner.admin.get? id = entry at hentry ⊢
  cases hentry with
  | keep => exact h
  | edit f hf => exact relay_edit hf ha h
  | forget => rfl

lemma heartbeat_self (config : RegistryConfig) (remoteIp : String) (now : ℕ)
    (h : (inner.adminOf hb.nodeId).relay = false) :
    ∃ node, (inner.heartbeat config hb remoteIp now).1.nodes.get? hb.nodeId = some node ∧
      node.heartbeat = hb ∧
      node.desiredDrain = (inner.heartbeat config hb remoteIp now).2.desiredDrain ∧
      ∀ before, inner.nodes.get? hb.nodeId = some before →
        before.heartbeat.startedAtMs = hb.startedAtMs →
          node.desiredDrain = before.desiredDrain := by
  have hentered : ∃ node, (inner.reported hb remoteIp now).nodes.get? hb.nodeId = some node ∧
      node.heartbeat = hb ∧
      node.desiredDrain = (inner.heartbeat config hb remoteIp now).2.desiredDrain ∧
      ∀ before, inner.nodes.get? hb.nodeId = some before →
        before.heartbeat.startedAtMs = hb.startedAtMs →
          node.desiredDrain = before.desiredDrain := by
    refine ⟨_, Table.get?_put_self _ _ _, rfl, ?_, ?_⟩
    · unfold Inner.heartbeat
      rw [if_neg (by exact ne_true_of_eq_false h)]
    simp_all
  obtain ⟨node, hget, hhb, hdrain, hsame⟩ := hentered
  rw [(Inner.heartbeat_release config remoteIp now h).1]
  rcases (inner.reported hb remoteIp now).decideRelease_nodes config hb.nodeId now with
    heq | ⟨old, new, hold, heq, hhb', hdrain', -⟩
  · simp_all
  grind [Table.get?_put_self]

end Frame

/-! ## The edge -/

structure EdgeFlags where
  draining : Bool
  drainExits : Bool
  upstreamConnected : Bool
  startedAtMs : ℕ
  deriving DecidableEq

namespace EdgeFlags

def buildHeartbeat (e : EdgeFlags) (id : String) (rest : Heartbeat) : Heartbeat :=
  { rest with
    nodeId := id
    startedAtMs := e.startedAtMs
    ready := !e.draining && e.upstreamConnected
    draining := e.draining
    upstreamConnected := e.upstreamConnected }

def startDrain (e : EdgeFlags) (exitAfter : Bool) : EdgeFlags :=
  { e with drainExits := e.drainExits || exitAfter, draining := true }

def cancelDrain (e : EdgeFlags) : EdgeFlags :=
  if e.drainExits then e else { e with draining := false }

def apply (e : EdgeFlags) (drain : Bool) : EdgeFlags :=
  if drain then if !e.draining then e.startDrain false else e
  else e.cancelDrain

lemma apply_eq {e : EdgeFlags} (h : e.drainExits = false) (drain : Bool) :
    e.apply drain = { e with draining := drain } := by
  obtain ⟨draining, drainExits, upstreamConnected, startedAtMs⟩ := e
  cases h
  cases drain <;> cases draining <;> rfl

end EdgeFlags

/-! ## Round trips -/

inductive Flight
  | built (hb : Heartbeat)
  | answered (drain : Bool)
  deriving DecidableEq

structure DrainSync where
  registry : Registry
  edge : EdgeFlags
  flight : Option (Flight × Bool)
  trips : ℕ

inductive DrainSyncAction
  | request (action : NodeAction)
  | restartConsole
  | restartEdge (startedAtMs : ℕ)
  | upstream (connected : Bool)
  | build (rest : Heartbeat)
  | handle (remoteIp : String) (now : ℕ)
  | apply
  | lose
  | other (a : RegistryAction)
  deriving DecidableEq

namespace DrainSync

def start (registry : Registry) (edge : EdgeFlags) : DrainSync := ⟨registry, edge, none, 0⟩

def disturbed (s : DrainSync) (registry : Registry) : DrainSync :=
  { s with registry := registry, flight := s.flight.map fun f => (f.1, false), trips := 0 }

def step (config : RegistryConfig) (id : String) (s : DrainSync) :
    DrainSyncAction → Option DrainSync
  | .request action =>
    if action = .relay then none else (s.registry.step config (.action id action)).map s.disturbed
  | .restartConsole => (s.registry.step config .restart).map s.disturbed
  | .restartEdge startedAtMs => some (.start s.registry ⟨false, false, false, startedAtMs⟩)
  | .upstream connected => some { s with edge := { s.edge with upstreamConnected := connected } }
  | .build rest =>
    match s.flight with
    | none => some { s with flight := some (.built (s.edge.buildHeartbeat id rest), true) }
    | some _ => none
  | .handle remoteIp now =>
    match s.flight with
    | some (.built hb, recent) =>
      (s.registry.step config (.heartbeat hb remoteIp now)).map fun r => { s with
        registry := r
        flight := some (.answered
          (s.registry.inner.heartbeat config hb remoteIp now).2.desiredDrain, recent) }
    | _ => none
  | .apply =>
    match s.flight with
    | some (.answered drain, recent) => some { s with
        edge := s.edge.apply drain
        flight := none
        trips := s.trips + if recent then 1 else 0 }
    | _ => none
  | .lose => some { s with flight := none }
  | .other a =>
    if about id a then none else (s.registry.step config a).map ({ s with registry := · })

def Known (s : DrainSync) (id : String) (drain : Bool) : Prop :=
  ∃ node, s.registry.inner.nodes.get? id = some node ∧
    node.heartbeat.startedAtMs = s.edge.startedAtMs ∧ node.desiredDrain = drain

def Reported (s : DrainSync) (id : String) : Prop :=
  ∃ node, s.registry.inner.nodes.get? id = some node ∧ node.heartbeat.nodeId = id ∧
    node.heartbeat.draining = s.edge.draining ∧
    node.heartbeat.ready = (!s.edge.draining && node.heartbeat.upstreamConnected)

structure Synced (id : String) (s : DrainSync) : Prop where
  saved : s.registry.Saved
  noRelay : (s.registry.inner.adminOf id).relay = false
  stays : s.edge.drainExits = false
  built : ∀ hb recent, s.flight = some (.built hb, recent) →
    hb.nodeId = id ∧ hb.startedAtMs = s.edge.startedAtMs ∧ hb.draining = s.edge.draining ∧
      hb.ready = (!s.edge.draining && hb.upstreamConnected)
  answered : ∀ drain, s.flight = some (.answered drain, true) → s.Known id drain ∧ s.Reported id
  recent : ∀ f, s.flight = some (f, false) → s.trips = 0
  one : 1 ≤ s.trips → s.Known id s.edge.draining
  two : 2 ≤ s.trips → s.Reported id

namespace Synced

variable {config : RegistryConfig} {id : String} {s s' : DrainSync}

lemma start {registry : Registry} {edge : EdgeFlags} (hsaved : registry.Saved)
    (hrelay : (registry.inner.adminOf id).relay = false) (hstays : edge.drainExits = false) :
    Synced id (.start registry edge) where
  saved := hsaved
  noRelay := hrelay
  stays := hstays
  built := by simp [DrainSync.start]
  answered := by simp [DrainSync.start]
  recent := by simp [DrainSync.start]
  one := by simp [DrainSync.start]
  two := by simp [DrainSync.start]

lemma disturbed (h : Synced id s) {a : RegistryAction} {r : Registry}
    (hstep : s.registry.step config a = some r) (ha : a ≠ .action id .relay) :
    Synced id (s.disturbed r) where
  saved := h.saved.step hstep
  noRelay := relay_step h.saved h.noRelay hstep ha
  stays := h.stays
  built hb recent hflight := by
    obtain ⟨⟨f, recent'⟩, hf, heq⟩ := Option.map_eq_some_iff.mp hflight
    cases heq
    exact h.built hb recent' hf
  answered drain hflight := by
    obtain ⟨f, -, heq⟩ := Option.map_eq_some_iff.mp hflight
    grind
  recent _ _ := rfl
  one htrips := absurd htrips (by simp [DrainSync.disturbed])
  two htrips := absurd htrips (by simp [DrainSync.disturbed])

lemma other (h : Synced id s) {a : RegistryAction} {r : Registry}
    (hstep : s.registry.step config a = some r) (ha : about id a = false) :
    Synced id { s with registry := r } := by
  have hget := get?_step hstep ha
  have hknown : ∀ drain, s.Known id drain → Known { s with registry := r } id drain := by
    rintro drain ⟨node, hnode, hrest⟩
    exact ⟨node, hget.trans hnode, hrest⟩
  have hreported : s.Reported id → Reported { s with registry := r } id := by
    rintro ⟨node, hnode, hrest⟩
    exact ⟨node, hget.trans hnode, hrest⟩
  have hrelay : a ≠ .action id .relay := by
    rintro rfl
    simp [about] at ha
  exact { h with
    saved := h.saved.step hstep
    noRelay := relay_step h.saved h.noRelay hstep hrelay
    answered := fun drain hflight => (h.answered drain hflight).imp (hknown drain) hreported
    one := fun htrips => hknown _ (h.one htrips)
    two := fun htrips => hreported (h.two htrips) }

lemma handle (h : Synced id s) {hb : Heartbeat} {recent : Bool}
    (hflight : s.flight = some (.built hb, recent)) {remoteIp : String} {now : ℕ} {r : Registry}
    (hstep : s.registry.step config (.heartbeat hb remoteIp now) = some r) :
    Synced id { s with
      registry := r
      flight := some (.answered
        (s.registry.inner.heartbeat config hb remoteIp now).2.desiredDrain, recent) } := by
  obtain ⟨rfl, hstarted, hdraining, hready⟩ := h.built hb recent hflight
  obtain ⟨node, hnode, rfl, hdrain, hsame⟩ := heartbeat_self config remoteIp now h.noRelay
  have hsaved := h.saved.step hstep
  have hrelay := relay_step h.saved h.noRelay hstep (by simp)
  cases hstep
  have hreported : Reported { s with registry := { s.registry with inner := _ } } _ :=
    ⟨node, hnode, rfl, hdraining, hready⟩
  constructor
  · exact hsaved
  · exact hrelay
  · exact h.stays
  · simp
  · intro drain heq
    cases heq
    exact ⟨⟨node, hnode, hstarted, hdrain⟩, hreported⟩
  · intro f heq
    cases heq
    exact h.recent _ hflight
  · intro htrips
    obtain ⟨before, hbefore, hstarted', hdrain'⟩ := h.one htrips
    exact ⟨node, hnode, hstarted,
      (hsame before hbefore (hstarted'.trans hstarted.symm)).trans hdrain'⟩
  · intro _
    exact hreported

lemma apply (h : Synced id s) {drain recent : Bool}
    (hflight : s.flight = some (.answered drain, recent)) :
    Synced id { s with
      edge := s.edge.apply drain
      flight := none
      trips := s.trips + if recent then 1 else 0 } := by
  rw [EdgeFlags.apply_eq h.stays]
  cases recent with
  | false =>
    have hzero := h.recent _ hflight
    exact { h with
      built := by simp
      answered := by simp
      recent := by simp
      one := by simp [hzero]
      two := by simp [hzero] }
  | true =>
    obtain ⟨⟨node, hnode, hstarted, hdrain⟩, node', hnode', hid, hdraining, hready⟩ :=
      h.answered drain hflight
    cases hnode.symm.trans hnode'
    refine { h with
      built := by simp
      answered := by simp
      recent := by simp
      one := fun _ => ⟨node, hnode, hstarted, hdrain⟩
      two := fun htrips => ?_ }
    obtain ⟨before, hbefore, -, hbeforeDrain⟩ := h.one (by simpa using htrips)
    cases hnode.symm.trans hbefore
    obtain rfl : drain = s.edge.draining := hdrain.symm.trans hbeforeDrain
    exact ⟨node, hnode, hid, hdraining, hready⟩

theorem step (h : Synced id s) {a : DrainSyncAction} (hstep : s.step config id a = some s') :
    Synced id s' := by
  cases a with
  | request action =>
    simp only [DrainSync.step] at hstep
    split_ifs at hstep with haction
    obtain ⟨r, hr, rfl⟩ := Option.map_eq_some_iff.mp hstep
    exact h.disturbed hr (by simpa using haction)
  | restartConsole =>
    simp only [DrainSync.step] at hstep
    obtain ⟨r, hr, rfl⟩ := Option.map_eq_some_iff.mp hstep
    exact h.disturbed hr (by simp)
  | restartEdge startedAtMs =>
    cases hstep
    exact start h.saved h.noRelay rfl
  | upstream connected =>
    cases hstep
    exact { h with }
  | build rest =>
    simp only [DrainSync.step] at hstep
    split at hstep
    · next hnone =>
      cases hstep
      refine { h with built := ?_, answered := ?_, recent := ?_ }
      · intro hb recent heq
        cases heq
        exact ⟨rfl, rfl, rfl, rfl⟩
      · simp
      simp
    · cases hstep
  | handle remoteIp now =>
    simp only [DrainSync.step] at hstep
    split at hstep
    · next hb recent hflight =>
      obtain ⟨r, hr, rfl⟩ := Option.map_eq_some_iff.mp hstep
      exact h.handle hflight hr
    · cases hstep
  | apply =>
    simp only [DrainSync.step] at hstep
    split at hstep
    · next drain recent hflight =>
      cases hstep
      exact h.apply hflight
    · cases hstep
  | lose =>
    cases hstep
    exact { h with built := by simp, answered := by simp, recent := by simp }
  | other a =>
    simp only [DrainSync.step] at hstep
    split_ifs at hstep with ha
    obtain ⟨r, hr, rfl⟩ := Option.map_eq_some_iff.mp hstep
    exact h.other hr (by simpa using ha)

end Synced

end DrainSync

lemma statusOf_eq_draining_iff {config : RegistryConfig} {now : ℕ} {node : Node} {admin : NodeAdmin}
    (hfresh : now - node.lastSeenMs ≤ config.staleAfterMs) (hrelay : admin.relay = false)
    (hdisabled : admin.disabled = false) :
    Inner.statusOf config now node admin = .draining ↔
      (node.desiredDrain || node.heartbeat.draining) = true := by
  simp only [Inner.statusOf, hfresh.not_gt, hrelay, hdisabled, if_false]
  split_ifs <;> simp_all

theorem drain_reaches_edge (config : RegistryConfig) (id : String) {registry : Registry}
    {edge : EdgeFlags} {as : List DrainSyncAction} {s : DrainSync} (hsaved : registry.Saved)
    (hrelay : (registry.inner.adminOf id).relay = false) (hstays : edge.drainExits = false)
    (hrun : run (DrainSync.step config id) (.start registry edge) as = some s)
    (htrips : 2 ≤ s.trips) :
    ∃ node, s.registry.inner.nodes.get? id = some node ∧ s.edge.draining = node.desiredDrain ∧
      node.heartbeat.draining = node.desiredDrain ∧
      node.heartbeat.ready = (!node.heartbeat.draining && node.heartbeat.upstreamConnected) ∧
      ∀ now, now - node.lastSeenMs ≤ config.staleAfterMs →
        (s.registry.inner.adminOf id).disabled = false →
          (s.registry.inner.status config now node = .draining ↔ node.desiredDrain = true) := by
  have h : s.Synced id := run_invariant_of_step (fun _ _ _ h hstep => h.step hstep)
    (.start hsaved hrelay hstays) hrun
  obtain ⟨node, hnode, -, hdrain⟩ := h.one (by omega)
  obtain ⟨node', hnode', hid, hdraining, hready⟩ := h.two htrips
  cases hnode.symm.trans hnode'
  refine ⟨node, hnode, hdrain.symm, hdraining.trans hdrain.symm, hdraining ▸ hready, ?_⟩
  intro now hfresh hdisabled
  rw [Inner.status, hid, statusOf_eq_draining_iff hfresh h.noRelay hdisabled, hdraining, hdrain,
    Bool.or_self]

/-- A node is drained; the first answer is lost, and another node reports meanwhile. -/
theorem drain_reaches_edge_after_loss :
    let config : RegistryConfig := ⟨15000, fun _ _ _ => 0⟩
    let trip : List DrainSyncAction := [.build {}, .handle "10.0.0.1" 2, .apply]
    ∃ s, run (DrainSync.step config "a") (.start (.open ⟨none, .absent⟩) ⟨false, false, true, 7⟩)
        (trip ++ [.request .drain, .build {}, .handle "10.0.0.1" 1, .lose] ++ trip ++
          [.other (.heartbeat (testHeartbeat "b") "10.0.0.2" 2)] ++ trip) = some s ∧
      s.trips = 2 ∧ s.edge.draining = true ∧ ∃ node, s.registry.inner.nodes.get? "a" = some node ∧
        s.edge.draining = node.desiredDrain ∧ node.heartbeat.draining = node.desiredDrain := by
  intro config trip
  refine exists_some_imp (P := fun s => s.trips = 2 ∧ s.edge.draining = true) (by decide +kernel) ?_
  rintro s hrun ⟨htrips, hdraining⟩
  obtain ⟨node, hnode, hedge, hreported, -⟩ := drain_reaches_edge config "a" (Registry.saved_open _)
    (by decide) rfl hrun htrips.ge
  simp_all

end RustUma.Cluster
