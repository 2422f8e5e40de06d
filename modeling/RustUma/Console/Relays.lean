import RustUma.Console.Registry
import RustUma.Found.Run

/-!
# Relays (`src/console/server.rs` `admin_node_action`, `admin_node_release`)

A relay serves other edges only. The handlers refuse most actions on it, the registry answers its
heartbeats with nothing to do and leaves it out of the public list; the role is kept in
`nodes.json`.
-/

namespace RustUma.Console

open RustUma.Found

/-! ## Requests -/

inductive NodeAction
  | relay
  | unrelay
  | drain
  | undrain
  | disable
  | enable
  | forget
  | unknown
  deriving DecidableEq

def NodeAction.guarded : NodeAction → Bool
  | .drain | .undrain | .disable | .enable | .forget => true
  | _ => false

inductive AdminReply
  | ok
  | bad (message : String)
  | conflict (message : String)
  | notFound (message : String)
  | failed (step : SaveStep)
  deriving DecidableEq

def AdminReply.ofKnown : Except SaveStep Bool → AdminReply
  | .ok true => .ok
  | .ok false => .notFound "unknown node"
  | .error step => .failed step

def AdminReply.ofDone : Except SaveStep Unit → AdminReply
  | .ok _ => .ok
  | .error step => .failed step

namespace Registry

def reply (result : Registry × Except SaveStep Bool) : Registry × AdminReply :=
  (result.1, .ofKnown result.2)

def onInner (r : Registry) (result : Inner × Bool) : Registry × AdminReply :=
  ({ r with inner := result.1 }, .ofKnown (.ok result.2))

def adminNodeAction (r : Registry) (id : String) (action : NodeAction) : Registry × AdminReply :=
  if action.guarded && r.inner.isRelay id then (r, .conflict "relay node: unrelay first")
  else
    match action with
    | .relay => reply (r.setRelay id true none)
    | .unrelay => reply (r.setRelay id false none)
    | .drain => r.onInner (r.inner.setDrain id true)
    | .undrain => r.onInner (r.inner.setDrain id false)
    | .disable => reply (r.setDisabled id true none)
    | .enable => reply (r.setDisabled id false none)
    | .forget => reply (r.forget id none)
    | .unknown => (r, .bad "unknown action")

def adminNodeRelease (r : Registry) (id : String) (count : ℕ) : Registry × AdminReply :=
  if 100000 < count then (r, .bad "count too large")
  else if r.inner.isRelay id then (r, .conflict "relay node: unrelay first")
  else r.onInner (r.inner.requestRelease id count)

def adminNodeNote (r : Registry) (id note : String) : Registry × AdminReply :=
  reply (r.setNote id note none)

def adminBalanceSet (r : Registry) (enabled : Bool) : Registry × AdminReply :=
  let (r, result) := r.setAutoBalance enabled none
  (r, .ofDone result)

end Registry

inductive RegistryAction
  | action (id : String) (action : NodeAction)
  | release (id : String) (count : ℕ)
  | note (id note : String)
  | balance (enabled : Bool)
  | heartbeat (hb : Heartbeat) (remoteIp : String) (now : ℕ)
  | restart
  deriving DecidableEq

namespace Registry

def step (config : RegistryConfig) (r : Registry) : RegistryAction → Option Registry
  | .action id action => some (r.adminNodeAction id action).1
  | .release id count => some (r.adminNodeRelease id count).1
  | .note id note => some (r.adminNodeNote id note).1
  | .balance enabled => some (r.adminBalanceSet enabled).1
  | .heartbeat hb remoteIp now =>
    some { r with inner := (r.inner.heartbeat config hb remoteIp now).1 }
  | .restart => some (.open r.file)

/-! ## The administration of an id -/

def Saved (r : Registry) : Prop := r.file.content.getD .default = r.inner.toFile

lemma saved_open (file : JsonFile NodesFile) : (Registry.open file).Saved := rfl

end Registry

def NodeAction.edit? : NodeAction → Option (NodeAdmin → NodeAdmin)
  | .relay => some (.withRelay true)
  | .unrelay => some (.withRelay false)
  | .disable => some (.withDisabled true)
  | .enable => some (.withDisabled false)
  | _ => none

def RegistryAction.edit? (id : String) : RegistryAction → Option (NodeAdmin → NodeAdmin)
  | .action id' act => if id' = id then act.edit? else none
  | .note id' text => if id' = id then some (.withNote text) else none
  | _ => none

inductive EntryStep (r : Registry) (id : String) (a : RegistryAction) : Option NodeAdmin → Prop
  | keep : EntryStep r id a (r.inner.admin.get? id)
  | edit (f : NodeAdmin → NodeAdmin) (hf : a.edit? id = some f)
      (hguard : a = .action id .enable → r.inner.isRelay id = false) :
      EntryStep r id a (some (f (r.inner.adminOf id)))
  | forget (ha : a = .action id .forget) (hguard : r.inner.isRelay id = false) :
      EntryStep r id a none

section Frame

variable {config : RegistryConfig} {inner : Inner} {r r' : Registry} {id : String}
  {a : RegistryAction}

lemma Inner.decideRelease_toFile (id : String) (now : ℕ) :
    (inner.decideRelease config id now).1.toFile = inner.toFile := by
  unfold Inner.decideRelease
  dsimp only
  split
  · rfl
  · split_ifs <;> rfl

lemma Inner.heartbeat_toFile (hb : Heartbeat) (remoteIp : String) (now : ℕ) :
    (inner.heartbeat config hb remoteIp now).1.toFile = inner.toFile := by
  unfold Inner.heartbeat
  dsimp only
  split_ifs
  · rfl
  · exact Inner.decideRelease_toFile _ _

lemma Inner.modifyNode_toFile (id : String) (f : Node → Node) :
    (inner.modifyNode id f).1.toFile = inner.toFile := by
  unfold Inner.modifyNode
  cases inner.nodes.get? id <;> rfl

namespace Registry

lemma Saved.onInner (h : r.Saved) {result : Inner × Bool}
    (hresult : result.1.toFile = r.inner.toFile) : (r.onInner result).1.Saved := by
  exact h.trans hresult.symm

lemma Saved.mutateAdmin (h : r.Saved) (id : String) (f : NodeAdmin → NodeAdmin) :
    (r.mutateAdmin id f none).1.Saved := by
  unfold Registry.mutateAdmin
  split_ifs
  · rfl
  · exact h

lemma Saved.step (h : r.Saved) (hstep : r.step config a = some r') : r'.Saved := by
  cases a with
  | action id action =>
    cases hstep
    unfold adminNodeAction
    split_ifs
    · exact h
    · cases action with
      | relay => exact h.mutateAdmin _ _
      | unrelay => exact h.mutateAdmin _ _
      | drain => exact h.onInner (Inner.modifyNode_toFile _ _)
      | undrain => exact h.onInner (Inner.modifyNode_toFile _ _)
      | disable => exact h.mutateAdmin _ _
      | enable => exact h.mutateAdmin _ _
      | forget =>
        unfold Registry.forget
        split_ifs
        · rfl
        · exact h
      | unknown => exact h
  | release id count =>
    cases hstep
    unfold adminNodeRelease
    split_ifs
    · exact h
    · exact h
    · exact h.onInner (Inner.modifyNode_toFile _ _)
  | note id note =>
    cases hstep
    exact h.mutateAdmin _ _
  | balance enabled =>
    cases hstep
    rfl
  | heartbeat hb remoteIp now =>
    cases hstep
    exact h.trans (Inner.heartbeat_toFile _ _ _).symm
  | restart =>
    cases hstep
    exact saved_open _

end Registry

lemma EntryStep.mutateAdmin {id' : String} {f : NodeAdmin → NodeAdmin}
    (hf : id' = id → a.edit? id = some f)
    (hguard : a = .action id .enable → r.inner.isRelay id = false) :
    EntryStep r id a ((r.mutateAdmin id' f none).1.inner.admin.get? id) := by
  unfold Registry.mutateAdmin
  split_ifs
  · show EntryStep r id a ((r.inner.admin.put id' (f (r.inner.adminOf id'))).get? id)
    rw [Table.get?_put]
    split_ifs with hid
    · subst hid
      exact .edit f (hf rfl) hguard
    · exact .keep
  · exact .keep

lemma EntryStep.of_toFile (h : inner.toFile = r.inner.toFile) :
    EntryStep r id a (inner.admin.get? id) := by
  have hadmin : inner.admin = r.inner.admin := congrArg NodesFile.nodes h
  rw [hadmin]
  exact .keep

lemma step_entry (hsaved : r.Saved) (hstep : r.step config a = some r') :
    EntryStep r id a (r'.inner.admin.get? id) := by
  cases a with
  | action id' action =>
    cases hstep
    unfold Registry.adminNodeAction
    split_ifs with hguarded
    · exact .keep
    · have hedit : ∀ f, action.edit? = some f →
          id' = id → (RegistryAction.action id' action).edit? id = some f := by
        rintro f hf rfl
        exact (if_pos rfl).trans hf
      have hguard : ∀ target : NodeAction, target.guarded = true →
          RegistryAction.action id' action = .action id target → r.inner.isRelay id = false := by
        grind
      cases action with
      | relay | unrelay => exact .mutateAdmin (hedit _ rfl) (hguard _ rfl)
      | drain | undrain => exact .of_toFile (Inner.modifyNode_toFile _ _)
      | disable | enable => exact .mutateAdmin (hedit _ rfl) (hguard _ rfl)
      | forget =>
        unfold Registry.forget
        split_ifs
        · show EntryStep r id _ ((r.inner.admin.erase id').get? id)
          by_cases hid : id = id'
          · subst hid
            rw [Table.get?_erase_self]
            exact .forget rfl (hguard .forget rfl rfl)
          · rw [Table.get?_erase_of_ne hid]
            exact .keep
        · exact .keep
      | unknown => exact .keep
  | release id' count =>
    cases hstep
    unfold Registry.adminNodeRelease
    split_ifs
    · exact .keep
    · exact .keep
    · exact .of_toFile (Inner.modifyNode_toFile _ _)
  | note id' note =>
    cases hstep
    exact .mutateAdmin (fun hid => if_pos hid) fun ha => by cases ha
  | balance enabled =>
    cases hstep
    exact .keep
  | heartbeat hb remoteIp now =>
    cases hstep
    exact .of_toFile (Inner.heartbeat_toFile _ _ _)
  | restart =>
    cases hstep
    exact .of_toFile hsaved

end Frame

/-! ## Runs -/

def Registry.HasRole (r : Registry) (id : String) : Prop :=
  r.Saved ∧ ∃ admin, r.inner.admin.get? id = some admin ∧ admin.relay = true

def Registry.KeptOut (r : Registry) (id : String) : Prop :=
  r.Saved ∧ ∃ admin, r.inner.admin.get? id = some admin ∧
    (admin.relay = true ∨ admin.disabled = true)

section Runs

variable {config : RegistryConfig} {r r' : Registry} {id : String} {a : RegistryAction}

variable {admin : NodeAdmin}

lemma isRelay_of_get? {inner : Inner} (h : inner.admin.get? id = some admin) :
    inner.isRelay id = admin.relay := by
  unfold Inner.isRelay
  rw [h]
  rfl

lemma known_of_get? {inner : Inner} (h : inner.admin.get? id = some admin) :
    inner.known id = true := by
  unfold Inner.known
  simp_all

lemma edit?_cases {f : NodeAdmin → NodeAdmin} (hf : a.edit? id = some f) :
    f = .withRelay true ∨ (a = .action id .unrelay ∧ f = .withRelay false) ∨
      f = .withDisabled true ∨ (a = .action id .enable ∧ f = .withDisabled false) ∨
      ∃ note, f = .withNote note := by
  cases a with
  | action id' action =>
    simp only [RegistryAction.edit?, Option.ite_none_right_eq_some] at hf
    obtain ⟨rfl, hf⟩ := hf
    cases action with
    | relay =>
      cases hf
      exact Or.inl rfl
    | unrelay =>
      cases hf
      simp
    | disable =>
      cases hf
      simp
    | enable =>
      cases hf
      simp
    | _ => cases hf
  | note id' text =>
    simp only [RegistryAction.edit?, Option.ite_none_right_eq_some, Option.some.injEq] at hf
    grind
  | _ => cases hf

lemma Registry.HasRole.step (h : r.HasRole id) (ha : a ≠ .action id .unrelay)
    (hstep : r.step config a = some r') : r'.HasRole id := by
  obtain ⟨hsaved, admin, hadmin, hrelay⟩ := h
  refine ⟨hsaved.step hstep, ?_⟩
  have hentry : EntryStep r id a (r'.inner.admin.get? id) := step_entry hsaved hstep
  generalize r'.inner.admin.get? id = entry at hentry ⊢
  cases hentry with
  | keep => simp_all
  | edit f hf hguard =>
    rw [Inner.adminOf_of_get? hadmin]
    refine ⟨f admin, rfl, ?_⟩
    rcases edit?_cases hf with rfl | ⟨rfl, -⟩ | rfl | ⟨-, rfl⟩ | ⟨note, rfl⟩
    · rfl
    · exact absurd rfl ha
    · exact hrelay
    · exact hrelay
    · exact hrelay
  | forget ha' hguard =>
    rw [isRelay_of_get? hadmin, hrelay] at hguard
    cases hguard

def Lifts (id : String) (r : Registry) (a : RegistryAction) : Prop :=
  ∃ action, (action = .enable ∨ action = .forget) ∧ a = .action id action ∧
    (r.adminNodeAction id action).2 = .ok

lemma Registry.KeptOut.step (h : r.KeptOut id) (ha : ¬ Lifts id r a)
    (hstep : r.step config a = some r') : r'.KeptOut id := by
  obtain ⟨hsaved, admin, hadmin, hout⟩ := h
  refine ⟨hsaved.step hstep, ?_⟩
  have hentry : EntryStep r id a (r'.inner.admin.get? id) := step_entry hsaved hstep
  generalize r'.inner.admin.get? id = entry at hentry ⊢
  -- a request that passes the guard finds the entry, and is carried out
  have hknown := known_of_get? hadmin
  cases hentry with
  | keep => simp_all
  | edit f hf hguard =>
    rw [Inner.adminOf_of_get? hadmin]
    refine ⟨f admin, rfl, ?_⟩
    rcases edit?_cases hf with rfl | ⟨-, rfl⟩ | rfl | ⟨rfl, -⟩ | ⟨note, rfl⟩
    · exact Or.inl rfl
    · exact Or.inr (Bool.or_true _)
    · exact Or.inr rfl
    · refine absurd ⟨.enable, Or.inl rfl, rfl, ?_⟩ ha
      simp [adminNodeAction, hguard rfl, reply, setDisabled, mutateAdmin, hknown, persist,
        saveJson, AdminReply.ofKnown, Except.map]
    · exact hout
  | forget ha' hguard =>
    refine absurd ⟨.forget, Or.inr rfl, ha', ?_⟩ ha
    simp [adminNodeAction, hguard, reply, Registry.forget, hknown, persist, saveJson,
      AdminReply.ofKnown, Except.map]

lemma Registry.HasRole.keptOut (h : r.HasRole id) : r.KeptOut id := by
  obtain ⟨hsaved, admin, hadmin, hrelay⟩ := h
  exact ⟨hsaved, admin, hadmin, Or.inl hrelay⟩

lemma Registry.get?_of_mutateAdmin {f : NodeAdmin → NodeAdmin}
    (h : reply (r.mutateAdmin id f none) = (r', .ok)) :
    r'.inner.admin.get? id = some (f (r.inner.adminOf id)) := by
  unfold Registry.mutateAdmin at h
  split_ifs at h
  · cases h
    exact Table.get?_put_self _ _ _
  · cases h

lemma Registry.Saved.hasRole (hsaved : r.Saved) (config : RegistryConfig)
    (h : r.adminNodeAction id .relay = (r', .ok)) : r'.HasRole id := by
  have hstep : r.step config (.action id .relay) = some r' := congrArg (some ∘ Prod.fst) h
  exact ⟨hsaved.step hstep, _, get?_of_mutateAdmin h, rfl⟩

lemma Registry.Saved.keptOut (hsaved : r.Saved) (config : RegistryConfig)
    (h : r.adminNodeAction id .unrelay = (r', .ok)) : r'.KeptOut id := by
  have hstep : r.step config (.action id .unrelay) = some r' := congrArg (some ∘ Prod.fst) h
  exact ⟨hsaved.step hstep, _, get?_of_mutateAdmin h, Or.inr (Bool.or_true _)⟩

lemma Inner.statusOf_ne_serving (config : RegistryConfig) (now : ℕ) (node : Node)
    (h : admin.relay = true ∨ admin.disabled = true) :
    statusOf config now node admin ≠ .serving := by
  unfold statusOf
  grind

lemma Registry.KeptOut.not_listed (h : r.KeptOut id) (now ttlS : ℕ)
    {shuffle : List PublicNode → List PublicNode} (hshuffle : ∀ l, (shuffle l).Perm l) :
    ∀ p ∈ (r.inner.publicList config now shuffle ttlS).nodes, p.nodeId ≠ id := by
  rintro p hp rfl
  obtain ⟨-, admin, hadmin, hout⟩ := h
  have hmem : p ∈ (r.inner.serving config now).map Inner.publicNode :=
    (hshuffle _).mem_iff.mp ((List.mergeSort_perm _ _).mem_iff.mp hp)
  obtain ⟨node, hnode, rfl⟩ := List.mem_map.mp hmem
  have hadminOf : r.inner.adminOf node.heartbeat.nodeId = admin := Inner.adminOf_of_get? hadmin
  have hstatus : r.inner.status config now node = .serving := by
    simpa using (List.mem_filter.mp hnode).2
  exact Inner.statusOf_ne_serving config now node hout (hadminOf ▸ hstatus)

lemma Registry.HasRole.not_disturbed (h : r.HasRole id) {hb : Heartbeat} (hid : hb.nodeId = id)
    (remoteIp : String) (now : ℕ) :
    (r.inner.heartbeat config hb remoteIp now).2.desiredDrain = false ∧
      (r.inner.heartbeat config hb remoteIp now).2.release = 0 := by
  subst hid
  obtain ⟨-, admin, hadmin, hrelay⟩ := h
  grind [Inner.adminOf_of_get?, Inner.heartbeat]

end Runs

theorem relay_is_left_alone (config : RegistryConfig) (file : JsonFile NodesFile) (id : String)
    {as bs : List RegistryAction} {r r₁ r₂ : Registry}
    (hr : run (Registry.step config) (.open file) as = some r)
    (hr₂ : run (Registry.step config) r₁ bs = some r₂) :
    (r.adminNodeAction id .relay = (r₁, .ok) → (∀ b ∈ bs, b ≠ .action id .unrelay) →
      (∀ now ttlS shuffle, (∀ l, (shuffle l).Perm l) →
        ∀ p ∈ (r₂.inner.publicList config now shuffle ttlS).nodes, p.nodeId ≠ id) ∧
      ∀ hb remoteIp now, hb.nodeId = id →
        (r₂.inner.heartbeat config hb remoteIp now).2.desiredDrain = false ∧
          (r₂.inner.heartbeat config hb remoteIp now).2.release = 0) ∧
    (r.adminNodeAction id .unrelay = (r₁, .ok) →
      AllSteps (Registry.step config) (fun s b => ¬ Lifts id s b) r₁ bs →
      ∀ now ttlS shuffle, (∀ l, (shuffle l).Perm l) →
        ∀ p ∈ (r₂.inner.publicList config now shuffle ttlS).nodes, p.nodeId ≠ id) := by
  have hsaved : r.Saved :=
    run_invariant_of_step (fun _ _ _ h hstep => h.step hstep)
      (Registry.saved_open file) hr
  refine ⟨fun hrelay hbs => ?_, fun hunrelay hbs => ?_⟩
  · have hrole : r₂.HasRole id :=
      run_invariant (I := fun s => s.HasRole id) (fun _ _ _ h hb hstep => h.step hb hstep)
        (hsaved.hasRole config hrelay) (allSteps_of_forall hbs r₁) hr₂
    refine ⟨fun now ttlS shuffle hshuffle => ?_, fun hb remoteIp now hid => ?_⟩
    · exact hrole.keptOut.not_listed now ttlS hshuffle
    · exact hrole.not_disturbed hid remoteIp now
  · have hout : r₂.KeptOut id :=
      run_invariant (I := fun s => s.KeptOut id) (fun _ _ _ h hb hstep => h.step hb hstep)
        (hsaved.keptOut config hunrelay) hbs hr₂
    intro now ttlS shuffle hshuffle
    exact hout.not_listed now ttlS hshuffle

def testHeartbeat (id : String) : Heartbeat :=
  { nodeId := id, startedAtMs := 1, ready := true, maxClients := 100, port := 8012 }

/-- Two nodes report and one is made a relay. It is to be enabled, drained and released, and the
console restarts; when both nodes have reported again, the public list has the other one only. -/
theorem relay_survives_restart :
    let config : RegistryConfig := ⟨15000, fun _ _ _ => 0⟩
    ∃ r r₁ r₂, run (Registry.step config) (.open ⟨none, .absent⟩)
        [.heartbeat (testHeartbeat "master") "10.0.0.1" 1,
          .heartbeat (testHeartbeat "edge") "10.0.0.2" 2] = some r ∧
      r.adminNodeAction "master" .relay = (r₁, .ok) ∧
      run (Registry.step config) r₁
        [.action "master" .enable, .action "master" .drain, .release "master" 10, .restart,
          .heartbeat (testHeartbeat "master") "10.0.0.1" 3,
          .heartbeat (testHeartbeat "edge") "10.0.0.2" 4] = some r₂ ∧
      ((r₂.inner.publicList config 5 id 1).nodes.map PublicNode.nodeId = ["edge"]) ∧
      (∀ p ∈ (r₂.inner.publicList config 5 id 1).nodes, p.nodeId ≠ "master") ∧
      (r₂.inner.heartbeat config (testHeartbeat "master") "10.0.0.1" 6).2.release = 0 := by
  intro config
  have hvals : ((run (Registry.step config) (.open ⟨none, .absent⟩)
        [.heartbeat (testHeartbeat "master") "10.0.0.1" 1,
          .heartbeat (testHeartbeat "edge") "10.0.0.2" 2]).bind fun r =>
      (run (Registry.step config) (r.adminNodeAction "master" .relay).1
        [.action "master" .enable, .action "master" .drain, .release "master" 10, .restart,
          .heartbeat (testHeartbeat "master") "10.0.0.1" 3,
          .heartbeat (testHeartbeat "edge") "10.0.0.2" 4]).map fun r₂ =>
        ((r.adminNodeAction "master" .relay).2,
          (r₂.inner.publicList config 5 id 1).nodes.map PublicNode.nodeId)) =
      some (.ok, ["edge"]) := by decide +kernel
  obtain ⟨r, hr, hvals⟩ := Option.bind_eq_some_iff.mp hvals
  obtain ⟨r₂, hr₂, hvals⟩ := Option.map_eq_some_iff.mp hvals
  rw [Prod.mk.injEq] at hvals
  have hrelay : r.adminNodeAction "master" .relay = ((r.adminNodeAction "master" .relay).1, .ok) :=
    Prod.ext rfl hvals.1
  obtain ⟨hlisted, hdisturbed⟩ :=
    (relay_is_left_alone config ⟨none, .absent⟩ "master" hr hr₂).1 hrelay (by decide)
  exact ⟨r, _, r₂, hr, hrelay, hr₂, hvals.2, hlisted 5 1 id fun l => .refl l,
    (hdisturbed (testHeartbeat "master") "10.0.0.1" 6 rfl).2⟩

end RustUma.Console
