import RustUma.Edge.Auth
import RustUma.Edge.Hub

/-!
# Connections of revoked tokens (`src/edge/server.rs` `websocket`, `src/edge/heartbeat.rs` `apply`)

A handshake checks the token before the upgrade and registers its subscriber after it. `apply`
replaces the token set and, if that changed anything, kicks every subscriber whose token is gone.
Nothing keeps a handshake from spanning both.
-/

namespace RustUma.Edge

open RustUma.Found RustUma.Console

structure Gate where
  auth : TokenSet
  hub : Hub
  handshakes : AList fun _ : ℕ => String
  kicking : Bool

inductive GateAction
  | check (i : ℕ) (secret : String)
  | abandon (i : ℕ)
  | register (i replay : ℕ) (ip : String) (port connectedAtMs : ℕ)
  | replace (version : ℕ) (grants : List TokenGrant)
  | kick
  | publish (frame : EdgeFrame)
  | recv (id : ℕ)
  | hangUp (id : ℕ)
  | unsubscribe (id : ℕ)
  | release (n code : ℕ) (picked : List ℕ)
  deriving DecidableEq

def GateAction.hub? : GateAction → Option HubAction
  | .publish frame => some (.publish frame)
  | .recv id => some (.recv id)
  | .hangUp id => some (.hangUp id)
  | .unsubscribe id => some (.unsubscribe id)
  | .release n code picked => some (.release n code picked)
  | _ => none

namespace Gate

def start (statics : List String) (ringCapacity queue : ℕ) : Gate where
  auth := .new statics
  hub := .new ringCapacity queue
  handshakes := ∅
  kicking := false

def step (s : Gate) (a : GateAction) : Option Gate :=
  match a with
  | .check i secret =>
    match s.handshakes.lookup i, s.auth.check secret with
    | none, some id =>
      some { s with handshakes := s.handshakes.insert i id }
    | _, _ => none
  | .abandon i => some { s with handshakes := s.handshakes.erase i }
  | .register i replay ip port connectedAtMs =>
    match s.handshakes.lookup i with
    | some id =>
      some { s with
        hub := s.hub.subscribe replay ⟨ip, port, some id, connectedAtMs⟩
        handshakes := s.handshakes.erase i }
    | none => none
  | .replace version grants =>
    if s.kicking then none
    else
      some { s with
        auth := (s.auth.replace version grants).1
        kicking := (s.auth.replace version grants).2 }
  | .kick =>
    if s.kicking then
      some { s with hub := s.hub.kickTokens s.auth.isLive, kicking := false }
    else none
  | .publish frame => (s.hub.step (.publish frame)).map fun hub => { s with hub := hub }
  | .recv id => (s.hub.step (.recv id)).map fun hub => { s with hub := hub }
  | .hangUp id => (s.hub.step (.hangUp id)).map fun hub => { s with hub := hub }
  | .unsubscribe id => (s.hub.step (.unsubscribe id)).map fun hub => { s with hub := hub }
  | .release n code picked =>
    (s.hub.step (.release n code picked)).map fun hub => { s with hub := hub }

inductive Step (s : Gate) : GateAction → Gate → Prop
  | check {i : ℕ} {secret id : String} (hcheck : s.auth.check secret = some id) :
      Step s (.check i secret) { s with handshakes := s.handshakes.insert i id }
  | abandon (i : ℕ) :
      Step s (.abandon i) { s with handshakes := s.handshakes.erase i }
  | register {i replay : ℕ} {ip : String} {port connectedAtMs : ℕ} {id : String}
      (hid : s.handshakes.lookup i = some id) :
      Step s (.register i replay ip port connectedAtMs)
        { s with
          hub := s.hub.subscribe replay ⟨ip, port, some id, connectedAtMs⟩
          handshakes := s.handshakes.erase i }
  | replace {version : ℕ} {grants : List TokenGrant} (hidle : s.kicking = false) :
      Step s (.replace version grants)
        { s with
          auth := (s.auth.replace version grants).1
          kicking := (s.auth.replace version grants).2 }
  | kick (hkicking : s.kicking = true) :
      Step s .kick { s with hub := s.hub.kickTokens s.auth.isLive, kicking := false }
  | hub {a : GateAction} {b : HubAction} {hub : Hub} (ha : a.hub? = some b)
      (hstep : s.hub.Step b hub) : Step s a { s with hub := hub }

variable {s : Gate} {a : GateAction}

lemma step_sound {s' : Gate} (h : s.step a = some s') : Step s a s' := by
  have hhub : ∀ {b : HubAction}, a.hub? = some b →
      ((s.hub.step b).map fun hub => { s with hub := hub }) = some s' → Step s a s' := by
    intro b hb hstep
    obtain ⟨hub, hhub, rfl⟩ := Option.map_eq_some_iff.mp hstep
    exact .hub hb (Hub.step_sound hhub)
  cases a with
  | check i secret =>
    simp only [step] at h
    split at h
    · next hcheck =>
      cases h
      exact .check hcheck
    · cases h
  | abandon i =>
    cases h
    exact .abandon i
  | register i replay ip port connectedAtMs =>
    simp only [step] at h
    split at h
    · next hid =>
      cases h
      exact .register hid
    · cases h
  | replace version grants =>
    simp only [step, Option.ite_none_left_eq_some, Option.some.injEq] at h
    obtain ⟨hidle, rfl⟩ := h
    exact .replace (Bool.eq_false_iff.mpr hidle)
  | kick =>
    simp only [step, Option.ite_none_right_eq_some, Option.some.injEq] at h
    obtain ⟨hkicking, rfl⟩ := h
    exact .kick hkicking
  | publish frame => exact hhub rfl h
  | recv id => exact hhub rfl h
  | hangUp id => exact hhub rfl h
  | unsubscribe id => exact hhub rfl h
  | release n code picked => exact hhub rfl h

def Apart (s : Gate) : GateAction → Prop
  | .kick => ∀ p ∈ s.handshakes.entries, s.auth.isLive p.2 = true
  | .replace _ grants => ∀ grant ∈ grants, grant.id ≠ staticTokenId
  | _ => True

instance (s : Gate) (a : GateAction) : Decidable (s.Apart a) := by
  cases a <;> unfold Apart <;> infer_instance

/-! ## Live tokens -/

def HasLiveToken (set : TokenSet) (c : Client) : Prop :=
  ∃ t, c.info.tokenId = some t ∧ set.isLive t = true

lemma isLive_replace {set : TokenSet} {version : ℕ} {grants : List TokenGrant}
    (h : (set.replace version grants).2 = false) (t : String) :
    (set.replace version grants).1.isLive t = set.isLive t := by
  have hsame : ¬(¬(collect grants).entries.Perm set.console.entries ∨
      set.receivedFromConsole = false) := of_decide_eq_false h
  rw [not_or, not_not, Bool.not_eq_false] at hsame
  obtain ⟨hperm, hreceived⟩ := hsame
  unfold TokenSet.isLive
  rw [hreceived]
  congr 1
  rw [Bool.eq_iff_iff, List.contains_iff_mem, List.contains_iff_mem]
  exact (hperm.map _).mem_iff

lemma id_of_lookup_collect {grants : List TokenGrant} {secret id : String}
    (h : (collect grants).lookup secret = some id) : ∃ grant ∈ grants, grant.id = id := by
  induction grants using List.reverseRecOn with
  | nil => cases h
  | append_singleton grants grant ih =>
    rw [collect_concat] at h
    by_cases hsecret : secret = grant.secret
    · rw [hsecret, AList.lookup_insert] at h
      exact ⟨grant, by simp, Option.some.inj h⟩
    · rw [AList.lookup_insert_ne hsecret] at h
      obtain ⟨g, hg, hid⟩ := ih h
      exact ⟨g, List.mem_append_left _ hg, hid⟩

lemma isLive_of_check {set : TokenSet} {secret id : String}
    (henv : ∀ secret, set.console.lookup secret ≠ some staticTokenId)
    (h : set.check secret = some id) : set.isLive id = true := by
  rw [TokenSet.check, Option.ite_none_left_eq_some] at h
  unfold TokenSet.isLive
  cases hlookup : set.console.lookup secret with
  | some id' =>
    obtain rfl : id' = id := by simpa [hlookup] using h.2
    have hne : id' ≠ staticTokenId := fun hid => henv secret (hid ▸ hlookup)
    rw [if_neg hne, List.contains_iff_mem]
    exact List.mem_map_of_mem (AList.mem_lookup_iff.mp hlookup)
  | none =>
    simp only [hlookup, Option.ite_none_right_eq_some, Option.some.injEq] at h
    obtain ⟨-, ⟨hstatic, -⟩, rfl⟩ := h
    rw [if_pos rfl, hstatic]
    rfl

structure Clean (s : Gate) : Prop extends Ordered s.hub where
  env : ∀ secret, s.auth.console.lookup secret ≠ some staticTokenId
  token : ∀ id c, s.hub.client id = some c → ∃ t, c.info.tokenId = some t
  live : s.kicking = true ∨
    (∀ i, ∀ id ∈ s.handshakes.lookup i, s.auth.isLive id = true) ∧
      ∀ id c, s.hub.client id = some c → c.registered = true → HasLiveToken s.auth c

lemma Clean.hub {b : HubAction} {hub : Hub} (h : Clean s) (ha : a.hub? = some b)
    (hstep : s.hub.Step b hub) : Clean { s with hub := hub } := by
  have hsubscribe : ∀ replay info, b ≠ .subscribe replay info := by
    rintro replay info rfl
    cases a <;> cases ha
  have hbefore {id : ℕ} {c' : Client} (hc' : hub.client id = some c') :=
    hstep.registered_before h.toOrdered hsubscribe hc'
  refine ⟨(h.toOrdered.step hstep).1, h.env, fun id c' hc' => ?_, ?_⟩
  · obtain ⟨c, hc, hinfo, -⟩ := hbefore hc'
    rw [hinfo]
    exact h.token id c hc
  · refine h.live.imp_right (And.imp_right fun hlive id c' hc' hregistered => ?_)
    obtain ⟨c, hc, hinfo, hwas⟩ := hbefore hc'
    obtain ⟨t, ht, hisLive⟩ := hlive id c hc (hwas hregistered)
    exact ⟨t, hinfo ▸ ht, hisLive⟩

lemma Clean.kick (h : Clean s) (hok : s.Apart .kick) :
    Clean { s with hub := s.hub.kickTokens s.auth.isLive, kicking := false } := by
  have hinfo : ∀ c : Client, (c.kick s.auth.isLive s.hub.published.length).info = c.info :=
    fun c => (Frozen.step (v := ⟨s.hub.queue, s.hub.published, c⟩) (e := .kick s.auth.isLive)
      rfl).info
  refine ⟨(h.toOrdered.step (.kick s.auth.isLive)).1, h.env, fun id c' hc' => ?_,
    Or.inr ⟨fun i id hid => hok ⟨i, id⟩ (AList.mem_lookup_iff.mp hid),
      fun id c' hc' hregistered => ?_⟩⟩
  · obtain ⟨c, hc, rfl⟩ := Option.map_eq_some_iff.mp hc'
    rw [hinfo]
    exact h.token id c hc
  · obtain ⟨c, hc, rfl⟩ := Option.map_eq_some_iff.mp hc'
    obtain ⟨t, ht⟩ := h.token id c hc
    refine ⟨t, (congrArg ClientInfo.tokenId (hinfo c)).trans ht, ?_⟩
    -- one whose token is gone is out of the table
    by_contra hdead
    have hkicked : (c.kick s.auth.isLive s.hub.published.length).registered = false := by
      unfold Client.kick
      split_ifs with hkick
      · rfl
      simp_all
    simp_all

lemma lookup_of_lookup_erase {map : AList fun _ : ℕ => String} {i j : ℕ} {id : String}
    (h : (map.erase i).lookup j = some id) : map.lookup j = some id := by
  by_cases hj : j = i
  · rw [hj, AList.lookup_erase] at h
    cases h
  · rwa [AList.lookup_erase_ne hj] at h

lemma Clean.register (h : Clean s) {i : ℕ} {id : String} (replay : ℕ) (ip : String)
    (port connectedAtMs : ℕ) (hid : s.handshakes.lookup i = some id) :
    Clean { s with
      hub := s.hub.subscribe replay ⟨ip, port, some id, connectedAtMs⟩
      handshakes := s.handshakes.erase i } := by
  have hclient {j : ℕ} {c : Client}
      (hc : (s.hub.subscribe replay ⟨ip, port, some id, connectedAtMs⟩).client j = some c) :
      c.info.tokenId = some id ∨ s.hub.client j = some c := by
    rcases update_eq_some_iff.mp hc with ⟨-, rfl⟩ | ⟨-, hold⟩
    · exact Or.inl rfl
    · exact Or.inr hold
  refine ⟨(h.toOrdered.step (.subscribe _ _)).1, h.env, fun j c hc => ?_, ?_⟩
  · rcases hclient hc with hnew | hold
    · exact ⟨id, hnew⟩
    · exact h.token j c hold
  · refine h.live.imp_right fun ⟨hhandshakes, hlive⟩ =>
      ⟨fun j id' hj => hhandshakes j id' (lookup_of_lookup_erase hj), fun j c hc hregistered => ?_⟩
    rcases hclient hc with hnew | hold
    · exact ⟨id, hnew, hhandshakes i id hid⟩
    · exact hlive j c hold hregistered

lemma Clean.step {s' : Gate} (h : Clean s) (hok : s.Apart a) (hstep : s.step a = some s') :
    Clean s' := by
  cases step_sound hstep with
  | @check i secret id hcheck =>
    refine ⟨h.toOrdered, h.env, h.token, h.live.imp_right (And.imp_left fun hlive j id' hj => ?_)⟩
    by_cases hi : j = i
    · rw [hi, AList.lookup_insert] at hj
      exact Option.some.inj hj ▸ isLive_of_check h.env hcheck
    · rw [AList.lookup_insert_ne hi] at hj
      exact hlive j id' hj
  | abandon i =>
    exact ⟨h.toOrdered, h.env, h.token, h.live.imp_right (And.imp_left fun hlive j id hj =>
      hlive j id (lookup_of_lookup_erase hj))⟩
  | @register i replay ip port connectedAtMs id hid =>
    exact h.register replay ip port connectedAtMs hid
  | @replace version grants hidle =>
    refine ⟨h.toOrdered, fun secret hlookup => ?_, h.token, ?_⟩
    · obtain ⟨grant, hgrant, hid⟩ := id_of_lookup_collect hlookup
      exact hok grant hgrant hid
    cases hchanged : (s.auth.replace version grants).2 with
    | true => exact Or.inl rfl
    | false =>
      obtain ⟨hhandshakes, hlive⟩ := h.live.resolve_left (by simp [hidle])
      refine Or.inr ⟨fun i id hid => ?_, fun id c hc hregistered => ?_⟩
      · exact (isLive_replace hchanged id).trans (hhandshakes i id hid)
      · obtain ⟨t, ht, hisLive⟩ := hlive id c hc hregistered
        exact ⟨t, ht, (isLive_replace hchanged t).trans hisLive⟩
  | kick hkicking => exact h.kick hok
  | hub ha hhub => exact h.hub ha hhub

lemma clean_start (statics : List String) (ringCapacity queue : ℕ) :
    Clean (start statics ringCapacity queue) :=
  ⟨ordered_new ringCapacity queue, nofun, nofun, Or.inr ⟨nofun, nofun⟩⟩

end Gate

/-! ## No connection with a revoked token -/

theorem revoked_token_has_no_connection (statics : List String) (ringCapacity queue : ℕ)
    {as : List GateAction} {s : Gate}
    (hok : AllSteps Gate.step Gate.Apart (Gate.start statics ringCapacity queue) as)
    (hrun : run Gate.step (Gate.start statics ringCapacity queue) as = some s)
    (hidle : s.kicking = false) (id : ℕ) (c : Client) (hc : s.hub.client id = some c)
    (hregistered : c.registered = true) :
    ∃ t, c.info.tokenId = some t ∧ s.auth.isLive t = true := by
  have hclean : Gate.Clean s :=
    run_invariant (fun _ _ _ h hok hstep => h.step hok hstep)
      (Gate.clean_start statics ringCapacity queue) hok hrun
  rcases hclean.live with hkicking | hlive
  · simp_all
  · exact hlive.2 id c hc hregistered

def revocation : List GateAction :=
  [.replace 1 [⟨"a", "sa"⟩, ⟨"b", "sb"⟩], .kick, .check 0 "sa", .check 1 "sb",
    .register 0 0 "10.0.0.1" 4000 5, .replace 2 [⟨"b", "sb"⟩], .kick,
    .register 1 0 "10.0.0.2" 4001 6]

/-- The one that is left has the token that is left. -/
theorem revoked_token_is_kicked :
    ∃ s c, run Gate.step (Gate.start [] 4 2) revocation = some s ∧ s.hub.clients = 1 ∧
      s.hub.client 2 = some c ∧ c.registered = true ∧
      ∃ t, c.info.tokenId = some t ∧ s.auth.isLive t = true := by
  have hvals : ((run Gate.step (Gate.start [] 4 2) revocation).map fun s =>
      (s.hub.clients, s.kicking, (s.hub.client 2).map Client.registered)) =
        some (1, false, some true) := by decide +kernel
  obtain ⟨s, hrun, hvals⟩ := Option.map_eq_some_iff.mp hvals
  simp only [Prod.mk.injEq] at hvals
  obtain ⟨hclients, hidle, hregistered⟩ := hvals
  obtain ⟨c, hc, hregistered⟩ := Option.map_eq_some_iff.mp hregistered
  exact ⟨s, c, hrun, hclients, hc, hregistered,
    revoked_token_has_no_connection [] 4 2 (by decide +kernel) hrun hidle 2 c hc hregistered⟩

/-- A handshake checks its token, the token is revoked and the kick finds no subscriber; then the
subscriber is registered. The same set arriving again is no change, so nothing kicks it. -/
theorem registered_after_the_kick :
    ∃ s c, run Gate.step (Gate.start [] 4 2)
      [.replace 1 [⟨"a", "sa"⟩], .kick, .check 0 "sa", .replace 2 [], .kick,
        .register 0 0 "10.0.0.1" 4000 5, .replace 2 []] = some s ∧
      s.handshakes.entries = [] ∧ s.kicking = false ∧ s.hub.client 1 = some c ∧
      c.registered = true ∧ c.info.tokenId = some "a" ∧ s.auth.isLive "a" = false := by
  have hvals : ((run Gate.step (Gate.start [] 4 2)
      [.replace 1 [⟨"a", "sa"⟩], .kick, .check 0 "sa", .replace 2 [], .kick,
        .register 0 0 "10.0.0.1" 4000 5, .replace 2 []]).map fun s =>
      ((s.handshakes.entries.length, s.kicking, s.auth.isLive "a"),
        (s.hub.client 1).map fun c => (c.registered, c.info.tokenId))) =
        some ((0, false, false), some (true, some "a")) := by decide +kernel
  obtain ⟨s, hrun, hvals⟩ := Option.map_eq_some_iff.mp hvals
  simp_all

end RustUma.Edge
