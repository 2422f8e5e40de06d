import RustUma.Edge.Frame
import RustUma.Found.Ring
import RustUma.Found.Run

/-!
# The fan-out hub of an edge (`src/edge/hub.rs` `Hub`)

`publish` offers the frame to the bounded queue of every subscriber in the table and takes out those
that have no room. `subscribe` takes the replay and registers under one lock. Three more calls take
subscribers out: `unsubscribe`, `release` and `kick_tokens`.
-/

namespace RustUma.Edge

open RustUma.Found

/-! ## One subscriber -/

def closeNormal : ℕ := 1000

def closePolicy : ℕ := 1008

def closeRestart : ℕ := 1012

structure ClientInfo where
  ip : String
  port : ℕ
  tokenId : Option String
  connectedAtMs : ℕ
  deriving DecidableEq

inductive Removal
  | overflow
  | kicked
  | released (code : ℕ)
  | unsubscribed
  | closed
  deriving DecidableEq

structure Client where
  info : ClientInfo
  replay : List EdgeFrame
  queue : List EdgeFrame
  registered : Bool
  listening : Bool
  closeCode : ℕ
  asked : ℕ
  since : ℕ
  received : List EdgeFrame
  ended : Bool
  removal : Option (Removal × ℕ)
  deriving DecidableEq

namespace Client

def new (info : ClientInfo) (replay : List EdgeFrame) (asked since : ℕ) : Client where
  info := info
  replay := replay
  queue := []
  registered := true
  listening := true
  closeCode := closeNormal
  asked := asked
  since := since
  received := []
  ended := false
  removal := none

def removed (c : Client) (reason : Removal) (published code : ℕ) : Client :=
  { c with registered := false, closeCode := code, removal := some (reason, published) }

def offer (queue : ℕ) (frame : EdgeFrame) (c : Client) : Client :=
  if c.registered then
    if c.listening then
      if c.queue.length < queue then { c with queue := c.queue ++ [frame] }
      else c.removed .overflow (frame.offset - 1) closePolicy
    else c.removed .closed (frame.offset - 1) c.closeCode
  else c

def recv (c : Client) : Option Client :=
  if c.listening then
    match c.queue with
    | frame :: rest => some { c with queue := rest, received := c.received ++ [frame] }
    | [] => if c.registered then none else some { c with ended := true }
  else none

lemma recv_eq_some {c c' : Client} (h : c.recv = some c') :
    (∃ frame rest, c.queue = frame :: rest ∧
      c' = { c with queue := rest, received := c.received ++ [frame] }) ∨
    (c.queue = [] ∧ c.registered = false ∧ c' = { c with ended := true }) := by
  unfold recv at h
  grind

def hangUp (c : Client) : Client := { c with listening := false }

def unsubscribe (published : ℕ) (c : Client) : Client :=
  if c.registered then c.removed .unsubscribed published c.closeCode else c

def release (code published : ℕ) (c : Client) : Client :=
  if c.registered then c.removed (.released code) published code else c

def kick (keep : String → Bool) (published : ℕ) (c : Client) : Client :=
  if c.registered ∧ c.info.tokenId.any (fun t => !keep t) then
    c.removed .kicked published closePolicy
  else c

end Client

/-! ## The hub -/

structure Hub where
  ring : Ring
  queue : ℕ
  nextId : ℕ
  client : ℕ → Option Client
  published : List EdgeFrame

inductive HubAction
  | publish (frame : EdgeFrame)
  | subscribe (replay : ℕ) (info : ClientInfo)
  | recv (id : ℕ)
  | hangUp (id : ℕ)
  | unsubscribe (id : ℕ)
  | release (n code : ℕ) (picked : List ℕ)
  | kick (keep : String → Bool)

namespace Hub

def new (ringCapacity queue : ℕ) : Hub where
  ring := Ring.new ringCapacity
  queue := max queue 1
  nextId := 1
  client := fun _ => none
  published := []

def Registered (s : Hub) (id : ℕ) : Prop := ∃ c ∈ s.client id, c.registered = true

instance (s : Hub) (id : ℕ) : Decidable (s.Registered id) :=
  inferInstanceAs (Decidable (∃ c ∈ s.client id, c.registered = true))

def clients (s : Hub) : ℕ := ((List.range s.nextId).filter fun id => s.Registered id).length

def publish (s : Hub) (frame : EdgeFrame) : Hub :=
  { s with
    ring := (s.ring.push frame).1
    client := fun id => (s.client id).map (Client.offer s.queue (s.ring.push frame).2)
    published := s.published ++ [(s.ring.push frame).2] }

def subscribe (s : Hub) (replay : ℕ) (info : ClientInfo) : Hub :=
  { s with
    nextId := s.nextId + 1
    client := Function.update s.client s.nextId
      (some (Client.new info (s.ring.tail replay) replay s.published.length)) }

def set (s : Hub) (id : ℕ) (c : Client) : Hub :=
  { s with client := Function.update s.client id (some c) }

def Picks (s : Hub) (n : ℕ) (picked : List ℕ) : Prop :=
  picked.Nodup ∧ (∀ id ∈ picked, s.Registered id) ∧ picked.length = min n s.clients

instance (s : Hub) (n : ℕ) (picked : List ℕ) : Decidable (s.Picks n picked) :=
  inferInstanceAs (Decidable (_ ∧ _ ∧ _))

def release (s : Hub) (code : ℕ) (picked : List ℕ) : Hub :=
  { s with client := fun id =>
      if id ∈ picked then (s.client id).map (Client.release code s.published.length)
      else s.client id }

def kickTokens (s : Hub) (keep : String → Bool) : Hub :=
  { s with client := fun id => (s.client id).map (Client.kick keep s.published.length) }

def step (s : Hub) : HubAction → Option Hub
  | .publish frame => some (s.publish frame)
  | .subscribe replay info => some (s.subscribe replay info)
  | .recv id => ((s.client id).bind Client.recv).map (s.set id)
  | .hangUp id => (s.client id).map fun c => s.set id c.hangUp
  | .unsubscribe id => (s.client id).map fun c => s.set id (c.unsubscribe s.published.length)
  | .release n code picked => if s.Picks n picked then some (s.release code picked) else none
  | .kick keep => some (s.kickTokens keep)

inductive Step (s : Hub) : HubAction → Hub → Prop
  | publish (frame : EdgeFrame) : Step s (.publish frame) (s.publish frame)
  | subscribe (replay : ℕ) (info : ClientInfo) :
      Step s (.subscribe replay info) (s.subscribe replay info)
  | recv {id : ℕ} {c c' : Client} (hc : s.client id = some c) (hrecv : c.recv = some c') :
      Step s (.recv id) (s.set id c')
  | hangUp {id : ℕ} {c : Client} (hc : s.client id = some c) :
      Step s (.hangUp id) (s.set id c.hangUp)
  | unsubscribe {id : ℕ} {c : Client} (hc : s.client id = some c) :
      Step s (.unsubscribe id) (s.set id (c.unsubscribe s.published.length))
  | release {n code : ℕ} {picked : List ℕ} (hpicks : s.Picks n picked) :
      Step s (.release n code picked) (s.release code picked)
  | kick (keep : String → Bool) : Step s (.kick keep) (s.kickTokens keep)

lemma step_sound {s s' : Hub} {a : HubAction} (h : s.step a = some s') : Step s a s' := by
  cases a with
  | publish frame =>
    cases h
    exact .publish frame
  | subscribe replay info =>
    cases h
    exact .subscribe replay info
  | recv id =>
    obtain ⟨c', hbind, rfl⟩ := Option.map_eq_some_iff.mp h
    obtain ⟨c, hc, hrecv⟩ := Option.bind_eq_some_iff.mp hbind
    exact .recv hc hrecv
  | hangUp id =>
    obtain ⟨c, hc, rfl⟩ := Option.map_eq_some_iff.mp h
    exact .hangUp hc
  | unsubscribe id =>
    obtain ⟨c, hc, rfl⟩ := Option.map_eq_some_iff.mp h
    exact .unsubscribe hc
  | release n code picked =>
    simp only [step, Option.ite_none_right_eq_some, Option.some.injEq] at h
    obtain ⟨hpicks, rfl⟩ := h
    exact .release hpicks
  | kick keep =>
    cases h
    exact .kick keep

end Hub

/-! ## Ring, offsets and ids -/

structure Ordered (s : Hub) : Prop where
  capacity : 0 < s.ring.capacity
  nextOffset : s.ring.nextOffset = s.published.length + 1
  frames : s.ring.frames = s.published.rtake s.ring.capacity
  offsets : s.published.map EdgeFrame.offset = List.range' 1 s.published.length
  ids : ∀ id c, s.client id = some c → id < s.nextId

lemma Ring.push_frames {ring : Ring} {published : List EdgeFrame} (hcapacity : 0 < ring.capacity)
    (h : ring.frames = published.rtake ring.capacity) (frame : EdgeFrame) :
    (ring.push frame).1.frames = (published ++ [(ring.push frame).2]).rtake ring.capacity := by
  rw [← rtake_append_of_rtake, ← h]
  have hle : ring.frames.length ≤ ring.capacity := by
    rw [h]
    exact length_rtake_le _ _
  show (if ring.frames.length = ring.capacity then ring.frames.tail else ring.frames) ++ [_] = _
  split_ifs with hfull
  · unfold List.rtake
    rw [List.length_append, hfull, ← List.drop_one]
    have hone : ring.capacity + [(ring.push frame).2].length - ring.capacity = 1 := by simp
    rw [hone, List.drop_append_of_le_length (by omega)]
    rfl
  · exact (rtake_of_length_le (by simp; omega)).symm

variable {s : Hub} {c : Client}

lemma Ordered.setClients (h : Ordered s) {client : ℕ → Option Client}
    (hids : ∀ id, s.client id = none → client id = none) :
    Ordered { s with client := client } := by
  refine ⟨h.capacity, h.nextOffset, h.frames, h.offsets, fun id c hc => ?_⟩
  cases hold : s.client id with
  | none => simp_all
  | some c' => exact h.ids id c' hold

lemma Ordered.step {s' : Hub} {a : HubAction} (h : Ordered s) (hstep : s.Step a s') :
    Ordered s' ∧ s'.queue = s.queue ∧ s'.ring.capacity = s.ring.capacity ∧
      s.published <+: s'.published := by
  have hset : ∀ {id : ℕ} {c : Client} (c' : Client), s.client id = some c →
      Ordered (s.set id c') := by
    intro id c c' hc
    refine h.setClients fun j hnone => ?_
    grind
  cases hstep with
  | publish frame =>
    refine ⟨⟨h.capacity, ?_, Ring.push_frames h.capacity h.frames frame, ?_, ?_⟩, rfl, rfl,
      List.prefix_append _ _⟩
    · show s.ring.nextOffset + 1 = (s.published ++ [_]).length + 1
      rw [h.nextOffset, List.length_append]
      rfl
    · have hoffset : (s.ring.push frame).2.offset = 1 + s.published.length := by
        show s.ring.nextOffset = _
        rw [h.nextOffset, Nat.add_comm]
      show (s.published ++ [_]).map EdgeFrame.offset = List.range' 1 (s.published ++ [_]).length
      rw [List.map_append, h.offsets, List.map_singleton, hoffset, List.length_append,
        List.length_singleton, List.range'_1_concat]
    · intro id c hc
      obtain ⟨c, hc, -⟩ := Option.map_eq_some_iff.mp hc
      exact h.ids id c hc
  | subscribe replay info =>
    refine ⟨⟨h.capacity, h.nextOffset, h.frames, h.offsets, fun id c hc => ?_⟩, rfl, rfl,
      List.prefix_refl _⟩
    show id < s.nextId + 1
    rcases update_eq_some_iff.mp hc with ⟨hid, -⟩ | ⟨-, hold⟩
    · omega
    · exact Nat.lt_succ_of_lt (h.ids id c hold)
  | recv hc hrecv | hangUp hc | unsubscribe hc => exact ⟨hset _ hc, rfl, rfl, List.prefix_refl _⟩
  | release hpicks =>
    refine ⟨h.setClients fun id hnone => ?_, rfl, rfl, List.prefix_refl _⟩
    rw [hnone]
    simp
  | kick keep =>
    refine ⟨h.setClients fun id hnone => ?_, rfl, rfl, List.prefix_refl _⟩
    rw [hnone]
    rfl

lemma ordered_new (ringCapacity queue : ℕ) : Ordered (Hub.new ringCapacity queue) :=
  ⟨by simp [Hub.new, Ring.new], rfl, by simp [Hub.new, Ring.new], rfl, fun _ _ hc => by cases hc⟩

lemma Ordered.run {s' : Hub} {as : List HubAction} (h : Ordered s)
    (hrun : run Hub.step s as = some s') : Ordered s' ∧ s.published <+: s'.published := by
  refine run_invariant_of_step (I := fun s' => Ordered s' ∧ s.published <+: s'.published)
    (fun t a t' ht hstep => ?_) ⟨h, List.prefix_refl _⟩ hrun
  obtain ⟨hordered, -, -, hpublished⟩ := ht.1.step (Hub.step_sound hstep)
  grind

/-! ## What one subscriber sees -/

inductive ClientEvent
  | publish (frame : EdgeFrame)
  | recv
  | hangUp
  | unsubscribe
  | release (code : ℕ)
  | kick (keep : String → Bool)

structure ClientView where
  queue : ℕ
  published : List EdgeFrame
  client : Client
  deriving DecidableEq

def ClientView.kept (v : ClientView) (frame : EdgeFrame) : EdgeFrame :=
  { frame with offset := v.published.length + 1 }

def ClientView.step (v : ClientView) : ClientEvent → Option ClientView
  | .publish frame =>
    some ⟨v.queue, v.published ++ [v.kept frame], v.client.offer v.queue (v.kept frame)⟩
  | .recv => v.client.recv.map fun c => { v with client := c }
  | .hangUp => some { v with client := v.client.hangUp }
  | .unsubscribe => some { v with client := v.client.unsubscribe v.published.length }
  | .release code => some { v with client := v.client.release code v.published.length }
  | .kick keep => some { v with client := v.client.kick keep v.published.length }

structure Frozen (c c' : Client) : Prop where
  info : c'.info = c.info
  replay : c'.replay = c.replay
  since : c'.since = c.since
  received : c.received <+: c'.received
  out : c.registered = false → c'.registered = false ∧ c'.closeCode = c.closeCode ∧
    c'.removal = c.removal ∧ c'.received ++ c'.queue = c.received ++ c.queue

lemma Frozen.refl (c : Client) : Frozen c c :=
  ⟨rfl, rfl, rfl, List.prefix_refl _, fun hout => ⟨hout, rfl, rfl, rfl⟩⟩

lemma Frozen.trans {c' c'' : Client} (h : Frozen c c') (h' : Frozen c' c'') : Frozen c c'' := by
  refine ⟨h'.info.trans h.info, h'.replay.trans h.replay, h'.since.trans h.since,
    h.received.trans h'.received, fun hout => ?_⟩
  obtain ⟨hout', hcode, hremoval, hframes⟩ := h.out hout
  obtain ⟨hout'', hcode', hremoval', hframes'⟩ := h'.out hout'
  simp_all

lemma frozen_removed (hregistered : c.registered = true) (reason : Removal) (published code : ℕ) :
    Frozen c (c.removed reason published code) :=
  ⟨rfl, rfl, rfl, List.prefix_refl _, fun hout => by simp_all⟩

lemma Frozen.step {v v' : ClientView} {e : ClientEvent} (hstep : v.step e = some v') :
    Frozen v.client v'.client := by
  cases e with
  | publish frame =>
    cases hstep
    unfold Client.offer
    split_ifs with hregistered hlistening hroom
    · refine ⟨rfl, rfl, rfl, List.prefix_refl _, fun hout => ?_⟩
      simp_all
    · exact frozen_removed hregistered _ _ _
    · exact frozen_removed hregistered _ _ _
    · exact .refl _
  | recv =>
    obtain ⟨c, hrecv, rfl⟩ := Option.map_eq_some_iff.mp hstep
    rcases Client.recv_eq_some hrecv with ⟨frame, rest, hqueue, rfl⟩ | ⟨hqueue, hout, rfl⟩
    · refine ⟨rfl, rfl, rfl, List.prefix_append _ _, fun hout => ⟨hout, rfl, rfl, ?_⟩⟩
      simp_all
    · exact ⟨rfl, rfl, rfl, List.prefix_refl _, fun hout => ⟨hout, rfl, rfl, rfl⟩⟩
  | hangUp =>
    cases hstep
    exact ⟨rfl, rfl, rfl, List.prefix_refl _, fun hout => ⟨hout, rfl, rfl, rfl⟩⟩
  | unsubscribe =>
    cases hstep
    unfold Client.unsubscribe
    split_ifs with hregistered
    · exact frozen_removed hregistered _ _ _
    · exact .refl _
  | release code =>
    cases hstep
    unfold Client.release
    split_ifs with hregistered
    · exact frozen_removed hregistered _ _ _
    · exact .refl _
  | kick keep =>
    cases hstep
    unfold Client.kick
    split_ifs with hkick
    · exact frozen_removed hkick.1 _ _ _
    · exact .refl _

lemma Frozen.registered {c' : Client} (h : Frozen c c') (hregistered : c'.registered = true) :
    c.registered = true := by
  by_contra hout
  have hgone := (h.out (Bool.eq_false_iff.mpr hout)).1
  simp_all

def own (id : ℕ) : HubAction → Option ClientEvent
  | .publish frame => some (.publish frame)
  | .subscribe _ _ => none
  | .recv j => if j = id then some .recv else none
  | .hangUp j => if j = id then some .hangUp else none
  | .unsubscribe j => if j = id then some .unsubscribe else none
  | .release _ code picked => if id ∈ picked then some (.release code) else none
  | .kick keep => some (.kick keep)

namespace Hub

variable {s s' : Hub} {id : ℕ} {c : Client}

lemma set_client_self (c : Client) : (s.set id c).client id = some c := Function.update_self _ _ _

lemma set_client_of_ne {j : ℕ} (hne : j ≠ id) (c : Client) :
    (s.set j c).client id = s.client id := Function.update_of_ne hne.symm _ _

def Seen (s s' : Hub) (c c' : Client) : Option ClientEvent → Prop
  | some e => ClientView.step ⟨s.queue, s.published, c⟩ e = some ⟨s'.queue, s'.published, c'⟩
  | none => s'.published = s.published ∧ c' = c

lemma seen_set {j : ℕ} {d d' : Client} {e : ClientEvent} (hc : s.client id = some c)
    (hd : s.client j = some d)
    (hstep : ClientView.step ⟨s.queue, s.published, d⟩ e = some ⟨s.queue, s.published, d'⟩) :
    ∃ c', (s.set j d').client id = some c' ∧
      Seen s (s.set j d') c c' (if j = id then some e else none) := by
  by_cases hj : j = id
  · subst hj
    rw [hc] at hd
    cases hd
    rw [if_pos rfl]
    exact ⟨d', set_client_self d', hstep⟩
  · rw [if_neg hj]
    exact ⟨c, (set_client_of_ne hj d').trans hc, rfl, rfl⟩

variable {a : HubAction}

lemma Step.view (hordered : Ordered s) (hc : s.client id = some c) (hstep : s.Step a s') :
    ∃ c', s'.client id = some c' ∧ Seen s s' c c' (own id a) := by
  cases hstep with
  | publish frame =>
    have hkept : (s.ring.push frame).2 = ClientView.kept ⟨s.queue, s.published, c⟩ frame := by
      show ({ frame with offset := s.ring.nextOffset } : EdgeFrame) = _
      rw [hordered.nextOffset]
      rfl
    refine ⟨c.offer s.queue (s.ring.push frame).2, ?_, ?_⟩
    · show (s.client id).map _ = _
      rw [hc]
      rfl
    · show some _ = some (⟨s.queue, s.published ++ [(s.ring.push frame).2], _⟩ : ClientView)
      rw [hkept]
  | subscribe replay info =>
    refine ⟨c, ?_, rfl, rfl⟩
    have hne : id ≠ s.nextId := Nat.ne_of_lt (hordered.ids id c hc)
    show Function.update s.client s.nextId _ id = _
    simp_all
  | recv hd hrecv =>
    refine seen_set hc hd ?_
    simp only [ClientView.step, hrecv]
    rfl
  | hangUp hd => exact seen_set hc hd rfl
  | unsubscribe hd => exact seen_set hc hd rfl
  | @release n code picked hpicks =>
    have hclient : (s.release code picked).client id =
        if id ∈ picked then some (c.release code s.published.length) else some c := by
      show (if id ∈ picked then _ else _) = _
      rw [hc]
      rfl
    rw [hclient]
    simp only [own]
    by_cases hid : id ∈ picked
    · rw [if_pos hid, if_pos hid]
      exact ⟨_, rfl, rfl⟩
    · rw [if_neg hid, if_neg hid]
      exact ⟨c, rfl, rfl, rfl⟩
  | kick keep =>
    refine ⟨c.kick keep s.published.length, ?_, rfl⟩
    show (s.client id).map _ = _
    rw [hc]
    rfl

lemma Step.not_new (hstep : s.Step a s') (ha : ∀ replay info, a ≠ .subscribe replay info)
    (hnone : s.client id = none) :
    s'.client id = none := by
  have hset : ∀ {j : ℕ} {d d' : Client}, s.client j = some d →
      (s.set j d').client id = none := by
    intro j d d' hd
    have hne : j ≠ id := by
      grind
    rw [set_client_of_ne hne]
    exact hnone
  cases hstep with
  | publish frame | kick keep =>
    show (s.client id).map _ = none
    rw [hnone]
    rfl
  | subscribe replay info => simp_all
  | recv hd hrecv => exact hset hd
  | hangUp hd => exact hset hd
  | unsubscribe hd => exact hset hd
  | release hpicks =>
    show (if _ then _ else _) = none
    rw [hnone]
    simp

lemma Step.registered_before (hstep : s.Step a s') (hordered : Ordered s)
    (ha : ∀ replay info, a ≠ .subscribe replay info) {c' : Client} (hc' : s'.client id = some c') :
    ∃ c, s.client id = some c ∧ c'.info = c.info ∧
      (c'.registered = true → c.registered = true) := by
  cases hc : s.client id with
  | some c =>
    obtain ⟨d, hd, hseen⟩ := hstep.view hordered hc
    rw [hc'] at hd
    cases hd
    refine ⟨c, rfl, ?_⟩
    cases hown : own id a with
    | some e =>
      rw [hown] at hseen
      have hfrozen : Frozen c c' := Frozen.step hseen
      exact ⟨hfrozen.info, hfrozen.registered⟩
    | none =>
      rw [hown] at hseen
      obtain ⟨-, rfl⟩ := hseen
      simp
  | none =>
    rw [hstep.not_new ha hc] at hc'
    cases hc'

lemma clients_subscribe (s : Hub) (replay : ℕ) (info : ClientInfo) :
    (s.subscribe replay info).clients = s.clients + 1 := by
  have hnew : (s.subscribe replay info).Registered s.nextId :=
    ⟨_, Function.update_self _ _ _, rfl⟩
  have hold : (List.range s.nextId).filter (fun id => (s.subscribe replay info).Registered id) =
      (List.range s.nextId).filter fun id => s.Registered id := by
    refine List.filter_congr fun id hid => ?_
    have hne : id ≠ s.nextId := (List.mem_range.mp hid).ne
    have hsame : (s.subscribe replay info).client id = s.client id := Function.update_of_ne hne _ _
    refine decide_eq_decide.mpr ?_
    unfold Registered
    rw [hsame]
  show ((List.range (s.nextId + 1)).filter _).length = _
  rw [List.range_succ, List.filter_append, hold, List.filter_singleton, decide_eq_true hnew,
    List.length_append]
  rfl

lemma Step.clients_le (hstep : s.Step a s') (hordered : Ordered s)
    (ha : ∀ replay info, a ≠ .subscribe replay info) : s'.clients ≤ s.clients := by
  have hids : s'.nextId = s.nextId := by
    cases hstep with
    | subscribe replay info => simp_all
    | _ => rfl
  unfold clients
  rw [hids]
  refine (List.monotone_filter_right _ fun id hid => ?_).length_le
  obtain ⟨c', hc', hregistered⟩ := of_decide_eq_true hid
  obtain ⟨c, hc, -, hwas⟩ := hstep.registered_before hordered ha hc'
  exact decide_eq_true ⟨c, hc, hwas hregistered⟩

lemma Step.clients_zero (hstep : s.Step a s') (hordered : Ordered s)
    (ha : ∀ replay info, a ≠ .subscribe replay info) (hzero : s.clients = 0) : s'.clients = 0 :=
  Nat.le_zero.mp (hzero ▸ hstep.clients_le hordered ha)

lemma exists_picks (s : Hub) (n : ℕ) : ∃ picked, s.Picks n picked := by
  refine ⟨((List.range s.nextId).filter fun id => s.Registered id).take n, ?_, fun id hid => ?_, ?_⟩
  · exact (List.nodup_range.filter _).sublist (List.take_sublist _ _)
  · grind
  · rw [List.length_take]
    rfl

lemma run_view {as : List HubAction} (hordered : Ordered s) (hc : s.client id = some c)
    (hrun : run step s as = some s') : ∃ c', s'.client id = some c' ∧
      run ClientView.step ⟨s.queue, s.published, c⟩ (as.filterMap (own id)) =
        some ⟨s'.queue, s'.published, c'⟩ := by
  induction as generalizing s c with
  | nil =>
    simp_all
  | cons a as ih =>
    rw [run_cons, Option.bind_eq_some_iff] at hrun
    obtain ⟨t, hstep, hrun⟩ := hrun
    have hsound := step_sound hstep
    obtain ⟨hnext, hqueue, -, -⟩ := hordered.step hsound
    obtain ⟨d, hd, hview⟩ := hsound.view hordered hc
    obtain ⟨c', hc', hrest⟩ := ih hnext hd hrun
    refine ⟨c', hc', ?_⟩
    cases hown : own id a with
    | some e =>
      rw [hown] at hview
      rw [List.filterMap_cons_some hown, run_cons, hview]
      exact hrest
    | none =>
      rw [hown] at hview
      obtain ⟨hpublished, rfl⟩ := hview
      simp_all

end Hub

end RustUma.Edge
