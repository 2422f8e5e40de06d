import RustUma.Edge.Hub

/-!
# Streams of an edge's subscribers

What a subscriber is replayed, followed by what it takes off its channel, is a stretch of the frames
published, without a gap and without a repetition; what the others do has no part in it, except that
a release takes subscribers who are still in the table.
-/

namespace RustUma.Edge

open RustUma.Found

/-! ## One subscriber -/

def Removal.code : Removal → ℕ
  | .overflow | .kicked => closePolicy
  | .released code => code
  | .unsubscribed | .closed => closeNormal

def Client.expectedCode (c : Client) : ℕ :=
  match c.removal with
  | some (reason, _) => reason.code
  | none => closeNormal

def Client.until (c : Client) (published : ℕ) : ℕ :=
  match c.removal with
  | some (_, upTo) => upTo
  | none => published

structure Contiguous (capacity : ℕ) (v : ClientView) : Prop where
  replay : v.client.replay = ((v.published.take v.client.since).rtake capacity).rtake v.client.asked
  live : v.client.received ++ v.client.queue =
    (v.published.take (v.client.until v.published.length)).drop v.client.since
  since : v.client.since ≤ v.client.until v.published.length
  upTo : v.client.until v.published.length ≤ v.published.length
  table : v.client.registered = true ↔ v.client.removal = none
  code : v.client.closeCode = v.client.expectedCode
  ended : v.client.ended = true → v.client.queue = [] ∧ v.client.registered = false

namespace Contiguous

variable {capacity : ℕ} {v v' : ClientView}

lemma remove (h : Contiguous capacity v) (hregistered : v.client.registered = true)
    (reason : Removal) (code : ℕ) (hcode : code = reason.code) (later : List EdgeFrame) :
    Contiguous capacity
      ⟨v.queue, v.published ++ later, v.client.removed reason v.published.length code⟩ := by
  have hnone := h.table.mp hregistered
  have huntil : v.client.until v.published.length = v.published.length := by
    unfold Client.until
    rw [hnone]
  have hsince : v.client.since ≤ v.published.length := huntil ▸ h.since
  refine ⟨?_, ?_, hsince, ?_, ?_, hcode, fun hended => ⟨(h.ended hended).1, rfl⟩⟩
  · show v.client.replay = (((v.published ++ later).take v.client.since).rtake capacity).rtake _
    rw [List.take_append_of_le_length hsince]
    exact h.replay
  · show v.client.received ++ v.client.queue =
      ((v.published ++ later).take v.published.length).drop v.client.since
    rw [h.live, huntil, List.take_left, List.take_length]
  · rw [List.length_append]
    exact Nat.le_add_right _ _
  · exact iff_of_false (fun hfalse => by cases hfalse) fun hfalse => by cases hfalse

lemma publish_out (h : Contiguous capacity v) (hout : v.client.registered = false)
    (frame : EdgeFrame) :
    Contiguous capacity ⟨v.queue, v.published ++ [frame], v.client⟩ := by
  obtain ⟨⟨reason, upTo⟩, hremoval⟩ : ∃ p, v.client.removal = some p := by
    refine Option.ne_none_iff_exists'.mp fun hnone => ?_
    rw [h.table.mpr hnone] at hout
    cases hout
  have huntil : ∀ n, v.client.until n = upTo := fun n => by
    unfold Client.until
    rw [hremoval]
  have hsince := h.since
  have hupTo := h.upTo
  have hlive := h.live
  rw [huntil] at hsince hupTo hlive
  refine ⟨?_, ?_, ?_, ?_, h.table, h.code, h.ended⟩
  · rw [List.take_append_of_le_length (hsince.trans hupTo)]
    exact h.replay
  · grind
  · simp_all
  grind

lemma publish_room (h : Contiguous capacity v) (hregistered : v.client.registered = true)
    (frame : EdgeFrame) :
    Contiguous capacity ⟨v.queue, v.published ++ [frame],
      { v.client with queue := v.client.queue ++ [frame] }⟩ := by
  have hnone := h.table.mp hregistered
  have huntil : ∀ n, v.client.until n = n := fun n => by
    unfold Client.until
    rw [hnone]
  have hsince := h.since
  have hlive := h.live
  rw [huntil] at hsince hlive
  refine ⟨?_, ?_, ?_, ?_, h.table, h.code, fun hended => ?_⟩
  · rw [List.take_append_of_le_length hsince]
    exact h.replay
  · show v.client.received ++ (v.client.queue ++ [frame]) =
      ((v.published ++ [frame]).take (v.client.until _)).drop v.client.since
    grind
  · show v.client.since ≤ v.client.until _
    grind
  · show v.client.until _ ≤ _
    rw [huntil]
  · exact absurd (h.ended hended).2 (by rw [hregistered]; simp)

lemma publish (h : Contiguous capacity v) (frame : EdgeFrame) :
    Contiguous capacity
      ⟨v.queue, v.published ++ [v.kept frame], v.client.offer v.queue (v.kept frame)⟩ := by
  unfold Client.offer
  split_ifs with hregistered hlistening hroom
  · exact h.publish_room hregistered (v.kept frame)
  · exact h.remove hregistered .overflow closePolicy rfl [v.kept frame]
  · refine h.remove hregistered .closed v.client.closeCode ?_ [v.kept frame]
    rw [h.code]
    unfold Client.expectedCode
    rw [h.table.mp hregistered]
    rfl
  · exact h.publish_out (Bool.eq_false_iff.mpr hregistered) (v.kept frame)

lemma recv (h : Contiguous capacity v) {c : Client} (hrecv : v.client.recv = some c) :
    Contiguous capacity { v with client := c } := by
  rcases Client.recv_eq_some hrecv with ⟨frame, rest, hqueue, rfl⟩ | ⟨hqueue, hout, rfl⟩
  · refine ⟨h.replay, ?_, h.since, h.upTo, h.table, h.code, fun hended => ?_⟩
    · have hlive := h.live
      rw [hqueue] at hlive
      rw [List.append_assoc]
      exact hlive
    · have hempty := (h.ended hended).1
      simp_all
  · exact ⟨h.replay, h.live, h.since, h.upTo, h.table, h.code, fun _ => ⟨hqueue, hout⟩⟩

lemma remove_now (h : Contiguous capacity v) (hregistered : v.client.registered = true)
    (reason : Removal) (code : ℕ) (hcode : code = reason.code) :
    Contiguous capacity { v with client := v.client.removed reason v.published.length code } := by
  have hremoved := h.remove hregistered reason code hcode []
  simp_all

lemma step {e : ClientEvent} (h : Contiguous capacity v) (hstep : v.step e = some v') :
    Contiguous capacity v' := by
  cases e with
  | publish frame =>
    cases hstep
    exact h.publish frame
  | recv =>
    obtain ⟨c, hrecv, rfl⟩ := Option.map_eq_some_iff.mp hstep
    exact h.recv hrecv
  | hangUp =>
    cases hstep
    exact ⟨h.replay, h.live, h.since, h.upTo, h.table, h.code, h.ended⟩
  | unsubscribe =>
    cases hstep
    unfold Client.unsubscribe
    split_ifs with hregistered
    · refine h.remove_now hregistered .unsubscribed v.client.closeCode ?_
      rw [h.code]
      unfold Client.expectedCode
      rw [h.table.mp hregistered]
      rfl
    · exact h
  | release code =>
    cases hstep
    unfold Client.release
    split_ifs with hregistered
    · exact h.remove_now hregistered (.released code) code rfl
    · exact h
  | kick keep =>
    cases hstep
    unfold Client.kick
    split_ifs with hkick
    · exact h.remove_now hkick.1 .kicked closePolicy rfl
    · exact h

end Contiguous

lemma contiguous_new {s : Hub} (hordered : Ordered s) (info : ClientInfo) (asked : ℕ) :
    Contiguous s.ring.capacity
      ⟨s.queue, s.published, Client.new info (s.ring.tail asked) asked s.published.length⟩ := by
  refine ⟨?_, ?_, le_rfl, le_rfl, iff_of_true rfl rfl, rfl, fun hended => by cases hended⟩
  · show s.ring.tail asked = ((s.published.take s.published.length).rtake _).rtake asked
    rw [List.take_length, ← hordered.frames]
    unfold Ring.tail
    congr 1
    omega
  · show [] = (s.published.take s.published.length).drop s.published.length
    simp

/-! ## All of them -/

structure Streams (s : Hub) : Prop extends Ordered s where
  contiguous : ∀ id c, s.client id = some c →
    Contiguous s.ring.capacity ⟨s.queue, s.published, c⟩

lemma Streams.step {s s' : Hub} {a : HubAction} (h : Streams s) (hstep : s.step a = some s') :
    Streams s' := by
  have hsound := Hub.step_sound hstep
  obtain ⟨hordered, hqueue, hcapacity, -⟩ := h.toOrdered.step hsound
  refine ⟨hordered, fun id c hc => ?_⟩
  cases hold : s.client id with
  | some d =>
    obtain ⟨c', hc', hseen⟩ := hsound.view h.toOrdered hold
    rw [hc] at hc'
    cases hc'
    have hcontiguous := h.contiguous id d hold
    rw [hcapacity]
    cases hown : own id a with
    | some e =>
      rw [hown] at hseen
      exact hcontiguous.step hseen
    | none =>
      rw [hown] at hseen
      obtain ⟨hpublished, rfl⟩ := hseen
      simp_all
  | none =>
    -- a new subscription
    by_cases hsubscribe : ∃ replay info, a = .subscribe replay info
    · obtain ⟨replay, info, rfl⟩ := hsubscribe
      cases hsound
      rcases update_eq_some_iff.mp hc with ⟨-, rfl⟩ | ⟨-, hc⟩
      · exact contiguous_new h.toOrdered info replay
      simp_all
    · rw [hsound.not_new (fun replay info ha => hsubscribe ⟨replay, info, ha⟩) hold] at hc
      cases hc

lemma streams_run {ringCapacity queue : ℕ} {as : List HubAction} {s : Hub}
    (hrun : run Hub.step (Hub.new ringCapacity queue) as = some s) :
    Streams s ∧ s.ring.capacity = max ringCapacity 1 := by
  refine run_invariant_of_step (I := fun s => Streams s ∧ s.ring.capacity = max ringCapacity 1)
    (fun s a s' h hstep => ?_) ⟨⟨ordered_new ringCapacity queue, fun _ _ hc => ?_⟩, rfl⟩ hrun
  · refine ⟨h.1.step hstep, ?_⟩
    rw [(h.1.toOrdered.step (Hub.step_sound hstep)).2.2.1]
    exact h.2
  · cases hc

/-! ## After the removal -/

lemma Hub.run_frozen {s s' : Hub} {id : ℕ} {c : Client} {as : List HubAction}
    (hordered : Ordered s) (hc : s.client id = some c) (hrun : run Hub.step s as = some s') :
    ∃ c', s'.client id = some c' ∧ Frozen c c' := by
  obtain ⟨c', hc', hview⟩ := Hub.run_view hordered hc hrun
  refine ⟨c', hc', ?_⟩
  exact run_invariant_of_step (I := fun v => Frozen c v.client)
    (fun v e v' h hstep => h.trans (Frozen.step hstep)) (.refl c) hview

lemma Hub.drains {s : Hub} {id : ℕ} {c : Client} (hc : s.client id = some c)
    (hout : c.registered = false) (hlistening : c.listening = true) :
    ∃ s' c', run Hub.step s (List.replicate (c.queue.length + 1) (.recv id)) = some s' ∧
      s'.client id = some c' ∧ c'.ended = true ∧ c'.received = c.received ++ c.queue := by
  induction hqueue : c.queue generalizing s c with
  | nil =>
    have hrecv : c.recv = some { c with ended := true } := by
      unfold Client.recv
      simp_all
    refine ⟨s.set id { c with ended := true }, _, ?_, set_client_self _, rfl, ?_⟩
    · show run Hub.step s [.recv id] = _
      rw [run_cons]
      simp only [step, hc, Option.bind_some, hrecv, Option.map_some, run_nil]
    simp
  | cons frame rest ih =>
    have hrecv : c.recv =
        some { c with queue := rest, received := c.received ++ [frame] } := by
      unfold Client.recv
      simp_all
    obtain ⟨s', c', hrun, hc', hended, hreceived⟩ :=
      ih (s := s.set id { c with queue := rest, received := c.received ++ [frame] })
        (set_client_self _) hout hlistening rfl
    refine ⟨s', c', ?_, hc', hended, ?_⟩
    · rw [List.replicate_succ, run_cons]
      simp only [step, hc, Option.bind_some, hrecv, Option.map_some]
      exact hrun
    simp_all

/-! ## The streams -/

lemma offsets_stretch {published : List EdgeFrame}
    (h : published.map EdgeFrame.offset = List.range' 1 published.length) {m n : ℕ}
    (hn : n ≤ published.length) :
    ((published.take n).drop m).map EdgeFrame.offset = List.range' (m + 1) (n - m) := by
  rw [List.map_drop, List.map_take, h]
  grind

lemma Contiguous.stretch {capacity : ℕ} {v : ClientView} (h : Contiguous capacity v) :
    v.client.replay ++ (v.client.received ++ v.client.queue) =
      (v.published.take (v.client.until v.published.length)).drop
        (v.client.since - v.client.replay.length) := by
  have hsince := h.since
  have hupTo := h.upTo
  -- the replay is the end of what was published before
  obtain ⟨before, hbefore⟩ : ∃ before, v.published.take v.client.since =
      before ++ v.client.replay := by
    obtain ⟨b₁, h₁⟩ := rtake_suffix (v.published.take v.client.since) capacity
    obtain ⟨b₂, h₂⟩ := rtake_suffix ((v.published.take v.client.since).rtake capacity)
      v.client.asked
    refine ⟨b₁ ++ b₂, ?_⟩
    rw [List.append_assoc, h.replay, h₂, h₁]
  have hlength : v.client.since - v.client.replay.length = before.length := by
    have hcount := congrArg List.length hbefore
    grind
  have hsplit : v.published.take (v.client.until v.published.length) =
      before ++ (v.client.replay ++ (v.client.received ++ v.client.queue)) := by
    rw [h.live, ← List.append_assoc, ← hbefore]
    conv_lhs => rw [← List.take_append_drop v.client.since
      (v.published.take (v.client.until v.published.length))]
    grind
  simp_all

theorem fan_out_streams_are_contiguous {ringCapacity queue : ℕ} {as : List HubAction} {s : Hub}
    (hrun : run Hub.step (Hub.new ringCapacity queue) as = some s) {id : ℕ} {c : Client}
    (hc : s.client id = some c) :
    let held := (s.published.take c.since).rtake (max ringCapacity 1)
    let last := c.until s.published.length
    let stream := c.replay ++ (c.received ++ c.queue)
    c.replay = held.rtake (min c.asked held.length) ∧
    stream = (s.published.take last).drop (c.since - c.replay.length) ∧
    stream.map EdgeFrame.offset = List.range' (c.since - c.replay.length + 1) stream.length ∧
    (c.registered = true → last = s.published.length ∧ c.removal = none) ∧
    c.closeCode = c.expectedCode ∧
    (c.registered = false → c.listening = true →
      ∃ s' c', run Hub.step s (List.replicate (c.queue.length + 1) (.recv id)) = some s' ∧
        s'.client id = some c' ∧ c'.ended = true ∧ c'.received = c.received ++ c.queue) ∧
    (∀ bs s', run Hub.step s bs = some s' → ∃ c', s'.client id = some c' ∧ Frozen c c') ∧
    ∀ bs bs' s₁ s₂, run Hub.step s bs = some s₁ → run Hub.step s bs' = some s₂ →
      bs.filterMap (own id) = bs'.filterMap (own id) → s₁.client id = s₂.client id := by
  intro held last stream
  obtain ⟨hstreams, hcapacity⟩ := streams_run hrun
  have hcontiguous := hstreams.contiguous id c hc
  have hstretch := hcontiguous.stretch
  refine ⟨?_, hstretch, ?_, fun hregistered => ?_, hcontiguous.code,
    fun hout hlistening => Hub.drains hc hout hlistening,
    fun bs s' hbs => Hub.run_frozen hstreams.toOrdered hc hbs, ?_⟩
  · have hreplay : c.replay = held.rtake c.asked := by
      show c.replay = ((s.published.take c.since).rtake (max ringCapacity 1)).rtake c.asked
      rw [← hcapacity]
      exact hcontiguous.replay
    rw [hreplay]
    unfold List.rtake
    congr 1
    omega
  · have hoffsets := offsets_stretch hstreams.offsets (m := c.since - c.replay.length)
      hcontiguous.upTo
    rw [← hstretch] at hoffsets
    have hlength := congrArg List.length hoffsets
    grind
  · have hnone := hcontiguous.table.mp hregistered
    refine ⟨?_, hnone⟩
    show c.until s.published.length = _
    unfold Client.until
    simp_all
  · intro bs bs' s₁ s₂ hbs hbs' hown
    obtain ⟨c₁, hc₁, hview₁⟩ := Hub.run_view hstreams.toOrdered hc hbs
    obtain ⟨c₂, hc₂, hview₂⟩ := Hub.run_view hstreams.toOrdered hc hbs'
    simp_all

/-! ## Runs -/

def testEdgeFrame (eventSequence : ℕ) : EdgeFrame := ⟨0, eventSequence, eventSequence, [], 0⟩

def testInfo : ClientInfo := ⟨"127.0.0.1", 1, some "0000000a", 0⟩

/-- A ring of two frames, a queue of one. A subscriber asks for five frames after three were
published, is sent the fourth and has no room for the fifth. -/
theorem fan_out_stream_of_slow_client :
    ∃ s c, run Hub.step (Hub.new 2 1) [.publish (testEdgeFrame 1), .publish (testEdgeFrame 2),
        .publish (testEdgeFrame 3), .subscribe 5 testInfo, .publish (testEdgeFrame 4),
        .publish (testEdgeFrame 5)] = some s ∧
      s.client 1 = some c ∧ c.removal = some (.overflow, 4) ∧ c.closeCode = closePolicy ∧
      (c.replay ++ (c.received ++ c.queue)).map EdgeFrame.offset = [2, 3, 4] := by
  refine exists_some₂_imp (P := fun _ c => c.removal = some (.overflow, 4) ∧ c.since = 3 ∧
    c.replay.length = 2 ∧ (c.received ++ c.queue).length = 1) (by decide +kernel) ?_
  rintro s c hrun hc ⟨hremoval, hsince, hreplay, hlive⟩
  obtain ⟨-, -, hoffsets, -, hcode, -⟩ := fan_out_streams_are_contiguous hrun hc
  refine ⟨hremoval, ?_, ?_⟩
  · rw [hcode]
    unfold Client.expectedCode
    rw [hremoval]
    rfl
  · rw [hoffsets, List.length_append, hsince, hreplay, hlive]
    rfl

def twoReaders (firstReads : Bool) : List HubAction :=
  [.subscribe 0 testInfo, .subscribe 0 testInfo, .publish (testEdgeFrame 1), .recv 2] ++
    (if firstReads then [.recv 1] else []) ++ [.publish (testEdgeFrame 2), .recv 2]

theorem release_takes_who_is_left :
    ((run Hub.step (Hub.new 4 1) (twoReaders true ++
        [.release 1 closeRestart [1], .publish (testEdgeFrame 3)])).bind fun s =>
          (s.client 2).map fun c =>
            ((c.received ++ c.queue).map EdgeFrame.offset, c.registered, c.closeCode)) =
      some ([1, 2, 3], true, closeNormal) ∧
    ((run Hub.step (Hub.new 4 1) (twoReaders false)).map fun s =>
        (decide (s.Picks 1 [1]), decide (s.Picks 1 [2]), s.clients)) = some (false, true, 1) ∧
    ((run Hub.step (Hub.new 4 1) (twoReaders false ++
        [.release 1 closeRestart [2], .publish (testEdgeFrame 3)])).bind fun s =>
          (s.client 2).map fun c =>
            ((c.received ++ c.queue).map EdgeFrame.offset, c.registered, c.closeCode)) =
      some ([1, 2], false, closeRestart) := by
  decide +kernel

end RustUma.Edge
