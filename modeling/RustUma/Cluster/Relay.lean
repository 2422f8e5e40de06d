import RustUma.Edge.FanOut
import RustUma.Edge.Resume
import RustUma.Edge.Server

/-!
# An edge behind an edge

Edge B dials edge A as it would dial the upstream, with the last sequence it saw as
`after_sequence`. A's handler knows no such parameter: what B is sent first are the last frames of
A's ring, as many as the `_replay` of the configured URL asks for.
-/

namespace RustUma.Cluster.Relay

open RustUma.Found RustUma.Edge

def outage (left back : Hub) : List EdgeFrame := back.published.drop left.published.length

section Replay

variable {left back : Hub}

lemma outage_suffix : outage left back <:+ back.published := List.drop_suffix _ _

lemma nodup_published {hub : Hub} (hordered : Ordered hub) : hub.published.Nodup := by
  refine List.Nodup.of_map EdgeFrame.offset ?_
  rw [hordered.offsets]
  exact List.nodup_range'

lemma length_tail (ring : Ring) (n : ℕ) : (ring.tail n).length = min n ring.frames.length := by
  unfold Ring.tail
  rw [List.length_drop]
  omega

lemma outage_le_tail_iff (hordered : Ordered back)
    (hheld : ∀ f ∈ outage left back, f ∈ back.ring.frames) (replay : ℕ) :
    (outage left back).length ≤ (back.ring.tail replay).length ↔
      (outage left back).length ≤ replay := by
  have hring : (outage left back).length ≤ back.ring.frames.length :=
    (((nodup_published hordered).sublist outage_suffix.sublist).subperm hheld).length_le
  rw [length_tail, le_min_iff, and_iff_left hring]

lemma outage_infix_iff {later : Hub} (hordered : Ordered later)
    (hpublished : left.published <+: back.published) (hlater : back.published <+: later.published)
    {m n : ℕ} (hm : m ≤ back.published.length) (hn : back.published.length ≤ n) :
    outage left back <:+: (later.published.take n).drop m ↔ m ≤ left.published.length := by
  obtain ⟨rest, hrest⟩ := hlater
  have hle := hpublished.length_le
  constructor
  · -- the first frame that was missed comes before the stretch
    intro hstretch
    by_contra hlate
    have hlt : left.published.length < back.published.length := by omega
    have hfirst : back.published[left.published.length] ∈ later.published.take m := by
      rw [← hrest, List.take_append_of_le_length hm]
      exact List.mem_take_iff_getElem.mpr ⟨_, by omega, rfl⟩
    have hmem : back.published[left.published.length] ∈ outage left back :=
      List.mem_drop_iff_getElem.mpr ⟨0, by omega, rfl⟩
    have hafter := ((List.take_sublist n _).drop m).subset (hstretch.subset hmem)
    exact List.disjoint_take_drop (nodup_published hordered) le_rfl hfirst hafter
  · intro hm
    have hstretch : (later.published.take n).drop m =
        back.published.drop m ++ rest.take (n - back.published.length) := by
      grind [List.take_append, List.take_of_length_le]
    have hdrop : outage left back =
        (back.published.drop m).drop (left.published.length - m) := by
      unfold outage
      simp_all
    grind [List.drop_suffix]

end Replay

lemma sent_stretch {capacity : ℕ} {v : ClientView} (h : Contiguous capacity v) {k : ℕ}
    (hk : k ≤ (v.client.replay ++ v.client.received).length) :
    (v.client.replay ++ v.client.received).take k =
        (v.published.take (v.client.since - v.client.replay.length + k)).drop
          (v.client.since - v.client.replay.length) ∧
      v.client.since - v.client.replay.length + k ≤ v.published.length := by
  have hsince := h.since
  have hupTo := h.upTo
  have hstretch := h.stretch
  rw [← List.append_assoc] at hstretch
  have hlength := congrArg List.length hstretch
  rw [List.length_append, List.length_drop, List.length_take] at hlength
  refine ⟨?_, by omega⟩
  have htake : (v.client.replay ++ v.client.received).take k =
      (v.client.replay ++ v.client.received ++ v.client.queue).take k :=
    (List.take_append_of_le_length hk).symm
  rw [htake, hstretch, List.take_drop, List.take_take]
  congr 2
  omega

theorem relay_resumes (decode : List Char → List Char)
    (hdecode : decode "after_sequence".toList = "after_sequence".toList)
    (decompress : List UInt8 → ℕ → Option (List UInt8)) {ringCapacity queue : ℕ}
    {before between after : List HubAction} {left back later : Hub}
    (hleft : run Hub.step (Hub.new ringCapacity queue) before = some left)
    (hback : run Hub.step left between = some back)
    (hheld : ∀ f ∈ outage left back, f ∈ back.ring.frames)
    {node : Node} {base : List Char} {b : Upstream} {accepted : Accepted}
    (haccepted : dialAnswer decode node (b.url base) = some (.ok accepted))
    {ip : String} {port connectedAtMs : ℕ}
    (hlater : run Hub.step
      (back.subscribe accepted.replay ⟨ip, port, some accepted.tokenId, connectedAtMs⟩) after =
        some later)
    {c : Client} (hc : later.client back.nextId = some c) {session : SessionRun}
    (hsent : session.received.map (·.bytes) <+: (c.replay ++ c.received).map (·.bytes))
    (hreplayed : c.replay.length ≤ session.received.length) :
    ('#' ∉ base → dialAnswer decode node base = some (.ok accepted)) ∧
    ∃ m n, m = back.published.length - c.replay.length ∧ n = m + session.received.length ∧
      n ≤ later.published.length ∧
      (redial decompress b session).published.map (·.bytes) =
        b.published.map (·.bytes) ++ ((later.published.take n).drop m).map (·.bytes) ∧
      (outage left back <:+: (later.published.take n).drop m ↔
        (outage left back).length ≤ accepted.replay) := by
  obtain ⟨hordered, -⟩ := (ordered_new ringCapacity queue).run hleft
  obtain ⟨hordered, hpublished⟩ := hordered.run hback
  -- B's new subscription, when it is made and later
  have hsubscribed := (hordered.step (.subscribe accepted.replay
    ⟨ip, port, some accepted.tokenId, connectedAtMs⟩)).1
  obtain ⟨horderedLater, hgrown⟩ := hsubscribed.run hlater
  obtain ⟨c', hc', hfrozen⟩ := Hub.run_frozen hsubscribed (Function.update_self _ _ _) hlater
  rw [hc] at hc'
  cases hc'
  have hreplay : c.replay = back.ring.tail accepted.replay := hfrozen.replay
  have hsince : c.since = back.published.length := hfrozen.since
  have hall : run Hub.step (Hub.new ringCapacity queue)
      (before ++ (between ++ HubAction.subscribe accepted.replay
        ⟨ip, port, some accepted.tokenId, connectedAtMs⟩ :: after)) = some later :=
    run_append_eq_some.mpr ⟨left, hleft, run_append_eq_some.mpr ⟨back, hback, hlater⟩⟩
  have hcontiguous := (streams_run hall).1.contiguous back.nextId c hc
  -- what it has been sent
  have hk : session.received.length ≤ (c.replay ++ c.received).length := by
    have hle := hsent.length_le
    simp_all
  obtain ⟨hstretch, hn⟩ := sent_stretch hcontiguous hk
  have hbytes : session.received.map (·.bytes) =
      ((c.replay ++ c.received).take session.received.length).map (·.bytes) := by
    grind [List.prefix_iff_eq_take, List.map_take]
  have hshort : c.replay.length ≤ back.published.length := by
    rw [hreplay, length_tail, hordered.frames]
    exact (min_le_right _ _).trans (rtake_suffix _ _).length_le
  rw [hsince] at hstretch hn
  refine ⟨fun hbase => ?_, _, _, rfl, rfl, hn, ?_, ?_⟩
  · grind [dialAnswer, Upstream.url, wsQuery_dialUrl]
  · rw [bytes_redial, hbytes, hstretch]
  · rw [outage_infix_iff horderedLater hpublished hgrown (by omega) (by omega),
      ← outage_le_tail_iff hordered hheld, ← hreplay, outage, List.length_drop]
    omega

/-! ## With and without `_replay` -/

def testNode : Node := ⟨.new ["sa"], false, true, 0, 10⟩

def relayUrl : List Char := "ws://a:8012/uma/v1/ws?token=sa".toList

def relayFrame (sequence : ℕ) : EdgeFrame :=
  ⟨0, sequence, sequence, (testFrame sequence).bytes, 0⟩

def testLeft : Hub := (Hub.new 4 2).publish (relayFrame 1)

def testBack : Hub := testLeft.publish (relayFrame 2)

def testRelay : Upstream :=
  runUpstream noZstd (.start 8) [testSession (.other "closed") [1]]

def testRelayInfo : ClientInfo := ⟨"10.0.0.9", 4100, some "env", 7⟩

/-- With `_replay=10` both frames of the ring come first, the second among them. -/
theorem relay_resumes_with_replay :
    ∃ later, run Hub.step (testBack.subscribe 10 testRelayInfo)
        [.publish (relayFrame 3), .recv 1] = some later ∧
      (outage testLeft testBack).map (·.bytes) = [(testFrame 2).bytes] ∧
      ∃ m n, (redial noZstd testRelay (testSession (.other "closed") [1, 2, 3])).published.map
            (·.bytes) =
          testRelay.published.map (·.bytes) ++
            ((later.published.take n).drop m).map (·.bytes) ∧
        outage testLeft testBack <:+: (later.published.take n).drop m := by
  have hvals : ((run Hub.step (testBack.subscribe 10 testRelayInfo)
      [.publish (relayFrame 3), .recv 1]).bind fun later => (later.client 1).map fun c =>
        ((c.replay ++ c.received).map (·.bytes), c.replay.length)) =
      some ([1, 2, 3].map fun n => (testFrame n).bytes, 2) := by decide +kernel
  obtain ⟨later, hlater, hvals⟩ := Option.bind_eq_some_iff.mp hvals
  obtain ⟨c, hc, hvals⟩ := Option.map_eq_some_iff.mp hvals
  simp only [Prod.mk.injEq] at hvals
  obtain ⟨hsent, hlength⟩ := hvals
  have hleft : run Hub.step (Hub.new 4 2) [.publish (relayFrame 1)] = some testLeft := rfl
  have hback : run Hub.step testLeft [.publish (relayFrame 2)] = some testBack := rfl
  have hanswer : dialAnswer id testNode (testRelay.url (relayUrl ++ "&_replay=10".toList)) =
      some (.ok ⟨"env", 10⟩) := by decide +kernel
  have hreceived : (testSession (.other "closed") [1, 2, 3]).received.map (·.bytes) <+:
      (c.replay ++ c.received).map (·.bytes) := by
    rw [hsent]
    exact List.prefix_refl _
  obtain ⟨-, m, n, -, -, -, hbytes, houtage⟩ := relay_resumes id rfl noZstd hleft hback
    (by decide +kernel) hanswer hlater hc hreceived (by rw [hlength]; decide)
  exact ⟨later, hlater, by decide +kernel, m, n, hbytes, houtage.mpr (by decide +kernel)⟩

/-- **A relay configured without `_replay` loses the outage.** A's ring holds the second frame and
B's dial carries the first one's sequence, but A replays nothing; B goes on with the third frame. -/
theorem relay_loses_the_outage :
    (∀ f ∈ outage testLeft testBack, f ∈ testBack.ring.frames) ∧
    cursorParams (testRelay.url relayUrl) = [['1']] ∧
    dialAnswer id testNode (testRelay.url relayUrl) = some (.ok ⟨"env", 0⟩) ∧
    ((run Hub.step (testBack.subscribe 0 testRelayInfo)
      [.publish (relayFrame 3), .recv 1]).bind fun later => (later.client 1).map fun c =>
        (c.replay ++ c.received).map (·.bytes)) = some [(testFrame 3).bytes] ∧
    ∃ f ∈ outage testLeft testBack, f.bytes ∉
      (redial noZstd testRelay (testSession (.other "closed") [3])).published.map (·.bytes) := by
  decide +kernel

end RustUma.Cluster.Relay
