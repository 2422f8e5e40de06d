import RustUma.Service.ExactlyOnce
import RustUma.Forfeit.Tasks

/-!
# The replay floor after a restart

At boot the frame ring's replay floor is set to the newest recovered event that the previous process
broadcast. Which events those are is reconstructed from today's blocklist: an enriched event counts
as broadcast unless a match that lists its condition was learned of before the event arrived. The
list keeps one time for each match, not for each of its conditions.
-/

namespace RustUma.Service

open RustUma.Found RustUma.Model RustUma.Hub RustUma.Pipeline RustUma.Api RustUma.Storage
open RustUma.Forfeit

/-! ## The service with its blocklist -/

structure Guarded where
  server : Server
  tasks : Tasks
  cleared : List EventRecord

inductive GuardedAction where
  | serve (a : ServerAction)
  | list (a : ListAction)
  deriving DecidableEq

def GuardedAction.serve? : GuardedAction → Option ServerAction
  | .serve a => some a
  | .list _ => none

namespace Guarded

def boot (codec : Codec) (config : Config) (wal : Option (List UInt8)) (cursorFile : Option ℕ)
    (configured : Bool) (ttlUs : ℕ) (file : Option Snapshot) (now : ℕ) : Guarded where
  server := Server.boot codec config
    (Blocklist.fromConfig configured ttlUs file now).blockedBefore wal cursorFile
  tasks := Tasks.boot configured ttlUs file now
  cleared := []

def Answers (g : Guarded) : ServerAction → Prop
  | .process (.lookup i blocked) =>
    ∀ r ∈ (g.server.proc.calls i).phase.record?,
      blocked = g.tasks.list.lookup r.resolvedConditionId
  | _ => True

instance (g : Guarded) : (a : ServerAction) → Decidable (g.Answers a)
  | .process (.lookup ..) => inferInstanceAs (Decidable (∀ _ ∈ _, _))
  | .process (.receive ..) | .process (.contains ..) | .process (.resolve ..)
  | .process (.fetchAdd ..) | .process (.insert ..) | .process (.credit ..) | .process (.store ..)
  | .process (.send ..) | .process (.checkpoint ..) | .batch _ | .session _ | .write _ | .shutdown =>
    .isTrue trivial

def clears (g : Guarded) : ServerAction → List EventRecord
  | .process (.lookup i none) => (g.server.proc.calls i).phase.record?.toList
  | _ => []

def step (codec : Codec) (config : Config) (g : Guarded) : GuardedAction → Option Guarded
  | .serve a =>
    if g.Answers a then
      (g.server.step codec config a).map fun server =>
        { g with server := server, cleared := g.cleared ++ g.clears a }
    else none
  | .list a => (g.tasks.step a).map fun tasks => { g with tasks := tasks }

inductive Step (codec : Codec) (config : Config) (g : Guarded) :
    GuardedAction → Guarded → Prop where
  | serve (a : ServerAction) (server : Server) (hanswers : g.Answers a)
      (hstep : g.server.step codec config a = some server) :
      Step codec config g (.serve a)
        { g with server := server, cleared := g.cleared ++ g.clears a }
  | list (a : ListAction) (tasks : Tasks) (hstep : g.tasks.Step a tasks) :
      Step codec config g (.list a) { g with tasks := tasks }

theorem step_sound {codec : Codec} {config : Config} {g g' : Guarded} {a : GuardedAction}
    (h : g.step codec config a = some g') : Step codec config g a g' := by
  cases a with
  | serve a =>
    simp only [step] at h
    split_ifs at h with hanswers
    obtain ⟨server, hstep, rfl⟩ := Option.map_eq_some_iff.mp h
    exact .serve a server hanswers hstep
  | list a =>
    obtain ⟨tasks, hstep, rfl⟩ := Option.map_eq_some_iff.mp h
    exact .list a tasks (Tasks.step_sound hstep)

lemma run_server {codec : Codec} {config : Config} {g g' : Guarded} {as : List GuardedAction}
    (h : run (step codec config) g as = some g') :
    run (Server.step codec config) g.server (as.filterMap GuardedAction.serve?) =
      some g'.server := by
  refine run_project Guarded.server GuardedAction.serve? ?_ h
  intro g a g' hstep
  cases step_sound hstep with
  | serve a server hanswers hserver => exact hserver
  | list a tasks hlist => rfl

end Guarded

/-! ## What is asked of a run -/

def Timely (g : Guarded) : GuardedAction → Prop
  | .serve (.process (.lookup i _)) =>
    ∀ r ∈ (g.server.proc.calls i).phase.record?, ∀ insertion ∈ g.tasks.feed,
      r.resolvedConditionId ∉ insertion.ids
  | .list (.apply event now) =>
    g.tasks.saver.isNone ∧ ∀ r ∈ g.cleared,
      r.resolvedConditionId ∈ (g.tasks.list.merged event now).newIds →
        r.receivedAtUs < (g.tasks.list.merged event now).blocked.addedAtUs
  | _ => True

instance (g : Guarded) : (a : GuardedAction) → Decidable (Timely g a)
  | .serve (.process (.lookup ..)) => inferInstanceAs (Decidable (∀ _ ∈ _, ∀ _ ∈ _, _))
  | .list (.apply ..) => inferInstanceAs (Decidable (_ ∧ ∀ _ ∈ _, _))
  | .serve (.process (.receive ..)) | .serve (.process (.contains ..))
  | .serve (.process (.resolve ..)) | .serve (.process (.fetchAdd ..))
  | .serve (.process (.insert ..)) | .serve (.process (.credit ..))
  | .serve (.process (.store ..)) | .serve (.process (.send ..))
  | .serve (.process (.checkpoint ..)) | .serve (.batch _) | .serve (.session _)
  | .serve (.write _) | .serve .shutdown | .list .insertIds | .list (.prune _) | .list .setIndex
  | .list .save | .list (.recordBlocked ..) => .isTrue trivial

/-! ## The invariant -/

def LetThrough (cleared : List EventRecord) : Phase → Prop
  | .stored r => r.enrichment.isSome
  | .unblocked r => r.enrichment.isSome ∧ r ∈ cleared
  | _ => True

structure Cleared (cleared : List EventRecord) (p : Processor) : Prop where
  calls : ∀ i, LetThrough cleared (p.calls i).phase
  sent : ∀ r ∈ p.sent, r.enrichment.isSome ∧ r ∈ cleared

structure Covered (g : Guarded) : Prop where
  consistent : Consistent g.tasks
  cleared : Cleared g.cleared g.server.proc
  later : ∀ r ∈ g.cleared, ∀ m ∈ g.tasks.list.blockedMatches.values,
    r.resolvedConditionId ∈ m.ids → r.receivedAtUs < m.addedAtUs

namespace Cleared

variable {cleared : List EventRecord} {p p' : Processor}

lemma mono (h : Cleared cleared p) (extra : List EventRecord) : Cleared (cleared ++ extra) p := by
  refine ⟨fun i => ?_, fun r hr => ?_⟩
  · have hi := h.calls i
    cases hphase : (p.calls i).phase <;> rw [hphase] at hi
    case unblocked r => exact ⟨hi.1, List.mem_append_left _ hi.2⟩
    all_goals exact hi
  · exact ⟨(h.sent r hr).1, List.mem_append_left _ (h.sent r hr).2⟩

lemma move (h : Cleared cleared p) (i : ℕ) (call : Call) (hcall : LetThrough cleared call.phase)
    (hcalls : p'.calls = Function.update p.calls i call) (hsent : p'.sent = p.sent) :
    Cleared cleared p' := by
  refine ⟨?_, ?_⟩
  · rw [hcalls]
    exact forall_update h.calls i call hcall
  · rw [hsent]
    exact h.sent

lemma afterStore (r : EventRecord) : LetThrough cleared (.afterStore r) := by
  unfold Phase.afterStore
  split_ifs with henriched
  · exact henriched
  · trivial

lemma step (h : Cleared cleared p) {b : Action} (hstep : p.Step b p')
    (hlookup : ∀ i, b = .lookup i none → ∀ r ∈ (p.calls i).phase.record?, r ∈ cleared) :
    Cleared cleared p' := by
  cases hstep with
  | undecodable i receivedAtUs source hphase => exact h.move i ⟨source, .done⟩ trivial rfl rfl
  | decode i event receivedAtUs source hphase =>
    exact h.move i ⟨source, .decoded event⟩ trivial rfl rfl
  | known i event hphase hkey | lose i record hphase hkey | blocked i record matchId hphase
  | sendFailed i record hphase hclosed =>
    exact h.move i { p.calls i with phase := .done } trivial rfl rfl
  | unknown i event hphase hkey =>
    exact h.move i { p.calls i with phase := .fresh event } trivial rfl rfl
  | resolve i event row hphase =>
    exact h.move i { p.calls i with phase := .resolved event row } trivial rfl rfl
  | fetchAdd i event row hphase =>
    exact h.move i { p.calls i with phase := .sequenced _ } trivial rfl rfl
  | accept i record hphase hkey =>
    exact h.move i { p.calls i with phase := .inserted record } trivial rfl rfl
  | credit i record hphase =>
    exact h.move i { p.calls i with phase := .admitted record } trivial rfl rfl
  | store i record hphase hroom | drop i record hphase hroom =>
    exact h.move i { p.calls i with phase := .afterStore record } (afterStore record) rfl rfl
  | unblocked i record hphase =>
    have hi := h.calls i
    rw [hphase] at hi
    refine h.move i { p.calls i with phase := .unblocked record } ⟨hi, ?_⟩ rfl rfl
    exact hlookup i rfl record (by rw [hphase]; rfl)
  | send i record hphase hroom =>
    refine ⟨forall_update h.calls i _ trivial, ?_⟩
    intro r hr
    rcases List.mem_append.mp hr with hr | hr
    · exact h.sent r hr
    · rw [List.mem_singleton.mp hr]
      have hi := h.calls i
      rw [hphase] at hi
      exact hi
  | checkpoint block hroom => exact ⟨h.calls, h.sent⟩
  | checkpointDropped block hroom => exact ⟨h.calls, h.sent⟩

end Cleared

namespace Covered

variable {codec : Codec} {config : Config} {g g' : Guarded} {a : GuardedAction}

lemma clears_not_listed (h : Covered g) {a : ServerAction} (hanswers : g.Answers a)
    (hok : Timely g (.serve a)) :
    ∀ r ∈ g.clears a, ∀ m ∈ g.tasks.list.blockedMatches.values,
      r.resolvedConditionId ∉ m.ids := by
  unfold Guarded.clears
  split
  · next i =>
    intro r hr
    rw [Option.mem_toList] at hr
    exact h.consistent.not_listed (hanswers r hr).symm (hok r hr)
  simp

lemma serve (h : Covered g) {a : ServerAction} {server : Server} (hanswers : g.Answers a)
    (hok : Timely g (.serve a)) (hstep : g.server.step codec config a = some server) :
    Covered { g with server := server, cleared := g.cleared ++ g.clears a } := by
  refine ⟨h.consistent, ?_, ?_⟩
  · rcases (Server.step_sound hstep).core with ⟨b, rfl, hproc⟩ | hcore
    · refine (h.cleared.mono _).step hproc ?_
      rintro i rfl r hr
      exact List.mem_append_right _ (Option.mem_toList.mpr hr)
    · refine ⟨?_, ?_⟩
      · rw [hcore.calls]
        exact (h.cleared.mono _).calls
      · rw [hcore.sent]
        exact (h.cleared.mono _).sent
  · intro r hr m hm hc
    rcases List.mem_append.mp hr with hr | hr
    · exact h.later r hr m hm hc
    · exact absurd hc (h.clears_not_listed hanswers hok r hr m hm)

lemma list (h : Covered g) {a : ListAction} {tasks : Tasks} (hok : Timely g (.list a))
    (hstep : g.tasks.Step a tasks) : Covered { g with tasks := tasks } := by
  refine ⟨h.consistent.step hstep ?_, h.cleared, ?_⟩
  · rintro event now rfl
    exact Option.isNone_iff_eq_none.mp hok.1
  · intro r hr m hm hc
    cases hstep with
    | apply event now henabled hfeed =>
      rcases mem_of_mem_put hm with rfl | hm
      · rcases Blocklist.mem_ids_merged hc with hnew | ⟨m, hm, hc, hadded⟩
        · exact hok.2 r hr hnew
        · rw [← hadded]
          exact h.later r hr m hm hc
      · exact h.later r hr m hm hc
    | prune now henabled hsaver => exact h.later r hr m (Table.mem_values_filter.mp hm).1 hc
    | recordBlocked record matchId now =>
      obtain ⟨m', hm', hext, -⟩ := Blocklist.recordBlocked_values hm
      rw [← hext.addedAtUs]
      exact h.later r hr m' hm' (hext.ids _ hc)
    | _ => exact h.later r hr m hm hc

lemma step (h : Covered g) (hok : Timely g a) (hstep : g.step codec config a = some g') :
    Covered g' := by
  cases Guarded.step_sound hstep with
  | serve a server hanswers hserver => exact h.serve hanswers hok hserver
  | list a tasks hlist => exact h.list hok hlist

lemma blockedBefore_eq_false (h : Covered g) {ttlUs : ℕ} (hconf : Configured ttlUs g.tasks)
    (configured : Bool) {now : ℕ} (hclock : g.tasks.prunedAt ≤ now) {r : EventRecord}
    (hr : r ∈ g.cleared) :
    (Blocklist.fromConfig configured ttlUs g.tasks.file now).blockedBefore
      r.resolvedConditionId r.receivedAtUs = false := by
  rw [Bool.eq_false_iff]
  intro hblocked
  unfold Blocklist.blockedBefore at hblocked
  rw [Blocklist.fromConfig_index] at hblocked
  cases hindex : buildIndex (Blocklist.fromConfig configured ttlUs g.tasks.file now).blockedMatches
      r.resolvedConditionId with
  | none =>
    simp_all
  | some e =>
    rw [hindex] at hblocked
    have hle : e.addedAtUs ≤ r.receivedAtUs := of_decide_eq_true hblocked
    -- the entry speaks for a match of the file that has not expired
    obtain ⟨m, hm, hc, rfl⟩ := buildIndex_eq_some hindex
    obtain ⟨snapshot, hfile, hversion, hm, hkept⟩ := Blocklist.exists_of_mem_fromConfig hm
    have httl : g.tasks.list.ttlUs = ttlUs := by
      rcases hconf with ⟨-, httl⟩ | ⟨-, hnone⟩
      · exact httl
      simp_all
    rcases h.consistent.saved snapshot hfile hversion m hm with hexpired | ⟨m', hm', hext⟩
    · rw [httl] at hexpired
      exact hkept (hexpired.mono hclock)
    · have hlater := h.later r hr m' hm' (hext.ids _ hc)
      rw [hext.addedAtUs] at hlater
      grind

end Covered

/-! ## The floor -/

lemma le_lastBroadcastSequence {blockedBefore : Bytes 32 → ℕ → Bool} {recovered : List EventRecord}
    {e : EventRecord} (he : e ∈ recovered) (henriched : e.enrichment.isSome = true)
    (hfree : blockedBefore e.resolvedConditionId e.receivedAtUs = false) :
    e.sequence ≤ lastBroadcastSequence blockedBefore recovered := by
  unfold lastBroadcastSequence
  induction recovered using List.reverseRecOn with
  | nil => cases he
  | append_singleton recovered event ih =>
    grind

theorem replay_floor_covers_broadcasts (codec : Codec) (config : Config)
    (wal : Option (List UInt8)) (cursorFile : Option ℕ) (configured : Bool) (ttlUs : ℕ)
    (file : Option Snapshot) (now : ℕ) (as : List GuardedAction) (g : Guarded)
    (hfile : configured = true ∨ file = none)
    (hok : AllSteps (Guarded.step codec config) Timely
      (Guarded.boot codec config wal cursorFile configured ttlUs file now) as)
    (hrun : run (Guarded.step codec config)
      (Guarded.boot codec config wal cursorFile configured ttlUs file now) as = some g)
    (configured' : Bool) (now' : ℕ) (hclock : g.tasks.prunedAt ≤ now')
    (recovered : List EventRecord)
    (hwal : ∀ r ∈ g.server.proc.accepted, r.recovered ∈ recovered) :
    let list := Blocklist.fromConfig configured' ttlUs g.tasks.file now'
    ∀ r ∈ g.server.proc.sent,
      list.blockedBefore r.resolvedConditionId r.receivedAtUs = false ∧
        r.sequence ≤ lastBroadcastSequence list.blockedBefore recovered := by
  intro list r hr
  have hinv : Covered g ∧ Configured ttlUs g.tasks := by
    refine run_invariant (I := fun g => Covered g ∧ Configured ttlUs g.tasks) ?_ ?_ hok hrun
    · rintro g a g' ⟨hcov, hconf⟩ hok hstep
      refine ⟨hcov.step hok hstep, ?_⟩
      cases Guarded.step_sound hstep with
      | serve a server hanswers hserver => exact hconf
      | list a tasks hlist => exact hconf.step hlist
    · refine ⟨⟨consistent_boot ttlUs now hfile, ⟨fun i => trivial, ?_⟩, ?_⟩,
        configured_boot ttlUs now hfile⟩
      · exact fun r hr => absurd hr List.not_mem_nil
      · exact fun r hr => absurd hr List.not_mem_nil
  obtain ⟨henriched, hcleared⟩ := hinv.1.cleared.sent r hr
  have hfree : list.blockedBefore r.resolvedConditionId r.receivedAtUs = false :=
    hinv.1.blockedBefore_eq_false hinv.2 configured' hclock hcleared
  refine ⟨hfree, ?_⟩
  have haccepted := (admission_run (Guarded.run_server hrun)).1.sent_sub r hr
  have hmem := hwal r haccepted
  rw [← EventRecord.recovered_sequence]
  refine le_lastBroadcastSequence hmem ?_ ?_
  · simp_all
  simp_all

/-! ## Two histories -/

def testPush (ids : List (Bytes 32)) : ForfeitEvent where
  sequence := 1
  detectAtUs := 0
  game := ""
  league := ""
  matchName := ""
  pandascoreMatchId := 7
  forfeitedGameNumber := 1
  teamA := "A"
  teamB := "B"
  winner := ""
  lookupStatus := if ids = [] then 2 else 1
  pmEventSlug := ""
  conditionIds := ids.map Subtype.val
  markets := ids.map fun id => ⟨id.1, "", "child_moneyline", 0, false⟩

def broadcastFirst : List GuardedAction :=
  (callUpToSend 0 (testUmaEvent 1 1) ++ [ServerAction.process (.send 0)]).map .serve

def testGuarded : Guarded :=
  Guarded.boot (prostCodec []) (testConfig 4) none none true 0 none 1

/-- The event arrives at 8, the match is learned of at 10 with the event's condition: the next boot
still counts the event as broadcast. -/
theorem replay_floor_covers_event_before_match :
    ∃ g, run (Guarded.step (prostCodec []) (testConfig 4)) testGuarded
        (broadcastFirst ++ [.list (.apply (testPush [testMarket.conditionId]) 10), .list .insertIds,
          .list .save]) = some g ∧
      g.server.proc.sent = [firstRecord] ∧
      1 ≤ lastBroadcastSequence (Blocklist.fromConfig true 0 g.tasks.file 11).blockedBefore
        [firstRecord.recovered] := by
  refine exists_some_imp (P := fun g => g.server.proc.sent = [firstRecord] ∧
    g.server.proc.accepted = [firstRecord] ∧ g.tasks.prunedAt = 1) (by decide +kernel) ?_
  rintro g hrun ⟨hsent, haccepted, hpruned⟩
  refine ⟨hsent, ?_⟩
  have hwal : ∀ r ∈ g.server.proc.accepted, r.recovered ∈ [firstRecord.recovered] := by
    simp_all
  have hmain := replay_floor_covers_broadcasts (prostCodec []) (testConfig 4) none none true 0 none
    1 _ g (Or.inl rfl) (by decide +kernel) hrun true 11 (by rw [hpruned]; decide)
    [firstRecord.recovered] hwal firstRecord
  rw [hsent] at hmain
  exact (hmain (List.mem_singleton_self _)).2

theorem completed_match_lowers_the_floor :
    ∃ g, run (Guarded.step (prostCodec []) (testConfig 4)) testGuarded
        ([.list (.apply (testPush []) 5)] ++ broadcastFirst ++
          [.list (.apply (testPush [testMarket.conditionId]) 10), .list .insertIds,
            .list .save]) = some g ∧
      g.server.proc.accepted = [firstRecord] ∧ g.server.proc.sent = [firstRecord] ∧
      g.tasks.prunedAt ≤ 11 ∧
      (Blocklist.fromConfig true 0 g.tasks.file 11).blockedBefore firstRecord.resolvedConditionId
        firstRecord.receivedAtUs = true ∧
      lastBroadcastSequence (Blocklist.fromConfig true 0 g.tasks.file 11).blockedBefore
        [firstRecord.recovered] < firstRecord.sequence :=
  exists_some_of_any (by decide +kernel)

end RustUma.Service
