import RustUma.Forfeit.Agreement
import RustUma.Service.ReplayFloor

/-!
# What the blocklist holds back

`process` asks the index; what is to be held back is what the list says.
-/

namespace RustUma.Service

open RustUma.Found RustUma.Model RustUma.Pipeline RustUma.Storage RustUma.Forfeit

def InOrder (g : Guarded) : GuardedAction → Prop
  | .serve _ => True
  | .list a => Ordered g.tasks a

instance (g : Guarded) : (a : GuardedAction) → Decidable (InOrder g a)
  | .serve _ => .isTrue trivial
  | .list a => inferInstanceAs (Decidable (Ordered g.tasks a))

def Guarded.Quiet (g : Guarded) : Prop := g.tasks.feed = none ∧ g.tasks.saver = none

instance : DecidablePred Guarded.Quiet := fun g =>
  inferInstanceAs (Decidable (g.tasks.feed = none ∧ g.tasks.saver = none))

lemma lookup_phase {codec : Codec} {config : Config} {g g' : Guarded} {i : ℕ} {blocked : Option ℕ}
    (h : g.step codec config (.serve (.process (.lookup i blocked))) = some g') :
    ∃ record, (g.server.proc.calls i).phase = .stored record ∧
      blocked = g.tasks.list.lookup record.resolvedConditionId ∧
      (g'.server.proc.calls i).phase = if blocked.isSome then .done else .unblocked record := by
  cases Guarded.step_sound h with
  | serve a server hanswers hserver =>
    obtain ⟨p, hproc, rfl⟩ := Option.map_eq_some_iff.mp hserver
    cases Processor.step_sound hproc with
    | blocked _ record matchId hstored =>
      have hrecord : record ∈ (g.server.proc.calls i).phase.record? := by
        rw [hstored]
        rfl
      refine ⟨record, hstored, hanswers record hrecord, ?_⟩
      simp
    | unblocked _ record hstored =>
      have hrecord : record ∈ (g.server.proc.calls i).phase.record? := by
        rw [hstored]
        rfl
      refine ⟨record, hstored, hanswers record hrecord, ?_⟩
      simp

theorem blocklist_holds_back_the_listed {codec : Codec} {config : Config}
    {wal : Option (List UInt8)} {cursorFile : Option ℕ} {configured : Bool} {ttlUs : ℕ}
    {file : Option Snapshot} {now : ℕ} {as : List GuardedAction} {g : Guarded}
    (hrun : run (Guarded.step codec config)
      (Guarded.boot codec config wal cursorFile configured ttlUs file now) as = some g)
    (horder : AllSteps (Guarded.step codec config) InOrder
      (Guarded.boot codec config wal cursorFile configured ttlUs file now) as)
    (hquiet : g.Quiet) :
    (∀ c, (g.tasks.list.lookup c).isSome ↔ Listed g.tasks.list c) ∧
    ∀ i blocked g', g.step codec config (.serve (.process (.lookup i blocked))) = some g' →
      ∃ record, (g.server.proc.calls i).phase = .stored record ∧
        (g'.server.proc.calls i).phase =
          if Listed g.tasks.list record.resolvedConditionId then .done else .unblocked record := by
  have hagrees : Agrees g.tasks := by
    refine run_invariant (I := fun g => Agrees g.tasks) ?_ ?_ horder hrun
    · intro g a g' hagrees hinorder hstep
      cases Guarded.step_sound hstep with
      | serve a server hanswers hserver => exact hagrees
      | list a tasks hlist => exact hagrees.step hlist hinorder
    · exact agrees_boot configured ttlUs file now
  have hlookup := hagrees.isSome_lookup hquiet.1 hquiet.2
  refine ⟨hlookup, fun i blocked g' hstep => ?_⟩
  obtain ⟨record, hstored, rfl, hphase⟩ := lookup_phase hstep
  simp_all

/-! ## Runs -/

def testPushOfEight (ids : List (Bytes 32)) : ForfeitEvent :=
  { testPush ids with pandascoreMatchId := 8 }

def testExpiring : Guarded :=
  Guarded.boot (prostCodec []) (testConfig 4) none none true 100 none 1

/-- A match expires, another one is listed while the prune is half done and indexed after it: its
event is held back. -/
theorem blocklist_holds_back_listed_event :
    ∃ g g', run (Guarded.step (prostCodec []) (testConfig 4)) testExpiring
        ([.list (.apply (testPush [Bytes.fill 32 77]) 5), .list .insertIds, .list (.prune 200),
          .list (.apply (testPushOfEight [testMarket.conditionId]) 200), .list .setIndex,
          .list .insertIds] ++
          ((callUpToSend 0 (testUmaEvent 1 1)).dropLast.map .serve)) = some g ∧
      g.step (prostCodec []) (testConfig 4) (.serve (.process (.lookup 0 (some 8)))) = some g' ∧
      Listed g.tasks.list testMarket.conditionId ∧ ¬ Listed g.tasks.list (Bytes.fill 32 77) ∧
      (g'.server.proc.calls 0).phase = .done := by
  refine exists_some₂_imp (P := fun g _ => g.Quiet ∧
    (g.server.proc.calls 0).phase = .stored firstRecord ∧
    Listed g.tasks.list testMarket.conditionId ∧ ¬ Listed g.tasks.list (Bytes.fill 32 77))
    (by decide +kernel) ?_
  rintro g g' hrun hstep ⟨hquiet, hphase, hlisted, hexpired⟩
  refine ⟨hlisted, hexpired, ?_⟩
  obtain ⟨record, hrecord, hdone⟩ := (blocklist_holds_back_the_listed hrun (by decide +kernel)
    hquiet).2 0 (some 8) g' hstep
  rw [hphase] at hrecord
  cases hrecord
  rw [hdone]
  exact if_pos hlisted

theorem index_written_out_of_order :
    (∃ g, run (Guarded.step (prostCodec []) (testConfig 4)) testExpiring
        ([.list (.apply (testPush [Bytes.fill 32 77]) 5), .list .insertIds, .list (.prune 200),
          .list (.apply (testPushOfEight [testMarket.conditionId]) 200), .list .insertIds,
          .list .setIndex, .list (.apply (testPushOfEight [testMarket.conditionId]) 201)] ++
          broadcastFirst) = some g ∧ g.Quiet ∧
      Listed g.tasks.list firstRecord.resolvedConditionId ∧
      g.tasks.list.lookup firstRecord.resolvedConditionId = none ∧
      g.server.proc.sent = [firstRecord]) ∧
    ∃ g, run (Guarded.step (prostCodec []) (testConfig 4)) testExpiring
        ([.list (.apply (testPush [Bytes.fill 32 77]) 5), .list .insertIds,
          .list (.apply (testPush [testMarket.conditionId]) 104), .list (.prune 105),
          .list .setIndex, .list .insertIds] ++
          ((callUpToSend 0 (testUmaEvent 1 1)).dropLast.map .serve) ++
          [.serve (.process (.lookup 0 (some 7)))]) = some g ∧ g.Quiet ∧
      g.tasks.list.blockedMatches.values = [] ∧
      g.tasks.list.lookup firstRecord.resolvedConditionId = some 7 ∧
      g.server.proc.accepted = [firstRecord] ∧ (g.server.proc.calls 0).phase = .done ∧
      g.server.proc.sent = [] :=
  ⟨exists_some_of_any (by decide +kernel), exists_some_of_any (by decide +kernel)⟩

end RustUma.Service
