import RustUma.Forfeit.Tasks
import RustUma.Found.Run

/-!
# How long a match stays listed (`src/forfeit.rs` `prune`, `run_forfeit_feed`)

The age of a match is the time of the push that entered it. A prune removes the match with its age,
and every connection replays the history of the feed, so a match can be entered again with a new
age; so can one that was entered since the last save before a restart.
-/

namespace RustUma.Forfeit

open RustUma.Found RustUma.Model

structure Learning where
  tasks : Tasks
  learned : List (ℕ × ℕ)

inductive LearningAction where
  | list (a : ListAction)
  | restart (now : ℕ)
  deriving DecidableEq

namespace Learning

def learn (learned : List (ℕ × ℕ)) : ListAction → List (ℕ × ℕ)
  | .apply event now =>
    if event.pandascoreMatchId ∈ learned.map Prod.fst then learned
    else learned ++ [(event.pandascoreMatchId, now)]
  | _ => learned

def step (ttlUs : ℕ) (s : Learning) : LearningAction → Option Learning
  | .list a => (s.tasks.step a).map fun tasks => ⟨tasks, learn s.learned a⟩
  | .restart now => some ⟨.boot true ttlUs s.tasks.file now, s.learned⟩

def start (ttlUs now : ℕ) : Learning := ⟨.boot true ttlUs none now, []⟩

def NotForgotten (s : Learning) : LearningAction → Prop
  | .list (.apply event _) => event.pandascoreMatchId ∈ s.learned.map Prod.fst →
      (s.tasks.list.blockedMatches.get? event.pandascoreMatchId).isSome
  | _ => True

instance (s : Learning) (a : LearningAction) : Decidable (s.NotForgotten a) := by
  delta Learning.NotForgotten
  split <;> infer_instance

structure Dated (ttlUs : ℕ) (s : Learning) : Prop where
  ttl : s.tasks.list.ttlUs = ttlUs
  once : (s.learned.map Prod.fst).Nodup
  listed : ∀ k m, s.tasks.list.blockedMatches.get? k = some m →
    m.pandascoreMatchId = k ∧ (k, m.addedAtUs) ∈ s.learned
  saved : ∀ snapshot ∈ s.tasks.file, ∀ m ∈ snapshot.blockedMatches,
    (m.pandascoreMatchId, m.addedAtUs) ∈ s.learned

variable {ttlUs : ℕ} {s s' : Learning}

lemma mem_learn (learned : List (ℕ × ℕ)) (a : ListAction) {p : ℕ × ℕ} (h : p ∈ learned) :
    p ∈ learn learned a := by
  unfold learn
  grind

lemma nodup_learn {learned : List (ℕ × ℕ)} (h : (learned.map Prod.fst).Nodup) (a : ListAction) :
    ((learn learned a).map Prod.fst).Nodup := by
  unfold learn
  grind

lemma Dated.apply (h : s.Dated ttlUs) (event : ForfeitEvent) (now : ℕ)
    (hok : s.NotForgotten (.list (.apply event now))) :
    Dated ttlUs ⟨s.tasks.applied event now, learn s.learned (.apply event now)⟩ where
  ttl := h.ttl
  once := nodup_learn h.once (.apply event now)
  listed := by
    intro k m hm
    have hput : (if k = event.pandascoreMatchId then some (s.tasks.list.merged event now).blocked
        else s.tasks.list.blockedMatches.get? k) = some m := (Table.get?_put _ _ _ _).symm.trans hm
    split_ifs at hput with hk
    · cases hput
      subst hk
      unfold Blocklist.merged
      cases hget : s.tasks.list.blockedMatches.get? event.pandascoreMatchId with
      | some m =>
        obtain ⟨hkey, hlearned⟩ := h.listed _ m hget
        exact ⟨hkey, mem_learn _ (.apply event now) hlearned⟩
      | none =>
        have hnew : event.pandascoreMatchId ∉ s.learned.map Prod.fst := by
          intro hknown
          simpa [hget] using hok hknown
        simp [learn, hnew, BlockedMatch.merge, ForfeitEvent.newMatch]
    · obtain ⟨hkey, hlearned⟩ := h.listed k m hput
      exact ⟨hkey, mem_learn _ (.apply event now) hlearned⟩
  saved := fun snapshot hsnapshot m hm =>
    mem_learn _ (.apply event now) (h.saved snapshot hsnapshot m hm)

lemma Dated.step (h : s.Dated ttlUs) {a : LearningAction} (hok : s.NotForgotten a)
    (hstep : s.step ttlUs a = some s') : s'.Dated ttlUs := by
  cases a with
  | restart now =>
    cases hstep
    refine ⟨Blocklist.fromConfig_ttlUs .., h.once, ?_, h.saved⟩
    intro k m hm
    have hmem := Table.mem_values_of_get? hm
    obtain ⟨snapshot, hfile, hversion, -, -⟩ := Blocklist.exists_of_mem_fromConfig hmem
    have hrow : (k, m) ∈ snapshot.blockedMatches.map fun m => (m.pandascoreMatchId, m) := by
      apply Table.mem_of_mem_rows_ofList
      apply Table.mem_rows_of_get?
      change (Blocklist.fromConfig true ttlUs s.tasks.file now).blockedMatches.get? k = _ at hm
      rw [Option.mem_def.mp hfile] at hm
      unfold Blocklist.fromConfig Blocklist.load Blocklist.prune at hm
      simp only [if_true, if_pos hversion] at hm
      split_ifs at hm <;> exact Table.get?_of_get?_filter hm
    obtain ⟨m', hm', heq⟩ := List.mem_map.mp hrow
    cases heq
    exact ⟨rfl, h.saved snapshot hfile m hm'⟩
  | list a =>
    obtain ⟨tasks, htasks, rfl⟩ := Option.map_eq_some_iff.mp hstep
    cases Tasks.step_sound htasks with
    | apply event now henabled hfeed => exact h.apply event now hok
    | insertIds | setIndex => exact ⟨h.ttl, h.once, h.listed, h.saved⟩
    | prune now henabled hsaver =>
      refine ⟨h.ttl, h.once, ?_, h.saved⟩
      intro k m hm
      exact h.listed k m (Table.get?_of_get?_filter hm)
    | save henabled hsaver =>
      refine ⟨h.ttl, h.once, h.listed, ?_⟩
      intro snapshot hsnapshot m hm
      cases hsnapshot
      obtain ⟨k, hget⟩ := Table.get?_of_mem_values hm
      obtain ⟨hkey, hlearned⟩ := h.listed k m hget
      exact hkey ▸ hlearned
    | recordBlocked record matchId now =>
      refine ⟨h.ttl, h.once, ?_, h.saved⟩
      intro k m hm
      unfold Blocklist.recordBlocked at hm
      dsimp only at hm
      split at hm
      · next m' hget =>
        rw [Table.get?_put] at hm
        split_ifs at hm with hk
        · cases hm
          exact hk ▸ h.listed matchId m' hget
        · exact h.listed k m hm
      · exact h.listed k m hm

lemma dated_start (ttlUs now : ℕ) : (start ttlUs now).Dated ttlUs where
  ttl := rfl
  once := List.nodup_nil
  listed := by
    intro k m hm
    cases hm
  saved := by
    intro snapshot hsnapshot
    cases hsnapshot

lemma not_expired {a : LearningAction} {now : ℕ} (h : s.Dated ttlUs)
    (ha : a = .list (.prune now) ∨ a = .restart now) (hstep : s.step ttlUs a = some s')
    {m : BlockedMatch} (hm : m ∈ s'.tasks.list.blockedMatches.values) : ¬ Expired ttlUs now m := by
  rcases ha with rfl | rfl
  · obtain ⟨tasks, htasks, rfl⟩ := Option.map_eq_some_iff.mp hstep
    cases Tasks.step_sound htasks with
    | prune now henabled hsaver =>
      have hkept := (Table.mem_values_filter.mp hm).2
      rw [h.ttl] at hkept
      simp_all
  · cases hstep
    obtain ⟨-, -, -, -, hlive⟩ := Blocklist.exists_of_mem_fromConfig hm
    exact hlive

end Learning

theorem forfeit_entries_expire (ttlUs began : ℕ) (httl : 0 < ttlUs) (as : List LearningAction)
    (s s' : Learning) (hrun : run (Learning.step ttlUs) (.start ttlUs began) as = some s)
    (hok : AllSteps (Learning.step ttlUs) Learning.NotForgotten (.start ttlUs began) as)
    (now : ℕ) (a : LearningAction) (ha : a = .list (.prune now) ∨ a = .restart now)
    (hstep : s.step ttlUs a = some s') :
    (∀ m ∈ s'.tasks.list.blockedMatches.values, ∀ learnedAt,
      (m.pandascoreMatchId, learnedAt) ∈ s'.learned → now < learnedAt + ttlUs) ∧
    s'.tasks.list.blockedMatches.values.length ≤
      (s'.learned.filter fun p => now < p.2 + ttlUs).length := by
  have hdated : s.Dated ttlUs := run_invariant
    (fun _ _ _ h hok hstep => h.step hok hstep) (Learning.dated_start ttlUs began) hok hrun
  have hdated' : s'.Dated ttlUs := hdated.step (by rcases ha with rfl | rfl <;> trivial) hstep
  have hyoung : ∀ m ∈ s'.tasks.list.blockedMatches.values, now < m.addedAtUs + ttlUs := by
    intro m hm
    have hlive := Learning.not_expired hdated ha hstep hm
    unfold Expired at hlive
    omega
  have hlisted : ∀ m ∈ s'.tasks.list.blockedMatches.values,
      (m.pandascoreMatchId, m.addedAtUs) ∈ s'.learned := by
    intro m hm
    obtain ⟨k, hget⟩ := Table.get?_of_mem_values hm
    obtain ⟨hkey, hlearned⟩ := hdated'.listed k m hget
    exact hkey ▸ hlearned
  constructor
  · intro m hm learnedAt hlearned
    have heq := List.inj_on_of_nodup_map hdated'.once hlearned (hlisted m hm) rfl
    simp_all
  · -- the rows have distinct keys, each with its own entry in the record
    rw [Table.values, List.length_map, ← List.length_map,
      ← @List.length_map _ _ (List.filter _ _) Prod.fst]
    apply List.Subperm.length_le
    apply List.subperm_of_subset
    · exact (List.pairwise_map.mpr s'.tasks.list.blockedMatches.sorted).imp fun hlt => hlt.ne
    · intro k hk
      obtain ⟨⟨_, m⟩, hrow, rfl⟩ := List.mem_map.mp hk
      obtain ⟨-, hlearned⟩ := hdated'.listed _ m (Table.get?_of_mem_rows hrow)
      refine List.mem_map.mpr ⟨_, List.mem_filter.mpr ⟨hlearned, decide_eq_true ?_⟩, rfl⟩
      exact hyoung m (Table.mem_values_of_get? (Table.get?_of_mem_rows hrow))

def testForfeit (matchId : ℕ) : ForfeitEvent where
  sequence := matchId
  detectAtUs := 0
  game := ""
  league := ""
  matchName := ""
  pandascoreMatchId := matchId
  forfeitedGameNumber := 1
  teamA := ""
  teamB := ""
  winner := ""
  lookupStatus := 1
  pmEventSlug := ""
  conditionIds := []
  markets := []

theorem forfeit_entries_expire_of_two :
    ∃ s s', run (Learning.step 10) (.start 10 0)
        [.list (.apply (testForfeit 1) 1), .list .save, .list (.apply (testForfeit 2) 9)] = some s ∧
      s.step 10 (.list (.prune 12)) = some s' ∧
      s'.tasks.list.blockedMatches.values.length ≤
        (s'.learned.filter fun p => 12 < p.2 + 10).length := by
  refine ⟨_, _, rfl, rfl, ?_⟩
  exact (forfeit_entries_expire 10 0 (by decide)
    [.list (.apply (testForfeit 1) 1), .list .save, .list (.apply (testForfeit 2) 9)] _ _ rfl
    (by decide +kernel) 12 _ (Or.inl rfl) rfl).2

/-- **A replay brings an expired match back**: learned of at 1 and gone at 12, it is pushed again by
the next session and listed after the prune at 14. -/
theorem forfeit_entry_returns :
    ((run (Learning.step 10) (.start 10 0) [.list (.apply (testForfeit 1) 1), .list (.prune 12),
      .list .setIndex, .list (.apply (testForfeit 1) 13), .list (.prune 14)]).map fun s =>
        (s.tasks.list.blockedMatches.values.map BlockedMatch.pandascoreMatchId, s.learned)) =
      some ([1], [(1, 1)]) := by
  decide +kernel

end RustUma.Forfeit
