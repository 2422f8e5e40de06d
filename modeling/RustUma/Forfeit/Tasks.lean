import RustUma.Forfeit.Blocklist

/-!
# The tasks that write the blocklist (`src/forfeit.rs` `run_forfeit_feed`, `run_saver`)

The feed task applies pushes, the saver task prunes and writes the file, the `process` calls count
what they held back. List and index are two locks, so each of `apply` and `prune` can be seen half
done by the others.
-/

namespace RustUma.Forfeit

open RustUma.Found RustUma.Model

structure Insertion where
  ids : List (Bytes 32)
  entry : Entry
  deriving DecidableEq

structure Tasks where
  list : Blocklist
  feed : Option Insertion
  saver : Option Index
  file : Option Snapshot
  prunedAt : ℕ

inductive ListAction where
  | apply (event : ForfeitEvent) (now : ℕ)
  | insertIds
  | prune (now : ℕ)
  | setIndex
  | save
  | recordBlocked (record : EventRecord) (matchId now : ℕ)
  deriving DecidableEq

namespace Tasks

def boot (configured : Bool) (ttlUs : ℕ) (file : Option Snapshot) (now : ℕ) : Tasks where
  list := Blocklist.fromConfig configured ttlUs file now
  feed := none
  saver := none
  file := file
  prunedAt := now

def applied (t : Tasks) (event : ForfeitEvent) (now : ℕ) : Tasks :=
  let merged := t.list.merged event now
  { t with
    list := t.list.applyState event now
    feed := if merged.newIds = [] then none
      else some ⟨merged.newIds, ⟨event.pandascoreMatchId, merged.blocked.addedAtUs⟩⟩ }

def pruned (t : Tasks) (now : ℕ) : Tasks :=
  { t with
    list := t.list.pruneState now
    saver :=
      if 0 < t.list.pruneCount now then some (buildIndex (t.list.pruneState now).blockedMatches)
      else none
    prunedAt := max t.prunedAt now }

def step (t : Tasks) : ListAction → Option Tasks
  | .apply event now =>
    if t.list.enabled ∧ t.feed = none then some (t.applied event now) else none
  | .insertIds =>
    match t.feed with
    | some insertion =>
      some { t with list := t.list.insertIds insertion.ids insertion.entry, feed := none }
    | none => none
  | .prune now =>
    if t.list.enabled ∧ t.saver.isNone then some (t.pruned now) else none
  | .setIndex =>
    match t.saver with
    | some index => some { t with list := t.list.setIndex index, saver := none }
    | none => none
  | .save =>
    if t.list.enabled ∧ t.saver.isNone then some { t with file := some t.list.snapshot } else none
  | .recordBlocked record matchId now =>
    some { t with list := t.list.recordBlocked record matchId now }

inductive Step (t : Tasks) : ListAction → Tasks → Prop where
  | apply (event : ForfeitEvent) (now : ℕ) (henabled : t.list.enabled = true)
      (hfeed : t.feed = none) : Step t (.apply event now) (t.applied event now)
  | insertIds (insertion : Insertion) (hfeed : t.feed = some insertion) :
      Step t .insertIds
        { t with list := t.list.insertIds insertion.ids insertion.entry, feed := none }
  | prune (now : ℕ) (henabled : t.list.enabled = true) (hsaver : t.saver = none) :
      Step t (.prune now) (t.pruned now)
  | setIndex (index : Index) (hsaver : t.saver = some index) :
      Step t .setIndex { t with list := t.list.setIndex index, saver := none }
  | save (henabled : t.list.enabled = true) (hsaver : t.saver = none) :
      Step t .save { t with file := some t.list.snapshot }
  | recordBlocked (record : EventRecord) (matchId now : ℕ) :
      Step t (.recordBlocked record matchId now)
        { t with list := t.list.recordBlocked record matchId now }

theorem step_sound {t t' : Tasks} {a : ListAction} (h : t.step a = some t') : Step t a t' := by
  cases a with
  | apply event now =>
    simp only [step] at h
    split_ifs at h with hcond
    cases h
    exact .apply event now hcond.1 hcond.2
  | insertIds =>
    simp only [step] at h
    split at h
    · next insertion hfeed =>
      cases h
      exact .insertIds insertion hfeed
    · cases h
  | prune now =>
    simp only [step] at h
    split_ifs at h with hcond
    cases h
    exact .prune now hcond.1 (Option.isNone_iff_eq_none.mp hcond.2)
  | setIndex =>
    simp only [step] at h
    split at h
    · next index hsaver =>
      cases h
      exact .setIndex index hsaver
    · cases h
  | save =>
    simp only [step] at h
    split_ifs at h with hcond
    cases h
    exact .save hcond.1 (Option.isNone_iff_eq_none.mp hcond.2)
  | recordBlocked record matchId now =>
    cases h
    exact .recordBlocked record matchId now

end Tasks

/-! ## What the list keeps of a match -/

structure Extends (m m' : BlockedMatch) : Prop where
  addedAtUs : m'.addedAtUs = m.addedAtUs
  ids : ∀ c ∈ m.ids, c ∈ m'.ids

lemma Extends.refl (m : BlockedMatch) : Extends m m := ⟨rfl, fun _ hc => hc⟩

variable {m : BlockedMatch}

lemma Extends.trans {m' m'' : BlockedMatch} (h : Extends m m') (h' : Extends m' m'') :
    Extends m m'' :=
  ⟨h'.addedAtUs.trans h.addedAtUs, fun c hc => h'.ids c (h.ids c hc)⟩

lemma Expired.mono {ttlUs now now' : ℕ} (h : Expired ttlUs now m) (hle : now ≤ now') :
    Expired ttlUs now' m :=
  ⟨h.1, h.2.trans hle⟩

lemma exists_extends_put {t : Table ℕ BlockedMatch} {k : ℕ} {v : BlockedMatch}
    (hv : ∀ m, t.get? k = some m → Extends m v) (hm : m ∈ t.values) :
    ∃ m' ∈ (t.put k v).values, Extends m m' := by
  obtain ⟨k', hget⟩ := Table.get?_of_mem_values hm
  by_cases hk : k' = k
  · subst hk
    exact ⟨v, Table.mem_values_put.mpr (Or.inl rfl), hv m hget⟩
  · exact ⟨m, Table.mem_values_put.mpr (Or.inr ⟨k', hk, hget⟩), Extends.refl m⟩

lemma mem_of_mem_put {t : Table ℕ BlockedMatch} {k : ℕ} {v : BlockedMatch}
    (h : m ∈ (t.put k v).values) : m = v ∨ m ∈ t.values := by
  rcases Table.mem_values_put.mp h with rfl | ⟨k', -, hget⟩
  · exact Or.inl rfl
  · exact Or.inr (Table.mem_values_of_get? hget)

namespace Blocklist

variable {list : Blocklist} {event : ForfeitEvent} {now : ℕ} {record : EventRecord} {matchId : ℕ}

variable {m : BlockedMatch}

lemma merged_extends (now : ℕ) (h : list.blockedMatches.get? event.pandascoreMatchId = some m) :
    Extends m (list.merged event now).blocked := by
  unfold merged
  rw [h]
  exact ⟨rfl, fun c hc => (mem_ids_merge m event now false c).mpr (Or.inl hc)⟩

lemma mem_ids_merged {c : Bytes 32} (h : c ∈ (list.merged event now).blocked.ids) :
    c ∈ (list.merged event now).newIds ∨
      ∃ m ∈ list.blockedMatches.values, c ∈ m.ids ∧
        m.addedAtUs = (list.merged event now).blocked.addedAtUs := by
  unfold merged at h ⊢
  cases hget : list.blockedMatches.get? event.pandascoreMatchId with
  | some m =>
    simp only [hget] at h ⊢
    rcases (mem_ids_merge m event now false c).mp h with hc | hc
    · exact Or.inr ⟨m, Table.mem_values_of_get? hget, hc, rfl⟩
    · exact Or.inl hc
  | none =>
    simp only [hget] at h ⊢
    rcases (mem_ids_merge _ event now true c).mp h with hc | hc
    · exact absurd hc List.not_mem_nil
    · exact Or.inl hc

lemma recordBlocked_values (h : m ∈ (list.recordBlocked record matchId now).blockedMatches.values) :
    ∃ m' ∈ list.blockedMatches.values, Extends m m' ∧ Extends m' m := by
  unfold recordBlocked at h
  cases hget : list.blockedMatches.get? matchId with
  | some m' =>
    simp only [hget] at h
    rcases mem_of_mem_put h with rfl | h
    · exact ⟨m', Table.mem_values_of_get? hget, ⟨rfl, fun _ hc => hc⟩, ⟨rfl, fun _ hc => hc⟩⟩
    · exact ⟨m, h, Extends.refl m, Extends.refl m⟩
  | none =>
    simp only [hget] at h
    exact ⟨m, h, Extends.refl m, Extends.refl m⟩

lemma exists_extends_recordBlocked (h : m ∈ list.blockedMatches.values) :
    ∃ m' ∈ (list.recordBlocked record matchId now).blockedMatches.values, Extends m m' := by
  unfold recordBlocked
  cases hget : list.blockedMatches.get? matchId with
  | some m' =>
    refine exists_extends_put ?_ h
    intro x hx
    rw [hget] at hx
    cases hx
    exact ⟨rfl, fun _ hc => hc⟩
  | none => exact ⟨m, h, Extends.refl m⟩

end Blocklist

/-! ## The index and the file -/

def Tracked (t : Tasks) (m : BlockedMatch) : Prop :=
  Expired t.list.ttlUs t.prunedAt m ∨ ∃ m' ∈ t.list.blockedMatches.values, Extends m m'

structure Consistent (t : Tasks) : Prop where
  complete : ∀ m ∈ t.list.blockedMatches.values, ∀ c ∈ m.ids,
    (t.list.index c).isSome ∨ ∃ insertion ∈ t.feed, c ∈ insertion.ids
  pending : ∀ index ∈ t.saver, ∀ m ∈ t.list.blockedMatches.values, ∀ c ∈ m.ids,
    (index c).isSome
  disabled : t.list.enabled = false → t.list.blockedMatches.values = []
  saved : ∀ snapshot ∈ t.file, snapshot.version = snapshotVersion →
    ∀ m ∈ snapshot.table.values, Tracked t m

namespace Consistent

variable {t t' : Tasks}

theorem not_listed (h : Consistent t) {c : Bytes 32} (hlookup : t.list.lookup c = none)
    (hfeed : ∀ insertion ∈ t.feed, c ∉ insertion.ids) :
    ∀ m ∈ t.list.blockedMatches.values, c ∉ m.ids := by
  intro m hm hc
  unfold Blocklist.lookup at hlookup
  split_ifs at hlookup with henabled
  · rw [Option.map_eq_none_iff] at hlookup
    rcases h.complete m hm c hc with hindex | ⟨insertion, hinsertion, hids⟩
    · simp_all
    simp_all
  · rw [h.disabled (Bool.eq_false_iff.mpr henabled)] at hm
    cases hm

lemma apply (h : Consistent t) (event : ForfeitEvent) (now : ℕ) (henabled : t.list.enabled = true)
    (hfeed : t.feed = none) (hsaver : t.saver = none) : Consistent (t.applied event now) := by
  have hindexed : ∀ m ∈ t.list.blockedMatches.values, ∀ c ∈ m.ids, (t.list.index c).isSome := by
    intro m hm c hc
    rcases h.complete m hm c hc with hindex | ⟨insertion, hinsertion, -⟩
    · exact hindex
    simp_all
  refine ⟨?_, ?_, ?_, ?_⟩
  · intro m hm c hc
    rcases mem_of_mem_put hm with rfl | hm
    · rcases Blocklist.mem_ids_merged hc with hnew | ⟨m, hm, hc, -⟩
      · refine Or.inr ⟨⟨_, _⟩, if_neg ?_, hnew⟩
        grind
      · exact Or.inl (hindexed m hm c hc)
    · exact Or.inl (hindexed m hm c hc)
  · intro index hindex
    have hnone : (t.applied event now).saver = none := hsaver
    simp_all
  · intro hdisabled
    exact absurd (henabled.symm.trans hdisabled) (by simp)
  · intro snapshot hsnapshot hversion m hm
    rcases h.saved snapshot hsnapshot hversion m hm with hexpired | ⟨m', hm', hext⟩
    · exact Or.inl hexpired
    · obtain ⟨m'', hm'', hext'⟩ := exists_extends_put
        (fun x hx => Blocklist.merged_extends now hx) hm'
      exact Or.inr ⟨m'', hm'', hext.trans hext'⟩

lemma prune (h : Consistent t) (now : ℕ) : Consistent (t.pruned now) := by
  have hvalues : ∀ m ∈ (t.pruned now).list.blockedMatches.values,
      m ∈ t.list.blockedMatches.values := fun m hm => (Table.mem_values_filter.mp hm).1
  refine ⟨?_, ?_, ?_, ?_⟩
  · intro m hm c hc
    exact h.complete m (hvalues m hm) c hc
  · intro index hindex m hm c hc
    change index ∈ (if _ then some (buildIndex (t.list.pruneState now).blockedMatches) else none)
      at hindex
    split_ifs at hindex
    · cases hindex
      exact (isSome_buildIndex _ c).mpr ⟨m, hm, hc⟩
    · cases hindex
  · intro hdisabled
    refine List.eq_nil_iff_forall_not_mem.mpr fun m hm => ?_
    have hold := hvalues m hm
    rw [h.disabled hdisabled] at hold
    cases hold
  · intro snapshot hsnapshot hversion m hm
    rcases h.saved snapshot hsnapshot hversion m hm with hexpired | ⟨m', hm', hext⟩
    · exact Or.inl (hexpired.mono (le_max_left _ _))
    · by_cases hgone : Expired t.list.ttlUs now m'
      · -- the listed match is past its time, and so is the one in the file
        refine Or.inl (Expired.mono ?_ (le_max_right _ _))
        refine ⟨hgone.1, ?_⟩
        rw [← hext.addedAtUs]
        exact hgone.2
      · exact Or.inr ⟨m', Table.mem_values_filter.mpr ⟨hm', decide_eq_true hgone⟩, hext⟩

theorem step (h : Consistent t) {a : ListAction} (hstep : t.Step a t')
    (hpush : ∀ event now, a = .apply event now → t.saver = none) : Consistent t' := by
  cases hstep with
  | apply event now henabled hfeed => exact h.apply event now henabled hfeed (hpush event now rfl)
  | insertIds insertion hfeed =>
    refine ⟨?_, h.pending, h.disabled, h.saved⟩
    intro m hm c hc
    refine Or.inl ((isSome_foldl_orInsert insertion.ids insertion.entry t.list.index c).mpr ?_)
    rcases h.complete m hm c hc with hindex | ⟨insertion', hinsertion', hids⟩
    · exact Or.inl hindex
    simp_all
  | prune now henabled hsaver => exact h.prune now
  | setIndex index hsaver =>
    refine ⟨?_, ?_, h.disabled, h.saved⟩
    · intro m hm c hc
      exact Or.inl (h.pending index hsaver m hm c hc)
    simp
  | save henabled hsaver =>
    refine ⟨h.complete, h.pending, h.disabled, ?_⟩
    intro snapshot hsnapshot _ m hm
    cases hsnapshot
    obtain ⟨k, hk⟩ := Table.mem_of_mem_values_ofList hm
    obtain ⟨m', hm', heq⟩ := List.mem_map.mp hk
    cases heq
    exact Or.inr ⟨m, hm', Extends.refl m⟩
  | recordBlocked record matchId now =>
    have hback : ∀ m ∈ (t.list.recordBlocked record matchId now).blockedMatches.values,
        ∀ c ∈ m.ids, ∃ m' ∈ t.list.blockedMatches.values, c ∈ m'.ids := by
      intro m hm c hc
      obtain ⟨m', hm', hext, -⟩ := Blocklist.recordBlocked_values hm
      exact ⟨m', hm', hext.ids c hc⟩
    refine ⟨?_, ?_, ?_, ?_⟩
    · intro m hm c hc
      obtain ⟨m', hm', hc'⟩ := hback m hm c hc
      exact h.complete m' hm' c hc'
    · intro index hindex m hm c hc
      obtain ⟨m', hm', hc'⟩ := hback m hm c hc
      exact h.pending index hindex m' hm' c hc'
    · intro hdisabled
      refine List.eq_nil_iff_forall_not_mem.mpr fun m hm => ?_
      obtain ⟨m', hm', -⟩ := Blocklist.recordBlocked_values hm
      rw [h.disabled hdisabled] at hm'
      cases hm'
    · intro snapshot hsnapshot hversion m hm
      rcases h.saved snapshot hsnapshot hversion m hm with hexpired | ⟨m', hm', hext⟩
      · exact Or.inl hexpired
      · obtain ⟨m'', hm'', hext'⟩ := Blocklist.exists_extends_recordBlocked hm'
        exact Or.inr ⟨m'', hm'', hext.trans hext'⟩

end Consistent

def Configured (ttlUs : ℕ) (t : Tasks) : Prop :=
  t.list.enabled = true ∧ t.list.ttlUs = ttlUs ∨ t.list.enabled = false ∧ t.file = none

lemma Configured.step {ttlUs : ℕ} {t t' : Tasks} (h : Configured ttlUs t) {a : ListAction}
    (hstep : t.Step a t') : Configured ttlUs t' := by
  cases hstep with
  | save henabled hsaver =>
    rcases h with h | ⟨hdisabled, -⟩
    · exact Or.inl h
    simp_all
  | _ => exact h

/-! ## Boot -/

namespace Blocklist

variable {list : Blocklist} {now : ℕ}

variable {m : BlockedMatch}

lemma mem_prune :
    m ∈ (list.prune now).blockedMatches.values ↔
      m ∈ list.blockedMatches.values ∧ ¬ Expired list.ttlUs now m := by
  have hstate : (list.prune now).blockedMatches = (list.pruneState now).blockedMatches := by
    unfold prune
    split_ifs <;> rfl
  rw [hstate]
  refine Table.mem_values_filter.trans (and_congr_right fun _ => ?_)
  exact decide_eq_true_iff

lemma pruneState_of_pruneCount (h : ¬ 0 < list.pruneCount now) :
    (list.pruneState now).blockedMatches = list.blockedMatches :=
  Table.filter_eq_self_of_length fun hlt => h (Nat.sub_pos_of_lt hlt)

lemma prune_index (h : list.index = buildIndex list.blockedMatches) :
    (list.prune now).index = buildIndex (list.prune now).blockedMatches := by
  unfold prune
  split_ifs with hcount
  · rfl
  · rw [pruneState_of_pruneCount hcount]
    exact h

lemma fromConfig_index (configured : Bool) (ttlUs : ℕ) (file : Option Snapshot) (now : ℕ) :
    (fromConfig configured ttlUs file now).index =
      buildIndex (fromConfig configured ttlUs file now).blockedMatches := by
  unfold fromConfig load
  split_ifs
  · split
    · rfl
    · split_ifs
      · exact prune_index rfl
      · rfl
  · rfl

lemma fromConfig_enabled (ttlUs : ℕ) (file : Option Snapshot) (now : ℕ) :
    (fromConfig true ttlUs file now).enabled = true := by
  unfold fromConfig load prune
  rw [if_pos rfl]
  split
  · rfl
  · split_ifs <;> rfl

lemma fromConfig_ttlUs (ttlUs : ℕ) (file : Option Snapshot) (now : ℕ) :
    (fromConfig true ttlUs file now).ttlUs = ttlUs := by
  unfold fromConfig load prune
  rw [if_pos rfl]
  split
  · rfl
  · split_ifs <;> rfl

lemma mem_fromConfig {ttlUs : ℕ} {snapshot : Snapshot}
    (hversion : snapshot.version = snapshotVersion) :
    m ∈ (fromConfig true ttlUs (some snapshot) now).blockedMatches.values ↔
      m ∈ snapshot.table.values ∧ ¬ Expired ttlUs now m := by
  unfold fromConfig load
  simp only [if_true, if_pos hversion]
  exact mem_prune

lemma exists_of_mem_fromConfig {configured : Bool} {ttlUs : ℕ} {file : Option Snapshot}
    (h : m ∈ (fromConfig configured ttlUs file now).blockedMatches.values) :
    ∃ snapshot ∈ file, snapshot.version = snapshotVersion ∧ m ∈ snapshot.table.values ∧
      ¬ Expired ttlUs now m := by
  cases configured with
  | false => cases h
  | true =>
    cases file with
    | none => cases h
    | some snapshot =>
      by_cases hversion : snapshot.version = snapshotVersion
      · exact ⟨snapshot, rfl, hversion, (mem_fromConfig hversion).mp h⟩
      · unfold fromConfig load at h
        simp only [if_true, if_neg hversion] at h
        cases h

end Blocklist

lemma consistent_boot {configured : Bool} {file : Option Snapshot} (ttlUs now : ℕ)
    (h : configured = true ∨ file = none) : Consistent (Tasks.boot configured ttlUs file now) := by
  refine ⟨?_, ?_, ?_, ?_⟩
  · intro m hm c hc
    refine Or.inl ?_
    show ((Blocklist.fromConfig configured ttlUs file now).index c).isSome
    rw [Blocklist.fromConfig_index, isSome_buildIndex]
    exact ⟨m, hm, hc⟩
  · intro index hindex
    cases hindex
  · intro hdisabled
    cases configured with
    | false => rfl
    | true =>
      exfalso
      revert hdisabled
      show (Blocklist.fromConfig true ttlUs file now).enabled = false → False
      rw [Blocklist.fromConfig_enabled]
      simp
  · intro snapshot hsnapshot hversion m hm
    cases hsnapshot
    rcases h with rfl | hfile
    · by_cases hexpired : Expired ttlUs now m
      · refine Or.inl ?_
        show Expired (Blocklist.fromConfig true ttlUs _ now).ttlUs now m
        rw [Blocklist.fromConfig_ttlUs]
        exact hexpired
      · exact Or.inr ⟨m, (Blocklist.mem_fromConfig hversion).mpr ⟨hm, hexpired⟩, Extends.refl m⟩
    · cases hfile

lemma configured_boot {configured : Bool} {file : Option Snapshot} (ttlUs now : ℕ)
    (h : configured = true ∨ file = none) :
    Configured ttlUs (Tasks.boot configured ttlUs file now) := by
  cases configured with
  | true => exact Or.inl ⟨Blocklist.fromConfig_enabled .., Blocklist.fromConfig_ttlUs ..⟩
  | false => exact Or.inr ⟨rfl, h.resolve_left (by simp)⟩

end RustUma.Forfeit
