import RustUma.Forfeit.Tasks
import RustUma.Found.Hex

/-!
# What replays make of the blocklist (`src/forfeit.rs` `ForfeitBlocklist::apply`, `load`)

The feed replays its history on every connection, so the same push arrives again and again, also
after others about its match.
-/

namespace RustUma.Forfeit

open RustUma.Found RustUma.Model

/-! ## What a push lists -/

def ForfeitEvent.ids (event : ForfeitEvent) : List (Bytes 32) :=
  (event.markets.filterMap fun market => fixed 32 market.conditionId) ++
    event.conditionIds.filterMap (fixed 32)

def ForfeitEvent.Tidy (event : ForfeitEvent) : Prop :=
  (event.markets.filterMap fun market => fixed 32 market.conditionId).Nodup

instance (event : ForfeitEvent) : Decidable event.Tidy := inferInstanceAs (Decidable (List.Nodup _))

lemma listMarkets_ids (known : List (Bytes 32)) (markets : List PmMarket) (listing : Listing) :
    (markets.foldl (listMarket known) listing).2 = listing.2 ++
      (markets.filterMap fun market => fixed 32 market.conditionId).filter (· ∉ known) := by
  induction markets generalizing listing with
  | nil => simp
  | cons market markets ih =>
    rw [List.foldl_cons, ih]
    cases hid : fixed 32 market.conditionId with
    | none => simp [listMarket, hid]
    | some id => by_cases hknown : id ∈ known <;> simp [listMarket, hid, hknown]

lemma mem_listConditionIds (known : List (Bytes 32)) (raws : List (List UInt8)) (listing : Listing)
    (c : Bytes 32) : c ∈ (raws.foldl (listConditionId known) listing).2 ↔
      c ∈ listing.2 ∨ c ∈ raws.filterMap (fixed 32) ∧ c ∉ known := by
  induction raws generalizing listing with
  | nil => simp
  | cons raw raws ih =>
    rw [List.foldl_cons, ih]
    cases hid : fixed 32 raw with
    | none => simp [listConditionId, hid]
    | some id =>
      by_cases hlisted : id ∈ known ∨ id ∈ listing.2
      · simp only [listConditionId, hid, hlisted, if_true, List.filterMap_cons_some hid,
          List.mem_cons]
        grind
      · simp only [listConditionId, hid, hlisted, if_false, List.filterMap_cons_some hid,
          List.mem_cons, List.mem_append]
        grind

lemma nodup_listConditionIds (known : List (Bytes 32)) (raws : List (List UInt8))
    {listing : Listing} (h : listing.2.Nodup) :
    (raws.foldl (listConditionId known) listing).2.Nodup := by
  induction raws generalizing listing with
  | nil => exact h
  | cons raw raws ih =>
    apply ih
    unfold listConditionId
    grind

lemma mem_newIds (m : BlockedMatch) (event : ForfeitEvent) (c : Bytes 32) :
    c ∈ (m.listing event).2 ↔ c ∈ event.ids ∧ c ∉ m.ids := by
  unfold BlockedMatch.listing
  rw [mem_listConditionIds, listMarkets_ids]
  simp only [ForfeitEvent.ids, List.nil_append, List.mem_filter, decide_eq_true_eq,
    List.mem_append]
  tauto

lemma mem_ids_merge_iff (m : BlockedMatch) (event : ForfeitEvent) (now : ℕ) (isNew : Bool)
    (c : Bytes 32) :
    c ∈ (m.merge event now isNew).blocked.ids ↔ c ∈ m.ids ∨ c ∈ event.ids := by
  rw [mem_ids_merge]
  show c ∈ m.ids ∨ c ∈ (m.listing event).2 ↔ _
  rw [mem_newIds]
  tauto

lemma nodup_ids_merge {m : BlockedMatch} {event : ForfeitEvent} (now : ℕ) (isNew : Bool)
    (hm : m.ids.Nodup) (htidy : event.Tidy) : (m.merge event now isNew).blocked.ids.Nodup := by
  have hnew : (m.listing event).2.Nodup := by
    apply nodup_listConditionIds
    rw [listMarkets_ids]
    exact htidy.filter _
  have hall : ((m.listing event).1.map BlockedMarket.conditionId).Nodup := by
    rw [listing_ids]
    refine hm.append hnew ?_
    intro c hc hc'
    exact ((mem_newIds m event c).mp hc').2 hc
  show (List.map BlockedMarket.conditionId (if _ then _ else _)).Nodup
  split_ifs
  · exact hall
  · exact (((List.perm_insertionSort BlockedMarket.le _).map _).nodup_iff).mpr hall

lemma changed_merge_iff {m : BlockedMatch} {event : ForfeitEvent} (now : ℕ)
    (hgame : event.forfeitedGameNumber ∈ m.forfeitedGames) (hseq : event.sequence ∈ m.feedSequences)
    (hids : ∀ c ∈ event.ids, c ∈ m.ids) :
    (m.merge event now false).changed = false ↔
      (m.lookupStatus = .matched ∨ m.lookupStatus = event.status) ∧
        (event.pmEventSlug = "" ∨ m.pmEventSlug = event.pmEventSlug) := by
  have hnil : (m.listing event).2 = [] := by
    rw [List.eq_nil_iff_forall_not_mem]
    intro c hc
    obtain ⟨hcarried, hnot⟩ := (mem_newIds m event c).mp hc
    simp_all
  simp only [BlockedMatch.merge, hgame, hseq, hnil, decide_eq_false_iff_not]
  tauto

lemma mem_addSorted (l : List ℕ) (n k : ℕ) : k ∈ addSorted l n ↔ k ∈ l ∨ k = n := by
  unfold addSorted
  split_ifs with h
  · simp_all
  · simp

/-! ## Sequences of pushes -/

namespace Blocklist

def apply (list : Blocklist) (event : ForfeitEvent) (now : ℕ) : Blocklist × Bool :=
  let merged := list.merged event now
  ((list.applyState event now).insertIds merged.newIds
    ⟨event.pandascoreMatchId, merged.blocked.addedAtUs⟩, merged.changed)

def applyAll (list : Blocklist) (pushes : List (ForfeitEvent × ℕ)) : Blocklist :=
  pushes.foldl (fun list push => (list.apply push.1 push.2).1) list

def Settled (list : Blocklist) (event : ForfeitEvent) : Prop :=
  ∀ m, list.blockedMatches.get? event.pandascoreMatchId = some m →
    (m.lookupStatus = .matched ∨ m.lookupStatus = event.status) ∧
      (event.pmEventSlug = "" ∨ m.pmEventSlug = event.pmEventSlug)

lemma merged_eq (list : Blocklist) (event : ForfeitEvent) (now : ℕ) :
    list.merged event now =
      ((list.blockedMatches.get? event.pandascoreMatchId).getD (event.newMatch now)).merge event now
        (list.blockedMatches.get? event.pandascoreMatchId).isNone := by
  unfold merged
  grind

lemma get?_apply (list : Blocklist) (event : ForfeitEvent) (now k : ℕ) :
    (list.apply event now).1.blockedMatches.get? k =
      if k = event.pandascoreMatchId then some (list.merged event now).blocked
      else list.blockedMatches.get? k :=
  Table.get?_put _ _ _ _

lemma applyAll_enabled (list : Blocklist) (pushes : List (ForfeitEvent × ℕ)) :
    (list.applyAll pushes).enabled = list.enabled := by
  induction pushes generalizing list with
  | nil => rfl
  | cons push pushes ih => exact ih _

lemma isSome_lookup {list : Blocklist} (h : list.enabled = true) (c : Bytes 32) :
    (list.lookup c).isSome ↔ (list.index c).isSome := by
  simp [lookup, h]

lemma matched_apply {list : Blocklist} {k : ℕ} {m : BlockedMatch}
    (hm : list.blockedMatches.get? k = some m) (hmatched : m.lookupStatus = .matched)
    (event : ForfeitEvent) (now : ℕ) :
    ∃ m', (list.apply event now).1.blockedMatches.get? k = some m' ∧
      m'.lookupStatus = .matched := by
  rw [get?_apply]
  split_ifs with hk
  · subst hk
    rw [merged_eq, hm]
    simp [BlockedMatch.merge, hmatched]
  simp_all

end Blocklist

structure United (events : List ForfeitEvent) (list : Blocklist) : Prop where
  index : ∀ c, (list.index c).isSome ↔ ∃ event ∈ events, c ∈ event.ids
  seen : ∀ event ∈ events, ∃ m, list.blockedMatches.get? event.pandascoreMatchId = some m ∧
    event.forfeitedGameNumber ∈ m.forfeitedGames ∧ event.sequence ∈ m.feedSequences
  key : ∀ k m, list.blockedMatches.get? k = some m → m.pandascoreMatchId = k
  ids : ∀ k m, list.blockedMatches.get? k = some m →
    ∀ c, c ∈ m.ids ↔ ∃ event ∈ events, event.pandascoreMatchId = k ∧ c ∈ event.ids
  nodup : (∀ event ∈ events, event.Tidy) → ∀ k m, list.blockedMatches.get? k = some m → m.ids.Nodup

namespace United

variable {events : List ForfeitEvent} {list : Blocklist}

lemma empty (enabled : Bool) (ttlUs : ℕ) : United [] (.empty enabled ttlUs) := by
  constructor <;> simp [Blocklist.empty, Table.empty, Table.get?]

lemma ids_before (h : United events list) (event : ForfeitEvent) (now : ℕ) (c : Bytes 32) :
    c ∈ ((list.blockedMatches.get? event.pandascoreMatchId).getD (event.newMatch now)).ids ↔
      ∃ e ∈ events, e.pandascoreMatchId = event.pandascoreMatchId ∧ c ∈ e.ids := by
  cases hget : list.blockedMatches.get? event.pandascoreMatchId with
  | some m => exact h.ids _ m hget c
  | none =>
    refine iff_of_false List.not_mem_nil ?_
    rintro ⟨e, he, heq, -⟩
    obtain ⟨m, hm, -⟩ := h.seen e he
    simp_all

lemma apply (h : United events list) (event : ForfeitEvent) (now : ℕ) :
    United (events ++ [event]) (list.apply event now).1 where
  index := by
    intro c
    have hinserted := isSome_foldl_orInsert (list.merged event now).newIds
      ⟨event.pandascoreMatchId, (list.merged event now).blocked.addedAtUs⟩ list.index c
    have hnew : c ∈ (list.merged event now).newIds ↔ c ∈ event.ids ∧
        ¬∃ e ∈ events, e.pandascoreMatchId = event.pandascoreMatchId ∧ c ∈ e.ids := by
      rw [Blocklist.merged_eq]
      exact (mem_newIds _ event c).trans (and_congr_right' (not_congr (h.ids_before event now c)))
    refine hinserted.trans ?_
    rw [h.index]
    grind
  seen := by
    intro e he
    rw [Blocklist.get?_apply]
    have hown : event.forfeitedGameNumber ∈ (list.merged event now).blocked.forfeitedGames ∧
        event.sequence ∈ (list.merged event now).blocked.feedSequences := by
      rw [Blocklist.merged_eq]
      exact ⟨(mem_addSorted _ _ _).mpr (Or.inr rfl), (mem_addSorted _ _ _).mpr (Or.inr rfl)⟩
    rcases List.mem_append.mp he with he | he
    · obtain ⟨m, hm, hgame, hseq⟩ := h.seen e he
      split_ifs with hk
      · refine ⟨_, rfl, ?_⟩
        rw [Blocklist.merged_eq, ← hk, hm]
        exact ⟨(mem_addSorted _ _ _).mpr (Or.inl hgame), (mem_addSorted _ _ _).mpr (Or.inl hseq)⟩
      simp_all
    simp_all
  key := by
    intro k m hm
    rw [Blocklist.get?_apply] at hm
    split_ifs at hm with hk
    · cases hm
      rw [Blocklist.merged_eq, hk]
      cases hget : list.blockedMatches.get? event.pandascoreMatchId with
      | some m => exact h.key _ m hget
      | none => rfl
    · exact h.key k m hm
  ids := by
    intro k m hm c
    rw [Blocklist.get?_apply] at hm
    split_ifs at hm with hk
    · cases hm
      rw [Blocklist.merged_eq, mem_ids_merge_iff, h.ids_before event now c]
      grind
    · rw [h.ids k m hm c]
      grind
  nodup := by
    intro htidy k m hm
    rw [Blocklist.get?_apply] at hm
    have hbefore : ∀ e ∈ events, e.Tidy := fun e he => htidy e (List.mem_append_left _ he)
    split_ifs at hm with hk
    · cases hm
      rw [Blocklist.merged_eq]
      apply nodup_ids_merge _ _ _ (htidy event (by simp))
      cases hget : list.blockedMatches.get? event.pandascoreMatchId with
      | some m => exact h.nodup hbefore _ m hget
      | none => exact List.nodup_nil
    · exact h.nodup hbefore k m hm

lemma applyAll (h : United events list) (pushes : List (ForfeitEvent × ℕ)) :
    United (events ++ pushes.map Prod.fst) (list.applyAll pushes) := by
  induction pushes generalizing events list with
  | nil => simpa [Blocklist.applyAll] using h
  | cons push pushes ih =>
    have hpushed := ih (h.apply push.1 push.2)
    rw [List.append_assoc] at hpushed
    exact hpushed

lemma changed_iff (h : United events list) {event : ForfeitEvent} (hevent : event ∈ events)
    (now : ℕ) : (list.apply event now).2 = false ↔ list.Settled event := by
  obtain ⟨m, hm, hgame, hseq⟩ := h.seen event hevent
  have hids : ∀ c ∈ event.ids, c ∈ m.ids := by
    intro c hc
    exact (h.ids _ m hm c).mpr ⟨event, hevent, rfl, hc⟩
  show (list.merged event now).changed = false ↔ _
  rw [Blocklist.merged_eq, hm]
  refine (changed_merge_iff now hgame hseq hids).trans ?_
  simp [Blocklist.Settled, hm]

lemma mem_snapshot_table (h : United events list) (m : BlockedMatch) :
    m ∈ list.snapshot.table.values ↔ m ∈ list.blockedMatches.values := by
  constructor
  · intro hm
    obtain ⟨k, hk⟩ := Table.mem_of_mem_values_ofList hm
    obtain ⟨m', hm', heq⟩ := List.mem_map.mp hk
    cases heq
    exact hm'
  · intro hm
    obtain ⟨k, hget⟩ := Table.get?_of_mem_values hm
    apply Table.mem_values_of_get?
    apply Table.get?_ofList
    · exact List.mem_map.mpr ⟨m, hm, by rw [h.key k m hget]⟩
    · intro w hw
      obtain ⟨m', hm', heq⟩ := List.mem_map.mp hw
      cases heq
      obtain ⟨k', hget'⟩ := Table.get?_of_mem_values hm'
      rw [h.key k' _ hget', hget'] at hget
      grind

end United

def testPush (sequence : ℕ) (status : ℤ) (ids : List UInt8) : ForfeitEvent where
  sequence := sequence
  detectAtUs := 0
  game := ""
  league := ""
  matchName := ""
  pandascoreMatchId := 7
  forfeitedGameNumber := 1
  teamA := "A"
  teamB := "B"
  winner := "B"
  lookupStatus := status
  pmEventSlug := ""
  conditionIds := []
  markets := ids.map fun id => ⟨List.replicate 32 id, "", "", 0, false⟩

theorem forfeit_list_is_union (ttlUs : ℕ) (pushes : List (ForfeitEvent × ℕ)) :
    let list := (Blocklist.empty true ttlUs).applyAll pushes
    (∀ c, (list.lookup c).isSome ↔ ∃ push ∈ pushes, c ∈ push.1.ids) ∧
    (∀ m ∈ list.blockedMatches.values,
      (∀ c, c ∈ m.ids ↔ ∃ push ∈ pushes,
        push.1.pandascoreMatchId = m.pandascoreMatchId ∧ c ∈ push.1.ids) ∧
      ((∀ push ∈ pushes, push.1.Tidy) → m.ids.Nodup)) ∧
    (∀ k m, list.blockedMatches.get? k = some m → m.lookupStatus = .matched → ∀ event now,
      ∃ m', (list.apply event now).1.blockedMatches.get? k = some m' ∧
        m'.lookupStatus = .matched) ∧
    (∀ push ∈ pushes, ∀ now, (list.apply push.1 now).2 = false ↔ list.Settled push.1) ∧
    (∀ event now now', ((list.apply event now).1.apply event now').2 = false) ∧
    (∀ now, (∀ m ∈ list.blockedMatches.values, ¬ Expired ttlUs now m) → ∀ c,
      (((Blocklist.empty true ttlUs).load (some list.snapshot) now).lookup c).isSome ↔
        (list.lookup c).isSome) := by
  intro list
  have hunited : United (pushes.map Prod.fst) list := (United.empty true ttlUs).applyAll pushes
  have henabled : list.enabled = true := Blocklist.applyAll_enabled _ pushes
  have hlookup : ∀ c, (list.lookup c).isSome ↔ ∃ push ∈ pushes, c ∈ push.1.ids := by
    intro c
    rw [Blocklist.isSome_lookup henabled, hunited.index]
    simp
  refine ⟨hlookup, ?_, ?_, ?_, ?_, ?_⟩
  · intro m hm
    obtain ⟨k, hget⟩ := Table.get?_of_mem_values hm
    have hkey := hunited.key k m hget
    refine ⟨fun c => ?_, fun htidy => hunited.nodup (by simpa using htidy) k m hget⟩
    rw [hunited.ids k m hget c, hkey]
    simp
  · intro k m hget hmatched event now
    exact Blocklist.matched_apply hget hmatched event now
  · intro push hpush now
    exact hunited.changed_iff (List.mem_map_of_mem hpush) now
  · intro event now now'
    rw [(hunited.apply event now).changed_iff (by simp)]
    intro m hm
    rw [Blocklist.get?_apply, if_pos rfl, Blocklist.merged_eq] at hm
    cases hm
    constructor
    · show (if _ then event.status else _) = _ ∨ (if _ then event.status else _) = _
      grind
    · show _ ∨ (if _ then event.pmEventSlug else _) = _
      grind
  · intro now hlive c
    have hloaded : ((Blocklist.empty true ttlUs).load (some list.snapshot) now) =
        Blocklist.fromConfig true ttlUs (some list.snapshot) now := rfl
    rw [hloaded, Blocklist.isSome_lookup (Blocklist.fromConfig_enabled ..),
      Blocklist.fromConfig_index, isSome_buildIndex, hlookup]
    have hvalues : ∀ m, m ∈ (Blocklist.fromConfig true ttlUs (some list.snapshot)
        now).blockedMatches.values ↔ m ∈ list.blockedMatches.values := by
      intro m
      rw [Blocklist.mem_fromConfig rfl, hunited.mem_snapshot_table]
      simp_all
    constructor
    · rintro ⟨m, hm, hc⟩
      obtain ⟨k, hget⟩ := Table.get?_of_mem_values ((hvalues m).mp hm)
      obtain ⟨e, he, -, hce⟩ := (hunited.ids k m hget c).mp hc
      grind
    · rintro ⟨push, hpush, hc⟩
      have hmem := List.mem_map_of_mem (f := Prod.fst) hpush
      obtain ⟨m, hget, -⟩ := hunited.seen push.1 hmem
      refine ⟨m, (hvalues m).mpr (Table.mem_values_of_get? hget), ?_⟩
      exact (hunited.ids _ m hget c).mpr ⟨push.1, hmem, rfl, hc⟩

def testPushes : List (ForfeitEvent × ℕ) := [(testPush 1 2 [1], 5), (testPush 2 1 [1, 2], 6)]

theorem forfeit_list_is_union_of_two :
    (∀ push ∈ testPushes, push.1.Tidy) ∧
      ∀ m ∈ ((Blocklist.empty true 0).applyAll testPushes).blockedMatches.values, m.ids.Nodup :=
  have htidy : ∀ push ∈ testPushes, push.1.Tidy := by decide +kernel
  ⟨htidy, fun m hm => ((forfeit_list_is_union 0 testPushes).2.1 m hm).2 htidy⟩

/-- **What the two loops and the status let through.** An id that stands twice among the markets of
one push is listed twice. A push with status `not_found` that comes again after one with status
`failed` is a change. -/
theorem forfeit_list_repeats_ids :
    ((((Blocklist.empty true 0).apply (testPush 1 1 [1, 1]) 5).1.blockedMatches.get? 7).any
      fun m => ¬ m.ids.Nodup) = true ∧
    ((((Blocklist.empty true 0).applyAll [(testPush 1 2 [], 5), (testPush 2 3 [], 6)]).apply
      (testPush 1 2 []) 7).2 = true) := by
  decide +kernel

end RustUma.Forfeit
