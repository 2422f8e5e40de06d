import RustUma.Forfeit.Tasks

/-!
# List and index of the blocklist

`lookup` reads the index alone. `apply` and `prune` change the list under its lock and the index
under another one afterwards; between the two, the other task may pass.
-/

namespace RustUma.Forfeit

open RustUma.Found RustUma.Model

def Listed (list : Blocklist) (c : Bytes 32) : Prop :=
  ∃ m ∈ list.blockedMatches.values, c ∈ m.ids

instance (list : Blocklist) (c : Bytes 32) : Decidable (Listed list c) :=
  inferInstanceAs (Decidable (∃ m ∈ list.blockedMatches.values, c ∈ m.ids))

def Tasks.indexToBe (t : Tasks) : Index := t.saver.getD t.list.index

def Tasks.Pending (t : Tasks) (c : Bytes 32) : Prop := ∃ insertion ∈ t.feed, c ∈ insertion.ids

structure Agrees (t : Tasks) : Prop where
  index : ∀ c, Listed t.list c ↔ (t.indexToBe c).isSome ∨ t.Pending c
  disabled : t.list.enabled = false → ∀ c, ¬ Listed t.list c

def Ordered (t : Tasks) : ListAction → Prop
  | .insertIds => ∀ index ∈ t.saver, ∀ insertion ∈ t.feed, ∀ c ∈ insertion.ids, (index c).isSome
  | .prune now => ∀ insertion ∈ t.feed, ∀ c ∈ insertion.ids, Listed (t.list.pruneState now) c
  | _ => True

instance (t : Tasks) (a : ListAction) : Decidable (Ordered t a) := by
  delta Ordered
  split <;> infer_instance

/-! ## What the sections do to the list -/

section Sections

variable {list : Blocklist} {event : ForfeitEvent} {now : ℕ} {c : Bytes 32}

lemma listed_applyState : Listed (list.applyState event now) c ↔
    Listed list c ∨ c ∈ (list.merged event now).newIds := by
  constructor
  · rintro ⟨m, hm, hc⟩
    rcases mem_of_mem_put hm with rfl | hm
    · rcases Blocklist.mem_ids_merged hc with hnew | ⟨m, hm, hc, -⟩
      · exact Or.inr hnew
      · exact Or.inl ⟨m, hm, hc⟩
    · exact Or.inl ⟨m, hm, hc⟩
  · rintro (⟨m, hm, hc⟩ | hnew)
    · obtain ⟨m', hm', hext⟩ := exists_extends_put
        (fun x hx => Blocklist.merged_extends now hx) hm
      exact ⟨m', hm', hext.ids c hc⟩
    · refine ⟨(list.merged event now).blocked, Table.mem_values_put.mpr (Or.inl rfl), ?_⟩
      unfold Blocklist.merged at hnew ⊢
      cases hget : list.blockedMatches.get? event.pandascoreMatchId with
      | some m =>
        simp only [hget] at hnew ⊢
        exact (mem_ids_merge m event now false c).mpr (Or.inr hnew)
      | none =>
        simp only [hget] at hnew ⊢
        exact (mem_ids_merge _ event now true c).mpr (Or.inr hnew)

lemma listed_recordBlocked {record : EventRecord} {matchId : ℕ} :
    Listed (list.recordBlocked record matchId now) c ↔ Listed list c := by
  constructor
  · rintro ⟨m, hm, hc⟩
    obtain ⟨m', hm', hext, -⟩ := Blocklist.recordBlocked_values hm
    exact ⟨m', hm', hext.ids c hc⟩
  · rintro ⟨m, hm, hc⟩
    obtain ⟨m', hm', hext⟩ := Blocklist.exists_extends_recordBlocked hm
    exact ⟨m', hm', hext.ids c hc⟩

lemma listed_of_pruneState (h : Listed (list.pruneState now) c) : Listed list c := by
  obtain ⟨m, hm, hc⟩ := h
  exact ⟨m, (Table.mem_values_filter.mp hm).1, hc⟩

end Sections

/-! ## The step lemma -/

namespace Agrees

variable {t t' : Tasks}

lemma apply (h : Agrees t) (event : ForfeitEvent) (now : ℕ) (henabled : t.list.enabled = true)
    (hfeed : t.feed = none) : Agrees (t.applied event now) := by
  refine ⟨fun c => ?_, fun hdisabled => absurd (henabled.symm.trans hdisabled) (by simp)⟩
  have hidle : ¬ t.Pending c := by
    rintro ⟨insertion, hinsertion, -⟩
    simp_all
  have hpending : (t.applied event now).Pending c ↔ c ∈ (t.list.merged event now).newIds := by
    unfold Tasks.Pending Tasks.applied
    dsimp only
    split_ifs with hnil
    · rw [hnil]
      simp
    · simp
  rw [hpending]
  show Listed (t.list.applyState event now) c ↔ (t.indexToBe c).isSome ∨ _
  rw [listed_applyState, h.index, or_iff_left hidle]

lemma insertIds (h : Agrees t) {insertion : Insertion} (hfeed : t.feed = some insertion)
    (hordered : Ordered t .insertIds) :
    Agrees { t with list := t.list.insertIds insertion.ids insertion.entry, feed := none } := by
  refine ⟨fun c => ?_, h.disabled⟩
  have hpending : t.Pending c ↔ c ∈ insertion.ids := by
    unfold Tasks.Pending
    rw [hfeed]
    simp
  have hnone : ¬ Tasks.Pending
      { t with list := t.list.insertIds insertion.ids insertion.entry, feed := none } c := by
    rintro ⟨_, hinsertion, -⟩
    cases hinsertion
  rw [or_iff_left hnone]
  show Listed t.list c ↔ _
  rw [h.index, hpending]
  unfold Tasks.indexToBe
  cases hsaver : t.saver with
  | none => exact (isSome_foldl_orInsert insertion.ids insertion.entry t.list.index c).symm
  | some index =>
    -- the rebuilt index already knows what the push adds
    refine or_iff_left_of_imp fun hc => ?_
    exact hordered index hsaver insertion hfeed c hc

lemma prune (h : Agrees t) (now : ℕ) (hsaver : t.saver = none) (hordered : Ordered t (.prune now)) :
    Agrees (t.pruned now) := by
  refine ⟨fun c => ?_, fun hdisabled c hc => h.disabled hdisabled c (listed_of_pruneState hc)⟩
  unfold Tasks.indexToBe Tasks.pruned
  split_ifs with hcount
  · rw [Option.getD_some, isSome_buildIndex]
    refine (or_iff_left_of_imp ?_).symm
    rintro ⟨insertion, hinsertion, hc⟩
    exact hordered insertion hinsertion c hc
  · have hsame : Listed (t.list.pruneState now) c ↔ Listed t.list c := by
      unfold Listed
      rw [Blocklist.pruneState_of_pruneCount hcount]
    rw [hsame, h.index]
    unfold Tasks.indexToBe
    rw [hsaver]
    rfl

theorem step (h : Agrees t) {a : ListAction} (hstep : t.Step a t') (hordered : Ordered t a) :
    Agrees t' := by
  cases hstep with
  | apply event now henabled hfeed => exact h.apply event now henabled hfeed
  | insertIds insertion hfeed => exact h.insertIds hfeed hordered
  | prune now henabled hsaver => exact h.prune now hsaver hordered
  | setIndex index hsaver =>
    refine ⟨fun c => ?_, h.disabled⟩
    have hindex := h.index c
    unfold Tasks.indexToBe at hindex
    rw [hsaver] at hindex
    exact hindex
  | save henabled hsaver => exact ⟨h.index, h.disabled⟩
  | recordBlocked record matchId now =>
    refine ⟨fun c => listed_recordBlocked.trans (h.index c), fun hdisabled c hc => ?_⟩
    exact h.disabled hdisabled c (listed_recordBlocked.mp hc)

theorem isSome_lookup (h : Agrees t) (hfeed : t.feed = none) (hsaver : t.saver = none)
    (c : Bytes 32) : (t.list.lookup c).isSome ↔ Listed t.list c := by
  have hidle : ¬ t.Pending c := by
    rintro ⟨insertion, hinsertion, -⟩
    simp_all
  unfold Blocklist.lookup
  split_ifs with henabled
  · rw [Option.isSome_map, h.index, or_iff_left hidle]
    unfold Tasks.indexToBe
    rw [hsaver]
    rfl
  · exact iff_of_false (by simp) (h.disabled (Bool.eq_false_iff.mpr henabled) c)

end Agrees

lemma agrees_boot (configured : Bool) (ttlUs : ℕ) (file : Option Snapshot) (now : ℕ) :
    Agrees (Tasks.boot configured ttlUs file now) := by
  refine ⟨fun c => ?_, fun hdisabled c hc => ?_⟩
  · have hidle : ¬ (Tasks.boot configured ttlUs file now).Pending c := by
      rintro ⟨insertion, hinsertion, -⟩
      cases hinsertion
    rw [or_iff_left hidle]
    show Listed _ c ↔ ((Blocklist.fromConfig configured ttlUs file now).index c).isSome
    rw [Blocklist.fromConfig_index, isSome_buildIndex]
    rfl
  · cases configured with
    | false =>
      obtain ⟨m, hm, -⟩ := hc
      cases hm
    | true =>
      change (Blocklist.fromConfig true ttlUs file now).enabled = false at hdisabled
      rw [Blocklist.fromConfig_enabled] at hdisabled
      cases hdisabled

end RustUma.Forfeit
