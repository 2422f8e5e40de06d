import Mathlib.Data.List.AList
import RustUma.Pipeline.Processor

/-!
# The market catalog (`src/enrichment.rs` `Catalog`)

Rows are kept under their condition; a second index leads from a market id to a condition. A decoded
event asks for the row of its market id, and failing that for the row of the condition derived from
the log.
-/

namespace RustUma.Enrichment

open RustUma.Model RustUma.Pipeline

structure Catalog where
  byCondition : AList fun _ : Bytes 32 => MarketEnrichment
  marketToCondition : AList fun _ : ℕ => Bytes 32
  maxMarketId : ℕ
  deriving DecidableEq

namespace Catalog

def empty : Catalog := ⟨∅, ∅, 0⟩

def get (catalog : Catalog) (conditionId : Bytes 32) : Option MarketEnrichment :=
  catalog.byCondition.lookup conditionId

def getByMarketId (catalog : Catalog) (marketId : ℕ) : Option MarketEnrichment :=
  (catalog.marketToCondition.lookup marketId).bind fun conditionId =>
    catalog.byCondition.lookup conditionId

def resolve (catalog : Catalog) (marketId : Option ℕ) (derivedConditionId : Bytes 32) :
    Option MarketEnrichment :=
  (marketId.bind catalog.getByMarketId).or (catalog.get derivedConditionId)

def withoutPrevious (catalog : Catalog) (market : MarketEnrichment) :
    AList fun _ : Bytes 32 => MarketEnrichment :=
  match catalog.marketToCondition.lookup market.marketId with
  | some previous =>
    if previous ≠ market.conditionId then catalog.byCondition.erase previous
    else catalog.byCondition
  | none => catalog.byCondition

def upsert (catalog : Catalog) (market : MarketEnrichment) : Catalog × Bool :=
  if catalog.byCondition.lookup market.conditionId = some market then (catalog, false)
  else
    ({ byCondition := (catalog.withoutPrevious market).insert market.conditionId market
       marketToCondition := catalog.marketToCondition.insert market.marketId market.conditionId
       maxMarketId := max catalog.maxMarketId market.marketId }, true)

def new (markets : List MarketEnrichment) : Catalog :=
  markets.foldl (fun catalog market => (catalog.upsert market).1) empty

def snapshot (catalog : Catalog) : List MarketEnrichment :=
  catalog.byCondition.entries.map Sigma.snd

lemma new_concat (markets : List MarketEnrichment) (market : MarketEnrichment) :
    new (markets ++ [market]) = ((new markets).upsert market).1 := by
  unfold new
  simp

/-! ## What the indexes hold -/

structure Valid (catalog : Catalog) : Prop where
  filed : ∀ c row, catalog.byCondition.lookup c = some row →
    row.conditionId = c ∧ catalog.marketToCondition.lookup row.marketId = some c

lemma lookup_withoutPrevious (catalog : Catalog) (market : MarketEnrichment) {c : Bytes 32}
    (hc : c ≠ market.conditionId) :
    (catalog.withoutPrevious market).lookup c =
      if catalog.marketToCondition.lookup market.marketId = some c then none
      else catalog.byCondition.lookup c := by
  unfold withoutPrevious
  cases hprevious : catalog.marketToCondition.lookup market.marketId with
  | none => simp
  | some previous =>
    by_cases heq : previous = c
    · subst heq
      simp [hc]
    · have hne : c ≠ previous := fun h => heq h.symm
      simp only [Option.some.injEq, heq, if_false]
      split_ifs with hmoved
      · simp_all
      · rfl

variable {catalog : Catalog} {market : MarketEnrichment} {markets : List MarketEnrichment}

lemma upsert_of_same (h : catalog.byCondition.lookup market.conditionId = some market) :
    (catalog.upsert market).1 = catalog := by
  unfold upsert
  rw [if_pos h]

lemma lookup_upsert (catalog : Catalog) (market : MarketEnrichment)
    (hnew : catalog.byCondition.lookup market.conditionId ≠ some market) (c : Bytes 32) :
    (catalog.upsert market).1.byCondition.lookup c =
      if c = market.conditionId then some market
      else if catalog.marketToCondition.lookup market.marketId = some c then none
      else catalog.byCondition.lookup c := by
  unfold upsert
  rw [if_neg hnew]
  by_cases hc : c = market.conditionId
  · rw [if_pos hc, hc]
    simp
  · rw [if_neg hc, ← lookup_withoutPrevious catalog market hc]
    simp_all

lemma marketToCondition_upsert (h : catalog.Valid) (market : MarketEnrichment) (m : ℕ) :
    (catalog.upsert market).1.marketToCondition.lookup m =
      if m = market.marketId then some market.conditionId
      else catalog.marketToCondition.lookup m := by
  unfold upsert
  split_ifs with hsame hm hm
  · -- a row that is already there has its market leading to it
    rw [hm]
    exact (h.filed _ _ hsame).2
  · rfl
  · rw [hm]
    simp
  simp_all

lemma Valid.upsert (h : catalog.Valid) (market : MarketEnrichment) :
    (catalog.upsert market).1.Valid := by
  refine ⟨fun c row hrow => ?_⟩
  rw [marketToCondition_upsert h]
  by_cases hsame : catalog.byCondition.lookup market.conditionId = some market
  · rw [upsert_of_same hsame] at hrow
    obtain ⟨hcondition, hmarket⟩ := h.filed c row hrow
    refine ⟨hcondition, ?_⟩
    split_ifs with hm
    · rw [hm, (h.filed _ _ hsame).2] at hmarket
      exact hmarket
    · exact hmarket
  · rw [lookup_upsert catalog market hsame] at hrow
    split_ifs at hrow with hc hmoved
    · simp_all
    · obtain ⟨hcondition, hmarket⟩ := h.filed c row hrow
      -- a row of the same market was erased
      grind

lemma getByMarketId_upsert_self (h : catalog.Valid) (market : MarketEnrichment) :
    (catalog.upsert market).1.getByMarketId market.marketId = some market := by
  unfold getByMarketId
  rw [marketToCondition_upsert h, if_pos rfl, Option.bind_some]
  by_cases hsame : catalog.byCondition.lookup market.conditionId = some market
  · rw [upsert_of_same hsame]
    exact hsame
  · rw [lookup_upsert catalog market hsame, if_pos rfl]

lemma getByMarketId_upsert_of_ne (h : catalog.Valid) {m : ℕ} (hne : market.marketId ≠ m)
    (hapart : ∀ c ∈ catalog.marketToCondition.lookup m, market.conditionId ≠ c ∧
      catalog.marketToCondition.lookup market.marketId ≠ some c)
    :
    (catalog.upsert market).1.getByMarketId m = catalog.getByMarketId m := by
  by_cases hsame : catalog.byCondition.lookup market.conditionId = some market
  · rw [upsert_of_same hsame]
  · unfold getByMarketId
    rw [marketToCondition_upsert h, if_neg hne.symm]
    cases hcondition : catalog.marketToCondition.lookup m with
    | none => rfl
    | some c =>
      obtain ⟨htaken, hgiven⟩ := hapart c hcondition
      rw [Option.bind_some, Option.bind_some, lookup_upsert catalog market hsame,
        if_neg htaken.symm, if_neg hgiven]

lemma valid_new (markets : List MarketEnrichment) : (new markets).Valid := by
  induction markets using List.reverseRecOn with
  | nil => exact ⟨fun c row hrow => by simp [new, empty] at hrow⟩
  | append_singleton markets market ih =>
    rw [new_concat]
    exact ih.upsert market

lemma mem_of_lookup_new {c : Bytes 32} {row : MarketEnrichment}
    (h : (new markets).byCondition.lookup c = some row) : row ∈ markets := by
  induction markets using List.reverseRecOn with
  | nil => simp [new, empty] at h
  | append_singleton markets market ih =>
    rw [new_concat] at h
    rw [List.mem_append, List.mem_singleton]
    by_cases hsame : (new markets).byCondition.lookup market.conditionId = some market
    · rw [upsert_of_same hsame] at h
      exact Or.inl (ih h)
    · rw [lookup_upsert _ market hsame] at h
      grind

/-! ## Markets that do not share a condition -/

structure Sound (markets : List MarketEnrichment) (catalog : Catalog) : Prop
    extends Valid catalog where
  listed : ∀ c row, catalog.byCondition.lookup c = some row → row ∈ markets
  own : ∀ m c, catalog.marketToCondition.lookup m = some c →
    ∃ row, catalog.byCondition.lookup c = some row ∧ row.marketId = m

lemma Sound.getByMarketId_iff (h : catalog.Sound markets) {m : ℕ} {row : MarketEnrichment} :
    catalog.getByMarketId m = some row ↔
      row.marketId = m ∧ catalog.byCondition.lookup row.conditionId = some row := by
  unfold getByMarketId
  rw [Option.bind_eq_some_iff]
  constructor
  · rintro ⟨c, hm, hrow⟩
    obtain ⟨own, hown, rfl⟩ := h.own m c hm
    rw [hrow] at hown
    cases hown
    rw [(h.filed c row hrow).1]
    exact ⟨rfl, hrow⟩
  · rintro ⟨rfl, hrow⟩
    exact ⟨row.conditionId, (h.filed _ _ hrow).2, hrow⟩

lemma Sound.upsert (h : catalog.Sound markets)
    (hown : ∀ v ∈ markets, v.conditionId = market.conditionId → v.marketId = market.marketId) :
    (catalog.upsert market).1.Sound (markets ++ [market]) ∧
      ∀ m, (catalog.upsert market).1.getByMarketId m =
        if m = market.marketId then some market else catalog.getByMarketId m := by
  have hvalid := h.toValid.upsert market
  have hlast : market ∈ markets ++ [market] := List.mem_append_right _ (List.mem_singleton_self _)
  by_cases hsame : catalog.byCondition.lookup market.conditionId = some market
  · rw [upsert_of_same hsame]
    refine ⟨⟨h.toValid, fun c row hrow => List.mem_append_left _ (h.listed c row hrow), h.own⟩, ?_⟩
    intro m
    split_ifs with hm
    · rw [hm, h.getByMarketId_iff]
      exact ⟨rfl, hsame⟩
    · rfl
  · -- the row erased is one of the market itself
    have herased : ∀ {c row}, catalog.byCondition.lookup c = some row →
        catalog.marketToCondition.lookup market.marketId = some c →
          row.marketId = market.marketId := by
      intro c row hrow hprevious
      obtain ⟨previous, hfound, hmarket⟩ := h.own _ c hprevious
      simp_all
    have hsound : (catalog.upsert market).1.Sound (markets ++ [market]) := by
      refine ⟨hvalid, fun c row hrow => ?_, fun m c hm => ?_⟩
      · rw [lookup_upsert catalog market hsame] at hrow
        split_ifs at hrow
        · simp_all
        · exact List.mem_append_left _ (h.listed c row hrow)
      · rw [marketToCondition_upsert h.toValid] at hm
        rw [lookup_upsert catalog market hsame]
        split_ifs at hm with hmarket
        · simp_all
        · obtain ⟨row, hrow, rfl⟩ := h.own m c hm
          have hc : c ≠ market.conditionId := by
            rintro rfl
            exact hmarket (hown row (h.listed _ _ hrow) (h.filed _ _ hrow).1)
          grind
    refine ⟨hsound, fun m => ?_⟩
    split_ifs with hm
    · rw [hm, hsound.getByMarketId_iff, lookup_upsert catalog market hsame]
      simp
    · ext row
      rw [hsound.getByMarketId_iff, h.getByMarketId_iff, lookup_upsert catalog market hsame]
      refine and_congr_right fun hrow => ?_
      have hother : row ≠ market := fun heq => hm (by rw [← hrow, heq])
      split_ifs with hc hprevious
      · refine iff_of_false (fun heq => hother (Option.some.inj heq).symm) fun hfound => ?_
        exact hm (by rw [← hrow, hown row (h.listed _ _ hfound) hc])
      · grind
      · rfl

end Catalog

/-! ## Histories -/

def lastListed (markets : List MarketEnrichment) (m : ℕ) : Option MarketEnrichment :=
  (markets.filter fun market => market.marketId = m).getLast?

def Unshared (markets : List MarketEnrichment) : Prop :=
  ∀ u ∈ markets, ∀ v ∈ markets, u.conditionId = v.conditionId → u.marketId = v.marketId

instance (markets : List MarketEnrichment) : Decidable (Unshared markets) :=
  inferInstanceAs (Decidable (∀ u ∈ markets, ∀ v ∈ markets, _ → _))

section History

variable {markets : List MarketEnrichment} {market row : MarketEnrichment} {m : ℕ} {c : Bytes 32}

lemma lastListed_concat : lastListed (markets ++ [market]) m =
    if market.marketId = m then some market else lastListed markets m := by
  unfold lastListed
  grind

lemma lastListed_eq_some (h : lastListed markets m = some row) :
    row ∈ markets ∧ row.marketId = m := by
  have hmem := List.mem_of_getLast? h
  simp_all

lemma exists_lastListed (h : row ∈ markets) :
    ∃ last, lastListed markets row.marketId = some last := by
  have hne : (markets.filter fun market => market.marketId = row.marketId) ≠ [] :=
    List.ne_nil_of_mem (List.mem_filter.mpr ⟨h, decide_eq_true rfl⟩)
  exact ⟨_, List.getLast?_eq_some_getLast hne⟩

lemma sound_new (h : Unshared markets) : (Catalog.new markets).Sound markets ∧
    ∀ m, (Catalog.new markets).getByMarketId m = lastListed markets m := by
  induction markets using List.reverseRecOn with
  | nil =>
    refine ⟨⟨Catalog.valid_new [], ?_, ?_⟩, fun m => rfl⟩
    · intro c row hrow
      simp [Catalog.new, Catalog.empty] at hrow
    · intro m c hm
      simp [Catalog.new, Catalog.empty] at hm
  | append_singleton markets market ih =>
    have hlast : market ∈ markets ++ [market] :=
      List.mem_append_right _ (List.mem_singleton_self _)
    obtain ⟨hsound, hlisted⟩ := ih fun u hu v hv =>
      h u (List.mem_append_left _ hu) v (List.mem_append_left _ hv)
    obtain ⟨hnext, hget⟩ := hsound.upsert fun v hv =>
      h v (List.mem_append_left _ hv) market hlast
    rw [Catalog.new_concat]
    refine ⟨hnext, fun m => ?_⟩
    rw [hget, lastListed_concat, hlisted]
    grind

lemma byCondition_iff (h : Unshared markets) (c : Bytes 32) (row : MarketEnrichment) :
    (Catalog.new markets).byCondition.lookup c = some row ↔
      row.conditionId = c ∧ lastListed markets row.marketId = some row := by
  obtain ⟨hsound, hget⟩ := sound_new h
  rw [← hget, hsound.getByMarketId_iff]
  constructor
  · intro hrow
    obtain ⟨rfl, -⟩ := hsound.filed c row hrow
    grind
  grind

end History

/-! ## The market of an event -/

def OwnRow (catalog : Catalog) (m : ℕ) (derivedConditionId : Bytes 32) : Prop :=
  match catalog.getByMarketId m with
  | some row => row.marketId = m
  | none => catalog.get derivedConditionId = none

def Describes (message : PbUmaEvent) (row : MarketEnrichment) : Prop :=
  message.marketId = row.marketId ∧ message.conditionId = row.conditionId.1 ∧
    message.tokenIds = row.tokenIds.map Subtype.val ∧ message.tagIds = row.tagIds ∧
    message.category = some row.category.toProto ∧ message.betType = some row.betType.toProto ∧
    message.negRisk = row.negRisk

lemma Catalog.Valid.marketId_ne {catalog : Catalog} (h : catalog.Valid) {m : ℕ} {c : Bytes 32}
    {row : MarketEnrichment} (hnone : catalog.getByMarketId m = none)
    (hrow : catalog.get c = some row) : row.marketId ≠ m := by
  rintro rfl
  unfold Catalog.getByMarketId at hnone
  rw [(h.filed c row hrow).2] at hnone
  change catalog.get c = none at hnone
  simp_all

lemma resolve_own_iff {catalog : Catalog} (h : catalog.Valid) (m : ℕ) (derived : Bytes 32) :
    (∀ row, catalog.resolve (some m) derived = some row → row.marketId = m) ↔
      OwnRow catalog m derived := by
  unfold Catalog.resolve OwnRow
  rw [Option.bind_some]
  cases hfound : catalog.getByMarketId m with
  | some row => simp
  | none =>
    constructor
    · intro hown
      rw [Option.eq_none_iff_forall_ne_some]
      intro row hrow
      exact h.marketId_ne hfound hrow (hown row hrow)
    simp_all

theorem enriched_event_describes_one_market (markets : List MarketEnrichment) (event : UmaEvent)
    (m : ℕ) (hm : event.request.ancillary.marketId = some m) :
    let catalog := Catalog.new markets
    let derived := event.request.conditionId
    ((∀ row, catalog.resolve event.request.ancillary.marketId derived = some row →
        row.marketId = m) ↔ OwnRow catalog m derived) ∧
    (OwnRow catalog m derived → ∀ sequence row,
      catalog.resolve event.request.ancillary.marketId derived = some row →
        row ∈ markets ∧ Describes (buildRecord sequence event (some row)).toProto row) ∧
    (Unshared markets → (OwnRow catalog m derived ↔ (∃ market ∈ markets, market.marketId = m) ∨
      ∀ market ∈ markets, lastListed markets market.marketId = some market →
        market.conditionId ≠ derived)) := by
  intro catalog derived
  have hvalid : catalog.Valid := Catalog.valid_new markets
  have hiff := resolve_own_iff hvalid m derived
  rw [hm]
  refine ⟨hiff, fun hown sequence row hrow => ⟨?_, ?_⟩, fun hunshared => ?_⟩
  · unfold Catalog.resolve at hrow
    rw [Option.or_eq_some_iff, Option.bind_some] at hrow
    rcases hrow with hrow | ⟨-, hrow⟩
    · obtain ⟨c, -, hrow⟩ := Option.bind_eq_some_iff.mp hrow
      exact Catalog.mem_of_lookup_new hrow
    · exact Catalog.mem_of_lookup_new hrow
  · have hmarket : event.marketId = row.marketId := by
      unfold UmaEvent.marketId
      simp_all
    exact ⟨hmarket, rfl, rfl, rfl, rfl, rfl, rfl⟩
  · unfold OwnRow
    rw [(sound_new hunshared).2]
    cases hlast : lastListed markets m with
    | some row =>
      obtain ⟨hrow, hmarket⟩ := lastListed_eq_some hlast
      grind
    | none =>
      have hunlisted : ¬ ∃ market ∈ markets, market.marketId = m := by
        rintro ⟨market, hmem, rfl⟩
        obtain ⟨last, hsome⟩ := exists_lastListed hmem
        simp_all
      rw [or_iff_right hunlisted]
      rw [Option.eq_none_iff_forall_ne_some]
      constructor
      · intro hnone market _ hcurrent hcondition
        exact hnone market ((byCondition_iff hunshared _ _).mpr ⟨hcondition, hcurrent⟩)
      · intro hother row hrow
        obtain ⟨hcondition, hcurrent⟩ := (byCondition_iff hunshared _ _).mp hrow
        exact hother row (Catalog.mem_of_lookup_new hrow) hcurrent hcondition

def testRow (marketId : ℕ) (conditionByte : UInt8) : MarketEnrichment where
  marketId := marketId
  conditionId := Bytes.fill 32 conditionByte
  tokenIds := [Bytes.fill 32 (conditionByte + 1)]
  tagIds := [marketId]
  category := .sports
  betType := .moneyline
  negRisk := false

/-- Market 1 changes its condition; the event is resolved to the row it has now. -/
theorem enriched_event_describes_moved_market :
    let catalog := Catalog.new [testRow 1 10, testRow 2 11, testRow 1 12]
    let event := testUmaEvent 1 1
    catalog.resolve event.request.ancillary.marketId event.request.conditionId =
        some (testRow 1 12) ∧
      Describes (buildRecord 7 event (some (testRow 1 12))).toProto (testRow 1 12) := by
  intro catalog event
  have hresolve : catalog.resolve event.request.ancillary.marketId event.request.conditionId =
      some (testRow 1 12) := by decide +kernel
  have hmain := enriched_event_describes_one_market
    [testRow 1 10, testRow 2 11, testRow 1 12] event 1 rfl
  have hown := (hmain.2.2 (by decide +kernel)).mpr (Or.inl ⟨testRow 1 10, by simp, rfl⟩)
  grind

/-- Market 1 is not listed and the derived condition is that of market 2; or both carry one
condition and market 2 was listed last. The event says market 1 and is broadcast with the row of
market 2. -/
theorem row_of_another_market :
    let event := testUmaEvent 1 1
    let resolved (markets : List MarketEnrichment) :=
      (Catalog.new markets).resolve event.request.ancillary.marketId event.request.conditionId
    event.request.ancillary.marketId = some 1 ∧
      resolved [testRow 2 10] = some (testRow 2 10) ∧
      resolved [testRow 1 20, testRow 2 20] = some (testRow 2 20) ∧
      (buildRecord 7 event (some (testRow 2 10))).toProto.marketId = 1 ∧
      (buildRecord 7 event (some (testRow 2 10))).toProto.tagIds = [2] := by
  decide +kernel

end RustUma.Enrichment
