import Mathlib.Data.Finset.Card
import RustUma.Enrichment.Catalog

/-!
# The catalog as a map (`src/enrichment.rs` `Catalog`)

What the catalog is for: the last row of each market. As long as no condition is ever carried by two
markets, its two indexes and its watermark answer as that map does.
-/

namespace RustUma.Enrichment

open RustUma.Model

def Catalog.len (catalog : Catalog) : ℕ := catalog.byCondition.entries.length

def Largest (markets : List MarketEnrichment) (id : ℕ) : Prop :=
  (∀ market ∈ markets, market.marketId ≤ id) ∧
    ((∃ market ∈ markets, market.marketId = id) ∨ markets = [] ∧ id = 0)

structure LastWrite (markets : List MarketEnrichment) (catalog : Catalog) : Prop where
  getByMarketId : ∀ m, catalog.getByMarketId m = lastListed markets m
  get : ∀ c row, catalog.get c = some row ↔
    ∃ m, lastListed markets m = some row ∧ row.conditionId = c
  len : catalog.len = (markets.map MarketEnrichment.marketId).toFinset.card
  snapshot : catalog.snapshot.Nodup ∧
    ∀ row, row ∈ catalog.snapshot ↔ ∃ m, lastListed markets m = some row
  maxMarketId : Largest markets catalog.maxMarketId

/-! ## The watermark -/

lemma Largest.concat {markets : List MarketEnrichment} {id : ℕ} (h : Largest markets id)
    (market : MarketEnrichment) : Largest (markets ++ [market]) (max id market.marketId) := by
  obtain ⟨hupper, hattained⟩ := h
  have hlast : market ∈ markets ++ [market] :=
    List.mem_append_right _ (List.mem_singleton_self _)
  refine ⟨fun other hother => ?_, Or.inl ?_⟩
  · grind
  grind

lemma largest_maxMarketId (markets : List MarketEnrichment) :
    Largest markets (Catalog.new markets).maxMarketId := by
  induction markets using List.reverseRecOn with
  | nil => exact ⟨fun _ h => absurd h List.not_mem_nil, Or.inr ⟨rfl, rfl⟩⟩
  | append_singleton markets market ih =>
    have hnext := ih.concat market
    rw [Catalog.new_concat]
    unfold Catalog.upsert
    split_ifs with hsame
    · rwa [max_eq_left (ih.1 market (Catalog.mem_of_lookup_new hsame))] at hnext
    · exact hnext

/-! ## The rows -/

section Rows

variable {markets : List MarketEnrichment} {catalog : Catalog} {row : MarketEnrichment}

lemma Catalog.Valid.mem_snapshot_iff (h : catalog.Valid) :
    row ∈ catalog.snapshot ↔ catalog.byCondition.lookup row.conditionId = some row := by
  unfold Catalog.snapshot
  rw [List.mem_map]
  constructor
  · rintro ⟨⟨c, row'⟩, hentry, rfl⟩
    have hlookup : catalog.byCondition.lookup c = some row' := AList.mem_lookup_iff.mpr hentry
    rwa [← (h.filed c row' hlookup).1] at hlookup
  · intro hlookup
    exact ⟨⟨row.conditionId, row⟩, AList.mem_lookup_iff.mp hlookup, rfl⟩

lemma Catalog.Valid.nodup_snapshot (h : catalog.Valid) : catalog.snapshot.Nodup := by
  refine (List.NodupKeys.nodup catalog.byCondition.nodupKeys).map_on ?_
  rintro ⟨c, row⟩ hrow ⟨c', row'⟩ hrow' (rfl : row = row')
  have hc := (h.filed c row (AList.mem_lookup_iff.mpr hrow)).1
  have hc' := (h.filed c' row (AList.mem_lookup_iff.mpr hrow')).1
  rw [← hc, ← hc']

lemma len_new (h : Unshared markets) :
    (Catalog.new markets).len = (markets.map MarketEnrichment.marketId).toFinset.card := by
  have hvalid := Catalog.valid_new markets
  have hcurrent : ∀ {row}, row ∈ (Catalog.new markets).snapshot →
      lastListed markets row.marketId = some row := fun {row} hrow =>
    ((byCondition_iff h _ row).mp (hvalid.mem_snapshot_iff.mp hrow)).2
  have hnodup : ((Catalog.new markets).snapshot.map MarketEnrichment.marketId).Nodup := by
    refine hvalid.nodup_snapshot.map_on fun u hu v hv heq => ?_
    grind
  have hids : ((Catalog.new markets).snapshot.map MarketEnrichment.marketId).toFinset =
      (markets.map MarketEnrichment.marketId).toFinset := by
    ext m
    rw [List.mem_toFinset, List.mem_toFinset, List.mem_map, List.mem_map]
    constructor
    · rintro ⟨row, hrow, hm⟩
      exact ⟨row, (lastListed_eq_some (hcurrent hrow)).1, hm⟩
    · rintro ⟨market, hmarket, rfl⟩
      obtain ⟨last, hlast⟩ := exists_lastListed hmarket
      have hid := (lastListed_eq_some hlast).2
      refine ⟨last, hvalid.mem_snapshot_iff.mpr ((byCondition_iff h _ last).mpr ⟨rfl, ?_⟩), hid⟩
      rw [hid, hlast]
  rw [← hids, List.toFinset_card_of_nodup hnodup, List.length_map]
  exact (List.length_map _).symm

end Rows

theorem catalog_refines_last_write (markets : List MarketEnrichment) (h : Unshared markets) :
    LastWrite markets (Catalog.new markets) ∧
      ∀ market, Unshared (markets ++ [market]) →
        (((Catalog.new markets).upsert market).2 = true ↔
          ((Catalog.new markets).upsert market).1.getByMarketId market.marketId ≠
            (Catalog.new markets).getByMarketId market.marketId) := by
  have hvalid := Catalog.valid_new markets
  obtain ⟨hsound, hget⟩ := sound_new h
  have hcurrent : ∀ row, (∃ m, lastListed markets m = some row) ↔
      lastListed markets row.marketId = some row := by
    refine fun row => ⟨?_, fun hrow => ⟨_, hrow⟩⟩
    rintro ⟨m, hrow⟩
    rwa [(lastListed_eq_some hrow).2]
  refine ⟨⟨hget, fun c row => ?_, len_new h, ⟨hvalid.nodup_snapshot, fun row => ?_⟩,
    largest_maxMarketId markets⟩, fun market hnext => ?_⟩
  · refine (byCondition_iff h c row).trans ⟨?_, ?_⟩
    · simp_all
    simp_all
  · rw [hvalid.mem_snapshot_iff, byCondition_iff h, hcurrent]
    exact and_iff_right rfl
  · rw [Catalog.getByMarketId_upsert_self hvalid, ne_comm, Ne, hsound.getByMarketId_iff]
    unfold Catalog.upsert
    grind

/-- Market 1 changes its condition, and a row is upserted again. -/
theorem catalog_refines_last_write_of_moved_market :
    LastWrite [testRow 1 10, testRow 2 11, testRow 1 12]
        (Catalog.new [testRow 1 10, testRow 2 11, testRow 1 12]) ∧
      ((Catalog.new [testRow 1 10, testRow 2 11, testRow 1 12]).upsert (testRow 1 12)).2 = false ∧
      (Catalog.new [testRow 1 10, testRow 2 11, testRow 1 12]).len = 2 := by
  have hmain := catalog_refines_last_write [testRow 1 10, testRow 2 11, testRow 1 12]
    (by decide +kernel)
  exact ⟨hmain.1, by decide +kernel, by decide +kernel⟩

end RustUma.Enrichment
