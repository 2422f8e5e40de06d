import Mathlib.Data.Char
import Mathlib.Data.List.Lex
import Mathlib.Data.List.MinMax
import Mathlib.Data.Prod.Lex
import Mathlib.Order.Bounds.Basic
import RustUma.Enrichment.Walk

/-!
# Incremental passes (`src/enrichment.rs` `sync_incremental`)

A pass walks the listing from the last change backwards, down to the page on which it meets a market
older than where the pass before it ended. What it stores it stores at once, so a pass that fails
leaves a part of its work behind, and the next one starts over.
-/

namespace RustUma.Enrichment

open RustUma.Found RustUma.Model

/-! ## Cursors -/

@[ext] structure EnrichmentCursor where
  updatedAt : List Char
  marketId : ℕ
  deriving DecidableEq

namespace EnrichmentCursor

def key (cursor : EnrichmentCursor) : List Char ×ₗ ℕ := toLex (cursor.updatedAt, cursor.marketId)

lemma key_injective : Function.Injective key := fun a b h => by
  have hpair := Prod.ext_iff.mp (toLex.injective h)
  exact EnrichmentCursor.ext hpair.1 hpair.2

instance : LinearOrder EnrichmentCursor := LinearOrder.lift' key key_injective

lemma le_iff {a b : EnrichmentCursor} :
    a ≤ b ↔ a.updatedAt < b.updatedAt ∨ a.updatedAt = b.updatedAt ∧ a.marketId ≤ b.marketId :=
  Prod.Lex.le_iff

lemma updatedAt_le {a b : EnrichmentCursor} (h : a ≤ b) : a.updatedAt ≤ b.updatedAt := by
  rcases le_iff.mp h with hlt | ⟨heq, -⟩
  · exact hlt.le
  · exact heq.le

def isOlder (cursor : EnrichmentCursor) (updatedAt : List Char) : Bool :=
  updatedAt < cursor.updatedAt

def advance (cursor : EnrichmentCursor) (updatedAt : List Char) (marketId : ℕ) :
    EnrichmentCursor :=
  if cursor < ⟨updatedAt, marketId⟩ then ⟨updatedAt, marketId⟩ else cursor

def reach : Option EnrichmentCursor → EnrichmentCursor → Option EnrichmentCursor
  | some cursor, next => some (cursor.advance next.updatedAt next.marketId)
  | none, next => some next

lemma advance_eq_max (cursor next : EnrichmentCursor) :
    cursor.advance next.updatedAt next.marketId = max cursor next := by
  unfold advance
  split_ifs with hlt
  · exact (max_eq_right hlt.le).symm
  simp_all

lemma foldl_reach_some (cursor : EnrichmentCursor) (nexts : List EnrichmentCursor) :
    nexts.foldl reach (some cursor) = (cursor :: nexts).maximum := by
  induction nexts generalizing cursor with
  | nil => rfl
  | cons next nexts ih =>
    rw [List.foldl_cons, reach, advance_eq_max, ih, List.maximum_cons, List.maximum_cons,
      List.maximum_cons, WithBot.coe_max, max_assoc]

lemma foldl_reach_eq_maximum (newest : Option EnrichmentCursor) (nexts : List EnrichmentCursor) :
    nexts.foldl reach newest = (newest.toList ++ nexts).maximum := by
  cases newest with
  | some cursor => exact foldl_reach_some cursor nexts
  | none =>
    cases nexts with
    | nil => rfl
    | cons next nexts => exact foldl_reach_some next nexts

variable {newest : Option EnrichmentCursor} {nexts : List EnrichmentCursor}

lemma mem_toList_append {x : EnrichmentCursor} :
    x ∈ newest.toList ++ nexts ↔ newest = some x ∨ x ∈ nexts := by
  simp

lemma foldl_reach {c : EnrichmentCursor} :
    nexts.foldl reach newest = some c ↔ IsGreatest {x | newest = some x ∨ x ∈ nexts} c := by
  rw [foldl_reach_eq_maximum]
  refine List.maximum_eq_coe_iff.trans ?_
  rw [mem_toList_append]
  refine and_congr_right fun _ => ⟨fun h x hx => h x (mem_toList_append.mpr hx), fun h x hx => ?_⟩
  exact h (mem_toList_append.mp hx)

lemma exists_foldl_reach {x : EnrichmentCursor} (hx : newest = some x ∨ x ∈ nexts) :
    ∃ c, nexts.foldl reach newest = some c ∧ x ≤ c := by
  cases h : nexts.foldl reach newest with
  | some c => exact ⟨c, rfl, (foldl_reach.mp h).2 hx⟩
  | none =>
    rw [foldl_reach_eq_maximum] at h
    have hnil := List.maximum_eq_bot.mp h
    simp_all

end EnrichmentCursor

/-! ## A pass -/

structure Pass extends Tick where
  newest : Option EnrichmentCursor
  deriving DecidableEq

def Pass.settle (classify : Classify) (pass : Pass) (raw : DatedMarket) : Pass :=
  match compactMarket classify raw.toGammaMarket with
  | .error _ => pass
  | .ok market =>
    { pass.toTick.upsert market with
      newest :=
        match parseUint 64 raw.id with
        | some marketId => EnrichmentCursor.reach pass.newest ⟨raw.updatedAt, marketId⟩
        | none => pass.newest }

def readMarket (classify : Classify) (previous : Option EnrichmentCursor)
    (boundary : Option (List Char)) (acc : Pass × Bool) (raw : DatedMarket) : Pass × Bool :=
  if previous.any (·.isOlder raw.updatedAt) then (acc.1, true)
  else if boundary.any (raw.updatedAt < ·) then (acc.1, true)
  else (acc.1.settle classify raw, acc.2)

def readIncremental (classify : Classify) (previous : Option EnrichmentCursor)
    (boundary : Option (List Char)) (pass : Pass) (markets : List DatedMarket) : Pass × Bool :=
  markets.foldl (readMarket classify previous boundary) (pass, false)

def walkIncremental (gamma : Gamma) (classify : Classify) (previous : Option EnrichmentCursor)
    (boundary : Option (List Char)) :
    ℕ → Option String → Pass → Pass × Except EnrichmentError Unit :=
  walkPages terminal (fun cursor => keysetWithRetry (gamma cursor))
    (readIncremental classify previous boundary)

def syncIncremental (gamma : Gamma) (classify : Classify) (catalog : Catalog)
    (previous : Option EnrichmentCursor) (boundary : Option (List Char)) (maxPages : ℕ) :
    Catalog × Except EnrichmentError (ℕ × Option EnrichmentCursor) :=
  let walked := walkIncremental gamma classify previous boundary (max maxPages 1) none
    ⟨⟨catalog, 0⟩, previous⟩
  (walked.1.catalog, walked.2.map fun _ => (walked.1.changed, walked.1.newest))

def stale (previous : Option EnrichmentCursor) (boundary : Option (List Char))
    (raw : DatedMarket) : Bool :=
  previous.any (·.isOlder raw.updatedAt) || boundary.any (raw.updatedAt < ·)

section Reading

variable {classify : Classify} {previous : Option EnrichmentCursor} {boundary : Option (List Char)}

lemma readMarket_eq (acc : Pass × Bool) (raw : DatedMarket) :
    readMarket classify previous boundary acc raw =
      if stale previous boundary raw then (acc.1, true)
      else (acc.1.settle classify raw, acc.2) := by
  unfold readMarket stale
  grind

lemma foldl_readMarket (pass : Pass) (flag : Bool) (markets : List DatedMarket) :
    markets.foldl (readMarket classify previous boundary) (pass, flag) =
      ((markets.filter fun raw => !stale previous boundary raw).foldl (Pass.settle classify) pass,
        flag || markets.any (stale previous boundary)) := by
  induction markets generalizing pass flag with
  | nil => simp
  | cons raw markets ih =>
    rw [List.foldl_cons, readMarket_eq, List.any_cons]
    grind

variable (classify previous boundary) in
lemma skipping_readIncremental :
    Paged.Skipping (readIncremental classify previous boundary) (stale previous boundary)
      (Pass.settle classify) := fun pass markets => by
  unfold readIncremental
  rw [foldl_readMarket, Bool.false_or]

end Reading

/-! ## A listing that stands still -/

structure UpdatedListing extends Paged DatedMarket terminal where
  sorted : toPaged.items.Pairwise fun a b => b.updatedAt ≤ a.updatedAt

def Serving (listing : UpdatedListing) (gamma : Gamma) : Prop :=
  ∀ cursor ∈ listing.cursors, ∀ attempt page,
    gamma cursor attempt = .ok page → page = listing.page cursor

def DatedMarket.row? (classify : Classify) (raw : DatedMarket) : Option MarketEnrichment :=
  (compactMarket classify raw.toGammaMarket).toOption

def DatedMarket.cursor? (classify : Classify) (raw : DatedMarket) : Option EnrichmentCursor :=
  (raw.row? classify).map fun row => ⟨raw.updatedAt, row.marketId⟩

def UpdatedListing.rows (classify : Classify) (listing : UpdatedListing) :
    List MarketEnrichment :=
  listing.items.filterMap (DatedMarket.row? classify)

section Listing

variable {classify : Classify} {listing : UpdatedListing} {gamma : Gamma}
  {previous : Option EnrichmentCursor} {boundary : Option (List Char)} {raw : DatedMarket}
  {row : MarketEnrichment}

lemma row?_eq_some_iff :
    raw.row? classify = some row ↔ compactMarket classify raw.toGammaMarket = .ok row := by
  unfold DatedMarket.row?
  cases compactMarket classify raw.toGammaMarket <;> simp [Except.toOption]

lemma parseUint_of_row? (h : raw.row? classify = some row) :
    parseUint 64 raw.id = some row.marketId := by
  have hcompact := row?_eq_some_iff.mp h
  cases hid : parseUint 64 raw.id with
  | none =>
    unfold compactMarket at hcompact
    simp_all
  | some m => rw [marketId_of_compactMarket hid hcompact]

lemma Pass.settle_of_none (pass : Pass) (h : raw.row? classify = none) :
    pass.settle classify raw = pass := by
  unfold Pass.settle
  cases hcompact : compactMarket classify raw.toGammaMarket with
  | error e => rfl
  | ok row =>
    rw [row?_eq_some_iff.mpr hcompact] at h
    cases h

lemma Pass.settle_of_some (pass : Pass) (h : raw.row? classify = some row) :
    pass.settle classify raw =
      ⟨pass.toTick.upsert row,
        EnrichmentCursor.reach pass.newest ⟨raw.updatedAt, row.marketId⟩⟩ := by
  unfold Pass.settle
  simp only [row?_eq_some_iff.mp h, parseUint_of_row? h]

lemma Serving.serves (h : Serving listing gamma) :
    listing.Serves fun cursor => keysetWithRetry (gamma cursor) := by
  intro cursor hcursor page hpage
  obtain ⟨n, hn⟩ := keysetWithRetry_eq_ok hpage
  exact h cursor hcursor n page hn

lemma stale_of_le {a b : DatedMarket} (hle : b.updatedAt ≤ a.updatedAt)
    (h : stale previous boundary a = true) : stale previous boundary b = true := by
  unfold stale at h ⊢
  rw [Bool.or_eq_true, Option.any_eq_true, Option.any_eq_true] at h ⊢
  rcases h with ⟨cursor, hprevious, hold⟩ | ⟨bound, hboundary, hlow⟩
  · exact Or.inl ⟨cursor, hprevious, decide_eq_true (hle.trans_lt (of_decide_eq_true hold))⟩
  grind

variable (classify previous boundary) in
lemma pass_settles_some (h : Serving listing gamma) (left : ℕ) (pass : Pass) :
    ∃ seen : List DatedMarket,
      (∀ raw ∈ seen, raw ∈ listing.items ∧ stale previous boundary raw = false) ∧
      (walkIncremental gamma classify previous boundary left none pass).1 =
        seen.foldl (Pass.settle classify) pass := by
  obtain ⟨seen, hseen, hpass⟩ :=
    Paged.walkPages_skipping_some h.serves
      (skipping_readIncremental classify previous boundary) left pass
  refine ⟨seen, fun raw hraw => ?_, hpass⟩
  obtain ⟨hitem, hfresh⟩ := List.mem_filter.mp (hseen.subset hraw)
  exact ⟨hitem, by simpa using hfresh⟩

lemma pass_settles (h : Serving listing gamma) {left : ℕ} (hleft : listing.pages.length ≤ left)
    {pass : Pass}
    (hok : (walkIncremental gamma classify previous boundary left none pass).2 = .ok ()) :
    (walkIncremental gamma classify previous boundary left none pass).1 =
      (listing.items.filter fun raw => !stale previous boundary raw).foldl
        (Pass.settle classify) pass :=
  Paged.walkPages_skipping h.serves (skipping_readIncremental classify previous boundary)
    (listing.sorted.imp fun hle => stale_of_le hle) hleft hok

end Listing

/-! ## Rows that stay -/

structure DistinctRows (rows : List MarketEnrichment) : Prop where
  marketId : (rows.map MarketEnrichment.marketId).Nodup
  conditionId : (rows.map MarketEnrichment.conditionId).Nodup

def Unerased (rows : List MarketEnrichment) (catalog : Catalog) : Prop :=
  rows.Pairwise fun u v => catalog.marketToCondition.lookup v.marketId ≠ some u.conditionId

instance (rows : List MarketEnrichment) (catalog : Catalog) : Decidable (Unerased rows catalog) :=
  inferInstanceAs (Decidable (rows.Pairwise _))

structure Storing (rows : List MarketEnrichment) (start catalog : Catalog) : Prop where
  valid : catalog.Valid
  recorded : ∀ v ∈ rows, catalog.marketToCondition.lookup v.marketId = some v.conditionId ∨
    catalog.marketToCondition.lookup v.marketId = start.marketToCondition.lookup v.marketId

section Rows

variable {rows : List MarketEnrichment} {start catalog : Catalog} {row : MarketEnrichment}

lemma DistinctRows.eq_of_marketId (h : DistinctRows rows) {u v : MarketEnrichment} (hu : u ∈ rows)
    (hv : v ∈ rows) (heq : u.marketId = v.marketId) : u = v :=
  List.inj_on_of_nodup_map h.marketId hu hv heq

lemma DistinctRows.eq_of_conditionId (h : DistinctRows rows) {u v : MarketEnrichment}
    (hu : u ∈ rows) (hv : v ∈ rows) (heq : u.conditionId = v.conditionId) : u = v :=
  List.inj_on_of_nodup_map h.conditionId hu hv heq

lemma DistinctRows.sublist (h : DistinctRows rows) {some : List MarketEnrichment}
    (hsome : some.Sublist rows) : DistinctRows some :=
  ⟨h.marketId.sublist (hsome.map _), h.conditionId.sublist (hsome.map _)⟩

lemma Storing.upsert (hdistinct : DistinctRows rows) (h : Storing rows start catalog)
    (hrow : row ∈ rows) : Storing rows start (catalog.upsert row).1 := by
  refine ⟨h.valid.upsert row, fun v hv => ?_⟩
  rw [Catalog.marketToCondition_upsert h.valid]
  split_ifs with hm
  · rw [hdistinct.eq_of_marketId hv hrow hm]
    exact Or.inl rfl
  · exact h.recorded v hv

lemma Storing.foldl (hdistinct : DistinctRows rows) (h : Storing rows start catalog)
    {more : List MarketEnrichment} (hmore : ∀ row ∈ more, row ∈ rows) :
    Storing rows start (more.foldl (fun catalog row => (catalog.upsert row).1) catalog) := by
  induction more generalizing catalog with
  | nil => exact h
  | cons row more ih =>
    exact ih (h.upsert hdistinct (hmore row List.mem_cons_self)) fun r hr =>
      hmore r (List.mem_cons_of_mem _ hr)

lemma Storing.unerased (h : Storing rows start catalog) (hdistinct : DistinctRows rows)
    {more : List MarketEnrichment} (hmore : more.Sublist rows) (hstart : Unerased more start) :
    Unerased more catalog := by
  have hconditions : more.Pairwise fun u v => u.conditionId ≠ v.conditionId :=
    List.pairwise_map.mp (hdistinct.sublist hmore).conditionId
  refine (hstart.and hconditions).imp_of_mem fun {u v} _ hv hboth hlookup => ?_
  rcases h.recorded v (hmore.subset hv) with hown | hold
  · exact hboth.2 (Option.some.inj (hlookup.symm.trans hown))
  · exact hboth.1 (hold.symm.trans hlookup)

lemma marketToCondition_foldl (hvalid : catalog.Valid) {m : ℕ}
    (hm : ∀ row ∈ rows, m ≠ row.marketId) :
    (rows.foldl (fun catalog row => (catalog.upsert row).1) catalog).Valid ∧
      (rows.foldl (fun catalog row => (catalog.upsert row).1) catalog).marketToCondition.lookup m =
        catalog.marketToCondition.lookup m := by
  induction rows generalizing catalog with
  | nil => exact ⟨hvalid, rfl⟩
  | cons row rows ih =>
    obtain ⟨hnext, hlookup⟩ := ih (hvalid.upsert row) fun r hr => hm r (List.mem_cons_of_mem _ hr)
    rw [Catalog.marketToCondition_upsert hvalid, if_neg (hm row List.mem_cons_self)] at hlookup
    exact ⟨hnext, hlookup⟩

lemma lookup_upsert_iff (hvalid : catalog.Valid) {u : MarketEnrichment}
    (hc : u.conditionId ≠ row.conditionId) :
    (catalog.upsert row).1.byCondition.lookup u.conditionId = some u ↔
      catalog.byCondition.lookup u.conditionId = some u ∧
        catalog.marketToCondition.lookup row.marketId ≠ some u.conditionId := by
  by_cases hsame : catalog.byCondition.lookup row.conditionId = some row
  · rw [Catalog.upsert_of_same hsame, (hvalid.filed _ _ hsame).2]
    exact (and_iff_left fun heq => hc (Option.some.inj heq).symm).symm
  · rw [Catalog.lookup_upsert catalog row hsame, if_neg hc]
    split_ifs with hgiven
    · exact iff_of_false nofun fun h => h.2 hgiven
    · exact (and_iff_left hgiven).symm

lemma lookup_upsert_self : (catalog.upsert row).1.byCondition.lookup row.conditionId = some row := by
  by_cases hsame : catalog.byCondition.lookup row.conditionId = some row
  · rwa [Catalog.upsert_of_same hsame]
  · rw [Catalog.lookup_upsert catalog row hsame, if_pos rfl]

lemma foldl_upsert_iff (hvalid : catalog.Valid) (hdistinct : DistinctRows rows) :
    (∀ u ∈ rows, (rows.foldl (fun catalog row => (catalog.upsert row).1) catalog).byCondition.lookup
      u.conditionId = some u) ↔ Unerased rows catalog := by
  induction rows using List.reverseRecOn with
  | nil => exact iff_of_true nofun List.Pairwise.nil
  | append_singleton rows row ih =>
    have hmarkets := List.pairwise_append.mp (List.pairwise_map.mp hdistinct.marketId)
    have hconditions := List.pairwise_append.mp (List.pairwise_map.mp hdistinct.conditionId)
    obtain ⟨hnext, hrecorded⟩ := marketToCondition_foldl hvalid fun u hu =>
      (hmarkets.2.2 u hu row (List.mem_singleton_self row)).symm
    rw [Unerased, List.pairwise_append, ← Unerased,
      ← ih (hdistinct.sublist (List.sublist_append_left _ _)), List.foldl_append, List.foldl_cons,
      List.foldl_nil, List.forall_mem_append]
    simp only [List.mem_singleton, forall_eq, lookup_upsert_self, List.pairwise_singleton, true_and,
      and_true]
    rw [← forall₂_and]
    refine forall₂_congr fun u hu => ?_
    rw [lookup_upsert_iff hnext (hconditions.2.2 u hu row (List.mem_singleton_self row)), hrecorded]

end Rows

/-! ## What the passes come to -/

section Settled

variable {classify : Classify} {listing : UpdatedListing} {gamma : Gamma}
  {previous : Option EnrichmentCursor} {boundary : Option (List Char)}

lemma catalog_foldl_settle (pass : Pass) (markets : List DatedMarket) :
    (markets.foldl (Pass.settle classify) pass).catalog =
      (markets.filterMap (DatedMarket.row? classify)).foldl
        (fun catalog row => (catalog.upsert row).1) pass.catalog := by
  induction markets generalizing pass with
  | nil => rfl
  | cons raw markets ih =>
    rw [List.foldl_cons, ih]
    cases hrow : raw.row? classify with
    | none => rw [pass.settle_of_none hrow, List.filterMap_cons_none hrow]
    | some row =>
      rw [pass.settle_of_some hrow, List.filterMap_cons_some hrow]
      rfl

lemma newest_foldl_settle (pass : Pass) (markets : List DatedMarket) :
    (markets.foldl (Pass.settle classify) pass).newest =
      (markets.filterMap (DatedMarket.cursor? classify)).foldl EnrichmentCursor.reach
        pass.newest := by
  induction markets generalizing pass with
  | nil => rfl
  | cons raw markets ih =>
    rw [List.foldl_cons, ih]
    cases hrow : raw.row? classify with
    | none =>
      rw [pass.settle_of_none hrow, List.filterMap_cons_none]
      rw [DatedMarket.cursor?, hrow, Option.map_none]
    | some row =>
      have hcursor : raw.cursor? classify = some ⟨raw.updatedAt, row.marketId⟩ := by
        rw [DatedMarket.cursor?, hrow, Option.map_some]
      rw [pass.settle_of_some hrow, List.filterMap_cons_some hcursor, List.foldl_cons]

lemma Pass.settle_of_done {pass : Pass} {raw : DatedMarket}
    (hrow : ∀ row, raw.row? classify = some row →
      pass.catalog.byCondition.lookup row.conditionId = some row)
    (hcursor : ∀ c, raw.cursor? classify = some c →
      ∃ newest, pass.newest = some newest ∧ c ≤ newest) :
    pass.settle classify raw = pass := by
  cases h : raw.row? classify with
  | none => exact pass.settle_of_none h
  | some row =>
    obtain ⟨newest, hnewest, hle⟩ := hcursor ⟨raw.updatedAt, row.marketId⟩ (by
      rw [DatedMarket.cursor?, h, Option.map_some])
    obtain ⟨⟨catalog, changed⟩, reached⟩ := pass
    obtain rfl : reached = some newest := hnewest
    have hupsert : Tick.upsert ⟨catalog, changed⟩ row = ⟨catalog, changed⟩ := by
      unfold Tick.upsert Catalog.upsert
      simp_all
    rw [Pass.settle_of_some _ h, hupsert, EnrichmentCursor.reach,
      EnrichmentCursor.advance_eq_max, max_eq_left hle]

end Settled

structure PassCall where
  gamma : Gamma
  previous : Option EnrichmentCursor
  boundary : Option (List Char)
  maxPages : ℕ

def PassCall.result (classify : Classify) (catalog : Catalog) (call : PassCall) :
    Catalog × Except EnrichmentError (ℕ × Option EnrichmentCursor) :=
  syncIncremental call.gamma classify catalog call.previous call.boundary call.maxPages

def afterPasses (classify : Classify) (catalog : Catalog) (calls : List PassCall) : Catalog :=
  calls.foldl (fun catalog call => (call.result classify catalog).1) catalog

def reached (classify : Classify) (listing : UpdatedListing) (previous : Option EnrichmentCursor)
    (boundary : Option (List Char)) : Set EnrichmentCursor :=
  {c | previous = some c ∨ ∃ raw ∈ listing.items, stale previous boundary raw = false ∧
    ∃ row, compactMarket classify raw.toGammaMarket = .ok row ∧ c = ⟨raw.updatedAt, row.marketId⟩}

def freshRows (classify : Classify) (listing : UpdatedListing) (call : PassCall) :
    List MarketEnrichment :=
  (listing.items.filter fun raw => !stale call.previous call.boundary raw).filterMap
    (DatedMarket.row? classify)

structure Complete (classify : Classify) (listing : UpdatedListing) (call : PassCall)
    (catalog : Catalog) (newest : Option EnrichmentCursor) : Prop where
  stored : ∀ raw ∈ listing.items, stale call.previous call.boundary raw = false →
    ∀ row, compactMarket classify raw.toGammaMarket = .ok row →
      catalog.get row.conditionId = some row ∧ catalog.getByMarketId row.marketId = some row
  greatest : ∀ c, newest = some c ↔
    IsGreatest (reached classify listing call.previous call.boundary) c
  forward : ∀ c, call.previous = some c → ∃ c', newest = some c' ∧ c ≤ c'
  again : ∀ again : PassCall, Serving listing again.gamma → again.previous = newest →
    again.boundary = call.boundary → (again.result classify catalog).1 = catalog ∧
      ∀ result, (again.result classify catalog).2 = .ok result → result = (0, newest)

section Passes

variable {classify : Classify} {listing : UpdatedListing} {call : PassCall}
  {catalog catalog' : Catalog}

def PassCall.walked (classify : Classify) (catalog : Catalog) (call : PassCall) :
    Pass × Except EnrichmentError Unit :=
  walkIncremental call.gamma classify call.previous call.boundary (max call.maxPages 1) none
    ⟨⟨catalog, 0⟩, call.previous⟩

lemma PassCall.result_eq_ok {result : ℕ × Option EnrichmentCursor}
    (h : call.result classify catalog = (catalog', .ok result)) :
    (call.walked classify catalog).2 = .ok () ∧
      (call.walked classify catalog).1 = ⟨⟨catalog', result.1⟩, result.2⟩ := by
  change ((call.walked classify catalog).1.catalog, (call.walked classify catalog).2.map fun _ =>
    ((call.walked classify catalog).1.changed, (call.walked classify catalog).1.newest)) = _ at h
  generalize call.walked classify catalog = walked at h ⊢
  obtain ⟨pass, outcome⟩ := walked
  cases outcome with
  | error e => cases h
  | ok u =>
    cases h
    exact ⟨rfl, rfl⟩

lemma row_mem_rows {raw : DatedMarket} {row : MarketEnrichment} (hraw : raw ∈ listing.items)
    (hrow : raw.row? classify = some row) : row ∈ listing.rows classify :=
  List.mem_filterMap.mpr ⟨raw, hraw, hrow⟩

lemma Storing.pass {start : Catalog} (hdistinct : DistinctRows (listing.rows classify))
    (hserving : Serving listing call.gamma) (h : Storing (listing.rows classify) start catalog) :
    Storing (listing.rows classify) start (call.result classify catalog).1 := by
  obtain ⟨seen, hseen, hpass⟩ := pass_settles_some classify call.previous call.boundary hserving
    (max call.maxPages 1) ⟨⟨catalog, 0⟩, call.previous⟩
  have hcatalog : (call.result classify catalog).1 = _ :=
    (congrArg (·.catalog) hpass).trans (catalog_foldl_settle _ seen)
  have hrows : ∀ row ∈ seen.filterMap (DatedMarket.row? classify), row ∈ listing.rows classify := by
    intro row hrow
    obtain ⟨raw, hraw, hrow⟩ := List.mem_filterMap.mp hrow
    exact row_mem_rows (hseen raw hraw).1 hrow
  rw [hcatalog]
  exact h.foldl hdistinct hrows

lemma Storing.afterPasses {start : Catalog} (hdistinct : DistinctRows (listing.rows classify))
    {calls : List PassCall} (hserving : ∀ call ∈ calls, Serving listing call.gamma)
    (h : Storing (listing.rows classify) start catalog) :
    Storing (listing.rows classify) start (afterPasses classify catalog calls) := by
  induction calls generalizing catalog with
  | nil => exact h
  | cons call calls ih =>
    exact ih (fun c hc => hserving c (List.mem_cons_of_mem _ hc))
      (h.pass hdistinct (hserving call List.mem_cons_self))

lemma reached_eq (previous : Option EnrichmentCursor) (boundary : Option (List Char)) :
    reached classify listing previous boundary =
      {c | previous = some c ∨ c ∈ (listing.items.filter fun raw =>
        !stale previous boundary raw).filterMap (DatedMarket.cursor? classify)} := by
  ext c
  refine or_congr_right ?_
  rw [List.mem_filterMap]
  constructor
  · rintro ⟨raw, hraw, hfresh, row, hrow, rfl⟩
    refine ⟨raw, List.mem_filter.mpr ⟨hraw, by simp [hfresh]⟩, ?_⟩
    rw [DatedMarket.cursor?, row?_eq_some_iff.mpr hrow, Option.map_some]
  · rintro ⟨raw, hraw, hcursor⟩
    obtain ⟨hitem, hfresh⟩ := List.mem_filter.mp hraw
    obtain ⟨row, hrow, rfl⟩ := Option.map_eq_some_iff.mp hcursor
    exact ⟨raw, hitem, by simpa using hfresh, row, row?_eq_some_iff.mp hrow, rfl⟩

lemma stale_of_previous_le {previous newest : Option EnrichmentCursor}
    (h : ∀ c, previous = some c → ∃ c', newest = some c' ∧ c ≤ c') {boundary : Option (List Char)}
    {raw : DatedMarket} (hfresh : stale newest boundary raw = false) :
    stale previous boundary raw = false := by
  unfold stale at hfresh ⊢
  rw [Bool.or_eq_false_iff] at hfresh ⊢
  refine ⟨?_, hfresh.2⟩
  rw [Option.any_eq_false] at hfresh ⊢
  intro c hc
  obtain ⟨c', hc', hle⟩ := h c hc
  have hnot := of_decide_eq_false (hfresh.1 c' hc')
  exact decide_eq_false fun hlt => hnot (hlt.trans_le (EnrichmentCursor.updatedAt_le hle))

lemma foldl_settle_of_done {pass : Pass} {markets : List DatedMarket}
    (h : ∀ raw ∈ markets, pass.settle classify raw = pass) :
    markets.foldl (Pass.settle classify) pass = pass := by
  induction markets with
  | nil => rfl
  | cons raw markets ih =>
    simp_all

lemma PassCall.result_of_done (hserving : Serving listing call.gamma)
    (h : ∀ raw ∈ listing.items, stale call.previous call.boundary raw = false →
      Pass.settle classify ⟨⟨catalog, 0⟩, call.previous⟩ raw = ⟨⟨catalog, 0⟩, call.previous⟩) :
    (call.result classify catalog).1 = catalog ∧
      ∀ result, (call.result classify catalog).2 = .ok result → result = (0, call.previous) := by
  obtain ⟨seen, hseen, hpass⟩ := pass_settles_some classify call.previous call.boundary hserving
    (max call.maxPages 1) ⟨⟨catalog, 0⟩, call.previous⟩
  rw [foldl_settle_of_done fun raw hraw => h raw (hseen raw hraw).1 (hseen raw hraw).2] at hpass
  have hcatalog : (call.result classify catalog).1 = catalog := congrArg (·.catalog) hpass
  refine ⟨hcatalog, fun result hresult => ?_⟩
  obtain ⟨changed, newest⟩ := result
  have hwalked := (PassCall.result_eq_ok (Prod.ext hcatalog hresult)).2
  rw [PassCall.walked, hpass] at hwalked
  cases hwalked
  rfl

end Passes

theorem incremental_pass_complete (classify : Classify) (listing : UpdatedListing)
    (hdistinct : DistinctRows (listing.rows classify)) (history : List MarketEnrichment)
    (earlier : List PassCall) (hearlier : ∀ call ∈ earlier, Serving listing call.gamma)
    (call : PassCall) (hcall : Serving listing call.gamma)
    (hpages : listing.pages.length ≤ call.maxPages) (catalog : Catalog) (changed : ℕ)
    (newest : Option EnrichmentCursor)
    (hok : call.result classify (afterPasses classify (Catalog.new history) earlier) =
      (catalog, .ok (changed, newest))) :
    (Complete classify listing call catalog newest ↔ Unerased (freshRows classify listing call)
      (afterPasses classify (Catalog.new history) earlier)) ∧
    (Unerased (freshRows classify listing call) (Catalog.new history) →
      Unerased (freshRows classify listing call)
        (afterPasses classify (Catalog.new history) earlier)) := by
  have hstart : Storing (listing.rows classify) (Catalog.new history)
      (afterPasses classify (Catalog.new history) earlier) :=
    Storing.afterPasses hdistinct hearlier ⟨Catalog.valid_new history, fun _ _ => Or.inr rfl⟩
  have hsub : (freshRows classify listing call).Sublist (listing.rows classify) :=
    List.filter_sublist.filterMap _
  refine ⟨?_, hstart.unerased hdistinct hsub⟩
  obtain ⟨hended, hpass⟩ := PassCall.result_eq_ok hok
  have hsettled := pass_settles hcall (hpages.trans (le_max_left _ _)) hended
  rw [← PassCall.walked, hpass] at hsettled
  have hcatalog := (congrArg (·.catalog) hsettled).trans (catalog_foldl_settle _ _)
  have hnewest := (congrArg (·.newest) hsettled).trans (newest_foldl_settle _ _)
  dsimp only at hcatalog hnewest
  have hvalid : catalog.Valid :=
    hcatalog ▸ (hstart.foldl hdistinct fun row hrow => hsub.subset hrow).valid
  have hmem : ∀ {raw row}, raw ∈ listing.items → stale call.previous call.boundary raw = false →
      raw.row? classify = some row → row ∈ freshRows classify listing call := by
    unfold freshRows
    grind
  rw [← foldl_upsert_iff hstart.valid (hdistinct.sublist hsub), freshRows, ← hcatalog, ← freshRows]
  constructor
  · intro h row hrow
    obtain ⟨raw, hraw, hrow⟩ := List.mem_filterMap.mp hrow
    obtain ⟨hitem, hfresh⟩ := List.mem_filter.mp hraw
    exact (h.stored raw hitem (by simpa using hfresh) row (row?_eq_some_iff.mp hrow)).1
  intro hstored
  have hprevious : ∀ c, call.previous = some c → ∃ c', newest = some c' ∧ c ≤ c' := by
    intro c hc
    rw [hnewest]
    exact EnrichmentCursor.exists_foldl_reach (Or.inl hc)
  refine ⟨fun raw hraw hfresh row hrow => ?_, fun c => ?_, hprevious, ?_⟩
  · have hfiled := hstored row (hmem hraw hfresh (row?_eq_some_iff.mpr hrow))
    refine ⟨hfiled, ?_⟩
    unfold Catalog.getByMarketId
    rw [(hvalid.filed _ _ hfiled).2]
    exact hfiled
  · rw [hnewest, EnrichmentCursor.foldl_reach, reached_eq]
  · rintro ⟨gamma, previous, boundary, maxPages⟩ hagain rfl rfl
    refine PassCall.result_of_done hagain fun raw hraw hfresh => ?_
    have hfresh' := stale_of_previous_le hprevious hfresh
    refine Pass.settle_of_done (fun row hrow => hstored row (hmem hraw hfresh' hrow)) fun c hc => ?_
    rw [hnewest]
    refine EnrichmentCursor.exists_foldl_reach (Or.inr (List.mem_filterMap.mpr ⟨raw, ?_, hc⟩))
    simp_all

def testDated (id conditionId updatedAt : Char) : DatedMarket :=
  { testGamma [id] (List.replicate 64 conditionId) with updatedAt := [updatedAt] }

def testUpdated : UpdatedListing where
  pages := [⟨[testDated '3' '3' '3', testDated '2' '2' '2'], "c"⟩,
    ⟨[testDated '1' '1' '2', testDated '0' '0' '1'], "LTE="⟩]
  nonempty := by simp
  onward := by simp [terminal]
  distinct := by simp
  sorted := by decide +kernel

def testServer (listing : UpdatedListing) (reachable : Bool) : Gamma := fun cursor _ =>
  if reachable ∨ cursor = none then .ok (listing.page cursor) else .error (.status 503)

lemma serving_testServer (listing : UpdatedListing) (reachable : Bool) :
    Serving listing (testServer listing reachable) := by
  intro cursor _ attempt page hpage
  unfold testServer at hpage
  grind

/-- A pass that fails on the second page, and one from market 2 on that does not. -/
theorem incremental_pass_complete_after_failure :
    let earlier : List PassCall := [⟨testServer testUpdated false, none, none, 9⟩]
    let call : PassCall := ⟨testServer testUpdated true, some ⟨['2'], 2⟩, some ['0'], 9⟩
    let before := afterPasses testClassify (Catalog.new [testRow 3 7]) earlier
    ∃ catalog, call.result testClassify before = (catalog, .ok (1, some ⟨['3'], 3⟩)) ∧
      (∀ raw ∈ testUpdated.items, stale call.previous call.boundary raw = false →
        ∀ row, compactMarket testClassify raw.toGammaMarket = .ok row →
          catalog.get row.conditionId = some row) ∧
      (PassCall.result testClassify catalog
        { call with previous := some ⟨['3'], 3⟩ }).1 = catalog := by
  intro earlier call before
  have hresult : (call.result testClassify before).2 = .ok (1, some ⟨['3'], 3⟩) := by
    decide +kernel
  obtain ⟨hiff, hkept⟩ := incremental_pass_complete testClassify testUpdated
    ⟨by decide +kernel, by decide +kernel⟩ [testRow 3 7] earlier
    (fun call hcall => List.mem_singleton.mp hcall ▸ serving_testServer testUpdated false) call
    (serving_testServer testUpdated true) (by decide) _ _ _ (Prod.ext rfl hresult)
  obtain ⟨hstored, -, -, hagain⟩ := hiff.mpr (hkept (by decide +kernel))
  refine ⟨_, Prod.ext rfl hresult, fun raw hraw hfresh row hrow => ?_, ?_⟩
  · grind
  rfl

def testCrossed : UpdatedListing where
  pages := [⟨[testDated '9' '1' '2', testDated '7' '2' '1'], ""⟩]
  nonempty := by simp
  onward := by simp
  distinct := by simp
  sorted := by decide +kernel

theorem stored_market_erased :
    let call : PassCall := ⟨testServer testCrossed true, none, none, 9⟩
    let result := call.result testClassify (Catalog.new [testRow 7 0x11])
    DistinctRows (testCrossed.rows testClassify) ∧ Serving testCrossed call.gamma ∧
      testCrossed.pages.length ≤ call.maxPages ∧ result.2 = .ok (2, some ⟨['2'], 9⟩) ∧
      (∃ raw ∈ testCrossed.items, ∃ row, compactMarket testClassify raw.toGammaMarket = .ok row ∧
        row.marketId = 9 ∧ result.1.get row.conditionId = none ∧
        result.1.getByMarketId row.marketId = none) ∧
      (PassCall.result testClassify result.1
        { call with previous := some ⟨['2'], 9⟩ }).1 ≠ result.1 := by
  intro call result
  refine ⟨⟨by decide +kernel, by decide +kernel⟩, serving_testServer testCrossed true, by decide,
    by decide +kernel, ⟨testDated '9' '1' '2', List.mem_cons_self,
      ⟨9, Bytes.fill 32 0x11, [], [], .other, .unspecified, false⟩, by decide +kernel⟩, ?_⟩
  -- the second pass finds no row of market 9, and leaves one
  have hlost : result.1.getByMarketId 9 = none := by decide +kernel
  have hstored : (PassCall.result testClassify result.1
      { call with previous := some ⟨['2'], 9⟩ }).1.getByMarketId 9 ≠ none := by decide +kernel
  grind

end RustUma.Enrichment
