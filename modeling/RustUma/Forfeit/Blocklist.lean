import RustUma.Found.Table
import RustUma.Model.Event
import Mathlib.Data.List.Sort

/-!
# The forfeit blocklist (`src/forfeit.rs` `ForfeitBlocklist`)

The list holds the matches that were decided by a forfeit, each with the markets that are kept from
being broadcast; beside it an index from condition ids to matches is what the hot path reads. List
and index have locks of their own, so `apply` and `prune` are two critical sections each.

Condition ids are the 32 bytes themselves: the list keeps them as hex text that `build_index` reads
back. The state of the feed's connection is not part of the model.
-/

namespace RustUma.Forfeit

open RustUma.Found RustUma.Model

/-! ## Messages and rows -/

structure PmMarket where
  conditionId : List UInt8
  question : String
  sportsMarketType : String
  gameNumber : ℕ
  isForfeitedMarket : Bool
  deriving DecidableEq

structure ForfeitEvent where
  sequence : ℕ
  detectAtUs : ℕ
  game : String
  league : String
  matchName : String
  pandascoreMatchId : ℕ
  forfeitedGameNumber : ℕ
  teamA : String
  teamB : String
  winner : String
  lookupStatus : ℤ
  pmEventSlug : String
  conditionIds : List (List UInt8)
  markets : List PmMarket
  deriving DecidableEq

inductive LookupStatus where
  | unspecified
  | matched
  | notFound
  | failed
  deriving DecidableEq

def ForfeitEvent.status (event : ForfeitEvent) : LookupStatus :=
  if event.lookupStatus = 1 then .matched
  else if event.lookupStatus = 2 then .notFound
  else if event.lookupStatus = 3 then .failed
  else .unspecified

structure BlockedMarket where
  conditionId : Bytes 32
  sportsMarketType : String
  gameNumber : ℕ
  question : String
  isForfeitedMarket : Bool
  deriving DecidableEq

structure BlockedMatch where
  pandascoreMatchId : ℕ
  game : String
  league : String
  matchName : String
  teamA : String
  teamB : String
  winner : String
  forfeitedGames : List ℕ
  pmEventSlug : String
  lookupStatus : LookupStatus
  markets : List BlockedMarket
  detectAtUs : ℕ
  addedAtUs : ℕ
  updatedAtUs : ℕ
  feedSequences : List ℕ
  blockedEvents : ℕ
  deriving DecidableEq

def BlockedMatch.ids (m : BlockedMatch) : List (Bytes 32) := m.markets.map BlockedMarket.conditionId

structure BlockedEvent where
  sequence : ℕ
  kind : EventKind
  transactionHash : Bytes 32
  conditionId : Bytes 32
  marketId : ℕ
  pandascoreMatchId : ℕ
  matchName : String
  blockedAtUs : ℕ
  deriving DecidableEq

structure Entry where
  matchId : ℕ
  addedAtUs : ℕ
  deriving DecidableEq

abbrev Index := Bytes 32 → Option Entry

def Index.orInsert (index : Index) (id : Bytes 32) (entry : Entry) : Index :=
  if (index id).isSome then index else Function.update index id (some entry)

structure Blocklist where
  enabled : Bool
  ttlUs : ℕ
  index : Index
  blockedMatches : Table ℕ BlockedMatch
  recentBlocked : List BlockedEvent
  lastFeedSequence : ℕ
  blockedEventsTotal : ℕ

/-! ## Merging a push -/

def ForfeitEvent.newMatch (event : ForfeitEvent) (now : ℕ) : BlockedMatch where
  pandascoreMatchId := event.pandascoreMatchId
  game := event.game
  league := event.league
  matchName := event.matchName
  teamA := event.teamA
  teamB := event.teamB
  winner := event.winner
  forfeitedGames := []
  pmEventSlug := ""
  lookupStatus := event.status
  markets := []
  detectAtUs := event.detectAtUs
  addedAtUs := now
  updatedAtUs := now
  feedSequences := []
  blockedEvents := 0

abbrev Listing := List BlockedMarket × List (Bytes 32)

def listMarket (known : List (Bytes 32)) (listing : Listing) (market : PmMarket) : Listing :=
  match fixed 32 market.conditionId with
  | none => listing
  | some id =>
    if id ∈ known then listing
    else
      (listing.1 ++ [{
        conditionId := id
        sportsMarketType := market.sportsMarketType
        gameNumber := market.gameNumber
        question := market.question
        isForfeitedMarket := market.isForfeitedMarket }], listing.2 ++ [id])

def listConditionId (known : List (Bytes 32)) (listing : Listing) (raw : List UInt8) : Listing :=
  match fixed 32 raw with
  | none => listing
  | some id =>
    if id ∈ known ∨ id ∈ listing.2 then listing
    else
      (listing.1 ++ [{
        conditionId := id
        sportsMarketType := ""
        gameNumber := 0
        question := ""
        isForfeitedMarket := false }], listing.2 ++ [id])

def BlockedMatch.listing (m : BlockedMatch) (event : ForfeitEvent) : Listing :=
  event.conditionIds.foldl (listConditionId m.ids)
    (event.markets.foldl (listMarket m.ids) (m.markets, []))

def BlockedMarket.le (a b : BlockedMarket) : Prop :=
  a.gameNumber < b.gameNumber ∨
    a.gameNumber = b.gameNumber ∧ a.sportsMarketType ≤ b.sportsMarketType

instance : DecidableRel BlockedMarket.le := fun _ _ => inferInstanceAs (Decidable (_ ∨ _ ∧ _))

def addSorted (l : List ℕ) (n : ℕ) : List ℕ :=
  if n ∈ l then l else (l ++ [n]).insertionSort (· ≤ ·)

structure Merged where
  blocked : BlockedMatch
  newIds : List (Bytes 32)
  changed : Bool
  deriving DecidableEq

def BlockedMatch.merge (m : BlockedMatch) (event : ForfeitEvent) (now : ℕ) (isNew : Bool) :
    Merged :=
  let upgrade := m.lookupStatus ≠ .matched ∧ m.lookupStatus ≠ event.status
  let renamed := event.pmEventSlug ≠ "" ∧ m.pmEventSlug ≠ event.pmEventSlug
  let listing := m.listing event
  let changed := isNew ∨ event.forfeitedGameNumber ∉ m.forfeitedGames ∨
    event.sequence ∉ m.feedSequences ∨ upgrade ∨ renamed ∨ listing.2 ≠ []
  { blocked := { m with
      forfeitedGames := addSorted m.forfeitedGames event.forfeitedGameNumber
      feedSequences := addSorted m.feedSequences event.sequence
      lookupStatus := if upgrade then event.status else m.lookupStatus
      pmEventSlug := if renamed then event.pmEventSlug else m.pmEventSlug
      markets := if listing.2 = [] then listing.1 else listing.1.insertionSort BlockedMarket.le
      updatedAtUs := if changed then now else m.updatedAtUs }
    newIds := listing.2
    changed := decide changed }

/-! ## The operations -/

def buildIndex (blockedMatches : Table ℕ BlockedMatch) : Index :=
  blockedMatches.values.foldl (fun index m =>
    m.ids.foldl (fun index id => index.orInsert id ⟨m.pandascoreMatchId, m.addedAtUs⟩) index)
    fun _ => none

structure Snapshot where
  version : ℕ
  lastFeedSequence : ℕ
  blockedEventsTotal : ℕ
  blockedMatches : List BlockedMatch
  recentBlocked : List BlockedEvent
  deriving DecidableEq

def snapshotVersion : ℕ := 1

def recentBlockedMax : ℕ := 200

def Snapshot.table (snapshot : Snapshot) : Table ℕ BlockedMatch :=
  Table.ofList (snapshot.blockedMatches.map fun m => (m.pandascoreMatchId, m))

def Expired (ttlUs now : ℕ) (m : BlockedMatch) : Prop :=
  0 < ttlUs ∧ min (m.addedAtUs + ttlUs) (2 ^ 64 - 1) ≤ now

instance (ttlUs now : ℕ) (m : BlockedMatch) : Decidable (Expired ttlUs now m) :=
  inferInstanceAs (Decidable (_ ∧ _))

namespace Blocklist

def empty (enabled : Bool) (ttlUs : ℕ) : Blocklist where
  enabled := enabled
  ttlUs := ttlUs
  index := fun _ => none
  blockedMatches := Table.empty
  recentBlocked := []
  lastFeedSequence := 0
  blockedEventsTotal := 0

def lookup (list : Blocklist) (conditionId : Bytes 32) : Option ℕ :=
  if list.enabled then (list.index conditionId).map Entry.matchId else none

def blockedBefore (list : Blocklist) (conditionId : Bytes 32) (atUs : ℕ) : Bool :=
  (list.index conditionId).any fun entry => entry.addedAtUs ≤ atUs

def recordBlocked (list : Blocklist) (record : EventRecord) (matchId now : ℕ) : Blocklist :=
  let found := list.blockedMatches.get? matchId
  { list with
    blockedEventsTotal := list.blockedEventsTotal + 1
    blockedMatches := match found with
      | some m =>
        list.blockedMatches.put matchId { m with blockedEvents := m.blockedEvents + 1 }
      | none => list.blockedMatches
    recentBlocked := (⟨record.sequence, record.event.kind, record.event.chain.transactionHash,
      record.resolvedConditionId, (record.enrichment.map MarketEnrichment.marketId).getD 0,
      matchId,
      match found with
        | some m => m.teamA ++ " vs " ++ m.teamB
        | none => "",
      now⟩ :: list.recentBlocked).take recentBlockedMax }

def merged (list : Blocklist) (event : ForfeitEvent) (now : ℕ) : Merged :=
  match list.blockedMatches.get? event.pandascoreMatchId with
  | some m => m.merge event now false
  | none => (event.newMatch now).merge event now true

def applyState (list : Blocklist) (event : ForfeitEvent) (now : ℕ) : Blocklist :=
  { list with
    lastFeedSequence := max list.lastFeedSequence event.sequence
    blockedMatches :=
      list.blockedMatches.put event.pandascoreMatchId (list.merged event now).blocked }

def insertIds (list : Blocklist) (ids : List (Bytes 32)) (entry : Entry) : Blocklist :=
  { list with index := ids.foldl (fun index id => index.orInsert id entry) list.index }

def pruneState (list : Blocklist) (now : ℕ) : Blocklist :=
  { list with
    blockedMatches := list.blockedMatches.filter fun m => decide (¬ Expired list.ttlUs now m) }

def pruneCount (list : Blocklist) (now : ℕ) : ℕ :=
  list.blockedMatches.values.length - (list.pruneState now).blockedMatches.values.length

def setIndex (list : Blocklist) (index : Index) : Blocklist := { list with index := index }

def prune (list : Blocklist) (now : ℕ) : Blocklist :=
  if 0 < list.pruneCount now then
    (list.pruneState now).setIndex (buildIndex (list.pruneState now).blockedMatches)
  else list.pruneState now

def snapshot (list : Blocklist) : Snapshot where
  version := snapshotVersion
  lastFeedSequence := list.lastFeedSequence
  blockedEventsTotal := list.blockedEventsTotal
  blockedMatches := list.blockedMatches.values
  recentBlocked := list.recentBlocked

def load (list : Blocklist) (file : Option Snapshot) (now : ℕ) : Blocklist :=
  match file with
  | none => list
  | some snapshot =>
    if snapshot.version = snapshotVersion then
      { list with
        lastFeedSequence := snapshot.lastFeedSequence
        blockedEventsTotal := snapshot.blockedEventsTotal
        recentBlocked := snapshot.recentBlocked
        blockedMatches := snapshot.table
        index := buildIndex snapshot.table : Blocklist }.prune now
    else list

def fromConfig (configured : Bool) (ttlUs : ℕ) (file : Option Snapshot) (now : ℕ) : Blocklist :=
  if configured then (empty true ttlUs).load file now else empty false 0

end Blocklist

/-! ## What the index holds -/

lemma Index.isSome_orInsert (index : Index) (id : Bytes 32) (entry : Entry) (c : Bytes 32) :
    (index.orInsert id entry c).isSome ↔ (index c).isSome ∨ c = id := by
  unfold Index.orInsert
  grind

lemma Index.orInsert_eq_some {index : Index} {id : Bytes 32} {entry e : Entry} {c : Bytes 32}
    (h : index.orInsert id entry c = some e) : index c = some e ∨ c = id ∧ e = entry := by
  unfold Index.orInsert at h
  grind

lemma isSome_foldl_orInsert (ids : List (Bytes 32)) (entry : Entry) (index : Index) (c : Bytes 32) :
    (ids.foldl (fun index id => index.orInsert id entry) index c).isSome ↔
      (index c).isSome ∨ c ∈ ids := by
  induction ids generalizing index with
  | nil => simp
  | cons id ids ih =>
    rw [List.foldl_cons, ih, Index.isSome_orInsert, List.mem_cons, or_assoc]

lemma foldl_orInsert_eq_some {ids : List (Bytes 32)} {entry e : Entry} {index : Index}
    {c : Bytes 32} (h : ids.foldl (fun index id => index.orInsert id entry) index c = some e) :
    index c = some e ∨ c ∈ ids ∧ e = entry := by
  induction ids generalizing index with
  | nil => exact Or.inl h
  | cons id ids ih =>
    rcases ih h with h | ⟨hmem, he⟩
    · rcases Index.orInsert_eq_some h with h | ⟨rfl, he⟩
      · exact Or.inl h
      simp_all
    simp_all

theorem isSome_buildIndex (t : Table ℕ BlockedMatch) (c : Bytes 32) :
    (buildIndex t c).isSome ↔ ∃ m ∈ t.values, c ∈ m.ids := by
  unfold buildIndex
  induction t.values using List.reverseRecOn with
  | nil => simp
  | append_singleton listed m ih =>
    rw [List.foldl_append, List.foldl_cons, List.foldl_nil, isSome_foldl_orInsert, ih]
    simp

theorem buildIndex_eq_some {t : Table ℕ BlockedMatch} {c : Bytes 32} {e : Entry}
    (h : buildIndex t c = some e) :
    ∃ m ∈ t.values, c ∈ m.ids ∧ e = ⟨m.pandascoreMatchId, m.addedAtUs⟩ := by
  unfold buildIndex at h
  generalize t.values = listed at h ⊢
  induction listed using List.reverseRecOn with
  | nil => cases h
  | append_singleton listed m ih =>
    rw [List.foldl_append] at h
    rcases foldl_orInsert_eq_some h with h | ⟨hc, rfl⟩
    · simp_all
    simp_all

/-! ## What a push adds -/

lemma listing_ids (m : BlockedMatch) (event : ForfeitEvent) :
    (m.listing event).1.map BlockedMarket.conditionId = m.ids ++ (m.listing event).2 := by
  have hmarket : ∀ (listing : Listing) (market : PmMarket),
      listing.1.map BlockedMarket.conditionId = m.ids ++ listing.2 →
      (listMarket m.ids listing market).1.map BlockedMarket.conditionId =
        m.ids ++ (listMarket m.ids listing market).2 := by
    intro listing market h
    unfold listMarket
    grind
  have hid : ∀ (listing : Listing) (raw : List UInt8),
      listing.1.map BlockedMarket.conditionId = m.ids ++ listing.2 →
      (listConditionId m.ids listing raw).1.map BlockedMarket.conditionId =
        m.ids ++ (listConditionId m.ids listing raw).2 := by
    intro listing raw h
    unfold listConditionId
    grind
  refine List.foldlRecOn _ _ ?_ (fun listing h raw _ => hid listing raw h)
  refine List.foldlRecOn _ _ ?_ (fun listing h market _ => hmarket listing market h)
  exact (List.append_nil _).symm

lemma mem_ids_merge (m : BlockedMatch) (event : ForfeitEvent) (now : ℕ) (isNew : Bool)
    (c : Bytes 32) :
    c ∈ (m.merge event now isNew).blocked.ids ↔
      c ∈ m.ids ∨ c ∈ (m.merge event now isNew).newIds := by
  have hids := listing_ids m event
  have hmem : c ∈ (m.listing event).1.map BlockedMarket.conditionId ↔
      c ∈ m.ids ∨ c ∈ (m.listing event).2 := by
    grind
  refine Iff.trans ?_ hmem
  show c ∈ List.map BlockedMarket.conditionId (if _ then _ else _) ↔ _
  split_ifs
  · exact Iff.rfl
  simp

end RustUma.Forfeit
