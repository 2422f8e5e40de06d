import RustUma.Enrichment.Catalog
import RustUma.Found.Files
import RustUma.Found.Run
import RustUma.Storage.CatalogFile

/-!
# Catalog before cursor (`src/enrichment.rs` `persist_catalog`, `run_catalog_sync`,
`run_catalog_reconcile`)

The pass at boot, the incremental sync and the full reconciliation upsert what they list. Each then
takes a snapshot of the catalog and, on another thread, writes it to one shared temporary file,
renames that over `catalog.bin` and writes the cursors it was given. Nothing keeps two of them
apart.
-/

namespace RustUma.Enrichment

open RustUma.Found RustUma.Model RustUma.Storage

/-! ## The machine -/

inductive DiskName
  | catalog
  | temporary
  deriving DecidableEq

inductive CatalogTask
  | boot
  | sync
  | reconcile
  deriving DecidableEq

structure CursorPair where
  active : Option String
  closed : Option String
  deriving DecidableEq

structure Listing where
  market : MarketEnrichment
  version : ℕ
  deriving DecidableEq

inductive Phase
  | idle
  | walking (loaded : CursorPair) (seen : List Listing) (changed : ℕ)
  | taken (next : CursorPair) (seen : List Listing) (rows : List MarketEnrichment)
  | writing (next : CursorPair) (seen : List Listing) (rows : List MarketEnrichment)
      (inode offset : ℕ) (rest : List UInt8)
  | cursors (next : CursorPair) (seen : List Listing)
  deriving DecidableEq

def Phase.seen : Phase → List Listing
  | .idle => []
  | .walking _ seen _ | .taken _ seen _ | .writing _ seen _ _ _ _ | .cursors _ seen => seen

def Phase.Persisting : Phase → Prop
  | .idle | .walking .. => False
  | .taken .. | .writing .. | .cursors .. => True

instance : DecidablePred Phase.Persisting := fun p => by
  cases p <;> unfold Phase.Persisting <;> infer_instance

structure Persistence where
  files : Files DiskName
  cursors : CursorPair
  catalog : Catalog
  phase : CatalogTask → Phase
  history : List Listing
  settled : List Listing

inductive PersistAction
  | upsert (listing : Listing)
  | begin (t : CatalogTask)
  | list (t : CatalogTask) (listing : Listing)
  | abandon (t : CatalogTask)
  | snapshot (t : CatalogTask) (next : CursorPair)
  | create (t : CatalogTask)
  | write (t : CatalogTask) (n : ℕ)
  | rename (t : CatalogTask)
  | cursor (t : CatalogTask)
  | fail (t : CatalogTask)
  | crash
  deriving DecidableEq

def Persists (loaded : CursorPair) (changed : ℕ) (next : CursorPair) : CatalogTask → Prop
  | .boot => True
  | .sync => 0 < changed ∨ next ≠ loaded
  | .reconcile => 0 < changed ∧ next = ⟨none, none⟩

instance (loaded : CursorPair) (changed : ℕ) (next : CursorPair) (t : CatalogTask) :
    Decidable (Persists loaded changed next t) := by
  cases t <;> unfold Persists <;> infer_instance

namespace Persistence

def setPhase (s : Persistence) (t : CatalogTask) (p : Phase) : Persistence :=
  { s with phase := Function.update s.phase t p }

def upserted (s : Persistence) (listing : Listing) : Persistence :=
  { s with
    catalog := (s.catalog.upsert listing.market).1
    history := s.history ++ [listing] }

def booted (s : Persistence) (loaded : LoadedCatalog) : Persistence :=
  let cursors := if loaded.discarded then ⟨none, none⟩ else s.cursors
  { s with
    cursors := cursors
    catalog := Catalog.new loaded.markets
    phase := Function.update (fun _ => .idle) .boot (.walking cursors [] 0)
    settled := if loaded.discarded then [] else s.settled }

def start : Persistence where
  files := .empty
  cursors := ⟨none, none⟩
  catalog := .empty
  phase := Function.update (fun _ => .idle) .boot (.walking ⟨none, none⟩ [] 0)
  history := []
  settled := []

@[simp] lemma setPhase_self {s : Persistence} {t : CatalogTask} {p : Phase} :
    (s.setPhase t p).phase t = p := Function.update_self _ _ _

lemma setPhase_of_ne {s : Persistence} {t t' : CatalogTask} {p : Phase} (h : t' ≠ t) :
    (s.setPhase t p).phase t' = s.phase t' := Function.update_of_ne h _ _

def writeCursor (s : Persistence) (t : CatalogTask) (next : CursorPair) (seen : List Listing) :
    Persistence :=
  match next.active, next.closed with
  | some value, _ =>
    { s with
      cursors := { s.cursors with active := some value }
      settled := s.settled ++ seen }.setPhase t (.cursors { next with active := none } seen)
  | none, some value =>
    { s with
      cursors := { s.cursors with closed := some value }
      settled := s.settled ++ seen }.setPhase t .idle
  | none, none => s.setPhase t .idle

variable [PbNumbers]

def step (s : Persistence) : PersistAction → Option Persistence
  | .upsert listing => if Typed listing.market then some (s.upserted listing) else none
  | .begin t =>
    match s.phase t, s.phase .boot with
    | .idle, .idle =>
      if t = .boot then none else some (s.setPhase t (.walking s.cursors [] 0))
    | _, _ => none
  | .list t listing =>
    match s.phase t with
    | .walking loaded seen changed =>
      if Typed listing.market then
        some ((s.upserted listing).setPhase t (.walking loaded (seen ++ [listing])
          (changed + (s.catalog.upsert listing.market).2.toNat)))
      else none
    | _ => none
  | .abandon t =>
    match s.phase t with
    | .walking .. => if t = .boot then none else some (s.setPhase t .idle)
    | _ => none
  | .snapshot t next =>
    match s.phase t with
    | .walking loaded seen changed =>
      if Persists loaded changed next t then
        some (s.setPhase t (.taken next seen s.catalog.snapshot))
      else none
    | _ => none
  | .create t =>
    match s.phase t with
    | .taken next seen rows =>
      let (files, inode) := s.files.create .temporary
      some ({ s with files := files }.setPhase t
        (.writing next seen rows inode 0 (catalogBytes rows)))
    | _ => none
  | .write t n =>
    match s.phase t with
    | .writing next seen rows inode offset rest =>
      if 0 < n ∧ n ≤ rest.length then
        some ({ s with files := s.files.writeAt inode offset (rest.take n) }.setPhase t
          (.writing next seen rows inode (offset + n) (rest.drop n)))
      else none
    | _ => none
  | .rename t =>
    match s.phase t with
    | .writing next seen rows _ _ [] =>
      if Savable rows then
        match s.files.rename .temporary .catalog with
        | some files => some ({ s with files := files }.setPhase t (.cursors next seen))
        | none => if t = .boot then none else some (s.setPhase t .idle)
      else none
    | _ => none
  | .cursor t =>
    match s.phase t with
    | .cursors next seen => some (s.writeCursor t next seen)
    | _ => none
  | .fail t =>
    if (s.phase t).Persisting ∧ t ≠ .boot then some (s.setPhase t .idle) else none
  | .crash =>
    match loadCatalog (s.files.read .catalog) with
    | .ok loaded => some (s.booted loaded)
    | .error _ => none

inductive Step (s : Persistence) : PersistAction → Persistence → Prop
  | upsert {listing : Listing} (htyped : Typed listing.market) :
      Step s (.upsert listing) (s.upserted listing)
  | begin {t : CatalogTask} (hidle : s.phase t = .idle) :
      Step s (.begin t) (s.setPhase t (.walking s.cursors [] 0))
  | list {t : CatalogTask} {listing : Listing} {loaded : CursorPair} {seen : List Listing}
      {changed : ℕ} (htyped : Typed listing.market) (h : s.phase t = .walking loaded seen changed) :
      Step s (.list t listing) ((s.upserted listing).setPhase t (.walking loaded (seen ++ [listing])
        (changed + (s.catalog.upsert listing.market).2.toNat)))
  | stop {t : CatalogTask} {a : PersistAction}
      (ha : a = .abandon t ∨ a = .rename t ∨ a = .fail t) : Step s a (s.setPhase t .idle)
  | snapshot {t : CatalogTask} {next : CursorPair} {loaded : CursorPair} {seen : List Listing}
      {changed : ℕ} (h : s.phase t = .walking loaded seen changed) :
      Step s (.snapshot t next) (s.setPhase t (.taken next seen s.catalog.snapshot))
  | create {t : CatalogTask} {next : CursorPair} {seen : List Listing}
      {rows : List MarketEnrichment} (h : s.phase t = .taken next seen rows) :
      Step s (.create t) ({ s with files := (s.files.create .temporary).1 }.setPhase t
        (.writing next seen rows (s.files.create .temporary).2 0 (catalogBytes rows)))
  | write {t : CatalogTask} {n : ℕ} {next : CursorPair} {seen : List Listing}
      {rows : List MarketEnrichment} {inode offset : ℕ} {rest : List UInt8} (hn : n ≤ rest.length)
      (h : s.phase t = .writing next seen rows inode offset rest) :
      Step s (.write t n) ({ s with files := s.files.writeAt inode offset (rest.take n) }.setPhase t
        (.writing next seen rows inode (offset + n) (rest.drop n)))
  | rename {t : CatalogTask} {next : CursorPair} {seen : List Listing}
      {rows : List MarketEnrichment} {inode offset : ℕ} {files : Files DiskName}
      (hsavable : Savable rows) (hrename : s.files.rename .temporary .catalog = some files)
      (h : s.phase t = .writing next seen rows inode offset []) :
      Step s (.rename t) ({ s with files := files }.setPhase t (.cursors next seen))
  | cursor {t : CatalogTask} {next : CursorPair} {seen : List Listing}
      (h : s.phase t = .cursors next seen) : Step s (.cursor t) (s.writeCursor t next seen)
  | crash {loaded : LoadedCatalog} (hload : loadCatalog (s.files.read .catalog) = .ok loaded) :
      Step s .crash (s.booted loaded)

lemma step_sound {s s' : Persistence} {a : PersistAction} (h : s.step a = some s') :
    Step s a s' := by
  cases a with
  | upsert listing =>
    simp only [step, Option.ite_none_right_eq_some, Option.some.injEq] at h
    obtain ⟨htyped, rfl⟩ := h
    exact .upsert htyped
  | begin t =>
    simp only [step] at h
    split at h
    · next hidle _ =>
      simp only [Option.ite_none_left_eq_some, Option.some.injEq] at h
      obtain ⟨-, rfl⟩ := h
      exact .begin hidle
    · cases h
  | list t listing =>
    simp only [step] at h
    split at h
    · next hphase =>
      simp only [Option.ite_none_right_eq_some, Option.some.injEq] at h
      obtain ⟨htyped, rfl⟩ := h
      exact .list htyped hphase
    · cases h
  | abandon t =>
    simp only [step] at h
    split at h
    · simp only [Option.ite_none_left_eq_some, Option.some.injEq] at h
      obtain ⟨-, rfl⟩ := h
      exact .stop (Or.inl rfl)
    · cases h
  | snapshot t next =>
    simp only [step] at h
    split at h
    · next hphase =>
      simp only [Option.ite_none_right_eq_some, Option.some.injEq] at h
      obtain ⟨-, rfl⟩ := h
      exact .snapshot hphase
    · cases h
  | create t =>
    simp only [step] at h
    split at h
    · next hphase =>
      cases h
      exact .create hphase
    · cases h
  | write t n =>
    simp only [step] at h
    split at h
    · next hphase =>
      simp only [Option.ite_none_right_eq_some, Option.some.injEq] at h
      obtain ⟨⟨-, hn⟩, rfl⟩ := h
      exact .write hn hphase
    · cases h
  | rename t =>
    simp only [step] at h
    split at h
    · next hphase =>
      rw [Option.ite_none_right_eq_some] at h
      obtain ⟨hsavable, h⟩ := h
      split at h
      · next hrename =>
        cases h
        exact .rename hsavable hrename hphase
      · simp only [Option.ite_none_left_eq_some, Option.some.injEq] at h
        obtain ⟨-, rfl⟩ := h
        exact .stop (Or.inr (Or.inl rfl))
    · cases h
  | cursor t =>
    simp only [step] at h
    split at h
    · next hphase =>
      cases h
      exact .cursor hphase
    · cases h
  | fail t =>
    simp only [step, Option.ite_none_right_eq_some, Option.some.injEq] at h
    obtain ⟨-, rfl⟩ := h
    exact .stop (Or.inr (Or.inr rfl))
  | crash =>
    simp only [step] at h
    split at h
    · next hload =>
      cases h
      exact .crash hload
    · cases h

end Persistence

/-! ## Rows that carry a listing -/

def Carried (rows : List MarketEnrichment) (history : List Listing) (listing : Listing) : Prop :=
  ∃ row ∈ rows, row.marketId = listing.market.marketId ∧
    ∃ version, listing.version ≤ version ∧ ⟨row, version⟩ ∈ history

def Advances (history : List Listing) (listing : Listing) : Prop :=
  ∀ earlier ∈ history,
    (earlier.market.conditionId = listing.market.conditionId →
      earlier.market.marketId = listing.market.marketId) ∧
    (earlier.market.marketId = listing.market.marketId → earlier.version ≤ listing.version)

instance (history : List Listing) (listing : Listing) : Decidable (Advances history listing) :=
  inferInstanceAs (Decidable (∀ earlier ∈ history, _))

structure Proper (history : List Listing) (rows : List MarketEnrichment) : Prop where
  listed : ∀ row ∈ rows, ∃ version, (⟨row, version⟩ : Listing) ∈ history
  single : ∀ a ∈ rows, ∀ b ∈ rows, a.marketId = b.marketId → a = b
  count : rows.length < 2 ^ 32

section Rows

variable {history : List Listing} {rows : List MarketEnrichment} {listing l : Listing}
  {catalog : Catalog} {row : MarketEnrichment}

lemma Carried.grow (h : Carried rows history l) (listing : Listing) :
    Carried rows (history ++ [listing]) l := by
  obtain ⟨row, hrow, hmarket, version, hle, hmem⟩ := h
  exact ⟨row, hrow, hmarket, version, hle, List.mem_append_left _ hmem⟩

lemma Proper.grow (h : Proper history rows) (listing : Listing) :
    Proper (history ++ [listing]) rows := by
  refine ⟨fun row hrow => ?_, h.single, h.count⟩
  obtain ⟨version, hmem⟩ := h.listed row hrow
  grind

lemma Catalog.Sound.mem_snapshot_iff {markets : List MarketEnrichment}
    (h : catalog.Sound markets) :
    row ∈ catalog.snapshot ↔ catalog.getByMarketId row.marketId = some row := by
  rw [h.getByMarketId_iff]
  unfold Catalog.snapshot
  rw [List.mem_map]
  constructor
  · rintro ⟨⟨c, row'⟩, hmem, rfl⟩
    have hlookup : catalog.byCondition.lookup c = some row' := AList.mem_lookup_iff.mpr hmem
    rw [(h.filed c row' hlookup).1]
    exact ⟨rfl, hlookup⟩
  · rintro ⟨-, hlookup⟩
    exact ⟨⟨row.conditionId, row⟩, AList.mem_lookup_iff.mp hlookup, rfl⟩

def marketsOf (history : List Listing) : List MarketEnrichment := history.map Listing.market

lemma mem_marketsOf :
    row ∈ marketsOf history ↔ ∃ version, (⟨row, version⟩ : Listing) ∈ history := by
  unfold marketsOf
  rw [List.mem_map]
  constructor
  · rintro ⟨l, hl, rfl⟩
    exact ⟨l.version, hl⟩
  grind

lemma Catalog.Sound.proper_snapshot (h : catalog.Sound (marketsOf history))
    (hcount : catalog.snapshot.length < 2 ^ 32) : Proper history catalog.snapshot := by
  refine ⟨fun row hrow => ?_, fun a ha b hb heq => ?_, hcount⟩
  · rw [h.mem_snapshot_iff, h.getByMarketId_iff] at hrow
    exact mem_marketsOf.mp (h.listed _ _ hrow.2)
  · rw [h.mem_snapshot_iff] at ha hb
    simp_all

lemma Advances.own (h : Advances history listing) :
    ∀ v ∈ marketsOf history, v.conditionId = listing.market.conditionId →
      v.marketId = listing.market.marketId := by
  intro v hv hcondition
  obtain ⟨version, hmem⟩ := mem_marketsOf.mp hv
  exact (h _ hmem).1 hcondition

lemma Carried.upsert (h : Carried catalog.snapshot history l)
    (hsound : catalog.Sound (marketsOf history)) (hadvances : Advances history listing) :
    Carried (catalog.upsert listing.market).1.snapshot (history ++ [listing]) l := by
  obtain ⟨hsound', hget⟩ := hsound.upsert hadvances.own
  obtain ⟨row, hrow, hmarket, version, hle, hmem⟩ := h
  by_cases hsame : row.marketId = listing.market.marketId
  · refine ⟨listing.market, ?_, hsame.symm.trans hmarket, listing.version, ?_,
      List.mem_append_right _ (List.mem_singleton_self _)⟩
    · rw [hsound'.mem_snapshot_iff, hget, if_pos rfl]
    · exact hle.trans ((hadvances _ hmem).2 hsame)
  · refine ⟨row, ?_, hmarket, version, hle, List.mem_append_left _ hmem⟩
    rw [hsound'.mem_snapshot_iff, hget, if_neg hsame]
    exact hsound.mem_snapshot_iff.mp hrow

lemma carried_upserted (hsound : catalog.Sound (marketsOf history))
    (hadvances : Advances history listing) :
    Carried (catalog.upsert listing.market).1.snapshot (history ++ [listing]) listing := by
  obtain ⟨hsound', hget⟩ := hsound.upsert hadvances.own
  refine ⟨listing.market, ?_, rfl, listing.version, le_rfl,
    List.mem_append_right _ (List.mem_singleton_self _)⟩
  rw [hsound'.mem_snapshot_iff, hget, if_pos rfl]

lemma Proper.mem_snapshot_new (h : Proper history rows) (hunshared : Unshared (marketsOf history))
    {loaded : List MarketEnrichment} (hloaded : loaded.Perm rows) :
    (Catalog.new loaded).Sound (marketsOf history) ∧
      ∀ row ∈ rows, row ∈ (Catalog.new loaded).snapshot := by
  have hlisted : ∀ row ∈ loaded, row ∈ marketsOf history := fun row hrow =>
    mem_marketsOf.mpr (h.listed row (hloaded.mem_iff.mp hrow))
  obtain ⟨hsound, hget⟩ := sound_new fun u hu v hv => hunshared u (hlisted u hu) v (hlisted v hv)
  refine ⟨⟨hsound.toValid, fun c row hrow => hlisted row (hsound.listed c row hrow), hsound.own⟩,
    fun row hrow => ?_⟩
  obtain ⟨last, hlast⟩ := exists_lastListed (hloaded.mem_iff.mpr hrow)
  obtain ⟨hmem, hmarket⟩ := lastListed_eq_some hlast
  rw [hsound.mem_snapshot_iff, hget, hlast]
  exact congrArg some (h.single last (hloaded.mem_iff.mp hmem) row hrow hmarket)

end Rows

/-! ## One task at a time -/

namespace Persistence

section Kept

variable [CatalogNumbers]

structure Covers (history settled seen : List Listing) (rows : List MarketEnrichment) : Prop
    extends Proper history rows where
  settled : ∀ l ∈ settled, Carried rows history l
  seen : ∀ l ∈ seen, Carried rows history l

def Stored (files : Files DiskName) (history settled seen : List Listing) : Prop :=
  ∃ rows, files.read .catalog = some (catalogBytes rows) ∧ Savable rows ∧
    Covers history settled seen rows

def PhaseOk (files : Files DiskName) (history settled : List Listing) : Phase → Prop
  | .idle | .walking .. => True
  | .taken _ seen rows => Covers history settled seen rows
  | .writing _ seen rows inode offset rest =>
    Covers history settled seen rows ∧ files.inode .temporary = some inode ∧
      offset = (files.data inode).length ∧ files.data inode ++ rest = catalogBytes rows
  | .cursors _ seen => Stored files history settled seen

structure Kept (s : Persistence) : Prop where
  typed : ∀ l ∈ s.history, Typed l.market
  unshared : Unshared (marketsOf s.history)
  sound : s.catalog.Sound (marketsOf s.history)
  settled : ∀ l ∈ s.settled, Carried s.catalog.snapshot s.history l
  seen : ∀ t, ∀ l ∈ (s.phase t).seen, Carried s.catalog.snapshot s.history l
  disk : (s.files.read .catalog = none ∧ s.settled = []) ∨ Stored s.files s.history s.settled []
  phases : ∀ t, PhaseOk s.files s.history s.settled (s.phase t)
  alone : ∀ t t', (s.phase t).Persisting → (s.phase t').Persisting → t = t'

def Apart (s : Persistence) : PersistAction → Prop
  | .upsert listing | .list _ listing => Advances s.history listing
  | .snapshot t _ =>
    s.catalog.snapshot.length < 2 ^ 32 ∧
      ∀ t' ∈ [CatalogTask.boot, .sync, .reconcile], t' ≠ t → ¬(s.phase t').Persisting
  | _ => True

instance (s : Persistence) (a : PersistAction) : Decidable (s.Apart a) := by
  cases a <;> unfold Apart <;> infer_instance

section Frame

variable {s s' : Persistence} {t : CatalogTask} {p : Phase}

variable {files : Files DiskName} {history seen settled : List Listing}
  {rows : List MarketEnrichment} {next : CursorPair}

lemma PhaseOk.of_not_persisting (h : ¬p.Persisting) : PhaseOk files history settled p := by
  cases p <;> first | trivial | exact absurd trivial h

lemma Kept.move (h : s.Kept) (hhistory : s'.history = s.history) (hcatalog : s'.catalog = s.catalog)
    (hphase : s'.phase = s.phase)
    (hworld : (s'.files = s.files ∧ s'.settled = s.settled) ∨ (s.phase t).Persisting)
    (hsettled : ∀ l ∈ s'.settled, Carried s.catalog.snapshot s.history l)
    (hdisk : (s'.files.read .catalog = none ∧ s'.settled = []) ∨
      Stored s'.files s.history s'.settled [])
    (hseen : ∀ l ∈ p.seen, Carried s.catalog.snapshot s.history l)
    (hok : PhaseOk s'.files s.history s'.settled p)
    (halone : p.Persisting → ∀ t', t' ≠ t → ¬(s.phase t').Persisting) :
    (s'.setPhase t p).Kept := by
  have hothers : ∀ t', t' ≠ t → (s'.setPhase t p).phase t' = s.phase t' := fun t' hne => by
    rw [setPhase_of_ne hne, hphase]
  refine ⟨hhistory ▸ h.typed, hhistory ▸ h.unshared, ?_, fun l hl => ?_, fun t' l hl => ?_,
    hhistory ▸ hdisk, fun t' => ?_, fun a b ha hb => ?_⟩
  · show s'.catalog.Sound (marketsOf s'.history)
    rw [hhistory, hcatalog]
    exact h.sound
  · show Carried s'.catalog.snapshot s'.history l
    rw [hhistory, hcatalog]
    exact hsettled l hl
  · show Carried s'.catalog.snapshot s'.history l
    rw [hhistory, hcatalog]
    by_cases hne : t' = t
    · simp_all
    · rw [hothers t' hne] at hl
      exact h.seen t' l hl
  · show PhaseOk s'.files s'.history s'.settled _
    rw [hhistory]
    by_cases hne : t' = t
    · simp_all
    · rw [hothers t' hne]
      rcases hworld with ⟨hfiles, hset⟩ | hpersisting
      · rw [hfiles, hset]
        exact h.phases t'
      · exact PhaseOk.of_not_persisting fun hp => hne (h.alone t' t hp hpersisting)
  · by_cases hat : a = t
    · by_cases hbt : b = t
      · exact hat.trans hbt.symm
      simp_all
    · rw [hothers a hat] at ha
      by_cases hbt : b = t
      · simp_all
      · rw [hothers b hbt] at hb
        exact h.alone a b ha hb

lemma Kept.setPhase_calm (h : s.Kept) (hp : ¬p.Persisting)
    (hseen : ∀ l ∈ p.seen, Carried s.catalog.snapshot s.history l) : (s.setPhase t p).Kept :=
  h.move rfl rfl rfl (Or.inl ⟨rfl, rfl⟩) h.settled h.disk hseen (PhaseOk.of_not_persisting hp)
    fun hpersisting => absurd hpersisting hp

lemma Kept.others (h : s.Kept) (hp : (s.phase t).Persisting) :
    ∀ t', t' ≠ t → ¬(s.phase t').Persisting :=
  fun t' hne hp' => hne (h.alone t' t hp' hp)

omit [CatalogNumbers] in
lemma Covers.grow (h : Covers history settled seen rows) (listing : Listing) :
    Covers (history ++ [listing]) settled seen rows :=
  ⟨h.toProper.grow listing, fun l hl => (h.settled l hl).grow listing,
    fun l hl => (h.seen l hl).grow listing⟩

lemma Stored.grow (h : Stored files history settled seen) (listing : Listing) :
    Stored files (history ++ [listing]) settled seen := by
  obtain ⟨rows, hread, hsavable, hcovers⟩ := h
  exact ⟨rows, hread, hsavable, hcovers.grow listing⟩

lemma PhaseOk.grow (h : PhaseOk files history settled p) (listing : Listing) :
    PhaseOk files (history ++ [listing]) settled p := by
  cases p with
  | idle => trivial
  | walking loaded seen changed => trivial
  | taken next seen rows => exact Covers.grow h listing
  | writing next seen rows inode offset rest => exact ⟨h.1.grow listing, h.2⟩
  | cursors next seen => exact Stored.grow h listing

lemma Kept.upserted (h : s.Kept) {listing : Listing} (htyped : Typed listing.market)
    (hadvances : Advances s.history listing) : (s.upserted listing).Kept := by
  refine ⟨fun l hl => ?_, ?_, ?_, fun l hl => (h.settled l hl).upsert h.sound hadvances,
    fun t l hl => (h.seen t l hl).upsert h.sound hadvances, ?_,
    fun t => (h.phases t).grow listing, h.alone⟩
  · rcases List.mem_append.mp hl with hl | hl
    · exact h.typed l hl
    simp_all
  · show Unshared (marketsOf (s.history ++ [listing]))
    unfold marketsOf
    rw [List.map_append]
    intro u hu v hv heq
    rcases List.mem_append.mp hu with hu | hu <;> rcases List.mem_append.mp hv with hv | hv
    · exact h.unshared u hu v hv heq
    · rw [List.mem_singleton.mp hv] at heq ⊢
      exact hadvances.own u hu heq
    · rw [List.mem_singleton.mp hu] at heq ⊢
      exact (hadvances.own v hv heq.symm).symm
    simp_all
  · show (s.catalog.upsert listing.market).1.Sound (marketsOf (s.history ++ [listing]))
    unfold marketsOf
    rw [List.map_append]
    exact (h.sound.upsert hadvances.own).1
  · rcases h.disk with hnone | hstored
    · exact Or.inl hnone
    · exact Or.inr (hstored.grow listing)

lemma Kept.load (h : s.Kept) : ∃ loaded, loadCatalog (s.files.read .catalog) = .ok loaded ∧
    loaded.discarded = false ∧ Proper s.history loaded.markets ∧
      ∀ l ∈ s.settled, Carried loaded.markets s.history l := by
  rcases h.disk with ⟨hnone, hsettled⟩ | ⟨rows, hread, hsavable, hcovers⟩
  · refine ⟨⟨[], false⟩, ?_, rfl, ?_, ?_⟩
    · rw [hnone]
      rfl
    · exact ⟨by simp, by simp, by simp⟩
    grind
  · have hperm := ordered_perm rows
    refine ⟨⟨ordered rows, false⟩, ?_, rfl, ?_, fun l hl => ?_⟩
    · rw [hread]
      refine loadCatalog_catalogBytes (fun row hrow => ?_) hsavable hcovers.count
      obtain ⟨version, hmem⟩ := hcovers.listed row hrow
      exact h.typed _ hmem
    · refine ⟨fun row hrow => hcovers.listed row (hperm.mem_iff.mp hrow),
        fun a ha b hb => hcovers.single a (hperm.mem_iff.mp ha) b (hperm.mem_iff.mp hb), ?_⟩
      rw [hperm.length_eq]
      exact hcovers.count
    · obtain ⟨row, hrow, hcarried⟩ := hcovers.settled l hl
      exact ⟨row, hperm.mem_iff.mpr hrow, hcarried⟩

lemma Kept.crash (h : s.Kept) {loaded : LoadedCatalog}
    (hload : loadCatalog (s.files.read .catalog) = .ok loaded) : (s.booted loaded).Kept := by
  obtain ⟨found, hfound, hdiscarded, hproper, hcarried⟩ := h.load
  rw [hload] at hfound
  cases hfound
  obtain ⟨hsound, hheld⟩ := hproper.mem_snapshot_new h.unshared (List.Perm.refl _)
  have hcalm : ∀ t, ((s.booted loaded).phase t).seen = [] ∧
      ¬((s.booted loaded).phase t).Persisting := by
    intro t
    cases t <;> exact ⟨rfl, id⟩
  have hsettled : (s.booted loaded).settled = s.settled := by
    unfold booted
    rw [hdiscarded]
    rfl
  refine ⟨h.typed, h.unshared, hsound, fun l hl => ?_, fun t l hl => ?_, ?_, fun t => ?_,
    fun t _ ht => absurd ht (hcalm t).2⟩
  · rw [hsettled] at hl
    obtain ⟨row, hrow, hrest⟩ := hcarried l hl
    exact ⟨row, hheld row hrow, hrest⟩
  · simp_all
  · rw [hsettled]
    exact h.disk
  · exact PhaseOk.of_not_persisting (hcalm t).2

lemma Kept.snapshot (h : s.Kept) {loaded : CursorPair} {changed : ℕ}
    (hphase : s.phase t = .walking loaded seen changed) (hapart : s.Apart (.snapshot t next)) :
    (s.setPhase t (.taken next seen s.catalog.snapshot)).Kept := by
  have hseen : ∀ l ∈ seen, Carried s.catalog.snapshot s.history l := fun l hl =>
    h.seen t l (by rw [hphase]; exact hl)
  refine h.move rfl rfl rfl (Or.inl ⟨rfl, rfl⟩) h.settled h.disk hseen ?_ fun _ t' hne => ?_
  · exact ⟨h.sound.proper_snapshot hapart.1, h.settled, hseen⟩
  · exact hapart.2 t' (by cases t' <;> decide) hne

lemma Kept.persist {q : Phase} (h : s.Kept) (hphase : s.phase t = q) (hq : q.Persisting)
    (hseen : p.seen = q.seen)
    (hdisk : (files.read .catalog = none ∧ s.settled = []) ∨ Stored files s.history s.settled [])
    (hok : PhaseOk files s.history s.settled p) :
    ({ s with files := files }.setPhase t p).Kept := by
  have hpersisting : (s.phase t).Persisting := hphase ▸ hq
  refine h.move rfl rfl rfl (Or.inr hpersisting) h.settled hdisk (fun l hl => ?_) hok
    fun _ => h.others hpersisting
  rw [hseen, ← hphase] at hl
  exact h.seen t l hl

lemma Kept.create (h : s.Kept) (hphase : s.phase t = .taken next seen rows) :
    ({ s with files := (s.files.create .temporary).1 }.setPhase t
      (.writing next seen rows (s.files.create .temporary).2 0 (catalogBytes rows))).Kept := by
  have hcovers := h.phases t
  rw [hphase] at hcovers
  obtain ⟨hinode, hdata, hothers⟩ := s.files.create_spec .temporary
  refine h.persist hphase trivial rfl ?_ ⟨hcovers, hinode, ?_, ?_⟩
  · unfold Stored
    rw [hothers .catalog (by decide)]
    exact h.disk
  · rw [hdata]
    rfl
  · rw [hdata]
    rfl

lemma Kept.write (h : s.Kept) {inode offset n : ℕ} {rest : List UInt8} (hn : n ≤ rest.length)
    (hphase : s.phase t = .writing next seen rows inode offset rest) :
    ({ s with files := s.files.writeAt inode offset (rest.take n) }.setPhase t
      (.writing next seen rows inode (offset + n) (rest.drop n))).Kept := by
  have hok := h.phases t
  rw [hphase] at hok
  obtain ⟨hcovers, hinode, rfl, hbytes⟩ := hok
  have hdata : (s.files.writeAt inode (s.files.data inode).length (rest.take n)).data inode =
      s.files.data inode ++ rest.take n := by
    unfold Files.writeAt
    rw [Files.data_setData, Files.patch_length]
  refine h.persist hphase trivial rfl ?_ ⟨hcovers, hinode, ?_, ?_⟩
  · unfold Stored Files.writeAt
    rw [Files.read_setData_of_ne hinode (by decide)]
    exact h.disk
  · simp_all
  simp_all

lemma Kept.rename (h : s.Kept) {inode offset : ℕ} (hsavable : Savable rows)
    (hrename : s.files.rename .temporary .catalog = some files)
    (hphase : s.phase t = .writing next seen rows inode offset []) :
    ({ s with files := files }.setPhase t (.cursors next seen)).Kept := by
  have hok := h.phases t
  rw [hphase] at hok
  obtain ⟨hcovers, hinode, -, hbytes⟩ := hok
  have hread : files.read .catalog = some (catalogBytes rows) := by
    rw [Files.read_rename hrename]
    unfold Files.read
    simp_all
  refine h.persist hphase trivial rfl (Or.inr ?_) ⟨rows, hread, hsavable, hcovers⟩
  exact ⟨rows, hread, hsavable, hcovers.toProper, hcovers.settled, by simp⟩

lemma Kept.cursor (h : s.Kept) (hphase : s.phase t = .cursors next seen) :
    (s.writeCursor t next seen).Kept := by
  have hpersisting : (s.phase t).Persisting := by
    rw [hphase]
    trivial
  have hok := h.phases t
  rw [hphase] at hok
  obtain ⟨rows, hread, hsavable, hcovers⟩ := hok
  have hseen : ∀ l ∈ seen, Carried s.catalog.snapshot s.history l := fun l hl =>
    h.seen t l (by rw [hphase]; exact hl)
  have hsettled : ∀ l ∈ s.settled ++ seen, Carried s.catalog.snapshot s.history l := fun l hl =>
    (List.mem_append.mp hl).elim (h.settled l) (hseen l)
  have hcovers' : Covers s.history (s.settled ++ seen) seen rows :=
    ⟨hcovers.toProper,
      fun l hl => (List.mem_append.mp hl).elim (hcovers.settled l) (hcovers.seen l), hcovers.seen⟩
  have hstored : Stored s.files s.history (s.settled ++ seen) [] :=
    ⟨rows, hread, hsavable, hcovers'.toProper, hcovers'.settled, by simp⟩
  unfold writeCursor
  split
  · exact h.move rfl rfl rfl (Or.inr hpersisting) hsettled (Or.inr hstored) hseen
      ⟨rows, hread, hsavable, hcovers'⟩ fun _ => h.others hpersisting
  · exact h.move rfl rfl rfl (Or.inr hpersisting) hsettled (Or.inr hstored) (by simp [Phase.seen])
      trivial False.elim
  · exact h.setPhase_calm id (by simp [Phase.seen])

lemma Kept.step (h : s.Kept) {a : PersistAction} (hapart : s.Apart a) (hstep : s.step a = some s') :
    s'.Kept := by
  cases step_sound hstep with
  | upsert htyped => exact h.upserted htyped hapart
  | begin hidle => exact h.setPhase_calm id (by simp [Phase.seen])
  | @list t listing loaded seen changed htyped hphase =>
    refine (h.upserted htyped hapart).setPhase_calm id fun l hl => ?_
    rcases List.mem_append.mp hl with hl | hl
    · exact (h.seen t l (by rw [hphase]; exact hl)).upsert h.sound hapart
    · rw [List.mem_singleton.mp hl]
      exact carried_upserted h.sound hapart
  | stop ha => exact h.setPhase_calm id (by simp [Phase.seen])
  | snapshot hphase => exact h.snapshot hphase hapart
  | create hphase => exact h.create hphase
  | write hn hphase => exact h.write hn hphase
  | rename hsavable hrename hphase => exact h.rename hsavable hrename hphase
  | cursor hphase => exact h.cursor hphase
  | crash hload => exact h.crash hload

lemma kept_start : start.Kept := by
  have hcalm : ∀ t, (start.phase t).seen = [] ∧ ¬(start.phase t).Persisting := by
    intro t
    cases t <;> exact ⟨rfl, id⟩
  have hnone : Unshared [] := fun u hu => by cases hu
  have hsound : start.catalog.Sound (marketsOf start.history) :=
    (sound_new hnone).1
  refine ⟨fun l hl => ?_, fun u hu => ?_, hsound, fun l hl => ?_, fun t l hl => ?_,
    Or.inl ⟨rfl, rfl⟩, fun t => PhaseOk.of_not_persisting (hcalm t).2,
    fun t _ ht => absurd ht (hcalm t).2⟩
  · cases hl
  · cases hu
  · cases hl
  simp_all

end Frame

def Restored (s : Persistence) : Prop :=
  ∃ loaded, loadCatalog (s.files.read .catalog) = .ok loaded ∧
    ∀ l ∈ s.settled, Carried loaded.markets s.history l

theorem catalog_before_cursor {as : List PersistAction} {s : Persistence}
    (hrun : run step start as = some s) (hapart : AllSteps step Apart start as) : s.Restored := by
  have hkept : s.Kept :=
    run_invariant (fun _ _ _ h ha hstep => h.step ha hstep) kept_start hapart hrun
  obtain ⟨loaded, hload, -, -, hcarried⟩ := hkept.load
  exact ⟨loaded, hload, hcarried⟩

end Kept

/-! ## Runs -/

attribute [local instance] dashboardNumbers

def testListing (m : ℕ) : Listing := ⟨testRow m (10 * UInt8.ofNat m), 1⟩

def persistRun (t : CatalogTask) (rows : ℕ) (next : CursorPair) : List PersistAction :=
  [.snapshot t next, .create t, .write t (12 + 86 * rows), .rename t, .cursor t, .cursor t]

/-- The pass at boot lists market 1, the sync then lists market 2 and is persisted; there is a
crash. The next boot finds both. -/
theorem catalog_before_cursor_two_passes :
    ∃ s, run step start ([.list .boot (testListing 1)] ++ persistRun .boot 1 ⟨some "a", none⟩ ++
        [.begin .sync, .list .sync (testListing 2)] ++ persistRun .sync 2 ⟨some "b", none⟩ ++
        [.crash]) = some s ∧
      s.settled = [testListing 1, testListing 2] ∧ s.cursors.active = some "b" ∧ s.Restored :=
  exists_some_imp (P := fun s => s.settled = [testListing 1, testListing 2] ∧
    s.cursors.active = some "b") (by decide +kernel) fun _ hs ⟨hsettled, hactive⟩ =>
      ⟨hsettled, hactive, catalog_before_cursor hs (by decide +kernel)⟩

lemma not_restored {s : Persistence} {loaded : LoadedCatalog} {l : Listing}
    (hload : loadCatalog (s.files.read .catalog) = .ok loaded) (hsettled : l ∈ s.settled)
    (hmissing : ∀ row ∈ loaded.markets, row.marketId ≠ l.market.marketId) : ¬s.Restored := by
  rintro ⟨found, hfound, hcarried⟩
  rw [hload] at hfound
  cases hfound
  obtain ⟨row, hrow, hmarket, -⟩ := hcarried l hsettled
  simp_all

def overlapRun : List PersistAction :=
  [.list .boot (testListing 1)] ++ persistRun .boot 1 ⟨some "a", none⟩ ++
    [.begin .reconcile, .list .reconcile (testListing 2), .snapshot .reconcile ⟨none, none⟩,
      .begin .sync, .list .sync (testListing 3)]

theorem stale_snapshot_under_newer_cursor :
    (∃ s, run step start (overlapRun ++ persistRun .sync 3 ⟨some "b", none⟩ ++
        [.create .reconcile, .write .reconcile 184, .rename .reconcile, .cursor .reconcile]) =
          some s ∧ (∀ t, s.phase t = .idle) ∧ s.cursors.active = some "b" ∧
      loadCatalog (s.files.read .catalog) = .ok ⟨[testRow 1 10, testRow 2 20], false⟩ ∧
      testListing 3 ∈ s.settled ∧ ¬s.Restored) ∧
    ∃ s, run step start (overlapRun ++ [.snapshot .sync ⟨some "b", none⟩, .create .sync,
        .write .sync 100, .create .reconcile, .write .sync 170, .rename .sync, .cursor .sync]) =
          some s ∧ s.cursors.active = some "b" ∧
      loadCatalog (s.files.read .catalog) = .error (.format "catalog magic") ∧ ¬s.Restored := by
  constructor
  · refine exists_some_imp (P := fun s => (s.phase .boot = .idle ∧ s.phase .sync = .idle ∧
      s.phase .reconcile = .idle) ∧ s.cursors.active = some "b" ∧
      loadCatalog (s.files.read .catalog) = .ok ⟨[testRow 1 10, testRow 2 20], false⟩ ∧
      testListing 3 ∈ s.settled) (by decide +kernel) ?_
    rintro s - ⟨⟨hboot, hsync, hreconcile⟩, hactive, hload, hmem⟩
    refine ⟨fun t => ?_, hactive, hload, hmem, not_restored hload hmem (by decide)⟩
    cases t
    · exact hboot
    · exact hsync
    · exact hreconcile
  · refine exists_some_imp (P := fun s => s.cursors.active = some "b" ∧
      loadCatalog (s.files.read .catalog) = .error (.format "catalog magic")) (by decide +kernel) ?_
    rintro s - ⟨hactive, hload⟩
    refine ⟨hactive, hload, ?_⟩
    rintro ⟨loaded, hloaded, -⟩
    simp_all

end Persistence

end RustUma.Enrichment
