import RustUma.Found.Files
import RustUma.Storage.CatalogFile

/-!
# Replacing the catalog file (`src/storage.rs` `Storage::save_catalog`)

`save_catalog` sorts the rows, writes them through a buffer to `catalog.bin.tmp`, flushes, syncs and
renames the file over `catalog.bin`. Every call of it can fail, and the process can stop between any
two of them.
-/

namespace RustUma.Storage

open RustUma.Found RustUma.Model

/-! ## One save -/

def catalogPath : List Char := "catalog.bin".toList

def temporaryPath (stem : List Char) (extension : Option (List Char)) : List Char :=
  stem ++ ('.' :: (extension.getD "bin".toList ++ ".tmp".toList))

def temporaryCatalog : List Char := temporaryPath "catalog".toList (some "bin".toList)

lemma catalogPath_ne : catalogPath ≠ temporaryCatalog := by decide +kernel

inductive SavePhase
  | sorting
  | writing (inode : ℕ) (buffer : List UInt8) (rest : List MarketEnrichment)
  | flushed
  | synced
  | saved
  | failed (error : StorageError)
  deriving DecidableEq

structure Saving where
  files : Files (List Char)
  phase : SavePhase

inductive SaveAction
  | create (rows : List MarketEnrichment)
  | row
  | refuse (written : ℕ)
  | spill (written : ℕ)
  | flush
  | sync
  | rename
  | fail (written : ℕ)
  deriving DecidableEq

def Sorts (markets rows : List MarketEnrichment) : Prop :=
  rows.Perm markets ∧ rows.Pairwise fun a b => a.marketId ≤ b.marketId

instance (markets rows : List MarketEnrichment) : Decidable (Sorts markets rows) :=
  inferInstanceAs (Decidable (_ ∧ _))

namespace Saving

def spilled (s : Saving) (inode : ℕ) (buffer : List UInt8) (written : ℕ) : Files (List Char) :=
  s.files.setData inode (s.files.data inode ++ buffer.take written)

lemma read_spilled {s : Saving} {inode : ℕ} (h : s.files.inode temporaryCatalog = some inode)
    (buffer : List UInt8) (written : ℕ) :
    (s.spilled inode buffer written).read catalogPath = s.files.read catalogPath :=
  Files.read_setData_of_ne h catalogPath_ne _

def refusal (market : MarketEnrichment) : StorageError :=
  if 65535 < market.tokenIds.length then .format "too many token IDs"
  else .format "too many tag IDs"

variable [PbNumbers]

def step (markets : List MarketEnrichment) (s : Saving) : SaveAction → Option Saving
  | .create rows =>
    match s.phase with
    | .sorting =>
      if Sorts markets rows then
        some ⟨(s.files.create temporaryCatalog).1,
          .writing (s.files.create temporaryCatalog).2
            (catalogMagic ++ toBeBytes 4 rows.length) rows⟩
      else none
    | _ => none
  | .row =>
    match s.phase with
    | .writing inode buffer (market :: rest) =>
      if Writable market then
        some { s with phase := .writing inode (buffer ++ encodeMarket market) rest }
      else none
    | _ => none
  | .refuse written =>
    match s.phase with
    | .writing inode buffer (market :: _) =>
      if Writable market then none
      else some ⟨s.spilled inode buffer written, .failed (refusal market)⟩
    | _ => none
  | .spill written =>
    match s.phase with
    | .writing inode buffer rest =>
      some ⟨s.spilled inode buffer written, .writing inode (buffer.drop written) rest⟩
    | _ => none
  | .flush =>
    match s.phase with
    | .writing _ [] [] => some { s with phase := .flushed }
    | _ => none
  | .sync =>
    match s.phase with
    | .flushed => some { s with phase := .synced }
    | _ => none
  | .rename =>
    match s.phase with
    | .synced =>
      (s.files.rename temporaryCatalog catalogPath).map fun files => ⟨files, .saved⟩
    | _ => none
  | .fail written =>
    match s.phase with
    | .sorting | .flushed | .synced => some { s with phase := .failed .io }
    | .writing inode buffer _ => some ⟨s.spilled inode buffer written, .failed .io⟩
    | .saved | .failed _ => none

/-! ## What the files hold -/

def Progress (markets : List MarketEnrichment) (files : Files (List Char)) (s : Saving) : Prop :=
  match s.phase with
  | .sorting | .failed _ => s.files.read catalogPath = files.read catalogPath
  | .writing inode buffer rest =>
    s.files.read catalogPath = files.read catalogPath ∧
      s.files.inode temporaryCatalog = some inode ∧
      ∃ written, Sorts markets (written ++ rest) ∧ Savable written ∧
        s.files.data inode ++ buffer = catalogMagic ++
          (toBeBytes 4 (written ++ rest).length ++ written.flatMap encodeMarket)
  | .flushed | .synced =>
    s.files.read catalogPath = files.read catalogPath ∧
      ∃ rows, Sorts markets rows ∧ Savable rows ∧
        s.files.read temporaryCatalog = some (rowsBytes rows)
  | .saved =>
    ∃ rows, Sorts markets rows ∧ Savable rows ∧ s.files.read catalogPath = some (rowsBytes rows)

variable {markets : List MarketEnrichment} {files : Files (List Char)} {s s' : Saving}

lemma Progress.step {a : SaveAction} (h : Progress markets files s)
    (hstep : s.step markets a = some s') : Progress markets files s' := by
  obtain ⟨disk, phase⟩ := s
  cases a with
  | create rows =>
    cases phase with
    | sorting =>
      simp only [Saving.step, Option.ite_none_right_eq_some, Option.some.injEq] at hstep
      obtain ⟨hsorts, rfl⟩ := hstep
      obtain ⟨hinode, hdata, hread⟩ := disk.create_spec temporaryCatalog
      refine ⟨(hread _ catalogPath_ne).trans h, hinode, [], hsorts, ?_, ?_⟩
      · exact fun _ hmem => absurd hmem List.not_mem_nil
      grind
    | _ => cases hstep
  | row =>
    cases phase with
    | writing inode buffer rest =>
      cases rest with
      | nil => cases hstep
      | cons market rest =>
        simp only [Saving.step, Option.ite_none_right_eq_some, Option.some.injEq] at hstep
        obtain ⟨hwritable, rfl⟩ := hstep
        obtain ⟨hread, hinode, written, hsorts, hsavable, hbytes⟩ := h
        refine ⟨hread, hinode, written ++ [market], ?_, ?_, ?_⟩
        · rwa [List.append_assoc]
        · intro other hother
          rcases List.mem_append.mp hother with hother | hother
          · exact hsavable other hother
          simp_all
        grind
    | _ => cases hstep
  | refuse written =>
    cases phase with
    | writing inode buffer rest =>
      cases rest with
      | nil => cases hstep
      | cons market rest =>
        simp only [Saving.step, Option.ite_none_left_eq_some, Option.some.injEq] at hstep
        obtain ⟨-, rfl⟩ := hstep
        exact (read_spilled h.2.1 _ _).trans h.1
    | _ => cases hstep
  | spill n =>
    cases phase with
    | writing inode buffer rest =>
      cases hstep
      obtain ⟨hread, hinode, written, hsorts, hsavable, hbytes⟩ := h
      refine ⟨(read_spilled hinode _ _).trans hread, hinode, written, hsorts, hsavable, ?_⟩
      show (disk.setData inode (disk.data inode ++ buffer.take n)).data inode ++
        buffer.drop n = _
      rw [Files.data_setData, List.append_assoc, List.take_append_drop]
      exact hbytes
    | _ => cases hstep
  | flush =>
    cases phase with
    | writing inode buffer rest =>
      cases buffer with
      | cons byte buffer => cases hstep
      | nil =>
        cases rest with
        | cons market rest => cases hstep
        | nil =>
          cases hstep
          obtain ⟨hread, hinode, written, hsorts, hsavable, hbytes⟩ := h
          rw [List.append_nil] at hsorts hbytes
          rw [List.append_nil] at hbytes
          refine ⟨hread, written, hsorts, hsavable, ?_⟩
          unfold Files.read
          rw [hinode, Option.map_some, hbytes]
          rfl
    | _ => cases hstep
  | sync =>
    cases phase with
    | flushed =>
      cases hstep
      exact h
    | _ => cases hstep
  | rename =>
    cases phase with
    | synced =>
      obtain ⟨renamed, hrename, rfl⟩ := Option.map_eq_some_iff.mp hstep
      obtain ⟨-, rows, hsorts, hsavable, htemporary⟩ := h
      exact ⟨rows, hsorts, hsavable, (Files.read_rename hrename).trans htemporary⟩
    | _ => cases hstep
  | fail n =>
    cases phase with
    | sorting =>
      cases hstep
      exact h
    | writing inode buffer rest =>
      cases hstep
      exact (read_spilled h.2.1 _ _).trans h.1
    | flushed | synced =>
      cases hstep
      exact h.1
    | _ => cases hstep

lemma Progress.read_eq (h : Progress markets files s) (hphase : s.phase ≠ .saved) :
    s.files.read catalogPath = files.read catalogPath := by
  obtain ⟨disk, phase⟩ := s
  cases phase with
  | sorting | failed => exact h
  | writing | flushed | synced => exact h.1
  | saved => exact absurd rfl hphase

/-! ## A save without faults -/

lemma run_rows (markets : List MarketEnrichment) {rows : List MarketEnrichment}
    (hsavable : Savable rows) (disk : Files (List Char)) (inode : ℕ) (buffer : List UInt8) :
    run (step markets) ⟨disk, .writing inode buffer rows⟩
        (List.replicate rows.length .row) =
      some ⟨disk, .writing inode (buffer ++ rows.flatMap encodeMarket) []⟩ := by
  induction rows generalizing buffer with
  | nil => simp
  | cons market rows ih =>
    have hfirst : Writable market := hsavable market List.mem_cons_self
    have hrow : step markets ⟨disk, .writing inode buffer (market :: rows)⟩ .row =
        some ⟨disk, .writing inode (buffer ++ encodeMarket market) rows⟩ := if_pos hfirst
    rw [List.length_cons, List.replicate_succ, run_cons, hrow, Option.bind_some,
      ih fun other hother => hsavable other (List.mem_cons_of_mem _ hother), List.flatMap_cons,
      List.append_assoc]

lemma exists_saved_of_written (markets : List MarketEnrichment) {disk : Files (List Char)}
    {inode : ℕ} (hinode : disk.inode temporaryCatalog = some inode) (buffer : List UInt8) :
    ∃ as s, run (step markets) ⟨disk, .writing inode buffer []⟩ as = some s ∧ s.phase = .saved := by
  have hspill : step markets ⟨disk, .writing inode buffer []⟩ (.spill buffer.length) =
      some ⟨disk.setData inode (disk.data inode ++ buffer.take buffer.length),
        .writing inode [] []⟩ := by
    simp only [step, spilled, List.drop_length]
  have hsame : (disk.setData inode (disk.data inode ++ buffer.take buffer.length)).inode
      temporaryCatalog = some inode := hinode
  obtain ⟨renamed, hrename⟩ := Files.exists_rename_of_inode hsame catalogPath
  refine ⟨[.spill buffer.length, .flush, .sync, .rename], ⟨renamed, .saved⟩, ?_, rfl⟩
  rw [run_cons, hspill]
  show ((Files.rename _ temporaryCatalog catalogPath).map _).bind _ = _
  rw [hrename]
  rfl

lemma exists_saved (hsavable : Savable markets) (files : Files (List Char)) :
    ∃ as s, run (step markets) ⟨files, .sorting⟩ as = some s ∧ s.phase = .saved := by
  have hsorts : Sorts markets (ordered markets) :=
    ⟨ordered_perm markets, List.pairwise_insertionSort _ _⟩
  have hordered : Savable (ordered markets) := fun market hmarket =>
    hsavable market ((ordered_perm markets).mem_iff.mp hmarket)
  have hcreate : step markets ⟨files, .sorting⟩ (.create (ordered markets)) =
      some ⟨(files.create temporaryCatalog).1, .writing (files.create temporaryCatalog).2
        (catalogMagic ++ toBeBytes 4 (ordered markets).length) (ordered markets)⟩ := if_pos hsorts
  have hrows := run_rows markets hordered (files.create temporaryCatalog).1
    (files.create temporaryCatalog).2 (catalogMagic ++ toBeBytes 4 (ordered markets).length)
  obtain ⟨as, s, hrun, hs⟩ := exists_saved_of_written markets
    (files.create_spec temporaryCatalog).1
    (catalogMagic ++ toBeBytes 4 (ordered markets).length ++
      (ordered markets).flatMap encodeMarket)
  refine ⟨.create (ordered markets) :: (List.replicate (ordered markets).length .row ++ as), s, ?_,
    hs⟩
  rw [run_cons, hcreate]
  exact run_append_eq_some.mpr ⟨_, hrows, hrun⟩

end Saving

theorem catalog_file_replaced_whole [CatalogNumbers] (markets : List MarketEnrichment) (files : Files (List Char)) :
    (∀ as s, run (Saving.step markets) ⟨files, .sorting⟩ as = some s →
      (s.phase ≠ .saved →
        loadCatalog (s.files.read catalogPath) = loadCatalog (files.read catalogPath)) ∧
      (s.phase = .saved → (∀ market ∈ markets, Typed market) → markets.length < 2 ^ 32 →
        ∃ rows, rows.Perm markets ∧ (rows.Pairwise fun a b => a.marketId ≤ b.marketId) ∧
          loadCatalog (s.files.read catalogPath) = .ok ⟨rows, false⟩)) ∧
    (Savable markets → ∃ as s, run (Saving.step markets) ⟨files, .sorting⟩ as = some s ∧
      s.phase = .saved) := by
  refine ⟨fun as s hs => ?_, fun hsavable => Saving.exists_saved hsavable files⟩
  have hstart : Saving.Progress markets files ⟨files, .sorting⟩ := rfl
  have hprogress : Saving.Progress markets files s :=
    run_invariant_of_step (fun _ _ _ h hstep => h.step hstep)
      hstart hs
  refine ⟨fun hphase => ?_, fun hphase htyped hcount => ?_⟩
  · rw [hprogress.read_eq hphase]
  · unfold Saving.Progress at hprogress
    rw [hphase] at hprogress
    obtain ⟨rows, ⟨hperm, hsorted⟩, hsavable, hread⟩ := hprogress
    refine ⟨rows, hperm, hsorted, ?_⟩
    rw [hread]
    refine loadCatalog_rowsBytes (fun market hmarket => ?_) hsavable ?_
    · grind
    · rwa [hperm.length_eq]

def sampleMarket (marketId : ℕ) : MarketEnrichment where
  marketId := marketId
  conditionId := Bytes.fill 32 7
  tokenIds := [Bytes.fill 32 8]
  tagIds := [9]
  category := .sports
  betType := .moneyline
  negRisk := true

attribute [local instance] dashboardNumbers

/-- Two rows are saved, or the disk is full after the first twelve bytes. -/
theorem catalog_file_replaced_by_two_rows :
    (∃ as s, run (Saving.step [sampleMarket 2, sampleMarket 1]) ⟨.empty, .sorting⟩ as = some s ∧
      s.phase = .saved ∧ ∃ rows, rows.Perm [sampleMarket 2, sampleMarket 1] ∧
        (rows.Pairwise fun a b => a.marketId ≤ b.marketId) ∧
        loadCatalog (s.files.read catalogPath) = .ok ⟨rows, false⟩) ∧
    ∃ s, run (Saving.step [sampleMarket 2, sampleMarket 1]) ⟨.empty, .sorting⟩
        [.create [sampleMarket 1, sampleMarket 2], .row, .fail 12] = some s ∧
      s.phase = .failed .io ∧
      loadCatalog (s.files.read catalogPath) = loadCatalog (Files.empty.read catalogPath) := by
  obtain ⟨hruns, hsaves⟩ :=
    catalog_file_replaced_whole [sampleMarket 2, sampleMarket 1] .empty
  refine ⟨?_, ?_⟩
  · obtain ⟨as, s, hs, hphase⟩ := hsaves (by decide +kernel)
    exact ⟨as, s, hs, hphase, (hruns as s hs).2 hphase (by decide +kernel) (by decide)⟩
  · have hvals : ((run (Saving.step [sampleMarket 2, sampleMarket 1]) ⟨.empty, .sorting⟩
        [.create [sampleMarket 1, sampleMarket 2], .row, .fail 12]).map fun s => s.phase) =
          some (.failed .io) := by decide +kernel
    obtain ⟨s, hs, hphase⟩ := Option.map_eq_some_iff.mp hvals
    grind

end RustUma.Storage
