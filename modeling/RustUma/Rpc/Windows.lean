import RustUma.Found.Tiles
import RustUma.Rpc.Walk

/-!
# The windows of a walk (`src/uma/rpc.rs` `backfill_range`)

What a walk asks the node for and what it checkpoints, for any two bounds and any batch size, when
no call fails. Both ends of a window are computed with saturating arithmetic, so that a walk up to
the last block number there is does not get past it.
-/

namespace RustUma.Rpc

open RustUma.Found RustUma.Model

/-! ## The loop -/

inductive Effect
  | getLogs (cursor last : ℕ)
  | process (log : Log)
  | checkpoint (block : ℕ)
  deriving DecidableEq

def round (chain : Chain) (cursor last : ℕ) : List Effect :=
  .getLogs cursor last :: ((getLogs chain cursor last).map .process ++ [.checkpoint last])

def backfillRange (chain : Chain) (batchBlocks : ℕ) : ℕ → ℕ → ℕ → Option (List Effect)
  | 0, _, _ => none
  | rounds + 1, cursor, target =>
    if cursor ≤ target then
      let last := batchEnd batchBlocks cursor target
      (backfillRange chain batchBlocks rounds (satAdd last 1) target).map
        (round chain cursor last ++ ·)
    else some []

def Effect.window? : Effect → Option (ℕ × ℕ)
  | .getLogs cursor last => some (cursor, last)
  | _ => none

def Effect.checkpoint? : Effect → Option ℕ
  | .checkpoint block => some block
  | _ => none

def windows (effects : List Effect) : List (ℕ × ℕ) := effects.filterMap Effect.window?

def checkpoints (effects : List Effect) : List ℕ := effects.filterMap Effect.checkpoint?

section Loop

variable {chain : Chain} {batchBlocks cursor target : ℕ}

lemma filterMap_round {β : Type} {f : Effect → Option β} (hlogs : ∀ log, f (.process log) = none)
    (cursor last : ℕ) (rest : List Effect) :
    (round chain cursor last ++ rest).filterMap f =
      (f (.getLogs cursor last)).toList ++ ((f (.checkpoint last)).toList ++ rest.filterMap f) := by
  have hnone : ((getLogs chain cursor last).map Effect.process).filterMap f = [] := by
    simp_all
  unfold round
  rw [List.filterMap_append, List.filterMap_cons, List.filterMap_append, hnone]
  grind

lemma windows_round (cursor last : ℕ) (rest : List Effect) :
    windows (round chain cursor last ++ rest) = (cursor, last) :: windows rest :=
  filterMap_round (fun _ => rfl) cursor last rest

lemma checkpoints_round (cursor last : ℕ) (rest : List Effect) :
    checkpoints (round chain cursor last ++ rest) = last :: checkpoints rest :=
  filterMap_round (fun _ => rfl) cursor last rest

lemma backfillRange_eq_some {rounds : ℕ} {effects : List Effect}
    (h : backfillRange chain batchBlocks rounds cursor target = some effects) :
    target < cursor ∧ effects = [] ∨
      cursor ≤ target ∧ ∃ before rest,
        backfillRange chain batchBlocks before
          (satAdd (batchEnd batchBlocks cursor target) 1) target = some rest ∧
        effects = round chain cursor (batchEnd batchBlocks cursor target) ++ rest := by
  cases rounds with
  | zero => cases h
  | succ rounds =>
    unfold backfillRange at h
    split_ifs at h with hle
    · obtain ⟨rest, hrest, rfl⟩ := Option.map_eq_some_iff.mp h
      grind
    simp_all

lemma satAdd_batchEnd (htarget : target < 2 ^ 64 - 1) :
    satAdd (batchEnd batchBlocks cursor target) 1 = batchEnd batchBlocks cursor target + 1 := by
  have hle : batchEnd batchBlocks cursor target ≤ target := min_le_right _ _
  exact min_eq_left (by omega)

lemma batchEnd_lt (batchBlocks cursor target : ℕ) :
    batchEnd batchBlocks cursor target < cursor + max 1 batchBlocks := by
  have hsat := satAdd_le cursor (max batchBlocks 1 - 1)
  have hmin : batchEnd batchBlocks cursor target ≤ satAdd cursor (max batchBlocks 1 - 1) :=
    min_le_left _ _
  omega

lemma exists_backfillRange (chain : Chain) (batchBlocks : ℕ) (htarget : target < 2 ^ 64 - 1)
    (cursor : ℕ) :
    ∃ rounds effects, backfillRange chain batchBlocks rounds cursor target = some effects := by
  -- on the number of blocks that are left
  induction hleft : target + 1 - cursor using Nat.strongRecOn generalizing cursor with
  | ind left ih =>
    by_cases hle : cursor ≤ target
    · have hlast : cursor ≤ batchEnd batchBlocks cursor target := le_batchEnd hle (by omega)
      obtain ⟨rounds, rest, hrest⟩ := ih _ (by omega)
        (batchEnd batchBlocks cursor target + 1) rfl
      refine ⟨rounds + 1, round chain cursor (batchEnd batchBlocks cursor target) ++ rest, ?_⟩
      unfold backfillRange
      rw [if_pos hle]
      dsimp only
      rw [satAdd_batchEnd htarget, hrest]
      rfl
    · refine ⟨1, [], ?_⟩
      unfold backfillRange
      rw [if_neg hle]

end Loop

/-! ## What the windows are -/

structure Partition (batchBlocks first last : ℕ) (windows : List (ℕ × ℕ)) : Prop extends
    Tiles first last windows where
  short : ∀ w ∈ windows, w.2 + 1 - w.1 ≤ max 1 batchBlocks

lemma Partition.cons {batchBlocks first middle last : ℕ} {windows : List (ℕ × ℕ)}
    (h : Partition batchBlocks (middle + 1) last windows) (hfirst : first ≤ middle)
    (hshort : middle < first + max 1 batchBlocks) (hlast : middle ≤ last) :
    Partition batchBlocks first last ((first, middle) :: windows) :=
  ⟨tiles_cons_iff.mpr ⟨rfl, hfirst, hlast, h.toTiles⟩,
    List.forall_mem_cons.mpr ⟨by omega, h.short⟩⟩

section Loop

variable {chain : Chain} {batchBlocks cursor target : ℕ}

lemma partition_windows (htarget : target < 2 ^ 64 - 1) {rounds : ℕ} {effects : List Effect}
    (h : backfillRange chain batchBlocks rounds cursor target = some effects) :
    Partition batchBlocks cursor target (windows effects) ∧
      (checkpoints effects).getLast? = if cursor ≤ target then some target else none := by
  -- on the calls that are left, which are fewer in each round
  induction hlength : effects.length using Nat.strongRecOn generalizing rounds cursor effects with
  | ind length ih =>
    rcases backfillRange_eq_some h with ⟨hlt, rfl⟩ | ⟨hle, before, rest, hrest, rfl⟩
    · rw [if_neg (by omega)]
      exact ⟨⟨tiles_nil_iff.mpr hlt, by simp [windows]⟩, rfl⟩
    · have hlast : cursor ≤ batchEnd batchBlocks cursor target := le_batchEnd hle (by omega)
      have hshort := batchEnd_lt batchBlocks cursor target
      have htop : batchEnd batchBlocks cursor target ≤ target := min_le_right _ _
      rw [satAdd_batchEnd htarget] at hrest
      have hfewer : rest.length < length := by
        rw [← hlength, List.length_append]
        exact Nat.lt_add_of_pos_left (Nat.succ_pos _)
      obtain ⟨hpartition, hcheckpoint⟩ := ih _ hfewer hrest rfl
      rw [windows_round, checkpoints_round]
      refine ⟨hpartition.cons hlast hshort htop, ?_⟩
      grind

lemma backfillRange_top (hcursor : cursor < 2 ^ 64) (rounds : ℕ) :
    backfillRange chain batchBlocks rounds cursor (2 ^ 64 - 1) = none := by
  induction rounds generalizing cursor with
  | zero => rfl
  | succ rounds ih =>
    have hnext : satAdd (batchEnd batchBlocks cursor (2 ^ 64 - 1)) 1 < 2 ^ 64 :=
      (min_le_right _ _).trans_lt (by decide)
    unfold backfillRange
    rw [if_pos (Nat.le_sub_one_of_lt hcursor)]
    dsimp only
    rw [ih hnext]
    rfl

end Loop

theorem backfill_range_partitions_range (chain : Chain) (first last batchBlocks : ℕ)
    (hfirst : first < 2 ^ 64) (hlast : last < 2 ^ 64) :
    (∃ rounds effects, backfillRange chain batchBlocks rounds first last = some effects ∧
      Partition batchBlocks first last (windows effects) ∧
      (checkpoints effects).getLast? = if first ≤ last then some last else none) ↔
    last < 2 ^ 64 - 1 := by
  constructor
  · rintro ⟨rounds, effects, heffects, -⟩
    by_contra htop
    obtain rfl : last = 2 ^ 64 - 1 := by omega
    rw [backfillRange_top hfirst] at heffects
    cases heffects
  · intro hbelow
    obtain ⟨rounds, effects, heffects⟩ := exists_backfillRange chain batchBlocks hbelow first
    exact ⟨rounds, effects, heffects, partition_windows hbelow heffects⟩

def bareChain : Chain where
  logs := fun _ => []
  block_eq := fun _ _ hl => absurd hl List.not_mem_nil
  timestamp := fun _ => 0

/-- The blocks 3 to 7 in batches of two, and a batch size of zero. -/
theorem backfill_range_in_batches_of_two :
    (∃ rounds effects, backfillRange bareChain 2 rounds 3 7 = some effects ∧
      Partition 2 3 7 (windows effects) ∧ (checkpoints effects).getLast? = some 7) ∧
    (∃ rounds effects, backfillRange bareChain 0 rounds 3 4 = some effects ∧
      Partition 0 3 4 (windows effects) ∧ (checkpoints effects).getLast? = some 4) ∧
    (backfillRange bareChain 2 4 3 7).map windows = some [(3, 4), (5, 6), (7, 7)] :=
  ⟨(backfill_range_partitions_range bareChain 3 7 2 (by decide) (by decide)).mpr (by decide),
    (backfill_range_partitions_range bareChain 3 4 0 (by decide) (by decide)).mpr (by decide),
    by decide +kernel⟩

/-- **A walk up to the last block number does not end.** -/
theorem backfill_range_stays_at_the_top :
    ¬ ∃ rounds effects,
      backfillRange bareChain 100 rounds (2 ^ 64 - 1) (2 ^ 64 - 1) = some effects := by
  rintro ⟨rounds, effects, hends⟩
  rw [backfillRange_top (by decide)] at hends
  cases hends

end RustUma.Rpc
