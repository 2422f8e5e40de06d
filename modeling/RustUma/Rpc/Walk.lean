import RustUma.Service.Machine

/-!
# Walking a block range (`src/uma/rpc.rs` `backfill_range`)

The start-up backfill and every gap fill walk a range of blocks in batches: fetch the logs of the
next batch, hand each of them to `process` and wait for the call to return, checkpoint the end of
the batch.
-/

namespace RustUma.Rpc

open RustUma.Found RustUma.Model RustUma.Pipeline RustUma.Service

/-! ## The chain -/

structure Log where
  block : ℕ
  index : ℕ
  decoded : Option UmaEvent
  decoded_block : ∀ e ∈ decoded, e.chain.blockNumber = block
  deriving DecidableEq

def receivedAt (receivedAtUs : ℕ) : UmaEvent → UmaEvent
  | .proposePrice chain request =>
    .proposePrice { chain with upstreamReceivedAtUs := receivedAtUs } request
  | .disputePrice chain request =>
    .disputePrice { chain with upstreamReceivedAtUs := receivedAtUs } request

structure Chain where
  logs : ℕ → List Log
  block_eq : ∀ b, ∀ l ∈ logs b, l.block = b
  timestamp : ℕ → ℕ

structure RpcConfig where
  racers : ℕ
  startBlock : Option ℕ
  initialBackfillDays : ℕ
  backfillBatchBlocks : ℕ
  deriving DecidableEq

structure Env where
  codec : Codec
  config : Config
  rpc : RpcConfig
  chain : Chain

def getLogs (chain : Chain) (first last : ℕ) : List Log :=
  (List.range' first (last + 1 - first)).flatMap chain.logs

lemma mem_getLogs {chain : Chain} {first last : ℕ} {l : Log} :
    l ∈ getLogs chain first last ↔ ∃ b, first ≤ b ∧ b ≤ last ∧ l ∈ chain.logs b := by
  unfold getLogs
  grind

def satAdd (a b : ℕ) : ℕ := min (a + b) (2 ^ 64 - 1)

lemma satAdd_le (a b : ℕ) : satAdd a b ≤ a + b := min_le_left _ _

def DoneBelow (chain : Chain) (first : ℕ) (passed : List Log) (bound : ℕ) : Prop :=
  ∀ b < bound, first ≤ b → ∀ l ∈ chain.logs b, l ∈ passed

instance (chain : Chain) (first : ℕ) (passed : List Log) (bound : ℕ) :
    Decidable (DoneBelow chain first passed bound) :=
  inferInstanceAs (Decidable (∀ b < bound, _))

namespace DoneBelow

variable {chain : Chain} {first bound : ℕ} {passed : List Log}

lemma mono (h : DoneBelow chain first passed bound) {passed' : List Log} (hsub : passed ⊆ passed')
    {bound' : ℕ} (hle : bound' ≤ bound) : DoneBelow chain first passed' bound' :=
  fun b hb hfirst l hl => hsub (h b (Nat.lt_of_lt_of_le hb hle) hfirst l hl)

lemma of_le (hle : bound ≤ first) : DoneBelow chain first passed bound :=
  fun b hb hfirst => absurd hfirst (by omega)

end DoneBelow

/-! ## Handing logs over -/

structure Intake where
  server : Server
  nextCall : ℕ
  passed : List Log

namespace Intake

def pass (env : Env) (k : Intake) (log : Log) (receivedAtUs : ℕ)
    (source : String) : Option Intake :=
  (k.server.step env.codec env.config
    (.process (.receive k.nextCall (log.decoded.map (receivedAt receivedAtUs)) receivedAtUs
      source))).map fun server =>
        { server := server, nextCall := k.nextCall + 1, passed := k.passed ++ [log] }

def Returned (k : Intake) (call : ℕ) : Prop := (k.server.proc.calls call).phase = .done

instance (k : Intake) (call : ℕ) : Decidable (k.Returned call) :=
  inferInstanceAs (Decidable (_ = _))

def checkpoint (k : Intake) (block : ℕ) : Intake :=
  { k with server := { k.server with proc := k.server.proc.checkpoint block } }

variable {env : Env} {k k' : Intake}

lemma pass_eq_some {log : Log} {receivedAtUs : ℕ} {source : String}
    (h : k.pass env log receivedAtUs source = some k') :
    k.server.Step env.codec env.config
        (.process (.receive k.nextCall (log.decoded.map (receivedAt receivedAtUs)) receivedAtUs
          source)) k'.server ∧
      k'.nextCall = k.nextCall + 1 ∧ k'.passed = k.passed ++ [log] := by
  obtain ⟨server, hstep, rfl⟩ := Option.map_eq_some_iff.mp h
  exact ⟨Server.step_sound hstep, rfl, rfl⟩

lemma checkpoint_step (env : Env) (k : Intake) (block : ℕ) :
    k.server.Step env.codec env.config (.process (.checkpoint block)) (k.checkpoint block).server :=
  Server.step_sound rfl

end Intake

/-! ## The walk -/

inductive Walk where
  | fetch (cursor target : ℕ)
  | feed (logs : List Log) (last target : ℕ)
  | wait (call : ℕ) (logs : List Log) (last target : ℕ)
  | complete
  | failed
  deriving DecidableEq

inductive WalkAction where
  | fetch
  | fail
  | pass (receivedAtUs : ℕ)
  | returned
  | checkpoint
  deriving DecidableEq

def batchEnd (batchBlocks cursor target : ℕ) : ℕ :=
  min (satAdd cursor (max batchBlocks 1 - 1)) target

lemma le_batchEnd {batchBlocks cursor target : ℕ} (hle : cursor ≤ target)
    (htarget : target < 2 ^ 64) : cursor ≤ batchEnd batchBlocks cursor target := by
  exact le_min (le_min (Nat.le_add_right _ _) (by omega)) hle

namespace Walk

def start (cursor target : ℕ) : Walk := if cursor ≤ target then .fetch cursor target else .complete

def step (env : Env) (source : String) (k : Intake) (w : Walk) :
    WalkAction → Option (Walk × Intake)
  | .fetch =>
    match w with
    | .fetch cursor target =>
      let last := batchEnd env.rpc.backfillBatchBlocks cursor target
      some (.feed (getLogs env.chain cursor last) last target, k)
    | _ => none
  | .fail =>
    match w with
    | .fetch _ _ => some (.failed, k)
    | _ => none
  | .pass receivedAtUs =>
    match w with
    | .feed (log :: logs) last target =>
      (k.pass env log receivedAtUs source).map fun k' =>
        (.wait k.nextCall logs last target, k')
    | _ => none
  | .returned =>
    match w with
    | .wait call logs last target =>
      if k.Returned call then some (.feed logs last target, k) else none
    | _ => none
  | .checkpoint =>
    match w with
    | .feed [] last target => some (start (satAdd last 1) target, k.checkpoint last)
    | _ => none

inductive Step (env : Env) (source : String) (k : Intake) :
    Walk → WalkAction → Walk → Intake → Prop where
  | fetch (cursor target : ℕ) :
      Step env source k (.fetch cursor target) .fetch
        (.feed (getLogs env.chain cursor (batchEnd env.rpc.backfillBatchBlocks cursor target))
          (batchEnd env.rpc.backfillBatchBlocks cursor target) target) k
  | fail (cursor target : ℕ) :
      Step env source k (.fetch cursor target) .fail .failed k
  | pass (log : Log) (logs : List Log) (last target receivedAtUs : ℕ) (k' : Intake)
      (hpass : k.pass env log receivedAtUs source = some k') :
      Step env source k (.feed (log :: logs) last target)
        (.pass receivedAtUs) (.wait k.nextCall logs last target) k'
  | returned (call : ℕ) (logs : List Log) (last target : ℕ) (hreturned : k.Returned call) :
      Step env source k (.wait call logs last target) .returned
        (.feed logs last target) k
  | checkpoint (last target : ℕ) :
      Step env source k (.feed [] last target) .checkpoint
        (start (satAdd last 1) target) (k.checkpoint last)

theorem step_sound {env : Env} {source : String} {k k' : Intake} {w w' : Walk} {a : WalkAction}
    (h : step env source k w a = some (w', k')) :
    Step env source k w a w' k' := by
  cases a with
  | fetch =>
    cases w with
    | fetch cursor target =>
      cases h
      exact .fetch cursor target
    | _ => cases h
  | fail =>
    cases w with
    | fetch cursor target =>
      cases h
      exact .fail cursor target
    | _ => cases h
  | pass receivedAtUs =>
    cases w with
    | feed logs last target =>
      cases logs with
      | nil => cases h
      | cons log logs =>
        obtain ⟨k'', hpass, heq⟩ := Option.map_eq_some_iff.mp h
        cases heq
        exact .pass log logs last target receivedAtUs k' hpass
    | _ => cases h
  | returned =>
    cases w with
    | wait call logs last target =>
      simp only [step] at h
      split_ifs at h with hreturned
      cases h
      exact .returned call logs last target hreturned
    | _ => cases h
  | checkpoint =>
    cases w with
    | feed logs last target =>
      cases logs with
      | nil =>
        cases h
        exact .checkpoint last target
      | cons log logs => cases h
    | _ => cases h

/-! ## What a walk covers -/

def Covers (chain : Chain) (first head : ℕ) (passed : List Log) : Walk → Prop
  | .fetch cursor target => target = head ∧ cursor ≤ head ∧ DoneBelow chain first passed cursor
  | .feed logs last target =>
    target = head ∧ DoneBelow chain first (passed ++ logs) (last + 1)
  | .wait _ logs last target =>
    target = head ∧ DoneBelow chain first (passed ++ logs) (last + 1)
  | .complete => DoneBelow chain first passed (head + 1)
  | .failed => True

variable {env : Env} {source : String} {first head : ℕ}

lemma covers_start {chain : Chain} {passed : List Log} {cursor : ℕ}
    (h : DoneBelow chain first passed cursor) :
    (start cursor head).Covers chain first head passed := by
  unfold start
  split_ifs with hle
  · exact ⟨rfl, hle, h⟩
  · exact h.mono (List.Subset.refl _) (by omega)

lemma Covers.mono {chain : Chain} {passed passed' : List Log} {w : Walk}
    (h : w.Covers chain first head passed) (hsub : passed ⊆ passed') :
    w.Covers chain first head passed' := by
  cases w with
  | fetch cursor target => exact ⟨h.1, h.2.1, h.2.2.mono hsub le_rfl⟩
  | feed logs last target | wait call logs last target =>
    exact ⟨h.1, h.2.mono (List.append_subset.mpr
      ⟨List.subset_append_of_subset_left _ hsub, List.subset_append_right _ _⟩) le_rfl⟩
  | complete => exact DoneBelow.mono h hsub le_rfl
  | failed => trivial

lemma Step.passed_subset {k k' : Intake} {w w' : Walk} {a : WalkAction}
    (h : Step env source k w a w' k') : k.passed ⊆ k'.passed := by
  cases h with
  | pass log logs last target receivedAtUs _ hpass =>
    rw [(Intake.pass_eq_some hpass).2.2]
    simp
  | fetch | fail | returned | checkpoint => exact List.Subset.refl _

theorem Covers.step {k k' : Intake} {w w' : Walk} {a : WalkAction}
    (h : w.Covers env.chain first head k.passed) (hstep : Step env source k w a w' k') :
    w'.Covers env.chain first head k'.passed := by
  cases hstep with
  | fetch cursor target =>
    obtain ⟨rfl, -, hdone⟩ := h
    refine ⟨rfl, fun b hb hfirst l hl => ?_⟩
    -- a block of the batch, or one the walk had left behind
    by_cases hcursor : b < cursor
    · exact List.mem_append_left _ (hdone b hcursor hfirst l hl)
    · exact List.mem_append_right _ (mem_getLogs.mpr ⟨b, by omega, by omega, hl⟩)
  | fail => trivial
  | pass log logs last target receivedAtUs _ hpass =>
    obtain ⟨rfl, hdone⟩ := h
    refine ⟨rfl, ?_⟩
    rw [(Intake.pass_eq_some hpass).2.2, List.append_assoc]
    exact hdone
  | returned call logs last target hreturned => exact h
  | checkpoint last target =>
    obtain ⟨rfl, hdone⟩ := h
    rw [List.append_nil] at hdone
    exact covers_start (hdone.mono (List.Subset.refl _) (satAdd_le last 1))

end Walk

end RustUma.Rpc
