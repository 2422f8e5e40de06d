import RustUma.Mempool.Scores

/-!
# Confirmations that are delivered again (`src/mempool/gate.rs` `Gate::on_confirmed`)

The start-up and the subscription may both deliver a log, and a reorganisation delivers it again.
The round, the marks and the scores are the same after the second time; but if the tip of the
transaction is known, it is put into the window once more.
-/

namespace RustUma.Mempool

open RustUma.Found RustUma.Model

namespace Gate

variable {keccak : List UInt8 → Bytes 32} {config : GateConfig} {g g' : Gate}

/-! ## The second time -/

def sample (g : Gate) (kind : CallKind) (txHash : List Char) (nowUs : ℕ) : List (ℕ × ℕ) :=
  if kind = .propose then (g.txTip txHash).toList.map fun tip => (nowUs, tip.2) else []

def confirmedState (st : ReqState) (kind : CallKind) (price : Bytes 32) (nowUs : ℕ) : ReqState where
  toMarks := st.toMarks.confirm kind price
  pendings := if decide (kind = .propose) && st.proposed.isNone then [] else st.pendings
  touchedUs := nowUs

lemma reqs_onConfirmed (g : Gate) (kind : CallKind) (key : RequestKey) (price : Bytes 32)
    (txHash : List Char) (nowUs : ℕ) :
    (g.onConfirmed kind key price txHash nowUs).reqs =
      Function.update g.reqs key (some (confirmedState ((g.reqs key).getD {}) kind price nowUs)) :=
  rfl

lemma confirmedState_twice (st : ReqState) (kind : CallKind) (price : Bytes 32) (nowUs : ℕ) :
    confirmedState (confirmedState st kind price nowUs) kind price nowUs =
      confirmedState st kind price nowUs := by
  cases kind with
  | propose =>
    obtain ⟨⟨emittedPrice, emittedDispute, proposed, disputed⟩, pendings, touchedUs⟩ := st
    cases proposed <;> rfl
  | dispute => rfl

lemma latestRound_onConfirmed (g : Gate) (kind : CallKind) (key : RequestKey) (price : Bytes 32)
    (txHash : List Char) (nowUs : ℕ) :
    (g.onConfirmed kind key price txHash nowUs).latestRound =
      Function.update g.latestRound key.market
        (some (max ((g.latestRound key.market).getD key.timestamp) key.timestamp)) := rfl

lemma onConfirmed_twice (g : Gate) (kind : CallKind) (key : RequestKey) (price : Bytes 32)
    (txHash : List Char) (nowUs : ℕ) :
    (g.onConfirmed kind key price txHash nowUs).onConfirmed kind key price txHash nowUs =
      { g.onConfirmed kind key price txHash nowUs with
        tips :=
          (g.onConfirmed kind key price txHash nowUs).tips ++ g.sample kind txHash nowUs } := by
  have hreqs : ((g.onConfirmed kind key price txHash nowUs).onConfirmed kind key price txHash
      nowUs).reqs = (g.onConfirmed kind key price txHash nowUs).reqs := by
    rw [reqs_onConfirmed, reqs_onConfirmed, Function.update_self, Option.getD_some,
      confirmedState_twice, Function.update_idem]
  have hrounds : ((g.onConfirmed kind key price txHash nowUs).onConfirmed kind key price txHash
      nowUs).latestRound = (g.onConfirmed kind key price txHash nowUs).latestRound := by
    rw [latestRound_onConfirmed, latestRound_onConfirmed, Function.update_self, Option.getD_some,
      max_eq_left (le_max_right _ _), Function.update_idem]
  have hsenders : ((g.onConfirmed kind key price txHash nowUs).onConfirmed kind key price txHash
      nowUs).senders = (g.onConfirmed kind key price txHash nowUs).senders := by
    rw [senders_onConfirmed]
    refine if_neg ?_
    rintro ⟨rfl, hopen⟩
    exact absurd rfl (open_of_onConfirmed hopen).2
  have htips : ((g.onConfirmed kind key price txHash nowUs).onConfirmed kind key price txHash
      nowUs).tips = (g.onConfirmed kind key price txHash nowUs).tips ++
        g.sample kind txHash nowUs := by
    cases kind with
    | propose => rfl
    | dispute => exact (List.append_nil _).symm
  exact (Gate.mk.injEq ..).mpr ⟨hreqs, hrounds, hsenders, htips, rfl⟩

lemma onConfirmed_twice_of_sample {kind : CallKind} {key : RequestKey} {price : Bytes 32}
    {txHash : List Char} {nowUs : ℕ} (h : kind = .dispute ∨ g.txTip txHash = none) :
    (g.onConfirmed kind key price txHash nowUs).onConfirmed kind key price txHash nowUs =
      g.onConfirmed kind key price txHash nowUs := by
  have hsample : g.sample kind txHash nowUs = [] := by
    unfold sample
    grind
  rw [onConfirmed_twice, hsample, List.append_nil]

end Gate

/-! ## Scores -/

def ReqState.scored (st : ReqState) : Option (Bytes 32) × Bool × List (Bytes 20 × Bytes 32) × ℕ :=
  (st.proposed, st.disputed, st.pendings, st.touchedUs)

structure AlikeScores (g g' : Gate) : Prop where
  rounds : g.latestRound = g'.latestRound
  senders : g.senders = g'.senders
  txTip : g.txTip = g'.txTip
  reqs : ∀ key, (g.reqs key).map ReqState.scored = (g'.reqs key).map ReqState.scored

namespace AlikeScores

variable {keccak : List UInt8 → Bytes 32} {config : GateConfig} {g g' : Gate}

lemma scored (h : AlikeScores g g') (key : RequestKey) :
    ((g.reqs key).getD {}).scored = ((g'.reqs key).getD {}).scored := by
  have hreqs := h.reqs key
  cases hg : g.reqs key with
  | none =>
    simp_all
  | some st =>
    rw [hg, eq_comm] at hreqs
    obtain ⟨st', hg', hscored⟩ := Option.map_eq_some_iff.mp hreqs
    simp_all

variable {x y : ReqState} {t t' : Gate}

lemma setReq (h : AlikeScores g g') (key : RequestKey) (hscored : x.scored = y.scored)
    (k : RequestKey) :
    (Function.update g.reqs key (some x) k).map ReqState.scored =
      (Function.update g'.reqs key (some y) k).map ReqState.scored := by
  by_cases hkey : k = key
  · simp_all
  · rw [Function.update_of_ne hkey, Function.update_of_ne hkey, h.reqs k]

lemma scored_judge (st : ReqState) (kind : CallKind) (price : Bytes 32) (trusted lowTip : Bool) :
    ({ st with toMarks := (st.toMarks.judge kind price trusted lowTip).1 } : ReqState).scored =
      st.scored := by
  rcases Marks.judge_cases st.toMarks kind price trusted lowTip with ⟨-, h⟩ | ⟨why, h⟩
  · rw [h]
    cases kind <;> rfl
  · rw [h]

lemma scored_record (h : x.scored = y.scored) (kind : CallKind) (sender : Bytes 20)
    (price : Bytes 32) (nowUs : ℕ) :
    (({ x with touchedUs := nowUs } : ReqState).record kind sender price).scored =
      (({ y with touchedUs := nowUs } : ReqState).record kind sender price).scored := by
  obtain ⟨⟨_, _, proposed, disputed⟩, pendings, touchedUs⟩ := x
  cases h
  unfold ReqState.record
  split_ifs <;> rfl

lemma scored_confirmedState (h : x.scored = y.scored) (kind : CallKind) (price : Bytes 32)
    (nowUs : ℕ) :
    (Gate.confirmedState x kind price nowUs).scored =
      (Gate.confirmedState y kind price nowUs).scored := by
  obtain ⟨⟨_, _, proposed, disputed⟩, pendings, touchedUs⟩ := x
  obtain ⟨⟨_, _, proposed', disputed'⟩, pendings', touchedUs'⟩ := y
  cases h
  cases kind with
  | propose => cases proposed <;> rfl
  | dispute => rfl

lemma check (h : AlikeScores g g') {p : Pending} {verdict verdict' : Verdict}
    (hcheck : Gate.Checked keccak config g p t verdict)
    (hcheck' : Gate.Checked keccak config g' p t' verdict') : AlikeScores t t' := by
  have htx : Function.update g.txTip p.txHash (some (p.nowUs, p.tipGwei)) =
      Function.update g'.txTip p.txHash (some (p.nowUs, p.tipGwei)) := by rw [h.txTip]
  cases hcheck with
  | stale hround hold =>
    rw [h.rounds] at hround
    cases hcheck' with
    | stale hround' hold' => exact ⟨h.rounds, h.senders, htx, h.reqs⟩
    | judged hround' hfloor' hst' hjudge' =>
      grind
  | @judged floor st judgement hround hfloor hst hjudge =>
    rw [h.rounds] at hround
    cases hcheck' with
    | stale hround' hold' => grind
    | @judged floor' st' judgement' hround' hfloor' hst' hjudge' =>
      refine ⟨by rw [h.rounds], h.senders, htx, h.setReq _ ?_⟩
      rw [hjudge, hjudge', scored_judge, scored_judge, hst, hst']
      exact scored_record (h.scored _) _ _ _ _

lemma onConfirmed (h : AlikeScores g g') (kind : CallKind) (key : RequestKey) (price : Bytes 32)
    (txHash : List Char) (nowUs : ℕ) :
    AlikeScores (g.onConfirmed kind key price txHash nowUs)
      (g'.onConfirmed kind key price txHash nowUs) := by
  have hscored := h.scored key
  have hproposed : (g.marks key).proposed = (g'.marks key).proposed := congrArg Prod.fst hscored
  have hoffers : g.offers key = g'.offers key := congrArg (fun x => x.2.2.1) hscored
  refine ⟨?_, ?_, h.txTip, ?_⟩
  · rw [Gate.latestRound_onConfirmed, Gate.latestRound_onConfirmed, h.rounds]
  · rw [Gate.senders_onConfirmed, Gate.senders_onConfirmed, hproposed, hoffers, h.senders]
  · exact h.setReq key (scored_confirmedState hscored kind price nowUs)

lemma step (h : AlikeScores g g') {op : GateOp} (hstep : g.step keccak config op = some t)
    (hstep' : g'.step keccak config op = some t') :
    AlikeScores t t' := by
  cases op with
  | check p =>
    obtain ⟨verdict, hcheck⟩ := Gate.step_check hstep
    obtain ⟨verdict', hcheck'⟩ := Gate.step_check hstep'
    exact h.check hcheck hcheck'
  | onConfirmed kind key price txHash nowUs =>
    cases hstep
    cases hstep'
    exact h.onConfirmed kind key price txHash nowUs
  | tipFloor nowUs =>
    obtain rfl := Gate.step_tipFloor hstep
    obtain rfl := Gate.step_tipFloor hstep'
    exact ⟨h.rounds, h.senders, h.txTip, h.reqs⟩
  | prune nowUs =>
    cases hstep
    cases hstep'
    refine ⟨h.rounds, h.senders, ?_, fun key => ?_⟩
    · show (fun txHash => (g.txTip txHash).filter _) = fun txHash => (g'.txTip txHash).filter _
      rw [h.txTip]
    · have hfilter : ∀ x : Option ReqState,
          (x.filter fun st => decide (nowUs - st.touchedUs < config.stateTtlUs)).map
              ReqState.scored =
            (x.map ReqState.scored).filter fun scored =>
              decide (nowUs - scored.2.2.2 < config.stateTtlUs) :=
        fun x => by rw [Option.filter_map]; rfl
      show ((g.reqs key).filter _).map _ = ((g'.reqs key).filter _).map _
      rw [hfilter, hfilter, h.reqs key]
  | loadSenders stats =>
    cases hstep
    cases hstep'
    refine ⟨h.rounds, ?_, h.txTip, h.reqs⟩
    show stats.foldl _ g.senders = stats.foldl _ g'.senders
    rw [h.senders]

lemma run {ops : List GateOp} (h : AlikeScores g g')
    (hrun : Found.run (Gate.step keccak config) g ops = some t)
    (hrun' : Found.run (Gate.step keccak config) g' ops = some t') : AlikeScores t t' := by
  induction ops generalizing g g' with
  | nil =>
    simp_all
  | cons op ops ih =>
    rw [run_cons, Option.bind_eq_some_iff] at hrun hrun'
    obtain ⟨u, hu, hrun⟩ := hrun
    obtain ⟨u', hu', hrun'⟩ := hrun'
    exact ih (h.step hu hu') hrun hrun'

end AlikeScores

/-! ## Tips in the window -/

structure Sampling where
  gate : Gate
  confirmed : List (List Char × RequestKey)
  samples : List (List Char × RequestKey)

def GateOp.included? : GateOp → Option (List Char × RequestKey)
  | .onConfirmed .propose key _ txHash _ => some (txHash, key)
  | _ => none

namespace Sampling

def init : Sampling := ⟨.new, [], []⟩

def step (keccak : List UInt8 → Bytes 32) (config : GateConfig) (s : Sampling) (op : GateOp) :
    Option Sampling :=
  (s.gate.step keccak config op).map fun gate =>
    { gate := gate
      confirmed := op.included?.toList ++ s.confirmed
      samples :=
        if s.gate.tips.length < gate.tips.length then op.included?.toList ++ s.samples
        else s.samples }

def TipUnknown (s : Sampling) : GateOp → Prop
  | .onConfirmed .propose key _ txHash _ =>
    (txHash, key) ∈ s.confirmed → s.gate.txTip txHash = none
  | _ => True

structure OneEach (s : Sampling) : Prop where
  nodup : s.samples.Nodup
  confirmed : ∀ item ∈ s.samples, item ∈ s.confirmed

variable {keccak : List UInt8 → Bytes 32} {config : GateConfig} {s s' : Sampling}

lemma OneEach.step (h : OneEach s) {op : GateOp} (hop : s.TipUnknown op)
    (hstep : s.step keccak config op = some s') : OneEach s' := by
  obtain ⟨gate, hgate, rfl⟩ := Option.map_eq_some_iff.mp hstep
  have hkeep : ∀ item ∈ s.samples, item ∈ op.included?.toList ++ s.confirmed :=
    fun item hitem => List.mem_append_right _ (h.confirmed item hitem)
  by_cases hmore : s.gate.tips.length < gate.tips.length
  · cases op with
    | onConfirmed kind key price txHash nowUs =>
      cases hgate
      cases kind with
      | propose =>
        have hknown : s.gate.txTip txHash ≠ none := by
          intro hnone
          unfold Gate.onConfirmed at hmore
          simp_all
        have hnew : (txHash, key) ∉ s.samples :=
          fun hmem => hknown (hop (h.confirmed _ hmem))
        refine ⟨?_, ?_⟩
        · rw [if_pos hmore]
          exact List.nodup_cons.mpr ⟨hnew, h.nodup⟩
        grind
      | dispute => exact absurd hmore (lt_irrefl _)
    | check _ | tipFloor _ | prune _ | loadSenders _ =>
      exact ⟨by rw [if_pos hmore]; exact h.nodup, by grind⟩
  · rw [if_neg hmore]
    exact ⟨h.nodup, hkeep⟩

lemma OneEach.of_run {ops : List GateOp}
    (hok : AllSteps (Sampling.step keccak config) TipUnknown .init ops)
    (hs : run (Sampling.step keccak config) .init ops = some s) : OneEach s :=
  run_invariant (fun _ _ _ h hop hstep => h.step hop hstep)
    ⟨List.nodup_nil, fun _ hitem => absurd hitem List.not_mem_nil⟩ hok hs

end Sampling

theorem repeated_confirmation_counts_once (keccak : List UInt8 → Bytes 32) (config : GateConfig)
    {before : List GateOp} {g : Gate} (kind : CallKind) (key : RequestKey) (price : Bytes 32)
    (txHash : List Char) (nowUs : ℕ) (hg : run (Gate.step keccak config) .new before = some g) :
    ((kind = .dispute ∨ g.txTip txHash = none) → ∀ after,
      run (Gate.step keccak config) .new (before ++ .onConfirmed kind key price txHash nowUs ::
          .onConfirmed kind key price txHash nowUs :: after) =
        run (Gate.step keccak config) .new
          (before ++ .onConfirmed kind key price txHash nowUs :: after)) ∧
    (∀ after g₁ g₂,
      run (Gate.step keccak config) .new
        (before ++ .onConfirmed kind key price txHash nowUs :: after) = some g₁ →
      run (Gate.step keccak config) .new (before ++ .onConfirmed kind key price txHash nowUs ::
          .onConfirmed kind key price txHash nowUs :: after) = some g₂ →
      g₁.senders = g₂.senders ∧
        ∀ sender, g₁.trusted config sender = g₂.trusted config sender) ∧
    ∀ ops s, AllSteps (Sampling.step keccak config) Sampling.TipUnknown .init ops →
      run (Sampling.step keccak config) .init ops = some s → s.samples.Nodup := by
  have hrun : ∀ rest, run (Gate.step keccak config) .new (before ++ rest) =
      run (Gate.step keccak config) g rest := by
    intro rest
    rw [run_append, hg, Option.bind_some]
  refine ⟨fun hknown after => ?_, fun after g₁ g₂ h₁ h₂ => ?_, fun ops s hok hs => ?_⟩
  · rw [hrun, hrun]
    show run _ ((g.onConfirmed kind key price txHash nowUs).onConfirmed kind key price txHash nowUs)
      after = run _ (g.onConfirmed kind key price txHash nowUs) after
    rw [Gate.onConfirmed_twice_of_sample hknown]
  · rw [hrun] at h₁ h₂
    have halike : AlikeScores (g.onConfirmed kind key price txHash nowUs)
        ((g.onConfirmed kind key price txHash nowUs).onConfirmed kind key price txHash nowUs) := by
      rw [Gate.onConfirmed_twice]
      exact ⟨rfl, rfl, rfl, fun _ => rfl⟩
    have hsenders := (halike.run h₁ h₂).senders
    refine ⟨hsenders, fun sender => ?_⟩
    unfold Gate.trusted
    rw [hsenders]
  · exact (Sampling.OneEach.of_run hok hs).nodup

/-- The confirmation of a proposal whose transaction was never pending. -/
theorem repeated_confirmation_of_unseen :
    run (Gate.step testKeccak testGate) .new
        [.check (testPending .propose 10 0 9 "0xa" 1),
          .onConfirmed .propose (testKey 10) (Bytes.fill 32 0) "0xb".toList 2,
          .onConfirmed .propose (testKey 10) (Bytes.fill 32 0) "0xb".toList 2, .tipFloor 3] =
      run (Gate.step testKeccak testGate) .new
        [.check (testPending .propose 10 0 9 "0xa" 1),
          .onConfirmed .propose (testKey 10) (Bytes.fill 32 0) "0xb".toList 2, .tipFloor 3] := by
  have hvals : ((run (Gate.step testKeccak testGate) .new
      [.check (testPending .propose 10 0 9 "0xa" 1)]).map fun g => g.txTip "0xb".toList) =
      some none := by decide +kernel
  obtain ⟨g, hg, hunknown⟩ := Option.map_eq_some_iff.mp hvals
  exact (repeated_confirmation_counts_once testKeccak testGate .propose (testKey 10)
    (Bytes.fill 32 0) "0xb".toList 2 hg).1 (Or.inr hunknown) [.tipFloor 3]

def twoTips : GateConfig := { testGate with tipMinSamples := 2 }

def beforeConfirmation : List GateOp :=
  [.loadSenders [(Bytes.fill 20 9, ⟨100, 0⟩)], .check (testPending .propose 10 0 9 "0xa" 1)]

/-- **A proposal that is dropped because a confirmation came twice.** The tip of the confirmed
transaction is in the window twice, so there are enough for a floor, and the next proposal of the
sender is below it. -/
theorem repeated_confirmation_raises_floor :
    ∃ g₁ g₂, run (Gate.step testKeccak twoTips) .new (beforeConfirmation ++
        [.onConfirmed .propose (testKey 10) (Bytes.fill 32 0) "0xa".toList 2]) = some g₁ ∧
      run (Gate.step testKeccak twoTips) .new (beforeConfirmation ++
        [.onConfirmed .propose (testKey 10) (Bytes.fill 32 0) "0xa".toList 2,
          .onConfirmed .propose (testKey 10) (Bytes.fill 32 0) "0xa".toList 2]) = some g₂ ∧
      (g₁.tipFloor twoTips 3).map Prod.snd = some none ∧
      (g₂.tipFloor twoTips 3).map Prod.snd = some (some 100) ∧
      (g₁.check testKeccak twoTips
        { testPending .propose 20 1 9 "0xb" 3 with tipGwei := 50 }).map Prod.snd = some .emit ∧
      (g₂.check testKeccak twoTips
        { testPending .propose 20 1 9 "0xb" 3 with tipGwei := 50 }).map Prod.snd =
          some (.drop .lowTip) :=
  exists_some₂_imp (by decide +kernel) fun _ _ _ _ h => h

end RustUma.Mempool
