import Mathlib.Data.List.Sort
import RustUma.Found.Run
import RustUma.Mempool.Calldata

/-!
# The gate in front of the pipeline (`src/mempool/gate.rs`)

A pending call is let through once for each request and kind, if nothing about the request has been
confirmed yet, no newer round of its market has been seen, its sender has been right often enough
and its tip is not too low.

The two tests that the source makes in floating point are parameters of the configuration. The
counters of what was let through and dropped are left out. A panic ends the process; an operation
that panics has no result here.
-/

namespace RustUma.Mempool

open RustUma.Found RustUma.Model

/-! ## Requests -/

structure GateConfig where
  trustMinN : ℕ
  trustMinRate : ℕ → ℕ → Bool
  tipQuantile : ℕ → ℕ
  tipWindowUs : ℕ
  tipMinSamples : ℕ
  stateTtlUs : ℕ

inductive Drop
  | alreadyProposed
  | alreadyDisputed
  | duplicate
  | conflict
  | staleRound
  | untrusted
  | lowTip
  deriving DecidableEq

inductive Verdict
  | emit
  | drop (why : Drop)
  deriving DecidableEq

structure Marks where
  emittedPrice : Option (Bytes 32) := none
  emittedDispute : Bool := false
  proposed : Option (Bytes 32) := none
  disputed : Bool := false
  deriving DecidableEq

structure ReqState extends Marks where
  pendings : List (Bytes 20 × Bytes 32) := []
  touchedUs : ℕ := 0
  deriving DecidableEq

structure SenderStat where
  agree : ℕ
  disagree : ℕ
  deriving DecidableEq

def Marks.emit (m : Marks) (kind : CallKind) (price : Bytes 32) : Marks :=
  match kind with
  | .propose => { m with emittedPrice := some price }
  | .dispute => { m with emittedDispute := true }

def Marks.judge (m : Marks) (kind : CallKind) (price : Bytes 32) (trusted lowTip : Bool) :
    Marks × Verdict :=
  match kind with
  | .propose =>
    if m.disputed then (m, .drop .alreadyDisputed)
    else if m.proposed.isSome then (m, .drop .alreadyProposed)
    else
      match m.emittedPrice with
      | some p => (m, .drop (if p = price then .duplicate else .conflict))
      | none =>
        if !trusted then (m, .drop .untrusted)
        else if lowTip then (m, .drop .lowTip)
        else (m.emit .propose price, .emit)
  | .dispute =>
    if m.disputed then (m, .drop .alreadyDisputed)
    else if m.emittedDispute then (m, .drop .duplicate)
    else if lowTip then (m, .drop .lowTip)
    else (m.emit .dispute price, .emit)

def Marks.confirm (m : Marks) (kind : CallKind) (price : Bytes 32) : Marks :=
  match kind with
  | .propose => if m.proposed.isNone then { m with proposed := some price } else m
  | .dispute => { m with disputed := true }

def ReqState.record (st : ReqState) (kind : CallKind) (sender : Bytes 20) (price : Bytes 32) :
    ReqState :=
  if kind = .propose ∧ st.pendings.length < 32 then
    { st with pendings := st.pendings ++ [(sender, price)] }
  else st

/-! ## The gate -/

structure Gate where
  reqs : RequestKey → Option ReqState
  latestRound : Bytes 20 × Bytes 32 → Option ℕ
  senders : Bytes 20 → SenderStat
  tips : List (ℕ × ℕ)
  txTip : List Char → Option (ℕ × ℕ)

structure Pending where
  call : OracleCall
  sender : Bytes 20
  tipGwei : ℕ
  txHash : List Char
  nowUs : ℕ
  deriving DecidableEq

def score (price : Bytes 32) (senders : Bytes 20 → SenderStat)
    (pendings : List (Bytes 20 × Bytes 32)) : Bytes 20 → SenderStat :=
  pendings.foldl (fun senders entry =>
    Function.update senders entry.1
      (if entry.2 = price then { senders entry.1 with agree := (senders entry.1).agree + 1 }
      else { senders entry.1 with disagree := (senders entry.1).disagree + 1 })) senders

namespace Gate

def new : Gate := ⟨fun _ => none, fun _ => none, fun _ => ⟨0, 0⟩, [], fun _ => none⟩

def trusted (config : GateConfig) (g : Gate) (sender : Bytes 20) : Bool :=
  let n := (g.senders sender).agree + (g.senders sender).disagree
  decide (config.trustMinN ≤ n) && config.trustMinRate (g.senders sender).agree n

def recentTips (config : GateConfig) (tips : List (ℕ × ℕ)) (nowUs : ℕ) : List (ℕ × ℕ) :=
  tips.dropWhile fun tip => config.tipWindowUs < nowUs - tip.1

def floorOf (config : GateConfig) (tips : List (ℕ × ℕ)) : Option (Option ℕ) :=
  if tips.length < config.tipMinSamples then some none
  else (((tips.map Prod.snd).insertionSort (· ≤ ·))[config.tipQuantile tips.length]?).map some

def tipFloor (config : GateConfig) (g : Gate) (nowUs : ℕ) : Option (Gate × Option ℕ) :=
  let tips := recentTips config g.tips nowUs
  (floorOf config tips).map fun floor => ({ g with tips := tips }, floor)

section Keccak

variable (keccak : List UInt8 → Bytes 32) (config : GateConfig)

def check (g : Gate) (p : Pending) : Option (Gate × Verdict) :=
  let key := p.call.requestKey keccak
  let g := { g with txTip := Function.update g.txTip p.txHash (some (p.nowUs, p.tipGwei)) }
  if key.timestamp < (g.latestRound key.market).getD key.timestamp then
    some (g, .drop .staleRound)
  else
    let g := { g with
      latestRound := Function.update g.latestRound key.market (some key.timestamp) }
    (g.tipFloor config p.nowUs).map fun (g, floor) =>
      let st := { (g.reqs key).getD {} with touchedUs := p.nowUs }
      let st := st.record p.call.kind p.sender p.call.price
      let (marks, verdict) := st.toMarks.judge p.call.kind p.call.price
        (g.trusted config p.sender) (floor.any fun f => decide (p.tipGwei < f))
      ({ g with reqs := Function.update g.reqs key (some { st with toMarks := marks }) }, verdict)

end Keccak

def onConfirmed (g : Gate) (kind : CallKind) (key : RequestKey) (price : Bytes 32)
    (txHash : List Char) (nowUs : ℕ) : Gate :=
  let round := max ((g.latestRound key.market).getD key.timestamp) key.timestamp
  let st := (g.reqs key).getD {}
  let first := decide (kind = .propose) && st.proposed.isNone
  { reqs := Function.update g.reqs key (some
      { toMarks := st.toMarks.confirm kind price
        pendings := if first then [] else st.pendings
        touchedUs := nowUs })
    latestRound := Function.update g.latestRound key.market (some round)
    senders := if first then score price g.senders st.pendings else g.senders
    tips :=
      if kind = .propose then g.tips ++ (g.txTip txHash).toList.map fun tip => (nowUs, tip.2)
      else g.tips
    txTip := g.txTip }

def prune (config : GateConfig) (g : Gate) (nowUs : ℕ) : Gate :=
  { g with
    reqs := fun key => (g.reqs key).filter fun st => nowUs - st.touchedUs < config.stateTtlUs
    txTip := fun txHash => (g.txTip txHash).filter fun tip => nowUs - tip.1 < config.tipWindowUs }

def loadSenders (g : Gate) (stats : List (Bytes 20 × SenderStat)) : Gate :=
  { g with
    senders := stats.foldl (fun senders entry =>
      Function.update senders entry.1
        ⟨max (senders entry.1).agree entry.2.agree,
          max (senders entry.1).disagree entry.2.disagree⟩) g.senders }

end Gate

inductive GateOp
  | check (p : Pending)
  | onConfirmed (kind : CallKind) (key : RequestKey) (price : Bytes 32) (txHash : List Char)
      (nowUs : ℕ)
  | tipFloor (nowUs : ℕ)
  | prune (nowUs : ℕ)
  | loadSenders (stats : List (Bytes 20 × SenderStat))
  deriving DecidableEq

namespace Gate

section Step

variable (keccak : List UInt8 → Bytes 32) (config : GateConfig)

def step (g : Gate) : GateOp → Option Gate
  | .check p => (g.check keccak config p).map Prod.fst
  | .onConfirmed kind key price txHash nowUs => some (g.onConfirmed kind key price txHash nowUs)
  | .tipFloor nowUs => (g.tipFloor config nowUs).map Prod.fst
  | .prune nowUs => some (g.prune config nowUs)
  | .loadSenders stats => some (g.loadSenders stats)

inductive Checked (g : Gate) (p : Pending) : Gate → Verdict → Prop
  | stale {round : ℕ} (hround : g.latestRound (p.call.requestKey keccak).market = some round)
      (hold : (p.call.requestKey keccak).timestamp < round) :
      Checked g p
        { g with txTip := Function.update g.txTip p.txHash (some (p.nowUs, p.tipGwei)) }
        (.drop .staleRound)
  | judged {floor : Option ℕ} {st : ReqState} {judgement : Marks × Verdict}
      (hround : ∀ round, g.latestRound (p.call.requestKey keccak).market = some round →
        round ≤ (p.call.requestKey keccak).timestamp)
      (hfloor : floorOf config (recentTips config g.tips p.nowUs) = some floor)
      (hst : st = ({ (g.reqs (p.call.requestKey keccak)).getD {} with
        touchedUs := p.nowUs }).record p.call.kind p.sender p.call.price)
      (hjudge : judgement = st.toMarks.judge p.call.kind p.call.price (g.trusted config p.sender)
        (floor.any fun f => decide (p.tipGwei < f))) :
      Checked g p
        { reqs := Function.update g.reqs (p.call.requestKey keccak)
            (some { st with toMarks := judgement.1 })
          latestRound := Function.update g.latestRound (p.call.requestKey keccak).market
            (some (p.call.requestKey keccak).timestamp)
          senders := g.senders
          tips := recentTips config g.tips p.nowUs
          txTip := Function.update g.txTip p.txHash (some (p.nowUs, p.tipGwei)) }
        judgement.2

end Step

section Facts

variable {keccak : List UInt8 → Bytes 32} {config : GateConfig} {g g' : Gate} {p : Pending}

lemma check_sound {verdict : Verdict} (h : g.check keccak config p = some (g', verdict)) :
    Checked keccak config g p g' verdict := by
  unfold check at h
  dsimp only at h
  split_ifs at h with hstale
  · cases h
    cases hround : g.latestRound (p.call.requestKey keccak).market with
    | none =>
      simp_all
    | some round =>
      rw [hround] at hstale
      exact .stale hround hstale
  · obtain ⟨⟨t, floor⟩, hfloor, hresult⟩ := Option.map_eq_some_iff.mp h
    obtain ⟨floor, hfloor, heq⟩ := Option.map_eq_some_iff.mp hfloor
    cases heq
    cases hresult
    refine .judged (fun round hround => ?_) hfloor rfl rfl
    simp_all

lemma step_check (h : g.step keccak config (.check p) = some g') :
    ∃ verdict, Checked keccak config g p g' verdict := by
  obtain ⟨⟨t, verdict⟩, hcheck, rfl⟩ := Option.map_eq_some_iff.mp h
  exact ⟨verdict, check_sound hcheck⟩

lemma step_tipFloor {nowUs : ℕ} (h : g.step keccak config (.tipFloor nowUs) = some g') :
    { g with tips := recentTips config g.tips nowUs } = g' := by
  obtain ⟨⟨t, floor⟩, htip, rfl⟩ := Option.map_eq_some_iff.mp h
  obtain ⟨floor, -, heq⟩ := Option.map_eq_some_iff.mp htip
  grind

lemma record_toMarks (st : ReqState) (kind : CallKind) (sender : Bytes 20) (price : Bytes 32) :
    (st.record kind sender price).toMarks = st.toMarks := by
  unfold ReqState.record
  split_ifs <;> rfl

end Facts

end Gate

/-! ## What is not taken back -/

structure Marks.Le (m m' : Marks) : Prop where
  emittedPrice : m.emittedPrice.isSome = true → m'.emittedPrice.isSome = true
  emittedDispute : m.emittedDispute = true → m'.emittedDispute = true
  proposed : m.proposed.isSome = true → m'.proposed.isSome = true
  disputed : m.disputed = true → m'.disputed = true

namespace Marks

lemma Le.refl (m : Marks) : m.Le m := ⟨id, id, id, id⟩

lemma Le.trans {m m' m'' : Marks} (h : m.Le m') (h' : m'.Le m'') : m.Le m'' :=
  ⟨h'.emittedPrice ∘ h.emittedPrice, h'.emittedDispute ∘ h.emittedDispute,
    h'.proposed ∘ h.proposed, h'.disputed ∘ h.disputed⟩

variable {m : Marks} {kind : CallKind} {price : Bytes 32} {trusted lowTip : Bool}

def Open (m : Marks) : CallKind → Prop
  | .propose => m.emittedPrice = none ∧ m.proposed = none ∧ m.disputed = false
  | .dispute => m.emittedDispute = false ∧ m.disputed = false

lemma judge_cases (m : Marks) (kind : CallKind) (price : Bytes 32) (trusted lowTip : Bool) :
    m.Open kind ∧ m.judge kind price trusted lowTip = (m.emit kind price, .emit) ∨
      ∃ why, m.judge kind price trusted lowTip = (m, .drop why) := by
  unfold judge
  cases kind with
  | propose =>
    cases hemitted : m.emittedPrice with
    | some price' =>
      grind
    | none =>
      dsimp only
      split_ifs with hdisputed hproposed htrusted hlow
      · simp
      · simp
      · simp
      · simp
      · refine Or.inl ⟨⟨hemitted, ?_, Bool.eq_false_iff.mpr hdisputed⟩, rfl⟩
        simp_all
  | dispute =>
    dsimp only
    split_ifs with hdisputed hemitted hlow
    · simp
    · simp
    · simp
    · exact Or.inl ⟨⟨Bool.eq_false_iff.mpr hemitted, Bool.eq_false_iff.mpr hdisputed⟩, rfl⟩

lemma judge_untrusted : (m.judge .propose price false lowTip).2 ≠ .emit := by
  have hdrop : ∀ why, Verdict.drop why ≠ .emit := fun _ hne => by cases hne
  unfold judge
  grind

lemma le_emit : m.Le (m.emit kind price) := by
  cases kind with
  | propose => exact ⟨fun _ => rfl, id, id, id⟩
  | dispute => exact ⟨id, fun _ => rfl, id, id⟩

lemma not_open_of_emit {m' : Marks} (h : (m.emit kind price).Le m') : ¬m'.Open kind := by
  intro hopen
  cases kind with
  | propose =>
    have hset := h.emittedPrice rfl
    rw [hopen.1] at hset
    cases hset
  | dispute =>
    have hset := h.emittedDispute rfl
    rw [hopen.1] at hset
    cases hset

lemma le_confirm : m.Le (m.confirm kind price) := by
  unfold confirm
  cases kind with
  | propose =>
    split_ifs
    · exact ⟨id, id, fun _ => rfl, id⟩
    · exact .refl m
  | dispute => exact ⟨id, id, id, fun _ => rfl⟩

lemma not_open_of_confirm {m' : Marks} {kind' : CallKind} (h : (m.confirm kind' price).Le m')
    (hkind : kind = .propose ∨ kind' = .dispute) : ¬m'.Open kind := by
  intro hopen
  cases kind' with
  | propose =>
    obtain rfl : kind = .propose := by
      simp_all
    have hset : (m.confirm .propose price).proposed.isSome = true := by
      unfold confirm
      split_ifs with hnone
      · rfl
      · simpa [Option.isSome_iff_ne_none] using hnone
    have hset := h.proposed hset
    rw [hopen.2.1] at hset
    cases hset
  | dispute =>
    have hset := h.disputed rfl
    cases kind with
    | propose =>
      rw [hopen.2.2] at hset
      cases hset
    | dispute =>
      rw [hopen.2] at hset
      cases hset

end Marks

namespace Gate

variable {keccak : List UInt8 → Bytes 32} {config : GateConfig} {g g' : Gate} {op : GateOp}
  {key : RequestKey}

def Kept (config : GateConfig) (key : RequestKey) (g : Gate) : GateOp → Prop
  | .prune nowUs => ∀ st ∈ g.reqs key, nowUs - st.touchedUs < config.stateTtlUs
  | _ => True

instance (config : GateConfig) (key : RequestKey) (g : Gate) (op : GateOp) :
    Decidable (Kept config key g op) := by
  cases op <;> unfold Kept <;> infer_instance

def marks (g : Gate) (key : RequestKey) : Marks := ((g.reqs key).getD {}).toMarks

lemma marks_of_reqs {st : ReqState} (h : g.reqs key = some st) : g.marks key = st.toMarks := by
  unfold marks
  rw [h]
  rfl

lemma marks_congr (h : g'.reqs key = g.reqs key) : g'.marks key = g.marks key := by
  unfold marks
  rw [h]

variable {p : Pending} {verdict : Verdict}

lemma Checked.marks_self (h : Checked keccak config g p g' verdict)
    (hkey : p.call.requestKey keccak = key) :
    (g.marks key).Open p.call.kind ∧ verdict = .emit ∧
        g'.marks key = (g.marks key).emit p.call.kind p.call.price ∨
      verdict ≠ .emit ∧ g'.marks key = g.marks key := by
  subst hkey
  cases h with
  | stale hround hold => exact Or.inr ⟨(by decide), rfl⟩
  | @judged floor st judgement hround hfloor hst hjudge =>
    have hmarks : st.toMarks = g.marks (p.call.requestKey keccak) := by
      rw [hst, record_toMarks]
      rfl
    have hafter : ∀ t : Gate, t.reqs (p.call.requestKey keccak) =
        some { st with toMarks := judgement.1 } →
          t.marks (p.call.requestKey keccak) = judgement.1 := fun t => marks_of_reqs
    rw [hmarks] at hjudge
    rcases Marks.judge_cases (g.marks (p.call.requestKey keccak)) p.call.kind p.call.price
      (g.trusted config p.sender) (floor.any fun f => decide (p.tipGwei < f)) with
      ⟨hopen, h⟩ | ⟨why, h⟩
    · simp_all
    simp_all

lemma Checked.marks_of_untrusted (h : Checked keccak config g p g' verdict)
    (hkind : p.call.kind = .propose) (huntrusted : g.trusted config p.sender = false)
    (hkey : p.call.requestKey keccak = key) :
    g'.marks key = g.marks key := by
  have hverdict : verdict ≠ .emit := by
    cases h with
    | stale hround hold => decide
    | judged hround hfloor hst hjudge =>
      rw [hjudge, hkind, huntrusted]
      exact Marks.judge_untrusted
  rcases h.marks_self hkey with ⟨-, hemit, -⟩ | ⟨-, hmarks⟩
  · grind
  · exact hmarks

lemma Checked.marks_of_ne (h : Checked keccak config g p g' verdict)
    (hkey : key ≠ p.call.requestKey keccak) :
    g'.marks key = g.marks key := by
  cases h with
  | stale hround hold => rfl
  | judged hround hfloor hst hjudge => exact marks_congr (Function.update_of_ne hkey _ _)

lemma Checked.marks_le (h : Checked keccak config g p g' verdict) (key : RequestKey) :
    (g.marks key).Le (g'.marks key) := by
  by_cases hkey : p.call.requestKey keccak = key
  · rcases h.marks_self hkey with ⟨-, -, hmarks⟩ | ⟨-, hmarks⟩
    · rw [hmarks]
      exact Marks.le_emit
    · rw [hmarks]
      exact .refl _
  · rw [h.marks_of_ne (Ne.symm hkey)]
    exact .refl _

lemma marks_onConfirmed (kind : CallKind) (price : Bytes 32) (txHash : List Char) (nowUs : ℕ) :
    (g.onConfirmed kind key price txHash nowUs).marks key = (g.marks key).confirm kind price := by
  have hreqs : (g.onConfirmed kind key price txHash nowUs).reqs key = some _ :=
    Function.update_self _ _ _
  rw [marks_of_reqs hreqs]
  rfl

lemma marks_prune {nowUs : ℕ} (hkept : Kept config key g (.prune nowUs)) :
    (g.prune config nowUs).marks key = g.marks key := by
  refine marks_congr ?_
  show (g.reqs key).filter _ = _
  cases hst : g.reqs key with
  | none => rfl
  | some st => exact Option.filter_some_pos (decide_eq_true (hkept st hst))

lemma step_marks (hkept : Kept config key g op) (h : g.step keccak config op = some g') :
    (g.marks key).Le (g'.marks key) := by
  cases op with
  | check p =>
    obtain ⟨verdict, hcheck⟩ := step_check h
    exact hcheck.marks_le key
  | onConfirmed kind other price txHash nowUs =>
    cases h
    by_cases hkey : key = other
    · subst hkey
      rw [marks_onConfirmed]
      exact Marks.le_confirm
    · have hreqs : (g.onConfirmed kind other price txHash nowUs).reqs key = g.reqs key :=
        Function.update_of_ne hkey _ _
      rw [marks_congr hreqs]
      exact .refl _
  | tipFloor nowUs =>
    obtain rfl := step_tipFloor h
    exact .refl _
  | prune nowUs =>
    cases h
    rw [marks_prune hkept]
    exact .refl _
  | loadSenders stats =>
    cases h
    exact .refl _

lemma run_marks {ops : List GateOp} (hkept : AllSteps (step keccak config) (Kept config key) g ops)
    (h : run (step keccak config) g ops = some g') : (g.marks key).Le (g'.marks key) :=
  run_invariant (I := fun t => (g.marks key).Le (t.marks key))
    (fun _ _ _ hle hkept hstep => hle.trans (step_marks hkept hstep)) (.refl _) hkept h

/-! ## Rounds -/

def Seen (g : Gate) (market : Bytes 20 × Bytes 32) (t : ℕ) : Prop :=
  ∃ round ∈ g.latestRound market, t ≤ round

end Gate

def GateOp.key? (keccak : List UInt8 → Bytes 32) : GateOp → Option RequestKey
  | .check p => some (p.call.requestKey keccak)
  | .onConfirmed _ key _ _ _ => some key
  | _ => none

namespace Gate

variable {keccak : List UInt8 → Bytes 32} {config : GateConfig} {g g' : Gate} {op : GateOp}
  {key : RequestKey} {market : Bytes 20 × Bytes 32} {t : ℕ}

lemma Seen.update {other : Bytes 20 × Bytes 32} {round : ℕ} (h : g.Seen market t)
    (hround : ∀ r ∈ g.latestRound other, r ≤ round)
    (hnext : g'.latestRound = Function.update g.latestRound other (some round)) :
    g'.Seen market t := by
  obtain ⟨r, hr, hle⟩ := h
  unfold Seen
  rw [hnext]
  by_cases hsame : market = other
  · subst hsame
    rw [Function.update_self]
    exact ⟨round, rfl, hle.trans (hround r hr)⟩
  simp_all

lemma Seen.self {round : ℕ} (hnext : g'.latestRound = Function.update g.latestRound market
    (some round)) (hle : t ≤ round) : g'.Seen market t :=
  ⟨round, by simp_all, hle⟩

lemma le_onConfirmed_round : ∀ r ∈ g.latestRound key.market,
    r ≤ max ((g.latestRound key.market).getD key.timestamp) key.timestamp := by
  simp_all

lemma step_round (h : g.step keccak config op = some g') :
    (∀ market t, g.Seen market t → g'.Seen market t) ∧
      ∀ k, op.key? keccak = some k → g'.Seen k.market k.timestamp := by
  cases op with
  | check p =>
    obtain ⟨verdict, hcheck⟩ := step_check h
    cases hcheck with
    | stale hround hold =>
      refine ⟨fun _ _ => id, fun k hk => ?_⟩
      cases hk
      exact ⟨_, hround, hold.le⟩
    | judged hround hfloor hst hjudge =>
      refine ⟨fun _ _ hseen => hseen.update hround rfl, fun k hk => ?_⟩
      cases hk
      exact Seen.self rfl le_rfl
  | onConfirmed kind other price txHash nowUs =>
    cases h
    refine ⟨fun _ _ hseen => hseen.update le_onConfirmed_round rfl, fun k hk => ?_⟩
    cases hk
    exact Seen.self rfl (le_max_right _ _)
  | tipFloor nowUs =>
    obtain rfl := step_tipFloor h
    exact ⟨fun _ _ => id, fun k hk => by cases hk⟩
  | prune nowUs | loadSenders stats =>
    cases h
    exact ⟨fun _ _ => id, fun k hk => by cases hk⟩

lemma run_round {ops : List GateOp} (h : run (step keccak config) g ops = some g')
    (hseen : g.Seen market t) : g'.Seen market t :=
  run_invariant_of_step (I := fun g => g.Seen market t)
    (fun _ _ _ hseen hstep => (step_round hstep).1 market t hseen) hseen h

lemma Checked.newest {p : Pending} (h : Checked keccak config g p g' .emit)
    (hseen : g.Seen (p.call.requestKey keccak).market t) :
    t ≤ (p.call.requestKey keccak).timestamp := by
  obtain ⟨round, hround, hle⟩ := hseen
  generalize hverdict : Verdict.emit = verdict at h
  cases h with
  | stale _ _ => cases hverdict
  | judged hnewest _ _ _ => exact hle.trans (hnewest round hround)

end Gate

theorem gate_emits_once_and_never_late (keccak : List UInt8 → Bytes 32) (config : GateConfig)
    {before between : List GateOp} {op : GateOp} {p : Pending} {g g₁ g₂ g₃ : Gate}
    (hkept : AllSteps (Gate.step keccak config) (Gate.Kept config (p.call.requestKey keccak)) .new
      (before ++ op :: between))
    (hbefore : run (Gate.step keccak config) .new before = some g)
    (hop : g.step keccak config op = some g₁)
    (hbetween : run (Gate.step keccak config) g₁ between = some g₂)
    (hemit : g₂.check keccak config p = some (g₃, .emit)) :
    (∀ q g', op = .check q → q.call.requestKey keccak = p.call.requestKey keccak →
      q.call.kind = p.call.kind → g.check keccak config q ≠ some (g', .emit)) ∧
    (∀ kind price txHash nowUs,
      op = .onConfirmed kind (p.call.requestKey keccak) price txHash nowUs →
        p.call.kind = .dispute ∧ kind = .propose) ∧
    (∀ k, op.key? keccak = some k → k.market = (p.call.requestKey keccak).market →
      k.timestamp ≤ (p.call.requestKey keccak).timestamp) := by
  have hchecked := Gate.check_sound hemit
  have hopen : (g₂.marks (p.call.requestKey keccak)).Open p.call.kind := by
    rcases hchecked.marks_self rfl with ⟨hopen, -, -⟩ | ⟨hne, -⟩
    · exact hopen
    · exact absurd rfl hne
  have hmarks : (g₁.marks (p.call.requestKey keccak)).Le (g₂.marks (p.call.requestKey keccak)) := by
    refine Gate.run_marks ?_ hbetween
    have hrest := hkept.drop hbefore
    rw [AllSteps, hop] at hrest
    exact hrest.2
  refine ⟨fun q g' hq hkey hkind hcheck => ?_, fun kind price txHash nowUs hconfirmed => ?_,
    fun k hk hmarket => ?_⟩
  · subst hq
    have hg' : g₁ = g' := by
      rw [Gate.step, hcheck] at hop
      simp_all
    subst hg'
    rcases (Gate.check_sound hcheck).marks_self hkey with ⟨-, -, hset⟩ | ⟨hne, -⟩
    · rw [hset, hkind] at hmarks
      exact Marks.not_open_of_emit hmarks hopen
    · exact hne rfl
  · subst hconfirmed
    cases hop
    rw [Gate.marks_onConfirmed] at hmarks
    have hnot : ¬(p.call.kind = .propose ∨ kind = .dispute) := fun hkinds =>
      Marks.not_open_of_confirm hmarks hkinds hopen
    cases hkind : p.call.kind with
    | propose => simp_all
    | dispute =>
      refine ⟨rfl, ?_⟩
      cases kind with
      | propose => rfl
      | dispute => simp_all
  · have hseen := Gate.run_round hbetween (Gate.step_round hop |>.2 k hk)
    rw [hmarket] at hseen
    exact hchecked.newest hseen

def testGate : GateConfig where
  trustMinN := 1
  trustMinRate := fun agree n => decide (n ≤ 2 * agree)
  tipQuantile := fun _ => 0
  tipWindowUs := 3600000000
  tipMinSamples := 20
  stateTtlUs := 604800000000

def testPending (kind : CallKind) (ts : ℕ) (price sender : UInt8) (txHash : String) (nowUs : ℕ) :
    Pending :=
  ⟨testCall kind ts price testAncillary, Bytes.fill 20 sender, 100, txHash.toList, nowUs⟩

def testKey (ts : ℕ) : RequestKey := (testCall .propose ts 0 testAncillary).requestKey testKeccak

/-- A proposal is let through, confirmed and disputed; the question is asked again, and a proposal
for the new round is let through. -/
theorem gate_emits_new_round :
    ∃ g g₁ g₂ g₃, run (Gate.step testKeccak testGate) .new
        [.loadSenders [(Bytes.fill 20 9, ⟨100, 0⟩)]] = some g ∧
      g.step testKeccak testGate (.check (testPending .propose 10 0 9 "0xa" 1)) = some g₁ ∧
      run (Gate.step testKeccak testGate) g₁
        [.onConfirmed .propose (testKey 10) (Bytes.fill 32 0) "0xa".toList 2,
          .onConfirmed .dispute (testKey 10) (Bytes.fill 32 0) "0xd".toList 3,
          .prune 4] = some g₂ ∧
      g₂.check testKeccak testGate (testPending .propose 20 1 9 "0xb" 5) = some (g₃, .emit) ∧
      (testKey 10).timestamp ≤ (testKey 20).timestamp := by
  have hvals : ((run (Gate.step testKeccak testGate) .new
        [.loadSenders [(Bytes.fill 20 9, ⟨100, 0⟩)]]).bind fun g =>
      (g.step testKeccak testGate (.check (testPending .propose 10 0 9 "0xa" 1))).bind fun g₁ =>
        (run (Gate.step testKeccak testGate) g₁
          [.onConfirmed .propose (testKey 10) (Bytes.fill 32 0) "0xa".toList 2,
            .onConfirmed .dispute (testKey 10) (Bytes.fill 32 0) "0xd".toList 3,
            .prune 4]).bind fun g₂ =>
          (g₂.check testKeccak testGate (testPending .propose 20 1 9 "0xb" 5)).map Prod.snd) =
      some .emit := by decide +kernel
  obtain ⟨g, hg, hvals⟩ := Option.bind_eq_some_iff.mp hvals
  obtain ⟨g₁, hg₁, hvals⟩ := Option.bind_eq_some_iff.mp hvals
  obtain ⟨g₂, hg₂, hvals⟩ := Option.bind_eq_some_iff.mp hvals
  obtain ⟨⟨g₃, verdict⟩, hg₃, hverdict⟩ := Option.map_eq_some_iff.mp hvals
  obtain rfl : verdict = .emit := hverdict
  have hlate := (gate_emits_once_and_never_late testKeccak testGate (by decide +kernel) hg hg₁ hg₂
    hg₃).2.2 (testKey 10) rfl rfl
  exact ⟨g, g₁, g₂, g₃, hg, hg₁, hg₂, hg₃, hlate⟩

end RustUma.Mempool
