import RustUma.Mempool.Gate

/-!
# Pending calls that were put in (`src/mempool/gate.rs`)

Two traces of gate operations side by side: the second has more checks of proposals in it, by
senders that are not trusted, from transactions that are never confirmed.
-/

namespace RustUma.Mempool

open RustUma.Found RustUma.Model

/-! ## Two gates -/

inductive TwinOp
  | both (op : GateOp)
  | insert (p : Pending)
  deriving DecidableEq

structure Twin where
  alone : Gate
  joined : Gate
  visited : List RequestKey
  hashes : List (List Char)
  clock : ℕ

def GateOp.now? : GateOp → Option ℕ
  | .check p => some p.nowUs
  | .onConfirmed _ _ _ _ nowUs => some nowUs
  | .tipFloor nowUs => some nowUs
  | .prune nowUs => some nowUs
  | .loadSenders _ => none

def Gate.isStale (g : Gate) (key : RequestKey) : Bool :=
  (g.latestRound key.market).any fun round => decide (key.timestamp < round)

def TwinOp.own? : TwinOp → Option GateOp
  | .both op => some op
  | .insert _ => none

def TwinOp.op : TwinOp → GateOp
  | .both op => op
  | .insert p => .check p

namespace Twin

def init : Twin := ⟨.new, .new, [], [], 0⟩

section Step

variable (keccak : List UInt8 → Bytes 32) (config : GateConfig)

def step (s : Twin) : TwinOp → Option Twin
  | .both op =>
    (s.alone.step keccak config op).bind fun alone =>
      (s.joined.step keccak config op).map fun joined =>
        { s with alone := alone, joined := joined, clock := op.now?.getD s.clock }
  | .insert p =>
    (s.joined.step keccak config (.check p)).map fun joined =>
      { s with
        joined := joined
        visited :=
          if s.joined.isStale (p.call.requestKey keccak) then s.visited
          else p.call.requestKey keccak :: s.visited
        hashes := p.txHash :: s.hashes
        clock := p.nowUs }

def Harmless (s : Twin) : TwinOp → Prop
  | .insert p =>
    p.call.kind = .propose ∧ s.joined.trusted config p.sender = false ∧ s.clock ≤ p.nowUs ∧
      ∃ round ∈ s.joined.latestRound (p.call.requestKey keccak).market,
        (p.call.requestKey keccak).timestamp ≤ round
  | .both (.onConfirmed kind key _ txHash nowUs) =>
    s.clock ≤ nowUs ∧ txHash ∉ s.hashes ∧
      (kind = .propose → key ∈ s.visited → (s.joined.marks key).proposed.isSome = true)
  | .both (.prune nowUs) =>
    s.clock ≤ nowUs ∧ ∀ key ∈ s.visited,
      s.alone.Kept config key (.prune nowUs) ∧ s.joined.Kept config key (.prune nowUs)
  | .both op => ∀ nowUs ∈ op.now?, s.clock ≤ nowUs

end Step

structure Alike (config : GateConfig) (s : Twin) : Prop where
  rounds : s.alone.latestRound = s.joined.latestRound
  senders : s.alone.senders = s.joined.senders
  tips : ∀ nowUs, s.clock ≤ nowUs →
    Gate.recentTips config s.alone.tips nowUs = Gate.recentTips config s.joined.tips nowUs
  txTip : ∀ txHash, txHash ∉ s.hashes → s.alone.txTip txHash = s.joined.txTip txHash
  reqs : ∀ key, key ∉ s.visited → s.alone.reqs key = s.joined.reqs key
  marks : ∀ key, s.alone.marks key = s.joined.marks key

end Twin

/-! ## The window of the tips -/

namespace Gate

variable {config : GateConfig}

lemma recentTips_recentTips {now later : ℕ} (h : now ≤ later) (tips : List (ℕ × ℕ)) :
    recentTips config (recentTips config tips now) later = recentTips config tips later := by
  unfold recentTips
  induction tips with
  | nil => rfl
  | cons tip tips ih =>
    by_cases hout : config.tipWindowUs < now - tip.1
    · have hout' : config.tipWindowUs < later - tip.1 := by omega
      simp_all
    simp_all

lemma recentTips_append {tips tips' : List (ℕ × ℕ)} {nowUs : ℕ}
    (h : recentTips config tips nowUs = recentTips config tips' nowUs) (more : List (ℕ × ℕ)) :
    recentTips config (tips ++ more) nowUs = recentTips config (tips' ++ more) nowUs := by
  unfold recentTips at h ⊢
  rw [List.dropWhile_append, List.dropWhile_append, h]

end Gate

namespace Twin

variable {keccak : List UInt8 → Bytes 32} {config : GateConfig} {s s' : Twin}

/-! ## Operations of both traces -/

lemma Alike.setReq (h : Alike config s) (key : RequestKey) {x y : ReqState}
    (hmarks : x.toMarks = y.toMarks) (hsame : key ∉ s.visited → x = y) :
    (∀ k, k ∉ s.visited → Function.update s.alone.reqs key (some x) k =
        Function.update s.joined.reqs key (some y) k) ∧
      ∀ k, ((Function.update s.alone.reqs key (some x) k).getD {}).toMarks =
        ((Function.update s.joined.reqs key (some y) k).getD {}).toMarks := by
  refine ⟨fun k hk => ?_, fun k => ?_⟩
  · by_cases hkey : k = key
    · simp_all
    · rw [Function.update_of_ne hkey, Function.update_of_ne hkey, h.reqs k hk]
  · by_cases hkey : k = key
    · simp_all
    · rw [Function.update_of_ne hkey, Function.update_of_ne hkey]
      exact h.marks k

lemma Alike.trusted (h : Alike config s) (sender : Bytes 20) :
    s.alone.trusted config sender = s.joined.trusted config sender := by
  unfold Gate.trusted
  rw [h.senders]

lemma Alike.setTip (h : Alike config s) (noted : List Char) (tip : ℕ × ℕ) :
    ∀ txHash, txHash ∉ s.hashes → Function.update s.alone.txTip noted (some tip) txHash =
      Function.update s.joined.txTip noted (some tip) txHash := by
  intro txHash hnew
  by_cases hsame : txHash = noted
  · simp_all
  · rw [Function.update_of_ne hsame, Function.update_of_ne hsame, h.txTip txHash hnew]

lemma Alike.check (h : Alike config s) {p : Pending} (hclock : s.clock ≤ p.nowUs)
    {alone joined : Gate} {verdict verdict' : Verdict}
    (halone : Gate.Checked keccak config s.alone p alone verdict)
    (hjoined : Gate.Checked keccak config s.joined p joined verdict') :
    Alike config { s with alone := alone, joined := joined, clock := p.nowUs } := by
  have hlater : ∀ nowUs, p.nowUs ≤ nowUs → s.clock ≤ nowUs := fun _ => hclock.trans
  have hrounds : ∀ round, s.alone.latestRound (p.call.requestKey keccak).market = some round ↔
      s.joined.latestRound (p.call.requestKey keccak).market = some round := by
    rw [h.rounds]
    exact fun _ => Iff.rfl
  cases halone with
  | stale hround hold =>
    cases hjoined with
    | stale hround' hold' =>
      exact ⟨h.rounds, h.senders, fun nowUs hnow => h.tips nowUs (hlater nowUs hnow),
        h.setTip _ _, h.reqs, h.marks⟩
    | judged hround' hfloor' hst' hjudge' =>
      grind
  | @judged floor st judgement hround hfloor hst hjudge =>
    cases hjoined with
    | stale hround' hold' =>
      grind
    | @judged floor' st' judgement' hround' hfloor' hst' hjudge' =>
      have htips := h.tips p.nowUs hclock
      obtain rfl : floor = floor' := by
        simp_all
      have hmarks : st.toMarks = st'.toMarks := by
        rw [hst, hst', Gate.record_toMarks, Gate.record_toMarks]
        exact h.marks _
      obtain rfl : judgement = judgement' := by
        rw [hjudge, hjudge', hmarks, h.trusted]
      have hset := h.setReq (p.call.requestKey keccak)
        (x := { st with toMarks := judgement.1 }) (y := { st' with toMarks := judgement.1 })
        rfl fun hkey => by rw [hst, hst', h.reqs _ hkey]
      exact ⟨by rw [h.rounds], h.senders, fun nowUs _ => by rw [htips], h.setTip _ _, hset.1,
        hset.2⟩

lemma Alike.onConfirmed (h : Alike config s) {kind : CallKind} {key : RequestKey}
    {price : Bytes 32} {txHash : List Char} {nowUs : ℕ}
    (hok : s.Harmless keccak config (.both (.onConfirmed kind key price txHash nowUs))) :
    Alike config { s with
      alone := s.alone.onConfirmed kind key price txHash nowUs
      joined := s.joined.onConfirmed kind key price txHash nowUs
      clock := nowUs } := by
  obtain ⟨hclock, hhash, hscored⟩ := hok
  have hmarks : ((s.alone.reqs key).getD {}).toMarks = ((s.joined.reqs key).getD {}).toMarks :=
    h.marks key
  have hproposed : ((s.alone.reqs key).getD {}).proposed = ((s.joined.reqs key).getD {}).proposed :=
    congrArg Marks.proposed hmarks
  have hsenders : (s.alone.onConfirmed kind key price txHash nowUs).senders =
      (s.joined.onConfirmed kind key price txHash nowUs).senders := by
    unfold Gate.onConfirmed
    dsimp only
    rw [hproposed, h.senders]
    split_ifs with hfirst
    · -- the request is none of those whose proposals may differ
      rw [Bool.and_eq_true, decide_eq_true_eq] at hfirst
      have hnew : key ∉ s.visited := by
        intro hvisited
        have hset := hscored hfirst.1 hvisited
        have hnone := hfirst.2
        rw [Option.isNone_iff_eq_none] at hnone
        unfold Gate.marks at hset
        simp_all
      rw [h.reqs key hnew]
    · rfl
  have htips : ∀ later, nowUs ≤ later →
      Gate.recentTips config (s.alone.onConfirmed kind key price txHash nowUs).tips later =
        Gate.recentTips config (s.joined.onConfirmed kind key price txHash nowUs).tips later := by
    intro later hlater
    unfold Gate.onConfirmed
    rw [h.txTip txHash hhash]
    split_ifs with hkind
    · exact Gate.recentTips_append (h.tips later (hclock.trans hlater)) _
    · exact h.tips later (hclock.trans hlater)
  have hset := h.setReq key
    (x := { toMarks := ((s.alone.reqs key).getD {}).toMarks.confirm kind price
            pendings :=
              if decide (kind = .propose) && ((s.alone.reqs key).getD {}).proposed.isNone then []
              else ((s.alone.reqs key).getD {}).pendings
            touchedUs := nowUs })
    (y := { toMarks := ((s.joined.reqs key).getD {}).toMarks.confirm kind price
            pendings :=
              if decide (kind = .propose) && ((s.joined.reqs key).getD {}).proposed.isNone then []
              else ((s.joined.reqs key).getD {}).pendings
            touchedUs := nowUs })
    (by rw [hmarks]) fun hkey => by rw [h.reqs key hkey]
  refine ⟨?_, hsenders, htips, h.txTip, hset.1, hset.2⟩
  show Function.update _ _ _ = Function.update _ _ _
  rw [h.rounds]

lemma Alike.prune (h : Alike config s) {nowUs : ℕ}
    (hok : s.Harmless keccak config (.both (.prune nowUs))) :
    Alike config { s with
      alone := s.alone.prune config nowUs
      joined := s.joined.prune config nowUs
      clock := nowUs } := by
  obtain ⟨hclock, hkept⟩ := hok
  refine ⟨h.rounds, h.senders, fun later hlater => h.tips later (hclock.trans hlater),
    fun txHash hnew => ?_, fun key hkey => ?_, fun key => ?_⟩
  · show (s.alone.txTip txHash).filter _ = (s.joined.txTip txHash).filter _
    rw [h.txTip txHash hnew]
  · show (s.alone.reqs key).filter _ = (s.joined.reqs key).filter _
    rw [h.reqs key hkey]
  · by_cases hkey : key ∈ s.visited
    · obtain ⟨halone, hjoined⟩ := hkept key hkey
      rw [Gate.marks_prune halone, Gate.marks_prune hjoined]
      exact h.marks key
    · refine Gate.marks_congr ?_
      show (s.alone.reqs key).filter _ = (s.joined.reqs key).filter _
      rw [h.reqs key hkey]

/-! ## What is put in -/

lemma Alike.insert (h : Alike config s) {p : Pending}
    (hok : s.Harmless keccak config (.insert p)) {joined : Gate} {verdict : Verdict}
    (hchecked : Gate.Checked keccak config s.joined p joined verdict) :
    Alike config { s with
      joined := joined
      visited :=
        if s.joined.isStale (p.call.requestKey keccak) then s.visited
        else p.call.requestKey keccak :: s.visited
      hashes := p.txHash :: s.hashes
      clock := p.nowUs } := by
  obtain ⟨hkind, huntrusted, hclock, round, hround, hle⟩ := hok
  have htx : ∀ txHash, txHash ∉ p.txHash :: s.hashes → s.alone.txTip txHash =
      Function.update s.joined.txTip p.txHash (some (p.nowUs, p.tipGwei)) txHash := by
    intro txHash hnew
    rw [Function.update_of_ne (List.ne_of_not_mem_cons hnew)]
    exact h.txTip txHash (List.not_mem_of_not_mem_cons hnew)
  have hmarks : ∀ key, joined.marks key = s.joined.marks key := by
    intro key
    by_cases hkey : p.call.requestKey keccak = key
    · exact hchecked.marks_of_untrusted hkind huntrusted hkey
    · exact hchecked.marks_of_ne (Ne.symm hkey)
  cases hchecked with
  | @stale newest hnewest hold =>
    have hstale : s.joined.isStale (p.call.requestKey keccak) = true := by
      unfold Gate.isStale
      simp_all
    rw [if_pos hstale]
    exact ⟨h.rounds, h.senders, fun nowUs hnow => h.tips nowUs (hclock.trans hnow), htx, h.reqs,
      h.marks⟩
  | judged hnewest hfloor hst hjudge =>
    obtain rfl : round = (p.call.requestKey keccak).timestamp :=
      le_antisymm (hnewest round hround) hle
    have hfresh : s.joined.isStale (p.call.requestKey keccak) = false := by
      unfold Gate.isStale
      simp_all
    rw [hfresh]
    refine ⟨?_, h.senders, fun nowUs hnow => ?_, htx, fun key hkey => ?_, fun key => ?_⟩
    · rw [h.rounds]
      simp_all
    · rw [h.tips nowUs (hclock.trans hnow)]
      exact (Gate.recentTips_recentTips hnow _).symm
    · exact (h.reqs key (List.not_mem_of_not_mem_cons hkey)).trans
        (Function.update_of_ne (List.ne_of_not_mem_cons hkey) _ _).symm
    · rw [hmarks]
      exact h.marks key

lemma Alike.step (h : Alike config s) {x : TwinOp} (hok : s.Harmless keccak config x)
    (hstep : s.step keccak config x = some s') : Alike config s' := by
  cases x with
  | insert p =>
    obtain ⟨joined, hjoined, rfl⟩ := Option.map_eq_some_iff.mp hstep
    obtain ⟨verdict, hcheck⟩ := Gate.step_check hjoined
    exact h.insert hok hcheck
  | both op =>
    obtain ⟨alone, halone, hstep⟩ := Option.bind_eq_some_iff.mp hstep
    obtain ⟨joined, hjoined, rfl⟩ := Option.map_eq_some_iff.mp hstep
    cases op with
    | check p =>
      obtain ⟨verdict, hcheck⟩ := Gate.step_check halone
      obtain ⟨verdict', hcheck'⟩ := Gate.step_check hjoined
      exact h.check (hok _ rfl) hcheck hcheck'
    | onConfirmed kind key price txHash nowUs =>
      cases halone
      cases hjoined
      exact h.onConfirmed hok
    | tipFloor nowUs =>
      obtain rfl := Gate.step_tipFloor halone
      obtain rfl := Gate.step_tipFloor hjoined
      refine ⟨h.rounds, h.senders, fun later _ => ?_, h.txTip, h.reqs, h.marks⟩
      exact congrArg (Gate.recentTips config · later) (h.tips nowUs (hok _ rfl))
    | prune nowUs =>
      cases halone
      cases hjoined
      exact h.prune hok
    | loadSenders stats =>
      cases halone
      cases hjoined
      refine ⟨h.rounds, ?_, h.tips, h.txTip, h.reqs, h.marks⟩
      show stats.foldl _ s.alone.senders = stats.foldl _ s.joined.senders
      rw [h.senders]

lemma run_alone_joined {ops : List TwinOp} (h : run (step keccak config) s ops = some s') :
    run (Gate.step keccak config) s.alone (ops.filterMap TwinOp.own?) = some s'.alone ∧
      run (Gate.step keccak config) s.joined (ops.map TwinOp.op) = some s'.joined := by
  refine ⟨run_project Twin.alone TwinOp.own? (fun s x s' hstep => ?_) h, ?_⟩
  · cases x with
    | both op =>
      obtain ⟨alone, halone, hstep⟩ := Option.bind_eq_some_iff.mp hstep
      obtain ⟨joined, hjoined, rfl⟩ := Option.map_eq_some_iff.mp hstep
      exact halone
    | insert p =>
      obtain ⟨joined, hjoined, rfl⟩ := Option.map_eq_some_iff.mp hstep
      rfl
  · rw [← List.filterMap_eq_map]
    refine run_project Twin.joined (some ∘ TwinOp.op) (fun s x s' hstep => ?_) h
    cases x with
    | both op =>
      obtain ⟨alone, halone, hstep⟩ := Option.bind_eq_some_iff.mp hstep
      obtain ⟨joined, hjoined, rfl⟩ := Option.map_eq_some_iff.mp hstep
      exact hjoined
    | insert p =>
      obtain ⟨joined, hjoined, rfl⟩ := Option.map_eq_some_iff.mp hstep
      exact hjoined

end Twin

lemma Gate.check_verdict (keccak : List UInt8 → Bytes 32) (config : GateConfig) (g : Gate)
    (p : Pending) :
    (g.check keccak config p).map Prod.snd =
      if (p.call.requestKey keccak).timestamp <
          (g.latestRound (p.call.requestKey keccak).market).getD
            (p.call.requestKey keccak).timestamp then some (.drop .staleRound)
      else
        (floorOf config (recentTips config g.tips p.nowUs)).map fun floor =>
          ((g.marks (p.call.requestKey keccak)).judge p.call.kind p.call.price
            (g.trusted config p.sender) (floor.any fun f => decide (p.tipGwei < f))).2 := by
  unfold check
  dsimp only
  split_ifs with hstale
  · rfl
  · simp only [tipFloor, Option.map_map, Function.comp_def, record_toMarks]
    rfl

theorem insertions_change_no_verdict (keccak : List UInt8 → Bytes 32) (config : GateConfig)
    {ops : List TwinOp} {s : Twin}
    (hok : AllSteps (Twin.step keccak config) (Twin.Harmless keccak config) .init ops)
    (hs : run (Twin.step keccak config) .init ops = some s) :
    run (Gate.step keccak config) .new (ops.filterMap TwinOp.own?) = some s.alone ∧
      run (Gate.step keccak config) .new (ops.map TwinOp.op) = some s.joined ∧
      ∀ p : Pending, s.clock ≤ p.nowUs →
        (s.alone.check keccak config p).map Prod.snd =
          (s.joined.check keccak config p).map Prod.snd := by
  have hgates := Twin.run_alone_joined hs
  have halike : Twin.Alike config s :=
    run_invariant (fun _ _ _ h hok hstep => h.step hok hstep)
      ⟨rfl, rfl, fun _ _ => rfl, fun _ _ => rfl, fun _ _ => rfl, fun _ => rfl⟩ hok hs
  refine ⟨hgates.1, hgates.2, fun p hclock => ?_⟩
  rw [Gate.check_verdict, Gate.check_verdict, halike.rounds, halike.tips p.nowUs hclock,
    halike.marks, halike.trusted]

instance (keccak : List UInt8 → Bytes 32) (config : GateConfig) (s : Twin) :
    (x : TwinOp) → Decidable (s.Harmless keccak config x)
  | .insert _ | .both (.onConfirmed ..) | .both (.prune _) => inferInstanceAs (Decidable (_ ∧ _))
  | .both (.check _) | .both (.tipFloor _) | .both (.loadSenders _) =>
    inferInstanceAs (Decidable (∀ _ ∈ _, s.clock ≤ _))

/-- Sender 9 has been right once and is trusted. A proposal of an older round and one for a request
that has been confirmed are put in. -/
theorem insertions_of_old_rounds :
    ∃ s, run (Twin.step testKeccak testGate) .init
        [.both (.check (testPending .propose 10 0 9 "0xa" 1)),
          .both (.onConfirmed .propose (testKey 10) (Bytes.fill 32 0) "0xa".toList 2),
          .insert (testPending .propose 10 1 7 "0xb" 3),
          .insert (testPending .propose 5 1 7 "0xc" 4)] = some s ∧
      (s.alone.check testKeccak testGate (testPending .propose 20 1 9 "0xd" 5)).map Prod.snd =
        some .emit ∧
      (s.joined.check testKeccak testGate (testPending .propose 20 1 9 "0xd" 5)).map Prod.snd =
        some .emit := by
  refine exists_some_imp (P := fun s => s.clock = 4 ∧
    (s.alone.check testKeccak testGate (testPending .propose 20 1 9 "0xd" 5)).map Prod.snd =
      some .emit) (by decide +kernel) ?_
  rintro s hs ⟨hclock, hemit⟩
  have hsame := (insertions_change_no_verdict testKeccak testGate (by decide +kernel) hs).2.2
    (testPending .propose 20 1 9 "0xd" 5) (by rw [hclock]; decide)
  simp_all

theorem silenced_by_new_round :
    ∃ s, run (Twin.step testKeccak testGate) .init
        [.both (.loadSenders [(Bytes.fill 20 9, ⟨100, 0⟩)]),
          .insert (testPending .propose 1000 1 7 "0xb" 1)] = some s ∧
      s.joined.trusted testGate (Bytes.fill 20 7) = false ∧
      s.alone.trusted testGate (Bytes.fill 20 9) = true ∧
      s.joined.trusted testGate (Bytes.fill 20 9) = true ∧
      (s.alone.check testKeccak testGate (testPending .propose 10 0 9 "0xa" 2)).map Prod.snd =
        some .emit ∧
      (s.joined.check testKeccak testGate (testPending .propose 10 0 9 "0xa" 2)).map Prod.snd =
        some (.drop .staleRound) :=
  exists_some_of_any (by decide +kernel)

end RustUma.Mempool
