import RustUma.Mempool.Abi
import RustUma.Mempool.Feed
import RustUma.Mempool.Repeats

/-!
# Foreign contracts (`src/mempool/feed.rs` `run_pending_feed`, `apply`)

The emitters that are allowed are looked at when a log is decoded, after the gate. So the gate hears
of pending transactions to any contract that has the selectors of the oracle, and of logs of any
contract that has its topics. Two traces of lines and logs side by side: the second has more of them
in it, of contracts that are not allowed.
-/

namespace RustUma.Mempool

open RustUma.Found RustUma.Model RustUma.Uma

/-! ## Lines and logs -/

inductive FeedOp
  | check (line : PendingLine) (sender : Bytes 20) (item : ℕ × OracleCall) (nowUs : ℕ)
  | gate (op : GateOp)

inductive FeedItem
  | line (line : PendingLine) (times : ℕ → ℕ)
  | log (log : RpcLog) (nowUs : ℕ)
  | tipFloor (nowUs : ℕ)
  | prune (nowUs : ℕ)
  | loadSenders (stats : List (Bytes 20 × SenderStat))

def applyLog (keccak : List UInt8 → Bytes 32) (log : RpcLog) (nowUs : ℕ) : List GateOp :=
  if log.removed then []
  else (parseOnchain keccak log).toList.map fun (kind, key, price) =>
    .onConfirmed kind key price (log.transactionHash.map Char.toLower) nowUs

def FeedItem.ops (keccak : List UInt8 → Bytes 32) : FeedItem → List FeedOp
  | .line tx times =>
    match tx.decode with
    | some (sender, calls) => calls.map fun item => .check tx sender item (times item.1)
    | none => []
  | .log raw nowUs => (applyLog keccak raw nowUs).map .gate
  | .tipFloor nowUs => [.gate (.tipFloor nowUs)]
  | .prune nowUs => [.gate (.prune nowUs)]
  | .loadSenders stats => [.gate (.loadSenders stats)]

def ForeignContract (allowed : List (Bytes 20)) (address : List Char) : Prop :=
  ∀ emitter ∈ allowed, decodeFixed 20 address "address" ≠ .ok emitter

instance (allowed : List (Bytes 20)) (address : List Char) :
    Decidable (ForeignContract allowed address) :=
  inferInstanceAs (Decidable (∀ emitter ∈ allowed, decodeFixed 20 address "address" ≠ .ok emitter))

def FeedItem.Foreign (allowed : List (Bytes 20)) : FeedItem → Prop
  | .line tx _ => ForeignContract allowed tx.target
  | .log raw _ => ForeignContract allowed raw.address
  | _ => False

def FeedOp.op : FeedOp → GateOp
  | .check line sender item nowUs => .check (line.pending sender item.2 nowUs)
  | .gate op => op

/-! ## One trace -/

structure Watch where
  gate : Gate
  sent : List UmaEvent

namespace Watch

def init : Watch := ⟨.new, []⟩

section Step

variable (keccak : List UInt8 → Bytes 32) (config : FeedConfig)

def verdict? (s : Watch) : FeedOp → Option Verdict
  | .check line sender item nowUs =>
    (s.gate.check keccak config.gate (line.pending sender item.2 nowUs)).map Prod.snd
  | .gate _ => none

def passedOn (s : Watch) (op : FeedOp) : List UmaEvent :=
  match op with
  | .check line sender item _ =>
    if s.verdict? keccak config op = some .emit then
      (Feed.decoded keccak config line sender item).toOption.toList
    else []
  | .gate _ => []

def step (s : Watch) (op : FeedOp) : Option Watch :=
  (s.gate.step keccak config.gate op.op).map fun gate =>
    ⟨gate, s.sent ++ s.passedOn keccak config op⟩

end Step

end Watch

/-! ## Two traces -/

inductive Tagged (α : Type)
  | both (a : α)
  | inserted (a : α)

namespace Tagged

variable {α β : Type}

def own? : Tagged α → Option α
  | both a => some a
  | inserted _ => none

def value : Tagged α → α
  | both a => a
  | inserted a => a

def flatMap (f : α → List β) : Tagged α → List (Tagged β)
  | both a => (f a).map both
  | inserted a => (f a).map inserted

end Tagged

structure Sides where
  alone : Watch
  joined : Watch
  verdicts : List (Option Verdict × Option Verdict)
  markets : List (Bytes 20 × Bytes 32)
  hashes : List (List Char)
  clock : ℕ

def GateOp.pendingHash? : GateOp → Option (List Char)
  | .check p => some p.txHash
  | _ => none

namespace Sides

def init : Sides := ⟨.init, .init, [], [], [], 0⟩

section Step

variable (keccak : List UInt8 → Bytes 32) (config : FeedConfig)

def step (s : Sides) : Tagged FeedOp → Option Sides
  | .both op =>
    (s.alone.step keccak config op).bind fun alone =>
      (s.joined.step keccak config op).map fun joined =>
        { s with
          alone := alone
          joined := joined
          verdicts := s.verdicts ++
            [(s.alone.verdict? keccak config op, s.joined.verdict? keccak config op)]
          clock := op.op.now?.getD s.clock }
  | .inserted op =>
    (op.op.key? keccak).bind fun key =>
      (s.joined.step keccak config op).map fun joined =>
        { s with
          joined := joined
          markets := key.market :: s.markets
          hashes := op.op.pendingHash?.toList ++ s.hashes
          clock := op.op.now?.getD s.clock }

def Uncounted (g : Gate) : GateOp → Prop
  | .onConfirmed .propose key _ txHash _ =>
    g.txTip txHash = none ∧ ((g.marks key).proposed = none → g.offers key = [])
  | _ => True

def Separate (s : Sides) : Tagged FeedOp → Prop
  | .both op =>
    (∀ nowUs ∈ op.op.now?, s.clock ≤ nowUs) ∧
      (∀ key ∈ op.op.key? keccak, key.market ∉ s.markets) ∧
      ∀ item ∈ op.op.included?, item.1 ∉ s.hashes
  | .inserted op =>
    (∀ nowUs ∈ op.op.now?, s.clock ≤ nowUs) ∧ Uncounted s.joined.gate op.op

end Step

end Sides

/-! ## What stays the same in both gates -/

structure Gate.Apart (config : GateConfig) (markets : List (Bytes 20 × Bytes 32))
    (hashes : List (List Char)) (clock : ℕ) (g g' : Gate) : Prop where
  rounds : ∀ market, market ∉ markets → g.latestRound market = g'.latestRound market
  senders : g.senders = g'.senders
  tips : ∀ nowUs, clock ≤ nowUs →
    recentTips config g.tips nowUs = recentTips config g'.tips nowUs
  txTip : ∀ txHash, txHash ∉ hashes → g.txTip txHash = g'.txTip txHash
  reqs : ∀ key : RequestKey, key.market ∉ markets → g.reqs key = g'.reqs key

namespace Gate.Apart

variable {keccak : List UInt8 → Bytes 32} {config : GateConfig}
  {markets : List (Bytes 20 × Bytes 32)} {hashes : List (List Char)} {clock : ℕ} {g g' t t' : Gate}

lemma trusted (h : Apart config markets hashes clock g g') (sender : Bytes 20) :
    g.trusted config sender = g'.trusted config sender := by
  unfold Gate.trusted
  rw [h.senders]

variable {p : Pending} {key : RequestKey}

lemma verdict (h : Apart config markets hashes clock g g') (hclock : clock ≤ p.nowUs)
    (hmarket : (p.call.requestKey keccak).market ∉ markets) :
    (g.check keccak config p).map Prod.snd = (g'.check keccak config p).map Prod.snd := by
  rw [check_verdict, check_verdict, h.rounds _ hmarket, h.tips p.nowUs hclock,
    marks_congr (h.reqs _ hmarket), h.trusted]

lemma update_both {α β : Type} [DecidableEq α] {f f' : α → Option β} {P : α → Prop} {x : Option β}
    (h : ∀ a, P a → f a = f' a) (b : α) :
    ∀ a, P a → Function.update f b x a = Function.update f' b x a := by
  grind

lemma check (h : Apart config markets hashes clock g g') (hclock : clock ≤ p.nowUs)
    (hmarket : (p.call.requestKey keccak).market ∉ markets) {verdict verdict' : Verdict}
    (hcheck : Checked keccak config g p t verdict)
    (hcheck' : Checked keccak config g' p t' verdict') :
    Apart config markets hashes p.nowUs t t' := by
  have hround := h.rounds _ hmarket
  have hreqs := h.reqs _ hmarket
  have htx := update_both (x := some (p.nowUs, p.tipGwei)) h.txTip p.txHash
  cases hcheck with
  | stale hstale hold =>
    rw [hround] at hstale
    cases hcheck' with
    | stale hstale' hold' =>
      exact ⟨h.rounds, h.senders, fun nowUs hnow => h.tips nowUs (hclock.trans hnow), htx,
        h.reqs⟩
    | judged hfresh' hfloor' hst' hjudge' =>
      grind
  | @judged floor st judgement hfresh hfloor hst hjudge =>
    rw [hround] at hfresh
    cases hcheck' with
    | stale hstale' hold' => grind
    | @judged floor' st' judgement' hfresh' hfloor' hst' hjudge' =>
      have htips := h.tips p.nowUs hclock
      obtain rfl : floor = floor' := by
        simp_all
      obtain rfl : st = st' := by rw [hst, hst', hreqs]
      obtain rfl : judgement = judgement' := by rw [hjudge, hjudge', h.trusted]
      exact ⟨update_both h.rounds _, h.senders, fun nowUs _ => by rw [htips], htx,
        update_both h.reqs _⟩

lemma onConfirmed (h : Apart config markets hashes clock g g') {kind : CallKind} {price : Bytes 32}
    {txHash : List Char} {nowUs : ℕ} (hclock : clock ≤ nowUs) (hmarket : key.market ∉ markets)
    (hhash : kind = .propose → txHash ∉ hashes) :
    Apart config markets hashes nowUs (g.onConfirmed kind key price txHash nowUs)
      (g'.onConfirmed kind key price txHash nowUs) := by
  have hreqs := h.reqs _ hmarket
  refine ⟨?_, ?_, fun later hlater => ?_, h.txTip, ?_⟩
  · rw [latestRound_onConfirmed, h.rounds _ hmarket]
    exact update_both h.rounds _
  · have hoffers : g.offers key = g'.offers key := by
      unfold offers
      rw [hreqs]
    rw [senders_onConfirmed, senders_onConfirmed, marks_congr hreqs, hoffers, h.senders]
  · have htips := h.tips later (hclock.trans hlater)
    unfold Gate.onConfirmed
    split_ifs with hkind
    · rw [h.txTip txHash (hhash hkind)]
      exact recentTips_append htips _
    · exact htips
  · rw [reqs_onConfirmed, hreqs]
    exact update_both h.reqs _

lemma step (h : Apart config markets hashes clock g g') {op : GateOp}
    (hclock : ∀ nowUs ∈ op.now?, clock ≤ nowUs)
    (hmarket : ∀ key ∈ op.key? keccak, key.market ∉ markets)
    (hhash : ∀ item ∈ op.included?, item.1 ∉ hashes) (hstep : g.step keccak config op = some t)
    (hstep' : g'.step keccak config op = some t') :
    Apart config markets hashes (op.now?.getD clock) t t' := by
  cases op with
  | check p =>
    obtain ⟨verdict, hcheck⟩ := step_check hstep
    obtain ⟨verdict', hcheck'⟩ := step_check hstep'
    exact h.check (hclock _ rfl) (hmarket _ rfl) hcheck hcheck'
  | onConfirmed kind key price txHash nowUs =>
    cases hstep
    cases hstep'
    refine h.onConfirmed (hclock _ rfl) (hmarket _ rfl) ?_
    rintro rfl
    exact hhash _ rfl
  | tipFloor nowUs =>
    obtain rfl := step_tipFloor hstep
    obtain rfl := step_tipFloor hstep'
    refine ⟨h.rounds, h.senders, fun later _ => ?_, h.txTip, h.reqs⟩
    exact congrArg (recentTips config · later) (h.tips nowUs (hclock _ rfl))
  | prune nowUs =>
    cases hstep
    cases hstep'
    refine ⟨h.rounds, h.senders, fun later hlater => h.tips later ((hclock _ rfl).trans hlater),
      fun txHash hnew => ?_, fun key hkey => ?_⟩
    · show (g.txTip txHash).filter _ = (g'.txTip txHash).filter _
      rw [h.txTip txHash hnew]
    · show (g.reqs key).filter _ = (g'.reqs key).filter _
      rw [h.reqs key hkey]
  | loadSenders stats =>
    cases hstep
    cases hstep'
    refine ⟨h.rounds, ?_, h.tips, h.txTip, h.reqs⟩
    show stats.foldl _ g.senders = stats.foldl _ g'.senders
    rw [h.senders]

/-! ### What is put in -/

lemma update_joined {α β : Type} [DecidableEq α] {f f' : α → Option β} {P P' : α → Prop} {b : α}
    {x : Option β} (h : ∀ a, P a → f a = f' a) (hP : ∀ a, P' a → P a ∧ a ≠ b) :
    ∀ a, P' a → f a = Function.update f' b x a := by
  simp_all

lemma insertCheck (h : Apart config markets hashes clock g g') (hclock : clock ≤ p.nowUs)
    {verdict : Verdict} (hcheck : Checked keccak config g' p t' verdict) :
    Apart config ((p.call.requestKey keccak).market :: markets) (p.txHash :: hashes) p.nowUs g
      t' := by
  have htx : ∀ txHash, txHash ∉ p.txHash :: hashes → g.txTip txHash =
      Function.update g'.txTip p.txHash (some (p.nowUs, p.tipGwei)) txHash :=
    update_joined h.txTip fun txHash hnew =>
      ⟨List.not_mem_of_not_mem_cons hnew, List.ne_of_not_mem_cons hnew⟩
  cases hcheck with
  | stale hstale hold =>
    exact ⟨fun market hnew => h.rounds market (List.not_mem_of_not_mem_cons hnew), h.senders,
      fun nowUs hnow => h.tips nowUs (hclock.trans hnow), htx,
      fun key hnew => h.reqs key (List.not_mem_of_not_mem_cons hnew)⟩
  | judged hfresh hfloor hst hjudge =>
    refine ⟨?_, h.senders, fun nowUs hnow => ?_, htx, ?_⟩
    · exact update_joined h.rounds fun market hnew =>
        ⟨List.not_mem_of_not_mem_cons hnew, List.ne_of_not_mem_cons hnew⟩
    · rw [h.tips nowUs (hclock.trans hnow)]
      exact (recentTips_recentTips hnow _).symm
    · refine update_joined h.reqs fun key hnew => ⟨List.not_mem_of_not_mem_cons hnew, ?_⟩
      grind

lemma insertConfirmed (h : Apart config markets hashes clock g g') {kind : CallKind}
    {price : Bytes 32} {txHash : List Char} {nowUs : ℕ} (hclock : clock ≤ nowUs)
    (huncounted : Sides.Uncounted g' (.onConfirmed kind key price txHash nowUs)) :
    Apart config (key.market :: markets) hashes nowUs g
      (g'.onConfirmed kind key price txHash nowUs) := by
  have hsenders : (g'.onConfirmed kind key price txHash nowUs).senders = g'.senders := by
    rw [senders_onConfirmed]
    split_ifs with hfirst
    · obtain ⟨rfl, hopen⟩ := hfirst
      rw [huncounted.2 hopen]
      rfl
    · rfl
  have htips : (g'.onConfirmed kind key price txHash nowUs).tips = g'.tips := by
    unfold Gate.onConfirmed
    split_ifs with hkind
    · subst hkind
      rw [huncounted.1]
      exact List.append_nil _
    · rfl
  refine ⟨?_, h.senders.trans hsenders.symm, fun later hlater => ?_, h.txTip, ?_⟩
  · exact update_joined h.rounds fun market hnew =>
      ⟨List.not_mem_of_not_mem_cons hnew, List.ne_of_not_mem_cons hnew⟩
  · rw [htips]
    exact h.tips later (hclock.trans hlater)
  · refine update_joined h.reqs fun k hnew => ⟨List.not_mem_of_not_mem_cons hnew, ?_⟩
    grind

lemma insert (h : Apart config markets hashes clock g g') {op : GateOp}
    (hkey : op.key? keccak = some key) (hclock : ∀ nowUs ∈ op.now?, clock ≤ nowUs)
    (huncounted : Sides.Uncounted g' op) (hstep : g'.step keccak config op = some t') :
    Apart config (key.market :: markets) (op.pendingHash?.toList ++ hashes) (op.now?.getD clock) g
      t' := by
  cases op with
  | check p =>
    obtain ⟨verdict, hcheck⟩ := step_check hstep
    cases hkey
    exact h.insertCheck (hclock _ rfl) hcheck
  | onConfirmed kind key price txHash nowUs =>
    cases hstep
    cases hkey
    exact h.insertConfirmed (hclock _ rfl) huncounted
  | tipFloor _ | prune _ | loadSenders _ => cases hkey

end Gate.Apart

/-! ## Whole traces -/

lemma decodeSignalLog_of_foreign {keccak : List UInt8 → Bytes 32} {raw : RpcLog}
    {receivedAtUs : ℕ} {allowed : List (Bytes 20)} {requireMarketId : Bool} (hne : allowed ≠ [])
    (h : ForeignContract allowed raw.address) :
    (decodeSignalLog keccak raw receivedAtUs allowed requireMarketId).toOption = none := by
  unfold decodeSignalLog
  cases hemitter : decodeFixed 20 raw.address "address" with
  | error e => rfl
  | ok emitter =>
    have hout : allowed ≠ [] ∧ emitter ∉ allowed := ⟨hne, fun hmem => h emitter hmem hemitter⟩
    simp only [bind, Except.bind, if_pos hout]
    rfl

namespace Sides

variable {keccak : List UInt8 → Bytes 32} {config : FeedConfig} {s s' : Sides}

def Outside (allowed : List (Bytes 20)) : Tagged FeedOp → Prop
  | .inserted (.check line _ _ _) => ForeignContract allowed line.target
  | _ => True

structure Unmoved (config : FeedConfig) (s : Sides) : Prop where
  gates : Gate.Apart config.gate s.markets s.hashes s.clock s.alone.gate s.joined.gate
  sent : s.alone.sent = s.joined.sent
  verdicts : ∀ pair ∈ s.verdicts, pair.1 = pair.2

variable {op : FeedOp}

lemma Unmoved.verdict?_eq (h : Unmoved config s) (hok : s.Separate keccak (.both op)) :
    s.alone.verdict? keccak config op = s.joined.verdict? keccak config op := by
  cases op with
  | check line sender item nowUs => exact h.gates.verdict (hok.1 _ rfl) (hok.2.1 _ rfl)
  | gate op => rfl

lemma passedOn_congr {w w' : Watch} (h : w.verdict? keccak config op = w'.verdict? keccak config op)
    :
    w.passedOn keccak config op = w'.passedOn keccak config op := by
  unfold Watch.passedOn
  rw [h]

lemma passedOn_of_outside (hne : config.contractAddressBytes ≠ []) (w : Watch)
    (hout : Outside config.contractAddressBytes (.inserted op)) :
    w.passedOn keccak config op = [] := by
  cases op with
  | check line sender item nowUs =>
    have hnone : (Feed.decoded keccak config line sender item).toOption = none :=
      decodeSignalLog_of_foreign hne hout
    unfold Watch.passedOn
    simp_all
  | gate op => rfl

lemma Unmoved.step (h : Unmoved config s) (hne : config.contractAddressBytes ≠ [])
    {x : Tagged FeedOp} (hout : Outside config.contractAddressBytes x)
    (hok : s.Separate keccak x) (hstep : s.step keccak config x = some s') : Unmoved config s' := by
  cases x with
  | both op =>
    obtain ⟨alone, halone, hstep⟩ := Option.bind_eq_some_iff.mp hstep
    obtain ⟨joined, hjoined, rfl⟩ := Option.map_eq_some_iff.mp hstep
    obtain ⟨gate, hgate, rfl⟩ := Option.map_eq_some_iff.mp halone
    obtain ⟨gate', hgate', rfl⟩ := Option.map_eq_some_iff.mp hjoined
    have hverdict := h.verdict?_eq hok
    obtain ⟨hclock, hmarket, hhash⟩ := hok
    refine ⟨h.gates.step hclock hmarket hhash hgate hgate', ?_, fun pair hpair => ?_⟩
    · rw [h.sent, passedOn_congr hverdict]
    · rcases List.mem_append.mp hpair with hpair | hpair
      · exact h.verdicts pair hpair
      simp_all
  | inserted op =>
    obtain ⟨key, hkey, hstep⟩ := Option.bind_eq_some_iff.mp hstep
    obtain ⟨joined, hjoined, rfl⟩ := Option.map_eq_some_iff.mp hstep
    obtain ⟨gate, hgate, rfl⟩ := Option.map_eq_some_iff.mp hjoined
    refine ⟨h.gates.insert hkey hok.1 hok.2 hgate, ?_, h.verdicts⟩
    rw [passedOn_of_outside hne _ hout, List.append_nil, h.sent]

lemma unmoved_init : Unmoved config .init :=
  ⟨⟨fun _ _ => rfl, rfl, fun _ _ => rfl, fun _ _ => rfl, fun _ _ => rfl⟩, rfl,
    fun _ hpair => absurd hpair List.not_mem_nil⟩

lemma run_alone_joined {ops : List (Tagged FeedOp)}
    (h : run (Sides.step keccak config) s ops = some s') :
    run (Watch.step keccak config) s.alone (ops.filterMap Tagged.own?) = some s'.alone ∧
      run (Watch.step keccak config) s.joined (ops.map Tagged.value) = some s'.joined := by
  refine ⟨run_project Sides.alone Tagged.own? (fun s x s' hstep => ?_) h, ?_⟩
  · cases x with
    | both op =>
      obtain ⟨alone, halone, hstep⟩ := Option.bind_eq_some_iff.mp hstep
      obtain ⟨joined, hjoined, rfl⟩ := Option.map_eq_some_iff.mp hstep
      exact halone
    | inserted op =>
      obtain ⟨key, hkey, hstep⟩ := Option.bind_eq_some_iff.mp hstep
      obtain ⟨joined, hjoined, rfl⟩ := Option.map_eq_some_iff.mp hstep
      rfl
  · rw [← List.filterMap_eq_map]
    refine run_project Sides.joined (some ∘ Tagged.value) (fun s x s' hstep => ?_) h
    cases x with
    | both op =>
      obtain ⟨alone, halone, hstep⟩ := Option.bind_eq_some_iff.mp hstep
      obtain ⟨joined, hjoined, rfl⟩ := Option.map_eq_some_iff.mp hstep
      exact hjoined
    | inserted op =>
      obtain ⟨key, hkey, hstep⟩ := Option.bind_eq_some_iff.mp hstep
      obtain ⟨joined, hjoined, rfl⟩ := Option.map_eq_some_iff.mp hstep
      exact hjoined

end Sides

namespace Tagged

variable {α β : Type} (f : α → List β) (xs : List (Tagged α))

lemma filterMap_own?_flatMap :
    (xs.flatMap (Tagged.flatMap f)).filterMap own? = (xs.filterMap own?).flatMap f := by
  induction xs with
  | nil => rfl
  | cons x xs ih =>
    rw [List.flatMap_cons, List.filterMap_append, ih]
    cases x with
    | both a =>
      have hboth : ((f a).map both).filterMap own? = f a := by
        rw [List.filterMap_map]
        exact List.filterMap_some
      exact congrArg (· ++ _) hboth
    | inserted a =>
      have hnone : ((f a).map inserted).filterMap own? = [] := by
        rw [List.filterMap_map, List.filterMap_eq_nil_iff]
        exact fun _ _ => rfl
      exact congrArg (· ++ _) hnone

lemma map_value_flatMap :
    (xs.flatMap (Tagged.flatMap f)).map value = (xs.map value).flatMap f := by
  rw [List.map_flatMap, List.flatMap_map]
  refine List.flatMap_congr fun x _ => ?_
  cases x with
  | both a | inserted a => exact (List.map_map ..).trans (List.map_id _)

end Tagged

lemma outside_of_foreign {keccak : List UInt8 → Bytes 32} {allowed : List (Bytes 20)}
    {xs : List (Tagged FeedItem)} (h : ∀ item, .inserted item ∈ xs → item.Foreign allowed) :
    ∀ op ∈ xs.flatMap (Tagged.flatMap (FeedItem.ops keccak)), Sides.Outside allowed op := by
  intro op hop
  obtain ⟨x, hx, hop⟩ := List.mem_flatMap.mp hop
  cases x with
  | both item =>
    obtain ⟨op, -, rfl⟩ := List.mem_map.mp hop
    trivial
  | inserted item =>
    have hforeign := h item hx
    obtain ⟨asked, hasked, rfl⟩ := List.mem_map.mp hop
    cases item with
    | line tx times =>
      simp only [FeedItem.ops] at hasked
      split at hasked
      · obtain ⟨call, -, rfl⟩ := List.mem_map.mp hasked
        exact hforeign
      · cases hasked
    | log raw nowUs =>
      obtain ⟨confirmed, -, rfl⟩ := List.mem_map.mp hasked
      trivial
    | tipFloor _ | prune _ | loadSenders _ => exact hforeign.elim

theorem foreign_contracts_change_nothing (keccak : List UInt8 → Bytes 32) (config : FeedConfig)
    (hallowed : config.contractAddressBytes ≠ []) {xs : List (Tagged FeedItem)} {s : Sides}
    (hforeign : ∀ item, .inserted item ∈ xs → item.Foreign config.contractAddressBytes)
    (hok : AllSteps (Sides.step keccak config) (Sides.Separate keccak) .init
      (xs.flatMap (Tagged.flatMap (FeedItem.ops keccak))))
    (hs : run (Sides.step keccak config) .init
      (xs.flatMap (Tagged.flatMap (FeedItem.ops keccak))) = some s) :
    run (Watch.step keccak config) .init
        ((xs.filterMap Tagged.own?).flatMap (FeedItem.ops keccak)) = some s.alone ∧
      run (Watch.step keccak config) .init
        ((xs.map Tagged.value).flatMap (FeedItem.ops keccak)) = some s.joined ∧
      (∀ pair ∈ s.verdicts, pair.1 = pair.2) ∧ s.alone.gate.senders = s.joined.gate.senders ∧
      s.alone.sent = s.joined.sent := by
  obtain ⟨halone, hjoined⟩ := Sides.run_alone_joined hs
  rw [Tagged.filterMap_own?_flatMap] at halone
  rw [Tagged.map_value_flatMap] at hjoined
  have hunmoved : Sides.Unmoved config s :=
    run_invariant
      (fun _ _ _ h hboth hstep => h.step hallowed hboth.1 hboth.2 hstep) Sides.unmoved_init
      ((allSteps_of_forall (outside_of_foreign hforeign) _).and hok) hs
  exact ⟨halone, hjoined, hunmoved.verdicts, hunmoved.gates.senders, hunmoved.sent⟩

instance (g : Gate) : (op : GateOp) → Decidable (Sides.Uncounted g op)
  | .onConfirmed .propose .. => inferInstanceAs (Decidable (_ ∧ _))
  | .onConfirmed .dispute .. | .check _ | .tipFloor _ | .prune _ | .loadSenders _ => .isTrue trivial

instance (keccak : List UInt8 → Bytes 32) (s : Sides) :
    (x : Tagged FeedOp) → Decidable (s.Separate keccak x)
  | .both _ => inferInstanceAs (Decidable ((∀ _ ∈ _, _) ∧ (∀ _ ∈ _, _) ∧ ∀ _ ∈ _, _))
  | .inserted _ => inferInstanceAs (Decidable ((∀ _ ∈ _, _) ∧ Sides.Uncounted _ _))

def guardedFeed : FeedConfig := ⟨testGate, [Bytes.fill 20 5], true⟩

def lineTo (call : OracleCall) (hash target : UInt8) : PendingLine where
  kind := "p2p_match"
  hash := hex0x (List.replicate 32 hash)
  sender := hex0x (List.replicate 20 9)
  target := hex0x (List.replicate 20 target)
  input := hex0x (encodeCall call)
  firstUs := 0
  announceUs := 3
  tipGwei := 100

def logFrom (call : OracleCall) (hash emitter : UInt8) : RpcLog :=
  synthLog call (hex0x (List.replicate 32 hash)) 0 (hex0x (List.replicate 20 emitter))
    (Bytes.fill 20 9)

def otherMarkets : List (Tagged FeedItem) :=
  [.both (.loadSenders [(Bytes.fill 20 9, ⟨100, 0⟩)]),
    .inserted (.line (lineTo { testProposed with requester := Bytes.fill 20 2 } 1 6) fun _ => 4),
    .inserted (.log (logFrom { testProposed with requester := Bytes.fill 20 3 } 8 6) 5),
    .both (.line (lineTo testProposed 2 5) fun _ => 6)]

/-- The proposal is let through in both traces, and its event is passed on. -/
theorem foreign_contract_of_other_markets :
    ∃ s, run (Sides.step testKeccak guardedFeed) .init
        (otherMarkets.flatMap (Tagged.flatMap (FeedItem.ops testKeccak))) = some s ∧
      s.verdicts = [(none, none), (some .emit, some .emit)] ∧ s.alone.sent.length = 1 ∧
      s.alone.sent = s.joined.sent := by
  refine exists_some_imp (P := fun s => s.verdicts = [(none, none), (some .emit, some .emit)] ∧
    s.alone.sent.length = 1) (by decide +kernel) ?_
  rintro s hs ⟨hverdicts, hsent⟩
  have hforeign : ∀ item, .inserted item ∈ otherMarkets →
      item.Foreign guardedFeed.contractAddressBytes := by
    intro item hitem
    simp only [otherMarkets, List.mem_cons, List.not_mem_nil, or_false, reduceCtorEq, false_or,
      Tagged.inserted.injEq] at hitem
    rcases hitem with rfl | rfl
    · show ForeignContract _ (hex0x (List.replicate 20 6))
      decide +kernel
    · show ForeignContract _ (hex0x (List.replicate 20 6))
      decide +kernel
  have hsame := foreign_contracts_change_nothing testKeccak guardedFeed (by decide) hforeign
    (by decide +kernel) hs
  simp_all

theorem proposal_blocked_by_foreign_contract :
    ForeignContract guardedFeed.contractAddressBytes (hex0x (List.replicate 20 6)) ∧
    (∃ s, run (Sides.step testKeccak guardedFeed) .init
        (List.flatMap (Tagged.flatMap (FeedItem.ops testKeccak))
          [.both (.loadSenders [(Bytes.fill 20 9, ⟨100, 0⟩)]),
            .inserted (.line (lineTo testProposed 1 6) fun _ => 4),
            .both (.line (lineTo testProposed 2 5) fun _ => 5)]) = some s ∧
      s.verdicts = [(none, none), (some .emit, some (.drop .duplicate))] ∧
      s.alone.sent.length = 1 ∧ s.joined.sent = []) ∧
    ∃ s, run (Sides.step testKeccak guardedFeed) .init
        (List.flatMap (Tagged.flatMap (FeedItem.ops testKeccak))
          [.both (.loadSenders [(Bytes.fill 20 9, ⟨100, 0⟩)]),
            .inserted (.log (logFrom testProposed 8 6) 4),
            .both (.line (lineTo testProposed 2 5) fun _ => 5)]) = some s ∧
      s.verdicts = [(none, none), (some .emit, some (.drop .alreadyProposed))] ∧
      s.alone.sent.length = 1 ∧ s.joined.sent = [] :=
  ⟨by decide +kernel, exists_some_of_any (by decide +kernel),
    exists_some_of_any (by decide +kernel)⟩

end RustUma.Mempool
