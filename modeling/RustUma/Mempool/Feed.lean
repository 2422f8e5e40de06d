import RustUma.Enrichment.Catalog
import RustUma.Mempool.Gate
import RustUma.Pipeline.Processor

/-!
# The feed of pending transactions (`src/mempool/feed.rs` `run_pending_feed`)

A line is decoded to calls, all of them are put to the gate under one lock, and the logs of those
that were let through go through `Processor::process` one after the other. The next line is read
after that.
-/

namespace RustUma.Mempool

open RustUma.Found RustUma.Model RustUma.Uma RustUma.Pipeline RustUma.Hub RustUma.Enrichment

/-! ## Lines -/

structure PendingLine where
  kind : String
  hash : List Char
  sender : List Char
  target : List Char
  input : List Char
  firstUs : ℕ
  announceUs : ℕ
  tipGwei : ℕ
  deriving DecidableEq

def addr20 (text : List Char) : Option (Bytes 20) := (hexDecode (trimMarks text)).bind (fixed 20)

namespace PendingLine

def decode (line : PendingLine) : Option (Bytes 20 × List (ℕ × OracleCall)) := do
  if line.kind ≠ "p2p_match" ∨ line.input = [] then none
  let input ← hexDecode (trimMarks line.input)
  let sender ← addr20 line.sender
  let calls := decodeInput input
  if calls = [] then none
  return (sender, (List.range calls.length).zip calls)

def first (line : PendingLine) : ℕ := if 0 < line.firstUs then line.firstUs else line.announceUs

def log (line : PendingLine) (sender : Bytes 20) (item : ℕ × OracleCall) : RpcLog :=
  synthLog item.2 line.hash item.1 line.target sender

def pending (line : PendingLine) (sender : Bytes 20) (call : OracleCall) (nowUs : ℕ) : Pending :=
  ⟨call, sender, line.tipGwei, line.hash, nowUs⟩

end PendingLine

/-! ## The task -/

inductive FeedPhase
  | idle
  | checking (line : PendingLine) (sender : Bytes 20) (calls emit : List (ℕ × OracleCall))
  | sending (line : PendingLine) (sender : Bytes 20) (emit : List (ℕ × OracleCall))
  | processing (line : PendingLine) (sender : Bytes 20) (i : ℕ) (item : ℕ × OracleCall)
      (emit : List (ℕ × OracleCall))
  deriving DecidableEq

structure FeedConfig where
  gate : GateConfig
  contractAddressBytes : List (Bytes 20)
  requireMarketId : Bool

structure Feed where
  gate : Gate
  proc : Processor
  phase : FeedPhase
  started : ℕ

inductive FeedAction
  | line (line : PendingLine)
  | check (nowUs : ℕ)
  | unlock
  | process
  | proc (a : Action)
  | next
  | gate (op : GateOp)
  | recvBatch
  | closeBatch
  | recvStorage
  | closeStorage

def GateOp.isCheck : GateOp → Bool
  | .check _ => true
  | _ => false

def FeedPhase.isChecking : FeedPhase → Bool
  | .checking _ _ _ _ => true
  | _ => false

namespace Feed

def init (events : EventHub) (batchCapacity storageCapacity : ℕ) (stats : Stats)
    (initialSequence : ℕ) : Feed where
  gate := .new
  proc := .new events batchCapacity storageCapacity stats initialSequence
  phase := .idle
  started := 0

section Step

variable (keccak : List UInt8 → Bytes 32) (config : FeedConfig)

def decoded (line : PendingLine) (sender : Bytes 20) (item : ℕ × OracleCall) :
    Except DecodeError UmaEvent :=
  decodeSignalLog keccak (line.log sender item) line.first config.contractAddressBytes
    config.requireMarketId

def step (s : Feed) : FeedAction → Option Feed
  | .line line =>
    match s.phase with
    | .idle =>
      match line.decode with
      | some (sender, calls) => some { s with phase := .checking line sender calls [] }
      | none => some s
    | _ => none
  | .check nowUs =>
    match s.phase with
    | .checking line sender (item :: calls) emit =>
      (s.gate.check keccak config.gate (line.pending sender item.2 nowUs)).map fun r =>
        { s with
          gate := r.1
          phase := .checking line sender calls
            (if r.2 = .emit then emit ++ [item] else emit) }
    | _ => none
  | .unlock =>
    match s.phase with
    | .checking line sender [] emit => some { s with phase := .sending line sender emit }
    | _ => none
  | .process =>
    match s.phase with
    | .sending line sender (item :: emit) =>
      (s.proc.step (.receive s.started (decoded keccak config line sender item).toOption
        line.first "mempool")).map fun proc =>
          { s with
            proc := proc
            phase := .processing line sender s.started item emit
            started := s.started + 1 }
    | _ => none
  | .proc a =>
    match s.phase with
    | .processing _ _ i _ _ =>
      if a.call? = some i then (s.proc.step a).map fun proc => { s with proc := proc } else none
    | _ => none
  | .next =>
    match s.phase with
    | .sending _ _ [] => some { s with phase := .idle }
    | .processing line sender i _ emit =>
      if (s.proc.calls i).phase = .done then
        some { s with phase := .sending line sender emit }
      else none
    | _ => none
  | .gate op =>
    if op.isCheck ∨ s.phase.isChecking then none
    else (s.gate.step keccak config.gate op).map fun gate => { s with gate := gate }
  | .recvBatch =>
    s.proc.batchTx.recv.map fun r => { s with proc := { s.proc with batchTx := r.2 } }
  | .closeBatch => some { s with proc := { s.proc with batchTx := s.proc.batchTx.close } }
  | .recvStorage =>
    s.proc.storageTx.recv.map fun r => { s with proc := { s.proc with storageTx := r.2 } }
  | .closeStorage => some { s with proc := { s.proc with storageTx := s.proc.storageTx.close } }

def Passes (s : Feed) : FeedAction → Prop
  | .check _ =>
    match s.phase with
    | .checking _ _ (item :: _) emit => ∀ e ∈ emit,
        ¬(e.2.requestKey keccak = item.2.requestKey keccak ∧ e.2.kind = item.2.kind)
    | _ => True
  | .process =>
    match s.phase with
    | .sending line sender (item :: _) => (decoded keccak config line sender item).toOption.isSome
    | _ => True
  | .proc (.contains i) =>
    match (s.proc.calls i).phase with
    | .decoded event => event.key ∉ s.proc.events.keys
    | _ => True
  | .proc (.resolve _ row) => row.isSome
  | .proc (.insert i) =>
    match (s.proc.calls i).phase with
    | .sequenced record => record.key ∉ s.proc.events.keys
    | _ => True
  | .proc (.lookup _ blocked) => blocked = none
  | .proc (.send _) => s.proc.batchTx.closed = false
  | _ => True

instance (s : Feed) (a : FeedAction) : Decidable (s.Passes keccak config a) := by
  unfold Passes
  split
  · split <;> infer_instance
  · split <;> infer_instance
  · split <;> infer_instance
  · infer_instance
  · split <;> infer_instance
  · infer_instance
  · infer_instance
  · infer_instance

end Step

end Feed

/-! ## Marks -/

def Marks.Emitted (m : Marks) : CallKind → Prop
  | .propose => m.emittedPrice.isSome = true
  | .dispute => m.emittedDispute = true

lemma not_emitted_default (kind : CallKind) : ¬(({} : Marks).Emitted kind) := by
  cases kind <;> exact Bool.false_ne_true

variable {m : Marks} {kind : CallKind} {price : Bytes 32} {keccak : List UInt8 → Bytes 32}
  {config : GateConfig} {g g' : Gate}

lemma Marks.emitted_of_judge {trusted lowTip : Bool} {why : Drop}
    (hwhy : why = .duplicate ∨ why = .conflict)
    (h : (m.judge kind price trusted lowTip).2 = .drop why) : m.Emitted kind := by
  unfold judge at h
  cases kind with
  | propose =>
    cases hemitted : m.emittedPrice with
    | some price' =>
      show m.emittedPrice.isSome = true
      rw [hemitted]
      rfl
    | none =>
      grind
  | dispute =>
    dsimp only at h
    split_ifs at h with hdisputed hemitted hlow
    · grind
    · exact hemitted
    grind

lemma Marks.emitted_emit {kind' : CallKind} (h : (m.emit kind price).Emitted kind') :
    m.Emitted kind' ∨ kind' = kind := by
  cases kind <;> cases kind'
  · exact Or.inr rfl
  · exact Or.inl h
  · exact Or.inl h
  · exact Or.inr rfl

lemma Marks.emitted_confirm {kind' : CallKind} (h : (m.confirm kind price).Emitted kind') :
    m.Emitted kind' := by
  unfold confirm at h
  cases kind with
  | propose =>
    split_ifs at h
    · cases kind' <;> exact h
    · exact h
  | dispute => cases kind' <;> exact h

lemma Gate.emitted_before {op : GateOp} {key : RequestKey} (h : g.step keccak config op = some g')
    (hop : op.isCheck = false) (hemitted : (g'.marks key).Emitted kind) :
    (g.marks key).Emitted kind := by
  cases op with
  | check p => cases hop
  | onConfirmed kind' other price txHash nowUs =>
    cases h
    by_cases hkey : key = other
    · subst hkey
      rw [marks_onConfirmed] at hemitted
      exact Marks.emitted_confirm hemitted
    · have hreqs : (g.onConfirmed kind' other price txHash nowUs).reqs key = g.reqs key :=
        Function.update_of_ne hkey _ _
      rwa [marks_congr hreqs] at hemitted
  | tipFloor nowUs =>
    obtain rfl := step_tipFloor h
    exact hemitted
  | prune nowUs =>
    cases h
    by_cases hkept : Kept config key g (.prune nowUs)
    · rwa [marks_prune hkept] at hemitted
    · have hnone : (g.prune config nowUs).reqs key = none := by
        show (g.reqs key).filter _ = none
        cases hst : g.reqs key with
        | none => rfl
        | some st =>
          refine Option.filter_some_neg (decide_eq_false fun hyoung => hkept ?_)
          intro st' hst'
          simp_all
      unfold marks at hemitted
      rw [hnone] at hemitted
      exact absurd hemitted (not_emitted_default kind)
  | loadSenders stats =>
    cases h
    exact hemitted

lemma Gate.Checked.emitted_before {p : Pending} {verdict : Verdict} {key : RequestKey}
    (h : Checked keccak config g p g' verdict) (hemitted : (g'.marks key).Emitted kind) :
    (g.marks key).Emitted kind ∨
      verdict = .emit ∧ p.call.requestKey keccak = key ∧ p.call.kind = kind := by
  by_cases hkey : p.call.requestKey keccak = key
  · rcases h.marks_self hkey with ⟨-, hverdict, hmarks⟩ | ⟨-, hmarks⟩
    · rw [hmarks] at hemitted
      rcases Marks.emitted_emit hemitted with hbefore | hkind
      · exact Or.inl hbefore
      simp_all
    simp_all
  · rw [h.marks_of_ne (Ne.symm hkey)] at hemitted
    exact Or.inl hemitted

lemma Gate.Checked.emitted_of_drop {p : Pending} {why : Drop}
    (hwhy : why = .duplicate ∨ why = .conflict) (h : Checked keccak config g p g' (.drop why)) :
    (g.marks (p.call.requestKey keccak)).Emitted p.call.kind := by
  generalize hverdict : Verdict.drop why = verdict at h
  cases h with
  | stale hround hold => simp_all
  | judged hround hfloor hst hjudge =>
    subst hjudge hst
    have hemitted := Marks.emitted_of_judge hwhy hverdict.symm
    rwa [record_toMarks] at hemitted

/-! ## Sent or on its way -/

def FeedPhase.inFlight : FeedPhase → List (ℕ × OracleCall)
  | .idle => []
  | .checking _ _ _ emit => emit
  | .sending _ _ emit => emit
  | .processing _ _ _ item emit => item :: emit

def OnWay (sent : List EventRecord) (result : Except DecodeError UmaEvent) : Pipeline.Phase → Prop
  | .idle => False
  | .decoded event => result = .ok event
  | .fresh event => result = .ok event
  | .resolved event row => result = .ok event ∧ row.isSome = true
  | .sequenced record => result = .ok record.event ∧ record.enrichment.isSome = true
  | .inserted record => result = .ok record.event ∧ record.enrichment.isSome = true
  | .admitted record => result = .ok record.event ∧ record.enrichment.isSome = true
  | .stored record => result = .ok record.event ∧ record.enrichment.isSome = true
  | .unblocked record => result = .ok record.event ∧ record.enrichment.isSome = true
  | .done => ∃ record ∈ sent, result = .ok record.event

namespace Feed

variable {keccak : List UInt8 → Bytes 32} {config : FeedConfig} {s s' : Feed}

variable {i : ℕ} {proc : Processor} {line : PendingLine} {sender : Bytes 20} {item : ℕ × OracleCall}
  {emit : List (ℕ × OracleCall)}

lemma onWay_step {result : Except DecodeError UmaEvent} {a : Action}
    (h : OnWay s.proc.sent result (s.proc.calls i).phase) (hcall : a.call? = some i)
    (hok : s.Passes keccak config (.proc a)) (hstep : s.proc.Step a proc) :
    OnWay proc.sent result (proc.calls i).phase := by
  have hmove : ∀ {sent : List EventRecord} {phase : Pipeline.Phase}, OnWay sent result phase →
      OnWay sent result (s.proc.setPhase i phase i).phase := by
    intro sent phase honway
    unfold Processor.setPhase
    grind
  have hafter : ∀ {record : EventRecord}, result = .ok record.event ∧
      record.enrichment.isSome = true → OnWay s.proc.sent result (.afterStore record) := by
    intro record honway
    unfold Phase.afterStore
    rwa [if_pos honway.2]
  cases hstep with
  | undecodable j receivedAtUs source hphase | decode j event receivedAtUs source hphase =>
    cases hcall
    rw [hphase] at h
    exact h.elim
  | known j event hphase hkey | lose j record hphase hkey =>
    simp only [Passes, hphase] at hok
    exact absurd hkey hok
  | unknown j event hphase hkey | fetchAdd j event row hphase | accept j record hphase hkey
  | credit j record hphase | unblocked j record hphase =>
    cases hcall
    rw [hphase] at h
    exact hmove h
  | resolve j event row hphase =>
    cases hcall
    rw [hphase] at h
    exact hmove ⟨h, hok⟩
  | store j record hphase hroom | drop j record hphase hroom =>
    cases hcall
    rw [hphase] at h
    exact hmove (hafter h)
  | blocked j record matchId hphase => cases hok
  | sendFailed j record hphase hclosed =>
    rw [show s.proc.batchTx.closed = false from hok] at hclosed
    cases hclosed
  | send j record hphase hroom =>
    cases hcall
    rw [hphase] at h
    exact hmove ⟨record, List.mem_append_right _ (List.mem_singleton_self _), h.1⟩
  | checkpoint block hroom => cases hcall
  | checkpointDropped block hroom => cases hcall

def SentFor (keccak : List UInt8 → Bytes 32) (config : FeedConfig) (sent : List EventRecord)
    (key : RequestKey) (kind : CallKind) : Prop :=
  ∃ record ∈ sent, ∃ line sender item, item.2.requestKey keccak = key ∧ item.2.kind = kind ∧
    decoded keccak config line sender item = .ok record.event

lemma SentFor.mono {sent sent' : List EventRecord} {key : RequestKey} {kind : CallKind}
    (h : SentFor keccak config sent key kind) (hsub : sent ⊆ sent') :
    SentFor keccak config sent' key kind := by
  obtain ⟨record, hrecord, hfor⟩ := h
  exact ⟨record, hsub hrecord, hfor⟩

structure Accounted (keccak : List UInt8 → Bytes 32) (config : FeedConfig) (s : Feed) : Prop where
  emitted : ∀ key kind, (s.gate.marks key).Emitted kind →
    SentFor keccak config s.proc.sent key kind ∨
      ∃ e ∈ s.phase.inFlight, e.2.requestKey keccak = key ∧ e.2.kind = kind
  current : ∀ line sender i item emit, s.phase = .processing line sender i item emit →
    OnWay s.proc.sent (decoded keccak config line sender item) (s.proc.calls i).phase

lemma accounted_init (events : EventHub) (batchCapacity storageCapacity : ℕ) (stats : Stats)
    (initialSequence : ℕ) :
    Accounted keccak config (.init events batchCapacity storageCapacity stats initialSequence) where
  emitted _ kind hemitted := absurd hemitted (not_emitted_default kind)
  current _ _ _ _ _ hphase := by cases hphase

lemma Accounted.setPhase (h : Accounted keccak config s) {phase : FeedPhase}
    (hflight : s.phase.inFlight ⊆ phase.inFlight)
    (hphase : ∀ line sender i item emit, phase ≠ .processing line sender i item emit) :
    Accounted keccak config { s with phase := phase } := by
  refine ⟨fun key kind hemitted => ?_, fun line sender i item emit heq => ?_⟩
  · rcases h.emitted key kind hemitted with hsent | ⟨e, he, hfor⟩
    · exact Or.inl hsent
    grind
  simp_all

lemma Accounted.setProc (h : Accounted keccak config s) (hsent : proc.sent = s.proc.sent)
    (hcalls : proc.calls = s.proc.calls) :
    Accounted keccak config { s with proc := proc } := by
  refine ⟨fun key kind hemitted => ?_, fun line sender i item emit heq => ?_⟩
  · rw [hsent]
    exact h.emitted key kind hemitted
  · rw [hsent, hcalls]
    exact h.current line sender i item emit heq

lemma Accounted.check (h : Accounted keccak config s) {calls : List (ℕ × OracleCall)} {nowUs : ℕ}
    {gate : Gate} {verdict : Verdict}
    (hphase : s.phase = .checking line sender (item :: calls) emit)
    (hcheck : s.gate.check keccak config.gate (line.pending sender item.2 nowUs) = some (gate,
      verdict))
    :
    Accounted keccak config { s with
      gate := gate
      phase :=
        .checking line sender calls (if verdict = .emit then emit ++ [item] else emit) } := by
  refine ⟨fun key kind hemitted => ?_, fun _ _ _ _ _ heq => by cases heq⟩
  have hkeep : ∀ e ∈ s.phase.inFlight, e ∈ if verdict = .emit then emit ++ [item] else emit := by
    intro e he
    rw [hphase] at he
    split_ifs
    · exact List.mem_append_left _ he
    · exact he
  rcases (Gate.check_sound hcheck).emitted_before hemitted with hbefore | ⟨rfl, hkey, hkind⟩
  · rcases h.emitted key kind hbefore with hsent | ⟨e, he, hfor⟩
    · exact Or.inl hsent
    · exact Or.inr ⟨e, hkeep e he, hfor⟩
  · refine Or.inr ⟨item, ?_, hkey, hkind⟩
    exact List.mem_append_right _ (List.mem_singleton_self _)

lemma Accounted.process (h : Accounted keccak config s) {event : UmaEvent}
    (hphase : s.phase = .sending line sender (item :: emit))
    (hevent : decoded keccak config line sender item = .ok event)
    (hproc : s.proc.Step (.receive s.started (some event) line.first "mempool") proc) :
    Accounted keccak config { s with
      proc := proc
      phase := .processing line sender s.started item emit
      started := s.started + 1 } := by
  cases hproc with
  | decode i event receivedAtUs source hidle =>
    refine ⟨fun key kind hemitted => ?_, fun line' sender' i' item' emit' heq => ?_⟩
    · have hflight := h.emitted key kind hemitted
      rwa [hphase] at hflight
    · cases heq
      show OnWay _ _ (Function.update s.proc.calls s.started _ s.started).phase
      rw [Function.update_self]
      exact hevent

lemma Accounted.access (h : Accounted keccak config s) {a : Action}
    (hphase : s.phase = .processing line sender i item emit) (hcall : a.call? = some i)
    (hok : s.Passes keccak config (.proc a)) (hproc : s.proc.Step a proc) :
    Accounted keccak config { s with proc := proc } := by
  refine ⟨fun key kind hemitted => ?_, fun line' sender' i' item' emit' heq => ?_⟩
  · rcases h.emitted key kind hemitted with hsent | hflight
    · exact Or.inl (hsent.mono hproc.sent_subset)
    · exact Or.inr hflight
  · cases hphase.symm.trans heq
    exact onWay_step (h.current _ _ _ _ _ hphase) hcall hok hproc

lemma Accounted.finish (h : Accounted keccak config s)
    (hphase : s.phase = .processing line sender i item emit)
    (hdone : (s.proc.calls i).phase = .done) :
    Accounted keccak config { s with phase := .sending line sender emit } := by
  have hcurrent := h.current _ _ _ _ _ hphase
  rw [hdone] at hcurrent
  obtain ⟨record, hrecord, hdecoded⟩ := hcurrent
  refine ⟨fun key kind hemitted => ?_, fun _ _ _ _ _ heq => by cases heq⟩
  rcases h.emitted key kind hemitted with hsent | ⟨e, he, hkey, hkind⟩
  · exact Or.inl hsent
  · rw [hphase] at he
    rcases List.mem_cons.mp he with rfl | he
    · exact Or.inl ⟨record, hrecord, line, sender, e, hkey, hkind, hdecoded⟩
    · exact Or.inr ⟨e, he, hkey, hkind⟩

lemma Accounted.step (h : Accounted keccak config s) {a : FeedAction}
    (hok : s.Passes keccak config a) (hstep : s.step keccak config a = some s') :
    Accounted keccak config s' := by
  obtain ⟨gate, proc, phase, started⟩ := s
  cases a with
  | line line =>
    cases phase with
    | idle =>
      unfold Feed.step at hstep
      dsimp only at hstep
      split at hstep
      · cases hstep
        exact h.setPhase (List.Subset.refl _) fun _ _ _ _ _ hne => by cases hne
      simp_all
    | _ => cases hstep
  | check nowUs =>
    unfold Feed.step at hstep
    dsimp only at hstep
    split at hstep
    · obtain ⟨⟨gate', verdict⟩, hcheck, rfl⟩ := Option.map_eq_some_iff.mp hstep
      exact h.check rfl hcheck
    · cases hstep
  | unlock =>
    unfold Feed.step at hstep
    dsimp only at hstep
    split at hstep
    · cases hstep
      exact h.setPhase (List.Subset.refl _) fun _ _ _ _ _ hne => by cases hne
    · cases hstep
  | process =>
    unfold Feed.step at hstep
    dsimp only at hstep
    split at hstep
    · next line sender item emit =>
      obtain ⟨proc', hproc, rfl⟩ := Option.map_eq_some_iff.mp hstep
      cases hresult : decoded keccak config line sender item with
      | error e =>
        simp only [Passes, hresult] at hok
        cases hok
      | ok event =>
        rw [hresult] at hproc
        exact h.process rfl hresult (Processor.step_sound hproc)
    · cases hstep
  | proc a =>
    unfold Feed.step at hstep
    dsimp only at hstep
    split at hstep
    · rw [Option.ite_none_right_eq_some] at hstep
      obtain ⟨hcall, hstep⟩ := hstep
      obtain ⟨proc', hproc, rfl⟩ := Option.map_eq_some_iff.mp hstep
      exact h.access rfl hcall hok (Processor.step_sound hproc)
    · cases hstep
  | next =>
    unfold Feed.step at hstep
    dsimp only at hstep
    split at hstep
    · cases hstep
      exact h.setPhase (List.Subset.refl _) fun _ _ _ _ _ hne => by cases hne
    · rw [Option.ite_none_right_eq_some] at hstep
      obtain ⟨hdone, hstep⟩ := hstep
      cases hstep
      exact h.finish rfl hdone
    · cases hstep
  | gate op =>
    simp only [Feed.step, Option.ite_none_left_eq_some] at hstep
    obtain ⟨hop, hstep⟩ := hstep
    obtain ⟨g, hgate, rfl⟩ := Option.map_eq_some_iff.mp hstep
    have hcheck : op.isCheck = false := Bool.eq_false_iff.mpr fun hset => hop (Or.inl hset)
    refine ⟨fun key kind hemitted => ?_, h.current⟩
    exact h.emitted key kind (Gate.emitted_before hgate hcheck hemitted)
  | recvBatch | recvStorage =>
    obtain ⟨r, -, rfl⟩ := Option.map_eq_some_iff.mp hstep
    exact h.setProc rfl rfl
  | closeBatch =>
    cases hstep
    exact h.setProc rfl rfl
  | closeStorage =>
    cases hstep
    exact h.setProc rfl rfl

end Feed

theorem blocked_only_after_sent (keccak : List UInt8 → Bytes 32) (config : FeedConfig)
    (events : EventHub) (batchCapacity storageCapacity : ℕ) (stats : Stats) (initialSequence : ℕ)
    {as : List FeedAction} {s : Feed} {nowUs : ℕ}
    (hok : AllSteps (Feed.step keccak config) (Feed.Passes keccak config)
      (.init events batchCapacity storageCapacity stats initialSequence) (as ++ [.check nowUs]))
    (hs : run (Feed.step keccak config)
      (.init events batchCapacity storageCapacity stats initialSequence) as = some s)
    {line : PendingLine} {sender : Bytes 20} {item : ℕ × OracleCall}
    {calls emit : List (ℕ × OracleCall)} {gate : Gate} {why : Drop}
    (hphase : s.phase = .checking line sender (item :: calls) emit)
    (hcheck : s.gate.check keccak config.gate (line.pending sender item.2 nowUs) =
      some (gate, .drop why)) (hwhy : why = .duplicate ∨ why = .conflict) :
    ∃ record ∈ s.proc.sent,
      record.event.kind = item.2.kind.eventKind ∧
      record.event.request.requester = item.2.requester ∧
      record.event.request.ancillary.questionId = keccak item.2.ancillary.1 ∧
      ∃ line' sender' item', item'.2.requestKey keccak = item.2.requestKey keccak ∧
        item'.2.kind = item.2.kind ∧
        Feed.decoded keccak config line' sender' item' = .ok record.event := by
  have haccounted : Feed.Accounted keccak config s :=
    run_invariant (fun _ _ _ h hpass hstep => h.step hpass hstep)
      (Feed.accounted_init events batchCapacity storageCapacity stats initialSequence)
      hok.take hs
  have hemitted : (s.gate.marks (item.2.requestKey keccak)).Emitted item.2.kind :=
    (Gate.check_sound hcheck).emitted_of_drop hwhy
  obtain ⟨hpass, -⟩ := hok.drop hs
  simp only [Feed.Passes, hphase] at hpass
  rcases haccounted.emitted _ _ hemitted with ⟨record, hrecord, line', sender', item', hkey, hkind,
    hdecoded⟩ | ⟨e, he, hkey, hkind⟩
  · obtain ⟨hash, hsignal⟩ :=
      eq_signal_of_decodeSignalLog keccak item'.2 sender' line'.first hdecoded
    refine ⟨record, hrecord, ?_, ?_, ?_, line', sender', item', hkey, hkind, hdecoded⟩
    · rw [hsignal, signal_kind, hkind]
    · rw [hsignal, signal_request]
      exact congrArg RequestKey.requester hkey
    · rw [hsignal, signal_request]
      exact congrArg RequestKey.questionId hkey
  · rw [hphase] at he
    exact absurd ⟨hkey, hkind⟩ (hpass e he)

def testProposed : OracleCall := testCall .propose 10 0 testAncillary

def testProposal (hash : UInt8) : PendingLine where
  kind := "p2p_match"
  hash := hex0x (List.replicate 32 hash)
  sender := hex0x (List.replicate 20 9)
  target := hex0x (List.replicate 20 5)
  input := hex0x (selPropose ++ (List.replicate 12 0 ++ testProposed.requester.1) ++
    testProposed.identifier.1 ++ testProposed.timestamp.1 ++ u64ToWord 160 ++
    testProposed.price.1 ++ u64ToWord testAncillary.1.length ++ testAncillary.1)
  firstUs := 0
  announceUs := 3
  tipGwei := 100

def testFeed : FeedConfig := ⟨testGate, [], true⟩

def testLetThrough (row : Option MarketEnrichment) : List FeedAction :=
  [.gate (.loadSenders [(Bytes.fill 20 9, ⟨100, 0⟩)]), .line (testProposal 1), .check 5, .unlock,
    .process, .proc (.contains 0), .proc (.resolve 0 row), .proc (.fetchAdd 0), .proc (.insert 0),
    .proc (.credit 0), .proc (.store 0)]

/-- The same proposal in another transaction is a duplicate, and the event was sent. -/
theorem blocked_after_sent_proposal :
    ∃ s, run (Feed.step testKeccak testFeed) (.init (.new 8) 4 4 {} 0)
        (testLetThrough (some (testRow 907474 1)) ++
          [.proc (.lookup 0 none), .proc (.send 0), .next, .next, .line (testProposal 2)]) =
        some s ∧
      (s.gate.check testKeccak testGate
        ((testProposal 2).pending (Bytes.fill 20 9) testProposed 6)).map Prod.snd =
          some (.drop .duplicate) ∧
      ∃ record ∈ s.proc.sent, record.event.kind = .propose ∧
        record.event.request.requester = testProposed.requester := by
  have hok : AllSteps (Feed.step testKeccak testFeed) (Feed.Passes testKeccak testFeed)
      (.init (.new 8) 4 4 {} 0)
      ((testLetThrough (some (testRow 907474 1)) ++
        [.proc (.lookup 0 none), .proc (.send 0), .next, .next, .line (testProposal 2)]) ++
          [.check 6]) := by decide +kernel
  refine exists_some_imp (P := fun s =>
    s.phase = .checking (testProposal 2) (Bytes.fill 20 9) [(0, testProposed)] [] ∧
    (s.gate.check testKeccak testGate
      ((testProposal 2).pending (Bytes.fill 20 9) testProposed 6)).map Prod.snd =
        some (.drop .duplicate)) (by decide +kernel) ?_
  rintro s hs ⟨hphase, hverdict⟩
  refine ⟨hverdict, ?_⟩
  obtain ⟨⟨gate, verdict⟩, hcheck, rfl⟩ := Option.map_eq_some_iff.mp hverdict
  obtain ⟨record, hrecord, hkind, hrequester, -⟩ :=
    blocked_only_after_sent testKeccak testFeed (.new 8) 4 4 {} 0 hok hs hphase hcheck (Or.inl rfl)
  exact ⟨record, hrecord, hkind, hrequester⟩

/-- **A request that is blocked and was never sent.** A proposal is let through, but its market is
not in the catalog, and `process` sends nothing. The same proposal in another transaction is then
dropped as a duplicate. -/
theorem blocked_without_signal :
    ∃ s, run (Feed.step testKeccak testFeed) (.init (.new 8) 4 4 {} 0)
        (testLetThrough none ++ [.next, .next, .line (testProposal 2)]) = some s ∧
      s.phase = .checking (testProposal 2) (Bytes.fill 20 9) [(0, testProposed)] [] ∧
      (s.gate.check testKeccak testGate
        ((testProposal 2).pending (Bytes.fill 20 9) testProposed 6)).map Prod.snd =
          some (.drop .duplicate) ∧
      s.proc.sent = [] :=
  exists_some_of_any (by decide +kernel)

end RustUma.Mempool
