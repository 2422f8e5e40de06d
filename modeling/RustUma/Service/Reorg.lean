import RustUma.Service.ExactlyOnce

/-!
# A log that a reorganisation removes and includes again

The chain reports a log with `removed = false` when it is included and with `removed = true` when a
reorganisation takes it back, and the two alternate. Deduplication is keyed by the transaction, the
log index *and* the flag, so each flag passes once.
-/

namespace RustUma.Service

open RustUma.Found RustUma.Model RustUma.Hub RustUma.Pipeline

def eventOf : Phase → Option UmaEvent
  | .idle => none
  | .decoded e => some e
  | .fresh e => some e
  | .resolved e _ => some e
  | .sequenced r => some r.event
  | .inserted r => some r.event
  | .admitted r => some r.event
  | .stored r => some r.event
  | .unblocked r => some r.event
  | .done => none

section

variable (tx : Bytes 32) (idx : ℕ)

def About (e : UmaEvent) : Prop := e.chain.transactionHash = tx ∧ e.chain.logIndex = idx

instance (e : UmaEvent) : Decidable (About tx idx e) := inferInstanceAs (Decidable (_ ∧ _))

def Calm (phase : Phase) : Prop := ∀ e ∈ eventOf phase, ¬ About tx idx e

instance (phase : Phase) : Decidable (Calm tx idx phase) :=
  inferInstanceAs (Decidable (∀ _ ∈ _, _))

def flags (records : List EventRecord) : List Bool :=
  (records.filter fun r => About tx idx r.event).map fun r => r.event.chain.removed

def notification : ServerAction → Option Bool
  | .process (.receive _ (some e) _ _) => if About tx idx e then some e.chain.removed else none
  | _ => none

def notifications (as : List ServerAction) : List Bool := as.filterMap (notification tx idx)

def InTurn (s : Server) : ServerAction → Prop
  | .process (.receive _ (some e) _ _) =>
    About tx idx e → ∀ j, Calm tx idx (s.proc.calls j).phase
  | _ => True

def Undisturbed (s : Server) : ServerAction → Prop
  | .process (.resolve i row) => ¬ Calm tx idx (s.proc.calls i).phase → row.isSome = true
  | .process (.insert _) => s.proc.events.events.length < s.proc.events.capacity
  | .process (.lookup i blocked) => ¬ Calm tx idx (s.proc.calls i).phase → blocked = none
  | .process (.send i) => ¬ Calm tx idx (s.proc.calls i).phase → s.proc.batchTx.closed = false
  | _ => True

instance (s : Server) (a : ServerAction) : Decidable (Undisturbed tx idx s a) := by
  delta Undisturbed
  split <;> infer_instance

end

def firsts (history : List Bool) : List Bool :=
  history.foldl (fun seen b => if b ∈ seen then seen else seen ++ [b]) []

lemma firsts_concat_of_mem {history : List Bool} {b : Bool} (h : b ∈ firsts history) :
    firsts (history ++ [b]) = firsts history := by
  unfold firsts at h ⊢
  simp_all

lemma firsts_concat_of_notMem {history : List Bool} {b : Bool} (h : b ∉ firsts history) :
    firsts (history ++ [b]) = firsts history ++ [b] := by
  unfold firsts at h ⊢
  simp_all

variable {tx : Bytes 32} {idx : ℕ}

lemma About.key_eq {e : UmaEvent} (h : About tx idx e) : e.key = ⟨tx, idx, e.chain.removed⟩ := by
  unfold UmaEvent.key
  rw [h.1, h.2]

lemma About.of_key_eq {e : UmaEvent} {b : Bool} (h : e.key = ⟨tx, idx, b⟩) : About tx idx e :=
  ⟨congrArg EventKey.transactionHash h, congrArg EventKey.logIndex h⟩

lemma flags_concat_of_about {records : List EventRecord} {r : EventRecord}
    (h : About tx idx r.event) :
    flags tx idx (records ++ [r]) = flags tx idx records ++ [r.event.chain.removed] := by
  simp [flags, List.filter_append, h]

lemma flags_concat_of_not_about {records : List EventRecord} {r : EventRecord}
    (h : ¬ About tx idx r.event) : flags tx idx (records ++ [r]) = flags tx idx records := by
  simp [flags, List.filter_append, h]

/-! ## The invariant -/

def Seen (tx : Bytes 32) (idx : ℕ) (seen : List Bool) (p : Processor) : Prop :=
  ∀ b, (⟨tx, idx, b⟩ : EventKey) ∈ p.events.keys ↔ b ∈ seen

def Before (tx : Bytes 32) (idx : ℕ) (history : List Bool) (p : Processor) (b : Bool) : Prop :=
  ∃ earlier, history = earlier ++ [b] ∧ Seen tx idx (firsts earlier) p ∧
    flags tx idx p.sent = firsts earlier

def After (tx : Bytes 32) (idx : ℕ) (history : List Bool) (p : Processor) (b : Bool) : Prop :=
  ∃ earlier, history = earlier ++ [b] ∧ b ∉ firsts earlier ∧
    Seen tx idx (firsts earlier ++ [b]) p ∧ flags tx idx p.sent = firsts earlier

def Stage (tx : Bytes 32) (idx : ℕ) (history : List Bool) (p : Processor) : Phase → Prop
  | .decoded e => Before tx idx history p e.chain.removed
  | .fresh e => Before tx idx history p e.chain.removed
  | .resolved e row => Before tx idx history p e.chain.removed ∧ row.isSome = true
  | .sequenced r => Before tx idx history p r.event.chain.removed ∧ r.enrichment.isSome = true
  | .inserted r => After tx idx history p r.event.chain.removed ∧ r.enrichment.isSome = true
  | .admitted r => After tx idx history p r.event.chain.removed ∧ r.enrichment.isSome = true
  | .stored r => After tx idx history p r.event.chain.removed ∧ r.enrichment.isSome = true
  | .unblocked r => After tx idx history p r.event.chain.removed ∧ r.enrichment.isSome = true
  | .idle => True
  | .done => True

structure Reorg (tx : Bytes 32) (idx : ℕ) (history : List Bool) (p : Processor) : Prop where
  alone : ∀ j k, ¬ Calm tx idx (p.calls j).phase → ¬ Calm tx idx (p.calls k).phase → j = k
  calm : (∀ j, Calm tx idx (p.calls j).phase) →
    Seen tx idx (firsts history) p ∧ flags tx idx p.sent = firsts history
  stage : ∀ j, ¬ Calm tx idx (p.calls j).phase → Stage tx idx history p (p.calls j).phase

namespace Reorg

variable {history : List Bool} {p p' : Processor}

lemma stage_congr (hkeys : ∀ b, (⟨tx, idx, b⟩ : EventKey) ∈ p'.events.keys ↔
      (⟨tx, idx, b⟩ : EventKey) ∈ p.events.keys)
    (hflags : flags tx idx p'.sent = flags tx idx p.sent) (phase : Phase) :
    Stage tx idx history p' phase ↔ Stage tx idx history p phase := by
  have hseen : ∀ seen, Seen tx idx seen p' ↔ Seen tx idx seen p := by
    intro seen
    unfold Seen
    simp only [hkeys]
  cases phase <;> simp only [Stage, Before, After, hseen, hflags]

lemma frame (h : Reorg tx idx history p) (i : ℕ) (call : Call)
    (hold : Calm tx idx (p.calls i).phase) (hnew : Calm tx idx call.phase)
    (hcalls : p'.calls = Function.update p.calls i call)
    (hkeys : ∀ b, (⟨tx, idx, b⟩ : EventKey) ∈ p'.events.keys ↔
      (⟨tx, idx, b⟩ : EventKey) ∈ p.events.keys)
    (hflags : flags tx idx p'.sent = flags tx idx p.sent) : Reorg tx idx history p' := by
  have hsame : ∀ j, ¬ Calm tx idx (p'.calls j).phase → p'.calls j = p.calls j := by
    intro j hj
    rw [hcalls] at hj ⊢
    grind
  have hback : ∀ j, ¬ Calm tx idx (p'.calls j).phase → ¬ Calm tx idx (p.calls j).phase := by
    grind
  refine ⟨fun j k hj hk => h.alone j k (hback j hj) (hback k hk), ?_, ?_⟩
  · intro hall
    have hcalm : ∀ j, Calm tx idx (p.calls j).phase := by
      intro j
      by_cases hji : j = i
      · grind
      · have hj := hall j
        simp_all
    obtain ⟨hseen, hsent⟩ := h.calm hcalm
    exact ⟨fun b => (hkeys b).trans (hseen b), hflags.trans hsent⟩
  · intro j hj
    rw [stage_congr hkeys hflags, hsame j hj]
    exact h.stage j (hback j hj)

variable {i : ℕ} {e : UmaEvent} {record : EventRecord}

lemma others_calm (h : Reorg tx idx history p) (hi : ¬ Calm tx idx (p.calls i).phase) {j : ℕ}
    (hji : j ≠ i) : Calm tx idx (p.calls j).phase := by
  by_contra hj
  exact hji (h.alone j i hj hi)

lemma advance (i : ℕ) (call : Call) (hothers : ∀ j, j ≠ i → Calm tx idx (p.calls j).phase)
    (hcalls : p'.calls = Function.update p.calls i call) (hnew : ¬ Calm tx idx call.phase)
    (hstage : Stage tx idx history p' call.phase) : Reorg tx idx history p' := by
  have honly : ∀ j, ¬ Calm tx idx (p'.calls j).phase → j = i := by
    intro j hj
    by_contra hji
    simp_all
  refine ⟨fun j k hj hk => (honly j hj).trans (honly k hk).symm, ?_, ?_⟩
  · intro hall
    have hi := hall i
    simp_all
  simp_all

lemma settle (i : ℕ) (call : Call) (hothers : ∀ j, j ≠ i → Calm tx idx (p.calls j).phase)
    (hcalls : p'.calls = Function.update p.calls i call) (hnew : Calm tx idx call.phase)
    (hseen : Seen tx idx (firsts history) p') (hsent : flags tx idx p'.sent = firsts history) :
    Reorg tx idx history p' := by
  have hall : ∀ j, Calm tx idx (p'.calls j).phase := by
    intro j
    rw [hcalls]
    grind
  exact ⟨fun j _ hj => absurd (hall j) hj, fun _ => ⟨hseen, hsent⟩, fun j hj => absurd (hall j) hj⟩

lemma of_sameCore (h : Reorg tx idx history p) (hcore : p.SameCore p') :
    Reorg tx idx history p' := by
  have hkeys : ∀ b, (⟨tx, idx, b⟩ : EventKey) ∈ p'.events.keys ↔
      (⟨tx, idx, b⟩ : EventKey) ∈ p.events.keys := by
    intro b
    rw [hcore.events]
  have hflags : flags tx idx p'.sent = flags tx idx p.sent := by rw [hcore.sent]
  refine ⟨?_, ?_, ?_⟩
  · rw [hcore.calls]
    exact h.alone
  · intro hall
    rw [hcore.calls] at hall
    obtain ⟨hseen, hsent⟩ := h.calm hall
    exact ⟨fun b => (hkeys b).trans (hseen b), hflags.trans hsent⟩
  · intro j hj
    rw [hcore.calls] at hj ⊢
    rw [stage_congr hkeys hflags]
    exact h.stage j hj

lemma calm_iff {phase : Phase} (h : eventOf phase = some e) :
    Calm tx idx phase ↔ ¬ About tx idx e := by
  simp [Calm, h]

lemma not_calm {phase : Phase} (h : eventOf phase = some e) (habout : About tx idx e) :
    ¬ Calm tx idx phase := by
  rw [calm_iff h]
  exact not_not.mpr habout

lemma duplicate (h : Reorg tx idx history p) (hevent : eventOf (p.calls i).phase = some e)
    (hkey : e.key ∈ p.events.keys)
    (hbefore : About tx idx e → Before tx idx history p e.chain.removed) :
    Reorg tx idx history (p.duplicate i) := by
  by_cases habout : About tx idx e
  · have hi : ¬ Calm tx idx (p.calls i).phase := not_calm hevent habout
    obtain ⟨earlier, rfl, hseen, hsent⟩ := hbefore habout
    have hmem : e.chain.removed ∈ firsts earlier := by
      rw [← hseen, ← habout.key_eq]
      exact hkey
    refine settle i { p.calls i with phase := .done } (fun j hji => h.others_calm hi hji) rfl
      (by simp [Calm, eventOf]) ?_ ?_
    · rw [firsts_concat_of_mem hmem]
      exact hseen
    · rw [firsts_concat_of_mem hmem]
      exact hsent
  · exact h.frame i { p.calls i with phase := .done } ((calm_iff hevent).mpr habout)
      (by simp [Calm, eventOf]) rfl (fun b => Iff.rfl) rfl

lemma moveOn (h : Reorg tx idx history p) (phase : Phase)
    (hevent : eventOf (p.calls i).phase = some e) (hnext : eventOf phase = some e)
    (hstage : About tx idx e → Stage tx idx history p (p.calls i).phase →
      Stage tx idx history p phase)
    (hcore : Processor.SameCore { p with calls := p.setPhase i phase } p') :
    Reorg tx idx history p' := by
  have hmoved : Reorg tx idx history { p with calls := p.setPhase i phase } := by
    by_cases habout : About tx idx e
    · have hi : ¬ Calm tx idx (p.calls i).phase := not_calm hevent habout
      refine advance i { p.calls i with phase := phase } (fun j hji => h.others_calm hi hji) rfl
        ?_ ?_
      · exact not_calm hnext habout
      · exact hstage habout (h.stage i hi)
    · exact h.frame i { p.calls i with phase := phase } ((calm_iff hevent).mpr habout)
        ((calm_iff hnext).mpr habout) rfl (fun b => Iff.rfl) rfl
  exact hmoved.of_sameCore hcore

lemma receive (h : Reorg tx idx history p) {source : String} {stats : Stats}
    (hphase : (p.calls i).phase = .idle)
    (horder : About tx idx e → ∀ j, Calm tx idx (p.calls j).phase) :
    Reorg tx idx (history ++ if About tx idx e then [e.chain.removed] else [])
      { p with stats := stats, calls := Function.update p.calls i ⟨source, .decoded e⟩ } := by
  by_cases habout : About tx idx e
  · rw [if_pos habout]
    obtain ⟨hseen, hsent⟩ := h.calm (horder habout)
    refine advance i ⟨source, .decoded e⟩ (fun j _ => horder habout j) rfl ?_ ?_
    · exact not_calm rfl habout
    · exact ⟨history, rfl, hseen, hsent⟩
  · rw [if_neg habout, List.append_nil]
    refine h.frame i ⟨source, .decoded e⟩ ?_ ((calm_iff rfl).mpr habout) rfl (fun b => Iff.rfl) rfl
    rw [hphase]
    simp [Calm, eventOf]

lemma accept (h : Reorg tx idx history p) (hphase : (p.calls i).phase = .sequenced record)
    (hkey : record.key ∉ p.events.keys) (hroom : p.events.events.length < p.events.capacity) :
    Reorg tx idx history (p.accept i record) := by
  have hevent : eventOf (p.calls i).phase = some record.event := by
    rw [hphase]
    rfl
  have hkeys : (p.accept i record).events.keys = Insert.insert record.key p.events.keys :=
    EventHub.pushed_keys_of_room hroom record
  by_cases habout : About tx idx record.event
  · have hi : ¬ Calm tx idx (p.calls i).phase := not_calm hevent habout
    have hstage := h.stage i hi
    rw [hphase] at hstage
    obtain ⟨⟨earlier, rfl, hseen, hsent⟩, henriched⟩ := hstage
    have hnew : record.event.chain.removed ∉ firsts earlier := by
      rw [← hseen, ← habout.key_eq]
      exact hkey
    refine advance i { p.calls i with phase := .inserted record }
      (fun j hji => h.others_calm hi hji) rfl ?_ ?_
    · exact not_calm rfl habout
    · refine ⟨⟨earlier, rfl, hnew, ?_, hsent⟩, henriched⟩
      intro b
      rw [hkeys, Finset.mem_insert, hseen, List.mem_append, or_comm]
      refine or_congr Iff.rfl ?_
      show _ = record.event.key ↔ _
      rw [habout.key_eq]
      simp
  · refine h.frame i { p.calls i with phase := .inserted record } ((calm_iff hevent).mpr habout)
      ((calm_iff rfl).mpr habout) rfl ?_ rfl
    intro b
    rw [hkeys, Finset.mem_insert]
    refine or_iff_right ?_
    intro heq
    exact habout (About.of_key_eq heq.symm)

lemma finish (h : Reorg tx idx history p) (hevent : eventOf (p.calls i).phase = some e)
    (hother : ¬ About tx idx e) :
    Reorg tx idx history { p with calls := p.setPhase i .done } :=
  h.frame i { p.calls i with phase := .done } ((calm_iff hevent).mpr hother)
    (by simp [Calm, eventOf]) rfl (fun b => Iff.rfl) rfl

lemma afterStore (h : Reorg tx idx history p) (hphase : (p.calls i).phase = .admitted record) :
    Reorg tx idx history { p with calls := p.setPhase i (.afterStore record) } := by
  have hevent : eventOf (p.calls i).phase = some record.event := by
    rw [hphase]
    rfl
  by_cases henriched : record.enrichment.isSome
  · have hnext : Phase.afterStore record = .stored record := if_pos henriched
    rw [hnext]
    refine h.moveOn (.stored record) hevent rfl ?_ ⟨rfl, rfl, rfl, rfl, rfl, rfl⟩
    intro _ hstage
    rwa [hphase] at hstage
  · have hnext : Phase.afterStore record = .done := if_neg henriched
    have hother : ¬ About tx idx record.event := by
      intro habout
      have hstage := h.stage i (not_calm hevent habout)
      rw [hphase] at hstage
      exact henriched hstage.2
    rw [hnext]
    exact h.finish hevent hother

lemma send (h : Reorg tx idx history p) (hphase : (p.calls i).phase = .unblocked record)
    (tx' : Channel EventRecord) :
    Reorg tx idx history
      { p with batchTx := tx', calls := p.setPhase i .done, sent := p.sent ++ [record] } := by
  have hevent : eventOf (p.calls i).phase = some record.event := by
    rw [hphase]
    rfl
  by_cases habout : About tx idx record.event
  · have hi : ¬ Calm tx idx (p.calls i).phase := not_calm hevent habout
    have hstage := h.stage i hi
    rw [hphase] at hstage
    obtain ⟨⟨earlier, rfl, hnew, hseen, hsent⟩, -⟩ := hstage
    refine settle i { p.calls i with phase := .done } (fun j hji => h.others_calm hi hji) rfl
      (by simp [Calm, eventOf]) ?_ ?_
    · rw [firsts_concat_of_notMem hnew]
      exact hseen
    · rw [firsts_concat_of_notMem hnew, ← hsent]
      exact flags_concat_of_about habout
  · exact h.frame i { p.calls i with phase := .done } ((calm_iff hevent).mpr habout)
      (by simp [Calm, eventOf]) rfl (fun b => Iff.rfl) (flags_concat_of_not_about habout)

theorem processStep {s : Server} {a : Action} (h : Reorg tx idx history s.proc)
    (horder : InTurn tx idx s (.process a)) (hok : Undisturbed tx idx s (.process a))
    (hstep : s.proc.Step a p') :
    Reorg tx idx (history ++ notifications tx idx [.process a]) p' := by
  have hquiet : notification tx idx (.process a) = none →
      history ++ notifications tx idx [.process a] = history := by
    intro hnone
    simp [notifications, hnone]
  cases hstep with
  | undecodable i receivedAtUs source hphase =>
    rw [hquiet rfl]
    refine h.frame i ⟨source, .done⟩ ?_ (by simp [Calm, eventOf]) rfl (fun b => Iff.rfl) rfl
    rw [hphase]
    simp [Calm, eventOf]
  | decode i event receivedAtUs source hphase =>
    have hlast : notifications tx idx [.process (.receive i (some event) receivedAtUs source)] =
        if About tx idx event then [event.chain.removed] else [] := by
      by_cases habout : About tx idx event <;> simp [notifications, notification, habout]
    rw [hlast]
    exact h.receive hphase horder
  | known i event hphase hkey =>
    rw [hquiet rfl]
    have hevent : eventOf (s.proc.calls i).phase = some event := by rw [hphase]; rfl
    refine h.duplicate hevent hkey ?_
    intro habout
    have hstage := h.stage i (not_calm hevent habout)
    rwa [hphase] at hstage
  | unknown i event hphase hkey =>
    rw [hquiet rfl]
    refine h.moveOn (.fresh event) (by rw [hphase]; rfl) rfl ?_ ⟨rfl, rfl, rfl, rfl, rfl, rfl⟩
    intro _ hstage
    rwa [hphase] at hstage
  | resolve i event row hphase =>
    rw [hquiet rfl]
    have hevent : eventOf (s.proc.calls i).phase = some event := by rw [hphase]; rfl
    refine h.moveOn (.resolved event row) hevent rfl ?_ ⟨rfl, rfl, rfl, rfl, rfl, rfl⟩
    intro habout hstage
    rw [hphase] at hstage
    exact ⟨hstage, hok (not_calm hevent habout)⟩
  | fetchAdd i event row hphase =>
    rw [hquiet rfl]
    have hmoved : Reorg tx idx history
        { s.proc with
          calls :=
            s.proc.setPhase i (.sequenced (buildRecord (s.proc.sequence + 1) event row)) } :=
      h.moveOn _ (by rw [hphase]; rfl) rfl (fun _ hstage => by rwa [hphase] at hstage)
        ⟨rfl, rfl, rfl, rfl, rfl, rfl⟩
    exact ⟨hmoved.alone, hmoved.calm, hmoved.stage⟩
  | lose i record hphase hkey =>
    rw [hquiet rfl]
    have hevent : eventOf (s.proc.calls i).phase = some record.event := by rw [hphase]; rfl
    refine h.duplicate hevent hkey ?_
    intro habout
    have hstage := h.stage i (not_calm hevent habout)
    rw [hphase] at hstage
    exact hstage.1
  | accept i record hphase hkey =>
    rw [hquiet rfl]
    exact h.accept hphase hkey hok
  | credit i record hphase =>
    rw [hquiet rfl]
    refine h.moveOn (.admitted record) (by rw [hphase]; rfl) rfl ?_
      ⟨rfl, rfl, rfl, rfl, rfl, rfl⟩
    intro _ hstage
    rwa [hphase] at hstage
  | store i record hphase hroom | drop i record hphase hroom =>
    rw [hquiet rfl]
    have hmoved := h.afterStore hphase
    exact ⟨hmoved.alone, hmoved.calm, hmoved.stage⟩
  | blocked i record matchId hphase =>
    rw [hquiet rfl]
    have hevent : eventOf (s.proc.calls i).phase = some record.event := by rw [hphase]; rfl
    refine h.finish hevent ?_
    intro habout
    cases hok (not_calm hevent habout)
  | unblocked i record hphase =>
    rw [hquiet rfl]
    refine h.moveOn (.unblocked record) (by rw [hphase]; rfl) rfl ?_
      ⟨rfl, rfl, rfl, rfl, rfl, rfl⟩
    intro _ hstage
    rwa [hphase] at hstage
  | sendFailed i record hphase hclosed =>
    rw [hquiet rfl]
    have hevent : eventOf (s.proc.calls i).phase = some record.event := by rw [hphase]; rfl
    refine h.finish hevent ?_
    intro habout
    have hopen := hok (not_calm hevent habout)
    simp_all
  | send i record hphase hroom =>
    rw [hquiet rfl]
    exact h.send hphase _
  | checkpoint block hroom | checkpointDropped block hroom =>
    rw [hquiet rfl]
    exact ⟨h.alone, h.calm, h.stage⟩

end Reorg

/-! ## What is broadcast -/

variable {codec : Codec} {config : Config} {blockedBefore : Bytes 32 → ℕ → Bool}
  {wal : Option (List UInt8)} {cursorFile : Option ℕ} {as : List ServerAction} {s : Server}

lemma flags_eq_firsts
    (hfresh : ∀ b, (⟨tx, idx, b⟩ : EventKey) ∉
      (Server.boot codec config blockedBefore wal cursorFile).proc.events.keys)
    (hok : AllSteps (Server.step codec config)
      (fun s a => InTurn tx idx s a ∧ Undisturbed tx idx s a)
      (Server.boot codec config blockedBefore wal cursorFile) as)
    (hrun : run (Server.step codec config)
      (Server.boot codec config blockedBefore wal cursorFile) as = some s)
    (hdone : ∀ j, Calm tx idx (s.proc.calls j).phase) :
    flags tx idx s.proc.sent = firsts (notifications tx idx as) := by
  have hinv : Reorg tx idx (notifications tx idx ([] ++ as)) s.proc := by
    refine run_history_invariant (I := fun h s => Reorg tx idx (notifications tx idx h) s.proc)
      ?_ ?_ hok hrun
    · rintro h s a s' hreorg ⟨horder, hcond⟩ hstep
      have hsplit : notifications tx idx (h ++ [a]) =
          notifications tx idx h ++ notifications tx idx [a] := List.filterMap_append
      rw [hsplit]
      cases Server.step_sound hstep with
      | process b p hproc => exact hreorg.processStep horder hcond hproc
      | batch b loop hbatch =>
        rw [show notifications tx idx [.batch b] = [] from rfl, List.append_nil]
        exact hreorg.of_sameCore ⟨rfl, rfl, rfl, rfl, rfl, rfl⟩
      | session b session hsession =>
        rw [show notifications tx idx [.session b] = [] from rfl, List.append_nil]
        exact hreorg
      | write b w hwrite =>
        rw [show notifications tx idx [.write b] = [] from rfl, List.append_nil]
        exact hreorg.of_sameCore ⟨rfl, rfl, rfl, rfl, rfl, rfl⟩
      | shutdown =>
        rw [show notifications tx idx [.shutdown] = [] from rfl, List.append_nil]
        exact hreorg
    · have hcalm : ∀ j, Calm tx idx
          ((Server.boot codec config blockedBefore wal cursorFile).proc.calls j).phase := by
        intro j e he
        cases he
      refine ⟨fun j _ hj => absurd (hcalm j) hj, ?_, fun j hj => absurd (hcalm j) hj⟩
      intro _
      refine ⟨?_, rfl⟩
      intro b
      exact iff_of_false (hfresh b) List.not_mem_nil
  exact (hinv.calm hdone).2

def alternating (n : ℕ) : List Bool := (List.range n).map fun i => decide (i % 2 = 1)

lemma alternating_succ (n : ℕ) : alternating (n + 1) = alternating n ++ [decide (n % 2 = 1)] := by
  simp [alternating, List.range_succ]

lemma firsts_alternating (n : ℕ) : firsts (alternating (n + 2)) = [false, true] := by
  induction n with
  | zero => rfl
  | succ n ih =>
    rw [alternating_succ, firsts_concat_of_mem, ih]
    grind

theorem last_flag_converges_iff (codec : Codec) (config : Config)
    (blockedBefore : Bytes 32 → ℕ → Bool) (wal : Option (List UInt8)) (cursorFile : Option ℕ)
    (tx : Bytes 32) (idx : ℕ) (as : List ServerAction) (s : Server) (n : ℕ) (hn : 0 < n)
    (hfresh : ∀ b, (⟨tx, idx, b⟩ : EventKey) ∉
      (Server.boot codec config blockedBefore wal cursorFile).proc.events.keys)
    (hnotified : notifications tx idx as = alternating n)
    (hok : AllSteps (Server.step codec config)
      (fun s a => InTurn tx idx s a ∧ Undisturbed tx idx s a)
      (Server.boot codec config blockedBefore wal cursorFile) as)
    (hrun : run (Server.step codec config)
      (Server.boot codec config blockedBefore wal cursorFile) as = some s)
    (hdone : ∀ j, Calm tx idx (s.proc.calls j).phase) :
    (flags tx idx s.proc.sent).getLast? = (notifications tx idx as).getLast? ↔
      n = 1 ∨ n % 2 = 0 := by
  rw [flags_eq_firsts hfresh hok hrun hdone, hnotified]
  rcases n with _ | _ | n
  · omega
  · exact iff_of_true rfl (Or.inl rfl)
  · rw [firsts_alternating, alternating_succ,
      List.getLast?_append_of_ne_nil _ (by simp)]
    grind

/-! ## Two histories -/

def reported (removed : Bool) : UmaEvent :=
  .proposePrice { (testUmaEvent 1 1).chain with removed := removed } (testUmaEvent 1 1).request

def includedThenRemoved : List ServerAction :=
  callUpToSend 0 (reported false) ++ [.process (.send 0)] ++
    callUpToSend 1 (reported true) ++ [.process (.send 1)]

def reincluded : List ServerAction :=
  includedThenRemoved ++
    [.process (.receive 2 (some (reported false)) 9 "wss[0]"), .process (.contains 2)]

def ServerAction.call? : ServerAction → Option ℕ
  | .process b => b.call?
  | _ => none

def OrderlyBelow (tx : Bytes 32) (idx k : ℕ) (s : Server) (a : ServerAction) : Prop :=
  (∀ i ∈ a.call?, i < k) ∧
    ((notification tx idx a).isSome → ∀ j < k, Calm tx idx (s.proc.calls j).phase) ∧
    Undisturbed tx idx s a

instance (tx : Bytes 32) (idx k : ℕ) (s : Server) (a : ServerAction) :
    Decidable (OrderlyBelow tx idx k s a) :=
  inferInstanceAs (Decidable ((∀ i ∈ a.call?, i < k) ∧ (_ → ∀ j < k, _) ∧ _))

lemma OrderlyBelow.idle_step {k : ℕ} {s' : Server} {a : ServerAction}
    (hidle : ∀ j, k ≤ j → (s.proc.calls j).phase = .idle) (hok : OrderlyBelow tx idx k s a)
    (hstep : Server.step codec config s a = some s') :
    ∀ j, k ≤ j → (s'.proc.calls j).phase = .idle := by
  intro j hj
  rcases (Server.step_sound hstep).core with ⟨b, rfl, hproc⟩ | hcore
  · rw [hproc.calls_of_ne]
    · exact hidle j hj
    · intro i hi
      exact Nat.ne_of_gt (lt_of_lt_of_le (hok.1 i hi) hj)
  · rw [hcore.calls]
    exact hidle j hj

lemma OrderlyBelow.allSteps {k : ℕ}
    (h : AllSteps (Server.step codec config) (OrderlyBelow tx idx k) (Server.boot codec config
      blockedBefore wal cursorFile) as)
    :
    AllSteps (Server.step codec config) (fun s a => InTurn tx idx s a ∧ Undisturbed tx idx s a)
      (Server.boot codec config blockedBefore wal cursorFile) as := by
  refine AllSteps.of_invariant (I := fun s : Server =>
    ∀ j, k ≤ j → (s.proc.calls j).phase = .idle) ?_ ?_ ?_ h
  · intro s a s' hidle hok hstep
    exact hok.idle_step hidle hstep
  · rintro s a hidle ⟨-, hturn, hundisturbed⟩
    refine ⟨?_, hundisturbed⟩
    cases a with
    | process b =>
      cases b with
      | receive i decoded receivedAtUs source =>
        cases decoded with
        | none => trivial
        | some e =>
          intro habout j
          rcases Nat.lt_or_ge j k with hj | hj
          · exact hturn (by simp [notification, habout]) j hj
          · rw [hidle j hj]
            simp [Calm, eventOf]
      | _ => trivial
    | _ => trivial
  · intro j _
    rfl

/-- Included, then removed: the last broadcast is the removal. -/
theorem last_flag_converges_after_removal :
    ∃ s, run (Server.step (prostCodec []) (testConfig 4))
        (Server.boot (prostCodec []) (testConfig 4) (fun _ _ => false) none none)
        includedThenRemoved = some s ∧
      (flags (Bytes.fill 32 1) 3 s.proc.sent).getLast? = some true := by
  have hsome : ((run (Server.step (prostCodec []) (testConfig 4))
      (Server.boot (prostCodec []) (testConfig 4) (fun _ _ => false) none none)
      includedThenRemoved).map fun s =>
        ((s.proc.calls 0).phase, (s.proc.calls 1).phase)) = some (.done, .done) := by
    decide +kernel
  obtain ⟨s, hrun, hphases⟩ := Option.map_eq_some_iff.mp hsome
  obtain ⟨hphase₀, hphase₁⟩ := Prod.mk.inj hphases
  have hsteps : AllSteps (Server.step (prostCodec []) (testConfig 4))
      (OrderlyBelow (Bytes.fill 32 1) 3 2)
      (Server.boot (prostCodec []) (testConfig 4) (fun _ _ => false) none none)
      includedThenRemoved := by
    decide +kernel
  have hidle : ∀ j, 2 ≤ j → (s.proc.calls j).phase = .idle :=
    run_invariant
      (fun s a s' hI hok hstep => hok.idle_step hI hstep) (fun j _ => rfl) hsteps hrun
  have hnotified : notifications (Bytes.fill 32 1) 3 includedThenRemoved = alternating 2 := by
    decide +kernel
  have hdone : ∀ j, Calm (Bytes.fill 32 1) 3 (s.proc.calls j).phase := by
    intro j
    rcases j with _ | _ | j
    · rw [hphase₀]
      simp [Calm, eventOf]
    · rw [hphase₁]
      simp [Calm, eventOf]
    · rw [hidle (j + 2) (by omega)]
      simp [Calm, eventOf]
  refine ⟨s, hrun, ?_⟩
  rw [(last_flag_converges_iff (prostCodec []) (testConfig 4) (fun _ _ => false) none none
    (Bytes.fill 32 1) 3 includedThenRemoved s 2 (by decide) (by decide +kernel) hnotified
    (OrderlyBelow.allSteps hsteps) hrun hdone).mpr (Or.inr rfl)]
  rfl

/-- Included, removed and included again by a reorganisation: the third notification is dropped as a
duplicate of the first, and the last broadcast says the log is gone. -/
theorem reincluded_log_stays_removed :
    notifications (Bytes.fill 32 1) 3 reincluded = [false, true, false] ∧
    ∃ s, run (Server.step (prostCodec []) (testConfig 4))
        (Server.boot (prostCodec []) (testConfig 4) (fun _ _ => false) none none)
        reincluded = some s ∧
      (s.proc.calls 0).phase = .done ∧ (s.proc.calls 1).phase = .done ∧
      (s.proc.calls 2).phase = .done ∧ s.proc.events.events.length = 2 ∧
      s.proc.stats.duplicates = 1 ∧ flags (Bytes.fill 32 1) 3 s.proc.sent = [false, true] ∧
      (flags (Bytes.fill 32 1) 3 s.proc.sent).getLast? ≠
        (notifications (Bytes.fill 32 1) 3 reincluded).getLast? :=
  ⟨by decide +kernel, exists_some_of_any (by decide +kernel)⟩

end RustUma.Service
