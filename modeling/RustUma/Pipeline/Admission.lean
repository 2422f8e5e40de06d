import RustUma.Pipeline.Processor

/-!
# What racing `process` calls keep in agreement

The membership test and the insert are two critical sections, a sequence number is taken between
them, and eviction takes keys out of a set beside the ring. This file carries the invariant of the
processor through every step of every call.
-/

namespace RustUma.Pipeline

open RustUma.Found RustUma.Model RustUma.Hub

def Phase.record? : Phase → Option EventRecord
  | .sequenced r => some r
  | .inserted r => some r
  | .admitted r => some r
  | .stored r => some r
  | .unblocked r => some r
  | _ => none

def Owner (calls : ℕ → Call) : Prop :=
  ∀ i j r r', (calls i).phase.record? = some r → (calls j).phase.record? = some r' →
    r.sequence = r'.sequence → i = j

def CallOk (start sequence : ℕ) (accepted stored sent : List EventRecord) : Phase → Prop
  | .sequenced r =>
    start < r.sequence ∧ r.sequence ≤ sequence ∧ ∀ x ∈ accepted, x.sequence ≠ r.sequence
  | .inserted r => r ∈ accepted ∧ r ∉ stored ∧ r ∉ sent
  | .admitted r => r ∈ accepted ∧ r ∉ stored ∧ r ∉ sent
  | .stored r => r ∈ accepted ∧ r ∉ sent
  | .unblocked r => r ∈ accepted ∧ r ∉ sent
  | _ => True

def Separated (capacity : ℕ) (accepted : List EventRecord) : Prop :=
  ∀ a r b r' c, accepted = a ++ r :: (b ++ r' :: c) → r.key = r'.key →
    capacity ≤ ((b.map EventRecord.key).toFinset.erase r.key).card

structure Admission (ring₀ : List EventRecord) (start : ℕ) (p : Processor) : Prop where
  valid : p.events.Valid
  ring : p.events.events = (ring₀ ++ p.accepted).rtake p.events.capacity
  separated : Separated p.events.capacity (ring₀ ++ p.accepted)
  fresh : ∀ r ∈ p.accepted, start < r.sequence ∧ r.sequence ≤ p.sequence
  distinct : (p.accepted.map EventRecord.sequence).Nodup
  started : start ≤ p.sequence
  owner : Owner p.calls
  calls : ∀ i, CallOk start p.sequence p.accepted p.stored p.sent (p.calls i).phase
  stored_sub : ∀ r ∈ p.stored, r ∈ p.accepted
  stored_nodup : p.stored.Nodup
  sent_sub : ∀ r ∈ p.sent, r ∈ p.accepted
  sent_nodup : p.sent.Nodup

/-! ## Moving one call on -/

@[simp] lemma setPhase_self (p : Processor) (i : ℕ) (phase : Phase) :
    (p.setPhase i phase i).phase = phase := by
  simp [Processor.setPhase]

lemma setPhase_of_ne (p : Processor) {i j : ℕ} (h : j ≠ i) (phase : Phase) :
    p.setPhase i phase j = p.calls j := by
  simp [Processor.setPhase, Function.update_of_ne h]

variable {calls : ℕ → Call}

lemma Owner.update (h : Owner calls) (i : ℕ) (call : Call)
    (hrec : ∀ r, call.phase.record? = some r → (calls i).phase.record? = some r) :
    Owner (Function.update calls i call) := by
  have hback : ∀ j r, (Function.update calls i call j).phase.record? = some r →
      (calls j).phase.record? = some r := by
    grind
  intro j k r r' hj hk heq
  exact h j k r r' (hback j r hj) (hback k r' hk) heq

lemma Owner.update_fresh (h : Owner calls) (i : ℕ) (call : Call) (record : EventRecord)
    (hrec : call.phase.record? = some record)
    (hnew : ∀ j r, (calls j).phase.record? = some r → r.sequence ≠ record.sequence) :
    Owner (Function.update calls i call) := by
  intro j k r r' hj hk heq
  by_cases hji : j = i
  · grind
  · rw [Function.update_of_ne hji] at hj
    by_cases hki : k = i
    · grind
    · rw [Function.update_of_ne hki] at hk
      exact h j k r r' hj hk heq

lemma forall_update {P : Phase → Prop} (h : ∀ j, P (calls j).phase) (i : ℕ) (call : Call)
    (hi : P call.phase) : ∀ j, P (Function.update calls i call j).phase := by
  grind

lemma Separated.concat {hub : EventHub} (hvalid : hub.Valid) {accepted : List EventRecord}
    (hring : hub.events = accepted.rtake hub.capacity)
    (h : Separated hub.capacity accepted) {x : EventRecord} (hnew : x.key ∉ hub.keys) :
    Separated hub.capacity (accepted ++ [x]) := by
  intro a r b r' c hsplit hkey
  rcases c.eq_nil_or_concat with rfl | ⟨c', y, rfl⟩
  · -- the later of the two events is the new one
    have hparts : accepted ++ [x] = (a ++ r :: b) ++ [r'] := by
      rw [hsplit]
      simp
    obtain ⟨rfl, hx⟩ := List.append_inj' hparts rfl
    obtain rfl : x = r' := by simpa using hx
    rw [hvalid.keys_eq, List.mem_toFinset, hring, ← hkey] at hnew
    have hnodup := hvalid.nodup
    rw [hring] at hnodup
    exact card_erase_of_notMem_rtake EventRecord.key hub.capacity r a b hnodup hnew
  · have hparts : accepted ++ [x] = (a ++ r :: (b ++ r' :: c')) ++ [y] := by
      rw [hsplit]
      simp
    obtain ⟨hacc, -⟩ := List.append_inj' hparts rfl
    exact h a r b r' c' hacc hkey

/-! ## The steps -/

namespace Admission

variable {ring₀ : List EventRecord} {start : ℕ} {p p' : Processor}

lemma of_sameCore (h : Admission ring₀ start p) (hcore : p.SameCore p') :
    Admission ring₀ start p' := by
  obtain ⟨hevents, hsequence, hcalls, haccepted, hstored, hsent⟩ := hcore
  constructor <;> simp only [hevents, hsequence, hcalls, haccepted, hstored, hsent]
  · exact h.valid
  · exact h.ring
  · exact h.separated
  · exact h.fresh
  · exact h.distinct
  · exact h.started
  · exact h.owner
  · exact h.calls
  · exact h.stored_sub
  · exact h.stored_nodup
  · exact h.sent_sub
  · exact h.sent_nodup

lemma move (h : Admission ring₀ start p) (i : ℕ) (call : Call)
    (hrec : ∀ r, call.phase.record? = some r → (p.calls i).phase.record? = some r)
    (hok : CallOk start p.sequence p.accepted p.stored p.sent call.phase)
    (hcore : Processor.SameCore { p with calls := Function.update p.calls i call } p') :
    Admission ring₀ start p' := by
  have hmoved : Admission ring₀ start { p with calls := Function.update p.calls i call } :=
    { h with
      owner := h.owner.update i call hrec
      calls := forall_update h.calls i call hok }
  exact hmoved.of_sameCore hcore

lemma moveQuiet (h : Admission ring₀ start p) (i : ℕ) (call : Call)
    (hquiet : call.phase.record? = none)
    (hcore : Processor.SameCore { p with calls := Function.update p.calls i call } p') :
    Admission ring₀ start p' := by
  refine h.move i call ?_ ?_ hcore
  · simp_all
  · cases hphase : call.phase <;> rw [hphase] at hquiet <;> first | exact trivial | cases hquiet

lemma fetchAdd (h : Admission ring₀ start p) (i : ℕ) (event : UmaEvent)
    (row : Option MarketEnrichment) :
    Admission ring₀ start
      { p with
        sequence := p.sequence + 1
        calls := p.setPhase i (.sequenced (buildRecord (p.sequence + 1) event row)) } := by
  -- every record in flight has a sequence the counter already reached
  have hflight : ∀ j r, (p.calls j).phase.record? = some r → r.sequence ≤ p.sequence := by
    intro j r hj
    have hcall := h.calls j
    cases hphase : (p.calls j).phase <;> rw [hphase] at hj hcall <;> cases hj
    · exact hcall.2.1
    · exact (h.fresh _ hcall.1).2
    · exact (h.fresh _ hcall.1).2
    · exact (h.fresh _ hcall.1).2
    · exact (h.fresh _ hcall.1).2
  refine { h with fresh := ?_, started := ?_, owner := ?_, calls := ?_ }
  · intro r hr
    exact ⟨(h.fresh r hr).1, Nat.le_succ_of_le (h.fresh r hr).2⟩
  · exact Nat.le_succ_of_le h.started
  · refine h.owner.update_fresh i _ (buildRecord (p.sequence + 1) event row) rfl ?_
    intro j r hj
    exact Nat.ne_of_lt (Nat.lt_succ_of_le (hflight j r hj))
  · refine forall_update (fun j => ?_) i _ ?_
    · have hcall := h.calls j
      cases hphase : (p.calls j).phase <;> rw [hphase] at hcall
      case sequenced r => exact ⟨hcall.1, Nat.le_succ_of_le hcall.2.1, hcall.2.2⟩
      all_goals exact hcall
    · refine ⟨Nat.lt_succ_of_le h.started, le_rfl, ?_⟩
      intro x hx
      exact Nat.ne_of_lt (Nat.lt_succ_of_le (h.fresh x hx).2)

variable {i : ℕ} {r record : EventRecord}

lemma accept (h : Admission ring₀ start p) (hphase : (p.calls i).phase = .sequenced record)
    (hkey : record.key ∉ p.events.keys) :
    Admission ring₀ start (p.accept i record) := by
  have hcall := h.calls i
  rw [hphase] at hcall
  obtain ⟨hstart, hle, hnew⟩ := hcall
  have hout : record ∉ p.accepted := fun hmem => hnew record hmem rfl
  have hnotStored : record ∉ p.stored := fun hmem => hout (h.stored_sub record hmem)
  have hnotSent : record ∉ p.sent := fun hmem => hout (h.sent_sub record hmem)
  refine
    { valid := h.valid.pushed hkey
      ring := ?_
      separated := ?_
      fresh := ?_
      distinct := ?_
      started := h.started
      owner := ?_
      calls := ?_
      stored_sub := fun r hr => List.mem_append_left _ (h.stored_sub r hr)
      stored_nodup := h.stored_nodup
      sent_sub := fun r hr => List.mem_append_left _ (h.sent_sub r hr)
      sent_nodup := h.sent_nodup }
  · show (p.events.events ++ [record]).rtake p.events.capacity = _
    rw [h.ring, rtake_append_of_rtake, List.append_assoc]
    rfl
  · show Separated p.events.capacity (ring₀ ++ (p.accepted ++ [record]))
    rw [← List.append_assoc]
    exact h.separated.concat h.valid h.ring hkey
  · intro r hr
    rcases List.mem_append.mp hr with hr | hr
    · exact h.fresh r hr
    · obtain rfl := List.mem_singleton.mp hr
      exact ⟨hstart, hle⟩
  · show ((p.accepted ++ [record]).map EventRecord.sequence).Nodup
    rw [List.map_append, List.map_singleton, List.nodup_append]
    refine ⟨h.distinct, List.nodup_singleton _, ?_⟩
    simp_all
  · refine h.owner.update i _ ?_
    intro r hr
    rw [hphase]
    exact hr
  · intro j
    by_cases hji : j = i
    · subst hji
      show CallOk _ _ _ _ _ (p.setPhase j (.inserted record) j).phase
      rw [setPhase_self]
      exact ⟨List.mem_append_right _ (List.mem_singleton_self _), hnotStored, hnotSent⟩
    · show CallOk _ _ _ _ _ (p.setPhase i (.inserted record) j).phase
      rw [setPhase_of_ne p hji]
      have hother := h.calls j
      cases hj : (p.calls j).phase <;> rw [hj] at hother
      case sequenced r =>
        refine ⟨hother.1, hother.2.1, ?_⟩
        intro x hx heq
        rcases List.mem_append.mp hx with hx | hx
        · exact hother.2.2 x hx heq
        · obtain rfl := List.mem_singleton.mp hx
          -- two calls would carry one sequence
          exact hji (h.owner j i r x (by rw [hj]; rfl) (by rw [hphase]; rfl) heq.symm)
      case inserted r => exact ⟨List.mem_append_left _ hother.1, hother.2⟩
      case admitted r => exact ⟨List.mem_append_left _ hother.1, hother.2⟩
      case stored r => exact ⟨List.mem_append_left _ hother.1, hother.2⟩
      case unblocked r => exact ⟨List.mem_append_left _ hother.1, hother.2⟩
      all_goals exact hother

lemma ne_of_other (h : Admission ring₀ start p) {j : ℕ}
    (hi : (p.calls i).phase.record? = some record) (hj : (p.calls j).phase.record? = some r)
    (hji : j ≠ i) : r ≠ record := by
  rintro rfl
  exact hji (h.owner j i r r hj hi rfl)

lemma notMem_concat (h : Admission ring₀ start p) {j : ℕ}
    (hi : (p.calls i).phase.record? = some record) (hj : (p.calls j).phase.record? = some r)
    (hji : j ≠ i) {handed : List EventRecord} (hr : r ∉ handed) : r ∉ handed ++ [record] := by
  intro hmem
  rcases List.mem_append.mp hmem with hmem | hmem
  · exact hr hmem
  · exact h.ne_of_other hi hj hji (List.mem_singleton.mp hmem)

lemma record?_afterStore (h : (Phase.afterStore record).record? = some r) :
    some record = some r := by
  unfold Phase.afterStore at h
  split_ifs at h
  · exact h
  · cases h

lemma callOk_afterStore {sequence : ℕ} {accepted stored sent : List EventRecord}
    (hacc : record ∈ accepted) (hsent : record ∉ sent) :
    CallOk start sequence accepted stored sent (Phase.afterStore record) := by
  unfold Phase.afterStore
  split_ifs
  · exact ⟨hacc, hsent⟩
  · exact trivial

lemma store (h : Admission ring₀ start p) (hphase : (p.calls i).phase = .admitted record)
    (tx : Channel StorageCommand) :
    Admission ring₀ start
      { p with
        storageTx := tx
        calls := p.setPhase i (.afterStore record)
        stored := p.stored ++ [record] } := by
  have hcall := h.calls i
  rw [hphase] at hcall
  obtain ⟨hacc, hnotStored, hnotSent⟩ := hcall
  have hi : (p.calls i).phase.record? = some record := by
    rw [hphase]
    rfl
  refine { h with owner := ?_, calls := ?_, stored_sub := ?_, stored_nodup := ?_ }
  · refine h.owner.update i _ ?_
    intro r hr
    rw [hi]
    exact record?_afterStore hr
  · intro j
    by_cases hji : j = i
    · subst hji
      rw [setPhase_self]
      exact callOk_afterStore hacc hnotSent
    · show CallOk _ _ _ _ _ (p.setPhase i (.afterStore record) j).phase
      rw [setPhase_of_ne p hji]
      have hother := h.calls j
      have hne : ∀ r, (p.calls j).phase.record? = some r → r ∉ p.stored →
          r ∉ p.stored ++ [record] := fun r hj => h.notMem_concat hi hj hji
      cases hj : (p.calls j).phase <;> rw [hj] at hother hne
      case inserted r => exact ⟨hother.1, hne r rfl hother.2.1, hother.2.2⟩
      case admitted r => exact ⟨hother.1, hne r rfl hother.2.1, hother.2.2⟩
      all_goals exact hother
  · intro r hr
    rcases List.mem_append.mp hr with hr | hr
    · exact h.stored_sub r hr
    simp_all
  · rw [← List.concat_eq_append]
    exact h.stored_nodup.concat hnotStored

lemma send (h : Admission ring₀ start p) (hphase : (p.calls i).phase = .unblocked record)
    (tx : Channel EventRecord) :
    Admission ring₀ start
      { p with
        batchTx := tx
        calls := p.setPhase i .done
        sent := p.sent ++ [record] } := by
  have hcall := h.calls i
  rw [hphase] at hcall
  obtain ⟨hacc, hnotSent⟩ := hcall
  have hi : (p.calls i).phase.record? = some record := by
    rw [hphase]
    rfl
  refine { h with owner := ?_, calls := ?_, sent_sub := ?_, sent_nodup := ?_ }
  · refine h.owner.update i _ ?_
    intro r hr
    cases hr
  · intro j
    by_cases hji : j = i
    · subst hji
      rw [setPhase_self]
      exact trivial
    · show CallOk _ _ _ _ _ (p.setPhase i .done j).phase
      rw [setPhase_of_ne p hji]
      have hother := h.calls j
      have hne : ∀ r, (p.calls j).phase.record? = some r → r ∉ p.sent → r ∉ p.sent ++ [record] :=
        fun r hj => h.notMem_concat hi hj hji
      cases hj : (p.calls j).phase <;> rw [hj] at hother hne
      case inserted r => exact ⟨hother.1, hother.2.1, hne r rfl hother.2.2⟩
      case admitted r => exact ⟨hother.1, hother.2.1, hne r rfl hother.2.2⟩
      case stored r => exact ⟨hother.1, hne r rfl hother.2⟩
      case unblocked r => exact ⟨hother.1, hne r rfl hother.2⟩
      all_goals exact hother
  · intro r hr
    rcases List.mem_append.mp hr with hr | hr
    · exact h.sent_sub r hr
    simp_all
  · rw [← List.concat_eq_append]
    exact h.sent_nodup.concat hnotSent

theorem step (h : Admission ring₀ start p) {a : Action} (hstep : p.Step a p') :
    Admission ring₀ start p' := by
  have hcall := h.calls
  cases hstep with
  | undecodable i receivedAtUs source hphase =>
    exact h.moveQuiet i ⟨source, .done⟩ rfl ⟨rfl, rfl, rfl, rfl, rfl, rfl⟩
  | decode i event receivedAtUs source hphase =>
    exact h.moveQuiet i ⟨source, .decoded event⟩ rfl ⟨rfl, rfl, rfl, rfl, rfl, rfl⟩
  | known i event hphase hkey | lose i record hphase hkey | blocked i record matchId hphase
  | sendFailed i record hphase hclosed =>
    exact h.moveQuiet i { p.calls i with phase := .done } rfl ⟨rfl, rfl, rfl, rfl, rfl, rfl⟩
  | unknown i event hphase hkey =>
    exact h.moveQuiet i { p.calls i with phase := .fresh event } rfl
      ⟨rfl, rfl, rfl, rfl, rfl, rfl⟩
  | resolve i event row hphase =>
    exact h.moveQuiet i { p.calls i with phase := .resolved event row } rfl
      ⟨rfl, rfl, rfl, rfl, rfl, rfl⟩
  | fetchAdd i event row hphase => exact h.fetchAdd i event row
  | accept i record hphase hkey => exact h.accept hphase hkey
  | credit i record hphase =>
    have hi := hcall i
    rw [hphase] at hi
    refine h.move i { p.calls i with phase := .admitted record } ?_ hi
      ⟨rfl, rfl, rfl, rfl, rfl, rfl⟩
    intro r hr
    rw [hphase]
    exact hr
  | store i record hphase hroom => exact h.store hphase _
  | drop i record hphase hroom =>
    have hi := hcall i
    rw [hphase] at hi
    refine h.move i { p.calls i with phase := .afterStore record } ?_ ?_
      ⟨rfl, rfl, rfl, rfl, rfl, rfl⟩
    · intro r hr
      rw [hphase]
      exact record?_afterStore hr
    · exact callOk_afterStore hi.1 hi.2.2
  | unblocked i record hphase =>
    have hi := hcall i
    rw [hphase] at hi
    refine h.move i { p.calls i with phase := .unblocked record } ?_ hi
      ⟨rfl, rfl, rfl, rfl, rfl, rfl⟩
    intro r hr
    rw [hphase]
    exact hr
  | send i record hphase hroom => exact h.send hphase _
  | checkpoint block hroom | checkpointDropped block hroom =>
    exact h.of_sameCore ⟨rfl, rfl, rfl, rfl, rfl, rfl⟩

end Admission

end RustUma.Pipeline
