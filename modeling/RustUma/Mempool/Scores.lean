import Mathlib.Data.Finset.Card
import Mathlib.Data.Finset.Dedup
import RustUma.Mempool.Insertion

/-!
# What the scores of senders count (`src/mempool/gate.rs` `Gate::check`, `on_confirmed`)

A proposal that is pending is recorded with its request, and when the first proposal for the request
is confirmed, every record counts for its sender. The records are of transactions, so a sender that
sends two for one request counts twice.
-/

namespace RustUma.Mempool

open RustUma.Found RustUma.Model

/-! ## What a confirmation counts -/

def agreeing (price : Bytes 32) (sender : Bytes 20) (pendings : List (Bytes 20 × Bytes 32)) : ℕ :=
  pendings.countP fun entry => decide (entry.1 = sender ∧ entry.2 = price)

def dissenting (price : Bytes 32) (sender : Bytes 20) (pendings : List (Bytes 20 × Bytes 32)) : ℕ :=
  pendings.countP fun entry => decide (entry.1 = sender ∧ entry.2 ≠ price)

section Score

variable {price : Bytes 32} {sender : Bytes 20} {senders : Bytes 20 → SenderStat}
  {pendings : List (Bytes 20 × Bytes 32)}

lemma score_apply : score price senders pendings sender =
    ⟨(senders sender).agree + agreeing price sender pendings,
      (senders sender).disagree + dissenting price sender pendings⟩ := by
  unfold score agreeing dissenting
  induction pendings generalizing senders with
  | nil => rfl
  | cons entry rest ih =>
    rw [List.foldl_cons, ih, List.countP_cons, List.countP_cons]
    by_cases hsender : entry.1 = sender
    · grind
    grind

lemma agreeing_add_dissenting :
    agreeing price sender pendings + dissenting price sender pendings =
      (pendings.map Prod.fst).count sender := by
  unfold agreeing dissenting
  induction pendings with
  | nil => rfl
  | cons entry rest ih =>
    rw [List.countP_cons, List.countP_cons, List.map_cons, List.count_cons, ← ih]
    by_cases hsender : entry.1 = sender
    · grind
    grind

lemma exists_of_agreeing (h : 0 < agreeing price sender pendings) :
    (sender, price) ∈ pendings := by
  obtain ⟨entry, hentry, htest⟩ := List.countP_pos_iff.mp h
  grind

lemma exists_of_dissenting (h : 0 < dissenting price sender pendings) :
    ∃ offer, offer ≠ price ∧ (sender, offer) ∈ pendings := by
  obtain ⟨entry, hentry, htest⟩ := List.countP_pos_iff.mp h
  grind

end Score

/-! ## The gate and what is brought by each request -/

def GateOp.confirmed? : GateOp → Option RequestKey
  | .onConfirmed .propose key _ _ _ => some key
  | _ => none

def GateOp.loaded (sender : Bytes 20) : GateOp → ℕ
  | .loadSenders stats =>
    (stats.map fun entry => if entry.1 = sender then entry.2.agree + entry.2.disagree else 0).sum
  | _ => 0

def GateOp.isPrune : GateOp → Bool
  | .prune _ => true
  | _ => false

structure Tally where
  gate : Gate
  gained : RequestKey → Bytes 20 → SenderStat

def Gate.offers (g : Gate) (key : RequestKey) : List (Bytes 20 × Bytes 32) :=
  ((g.reqs key).getD {}).pendings

namespace Tally

def init : Tally := ⟨.new, fun _ _ => ⟨0, 0⟩⟩

def gain (s : Tally) (gate : Gate) (key : RequestKey) (sender : Bytes 20) : SenderStat :=
  ⟨(s.gained key sender).agree + ((gate.senders sender).agree - (s.gate.senders sender).agree),
    (s.gained key sender).disagree +
      ((gate.senders sender).disagree - (s.gate.senders sender).disagree)⟩

def step (keccak : List UInt8 → Bytes 32) (config : GateConfig) (s : Tally) (op : GateOp) :
    Option Tally :=
  (s.gate.step keccak config op).map fun gate =>
    { gate := gate
      gained :=
        match op with
        | .onConfirmed _ key _ _ _ => Function.update s.gained key (s.gain gate key)
        | _ => s.gained }

end Tally

section Origin

variable (keccak : List UInt8 → Bytes 32)

def OfferedBy (ops : List GateOp) (key : RequestKey) (sender : Bytes 20) (price : Bytes 32) :
    Prop :=
  ∃ p, GateOp.check p ∈ ops ∧ p.call.kind = .propose ∧ p.call.requestKey keccak = key ∧
    p.sender = sender ∧ p.call.price = price

def Earned (ops : List GateOp) (key : RequestKey) (sender : Bytes 20) (gained : SenderStat) :
    Prop :=
  ∃ before price txHash nowUs after,
    ops = before ++ .onConfirmed .propose key price txHash nowUs :: after ∧
    (∀ op ∈ before, op.confirmed? ≠ some key) ∧
    (∃ offer, OfferedBy keccak before key sender offer) ∧
    (0 < gained.agree → OfferedBy keccak before key sender price) ∧
    (0 < gained.disagree → ∃ offer, offer ≠ price ∧ OfferedBy keccak before key sender offer)

def SingleOffer (g : Gate) : GateOp → Prop
  | .check p =>
    p.call.kind = .propose → g.isStale (p.call.requestKey keccak) = false →
      (g.marks (p.call.requestKey keccak)).proposed = none →
      (g.offers (p.call.requestKey keccak)).length < 32 →
      p.sender ∉ (g.offers (p.call.requestKey keccak)).map Prod.fst
  | _ => True

instance (g : Gate) : (op : GateOp) → Decidable (SingleOffer keccak g op)
  | .check _ => inferInstanceAs (Decidable (_ → _))
  | .onConfirmed .. | .tipFloor _ | .prune _ | .loadSenders _ => .isTrue trivial

structure Traced (ops : List GateOp) (s : Tally) : Prop where
  proposed : ∀ key, (s.gate.marks key).proposed.isSome = true ↔
    ∃ op ∈ ops, op.confirmed? = some key
  offers : ∀ key, (s.gate.marks key).proposed = none → ∀ entry ∈ s.gate.offers key,
    OfferedBy keccak ops key entry.1 entry.2
  nothing : ∀ key sender, (s.gate.marks key).proposed = none → s.gained key sender = ⟨0, 0⟩
  earned : ∀ key sender, s.gained key sender ≠ ⟨0, 0⟩ →
    Earned keccak ops key sender (s.gained key sender)

end Origin

structure Single (ops : List GateOp) (s : Tally) : Prop where
  once : ∀ key, (s.gate.marks key).proposed = none →
    ((s.gate.offers key).map Prod.fst).Nodup
  gained : ∀ key sender, (s.gained key sender).agree + (s.gained key sender).disagree ≤ 1
  total : ∀ sender, (s.gate.senders sender).agree + (s.gate.senders sender).disagree ≤
    (ops.map (GateOp.loaded sender)).sum + (ops.filterMap GateOp.confirmed?).toFinset.card

/-! ## One operation -/

namespace Gate

variable {keccak : List UInt8 → Bytes 32} {config : GateConfig} {g g' : Gate} {key : RequestKey}

lemma offers_of_reqs {st : ReqState} (h : g.reqs key = some st) : g.offers key = st.pendings := by
  unfold offers
  rw [h]
  rfl

lemma pendings_record (st : ReqState) (kind : CallKind) (sender : Bytes 20) (price : Bytes 32) :
    (st.record kind sender price).pendings =
      if kind = .propose ∧ st.pendings.length < 32 then st.pendings ++ [(sender, price)]
      else st.pendings := by
  unfold ReqState.record
  split_ifs <;> rfl

lemma isStale_eq_false_iff : g.isStale key = false ↔
    ∀ round, g.latestRound key.market = some round → round ≤ key.timestamp := by
  unfold isStale
  cases g.latestRound key.market with
  | none => simp
  | some newest =>
    simp

variable {p : Pending} {verdict : Verdict} {kind : CallKind} {other : RequestKey} {price : Bytes 32}
  {txHash : List Char} {nowUs : ℕ}

lemma Checked.senders (h : Checked keccak config g p g' verdict) : g'.senders = g.senders := by
  cases h <;> rfl

lemma Checked.proposed (h : Checked keccak config g p g' verdict) (key : RequestKey) :
    (g'.marks key).proposed = (g.marks key).proposed := by
  by_cases hkey : p.call.requestKey keccak = key
  · rcases h.marks_self hkey with ⟨-, -, hmarks⟩ | ⟨-, hmarks⟩
    · rw [hmarks]
      cases p.call.kind <;> rfl
    · rw [hmarks]
  · rw [h.marks_of_ne (Ne.symm hkey)]

lemma Checked.offers (h : Checked keccak config g p g' verdict) (key : RequestKey) :
    g'.offers key = g.offers key ∨
      p.call.kind = .propose ∧ p.call.requestKey keccak = key ∧ g.isStale key = false ∧
        (g.offers key).length < 32 ∧
        g'.offers key = g.offers key ++ [(p.sender, p.call.price)] := by
  cases h with
  | stale hround hold => exact Or.inl rfl
  | @judged floor st judgement hround hfloor hst hjudge =>
    by_cases hkey : p.call.requestKey keccak = key
    · subst hkey
      have hpendings : st.pendings = if p.call.kind = .propose ∧
          (g.offers (p.call.requestKey keccak)).length < 32 then
            g.offers (p.call.requestKey keccak) ++ [(p.sender, p.call.price)]
          else g.offers (p.call.requestKey keccak) := by
        rw [hst, pendings_record]
        rfl
      rw [offers_of_reqs (Function.update_self _ _ _), hpendings]
      split_ifs with hrecorded
      · refine Or.inr ⟨hrecorded.1, rfl, ?_, hrecorded.2, rfl⟩
        exact isStale_eq_false_iff.mpr hround
      · exact Or.inl rfl
    · refine Or.inl ?_
      unfold Gate.offers
      grind

lemma reqs_onConfirmed_of_ne (hkey : key ≠ other) :
    (g.onConfirmed kind other price txHash nowUs).reqs key = g.reqs key :=
  Function.update_of_ne hkey _ _

lemma isSome_proposed_confirm (m : Marks) (price : Bytes 32) :
    (m.confirm .propose price).proposed.isSome = true := by
  unfold Marks.confirm
  split_ifs with hnone
  · rfl
  · simpa [Option.isSome_iff_ne_none] using hnone

lemma proposed_onConfirmed (kind : CallKind) (other : RequestKey) (price : Bytes 32)
    (txHash : List Char) (nowUs : ℕ) (key : RequestKey) :
    ((g.onConfirmed kind other price txHash nowUs).marks key).proposed.isSome = true ↔
      (g.marks key).proposed.isSome = true ∨
        (GateOp.onConfirmed kind other price txHash nowUs).confirmed? = some key := by
  by_cases hkey : key = other
  · subst hkey
    rw [marks_onConfirmed]
    cases kind with
    | propose => exact iff_of_true (isSome_proposed_confirm _ price) (Or.inr rfl)
    | dispute => exact ⟨Or.inl, fun h => h.elim id fun hfalse => by cases hfalse⟩
  · rw [marks_congr (reqs_onConfirmed_of_ne hkey)]
    refine ⟨Or.inl, fun h => h.elim id fun hsame => ?_⟩
    cases kind with
    | propose => exact absurd (Option.some_inj.mp hsame).symm hkey
    | dispute => cases hsame

lemma open_of_onConfirmed
    (hopen : ((g.onConfirmed kind other price txHash nowUs).marks key).proposed = none) :
    (g.marks key).proposed = none ∧
      (GateOp.onConfirmed kind other price txHash nowUs).confirmed? ≠ some key := by
  rwa [← Option.not_isSome_iff_eq_none, proposed_onConfirmed, not_or,
    Option.not_isSome_iff_eq_none] at hopen

lemma offers_onConfirmed
    (hopen : ((g.onConfirmed kind other price txHash nowUs).marks key).proposed = none) :
    (g.onConfirmed kind other price txHash nowUs).offers key = g.offers key := by
  by_cases hkey : key = other
  · subst hkey
    cases kind with
    | propose => exact absurd rfl (open_of_onConfirmed hopen).2
    | dispute =>
      have hreqs : (g.onConfirmed .dispute key price txHash nowUs).reqs key = some _ :=
        Function.update_self _ _ _
      rw [offers_of_reqs hreqs]
      rfl
  · unfold Gate.offers
    rw [reqs_onConfirmed_of_ne hkey]

lemma senders_onConfirmed (kind : CallKind) (key : RequestKey) (price : Bytes 32)
    (txHash : List Char) (nowUs : ℕ) :
    (g.onConfirmed kind key price txHash nowUs).senders =
      if kind = .propose ∧ (g.marks key).proposed = none then score price g.senders (g.offers key)
      else g.senders := by
  unfold onConfirmed marks offers
  simp

lemma senders_loadSenders (stats : List (Bytes 20 × SenderStat)) (sender : Bytes 20) :
    ((g.loadSenders stats).senders sender).agree + ((g.loadSenders stats).senders sender).disagree ≤
      (g.senders sender).agree + (g.senders sender).disagree +
        (GateOp.loadSenders stats).loaded sender := by
  unfold loadSenders GateOp.loaded
  dsimp only
  generalize g.senders = senders
  induction stats generalizing senders with
  | nil => exact le_rfl
  | cons entry rest ih =>
    rw [List.foldl_cons, List.map_cons, List.sum_cons]
    grind

end Gate

/-! ## Whole runs -/

section Run

variable {keccak : List UInt8 → Bytes 32} {config : GateConfig} {ops : List GateOp} {op : GateOp}
  {s s' : Tally} {key : RequestKey} {sender : Bytes 20} {price : Bytes 32} {gained : SenderStat}

lemma OfferedBy.concat (h : OfferedBy keccak ops key sender price) (op : GateOp) :
    OfferedBy keccak (ops ++ [op]) key sender price := by
  obtain ⟨p, hp, hoffer⟩ := h
  exact ⟨p, List.mem_append_left _ hp, hoffer⟩

lemma Earned.concat (h : Earned keccak ops key sender gained) (op : GateOp) :
    Earned keccak (ops ++ [op]) key sender gained := by
  obtain ⟨before, price, txHash, nowUs, after, rfl, hrest⟩ := h
  refine ⟨before, price, txHash, nowUs, after ++ [op], ?_, hrest⟩
  simp

lemma exists_confirmed_concat : (∃ op' ∈ ops ++ [op], op'.confirmed? = some key) ↔
    (∃ op' ∈ ops, op'.confirmed? = some key) ∨ op.confirmed? = some key := by
  simp

lemma Traced.of_same (h : Traced keccak ops s)
    (hproposed : ∀ key, (s'.gate.marks key).proposed.isSome = true ↔
      (s.gate.marks key).proposed.isSome = true ∨ op.confirmed? = some key)
    (hoffers : ∀ key, (s'.gate.marks key).proposed = none → ∀ entry ∈ s'.gate.offers key,
      entry ∈ s.gate.offers key ∨ OfferedBy keccak [op] key entry.1 entry.2)
    (hgained : s'.gained = s.gained) : Traced keccak (ops ++ [op]) s' := by
  have hopen : ∀ key, (s'.gate.marks key).proposed = none → (s.gate.marks key).proposed = none := by
    intro key hnone
    rw [← Option.not_isSome_iff_eq_none] at hnone ⊢
    simp_all
  refine ⟨fun key => ?_, fun key hnone entry hentry => ?_, fun key sender hnone => ?_,
    fun key sender hne => ?_⟩
  · rw [hproposed, h.proposed, exists_confirmed_concat]
  · rcases hoffers key hnone entry hentry with hold | ⟨p, hp, hoffer⟩
    · exact (h.offers key (hopen key hnone) entry hold).concat op
    · exact ⟨p, List.mem_append_right _ hp, hoffer⟩
  · rw [hgained]
    exact h.nothing key sender (hopen key hnone)
  · rw [hgained] at hne ⊢
    exact (h.earned key sender hne).concat op

lemma Tally.gain_of_same {gate : Gate} (h : gate.senders = s.gate.senders) :
    Function.update s.gained key (s.gain gate key) = s.gained := by
  refine Function.update_eq_self_iff.mpr ?_
  funext sender
  unfold gain
  simp_all

variable {txHash : List Char} {nowUs : ℕ}

lemma Tally.gain_of_first (hnothing : s.gained key sender = ⟨0, 0⟩)
    (hopen : (s.gate.marks key).proposed = none) :
    s.gain (s.gate.onConfirmed .propose key price txHash nowUs) key sender =
      ⟨agreeing price sender (s.gate.offers key), dissenting price sender (s.gate.offers key)⟩ := by
  unfold gain
  rw [hnothing, Gate.senders_onConfirmed, if_pos ⟨rfl, hopen⟩, score_apply, SenderStat.mk.injEq]
  dsimp only
  omega

lemma Traced.first (h : Traced keccak ops s) {other : RequestKey}
    (hopen : (s.gate.marks other).proposed = none) :
    Traced keccak (ops ++ [.onConfirmed .propose other price txHash nowUs])
      { gate := s.gate.onConfirmed .propose other price txHash nowUs
        gained := Function.update s.gained other
          (s.gain (s.gate.onConfirmed .propose other price txHash nowUs) other) } := by
  refine ⟨fun key => ?_, fun key hnone entry hentry => ?_, fun key sender hnone => ?_,
    fun key sender hne => ?_⟩
  · rw [Gate.proposed_onConfirmed, h.proposed, exists_confirmed_concat]
  · rw [Gate.offers_onConfirmed hnone] at hentry
    exact (h.offers key (Gate.open_of_onConfirmed hnone).1 entry hentry).concat _
  · obtain ⟨hwas, hother⟩ := Gate.open_of_onConfirmed hnone
    have hne : key ≠ other := fun hkey => hother (congrArg some hkey.symm)
    dsimp only
    rw [Function.update_of_ne hne]
    exact h.nothing key sender hwas
  · dsimp only at hne ⊢
    by_cases hkey : key = other
    · subst hkey
      rw [Function.update_self, Tally.gain_of_first (h.nothing key sender hopen) hopen] at hne ⊢
      have hbefore : ∀ op ∈ ops, op.confirmed? ≠ some key := by
        intro op hmem hconfirmed
        have hset := (h.proposed key).mpr ⟨op, hmem, hconfirmed⟩
        simp_all
      have hagree : 0 < agreeing price sender (s.gate.offers key) →
          OfferedBy keccak ops key sender price :=
        fun hpos => h.offers key hopen _ (exists_of_agreeing hpos)
      have hdisagree : 0 < dissenting price sender (s.gate.offers key) →
          ∃ offer, offer ≠ price ∧ OfferedBy keccak ops key sender offer := by
        intro hpos
        obtain ⟨offer, hoffer, hentry⟩ := exists_of_dissenting hpos
        exact ⟨offer, hoffer, h.offers key hopen _ hentry⟩
      refine ⟨ops, price, txHash, nowUs, [], rfl, hbefore, ?_, hagree, hdisagree⟩
      grind
    · rw [Function.update_of_ne hkey] at hne ⊢
      exact (h.earned key sender hne).concat _

lemma Traced.step (h : Traced keccak ops s) (hop : op.isPrune = false)
    (hstep : s.step keccak config op = some s') : Traced keccak (ops ++ [op]) s' := by
  obtain ⟨gate, hgate, rfl⟩ := Option.map_eq_some_iff.mp hstep
  cases op with
  | check p =>
    obtain ⟨verdict, hchecked⟩ := Gate.step_check hgate
    refine h.of_same (fun key => ?_) (fun key hnone entry hentry => ?_) rfl
    · rw [hchecked.proposed]
      exact ⟨Or.inl, fun hset => hset.elim id fun hfalse => by cases hfalse⟩
    · rcases hchecked.offers key with hsame | ⟨hkind, hkey, -, -, hmore⟩
      · simp_all
      · rw [hmore, List.mem_append, List.mem_singleton] at hentry
        rcases hentry with hentry | rfl
        · exact Or.inl hentry
        · exact Or.inr ⟨p, List.mem_singleton_self _, hkind, hkey, rfl, rfl⟩
  | onConfirmed kind other price txHash nowUs =>
    cases hgate
    by_cases hfirst : kind = .propose ∧ (s.gate.marks other).proposed = none
    · obtain ⟨rfl, hopen⟩ := hfirst
      exact h.first hopen
    · have hsenders : (s.gate.onConfirmed kind other price txHash nowUs).senders =
          s.gate.senders := by
        rw [Gate.senders_onConfirmed, if_neg hfirst]
      refine h.of_same (fun key => ?_) (fun key hnone entry hentry => ?_)
        (Tally.gain_of_same hsenders)
      · exact Gate.proposed_onConfirmed kind other price txHash nowUs key
      · rw [Gate.offers_onConfirmed hnone] at hentry
        exact Or.inl hentry
  | tipFloor nowUs =>
    obtain rfl := Gate.step_tipFloor hgate
    refine h.of_same (fun key => ?_) (fun key hnone entry hentry => Or.inl hentry) rfl
    exact ⟨Or.inl, fun hset => hset.elim id fun hfalse => by cases hfalse⟩
  | prune nowUs => cases hop
  | loadSenders stats =>
    cases hgate
    refine h.of_same (fun key => ?_) (fun key hnone entry hentry => Or.inl hentry) rfl
    exact ⟨Or.inl, fun hset => hset.elim id fun hfalse => by cases hfalse⟩

lemma Traced.init : Traced keccak [] .init where
  proposed _ := iff_of_false Bool.false_ne_true (by simp)
  offers _ _ entry hentry := nomatch hentry
  nothing _ _ _ := rfl
  earned _ _ hne := absurd rfl hne

lemma Traced.of_run (hops : ∀ op ∈ ops, op.isPrune = false)
    (hs : run (Tally.step keccak config) .init ops = some s) : Traced keccak ops s :=
  run_history_invariant (I := Traced keccak)
    (fun _ _ _ _ h hop hstep => h.step hop hstep) .init (allSteps_of_forall hops _) hs

/-! ## One offer for each request -/

lemma Single.of_same (h : Single ops s)
    (hopen : ∀ key, (s'.gate.marks key).proposed = none → (s.gate.marks key).proposed = none)
    (honce : ∀ key, (s'.gate.marks key).proposed = none →
      ((s.gate.offers key).map Prod.fst).Nodup → ((s'.gate.offers key).map Prod.fst).Nodup)
    (hgained : s'.gained = s.gained)
    (hsenders : ∀ sender, (s'.gate.senders sender).agree + (s'.gate.senders sender).disagree ≤
      (s.gate.senders sender).agree + (s.gate.senders sender).disagree + op.loaded sender) :
    Single (ops ++ [op]) s' := by
  refine ⟨fun key hnone => honce key hnone (h.once key (hopen key hnone)), ?_, fun sender => ?_⟩
  · rw [hgained]
    exact h.gained
  · have hmore : (ops.filterMap GateOp.confirmed?).toFinset.card ≤
        ((ops ++ [op]).filterMap GateOp.confirmed?).toFinset.card := by
      rw [List.filterMap_append, List.toFinset_append]
      exact Finset.card_le_card Finset.subset_union_left
    have htotal := h.total sender
    grind

lemma Single.first (h : Single ops s) (htraced : Traced keccak ops s) {other : RequestKey}
    (hopen : (s.gate.marks other).proposed = none) :
    Single (ops ++ [.onConfirmed .propose other price txHash nowUs])
      { gate := s.gate.onConfirmed .propose other price txHash nowUs
        gained := Function.update s.gained other
          (s.gain (s.gate.onConfirmed .propose other price txHash nowUs) other) } := by
  have hcount : ∀ sender, agreeing price sender (s.gate.offers other) +
      dissenting price sender (s.gate.offers other) ≤ 1 := by
    intro sender
    rw [agreeing_add_dissenting]
    exact List.nodup_iff_count_le_one.mp (h.once other hopen) sender
  refine ⟨fun key hnone => ?_, fun key sender => ?_, fun sender => ?_⟩
  · rw [Gate.offers_onConfirmed hnone]
    exact h.once key (Gate.open_of_onConfirmed hnone).1
  · dsimp only
    by_cases hkey : key = other
    · subst hkey
      rw [Function.update_self, Tally.gain_of_first (htraced.nothing key sender hopen) hopen]
      exact hcount sender
    · rw [Function.update_of_ne hkey]
      exact h.gained key sender
  · -- the request is new among the confirmed ones
    have hnew : other ∉ (ops.filterMap GateOp.confirmed?).toFinset := by
      rw [List.mem_toFinset, List.mem_filterMap]
      intro hmem
      have hset := (htraced.proposed other).mpr hmem
      simp_all
    have hcard : ((ops ++ [GateOp.onConfirmed .propose other price txHash nowUs]).filterMap
        GateOp.confirmed?).toFinset.card = (ops.filterMap GateOp.confirmed?).toFinset.card + 1 := by
      rw [List.filterMap_append, List.toFinset_append]
      show Finset.card (_ ∪ {other}) = _
      simp_all
    have htotal := h.total sender
    have hmore := hcount sender
    rw [Gate.senders_onConfirmed, if_pos ⟨rfl, hopen⟩, score_apply, List.map_append,
      List.sum_append]
    grind

lemma Single.step (h : Single ops s) (htraced : Traced keccak ops s) (hprune : op.isPrune = false)
    (hop : SingleOffer keccak s.gate op) (hstep : s.step keccak config op = some s') :
    Single (ops ++ [op]) s' := by
  obtain ⟨gate, hgate, rfl⟩ := Option.map_eq_some_iff.mp hstep
  cases op with
  | check p =>
    obtain ⟨verdict, hchecked⟩ := Gate.step_check hgate
    refine h.of_same (fun key hnone => ?_) (fun key hnone honce => ?_) rfl fun sender => ?_
    · rwa [hchecked.proposed] at hnone
    · rcases hchecked.offers key with hsame | ⟨hkind, rfl, hfresh, hlength, hmore⟩
      · rwa [hsame]
      · rw [hchecked.proposed] at hnone
        rw [hmore, List.map_append]
        exact List.nodup_append_comm.mp
          (List.nodup_cons.mpr ⟨hop hkind hfresh hnone hlength, honce⟩)
    · rw [hchecked.senders]
      rfl
  | onConfirmed kind other price txHash nowUs =>
    cases hgate
    by_cases hfirst : kind = .propose ∧ (s.gate.marks other).proposed = none
    · obtain ⟨rfl, hopen⟩ := hfirst
      exact h.first htraced hopen
    · have hsenders : (s.gate.onConfirmed kind other price txHash nowUs).senders =
          s.gate.senders := by
        rw [Gate.senders_onConfirmed, if_neg hfirst]
      refine h.of_same (fun key hnone => (Gate.open_of_onConfirmed hnone).1)
        (fun key hnone honce => ?_) (Tally.gain_of_same hsenders) fun sender => ?_
      · rwa [Gate.offers_onConfirmed hnone]
      simp_all
  | tipFloor nowUs =>
    obtain rfl := Gate.step_tipFloor hgate
    exact h.of_same (fun _ => id) (fun _ _ => id) rfl fun _ => le_rfl
  | prune nowUs => cases hprune
  | loadSenders stats =>
    cases hgate
    exact h.of_same (fun _ => id) (fun _ _ => id) rfl fun sender =>
      Gate.senders_loadSenders stats sender

lemma Single.init : Single [] .init where
  once _ _ := List.nodup_nil
  gained _ _ := Nat.zero_le 1
  total _ := le_rfl

lemma Single.of_run (hops : ∀ op ∈ ops, op.isPrune = false)
    (hok : AllSteps (Tally.step keccak config) (fun s => SingleOffer keccak s.gate) .init ops)
    (hs : run (Tally.step keccak config) .init ops = some s) : Single ops s :=
  (run_history_invariant (I := fun ops s => Traced keccak ops s ∧ Single ops s)
    (fun _ _ _ _ h hop hstep => ⟨h.1.step hop.1 hstep, h.2.step h.1 hop.1 hop.2 hstep⟩)
    ⟨.init, .init⟩ ((allSteps_of_forall hops _).and hok) hs).2

end Run

lemma Tally.run_gate {keccak : List UInt8 → Bytes 32} {config : GateConfig} {ops : List GateOp}
    {s s' : Tally} (h : run (Tally.step keccak config) s ops = some s') :
    run (Gate.step keccak config) s.gate ops = some s'.gate := by
  have hgate : run (Gate.step keccak config) s.gate (ops.filterMap some) = some s'.gate := by
    refine run_project Tally.gate some (fun s op s' hstep => ?_) h
    obtain ⟨gate, hgate, rfl⟩ := Option.map_eq_some_iff.mp hstep
    exact hgate
  simp_all

theorem sender_scores_count_requests (keccak : List UInt8 → Bytes 32) (config : GateConfig)
    {ops : List GateOp} {s : Tally} (hops : ∀ op ∈ ops, op.isPrune = false)
    (hok : AllSteps (Tally.step keccak config) (fun s => SingleOffer keccak s.gate) .init ops)
    (hs : run (Tally.step keccak config) .init ops = some s) :
    run (Gate.step keccak config) .new ops = some s.gate ∧
    (∀ key sender, (s.gained key sender).agree + (s.gained key sender).disagree ≤ 1 ∧
      (s.gained key sender ≠ ⟨0, 0⟩ → Earned keccak ops key sender (s.gained key sender))) ∧
    ∀ sender, (s.gate.senders sender).agree + (s.gate.senders sender).disagree ≤
      (ops.map (GateOp.loaded sender)).sum + (ops.filterMap GateOp.confirmed?).toFinset.card := by
  have htraced := Traced.of_run hops hs
  have hsingle := Single.of_run hops hok hs
  exact ⟨Tally.run_gate hs,
    fun key sender => ⟨hsingle.gained key sender, htraced.earned key sender⟩, hsingle.total⟩

/-- Senders 7 and 9 offer different prices for a request, each once, and the price of 9 is
confirmed. -/
theorem sender_scores_of_two :
    ∃ s, run (Tally.step testKeccak testGate) .init
        [.check (testPending .propose 10 0 9 "0xa" 1), .check (testPending .propose 10 1 7 "0xb" 2),
          .onConfirmed .propose (testKey 10) (Bytes.fill 32 0) "0xa".toList 3] = some s ∧
      (s.gate.senders (Bytes.fill 20 9)).agree + (s.gate.senders (Bytes.fill 20 9)).disagree ≤ 1 ∧
      s.gained (testKey 10) (Bytes.fill 20 9) = ⟨1, 0⟩ ∧
      s.gained (testKey 10) (Bytes.fill 20 7) = ⟨0, 1⟩ := by
  refine exists_some_imp (P := fun s => s.gained (testKey 10) (Bytes.fill 20 9) = ⟨1, 0⟩ ∧
    s.gained (testKey 10) (Bytes.fill 20 7) = ⟨0, 1⟩) (by decide +kernel) fun s hs hgained => ?_
  have hcount := (sender_scores_count_requests testKeccak testGate (by decide) (by decide +kernel)
    hs).2.2 (Bytes.fill 20 9)
  exact ⟨hcount.trans (by decide +kernel), hgained⟩

/-- **A sender that counts twice.** Sender 7 sends its proposal again, in another transaction; one
request is confirmed, and the score of the sender is two. -/
theorem sender_counted_twice :
    ∃ s, run (Tally.step testKeccak testGate) .init
        [.check (testPending .propose 10 0 7 "0xa" 1), .check (testPending .propose 10 0 7 "0xb" 2),
          .onConfirmed .propose (testKey 10) (Bytes.fill 32 0) "0xb".toList 3] = some s ∧
      s.gained (testKey 10) (Bytes.fill 20 7) = ⟨2, 0⟩ ∧
      s.gate.senders (Bytes.fill 20 7) = ⟨2, 0⟩ :=
  exists_some_of_any (by decide +kernel)

end RustUma.Mempool
