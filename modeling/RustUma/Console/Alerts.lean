import Mathlib.Data.Fintype.Defs
import RustUma.Console.AlertRules
import RustUma.Found.Run

/-!
# Alerts fire and recover (`src/console/alerts.rs` `Engine::observe`)

A finding that persists makes its condition fire. A condition that is not found in a round in which
its rule was evaluated is taken to be absent, and is removed when it has been absent for long
enough.
-/

namespace RustUma.Console

open RustUma.Found

/-! ## The engine -/

structure Condition where
  rule : Rule
  title : String
  severity : Severity
  subject : String
  detail : String
  pendingSince : ℕ
  firing : Bool
  notifiedMs : Option ℕ
  absentSince : Option ℕ
  deriving DecidableEq

structure Resolved where
  title : String
  subject : String
  lastedMs : ℕ
  deriving DecidableEq

structure Engine where
  rules : AlertRules
  series : Table String Series
  conditions : Table String Condition
  resolved : List Resolved

def maxPendingResolved : ℕ := 200

def conditionKey (rule : Rule) (subject : String) : String := rule.name ++ ":" ++ subject

def Finding.key (f : Finding) : String := conditionKey f.rule f.subject

def Condition.new (f : Finding) (now : ℕ) : Condition where
  rule := f.rule
  title := f.title
  severity := f.severity
  subject := f.subject
  detail := ""
  pendingSince := now
  firing := false
  notifiedMs := none
  absentSince := none

def enter (now : ℕ) (conditions : Table String Condition) (f : Finding) : Table String Condition :=
  let c := (conditions.get? f.key).getD (.new f now)
  conditions.put f.key { c with
    detail := f.detail
    absentSince := none
    firing := c.firing || decide (f.holdMs ≤ now - c.pendingSince) }

section Sweep

variable (resolveMs now : ℕ) (present : List String) (evaluated : List Rule)

def Condition.absent (c : Condition) : Condition × Bool :=
  if c.firing then
    let since := c.absentSince.getD now
    ({ c with absentSince := some since }, decide (resolveMs ≤ now - since))
  else (c, true)

def Condition.sweep (key : String) (c : Condition) : Condition × Bool :=
  if key ∈ present ∨ c.rule ∉ evaluated then (c, false) else c.absent resolveMs now

def Condition.kept (key : String) (c : Condition) : Option Condition :=
  if (c.sweep resolveMs now present evaluated key).2 then none
  else some (c.sweep resolveMs now present evaluated key).1

def Condition.report (key : String) (c : Condition) : Option Resolved :=
  let (c, gone) := c.sweep resolveMs now present evaluated key
  if gone && c.firing && c.notifiedMs.isSome then
    some ⟨c.title, c.subject, c.absentSince.getD now - c.pendingSince⟩
  else none

end Sweep

namespace Engine

def new (rules : AlertRules) : Engine := ⟨rules, .empty, .empty, []⟩

def findings (e : Engine) (now : ℕ) (input : Inputs) : List Finding :=
  (evaluate e.rules now input e.series).1

def entered (e : Engine) (now : ℕ) (input : Inputs) : Table String Condition :=
  (e.findings now input).foldl (enter now) e.conditions

def resolveMs (e : Engine) : ℕ := wrap (e.rules.resolveAfterS * 1000)

def observe (e : Engine) (now : ℕ) (input : Inputs) : Engine :=
  let present := (e.findings now input).map Finding.key
  let evaluated := evaluatedRules input
  let resolved := e.resolved ++ (e.entered now input).rows.filterMap fun row =>
    row.2.report e.resolveMs now present evaluated row.1
  { e with
    series := (evaluate e.rules now input e.series).2.filter fun series =>
      now - series.lastAt ≤ seriesKeepMs
    conditions := (e.entered now input).filterMap
      fun key c => c.kept e.resolveMs now present evaluated key
    resolved := resolved.drop (resolved.length - maxPendingResolved) }

def markSent (e : Engine) (keys : List String) (resolved now : ℕ) : Engine :=
  { e with
    conditions := e.conditions.filterMap fun key c =>
      some (if key ∈ keys then { c with notifiedMs := some now } else c)
    resolved := e.resolved.drop (min resolved e.resolved.length) }

end Engine

/-! ## Rounds -/

structure Round where
  now : ℕ
  input : Inputs
  findings : List Finding

structure Watch where
  engine : Engine
  history : List Round

inductive WatchAction
  | observe (now : ℕ) (input : Inputs)
  | markSent (keys : List String) (resolved now : ℕ)

namespace Watch

def init (rules : AlertRules) : Watch := ⟨.new rules, []⟩

def step (w : Watch) : WatchAction → Option Watch
  | .observe now input =>
    some ⟨w.engine.observe now input, w.history ++ [⟨now, input, w.engine.findings now input⟩]⟩
  | .markSent keys resolved now => some { w with engine := w.engine.markSent keys resolved now }

end Watch

def Found (findings : List Finding) (rule : Rule) (subject : String) : Prop :=
  ∃ f ∈ findings, f.rule = rule ∧ f.subject = subject

instance (findings : List Finding) (rule : Rule) (subject : String) :
    Decidable (Found findings rule subject) :=
  inferInstanceAs (Decidable (∃ f ∈ findings, f.rule = rule ∧ f.subject = subject))

def Readable (data : Document) : Rule → Prop
  | .rpcDisconnected => (asBool data "rpc_connected").isSome
  | .rpcSourcesDegraded =>
    (num data "rpc_sources_connected").isSome ∧ (num data "rpc_sources_configured").isSome
  | .rpcReconnects => (num data "rpc_reconnects_total").isSome
  | .upstreamSilent => (num data "last_upstream_received_at_us").isSome
  | .enrichmentRecentLow =>
    (num data "enrichment_recent_hits").isSome ∧ (num data "enrichment_recent_total").isSome
  | .enrichmentMisses => (num data "enrichment_misses_total").isSome
  | .decodeErrors => (num data "decode_errors_total").isSome
  | .slowClients => (num data "slow_clients_dropped_total").isSome
  | .cursorRejected => (num data "ws_cursor_rejected_total").isSome
  | .storageDropped => (num data "storage_queue_dropped_total").isSome
  | .catalogSmall => (num data "catalog_markets").isSome
  | _ => True

instance (data : Document) (rule : Rule) : Decidable (Readable data rule) := by
  cases rule <;> dsimp only [Readable] <;> infer_instance

def Reported (input : Inputs) (subject : String) : Prop :=
  ∃ node ∈ input.nodes, node.heartbeat.nodeId = subject ∧ node.status ≠ .stale

instance (input : Inputs) (subject : String) : Decidable (Reported input subject) :=
  inferInstanceAs
    (Decidable (∃ node ∈ input.nodes, node.heartbeat.nodeId = subject ∧ node.status ≠ .stale))

def HasData (input : Inputs) (subject : String) (rule : Rule) : Prop :=
  if rule = .tinyumaUnreachable then input.upstream.fresh = true
  else if rule ∈ upstreamRules then
    input.upstream.fresh = true ∧ ∃ data ∈ input.upstream.data, Readable data rule
  else if rule ∈ edgeRules then
    Reported input subject ∧ (rule = .edgeSequenceLag → input.upstream.fresh = true)
  else True

instance (input : Inputs) (subject : String) (rule : Rule) :
    Decidable (HasData input subject rule) := by
  unfold HasData
  infer_instance

def Supplied (input : Inputs) (subject : String) (rule : Rule) : Prop :=
  if rule = .edgeStale then ∃ node ∈ input.nodes, node.heartbeat.nodeId = subject
  else if rule ∈ edgeRules then
    Reported input subject ∧ (rule = .edgeSequenceLag → input.upstream.fresh = true)
  else if rule ∈ upstreamRules then
    input.upstream.fresh = true → ∀ data ∈ input.upstream.data, Readable data rule
  else True

instance (input : Inputs) (subject : String) (rule : Rule) :
    Decidable (Supplied input subject rule) := by
  unfold Supplied
  infer_instance

def Informed (rule : Rule) (subject : String) (w : Watch) : WatchAction → Prop
  | .observe _ input =>
    ∀ c ∈ w.engine.conditions.get? (conditionKey rule subject), c.rule = rule → c.firing = true →
      Supplied input subject rule
  | .markSent _ _ _ => True

instance (rule : Rule) (subject : String) (w : Watch) (a : WatchAction) :
    Decidable (Informed rule subject w a) := by
  delta Informed
  split <;> infer_instance

/-! ## Entering and sweeping -/

section Conditions

variable {now resolveMs : ℕ} {conditions : Table String Condition} {findings : List Finding}
  {key : String} {present : List String} {evaluated : List Rule} {c c' : Condition}

lemma get?_enter_of_ne {f : Finding} (h : key ≠ f.key) :
    (enter now conditions f).get? key = conditions.get? key :=
  Table.get?_put_of_ne h

lemma get?_foldl_enter (h : key ∉ findings.map Finding.key) :
    (findings.foldl (enter now) conditions).get? key = conditions.get? key := by
  induction findings generalizing conditions with
  | nil => rfl
  | cons f findings ih =>
    simp_all [get?_enter_of_ne]

lemma get?_foldl_enter_of_mem (h : key ∈ findings.map Finding.key) :
    ∃ c, (findings.foldl (enter now) conditions).get? key = some c ∧ c.absentSince = none := by
  induction findings generalizing conditions with
  | nil => cases h
  | cons f findings ih =>
    rw [List.foldl_cons]
    by_cases hlater : key ∈ findings.map Finding.key
    · exact ih hlater
    · rw [List.map_cons, List.mem_cons, or_iff_left hlater] at h
      rw [get?_foldl_enter hlater, h]
      exact ⟨_, Table.get?_put_self _ _ _, rfl⟩

lemma kept_of_present (h : key ∈ present) :
    c.kept resolveMs now present evaluated key = some c := by
  unfold Condition.kept Condition.sweep
  simp_all

lemma kept_of_not_evaluated (h : c.rule ∉ evaluated) :
    c.kept resolveMs now present evaluated key = some c := by
  unfold Condition.kept Condition.sweep
  simp_all

lemma rule_of_kept (h : c.kept resolveMs now present evaluated key = some c') :
    c'.rule = c.rule := by
  unfold Condition.kept Condition.sweep Condition.absent at h
  grind

lemma forall_foldl_enter {P : String → Rule → Prop}
    (hold : ∀ key c, conditions.get? key = some c → P key c.rule)
    (hfindings : ∀ f ∈ findings, P f.key f.rule) (hc : (findings.foldl (enter now) conditions).get?
      key = some c) : P key c.rule := by
  induction findings generalizing conditions with
  | nil => exact hold key c hc
  | cons f findings ih =>
    obtain ⟨hf, hfindings⟩ := List.forall_mem_cons.mp hfindings
    refine @ih (enter now conditions f) (fun key' c' hc' => ?_) hfindings hc
    unfold enter at hc'
    rw [Table.get?_put] at hc'
    split_ifs at hc' with heq
    · cases hc'
      subst heq
      cases hget : conditions.get? f.key with
      | none => exact hf
      | some c₀ => exact hold f.key c₀ hget
    · exact hold key' c' hc'

lemma kept_of_absent (hkey : key ∉ present) (hrule : c.rule ∈ evaluated) :
    c.kept resolveMs now present evaluated key =
      if c.firing = true ∧ now - c.absentSince.getD now < resolveMs then
        some { c with absentSince := some (c.absentSince.getD now) }
      else none := by
  unfold Condition.kept Condition.sweep Condition.absent
  grind

end Conditions

inductive Engine.Swept (e : Engine) (now : ℕ) (input : Inputs) (key : String) :
    Option Condition → Option Condition → Prop
  | found {before : Option Condition} {c : Condition}
      (hpresent : key ∈ (e.findings now input).map Finding.key) (habsent : c.absentSince = none) :
      Swept e now input key before (some c)
  | unknown (hpresent : key ∉ (e.findings now input).map Finding.key) :
      Swept e now input key none none
  | skipped {c : Condition} (hpresent : key ∉ (e.findings now input).map Finding.key)
      (hrule : c.rule ∉ evaluatedRules input) : Swept e now input key (some c) (some c)
  | waiting {c : Condition} (hpresent : key ∉ (e.findings now input).map Finding.key)
      (hrule : c.rule ∈ evaluatedRules input) (hfiring : c.firing = true) :
      Swept e now input key (some c)
        (some { c with absentSince := some (c.absentSince.getD now) })
  | removed {c : Condition} (hpresent : key ∉ (e.findings now input).map Finding.key)
      (hrule : c.rule ∈ evaluatedRules input)
      (hlong : c.firing = true → e.resolveMs ≤ now - c.absentSince.getD now) :
      Swept e now input key (some c) none

lemma Engine.observe_swept (e : Engine) (now : ℕ) (input : Inputs) (key : String) :
    e.Swept now input key (e.conditions.get? key) ((e.observe now input).conditions.get? key) := by
  unfold Engine.observe
  rw [Table.get?_filterMap]
  by_cases hpresent : key ∈ (e.findings now input).map Finding.key
  · obtain ⟨c, hc, habsent⟩ : ∃ c, (e.entered now input).get? key = some c ∧ c.absentSince = none :=
      get?_foldl_enter_of_mem hpresent
    rw [hc, Option.bind_some, kept_of_present hpresent]
    exact .found hpresent habsent
  · rw [show (e.entered now input).get? key = e.conditions.get? key from get?_foldl_enter hpresent]
    cases e.conditions.get? key with
    | none => exact .unknown hpresent
    | some c =>
      rw [Option.bind_some]
      by_cases hrule : c.rule ∈ evaluatedRules input
      · rw [kept_of_absent hpresent hrule]
        split_ifs with hwaits
        · exact .waiting hpresent hrule hwaits.1
        · exact .removed hpresent hrule fun hfiring => not_lt.mp fun h => hwaits ⟨hfiring, h⟩
      · rw [kept_of_not_evaluated hrule]
        exact .skipped hpresent hrule

/-! ## Absent since a round with data -/

section Trace

variable {rule : Rule} {subject : String} {w w' : Watch} {now : ℕ} {input : Inputs}
  {history : List Round} {since : ℕ}

lemma found_of_not_fresh {e : Engine} (h : input.upstream.fresh = false) :
    Found (e.findings now input) .tinyumaUnreachable "" := by
  obtain ⟨upstream, latest, before, heq⟩ :=
    @evaluate_eq e.rules now input e.series
  unfold Found Engine.findings
  rw [heq, checkReachable, h]
  exact ⟨_, List.mem_append_left _ (List.mem_append_left _ (List.mem_append_left _
    (List.mem_append_left _ (List.mem_singleton_self _)))), rfl, rfl⟩

lemma found_of_stale {e : Engine} {node : NodeView} (hnode : node ∈ input.nodes)
    (hstale : node.status = .stale) :
    Found (e.findings now input) .edgeStale node.heartbeat.nodeId := by
  obtain ⟨upstream, latest, before, heq⟩ :=
    @evaluate_eq e.rules now input e.series
  obtain ⟨f, hf, hfound⟩ := @mem_checkNodes_of_stale e.rules now latest _ node hnode hstale before
  refine ⟨f, ?_, hfound⟩
  unfold Engine.findings
  rw [heq]
  exact List.mem_append_left _ (List.mem_append_left _ (List.mem_append_right _ hf))

lemma Supplied.hasData {e : Engine} (h : Supplied input subject rule)
    (hsubject : rule = .tinyumaUnreachable → subject = "") (hevaluated : rule ∈ evaluatedRules input)
    (hnot : ¬ Found (e.findings now input) rule subject) : HasData input subject rule := by
  unfold HasData
  split_ifs with hreach hupstream hedge
  · subst hreach
    rw [hsubject rfl] at hnot
    by_contra hstale
    exact hnot (found_of_not_fresh (by simpa using hstale))
  · have hgiven : input.upstream.fresh = true ∧ input.upstream.data.isSome = true := by
      by_contra hmissing
      revert hevaluated
      rw [evaluatedRules, if_neg (by simpa using hmissing)]
      revert hupstream
      cases rule <;> decide
    obtain ⟨data, hdata⟩ := Option.isSome_iff_exists.mp hgiven.2
    have hnone : rule ∉ edgeRules := by
      revert hupstream
      cases rule <;> decide
    unfold Supplied at h
    rw [if_neg fun heq : rule = .edgeStale => hnone (heq ▸ List.mem_cons_self), if_neg hnone,
      if_pos hupstream] at h
    exact ⟨hgiven.1, data, hdata, h hgiven.1 data hdata⟩
  · unfold Supplied at h
    split_ifs at h with hstale
    · obtain ⟨node, hnode, rfl⟩ := h
      subst hstale
      refine ⟨⟨node, hnode, rfl, fun heq => hnot (found_of_stale hnode heq)⟩, nofun⟩
    · exact h

def AbsentSince (rule : Rule) (subject : String) (history : List Round) (since : ℕ) : Prop :=
  ∃ before round after, history = before ++ round :: after ∧ round.now = since ∧
    HasData round.input subject rule ∧ ∀ r ∈ round :: after, ¬ Found r.findings rule subject

lemma AbsentSince.snoc (h : AbsentSince rule subject history since) {round : Round}
    (hround : ¬ Found round.findings rule subject) :
    AbsentSince rule subject (history ++ [round]) since := by
  obtain ⟨before, first, after, rfl, hnow, hdata, hfound⟩ := h
  refine ⟨before, first, after ++ [round], ?_, hnow, hdata, ?_⟩
  · simp
  grind

lemma absentSince_last (round : Round) (hdata : HasData round.input subject rule)
    (hround : ¬ Found round.findings rule subject) :
    AbsentSince rule subject (history ++ [round]) round.now := by
  refine ⟨history, round, [], rfl, rfl, hdata, fun r hr => ?_⟩
  simp_all

def Watch.Traced (rule : Rule) (subject : String) (w : Watch) : Prop :=
  ∀ c since, w.engine.conditions.get? (conditionKey rule subject) = some c → c.rule = rule →
    c.absentSince = some since → AbsentSince rule subject w.history since

def Watch.Rooted (w : Watch) : Prop :=
  ∀ key c, w.engine.conditions.get? key = some c → c.rule = .tinyumaUnreachable →
    key = conditionKey .tinyumaUnreachable ""

lemma Watch.Rooted.step (h : w.Rooted) {a : WatchAction} (hstep : w.step a = some w') :
    w'.Rooted := by
  intro key c hget
  cases a with
  | observe now input =>
    cases hstep
    unfold Engine.observe at hget
    rw [Table.get?_filterMap, Option.bind_eq_some_iff] at hget
    obtain ⟨c₀, hc₀, hkept⟩ := hget
    rw [rule_of_kept hkept]
    refine @forall_foldl_enter now _ _ key c₀ (fun key rule => rule = .tinyumaUnreachable →
      key = conditionKey .tinyumaUnreachable "") h (fun f hf hrule => ?_) hc₀
    obtain ⟨-, hsubject⟩ := yields_evaluate input w.engine.series f hf
    rw [Finding.key, hrule, hsubject hrule]
  | markSent keys resolved at_ =>
    cases hstep
    unfold Engine.markSent at hget
    rw [Table.get?_filterMap, Option.bind_eq_some_iff] at hget
    obtain ⟨c₀, hc₀, hkept⟩ := hget
    have hsame : c.rule = c₀.rule := by grind
    rw [hsame]
    exact h key c₀ hc₀

lemma Watch.Rooted.eq_empty (h : w.Rooted) {c : Condition}
    (hc : w.engine.conditions.get? (conditionKey rule subject) = some c) (hrule : c.rule = rule) :
    rule = .tinyumaUnreachable → subject = "" := by
  rintro rfl
  exact (String.append_right_inj _).mp (h _ c hc hrule)

lemma not_found_of_not_present {findings : List Finding}
    (h : conditionKey rule subject ∉ findings.map Finding.key) : ¬ Found findings rule subject := by
  rintro ⟨f, hf, rfl, rfl⟩
  exact h (List.mem_map_of_mem hf)

lemma Watch.Traced.step (h : w.Traced rule subject) (hrooted : w.Rooted) {a : WatchAction}
    (hok : Informed rule subject w a) (hstep : w.step a = some w') : w'.Traced rule subject := by
  intro c since hget hrule habsent
  cases a with
  | observe now input =>
    cases hstep
    have hswept := w.engine.observe_swept now input (conditionKey rule subject)
    rw [show (w.engine.observe now input).conditions.get? _ = some c from hget] at hswept
    generalize hbefore : w.engine.conditions.get? (conditionKey rule subject) = before at hswept
    cases hswept with
    | found hpresent hnone =>
      simp_all
    | skipped hpresent hskipped =>
      exact (h c since hbefore hrule habsent).snoc (not_found_of_not_present hpresent)
    | @waiting c hpresent hevaluated hfiring =>
      have hnot := not_found_of_not_present hpresent
      cases hsince : c.absentSince with
      | some since₀ =>
        simp only [hsince, Option.getD_some, Option.some.injEq] at habsent
        subst habsent
        exact (h c since₀ hbefore hrule hsince).snoc hnot
      | none =>
        -- the first round that does not find it
        simp only [hsince, Option.getD_none, Option.some.injEq] at habsent
        subst habsent
        have hdata := (hok c hbefore hrule hfiring).hasData (hrooted.eq_empty hbefore hrule)
          (hrule ▸ hevaluated) hnot
        exact absentSince_last ⟨_, input, _⟩ hdata hnot
  | markSent keys resolved at_ =>
    cases hstep
    unfold Engine.markSent at hget
    rw [Table.get?_filterMap, Option.bind_eq_some_iff] at hget
    obtain ⟨c₀, hc₀, hkept⟩ := hget
    refine h c₀ since hc₀ ?_ ?_
    · grind
    grind

lemma Watch.traced_init (rules : AlertRules) : (Watch.init rules).Traced rule subject := by
  intro c since hget
  cases hget

lemma Watch.step_rules {a : WatchAction} (h : w.step a = some w') :
    w'.engine.rules = w.engine.rules := by
  cases a <;> cases h <;> rfl

end Trace

theorem alert_recovers_on_data (rules : AlertRules) (hfits : rules.resolveAfterS * 1000 < 2 ^ 64)
    (rule : Rule) (subject : String) {as : List WatchAction} {w w' : Watch} {now : ℕ}
    {input : Inputs} {c : Condition}
    (hok : AllSteps Watch.step (Informed rule subject) (.init rules) (as ++ [.observe now input]))
    (hw : run Watch.step (.init rules) as = some w)
    (hc : w.engine.conditions.get? (conditionKey rule subject) = some c) (hrule : c.rule = rule)
    (hfiring : c.firing = true) (hw' : w.step (.observe now input) = some w')
    (hgone : w'.engine.conditions.get? (conditionKey rule subject) = none) :
    HasData input subject rule ∧
      ∃ before round after, w'.history = before ++ round :: after ∧
        round.now + rules.resolveAfterS * 1000 ≤ now ∧ HasData round.input subject rule ∧
        ∀ r ∈ round :: after, ¬ Found r.findings rule subject := by
  obtain ⟨htraced, hrooted⟩ : w.Traced rule subject ∧ w.Rooted :=
    run_invariant (I := fun w => w.Traced rule subject ∧ w.Rooted)
      (fun _ _ _ h hok hstep => ⟨h.1.step h.2 hok hstep, h.2.step hstep⟩)
      ⟨Watch.traced_init rules, fun _ _ hget => by cases hget⟩ hok.take hw
  have hrules : w.engine.rules = rules :=
    run_invariant_of_step (I := fun w => w.engine.rules = rules)
      (fun _ _ _ h hstep => (Watch.step_rules hstep).trans h) rfl hw
  have hresolve : w.engine.resolveMs = rules.resolveAfterS * 1000 := by
    unfold Engine.resolveMs wrap
    simp_all
  have hinformed : Informed rule subject w (.observe now input) := (hok.drop hw).1
  cases hw'
  have hswept := w.engine.observe_swept now input (conditionKey rule subject)
  rw [show (w.engine.observe now input).conditions.get? _ = none from hgone, hc] at hswept
  cases hswept with
  | removed hpresent hevaluated hlong =>
    have hnot := not_found_of_not_present hpresent
    replace hlong := hresolve ▸ hlong hfiring
    have hdata : HasData input subject rule :=
      (hinformed c hc hrule hfiring).hasData (hrooted.eq_empty hc hrule) (hrule ▸ hevaluated) hnot
    obtain ⟨since, hsince, before, round, after, hhistory, rfl, hround⟩ :
        ∃ since, since + rules.resolveAfterS * 1000 ≤ now ∧ AbsentSince rule subject
          (w.history ++ [⟨now, input, w.engine.findings now input⟩]) since := by
      -- with nothing to wait for, the round that removes the condition is enough
      rcases Nat.eq_zero_or_pos (rules.resolveAfterS * 1000) with hzero | hpos
      · exact ⟨now, by omega, absentSince_last _ hdata hnot⟩
      · cases hsince : c.absentSince with
        | none =>
          simp_all
        | some since =>
          rw [hsince, Option.getD_some] at hlong
          exact ⟨since, by omega, (htraced c since hc hrule hsince).snoc hnot⟩
    grind

def testRules : AlertRules :=
  { enrichmentRecentMinPct := ⟨fun hits total => hits * 100 < 95 * total, fun hits total =>
      toString (hits * 100 / total) ++ "." ++ toString (hits * 1000 / total % 10), "95"⟩ }

def testInputs (status : Status) (connected : Bool) : Inputs where
  upstream := ⟨1, true, none, none, none, 0⟩
  nodes := [⟨{ nodeId := "a", upstreamConnected := connected }, "10.0.0.1", 0, 0, false, false,
    false, "", status, "", 0, 0, 0, 0⟩]
  feedConnected := true

/-- A node loses its connection for a minute, and has it again in two rounds a minute apart. -/
theorem alert_recovers_on_two_reports : ∃ w w' c,
    run Watch.step (.init testRules)
      [.observe 0 (testInputs .notReady false), .observe 60000 (testInputs .notReady false),
        .observe 75000 (testInputs .serving true)] = some w ∧
    w.engine.conditions.get? "edge_upstream_down:a" = some c ∧ c.firing = true ∧
    w.step (.observe 135000 (testInputs .serving true)) = some w' ∧
    w'.engine.conditions.get? "edge_upstream_down:a" = none ∧
    ∃ before round after, w'.history = before ++ round :: after ∧ round.now + 60000 ≤ 135000 ∧
      HasData round.input "a" .edgeUpstreamDown ∧
      ∀ r ∈ round :: after, ¬ Found r.findings .edgeUpstreamDown "a" := by
  have hvals : ((run Watch.step (.init testRules)
      [.observe 0 (testInputs .notReady false), .observe 60000 (testInputs .notReady false),
        .observe 75000 (testInputs .serving true)]).bind fun w =>
      (w.engine.conditions.get? "edge_upstream_down:a").bind fun c =>
        (w.step (.observe 135000 (testInputs .serving true))).map fun w' =>
          (c.rule, c.firing, w'.engine.conditions.get? "edge_upstream_down:a")) =
      some (.edgeUpstreamDown, true, none) := by decide +kernel
  obtain ⟨w, hw, hvals⟩ := Option.bind_eq_some_iff.mp hvals
  obtain ⟨c, hc, hvals⟩ := Option.bind_eq_some_iff.mp hvals
  obtain ⟨w', hw', hvals⟩ := Option.map_eq_some_iff.mp hvals
  simp only [Prod.mk.injEq] at hvals
  obtain ⟨hrule, hfiring, hgone⟩ := hvals
  exact ⟨w, w', c, hw, hc, hfiring, hw', hgone,
    (alert_recovers_on_data testRules (by decide) .edgeUpstreamDown "a" (by decide +kernel) hw hc
      hrule hfiring hw' hgone).2⟩

/-- A node loses its connection, the alert fires and is pushed, and the node falls silent. A minute
later its alert is reported as recovered; the node is listed as stale. -/
theorem recovered_without_data : ∃ w w' c,
    run Watch.step (.init testRules)
      [.observe 0 (testInputs .notReady false), .observe 60000 (testInputs .notReady false),
        .markSent ["edge_upstream_down:a"] 0 60000, .observe 75000 (testInputs .stale false)] =
      some w ∧
    w.engine.conditions.get? "edge_upstream_down:a" = some c ∧ c.firing = true ∧
    w.step (.observe 135000 (testInputs .stale false)) = some w' ∧
    w'.engine.conditions.get? "edge_upstream_down:a" = none ∧
    w'.engine.resolved = [⟨"edge 与 tinyuma 断开", "a", 75000⟩] ∧
    (∃ node ∈ (testInputs .stale false).nodes,
      node.heartbeat.nodeId = "a" ∧ node.status ≠ .disabled) ∧
    ¬ HasData (testInputs .stale false) "a" .edgeUpstreamDown := by
  have hvals : ((run Watch.step (.init testRules)
      [.observe 0 (testInputs .notReady false), .observe 60000 (testInputs .notReady false),
        .markSent ["edge_upstream_down:a"] 0 60000, .observe 75000 (testInputs .stale false)]).bind
      fun w => (w.engine.conditions.get? "edge_upstream_down:a").bind fun c =>
        (w.step (.observe 135000 (testInputs .stale false))).map fun w' =>
          (c.firing, w'.engine.conditions.get? "edge_upstream_down:a", w'.engine.resolved)) =
      some (true, none, [⟨"edge 与 tinyuma 断开", "a", 75000⟩]) := by decide +kernel
  obtain ⟨w, hw, hvals⟩ := Option.bind_eq_some_iff.mp hvals
  obtain ⟨c, hc, hvals⟩ := Option.bind_eq_some_iff.mp hvals
  obtain ⟨w', hw', hvals⟩ := Option.map_eq_some_iff.mp hvals
  simp only [Prod.mk.injEq] at hvals
  obtain ⟨hfiring, hgone, hresolved⟩ := hvals
  exact ⟨w, w', c, hw, hc, hfiring, hw', hgone, hresolved, by decide, by decide⟩

end RustUma.Console
