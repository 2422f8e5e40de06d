import Mathlib.Data.List.Nodup
import RustUma.Console.Messages
import RustUma.Found.History

/-!
# Alerts are paired and throttled (`src/console/alerts.rs` `run_alerts`)

What the messages say over whole runs of the loop, read off the rounds that it records.
-/

namespace RustUma.Console

open RustUma.Found

/-! ## What the rounds show -/

def Turn.firing (rule : Rule) (subject : String) (t : Turn) : Bool :=
  (t.conditions.get? (conditionKey rule subject)).any Condition.firing

def Turn.Sent (rule : Rule) (subject : String) (t : Turn) : Prop :=
  t.sent = true ∧ ∃ n ∈ t.message, conditionKey rule subject ∈ n.keys

instance (rule : Rule) (subject : String) (t : Turn) : Decidable (t.Sent rule subject) :=
  inferInstanceAs (Decidable (_ ∧ ∃ n ∈ t.message, _))

def episode (rule : Rule) (subject : String) (history : List Turn) : List Turn :=
  history.rtakeWhile (Turn.firing rule subject)

def Held (rules : AlertRules) (rule : Rule) (subject : String) (now : ℕ) (history : List Turn) :
    Prop :=
  Since (fun t => t.now + rules.holdS rule * 1000 ≤ now ∧ Found t.findings rule subject)
    (fun t => rule ∈ evaluatedRules t.input → Found t.findings rule subject) history

structure Regular (rules : AlertRules) (rule : Rule) (subject : String) (before : List Turn)
    (t : Turn) : Prop where
  held : t.firing rule subject = true → episode rule subject before = [] →
    Found t.findings rule subject ∧ Held rules rule subject t.now (before ++ [t])
  offered : ∀ n ∈ t.message, t.firing rule subject = true →
    (∀ x ∈ episode rule subject before, ¬ x.Sent rule subject) →
    conditionKey rule subject ∈ n.keys
  throttled : ∀ n ∈ t.message, conditionKey rule subject ∈ n.keys →
    t.firing rule subject = true ∧ ∀ x ∈ episode rule subject before, x.Sent rule subject →
      x.now + rules.repeatAfterMin * minuteMs ≤ t.now

structure Episode where
  rule : Rule
  subject : String
  ended : ℕ
  deriving DecidableEq

def Recovers (history : List Turn) (entry : Resolved) (ep : Episode) : Prop :=
  entry.title = ep.rule.title ∧ entry.subject = ep.subject ∧
    Once (fun before t => t.firing ep.rule ep.subject = false ∧
      ∃ x ∈ episode ep.rule ep.subject before, x.Sent ep.rule ep.subject) history ep.ended

def sentRecoveries (history : List Turn) : List (ℕ × Resolved) :=
  history.zipIdx.flatMap fun entry =>
    if entry.1.sent then entry.1.recoveries.map fun resolved => (entry.2, resolved) else []

/-! ## Conditions and the history -/

def LastSent (rule : Rule) (subject : String) (turns : List Turn) : Option ℕ → Prop
  | none => ∀ t ∈ turns, ¬ t.Sent rule subject
  | some at_ => (∃ t ∈ turns, t.Sent rule subject) ∧
      ∀ t ∈ turns, t.Sent rule subject → t.now ≤ at_

def FoundSince (rule : Rule) (subject : String) (since : ℕ) (history : List Turn) : Prop :=
  Since (fun t => t.now = since ∧ Found t.findings rule subject)
    (fun t => rule ∈ evaluatedRules t.input → Found t.findings rule subject) history

def Condition.Names (rule : Rule) (subject : String) (c : Condition) : Prop :=
  c.rule = rule ∧ c.subject = subject ∧ c.title = rule.title

structure Tracked (rule : Rule) (subject : String) (history : List Turn) (c : Condition) :
    Prop where
  names : c.Names rule subject
  notified : LastSent rule subject (episode rule subject history) c.notifiedMs
  pending : c.firing = false →
    episode rule subject history = [] ∧ FoundSince rule subject c.pendingSince history
  firing : c.firing = true → episode rule subject history ≠ []

def Follows (rule : Rule) (subject : String) (history : List Turn) : Option Condition → Prop
  | none => episode rule subject history = []
  | some c => Tracked rule subject history c

structure Observed (rules : AlertRules) (rule : Rule) (subject : String) (history : List Turn)
    (t : Turn) (c : Condition) : Prop where
  names : c.Names rule subject
  notified : LastSent rule subject (episode rule subject history) c.notifiedMs
  pending : c.firing = false →
    episode rule subject history = [] ∧ FoundSince rule subject c.pendingSince (history ++ [t])
  held : c.firing = true → episode rule subject history = [] →
    Found t.findings rule subject ∧ Held rules rule subject t.now (history ++ [t])

section Rounds

variable {rules : AlertRules} {rule : Rule} {subject : String} {history : List Turn} {t : Turn}
  {c : Condition} {e : Engine} {now : ℕ} {input : Inputs} {f : Finding} {panelUrl : Option String}

lemma episode_concat_of_firing (h : t.firing rule subject = true) :
    episode rule subject (history ++ [t]) = episode rule subject history ++ [t] :=
  List.rtakeWhile_concat_pos _ _ _ h

lemma episode_concat_of_not_firing (h : t.firing rule subject = false) :
    episode rule subject (history ++ [t]) = [] :=
  List.rtakeWhile_concat_neg _ _ _ (by simp_all)

lemma mem_of_mem_episode {x : Turn} (h : x ∈ episode rule subject history) : x ∈ history :=
  (List.rtakeWhile_suffix _ _).subset h

lemma LastSent.concat_of_not_sent {turns : List Turn} {last : Option ℕ}
    (h : LastSent rule subject turns last) (ht : ¬ t.Sent rule subject) :
    LastSent rule subject (turns ++ [t]) last := by
  have hmem : ∀ x ∈ turns ++ [t], x.Sent rule subject → x ∈ turns := by
    grind
  cases last with
  | none => exact fun x hx hsent => h x (hmem x hx hsent) hsent
  | some at_ =>
    obtain ⟨⟨x, hx, hsent⟩, hlast⟩ := h
    exact ⟨⟨x, List.mem_append_left _ hx, hsent⟩,
      fun y hy hsent' => hlast y (hmem y hy hsent') hsent'⟩

lemma lastSent_concat_of_sent {turns : List Turn} (hclock : ∀ x ∈ turns, x.now ≤ t.now)
    (ht : t.Sent rule subject) : LastSent rule subject (turns ++ [t]) (some t.now) := by
  refine ⟨⟨t, List.mem_append_right _ List.mem_cons_self, ht⟩, fun x hx _ => ?_⟩
  grind

/-! ### Observing -/

lemma Engine.produces_of_mem_findings (hf : f ∈ e.findings now input) : e.rules.Produces f :=
  yields_evaluate input e.series f hf

lemma Engine.finding_of_key (hf : f ∈ e.findings now input)
    (hkey : f.key = conditionKey rule subject) :
    (Condition.new f now).Names rule subject ∧ f.holdMs = wrap (e.rules.holdS rule * 1000) := by
  obtain ⟨hrule, hsubject⟩ := conditionKey_injective hkey
  obtain ⟨hproduces, -⟩ := Engine.produces_of_mem_findings hf
  rw [hrule] at hproduces
  refine ⟨⟨hrule, hsubject, ?_⟩, ?_⟩
  · exact congrArg Finding.title hproduces
  · exact congrArg Finding.holdMs hproduces

lemma Engine.found_of_key (hf : f ∈ e.findings now input)
    (hkey : f.key = conditionKey rule subject) : Found (e.findings now input) rule subject := by
  obtain ⟨hrule, hsubject⟩ := conditionKey_injective hkey
  exact ⟨f, hf, hrule, hsubject⟩

variable {base : Condition} {key : String} {entry : Resolved}

lemma Condition.Grown.names {findings : List Finding} (h : base.Grown now findings key c)
    (hbase : base.Names rule subject) :
    c.Names rule subject :=
  ⟨h.rule.trans hbase.1, h.subject.trans hbase.2.1, h.title.trans hbase.2.2⟩

lemma FoundSince.held {since : ℕ} (h : FoundSince rule subject since (history ++ [t]))
    (hclock : ∀ x ∈ history ++ [t], x.now ≤ t.now)
    (hlong : rules.holdS rule * 1000 ≤ t.now - since) :
    Held rules rule subject t.now (history ++ [t]) := by
  refine Since.imp h fun x hx hfound => ⟨?_, hfound.2⟩
  grind

lemma Tracked.observed_of_firing (h : Tracked rule subject history base)
    (hbase : base.firing = true) (hnames : c.Names rule subject)
    (hnotified : c.notifiedMs = base.notifiedMs) (hfiring : c.firing = true) :
    Observed rules rule subject history t c where
  names := hnames
  notified := hnotified ▸ h.notified
  pending hnot := absurd (hfiring.symm.trans hnot) (by decide)
  held _ hnil := absurd hnil (h.firing hbase)

lemma observed_of_grown (hfits : e.rules.holdS rule * 1000 < 2 ^ 64)
    (hclock : ∀ x ∈ history ++ [t], x.now ≤ t.now) (hbase : base.firing = false)
    (hnil : episode rule subject history = [])
    (hsince : FoundSince rule subject base.pendingSince (history ++ [t]))
    (hfound : Found t.findings rule subject) (hnames : base.Names rule subject)
    (hnotified : LastSent rule subject (episode rule subject history) base.notifiedMs)
    (hgrown : base.Grown t.now (e.findings t.now input) (conditionKey rule subject) c) :
    Observed e.rules rule subject history t c where
  names := hgrown.names hnames
  notified := hgrown.notifiedMs ▸ hnotified
  pending _ := ⟨hnil, hgrown.pendingSince ▸ hsince⟩
  held hfiring _ := by
    refine ⟨hfound, ?_⟩
    rcases hgrown.firing.mp hfiring with htrue | ⟨f, hf, hkey, hlong⟩
    · simp_all
    · rw [(Engine.finding_of_key hf hkey).2, wrap, Nat.mod_eq_of_lt hfits] at hlong
      exact hsince.held hclock hlong

lemma observed_of_follows (hfits : e.rules.holdS rule * 1000 < 2 ^ 64)
    (hclock : ∀ x ∈ history ++ [t], x.now ≤ t.now)
    (h : Follows rule subject history (e.conditions.get? (conditionKey rule subject)))
    (hfindings : t.findings = e.findings t.now t.input)
    (hc : (e.observe t.now t.input).conditions.get? (conditionKey rule subject) = some c) :
    Observed e.rules rule subject history t c := by
  have hpassed := e.observe_passed t.now t.input (conditionKey rule subject)
  rw [hc] at hpassed
  generalize e.conditions.get? (conditionKey rule subject) = before at h hpassed
  cases hpassed with
  | entered f hf hkey hgrown =>
    have hfound : Found t.findings rule subject := hfindings ▸ Engine.found_of_key hf hkey
    refine observed_of_grown hfits hclock rfl h (since_last ⟨rfl, hfound⟩ fun _ => hfound) hfound
      (Engine.finding_of_key hf hkey).1 ?_ hgrown
    rw [show episode rule subject history = [] from h]
    exact fun x hx => absurd hx List.not_mem_nil
  | @again base c f hf hkey hgrown =>
    have htracked : Tracked rule subject history base := h
    have hfound : Found t.findings rule subject := hfindings ▸ Engine.found_of_key hf hkey
    cases hbase : base.firing with
    | true =>
      exact htracked.observed_of_firing hbase (hgrown.names htracked.names) hgrown.notifiedMs
        (hgrown.firing.mpr (Or.inl hbase))
    | false =>
      obtain ⟨hnil, hsince⟩ := htracked.pending hbase
      exact observed_of_grown hfits hclock hbase hnil (hsince.concat fun _ => hfound) hfound
        htracked.names htracked.notified hgrown
  | skipped hrule =>
    have htracked : Tracked rule subject history c := h
    cases hbase : c.firing with
    | true => exact htracked.observed_of_firing hbase htracked.names rfl hbase
    | false =>
      -- a round that did not evaluate the rule says nothing
      obtain ⟨hnil, hsince⟩ := htracked.pending hbase
      refine ⟨htracked.names, htracked.notified, fun _ => ⟨hnil, ?_⟩, ?_⟩
      · refine hsince.concat fun hevaluated => absurd hevaluated ?_
        rw [← htracked.names.1]
        exact hrule
      simp_all
  | @waiting base since hfiring =>
    have htracked : Tracked rule subject history base := h
    exact htracked.observed_of_firing hfiring htracked.names rfl hfiring

/-! ### Sending -/

lemma Engine.mem_keys_iff {n : Notification} (h : n ∈ e.pendingMessage now panelUrl)
    (key : String) :
    key ∈ n.keys ↔ ∃ c, e.conditions.get? key = some c ∧ c.firing = true ∧
      ∀ at_ ∈ c.notifiedMs, e.repeatMs ≤ now - at_ := by
  unfold Engine.pendingMessage at h
  split_ifs at h with hnothing
  · cases h
  obtain rfl := Option.some_inj.mp h
  simp only [List.map_append, List.mem_append, List.mem_map, Engine.fresh, Engine.due,
    List.mem_filter, Bool.and_eq_true]
  constructor
  · rintro (⟨⟨_, c⟩, ⟨hmem, hfiring, hnone⟩, rfl⟩ | ⟨⟨_, c⟩, ⟨hmem, hfiring, hdue⟩, rfl⟩)
    · refine ⟨c, Table.get?_of_mem_rows hmem, hfiring, fun at_ hat => ?_⟩
      simp_all
    · refine ⟨c, Table.get?_of_mem_rows hmem, hfiring, fun at_ hat => ?_⟩
      simp_all
  · rintro ⟨c, hget, hfiring, hdue⟩
    have hmem := Table.mem_rows_of_get? hget
    cases hnotified : c.notifiedMs with
    | none => grind
    | some at_ =>
      grind

lemma Engine.resolved_of_pendingMessage {n : Notification}
    (h : n ∈ e.pendingMessage now panelUrl) : n.resolved = e.resolved.length := by
  unfold Engine.pendingMessage at h
  grind

lemma get?_settle (e : Engine) (t : Turn) (rule : Rule) (subject : String) :
    (AlertLoop.settle e t).conditions.get? (conditionKey rule subject) =
      (e.conditions.get? (conditionKey rule subject)).map fun c =>
        if t.Sent rule subject then { c with notifiedMs := some t.now } else c := by
  cases hmessage : t.message with
  | none =>
    have hnot : ¬ t.Sent rule subject := by
      rintro ⟨-, n, hn, -⟩
      simp_all
    simp only [AlertLoop.settle, hmessage, if_neg hnot, Option.map_id']
  | some n =>
    have hiff : t.Sent rule subject ↔ t.sent = true ∧ conditionKey rule subject ∈ n.keys := by
      unfold Turn.Sent
      simp_all
    by_cases hsent : t.sent = true
    · simp only [AlertLoop.settle, hmessage, hiff, hsent, true_and, if_true, Engine.markSent,
        Table.get?_filterMap]
      cases e.conditions.get? (conditionKey rule subject) with
      | none => rfl
      | some c => rfl
    simp_all [AlertLoop.settle]

lemma Observed.settled (h : Observed rules rule subject history t c)
    (hclock : ∀ x ∈ history, x.now ≤ t.now) (hfiring : t.firing rule subject = c.firing)
    (hsent : t.Sent rule subject → c.firing = true) :
    Tracked rule subject (history ++ [t])
      (if t.Sent rule subject then { c with notifiedMs := some t.now } else c) := by
  cases hcase : c.firing with
  | false =>
    obtain ⟨hnil, hsince⟩ := h.pending hcase
    have hnot : ¬ t.Sent rule subject := by
      simp_all
    have hepisode : episode rule subject (history ++ [t]) = [] :=
      episode_concat_of_not_firing (hfiring.trans hcase)
    rw [if_neg hnot]
    refine ⟨h.names, ?_, fun _ => ⟨hepisode, hsince⟩, fun htrue => ?_⟩
    · rw [hepisode, ← hnil]
      exact h.notified
    simp_all
  | true =>
    have hepisode : episode rule subject (history ++ [t]) = episode rule subject history ++ [t] :=
      episode_concat_of_firing (hfiring.trans hcase)
    have hne : episode rule subject (history ++ [t]) ≠ [] := by
      simp_all
    split_ifs with hs
    · refine ⟨h.names, ?_, fun hfalse => ?_, fun _ => hne⟩
      · grind [lastSent_concat_of_sent, mem_of_mem_episode]
      · cases hfalse
    · refine ⟨h.names, ?_, fun hfalse => ?_, fun _ => hne⟩
      · rw [hepisode]
        exact h.notified.concat_of_not_sent hs
      simp_all

lemma exists_of_firing (hfiring : t.firing rule subject = true) :
    ∃ c, t.conditions.get? (conditionKey rule subject) = some c ∧ c.firing = true := by
  exact (Option.any_eq_true _ _).mp hfiring

lemma firing_of_get? (hc : t.conditions.get? (conditionKey rule subject) = some c) :
    t.firing rule subject = c.firing := by
  unfold Turn.firing
  rw [hc, Option.any_some]

lemma regular_of_observed (hfits : e.rules.repeatAfterMin * minuteMs < 2 ^ 64)
    (hconditions : t.conditions = e.conditions)
    (hmessage : ∀ n ∈ t.message, n ∈ e.pendingMessage t.now panelUrl)
    (h : ∀ c, e.conditions.get? (conditionKey rule subject) = some c →
      Observed e.rules rule subject history t c) : Regular e.rules rule subject history t := by
  have hrepeat : e.repeatMs = max e.rules.repeatAfterMin 1 * minuteMs := by
    refine Nat.mod_eq_of_lt ?_
    rcases le_total e.rules.repeatAfterMin 1 with hle | hle
    · rw [max_eq_right hle]
      decide
    simp_all
  refine ⟨fun hfiring hnil => ?_, fun n hn hfiring hnever => ?_, fun n hn hkey => ?_⟩
  · obtain ⟨c, hc, htrue⟩ := exists_of_firing hfiring
    exact (h c (hconditions ▸ hc)).held htrue hnil
  · obtain ⟨c, hc, htrue⟩ := exists_of_firing hfiring
    rw [hconditions] at hc
    refine (Engine.mem_keys_iff (hmessage n hn) _).mpr ⟨c, hc, htrue, fun at_ hat => ?_⟩
    have hnotified := (h c hc).notified
    rw [Option.mem_def.mp hat] at hnotified
    obtain ⟨⟨x, hx, hsent⟩, -⟩ := hnotified
    simp_all
  · obtain ⟨c, hc, htrue, hdue⟩ := (Engine.mem_keys_iff (hmessage n hn) _).mp hkey
    refine ⟨(firing_of_get? (hconditions ▸ hc)).trans htrue, fun x hx hsent => ?_⟩
    have hnotified := (h c hc).notified
    cases hcase : c.notifiedMs with
    | none =>
      rw [hcase] at hnotified
      exact absurd hsent (hnotified x hx)
    | some at_ =>
      rw [hcase] at hnotified
      have hlast := hnotified.2 x hx hsent
      have hlong := hdue at_ hcase
      unfold minuteMs at *
      omega

/-! ### Recoveries -/

lemma Condition.of_report {resolveMs : ℕ} {present : List String} {evaluated : List Rule}
    (h : c.report resolveMs now present evaluated key = some entry) :
    key ∉ present ∧ c.notifiedMs.isSome = true ∧
      c.kept resolveMs now present evaluated key = none ∧
      entry.title = c.title ∧ entry.subject = c.subject := by
  unfold Condition.report at h
  unfold Condition.kept
  by_cases hskip : key ∈ present ∨ c.rule ∉ evaluated
  · have hsweep : c.sweep resolveMs now present evaluated key = (c, false) := if_pos hskip
    simp_all
  · have hsweep : c.sweep resolveMs now present evaluated key = c.absent resolveMs now :=
      if_neg hskip
    rw [hsweep] at h ⊢
    unfold Condition.absent at h ⊢
    grind

def Paired (s : AlertLoop) : Prop :=
  ∃ (sent : List ((ℕ × Resolved) × Episode)) (backlog : List (Resolved × Episode)),
    sentRecoveries s.history = sent.map Prod.fst ∧ s.engine.resolved = backlog.map Prod.fst ∧
    (∀ o ∈ sent, o.2.ended ≤ o.1.1 ∧ Recovers s.history o.1.2 o.2) ∧
    (∀ o ∈ backlog, Recovers s.history o.1 o.2) ∧
    (sent.map Prod.snd ++ backlog.map Prod.snd).Nodup

lemma Recovers.concat {ep : Episode} (h : Recovers history entry ep) (t : Turn) :
    Recovers (history ++ [t]) entry ep :=
  ⟨h.1, h.2.1, h.2.2.concat t⟩

def Engine.ended (e : Engine) (now : ℕ) (input : Inputs) (n : ℕ) : List (Resolved × Episode) :=
  (e.entered now input).rows.filterMap fun row =>
    (row.2.report e.resolveMs now ((e.findings now input).map Finding.key) (evaluatedRules input)
      row.1).map fun entry => (entry, ⟨row.2.rule, row.2.subject, n⟩)

lemma Engine.get?_of_report {row : String × Condition} (hrow : row ∈ (e.entered now input).rows)
    (hreport : row.2.report e.resolveMs now ((e.findings now input).map Finding.key)
      (evaluatedRules input) row.1 = some entry) :
    e.conditions.get? row.1 = some row.2 := by
  rw [← Table.get?_of_mem_rows hrow]
  exact (get?_foldl_enter (Condition.of_report hreport).1).symm

lemma Engine.of_mem_ended {n : ℕ} {o : Resolved × Episode} (h : o ∈ e.ended now input n) :
    ∃ key c, e.conditions.get? key = some c ∧ c.notifiedMs.isSome = true ∧
      (e.observe now input).conditions.get? key = none ∧ o.1.title = c.title ∧
      o.1.subject = c.subject ∧ o.2 = ⟨c.rule, c.subject, n⟩ := by
  obtain ⟨row, hrow, ho⟩ := List.mem_filterMap.mp h
  obtain ⟨entry, hreport, rfl⟩ := Option.map_eq_some_iff.mp ho
  obtain ⟨-, hnotified, hkept, htitle, hsubject⟩ := Condition.of_report hreport
  refine ⟨row.1, row.2, Engine.get?_of_report hrow hreport, hnotified, ?_, htitle, hsubject, rfl⟩
  unfold Engine.observe
  rw [Table.get?_filterMap, Table.get?_of_mem_rows hrow]
  exact hkept

lemma Engine.nodup_ended
    (hkeyed : ∀ key c, e.conditions.get? key = some c → key = conditionKey c.rule c.subject)
    (n : ℕ) : ((e.ended now input n).map Prod.snd).Nodup := by
  unfold List.Nodup Engine.ended
  rw [List.pairwise_map, List.pairwise_filterMap]
  refine (e.entered now input).sorted.imp_of_mem fun {row row'} hrow hrow' hlt o ho o' ho' heq => ?_
  obtain ⟨entry, hreport, rfl⟩ := Option.map_eq_some_iff.mp ho
  obtain ⟨entry', hreport', rfl⟩ := Option.map_eq_some_iff.mp ho'
  obtain ⟨hrule, hsubject, -⟩ := Episode.mk.inj heq
  -- one rule and one subject have one key
  refine absurd hlt (not_lt_of_ge (le_of_eq ?_))
  rw [hkeyed _ _ (Engine.get?_of_report hrow hreport),
    hkeyed _ _ (Engine.get?_of_report hrow' hreport'), hrule, hsubject]

lemma Engine.map_fst_ended (e : Engine) (now : ℕ) (input : Inputs) (n : ℕ) :
    (e.ended now input n).map Prod.fst = (e.entered now input).rows.filterMap fun row =>
      row.2.report e.resolveMs now ((e.findings now input).map Finding.key) (evaluatedRules input)
        row.1 := by
  simp [Engine.ended, List.map_filterMap, Function.comp_def]

lemma exists_backlog {taken : List Episode} {backlog : List (Resolved × Episode)}
    (hkeyed : ∀ key c, e.conditions.get? key = some c → key = conditionKey c.rule c.subject)
    (hfollows : ∀ rule subject,
      Follows rule subject history (e.conditions.get? (conditionKey rule subject)))
    (hconditions : t.conditions = (e.observe now input).conditions)
    (hresolved : e.resolved = backlog.map Prod.fst)
    (htaken : ∀ ep ∈ taken, ep.ended < history.length)
    (hbacklog : ∀ o ∈ backlog, Recovers history o.1 o.2)
    (hnodup : (taken ++ backlog.map Prod.snd).Nodup) :
    ∃ backlog' : List (Resolved × Episode), (e.observe now input).resolved = backlog'.map Prod.fst ∧
      (∀ o ∈ backlog', Recovers (history ++ [t]) o.1 o.2) ∧
      (taken ++ backlog'.map Prod.snd).Nodup := by
  have hended : ∀ o ∈ e.ended now input history.length, Recovers (history ++ [t]) o.1 o.2 := by
    intro o ho
    obtain ⟨key, c, hget, hnotified, hgone, htitle, hsubject, hepisode⟩ := Engine.of_mem_ended ho
    obtain rfl := hkeyed key c hget
    have htracked := hfollows c.rule c.subject
    rw [hget] at htracked
    rw [hepisode]
    refine ⟨htitle.trans (Tracked.names htracked).2.2, hsubject, once_last ⟨?_, ?_⟩⟩
    · unfold Turn.firing
      simp_all
    · obtain ⟨at_, hat⟩ := Option.isSome_iff_exists.mp hnotified
      have hlast := Tracked.notified htracked
      rw [hat] at hlast
      exact hlast.1
  have hnew : ∀ o ∈ e.ended now input history.length, o.2.ended = history.length := by
    grind [Engine.of_mem_ended]
  have hall : (taken ++ (backlog ++ e.ended now input history.length).map Prod.snd).Nodup := by
    rw [List.map_append, ← List.append_assoc]
    refine List.nodup_append.mpr ⟨hnodup, Engine.nodup_ended hkeyed _, ?_⟩
    rintro ep hep _ hep' rfl
    obtain ⟨o, ho, rfl⟩ := List.mem_map.mp hep'
    have hlt : o.2.ended < history.length := by
      rcases List.mem_append.mp hep with hep | hep
      · exact htaken _ hep
      · obtain ⟨o', ho', heq⟩ := List.mem_map.mp hep
        rw [← heq]
        exact (hbacklog o' ho').2.2.lt_length
    grind
  refine ⟨(backlog ++ e.ended now input history.length).drop
    ((backlog ++ e.ended now input history.length).length - maxPendingResolved), ?_, ?_, ?_⟩
  · grind [Engine.observe, Engine.map_fst_ended, List.map_drop]
  · intro o ho
    rcases List.mem_append.mp (List.mem_of_mem_drop ho) with ho | ho
    · exact (hbacklog o ho).concat t
    · exact hended o ho
  · refine hall.sublist (List.Sublist.append_left ?_ _)
    grind

/-! ## Runs -/

lemma sentRecoveries_concat (history : List Turn) (t : Turn) :
    sentRecoveries (history ++ [t]) = sentRecoveries history ++
      if t.sent then t.recoveries.map fun resolved => (history.length, resolved) else [] := by
  unfold sentRecoveries
  grind

lemma resolved_settle (hmessage : ∀ n ∈ t.message, n.resolved = e.resolved.length)
    (hsome : t.sent = true → t.message.isSome = true) :
    (AlertLoop.settle e t).resolved = if t.sent then [] else e.resolved := by
  grind [AlertLoop.settle, Engine.markSent]

lemma AlertLoop.rules_settle (e : Engine) (t : Turn) : (settle e t).rules = e.rules := by
  unfold settle
  split
  · split_ifs <;> rfl
  · rfl

lemma of_get?_settle (h : (AlertLoop.settle e t).conditions.get? key = some c) :
    ∃ c₀, e.conditions.get? key = some c₀ ∧ c.rule = c₀.rule ∧ c.subject = c₀.subject := by
  grind [AlertLoop.settle, Engine.markSent, Table.get?_filterMap, Option.bind_eq_some_iff]

lemma Engine.keyed_observe
    (hkeyed : ∀ key c, e.conditions.get? key = some c → key = conditionKey c.rule c.subject)
    (hc : (e.observe now input).conditions.get? key = some c) :
    key = conditionKey c.rule c.subject := by
  have hpassed := e.observe_passed now input key
  rw [hc] at hpassed
  generalize hbefore : e.conditions.get? key = before at hpassed
  cases hpassed with
  | entered f hf hkey hgrown =>
    rw [hgrown.rule, hgrown.subject]
    exact hkey.symm
  | again f hf hkey hgrown =>
    rw [hgrown.rule, hgrown.subject]
    grind
  | skipped => grind
  | @waiting base since hfiring =>
    grind

lemma Follows.step
    (hobserved : ∀ c, e.conditions.get? (conditionKey rule subject) = some c →
      Observed rules rule subject history t c)
    (hclock : ∀ x ∈ history, x.now ≤ t.now) (hconditions : t.conditions = e.conditions)
    (hmessage : ∀ n ∈ t.message, n ∈ e.pendingMessage t.now panelUrl) :
    Follows rule subject (history ++ [t])
      ((AlertLoop.settle e t).conditions.get? (conditionKey rule subject)) := by
  rw [get?_settle]
  cases hc : e.conditions.get? (conditionKey rule subject) with
  | none =>
    refine episode_concat_of_not_firing ?_
    unfold Turn.firing
    simp_all
  | some c =>
    refine (hobserved c hc).settled hclock (firing_of_get? (hconditions ▸ hc)) ?_
    rintro ⟨-, n, hn, hkey⟩
    grind [Engine.mem_keys_iff]

end Rounds

structure Kept (rules : AlertRules) (s : AlertLoop) : Prop where
  unchanged : s.engine.rules = rules
  clock : ∀ t ∈ s.history, t.now ≤ s.clock
  keyed : ∀ key c, s.engine.conditions.get? key = some c → key = conditionKey c.rule c.subject
  follows : ∀ rule subject,
    Follows rule subject s.history (s.engine.conditions.get? (conditionKey rule subject))
  regular : ∀ rule subject, Every (Regular rules rule subject) s.history
  paired : Paired s

lemma kept_start (rules : AlertRules) : Kept rules (.start rules) where
  unchanged := rfl
  clock t ht := absurd ht List.not_mem_nil
  keyed key c hget := by cases hget
  follows rule subject := rfl
  regular rule subject := every_nil
  paired := ⟨[], [], rfl, rfl, by simp, by simp, List.nodup_nil⟩

section Loop

variable {rules : AlertRules} {panelUrl : Option String} {s s' : AlertLoop} {a : LoopRound}

lemma AlertLoop.mem_message {n : Notification} (h : n ∈ (turn panelUrl s.engine a).message) :
    n ∈ (s.engine.observe a.now a.input).pendingMessage a.now panelUrl := by
  have hoffer : n ∈ offer panelUrl s.engine a := h
  unfold offer at hoffer
  simp_all

lemma AlertLoop.turn_recoveries :
    (turn panelUrl s.engine a).recoveries = (s.engine.observe a.now a.input).resolved := by
  simp only [turn]

lemma AlertLoop.resolved_settle_turn :
    (settle (s.engine.observe a.now a.input) (turn panelUrl s.engine a)).resolved =
      if (turn panelUrl s.engine a).sent then []
      else (s.engine.observe a.now a.input).resolved := by
  refine resolved_settle (fun n hn => ?_) fun hsent => ?_
  · exact Engine.resolved_of_pendingMessage (mem_message hn)
  · exact ((Bool.and_eq_true _ _).mp hsent).1

lemma Kept.paired_step (h : Kept rules s) (hstep : s.step panelUrl a = some s') : Paired s' := by
  unfold AlertLoop.step at hstep
  split_ifs at hstep
  obtain rfl := Option.some_inj.mp hstep
  obtain ⟨sent, backlog, hsent, hresolved, hsentEpisodes, hbacklog, hnodup⟩ := h.paired
  have htaken : ∀ ep ∈ sent.map Prod.snd, ep.ended < s.history.length := by
    intro ep hep
    obtain ⟨o, ho, rfl⟩ := List.mem_map.mp hep
    exact (hsentEpisodes o ho).2.2.2.lt_length
  obtain ⟨backlog', hresolved', hbacklog', hnodup'⟩ :=
    exists_backlog (t := AlertLoop.turn panelUrl s.engine a) h.keyed h.follows rfl hresolved htaken
      hbacklog hnodup
  have hsentEpisodes' : ∀ o ∈ sent, o.2.ended ≤ o.1.1 ∧
      Recovers (s.history ++ [AlertLoop.turn panelUrl s.engine a]) o.1.2 o.2 :=
    fun o ho => ⟨(hsentEpisodes o ho).1, (hsentEpisodes o ho).2.concat _⟩
  cases hcase : (AlertLoop.turn panelUrl s.engine a).sent with
  | false =>
    refine ⟨sent, backlog', ?_, ?_, hsentEpisodes', hbacklog', hnodup'⟩
    · rw [sentRecoveries_concat, hcase, hsent]
      exact List.append_nil _
    · rw [AlertLoop.resolved_settle_turn, hcase]
      exact hresolved'
  | true =>
    -- every recovery of the backlog is sent in this round
    refine ⟨sent ++ backlog'.map fun o => ((s.history.length, o.1), o.2), [], ?_, ?_, ?_, ?_, ?_⟩
    · simp_all [sentRecoveries_concat, AlertLoop.turn_recoveries]
    · rw [AlertLoop.resolved_settle_turn, hcase]
      rfl
    · intro o ho
      rcases List.mem_append.mp ho with ho | ho
      · grind
      · obtain ⟨o', ho', rfl⟩ := List.mem_map.mp ho
        have hrecovers := hbacklog' o' ho'
        refine ⟨?_, hrecovers⟩
        have hlt := hrecovers.2.2.lt_length
        grind
    · simp
    grind

lemma Kept.step (h : Kept rules s) (hrepeat : rules.repeatAfterMin * minuteMs < 2 ^ 64)
    (hhold : ∀ rule, rules.holdS rule * 1000 < 2 ^ 64) (hstep : s.step panelUrl a = some s') :
    Kept rules s' := by
  have hpaired := h.paired_step hstep
  unfold AlertLoop.step at hstep
  split_ifs at hstep with hclock
  obtain rfl := Option.some_inj.mp hstep
  have hpast : ∀ t ∈ s.history, t.now ≤ a.now :=
    fun t ht => (h.clock t ht).trans (not_lt.mp hclock)
  have hclock' : ∀ t ∈ s.history ++ [AlertLoop.turn panelUrl s.engine a], t.now ≤ a.now := by
    intro t ht
    rcases List.mem_append.mp ht with ht | ht
    · exact hpast t ht
    · rw [List.mem_singleton.mp ht]
      exact le_rfl
  have hobserved : ∀ rule subject c,
      (s.engine.observe a.now a.input).conditions.get? (conditionKey rule subject) = some c →
      Observed rules rule subject s.history (AlertLoop.turn panelUrl s.engine a) c := by
    intro rule subject c hc
    have hfits : s.engine.rules.holdS rule * 1000 < 2 ^ 64 := h.unchanged ▸ hhold rule
    exact h.unchanged ▸ observed_of_follows hfits hclock' (h.follows rule subject) rfl hc
  refine ⟨?_, hclock', ?_, fun rule subject => ?_, fun rule subject => ?_, hpaired⟩
  · rw [← h.unchanged]
    exact AlertLoop.rules_settle _ _
  · intro key c hc
    obtain ⟨c₀, hc₀, hrule, hsubject⟩ := of_get?_settle hc
    rw [hrule, hsubject]
    exact Engine.keyed_observe h.keyed hc₀
  · exact Follows.step (hobserved rule subject) hpast rfl fun n hn => AlertLoop.mem_message hn
  · refine (h.regular rule subject).concat ?_
    have hrules : (s.engine.observe a.now a.input).rules = rules := h.unchanged
    have hregular : Regular (s.engine.observe a.now a.input).rules rule subject s.history
        (AlertLoop.turn panelUrl s.engine a) := by
      refine regular_of_observed ?_ rfl (fun n hn => AlertLoop.mem_message hn) fun c hc => ?_
      · simp_all
      simp_all
    rwa [hrules] at hregular

end Loop

lemma kept_of_run {rules : AlertRules} {panelUrl : Option String}
    (hrepeat : rules.repeatAfterMin * minuteMs < 2 ^ 64)
    (hhold : ∀ rule, rules.holdS rule * 1000 < 2 ^ 64) {as : List LoopRound} {s : AlertLoop}
    (hrun : run (AlertLoop.step panelUrl) (.start rules) as = some s) : Kept rules s :=
  run_invariant_of_step (fun _ _ _ h hstep => h.step hrepeat hhold hstep)
    (kept_start rules) hrun

theorem alerts_paired_and_throttled (rules : AlertRules) (panelUrl : Option String)
    (hrepeat : rules.repeatAfterMin * 60000 < 2 ^ 64)
    (hhold : ∀ rule, rules.holdS rule * 1000 < 2 ^ 64) (as : List LoopRound) (s : AlertLoop)
    (hrun : run (AlertLoop.step panelUrl) (.start rules) as = some s) :
    (∀ rule subject, Every (Regular rules rule subject) s.history) ∧
      ∃ sent : List ((ℕ × Resolved) × Episode), sentRecoveries s.history = sent.map Prod.fst ∧
        (sent.map Prod.snd).Nodup ∧
        ∀ o ∈ sent, o.2.ended ≤ o.1.1 ∧ Recovers s.history o.1.2 o.2 := by
  have hkept : Kept rules s := kept_of_run hrepeat hhold hrun
  obtain ⟨sent, backlog, hsent, -, hepisodes, -, hnodup⟩ := hkept.paired
  exact ⟨hkept.regular, sent, hsent, (List.nodup_append.mp hnodup).1, hepisodes⟩

def testRound (now : ℕ) (connected delivered : Bool) : LoopRound where
  now := now
  input := testInputs (if connected then .serving else .notReady) connected
  blocked := false
  delivered := delivered

/-- A node is without a connection for a minute and a half. The first message is lost, the second is
sent, and both alerts recover. -/
theorem alerts_paired_after_lost_message :
    ∃ s, run (AlertLoop.step none) (.start testRules)
        [testRound 0 false true, testRound 60000 false false, testRound 75000 false true,
          testRound 90000 true true, testRound 150000 true true] = some s ∧
      sentRecoveries s.history = [(4, ⟨"服务中的 edge 节点太少", "", 90000⟩),
        (4, ⟨"edge 与 tinyuma 断开", "a", 90000⟩)] ∧
      Every (Regular testRules .edgeUpstreamDown "a") s.history ∧
      ∃ sent : List ((ℕ × Resolved) × Episode), sentRecoveries s.history = sent.map Prod.fst ∧
        (sent.map Prod.snd).Nodup ∧
        ∀ o ∈ sent, o.2.ended ≤ o.1.1 ∧ Recovers s.history o.1.2 o.2 := by
  refine exists_some_imp (P := fun s => sentRecoveries s.history =
    [(4, ⟨"服务中的 edge 节点太少", "", 90000⟩), (4, ⟨"edge 与 tinyuma 断开", "a", 90000⟩)])
    (by decide +kernel) fun s hs hsent => ?_
  obtain ⟨hregular, hpaired⟩ := alerts_paired_and_throttled testRules none (by decide)
    (fun rule => by cases rule <;> decide) _ s hs
  simp_all

theorem throttled_by_wrapped_products :
    (∃ s, run (AlertLoop.step none) (.start { testRules with repeatAfterMin := 307445734561826 })
        [testRound 0 false true, testRound 60000 false true, testRound 75000 false true] = some s ∧
      ¬ Every (Regular { testRules with repeatAfterMin := 307445734561826 } .edgeUpstreamDown "a")
        s.history) ∧
    ∃ s, run (AlertLoop.step none)
        (.start { testRules with edgeUpstreamDownS := 18446744073709552 })
        [testRound 0 false true, testRound 1000 false true] = some s ∧
      ¬ Every (Regular { testRules with edgeUpstreamDownS := 18446744073709552 }
        .edgeUpstreamDown "a") s.history := by
  constructor
  · refine exists_some_imp (P := fun s => (s.history[2]?.map fun t =>
        (t.now, t.message.map Notification.keys)) =
          some (75000, some ["cluster_serving_low:", "edge_upstream_down:a"]) ∧
      ((episode .edgeUpstreamDown "a" (s.history.take 2)).map fun x =>
        (x.now, decide (x.Sent .edgeUpstreamDown "a"))) = [(60000, true)]) (by decide +kernel) ?_
    rintro s - ⟨hlast, hepisode⟩ hevery
    obtain ⟨t, ht, hlast⟩ := Option.map_eq_some_iff.mp hlast
    obtain ⟨hnow, hmessage⟩ := Prod.mk.inj hlast
    obtain ⟨n, hn, hkeys⟩ := Option.map_eq_some_iff.mp hmessage
    obtain ⟨x, hx, hsent⟩ := List.mem_map.mp (hepisode ▸ List.mem_singleton_self (60000, true))
    obtain ⟨hthen, hsent⟩ := Prod.mk.inj hsent
    have hkey : conditionKey .edgeUpstreamDown "a" ∈ n.keys := by
      rw [hkeys]
      decide
    have hlong := ((hevery 2 t ht).throttled n hn hkey).2 x hx (of_decide_eq_true hsent)
    rw [hthen, hnow] at hlong
    exact absurd hlong (by decide)
  · refine exists_some_imp (P := fun s => (s.history[1]?.map fun t =>
        (t.now, t.firing .edgeUpstreamDown "a")) = some (1000, true) ∧
      ((episode .edgeUpstreamDown "a" (s.history.take 1)).map fun x => x.now) = [])
      (by decide +kernel) ?_
    rintro s - ⟨hlast, hepisode⟩ hevery
    obtain ⟨t, ht, hlast⟩ := Option.map_eq_some_iff.mp hlast
    obtain ⟨hnow, hfiring⟩ := Prod.mk.inj hlast
    obtain ⟨-, -, x, -, -, ⟨hlong, -⟩, -⟩ :=
      (hevery 1 t ht).held hfiring (List.map_eq_nil_iff.mp hepisode)
    have hhold : AlertRules.holdS { testRules with edgeUpstreamDownS := 18446744073709552 }
        .edgeUpstreamDown = 18446744073709552 := rfl
    omega

end RustUma.Console
