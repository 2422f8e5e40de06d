import Mathlib.Data.Prod.Lex
import RustUma.Console.Alerts

/-!
# Alert messages (`src/console/alerts.rs` `Engine::pending_message`, `mark_sent`, `run_alerts`)

After every round the console puts what has begun to fire, what is due for a reminder and what has
recovered into one message. If the push succeeds, the message is marked as sent; if not, the next
round puts it together again.
-/

namespace RustUma.Console

open RustUma.Found

/-! ## Messages -/

def Severity.label : Severity → String
  | .critical => "🔴 严重"
  | .warning => "🟠 警告"

def Severity.rank : Severity → ℕ
  | .critical => 0
  | .warning => 1

lemma Severity.rank_injective : Function.Injective Severity.rank := by
  intro a b h
  cases a <;> cases b <;> first | rfl | cases h

instance : LinearOrder Severity := LinearOrder.lift' Severity.rank Severity.rank_injective

def countGroups (items : List (String × Condition)) : ℕ :=
  (items.map fun item => (item.2.severity, item.2.rule)).dedup.length

def groupsOf (items : List (String × Condition)) : Table (Severity ×ₗ String) (List Condition) :=
  items.foldl (fun groups item =>
    let group := toLex (item.2.severity, item.2.rule.name)
    groups.put group ((groups.get? group).getD [] ++ [item.2])) .empty

def conditionLine (now : ℕ) (c : Condition) : String :=
  let lasted := fmtDuration (now - c.pendingSince)
  if c.subject = "" then "\n    " ++ c.detail ++ "（已持续 " ++ lasted ++ "）"
  else "\n    " ++ c.subject ++ "：" ++ c.detail ++ "（已持续 " ++ lasted ++ "）"

def appendSection (text name : String) (items : List (String × Condition)) (now : ℕ) : String :=
  if items = [] then text
  else (groupsOf items).rows.foldl (fun text group =>
    text ++ "\n" ++ (ofLex group.1).1.label ++ "｜" ++
      ((group.2.head?.map Condition.title).getD "") ++
      String.join (group.2.map (conditionLine now)))
    (text ++ "\n\n—— " ++ name ++ " ——")

def resolvedLine (resolved : Resolved) : String :=
  "\n✅ " ++ resolved.title ++ (if resolved.subject = "" then "" else "：" ++ resolved.subject) ++
    "（持续 " ++ fmtDuration resolved.lastedMs ++ "）"

structure Notification where
  text : String
  keys : List String
  resolved : ℕ
  deriving DecidableEq

namespace Engine

def repeatMs (e : Engine) : ℕ := wrap (max e.rules.repeatAfterMin 1 * minuteMs)

def fresh (e : Engine) : List (String × Condition) :=
  e.conditions.rows.filter fun row => row.2.firing && row.2.notifiedMs.isNone

def due (e : Engine) (now : ℕ) : List (String × Condition) :=
  e.conditions.rows.filter fun row =>
    row.2.firing && row.2.notifiedMs.any fun at_ => e.repeatMs ≤ now - at_

def messageText (e : Engine) (now : ℕ) (panelUrl : Option String) : String :=
  let head := "【uma 告警】新触发 " ++ toString (countGroups e.fresh) ++ " · 仍未恢复 " ++
    toString (countGroups (e.due now)) ++ " · 已恢复 " ++ toString e.resolved.length
  let sections := appendSection (appendSection head "新触发" e.fresh now) "仍未恢复（到期提醒）" (e.due now) now
  sections ++
    (if e.resolved = [] then ""
      else "\n\n—— 已恢复 ——" ++ String.join (e.resolved.map resolvedLine)) ++
    (match panelUrl with
      | some url => "\n\n面板：" ++ url
      | none => "")

def pendingMessage (e : Engine) (now : ℕ) (panelUrl : Option String) : Option Notification :=
  if e.fresh = [] ∧ e.due now = [] ∧ e.resolved = [] then none
  else some
    { text := e.messageText now panelUrl
      keys := (e.fresh ++ e.due now).map Prod.fst
      resolved := e.resolved.length }

end Engine

/-! ## The loop -/

structure Turn extends Round where
  conditions : Table String Condition
  recoveries : List Resolved
  message : Option Notification
  sent : Bool

structure AlertLoop where
  engine : Engine
  clock : ℕ
  history : List Turn

structure LoopRound where
  now : ℕ
  input : Inputs
  blocked : Bool
  delivered : Bool

namespace AlertLoop

def start (rules : AlertRules) : AlertLoop := ⟨.new rules, 0, []⟩

def offer (panelUrl : Option String) (e : Engine) (a : LoopRound) : Option Notification :=
  if a.blocked then none else (e.observe a.now a.input).pendingMessage a.now panelUrl

def turn (panelUrl : Option String) (e : Engine) (a : LoopRound) : Turn where
  now := a.now
  input := a.input
  findings := e.findings a.now a.input
  conditions := (e.observe a.now a.input).conditions
  recoveries := (e.observe a.now a.input).resolved
  message := offer panelUrl e a
  sent := (offer panelUrl e a).isSome && a.delivered

def settle (e : Engine) (t : Turn) : Engine :=
  match t.message with
  | some n => if t.sent then e.markSent n.keys n.resolved t.now else e
  | none => e

def step (panelUrl : Option String) (s : AlertLoop) (a : LoopRound) : Option AlertLoop :=
  if a.now < s.clock then none
  else some
    { engine := settle (s.engine.observe a.now a.input) (turn panelUrl s.engine a)
      clock := a.now
      history := s.history ++ [turn panelUrl s.engine a] }

end AlertLoop

/-! ## Keys -/

def Rule.all : List Rule :=
  [.tinyumaUnreachable, .rpcDisconnected, .rpcSourcesDegraded, .rpcReconnects, .upstreamSilent,
    .enrichmentRecentLow, .enrichmentMisses, .decodeErrors, .slowClients, .cursorRejected,
    .storageDropped, .catalogSmall, .edgeStale, .edgeUpstreamDown, .edgeSequenceLag, .edgeLinkLag,
    .edgeChurn, .edgeSlowClients, .edgeBadFrames, .edgeNearFull, .clusterServingLow, .panelFeedDown]

lemma Rule.find?_name (rule : Rule) : Rule.all.find? (fun r => r.name = rule.name) = some rule := by
  cases rule <;> decide +kernel

lemma Rule.name_injective : Function.Injective Rule.name := by
  intro a b h
  have hfind := a.find?_name
  rw [h, b.find?_name] at hfind
  simp_all

lemma Rule.colon_not_mem_name (rule : Rule) : ':' ∉ rule.name.toList := by
  cases rule <;> decide +kernel

lemma takeWhile_ne_append {α : Type*} [DecidableEq α] {mark : α} {word : List α}
    (h : mark ∉ word) (rest : List α) :
    (word ++ mark :: rest).takeWhile (fun x => decide (x ≠ mark)) = word := by
  have hword : ∀ x ∈ word, decide (x ≠ mark) = true :=
    fun x hx => decide_eq_true fun heq => h (heq ▸ hx)
  simp_all

lemma conditionKey_injective {rule rule' : Rule} {subject subject' : String}
    (h : conditionKey rule subject = conditionKey rule' subject') :
    rule = rule' ∧ subject = subject' := by
  have htext : rule.name.toList ++ ':' :: subject.toList =
      rule'.name.toList ++ ':' :: subject'.toList := by
    have hlist := congrArg String.toList h
    simpa [conditionKey] using hlist
  have hname : rule.name.toList = rule'.name.toList := by
    rw [← takeWhile_ne_append rule.colon_not_mem_name subject.toList, htext,
      takeWhile_ne_append rule'.colon_not_mem_name]
  grind [List.append_cancel_left_eq, Rule.name_injective, String.toList_inj]

/-! ## One round of the engine -/

section Conditions

variable {now : ℕ} {conditions : Table String Condition} {findings : List Finding} {f : Finding}
  {key : String} {base base' c : Condition}

structure Condition.Grown (now : ℕ) (findings : List Finding) (key : String)
    (base c : Condition) : Prop where
  rule : c.rule = base.rule
  title : c.title = base.title
  subject : c.subject = base.subject
  pendingSince : c.pendingSince = base.pendingSince
  notifiedMs : c.notifiedMs = base.notifiedMs
  firing : c.firing = true ↔ base.firing = true ∨
    ∃ f ∈ findings, f.key = key ∧ f.holdMs ≤ now - base.pendingSince

lemma Condition.Grown.of_ne (h : base.Grown now findings key c) (hkey : f.key ≠ key) :
    base.Grown now (f :: findings) key c := by
  refine { h with firing := ?_ }
  rw [h.firing]
  simp_all

lemma Condition.Grown.of_enter
    (h : Condition.Grown now findings f.key { base with
      detail := f.detail
      absentSince := none
      firing := base.firing || decide (f.holdMs ≤ now - base.pendingSince) } c) :
    base.Grown now (f :: findings) f.key c := by
  refine { h with firing := ?_ }
  rw [h.firing]
  grind

lemma get?_enter_self (h : (conditions.get? f.key).getD (.new f now) = base) :
    (enter now conditions f).get? f.key = some { base with
      detail := f.detail
      absentSince := none
      firing := base.firing || decide (f.holdMs ≤ now - base.pendingSince) } := by
  subst h
  exact Table.get?_put_self conditions f.key _

lemma get?_foldl_enter_of_some (now : ℕ) (findings : List Finding)
    (h : conditions.get? key = some base) :
    ∃ c, (findings.foldl (enter now) conditions).get? key = some c ∧
      base.Grown now findings key c := by
  induction findings generalizing conditions base with
  | nil =>
    refine ⟨base, h, rfl, rfl, rfl, rfl, rfl, ?_⟩
    simp
  | cons f findings ih =>
    by_cases hkey : f.key = key
    · subst hkey
      obtain ⟨c, hc, hgrown⟩ := ih (get?_enter_self (by rw [h]))
      exact ⟨c, hc, hgrown.of_enter⟩
    · obtain ⟨c, hc, hgrown⟩ := ih ((get?_enter_of_ne (Ne.symm hkey)).trans h)
      exact ⟨c, hc, hgrown.of_ne hkey⟩

lemma get?_foldl_enter_of_none (now : ℕ) (h : conditions.get? key = none)
    (hpresent : key ∈ findings.map Finding.key) :
    ∃ f ∈ findings, f.key = key ∧ ∃ c, (findings.foldl (enter now) conditions).get? key = some c ∧
      (Condition.new f now).Grown now findings key c := by
  induction findings generalizing conditions with
  | nil => cases hpresent
  | cons f findings ih =>
    by_cases hkey : f.key = key
    · subst hkey
      obtain ⟨c, hc, hgrown⟩ := get?_foldl_enter_of_some now findings
        (get?_enter_self (by rw [h]))
      exact ⟨f, List.mem_cons_self, rfl, c, hc, hgrown.of_enter⟩
    · rw [List.map_cons, List.mem_cons, or_iff_right (Ne.symm hkey)] at hpresent
      obtain ⟨g, hg, hgkey, c, hc, hgrown⟩ :=
        ih ((get?_enter_of_ne (Ne.symm hkey)).trans h) hpresent
      exact ⟨g, List.mem_cons_of_mem _ hg, hgkey, c, hc, hgrown.of_ne hkey⟩

end Conditions

inductive Engine.Passed (e : Engine) (now : ℕ) (input : Inputs) (key : String) :
    Option Condition → Option Condition → Prop
  | entered {c : Condition} (f : Finding) (hf : f ∈ e.findings now input) (hkey : f.key = key)
      (hgrown : (Condition.new f now).Grown now (e.findings now input) key c) :
      Passed e now input key none (some c)
  | again {base c : Condition} (f : Finding) (hf : f ∈ e.findings now input) (hkey : f.key = key)
      (hgrown : base.Grown now (e.findings now input) key c) :
      Passed e now input key (some base) (some c)
  | unknown : Passed e now input key none none
  | skipped {c : Condition} (hrule : c.rule ∉ evaluatedRules input) :
      Passed e now input key (some c) (some c)
  | waiting {c : Condition} {since : ℕ} (hfiring : c.firing = true) :
      Passed e now input key (some c) (some { c with absentSince := some since })
  | removed {c : Condition} : Passed e now input key (some c) none

lemma Engine.observe_passed (e : Engine) (now : ℕ) (input : Inputs) (key : String) :
    e.Passed now input key (e.conditions.get? key) ((e.observe now input).conditions.get? key) := by
  by_cases hpresent : key ∈ (e.findings now input).map Finding.key
  · have hobserved :
        (e.observe now input).conditions.get? key = (e.entered now input).get? key := by
      simp_all [Engine.observe, Table.get?_filterMap, kept_of_present]
    obtain ⟨f, hf, hkey⟩ := List.mem_map.mp hpresent
    rw [hobserved]
    cases hbefore : e.conditions.get? key with
    | none =>
      obtain ⟨g, hg, hgkey, c, hc, hgrown⟩ := get?_foldl_enter_of_none now hbefore hpresent
      rw [show (e.entered now input).get? key = some c from hc]
      exact .entered g hg hgkey hgrown
    | some base =>
      obtain ⟨c, hc, hgrown⟩ :=
        get?_foldl_enter_of_some now (e.findings now input) hbefore
      rw [show (e.entered now input).get? key = some c from hc]
      exact .again f hf hkey hgrown
  · have hswept := e.observe_swept now input key
    generalize e.conditions.get? key = before at hswept ⊢
    generalize (e.observe now input).conditions.get? key = after at hswept ⊢
    cases hswept with
    | found hfound => simp_all
    | unknown => exact .unknown
    | skipped _ hrule => exact .skipped hrule
    | waiting _ _ hfiring => exact .waiting hfiring
    | removed => exact .removed

end RustUma.Console
