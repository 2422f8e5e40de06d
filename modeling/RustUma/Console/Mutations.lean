import RustUma.Console.Registry
import RustUma.Console.Tokens

/-!
# Operations that save (`src/console/tokens.rs`, `src/console/registry.rs`)

Every operation of the administrator edits the state under the lock and then saves it. A save that
fails is reported, and the edit is not taken back.
-/

namespace RustUma.Console

open RustUma.Found

/-! ## The operations -/

structure TokenTable where
  file : JsonFile TokensFile
  inner : TokensFile

namespace TokenTable

def mutate (t : TokenTable) (m : Mutation) (fails : Option SaveStep) :
    TokenTable × Except SaveStep Bool :=
  match m.apply t.inner.tokens with
  | none => (t, .ok false)
  | some tokens =>
    let inner := ⟨t.inner.version + 1, tokens⟩
    let (file, saved) := saveJson t.file inner fails
    (⟨file, inner⟩, saved.map fun _ => true)

def create (t : TokenTable) (id secret name : String) (now : ℕ) (fails : Option SaveStep) :
    TokenTable × Except SaveStep Token :=
  let (t, reply) := t.mutate (.create id secret name now) fails
  (t, reply.map fun _ => ⟨id, secret, name, true, now, now⟩)

end TokenTable

structure ConsoleState where
  tokens : TokenTable
  registry : Registry

inductive ConsoleOp
  | create (id secret name : String) (now : ℕ)
  | setEnabled (id : String) (enabled : Bool) (now : ℕ)
  | rename (id name : String) (now : ℕ)
  | delete (id : String)
  | setDisabled (id : String) (disabled : Bool)
  | setRelay (id : String) (relay : Bool)
  | setNote (id note : String)
  | forget (id : String)
  | setAutoBalance (enabled : Bool)
  deriving DecidableEq

inductive OpReply
  | created (token : Token)
  | known (known : Bool)
  | done
  deriving DecidableEq

namespace ConsoleState

def onTokens {β : Type} (c : ConsoleState) (reply : β → OpReply)
    (result : TokenTable × Except SaveStep β) : ConsoleState × Except SaveStep OpReply :=
  ({ c with tokens := result.1 }, result.2.map reply)

def onRegistry {β : Type} (c : ConsoleState) (reply : β → OpReply)
    (result : Registry × Except SaveStep β) : ConsoleState × Except SaveStep OpReply :=
  ({ c with registry := result.1 }, result.2.map reply)

def perform (c : ConsoleState) (op : ConsoleOp) (fails : Option SaveStep) :
    ConsoleState × Except SaveStep OpReply :=
  match op with
  | .create id secret name now =>
    c.onTokens .created (c.tokens.create id secret name now fails)
  | .setEnabled id enabled now =>
    c.onTokens .known (c.tokens.mutate (.setEnabled id enabled now) fails)
  | .rename id name now => c.onTokens .known (c.tokens.mutate (.rename id name now) fails)
  | .delete id => c.onTokens .known (c.tokens.mutate (.delete id) fails)
  | .setDisabled id disabled => c.onRegistry .known (c.registry.setDisabled id disabled fails)
  | .setRelay id relay => c.onRegistry .known (c.registry.setRelay id relay fails)
  | .setNote id note => c.onRegistry .known (c.registry.setNote id note fails)
  | .forget id => c.onRegistry .known (c.registry.forget id fails)
  | .setAutoBalance enabled =>
    c.onRegistry (fun _ => .done) (c.registry.setAutoBalance enabled fails)

def memory (c : ConsoleState) : TokensFile × Inner := (c.tokens.inner, c.registry.inner)

def files (c : ConsoleState) : Option TokensFile × Option NodesFile :=
  (c.tokens.file.content, c.registry.file.content)

end ConsoleState

def Inner.Kept (inner : Inner) (id : String) (f : NodeAdmin → NodeAdmin) : Prop :=
  inner.known id = false ∨ ∃ admin, inner.admin.get? id = some admin ∧ f admin = admin

def Mutation.Idle (tokens : List Token) : Mutation → Prop
  | .create _ _ _ _ => False
  | .setEnabled id _ _ => ∀ token ∈ tokens, token.id ≠ id
  | .rename id _ _ => ∀ token ∈ tokens, token.id ≠ id
  | .delete id => ∀ token ∈ tokens, token.id ≠ id

def ConsoleOp.Keeps (c : ConsoleState) : ConsoleOp → Prop
  | .create id secret name now => (Mutation.create id secret name now).Idle c.tokens.inner.tokens
  | .setEnabled id enabled now => (Mutation.setEnabled id enabled now).Idle c.tokens.inner.tokens
  | .rename id name now => (Mutation.rename id name now).Idle c.tokens.inner.tokens
  | .delete id => (Mutation.delete id).Idle c.tokens.inner.tokens
  | .setDisabled id disabled => c.registry.inner.Kept id (.withDisabled disabled)
  | .setRelay id relay => c.registry.inner.Kept id (.withRelay relay)
  | .setNote id note => c.registry.inner.Kept id (.withNote note)
  | .forget id => c.registry.inner.known id = false
  | .setAutoBalance enabled => c.registry.inner.settings.autoBalance = enabled

/-! ## Tokens -/

variable {id : String} {fails : Option SaveStep} {step : SaveStep} {r : Registry}

lemma modifyFirst_eq_none_iff {f : Token → Token} {tokens : List Token} :
    modifyFirst id f tokens = none ↔ ∀ token ∈ tokens, token.id ≠ id := by
  induction tokens with
  | nil => simp [modifyFirst]
  | cons token tokens ih =>
    unfold modifyFirst
    split_ifs with hid
    · simp [hid]
    · simp [hid, ih]

lemma Mutation.apply_eq_none_iff {tokens : List Token} {m : Mutation} :
    m.apply tokens = none ↔ m.Idle tokens := by
  cases m with
  | create newId secret name now => exact iff_of_false (Option.some_ne_none _) not_false
  | setEnabled id enabled now => exact modifyFirst_eq_none_iff
  | rename id name now => exact modifyFirst_eq_none_iff
  | delete id =>
    simp only [Mutation.apply, Mutation.Idle, ite_eq_right_iff, reduceCtorEq, imp_false,
      not_not, List.length_filter_eq_length_iff, decide_eq_true_eq]

lemma TokenTable.mutate_error {t : TokenTable} {m : Mutation}
    (h : (t.mutate m fails).2 = .error step) :
    (t.mutate m fails).1.file.content = t.file.content ∧
      ((t.mutate m fails).1.inner = t.inner ↔ m.Idle t.inner.tokens) := by
  rw [← Mutation.apply_eq_none_iff]
  unfold TokenTable.mutate at h ⊢
  cases happly : m.apply t.inner.tokens with
  | none =>
    simp
  | some tokens =>
    rw [happly] at h
    cases fails with
    | none => cases h
    | some step' =>
      refine ⟨(saveJson_error _ _ step').1, iff_of_false (fun hinner => ?_) (by simp)⟩
      grind

/-! ## Nodes -/

lemma Registry.persist_error {β : Type} {inner : Inner} {value : β}
    (h : (r.persist inner fails value).2 = .error step) :
    (r.persist inner fails value).1.file.content = r.file.content := by
  cases fails with
  | none => cases h
  | some step' => exact (saveJson_error _ _ step').1

lemma Registry.mutateAdmin_error {f : NodeAdmin → NodeAdmin}
    (h : (r.mutateAdmin id f fails).2 = .error step) :
    (r.mutateAdmin id f fails).1.file.content = r.file.content ∧
      ((r.mutateAdmin id f fails).1.inner = r.inner ↔ r.inner.Kept id f) := by
  unfold Registry.mutateAdmin at h ⊢
  cases hknown : r.inner.known id with
  | false =>
    simp_all
  | true =>
    rw [hknown] at h
    refine ⟨persist_error h, ?_⟩
    show { r.inner with admin := r.inner.admin.put id (f (r.inner.adminOf id)) } = r.inner ↔ _
    unfold Inner.Kept
    rw [hknown]
    constructor
    · intro hinner
      have hadmin : r.inner.admin.put id (f (r.inner.adminOf id)) = r.inner.admin :=
        congrArg Inner.admin hinner
      have hget := r.inner.admin.get?_put_self id (f (r.inner.adminOf id))
      rw [hadmin] at hget
      have hentry := Inner.adminOf_of_get? hget
      grind
    simp_all [Inner.adminOf_of_get?, Table.put_eq_self]

lemma Registry.forget_error (h : (r.forget id fails).2 = .error step) :
    (r.forget id fails).1.file.content = r.file.content ∧
      ((r.forget id fails).1.inner = r.inner ↔ r.inner.known id = false) := by
  unfold Registry.forget at h ⊢
  cases hknown : r.inner.known id with
  | false =>
    simp
  | true =>
    rw [hknown] at h
    refine ⟨persist_error h, iff_of_false (fun hinner => ?_) Bool.true_eq_false.mp⟩
    have hnodes : (r.inner.nodes.erase id).get? id = r.inner.nodes.get? id :=
      congrArg (fun inner : Inner => inner.nodes.get? id) hinner
    have hadmin : (r.inner.admin.erase id).get? id = r.inner.admin.get? id :=
      congrArg (fun inner : Inner => inner.admin.get? id) hinner
    grind [Table.get?_erase_self, Inner.known]

lemma Registry.setAutoBalance_error {enabled : Bool}
    (h : (r.setAutoBalance enabled fails).2 = .error step) :
    (r.setAutoBalance enabled fails).1.file.content = r.file.content ∧
      ((r.setAutoBalance enabled fails).1.inner = r.inner ↔
        r.inner.settings.autoBalance = enabled) := by
  refine ⟨persist_error h, ?_⟩
  constructor
  · intro hinner
    exact (congrArg (fun inner : Inner => inner.settings.autoBalance) hinner).symm
  · rintro rfl
    rfl

/-! ## The console -/

lemma exceptMap_eq_error {ε α β : Type*} {x : Except ε α} {f : α → β} {e : ε}
    (h : x.map f = .error e) : x = .error e := by
  cases x with
  | error e' =>
    cases h
    rfl
  | ok a => cases h

namespace ConsoleState

variable {c : ConsoleState} {β : Type} {reply : β → OpReply}

lemma onTokens_same {result : TokenTable × Except SaveStep β} {p : Prop}
    (h : result.1.file.content = c.tokens.file.content ∧ (result.1.inner = c.tokens.inner ↔ p)) :
    (c.onTokens reply result).1.files = c.files ∧
      ((c.onTokens reply result).1.memory = c.memory ↔ p) := by
  obtain ⟨hfile, hinner⟩ := h
  refine ⟨Prod.ext hfile rfl, ?_⟩
  show (result.1.inner, c.registry.inner) = (c.tokens.inner, c.registry.inner) ↔ p
  simp_all

lemma onRegistry_same {result : Registry × Except SaveStep β} {p : Prop}
    (h : result.1.file.content = c.registry.file.content ∧
      (result.1.inner = c.registry.inner ↔ p)) :
    (c.onRegistry reply result).1.files = c.files ∧
      ((c.onRegistry reply result).1.memory = c.memory ↔ p) := by
  obtain ⟨hfile, hinner⟩ := h
  refine ⟨Prod.ext rfl hfile, ?_⟩
  show (c.tokens.inner, result.1.inner) = (c.tokens.inner, c.registry.inner) ↔ p
  simp_all

end ConsoleState

/-- **An operation that reports a failure.** The two files are as before, whichever step of the save
failed. The state in memory is as before if and only if the operation found it as it would have made
it. -/
theorem failed_operation_changes_nothing (c : ConsoleState) (op : ConsoleOp)
    (fails : Option SaveStep) {step : SaveStep} (herr : (c.perform op fails).2 = .error step) :
    (c.perform op fails).1.files = c.files ∧
      ((c.perform op fails).1.memory = c.memory ↔ op.Keeps c) := by
  cases op with
  | create id secret name now =>
    have htable : (c.tokens.mutate (.create id secret name now) fails).2 = .error step :=
      exceptMap_eq_error (exceptMap_eq_error herr)
    exact ConsoleState.onTokens_same (TokenTable.mutate_error htable)
  | setEnabled id enabled now | rename id name now | delete id =>
    exact ConsoleState.onTokens_same (TokenTable.mutate_error (exceptMap_eq_error herr))
  | setDisabled id disabled | setRelay id relay | setNote id note =>
    exact ConsoleState.onRegistry_same (Registry.mutateAdmin_error (exceptMap_eq_error herr))
  | forget id =>
    exact ConsoleState.onRegistry_same (Registry.forget_error (exceptMap_eq_error herr))
  | setAutoBalance enabled =>
    exact ConsoleState.onRegistry_same (Registry.setAutoBalance_error (exceptMap_eq_error herr))

def testConsole : ConsoleState :=
  let tokens : TokensFile := ⟨1, [⟨"0000000a", "s", "alpha", true, 1, 1⟩]⟩
  let nodes : NodesFile := ⟨.ofList [("edge", { disabled := true })], {}⟩
  ⟨⟨⟨some tokens, .absent⟩, tokens⟩, .open ⟨some nodes, .absent⟩⟩

/-- The node is disabled once more, and the temporary file cannot be renamed. -/
theorem failed_disable_of_disabled_node :
    (testConsole.perform (.setDisabled "edge" true) (some .rename)).2 = .error .rename ∧
      (testConsole.perform (.setDisabled "edge" true) (some .rename)).1.files =
        testConsole.files ∧
      (testConsole.perform (.setDisabled "edge" true) (some .rename)).1.memory =
        testConsole.memory := by
  have herr : (testConsole.perform (.setDisabled "edge" true) (some .rename)).2 =
      .error .rename := rfl
  obtain ⟨hfiles, hmemory⟩ := failed_operation_changes_nothing testConsole _ _ herr
  exact ⟨herr, hfiles, hmemory.mpr (Or.inr ⟨{ disabled := true }, rfl, rfl⟩)⟩

theorem failed_disable_takes_effect :
    let c := (testConsole.perform (.setEnabled "0000000a" false 2) (some .rename)).1
    (testConsole.perform (.setEnabled "0000000a" false 2) (some .rename)).2 = .error .rename ∧
      testConsole.tokens.inner.grants = [⟨"0000000a", "s"⟩] ∧ testConsole.tokens.inner.version = 1 ∧
      c.tokens.inner.grants = [] ∧ c.tokens.inner.version = 2 ∧
      c.tokens.file.content = testConsole.tokens.file.content := by
  decide +kernel

end RustUma.Console
