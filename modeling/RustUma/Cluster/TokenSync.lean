import RustUma.Edge.Auth
import RustUma.Found.Run

/-!
# Console and edge agree on the tokens (`src/console/server.rs` `heartbeat`,
`src/edge/heartbeat.rs`)

An edge reports the version of the set it has; the console sends the set only if that is not its own
version. Versions are counted by the console in memory and saved with the table.
-/

namespace RustUma.Cluster

open RustUma.Found RustUma.Console RustUma.Edge

structure TokenAnswer where
  tokensVersion : ℕ
  tokens : Option (List TokenGrant)
  asked : TokensFile
  deriving DecidableEq

def answer (inner : TokensFile) (edgeTokensVersion : ℕ) : TokenAnswer :=
  ⟨inner.version, if edgeTokensVersion ≠ inner.version then some inner.grants else none, inner⟩

def applyTokens (set : TokenSet) (directive : TokenAnswer) : TokenSet :=
  match directive.tokens with
  | some grants => (set.replace directive.tokensVersion grants).1
  | none => set

structure TokenSync where
  store : TokenStore
  edge : TokenSet
  response : Option TokenAnswer
  answered : Option TokensFile
  log : List TokensFile

inductive SyncAction
  | mutate (m : Mutation) (saved : Bool)
  | restartConsole
  | restartEdge
  | request
  | respond
  | lose
  deriving DecidableEq

namespace TokenSync

def start (statics : List String) : TokenSync where
  store := .open none
  edge := .new statics
  response := none
  answered := none
  log := [.default]

def mutated (s : TokenSync) (m : Mutation) (saved : Bool) : TokenSync :=
  { s with
    store := s.store.mutate m saved
    log := if (m.apply s.store.inner.tokens).isSome then s.log ++ [(s.store.mutate m saved).inner]
      else s.log }

def restarted (s : TokenSync) : TokenSync :=
  { s with
    store := s.store.restart
    log := s.log.take (s.store.restart.inner.version + 1) }

def step (s : TokenSync) : SyncAction → Option TokenSync
  | .mutate m saved => if m.Drawn then some (s.mutated m saved) else none
  | .restartConsole => some s.restarted
  | .restartEdge =>
    some { s with edge := .new s.edge.statics, response := none, answered := none }
  | .request =>
    match s.response with
    | none => some { s with response := some (answer s.store.inner s.edge.version) }
    | some _ => none
  | .respond =>
    match s.response with
    | some directive =>
      some { s with
        edge := applyTokens s.edge directive
        response := none
        answered := some directive.asked }
    | none => none
  | .lose => some { s with response := none }

def Steady (s : TokenSync) : SyncAction → Prop
  | .mutate m _ => m.Fresh s.store.inner.tokens
  | .restartConsole =>
    s.edge.version ≤ s.store.restart.inner.version ∧
      ∀ directive ∈ s.response, directive.tokensVersion ≤ s.store.restart.inner.version
  | .request =>
    s.store.inner.version ≠ 0 ∨ s.edge.receivedFromConsole = true ∨
      ∀ secret ∈ s.edge.statics, secret = ""
  | _ => True

instance (s : TokenSync) (a : SyncAction) : Decidable (s.Steady a) := by
  cases a <;> unfold Steady <;> infer_instance

/-! ## Versions name tables -/

structure Holds (set : TokenSet) (file : TokensFile) : Prop where
  console : set.console = collect file.grants
  statics : set.receivedFromConsole = true ∨ ∀ secret ∈ set.statics, secret = ""

structure InLine (s : TokenSync) : Prop where
  length : s.log.length = s.store.inner.version + 1
  current : s.log[s.store.inner.version]? = some s.store.inner
  saved : s.log[s.store.restart.inner.version]? = some s.store.restart.inner
  first : s.log[0]? = some .default
  sound : ∀ file ∈ s.log, file.Sound
  edge : ∃ file, s.log[s.edge.version]? = some file ∧ s.edge.console = collect file.grants
  received : s.edge.version ≠ 0 → s.edge.receivedFromConsole = true
  response : ∀ directive ∈ s.response, s.log[directive.tokensVersion]? = some directive.asked ∧
    (directive.tokens = some directive.asked.grants ∨
      directive.tokens = none ∧ Holds s.edge directive.asked)
  answered : ∀ file ∈ s.answered, file.Sound ∧ Holds s.edge file

namespace InLine

variable {s : TokenSync}

lemma mutate (h : s.InLine) {m : Mutation} (saved : Bool) (hdrawn : m.Drawn)
    (hfresh : m.Fresh s.store.inner.tokens) : (s.mutated m saved).InLine := by
  unfold mutated TokenStore.mutate
  cases happly : m.apply s.store.inner.tokens with
  | none => simp_all
  | some tokens =>
    have hsound : TokensFile.Sound ⟨s.store.inner.version + 1, tokens⟩ :=
      (h.sound _ (List.mem_of_getElem? h.current)).apply hdrawn hfresh happly
    have hkeep : ∀ {version : ℕ} {file : TokensFile}, s.log[version]? = some file →
        (s.log ++ [⟨s.store.inner.version + 1, tokens⟩])[version]? = some file := by
      grind
    have hlast : (s.log ++ [(⟨s.store.inner.version + 1, tokens⟩ : TokensFile)])[
        s.store.inner.version + 1]? = some ⟨s.store.inner.version + 1, tokens⟩ := by
      rw [← h.length]
      simp
    refine ⟨?_, hlast, ?_, hkeep h.first, fun file hfile => ?_, ?_, h.received, ?_, h.answered⟩
    · grind [length]
    · cases saved with
      | true => exact hlast
      | false => exact hkeep h.saved
    · rcases List.mem_append.mp hfile with hfile | hfile
      · exact h.sound file hfile
      simp_all
    · obtain ⟨file, hfile, hconsole⟩ := h.edge
      simp_all
    · intro directive hdirective
      obtain ⟨hasked, htokens⟩ := h.response directive hdirective
      simp_all

lemma restart (h : s.InLine) (hsteady : s.Steady .restartConsole) : s.restarted.InLine := by
  obtain ⟨hedge, hresponse⟩ := hsteady
  have hkeep : ∀ {version : ℕ} {file : TokensFile}, version ≤ s.store.restart.inner.version →
      s.log[version]? = some file →
        (s.log.take (s.store.restart.inner.version + 1))[version]? = some file := by
    grind
  have hbound := (List.getElem?_eq_some_iff.mp h.saved).1
  refine ⟨?_, hkeep le_rfl h.saved, hkeep le_rfl h.saved, hkeep (Nat.zero_le _) h.first,
    fun file hfile => h.sound file (List.mem_of_mem_take hfile), ?_, h.received, ?_, h.answered⟩
  · show (s.log.take _).length = _
    rw [List.length_take, Nat.min_eq_left hbound]
    rfl
  · obtain ⟨file, hfile, hconsole⟩ := h.edge
    exact ⟨file, hkeep hedge hfile, hconsole⟩
  · intro directive hdirective
    obtain ⟨hasked, htokens⟩ := h.response directive hdirective
    exact ⟨hkeep (hresponse directive hdirective) hasked, htokens⟩

lemma request (h : s.InLine) (hsteady : s.Steady .request) :
    InLine { s with response := some (answer s.store.inner s.edge.version) } := by
  refine ⟨h.length, h.current, h.saved, h.first, h.sound, h.edge, h.received, ?_, h.answered⟩
  rintro directive ⟨⟩
  refine ⟨h.current, ?_⟩
  unfold answer
  split_ifs with hversion
  · exact Or.inl rfl
  · refine Or.inr ⟨rfl, ?_, ?_⟩
    · obtain ⟨file, hfile, hconsole⟩ := h.edge
      rw [not_ne_iff.mp hversion, h.current] at hfile
      simp_all
    · rcases hsteady with hzero | hstatics
      · exact Or.inl (h.received (not_ne_iff.mp hversion ▸ hzero))
      · exact hstatics

lemma respond (h : s.InLine) {directive : TokenAnswer} (hdirective : s.response = some directive) :
    InLine { s with
      edge := applyTokens s.edge directive
      response := none
      answered := some directive.asked } := by
  obtain ⟨hasked, htokens⟩ := h.response directive hdirective
  have hsound := h.sound _ (List.mem_of_getElem? hasked)
  have hnone : ∀ d ∈ (none : Option TokenAnswer), ∀ P : Prop, P := fun d hd => by cases hd
  unfold applyTokens
  rcases htokens with htokens | ⟨htokens, hholds⟩
  · rw [htokens]
    refine ⟨h.length, h.current, h.saved, h.first, h.sound, ⟨_, hasked, rfl⟩, fun _ => rfl,
      fun d hd => hnone d hd _, ?_⟩
    rintro file ⟨⟩
    exact ⟨hsound, rfl, Or.inl rfl⟩
  · rw [htokens]
    refine ⟨h.length, h.current, h.saved, h.first, h.sound, h.edge, h.received,
      fun d hd => hnone d hd _, ?_⟩
    simp_all

lemma step {s' : TokenSync} (h : s.InLine) {a : SyncAction} (hsteady : s.Steady a)
    (hstep : s.step a = some s') : s'.InLine := by
  cases a with
  | mutate m saved =>
    simp only [TokenSync.step, Option.ite_none_right_eq_some, Option.some.injEq] at hstep
    obtain ⟨hdrawn, rfl⟩ := hstep
    exact h.mutate saved hdrawn hsteady
  | restartConsole =>
    cases hstep
    exact h.restart hsteady
  | restartEdge =>
    cases hstep
    refine ⟨h.length, h.current, h.saved, h.first, h.sound, ⟨.default, h.first, rfl⟩, ?_, ?_, ?_⟩
    · exact fun hversion => absurd rfl hversion
    · simp
    simp
  | request =>
    simp only [TokenSync.step] at hstep
    split at hstep
    · cases hstep
      exact h.request hsteady
    · cases hstep
  | respond =>
    simp only [TokenSync.step] at hstep
    split at hstep
    · next directive hdirective =>
      cases hstep
      exact h.respond hdirective
    · cases hstep
  | lose =>
    cases hstep
    refine ⟨h.length, h.current, h.saved, h.first, h.sound, h.edge, h.received, ?_, h.answered⟩
    simp

end InLine

lemma inLine_start (statics : List String) : (start statics).InLine := by
  have hsound : TokensFile.default.Sound := ⟨fun _ htoken => (by cases htoken), List.nodup_nil⟩
  refine ⟨rfl, rfl, rfl, rfl, fun file hfile => ?_, ⟨.default, rfl, rfl⟩,
    fun hversion => absurd rfl hversion, ?_, ?_⟩
  · rw [List.mem_singleton.mp hfile]
    exact hsound
  · exact fun directive hdirective => by cases hdirective
  · exact fun file hfile => by cases hfile

theorem edge_accepts_the_enabled_tokens {statics : List String} {as : List SyncAction}
    {s : TokenSync} (hrun : run step (start statics) as = some s)
    (hsteady : AllSteps step Steady (start statics) as) {file : TokensFile}
    (hanswered : s.answered = some file) :
    (∀ secret id, s.edge.check secret = some id ↔
      ∃ token ∈ file.tokens, token.enabled = true ∧ token.secret = secret ∧ token.id = id) ∧
    ∀ secret, s.edge.check secret ≠ some staticTokenId := by
  have hline : s.InLine :=
    run_invariant (fun _ _ _ h ha hstep => h.step ha hstep) (inLine_start statics) hsteady hrun
  obtain ⟨hsound, hholds⟩ := hline.answered file hanswered
  have hcheck : ∀ secret id, s.edge.check secret = some id ↔
      ∃ token ∈ file.tokens, token.enabled = true ∧ token.secret = secret ∧ token.id = id :=
    fun secret id => check_collect hsound hholds.console hholds.statics
  refine ⟨hcheck, fun secret henv => ?_⟩
  -- no token of the console has the id of the static ones
  obtain ⟨token, htoken, -, -, hid⟩ := (hcheck secret staticTokenId).mp henv
  have hlength := (hsound.drawn token htoken).1
  rw [hid] at hlength
  exact absurd hlength (by decide +kernel)

/-! ## Runs -/

def testSecretA : String := "aaaaaaaaaaaaaaaaaaaaaaaaaaaaaaaaaaaaaaaaaaaaaaaa"

def testSecretB : String := "bbbbbbbbbbbbbbbbbbbbbbbbbbbbbbbbbbbbbbbbbbbbbbbb"

/-- A save fails but the console does not restart before the next one; an edge with a static token
asks, restarts and asks again, and accepts the one enabled token. -/
theorem edge_accepts_enabled_token_after_restart :
    ∃ s, run step (start ["s1"]) [.mutate (.create "0000000a" testSecretA "a" 1) false, .request,
        .mutate (.create "0000000b" testSecretB "b" 2) true, .respond, .restartConsole,
        .mutate (.setEnabled "0000000a" false 3) true, .restartEdge, .request, .respond] = some s ∧
      s.answered = some s.store.inner ∧ s.edge.check testSecretB = some "0000000b" ∧
      s.edge.check testSecretA = none ∧ ∀ secret, s.edge.check secret ≠ some staticTokenId := by
  refine exists_some_imp (P := fun s => s.answered = some s.store.inner ∧
    s.edge.check testSecretB = some "0000000b" ∧ s.edge.check testSecretA = none)
    (by decide +kernel) ?_
  rintro s hrun ⟨hanswered, hb, ha⟩
  exact ⟨hanswered, hb, ha, (edge_accepts_the_enabled_tokens hrun (by decide +kernel) hanswered).2⟩

theorem versions_name_two_tables :
    (∃ s, run step (start []) [.mutate (.create "0000000a" testSecretA "a" 1) false, .request,
        .respond, .restartConsole, .mutate (.create "0000000b" testSecretB "b" 2) true, .request,
        .respond] = some s ∧
      s.answered = some s.store.inner ∧
      s.store.inner.grants = [⟨"0000000b", testSecretB⟩] ∧
      s.edge.check testSecretA = some "0000000a" ∧ s.edge.check testSecretB = none) ∧
    ∃ s, run step (start ["s1"]) [.request, .respond] = some s ∧
      s.answered = some s.store.inner ∧ s.store.inner.grants = [] ∧
      s.edge.check "s1" = some staticTokenId :=
  ⟨exists_some_of_any (by decide +kernel), exists_some_of_any (by decide +kernel)⟩

end TokenSync

end RustUma.Cluster
