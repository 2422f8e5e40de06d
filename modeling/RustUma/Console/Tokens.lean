import Mathlib.Data.List.Basic
import Mathlib.Data.List.Nodup

/-!
# The console's token table (`src/console/tokens.rs`)

The table has a version that every change raises by one. A change is made in memory, under the lock,
and then saved to `tokens.json`; if that fails the caller is told so, and the change stays.
-/

namespace RustUma.Console

structure Token where
  id : String
  secret : String
  name : String
  enabled : Bool
  createdAtMs : ℕ
  updatedAtMs : ℕ
  deriving DecidableEq

structure TokensFile where
  version : ℕ
  tokens : List Token
  deriving DecidableEq

def TokensFile.default : TokensFile := ⟨0, []⟩

structure TokenGrant where
  id : String
  secret : String
  deriving DecidableEq

def TokensFile.grants (file : TokensFile) : List TokenGrant :=
  (file.tokens.filter Token.enabled).map fun token => ⟨token.id, token.secret⟩

inductive Mutation
  | create (id secret name : String) (now : ℕ)
  | setEnabled (id : String) (enabled : Bool) (now : ℕ)
  | rename (id name : String) (now : ℕ)
  | delete (id : String)
  deriving DecidableEq

def modifyFirst (id : String) (f : Token → Token) : List Token → Option (List Token)
  | [] => none
  | token :: tokens =>
    if token.id = id then some (f token :: tokens)
    else (modifyFirst id f tokens).map (token :: ·)

def Mutation.apply (tokens : List Token) : Mutation → Option (List Token)
  | .create id secret name now => some (tokens ++ [⟨id, secret, name, true, now, now⟩])
  | .setEnabled id enabled now =>
    modifyFirst id (fun token => { token with enabled := enabled, updatedAtMs := now }) tokens
  | .rename id name now =>
    modifyFirst id (fun token => { token with name := name, updatedAtMs := now }) tokens
  | .delete id =>
    let kept := tokens.filter fun token => token.id ≠ id
    if kept.length ≠ tokens.length then some kept else none

def Mutation.Drawn : Mutation → Prop
  | .create id secret _ _ => id.length = 8 ∧ secret.length = 48
  | _ => True

instance (m : Mutation) : Decidable m.Drawn := by
  cases m <;> unfold Mutation.Drawn <;> infer_instance

structure TokenStore where
  file : Option TokensFile
  inner : TokensFile
  deriving DecidableEq

namespace TokenStore

def «open» (file : Option TokensFile) : TokenStore := ⟨file, file.getD .default⟩

def mutate (store : TokenStore) (m : Mutation) (saved : Bool) : TokenStore :=
  match m.apply store.inner.tokens with
  | none => store
  | some tokens =>
    let inner := ⟨store.inner.version + 1, tokens⟩
    ⟨if saved then some inner else store.file, inner⟩

def restart (store : TokenStore) : TokenStore := .open store.file

end TokenStore

/-! ## Tables without shared secrets -/

structure TokensFile.Sound (file : TokensFile) : Prop where
  drawn : ∀ token ∈ file.tokens, token.id.length = 8 ∧ token.secret.length = 48
  nodup : (file.tokens.map Token.secret).Nodup

def Mutation.Fresh (tokens : List Token) : Mutation → Prop
  | .create _ secret _ _ => secret ∉ tokens.map Token.secret
  | _ => True

instance (tokens : List Token) (m : Mutation) : Decidable (m.Fresh tokens) := by
  cases m <;> unfold Mutation.Fresh <;> infer_instance

section Mutations

variable {tokens tokens' : List Token} {id : String} {f : Token → Token}

lemma modifyFirst_names (h : modifyFirst id f tokens = some tokens')
    (hid : ∀ token, (f token).id = token.id) (hsecret : ∀ token, (f token).secret = token.secret) :
    tokens'.map (fun token => (token.id, token.secret)) =
      tokens.map fun token => (token.id, token.secret) := by
  induction tokens generalizing tokens' with
  | nil => cases h
  | cons token tokens ih =>
    unfold modifyFirst at h
    split_ifs at h
    · grind
    · obtain ⟨rest, hrest, rfl⟩ := Option.map_eq_some_iff.mp h
      simp [ih hrest]

lemma sound_iff {file : TokensFile} :
    file.Sound ↔
      (∀ p ∈ file.tokens.map fun token => (token.id, token.secret),
        p.1.length = 8 ∧ p.2.length = 48) ∧
      ((file.tokens.map fun token => (token.id, token.secret)).map Prod.snd).Nodup := by
  have hsecrets : (file.tokens.map fun token => (token.id, token.secret)).map Prod.snd =
      file.tokens.map Token.secret := by
    simp
  rw [hsecrets]
  constructor
  · rintro ⟨hdrawn, hnodup⟩
    simp_all
  · rintro ⟨hdrawn, hnodup⟩
    exact ⟨fun token htoken => hdrawn _ (List.mem_map_of_mem htoken), hnodup⟩

lemma TokensFile.Sound.apply {file : TokensFile} (h : file.Sound) {m : Mutation} {version : ℕ}
    (hdrawn : m.Drawn) (hfresh : m.Fresh file.tokens) (happly : m.apply file.tokens = some tokens) :
    TokensFile.Sound ⟨version, tokens⟩ := by
  cases m with
  | create id secret name now =>
    cases happly
    refine ⟨fun token htoken => ?_, ?_⟩
    · rcases List.mem_append.mp htoken with htoken | htoken
      · exact h.drawn token htoken
      · rw [List.mem_singleton.mp htoken]
        exact hdrawn
    · rw [List.map_append, List.nodup_append']
      refine ⟨h.nodup, List.nodup_singleton _, ?_⟩
      exact List.disjoint_singleton.mpr hfresh
  | setEnabled id enabled now | rename id name now =>
    have hnames := modifyFirst_names happly (fun _ => rfl) fun _ => rfl
    rw [sound_iff] at h ⊢
    rw [hnames]
    exact h
  | delete id =>
    simp only [Mutation.apply, Option.ite_none_right_eq_some, Option.some.injEq] at happly
    obtain ⟨-, rfl⟩ := happly
    have hsublist := List.filter_sublist (p := fun token => decide (token.id ≠ id))
      (l := file.tokens)
    refine ⟨fun token htoken => h.drawn token (hsublist.subset htoken), ?_⟩
    exact h.nodup.sublist (hsublist.map _)

end Mutations

end RustUma.Console
