import Mathlib.Data.List.AList
import Mathlib.Data.List.Induction
import Mathlib.Data.List.Perm.Basic
import RustUma.Console.Tokens

/-!
# The tokens an edge accepts (`src/edge/auth.rs` `TokenSet`)

A set that came from the console replaces the one before and, once there was any, the static list
of the environment.
-/

namespace RustUma.Edge

open RustUma.Console

def staticTokenId : String := "env"

structure TokenSet where
  version : ℕ
  console : AList fun _ : String => String
  statics : List String
  receivedFromConsole : Bool
  deriving DecidableEq

def collect (grants : List TokenGrant) : AList fun _ : String => String :=
  grants.foldl (fun map grant => map.insert grant.secret grant.id) ∅

namespace TokenSet

def new (statics : List String) : TokenSet := ⟨0, ∅, statics, false⟩

def replace (set : TokenSet) (version : ℕ) (grants : List TokenGrant) : TokenSet × Bool :=
  let next := collect grants
  ({ set with version := version, console := next, receivedFromConsole := true },
    decide (¬next.entries.Perm set.console.entries ∨ set.receivedFromConsole = false))

def check (set : TokenSet) (secret : String) : Option String :=
  if secret = "" then none
  else
    match set.console.lookup secret with
    | some id => some id
    | none =>
      if set.receivedFromConsole = false ∧ secret ∈ set.statics then some staticTokenId else none

def isLive (set : TokenSet) (tokenId : String) : Bool :=
  if tokenId = staticTokenId then !set.receivedFromConsole
  else (set.console.entries.map Sigma.snd).contains tokenId

end TokenSet

lemma collect_concat (grants : List TokenGrant) (grant : TokenGrant) :
    collect (grants ++ [grant]) = (collect grants).insert grant.secret grant.id := by
  unfold collect
  simp

lemma lookup_collect {grants : List TokenGrant} (h : (grants.map TokenGrant.secret).Nodup)
    {secret id : String} :
    (collect grants).lookup secret = some id ↔ (⟨id, secret⟩ : TokenGrant) ∈ grants := by
  induction grants using List.reverseRecOn with
  | nil => simp [collect]
  | append_singleton grants grant ih =>
    rw [List.map_append, List.nodup_append'] at h
    obtain ⟨hnodup, -, hdisjoint⟩ := h
    have hnew : grant.secret ∉ grants.map TokenGrant.secret :=
      List.disjoint_singleton.mp hdisjoint
    rw [collect_concat, List.mem_append, List.mem_singleton]
    by_cases hsecret : secret = grant.secret
    · subst hsecret
      rw [AList.lookup_insert]
      constructor
      · intro hid
        cases hid
        exact Or.inr rfl
      grind
    · rw [AList.lookup_insert_ne hsecret, ih hnodup]
      grind

lemma check_collect {set : TokenSet} {file : TokensFile} (hfile : file.Sound)
    (hconsole : set.console = collect file.grants)
    (hstatics : set.receivedFromConsole = true ∨ ∀ secret ∈ set.statics, secret = "")
    {secret id : String} :
    set.check secret = some id ↔
      ∃ token ∈ file.tokens, token.enabled = true ∧ token.secret = secret ∧ token.id = id := by
  have hnodup : (file.grants.map TokenGrant.secret).Nodup := by
    have hmap : file.grants.map TokenGrant.secret =
        (file.tokens.filter Token.enabled).map Token.secret := by
      unfold TokensFile.grants
      simp
    rw [hmap]
    exact hfile.nodup.sublist (List.filter_sublist.map _)
  have hgrant : (⟨id, secret⟩ : TokenGrant) ∈ file.grants ↔
      ∃ token ∈ file.tokens, token.enabled = true ∧ token.secret = secret ∧ token.id = id := by
    unfold TokensFile.grants
    grind
  rw [← hgrant, ← lookup_collect hnodup, ← hconsole]
  unfold TokenSet.check
  by_cases hempty : secret = ""
  · -- no token of the table has the empty secret
    rw [if_pos hempty]
    refine iff_of_false (by simp) fun hlookup => ?_
    rw [hconsole, lookup_collect hnodup, hgrant] at hlookup
    obtain ⟨token, htoken, -, hsecret, -⟩ := hlookup
    have hlength := (hfile.drawn token htoken).2
    simp_all
  grind

end RustUma.Edge
