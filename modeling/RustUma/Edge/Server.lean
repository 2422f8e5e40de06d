import RustUma.Edge.Auth
import RustUma.Edge.Upstream

/-!
# The handshake of an edge (`src/edge/server.rs` `websocket`, `ready`)

Percent-decoding is a parameter.
-/

namespace RustUma.Edge

open RustUma.Found RustUma.Console

/-! ## Text -/

def isWhitespace (c : Char) : Bool :=
  let n := c.toNat
  (9 ≤ n && n ≤ 13) || n = 32 || n = 0x85 || n = 0xA0 || n = 0x1680 ||
    (0x2000 ≤ n && n ≤ 0x200A) || n = 0x2028 || n = 0x2029 || n = 0x202F || n = 0x205F || n = 0x3000

def trim (text : List Char) : List Char :=
  ((text.dropWhile isWhitespace).reverse.dropWhile isWhitespace).reverse

def parseUsize (text : List Char) : Option ℕ :=
  let digits := if text.head? = some '+' then text.tail else text
  let n := Nat.ofDigitChars 10 digits 0
  if digits ≠ [] ∧ digits.all Char.isDigit ∧ n < 2 ^ 64 then some n else none

/-! ## The query -/

structure WsQuery where
  token : Option (List Char)
  replay : Option (List Char)
  deriving DecidableEq

def WsQuery.visit (decode : List Char → List Char) (query : WsQuery) (kv : List Char) :
    Option WsQuery :=
  let parts := (splitOnce '=' kv).getD (kv, [])
  if decode parts.1 = "token".toList then
    if query.token.isSome then none else some { query with token := some (decode parts.2) }
  else if decode parts.1 = "_replay".toList then
    if query.replay.isSome then none else some { query with replay := some (decode parts.2) }
  else some query

def wsQuery (decode : List Char → List Char) (query : List Char) : Option WsQuery :=
  ((query.splitOn '&').filter (· ≠ [])).foldlM (WsQuery.visit decode) ⟨none, none⟩

def queryOf (url : List Char) : List Char :=
  let text := url.takeWhile (· ≠ '#')
  ((splitOnce '?' text).getD (text, [])).2

def maxReplay : ℕ := 4096

def parseReplay (value : Option (List Char)) : Option ℕ :=
  match value.map trim with
  | none => some 0
  | some [] => some 0
  | some text =>
    if text = "all".toList then some maxReplay
    else (parseUsize text).filter fun n => n ≤ maxReplay

/-! ## The handshake -/

def subprotocol : String := "uma.pb.v1"

structure Headers where
  authorization : Option (List Char)
  secWebsocketProtocol : Option (List Char)
  deriving DecidableEq

def bearer (headers : Headers) : Option (List Char) :=
  (headers.authorization.bind fun v =>
    if "Bearer ".toList.isPrefixOf v then some (trim (v.drop 7)) else none).filter (· ≠ [])

structure Node where
  auth : TokenSet
  draining : Bool
  upstreamConnected : Bool
  clients : ℕ
  maxClients : ℕ

inductive Rejection
  | missingToken
  | invalidToken
  | draining
  | full
  | subprotocol
  | replay
  deriving DecidableEq

structure Accepted where
  tokenId : String
  replay : ℕ
  deriving DecidableEq

def offered (headers : Headers) : Bool :=
  headers.secWebsocketProtocol.any fun v =>
    (v.splitOn ',').any fun p => trim p = subprotocol.toList

def websocket (node : Node) (query : WsQuery) (headers : Headers) : Except Rejection Accepted :=
  let secret := (query.token.or (bearer headers)).getD []
  match node.auth.check (String.ofList secret) with
  | none => .error (if secret = [] then .missingToken else .invalidToken)
  | some tokenId =>
    if node.draining then .error .draining
    else if node.maxClients ≤ node.clients then .error .full
    else if !offered headers then .error .subprotocol
    else
      match parseReplay query.replay with
      | some replay => .ok ⟨tokenId, replay⟩
      | none => .error .replay

def ready (node : Node) : ℕ × String :=
  if !node.draining && node.upstreamConnected then (200, "ok") else (503, "not ready")

lemma websocket_eq_ok {node : Node} {query : WsQuery} {headers : Headers} {accepted : Accepted} :
    websocket node query headers = .ok accepted ↔
      node.auth.check (String.ofList ((query.token.or (bearer headers)).getD [])) =
        some accepted.tokenId ∧
      node.draining = false ∧ node.clients < node.maxClients ∧ offered headers = true ∧
      parseReplay query.replay = some accepted.replay := by
  obtain ⟨tokenId, replay⟩ := accepted
  unfold websocket
  dsimp only
  cases node.auth.check (String.ofList ((query.token.or (bearer headers)).getD [])) with
  | none => simp
  | some id =>
    grind

lemma not_ready_of_draining {node : Node} (h : node.draining = true) :
    ready node = (503, "not ready") := by
  unfold ready
  rw [h]
  rfl

lemma websocket_of_draining {node : Node} (h : node.draining = true) (query : WsQuery)
    (headers : Headers) (accepted : Accepted) : websocket node query headers ≠ .ok accepted := by
  intro hok
  rw [(websocket_eq_ok.mp hok).2.1] at h
  cases h

/-! ## A dial of another edge -/

def dialHeaders : Headers := ⟨none, some subprotocol.toList⟩

def dialAnswer (decode : List Char → List Char) (node : Node) (url : List Char) :
    Option (Except Rejection Accepted) :=
  (wsQuery decode (queryOf url)).map fun query => websocket node query dialHeaders

section Dial

variable {decode : List Char → List Char}

lemma queryOf_of_notMem {url : List Char} (h : '#' ∉ url) :
    queryOf url = ((splitOnce '?' url).getD (url, [])).2 := by
  have htext : url.takeWhile (· ≠ '#') = url := by
    rw [List.takeWhile_eq_self_iff]
    grind
  unfold queryOf
  rw [htext]

lemma visit_afterSequence (hdecode : decode "after_sequence".toList = "after_sequence".toList)
    {kv : List Char} (h : afterSequenceKey.isPrefixOf kv = true) (query : WsQuery) :
    WsQuery.visit decode query kv = some query := by
  obtain ⟨value, rfl⟩ := List.isPrefixOf_iff_prefix.mp h
  have hsplit : splitOnce '=' (afterSequenceKey ++ value) =
      some ("after_sequence".toList, value) :=
    splitOnce_append (a := "after_sequence".toList) (by decide)
  unfold WsQuery.visit
  simp_all

lemma foldlM_filter {σ α : Type*} {f : σ → α → Option σ} {p : α → Bool} {xs : List α}
    (h : ∀ x ∈ xs, p x = false → ∀ s, f s x = some s) (s : σ) :
    (xs.filter p).foldlM f s = xs.foldlM f s := by
  induction xs generalizing s with
  | nil => rfl
  | cons x xs ih =>
    grind

lemma visit_dialParams (hdecode : decode "after_sequence".toList = "after_sequence".toList)
    (query : List Char) (lastEventSequence : ℕ) (cursorRejected : Bool) (q : WsQuery) :
    (dialParams query lastEventSequence cursorRejected).foldlM (WsQuery.visit decode) q =
      ((query.splitOn '&').filter (· ≠ [])).foldlM (WsQuery.visit decode) q := by
  have hkept : ∀ keep, (keptParams query keep).foldlM (WsQuery.visit decode) q =
      ((query.splitOn '&').filter (· ≠ [])).foldlM (WsQuery.visit decode) q := by
    intro keep
    have hfilter : keptParams query keep =
        ((query.splitOn '&').filter (· ≠ [])).filter
          fun kv => keep || !afterSequenceKey.isPrefixOf kv := by
      rw [List.filter_filter]
      refine List.filter_congr fun kv _ => ?_
      grind
    rw [hfilter]
    refine foldlM_filter (fun kv _ hdropped q => ?_) q
    rw [Bool.or_eq_false_iff, Bool.not_eq_false'] at hdropped
    exact visit_afterSequence hdecode hdropped.2 q
  unfold dialParams
  split_ifs
  · rw [List.foldlM_append, hkept]
    have hcursor : ∀ q, [afterSequenceKey ++ Nat.toDigits 10 lastEventSequence].foldlM
        (WsQuery.visit decode) q = some q := by
      intro q
      rw [List.foldlM_cons, visit_afterSequence hdecode
        (List.isPrefixOf_iff_prefix.mpr (List.prefix_append _ _)) q]
      rfl
    simp_all
  · exact hkept _

lemma notMem_dialUrl {base : List Char} (h : '#' ∉ base) (lastEventSequence : ℕ)
    (cursorRejected : Bool) : '#' ∉ dialUrl base lastEventSequence cursorRejected := by
  obtain ⟨-, hbefore, hquery⟩ := splitOnce_parts '?' base
  have hpath : '#' ∉ ((splitOnce '?' base).getD (base, [])).1 := fun hmem => h (hbefore hmem)
  have hkept : ∀ keep, ∀ kv ∈ keptParams ((splitOnce '?' base).getD (base, [])).2 keep,
      '#' ∉ kv := fun keep kv hkv hmem =>
    h (hquery ((of_mem_splitOn (List.mem_filter.mp hkv).1).2 hmem))
  have hparams : ∀ kv ∈ dialParams ((splitOnce '?' base).getD (base, [])).2 lastEventSequence
      cursorRejected, '#' ∉ kv := by
    intro kv hkv
    unfold dialParams at hkv
    split_ifs at hkv
    · rcases List.mem_append.mp hkv with hkv | hkv
      · exact hkept _ kv hkv
      · rw [List.mem_singleton.mp hkv, List.mem_append, not_or]
        refine ⟨by decide, fun hmem => ?_⟩
        have hdigit := Nat.isDigit_of_mem_toDigits (by decide) (by decide) hmem
        simp_all
    · exact hkept _ kv hkv
  unfold dialUrl
  dsimp only
  split_ifs
  · exact hpath
  · rw [List.mem_append, List.mem_cons, not_or, not_or]
    refine ⟨hpath, by decide, fun hmem => ?_⟩
    rcases mem_intercalate hmem with hsep | ⟨kv, hkv, hmem⟩
    · simp_all
    simp_all

lemma wsQuery_dialUrl (hdecode : decode "after_sequence".toList = "after_sequence".toList)
    {base : List Char} (h : '#' ∉ base) (lastEventSequence : ℕ) (cursorRejected : Bool) :
    wsQuery decode (queryOf (dialUrl base lastEventSequence cursorRejected)) =
      wsQuery decode (queryOf base) := by
  rw [queryOf_of_notMem h, queryOf_of_notMem (notMem_dialUrl h _ _), query_dialUrl]
  unfold wsQuery
  rw [← visit_dialParams hdecode ((splitOnce '?' base).getD (base, [])).2 lastEventSequence
    cursorRejected]
  congr 1
  by_cases hempty : dialParams ((splitOnce '?' base).getD (base, [])).2 lastEventSequence
      cursorRejected = []
  · rw [hempty]
    rfl
  · rw [List.splitOn_intercalate '&' (fun kv hkv => notMem_of_mem_dialParams hkv) hempty,
      List.filter_eq_self]
    intro kv hkv
    exact decide_eq_true (ne_nil_of_mem_dialParams hkv)

end Dial

end RustUma.Edge
