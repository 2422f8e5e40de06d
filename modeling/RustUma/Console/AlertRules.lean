import RustUma.Console.Registry

/-!
# Alert rules (`src/console/alerts.rs` `Engine::evaluate`)

Every round checks what the console has at hand: the last snapshot of tinyuma's documents, the
nodes as the registry lists them, and its own feed. A rule that is violated gives a finding; the
rules that were checked are reported as evaluated.

The one threshold that is an `f64` is a `Percent`. Products and sums of `u64` wrap around.
-/

namespace RustUma.Console

open RustUma.Found

/-! ## Rules -/

inductive Severity
  | critical
  | warning
  deriving DecidableEq

inductive Rule
  | tinyumaUnreachable
  | rpcDisconnected
  | rpcSourcesDegraded
  | rpcReconnects
  | upstreamSilent
  | enrichmentRecentLow
  | enrichmentMisses
  | decodeErrors
  | slowClients
  | cursorRejected
  | storageDropped
  | catalogSmall
  | edgeStale
  | edgeUpstreamDown
  | edgeSequenceLag
  | edgeLinkLag
  | edgeChurn
  | edgeSlowClients
  | edgeBadFrames
  | edgeNearFull
  | clusterServingLow
  | panelFeedDown
  deriving DecidableEq

namespace Rule

def name : Rule → String
  | tinyumaUnreachable => "tinyuma_unreachable"
  | rpcDisconnected => "rpc_disconnected"
  | rpcSourcesDegraded => "rpc_sources_degraded"
  | rpcReconnects => "rpc_reconnects"
  | upstreamSilent => "upstream_silent"
  | enrichmentRecentLow => "enrichment_recent_low"
  | enrichmentMisses => "enrichment_misses"
  | decodeErrors => "decode_errors"
  | slowClients => "slow_clients"
  | cursorRejected => "cursor_rejected"
  | storageDropped => "storage_dropped"
  | catalogSmall => "catalog_small"
  | edgeStale => "edge_stale"
  | edgeUpstreamDown => "edge_upstream_down"
  | edgeSequenceLag => "edge_sequence_lag"
  | edgeLinkLag => "edge_link_lag"
  | edgeChurn => "edge_churn"
  | edgeSlowClients => "edge_slow_clients"
  | edgeBadFrames => "edge_bad_frames"
  | edgeNearFull => "edge_near_full"
  | clusterServingLow => "cluster_serving_low"
  | panelFeedDown => "panel_feed_down"

def title : Rule → String
  | tinyumaUnreachable => "console 抓不到 tinyuma"
  | rpcDisconnected => "tinyuma 的 Polygon RPC 订阅全部断开"
  | rpcSourcesDegraded => "多路 RPC 有掉线"
  | rpcReconnects => "RPC 订阅频繁重连"
  | upstreamSilent => "长时间没收到链上 UMA 事件"
  | enrichmentRecentLow => "富化命中率低（未命中的事件不会广播）"
  | enrichmentMisses => "富化未命中激增"
  | decodeErrors => "链上日志解码失败激增"
  | slowClients => "tinyuma 下游写超时断开"
  | cursorRejected => "下游续传游标频繁过期（1013，可能丢帧）"
  | storageDropped => "tinyuma 本地 WAL 写入队列丢弃"
  | catalogSmall => "富化缓存市场数异常偏少"
  | edgeStale => "edge 失联（心跳中断）"
  | edgeUpstreamDown => "edge 与 tinyuma 断开"
  | edgeSequenceLag => "edge 事件序号落后"
  | edgeLinkLag => "tinyuma→edge 传输延迟高"
  | edgeChurn => "edge 客户端反复断线重连"
  | edgeSlowClients => "edge 慢客户端被踢"
  | edgeBadFrames => "edge 收到解析失败的帧"
  | edgeNearFull => "edge 接近满员"
  | clusterServingLow => "服务中的 edge 节点太少"
  | panelFeedDown => "面板实时转发断开"

def severity : Rule → Severity
  | tinyumaUnreachable | rpcDisconnected | upstreamSilent | storageDropped | edgeStale
  | edgeUpstreamDown | clusterServingLow => .critical
  | _ => .warning

end Rule

structure Percent where
  below : ℕ → ℕ → Bool
  share : ℕ → ℕ → String
  text : String

structure AlertRules where
  upstreamUnreachableS : ℕ := 60
  rpcDisconnectedS : ℕ := 30
  rpcSourcesDegradedS : ℕ := 300
  rpcReconnectsPer30m : ℕ := 6
  upstreamSilentMin : ℕ := 20
  enrichmentRecentMinPct : Percent
  enrichmentMissesPer1h : ℕ := 30
  decodeErrorsPer1h : ℕ := 30
  slowClientsPer10m : ℕ := 3
  cursorRejectedPer10m : ℕ := 10
  storageDroppedPer10m : ℕ := 1
  catalogMinMarkets : ℕ := 200000
  minServingNodes : ℕ := 1
  edgeStaleS : ℕ := 30
  edgeUpstreamDownS : ℕ := 60
  edgeSequenceLag : ℕ := 20
  edgeSequenceLagS : ℕ := 60
  edgeLinkLagMs : ℕ := 1000
  edgeLinkLagS : ℕ := 60
  edgeAcceptedPer1h : ℕ := 800
  edgeSlowClientsPer10m : ℕ := 20
  edgeBadFramesPer10m : ℕ := 1
  edgeFullPct : ℕ := 95
  edgeFullS : ℕ := 300
  panelFeedDownS : ℕ := 300
  resolveAfterS : ℕ := 60
  repeatAfterMin : ℕ := 60

/-! ## Inputs -/

inductive JsonValue
  | bool (b : Bool)
  | u64 (n : ℕ)
  | other
  deriving DecidableEq

def Document : Type := String → Option JsonValue

def num (data : Document) (key : String) : Option ℕ :=
  match data key with
  | some (.u64 n) => some n
  | _ => none

def asBool (data : Document) (key : String) : Option Bool :=
  match data key with
  | some (.bool b) => some b
  | _ => none

structure UpstreamSnapshot where
  fetchedAtMs : ℕ
  ok : Bool
  error : Option String
  healthz : Option Document
  dashboard : Option Document
  latestSequence : ℕ

def UpstreamSnapshot.fresh (up : UpstreamSnapshot) : Bool := up.ok && 0 < up.fetchedAtMs

def UpstreamSnapshot.data (up : UpstreamSnapshot) : Option Document := up.dashboard.or up.healthz

structure Inputs where
  upstream : UpstreamSnapshot
  nodes : List NodeView
  feedConnected : Bool

/-! ## Counters -/

def wrap (n : ℕ) : ℕ := n % 2 ^ 64

def minuteMs : ℕ := 60000

def hourMs : ℕ := 60 * minuteMs

def seriesKeepMs : ℕ := hourMs + 5 * minuteMs

def Series : Type := List (ℕ × ℕ)

namespace Series

def push (series : Series) (now value : ℕ) : Series :=
  (List.append series [(now, value)]).dropWhile fun sample => seriesKeepMs < now - sample.1

def increaseFrom (start : ℕ) : Option ℕ → List (ℕ × ℕ) → ℕ
  | _, [] => 0
  | prev, (at_, value) :: samples =>
    (match prev with
      | some before =>
        if start ≤ at_ then (if before ≤ value then value - before else value) else 0
      | none => 0) + increaseFrom start (some value) samples

def increase (series : Series) (now windowMs : ℕ) : ℕ :=
  wrap (increaseFrom (now - windowMs) none series)

def lastAt (series : Series) : ℕ := ((List.getLast? series).map Prod.fst).getD 0

end Series

def counter (key : String) (value : Option ℕ) (now windowMs : ℕ) :
    StateM (Table String Series) (Option ℕ) := fun series =>
  match value with
  | none => (none, series)
  | some value =>
    let samples := Series.push ((series.get? key).getD ([] : List (ℕ × ℕ))) now value
    (some (samples.increase now windowMs), series.put key samples)

/-! ## Findings -/

structure Finding where
  rule : Rule
  title : String
  severity : Severity
  subject : String
  detail : String
  holdMs : ℕ
  deriving DecidableEq

def finding (rule : Rule) (subject detail : String) (holdS : ℕ) : Finding :=
  ⟨rule, rule.title, rule.severity, subject, detail, wrap (holdS * 1000)⟩

def fmtDuration (ms : ℕ) : String :=
  let s := ms / 1000
  if s < 60 then toString s ++ "s"
  else if s < 3600 then toString (s / 60) ++ "m" ++ toString (s % 60) ++ "s"
  else toString (s / 3600) ++ "h" ++ toString (s % 3600 / 60) ++ "m"

section Checks

variable (r : AlertRules) (now : ℕ)

def checkCounter (rule : Rule) (subject key : String) (value : Option ℕ) (windowMs threshold : ℕ)
    (detail : ℕ → String) : StateM (Table String Series) (List Finding) := do
  let growth ← counter key value now windowMs
  return match growth with
    | some n => if threshold ≤ n then [finding rule subject (detail n) 0] else []
    | none => []

def checkReachable (up : UpstreamSnapshot) : List Finding :=
  if up.fresh then []
  else [finding .tinyumaUnreachable "" (up.error.getD "console 还没成功抓取过 /healthz")
    r.upstreamUnreachableS]

def checkRpcConnected (data : Document) : List Finding :=
  if asBool data "rpc_connected" = some false then
    [finding .rpcDisconnected "" "rpc_connected=false" r.rpcDisconnectedS]
  else []

def checkRpcSources (data : Document) : List Finding :=
  match num data "rpc_sources_connected", num data "rpc_sources_configured" with
  | some connected, some configured =>
    if 0 < connected ∧ connected < configured then
      [finding .rpcSourcesDegraded ""
        ("在线 " ++ toString connected ++ "/" ++ toString configured ++ " 路") r.rpcSourcesDegradedS]
    else []
  | _, _ => []

def checkSilent (data : Document) : List Finding :=
  match (num data "last_upstream_received_at_us").filter fun v => 0 < v with
  | some lastUs =>
    let idleMs := (wrap (now * 1000) - lastUs) / 1000
    if wrap (r.upstreamSilentMin * minuteMs) ≤ idleMs then
      [finding .upstreamSilent "" ("最近一次在 " ++ fmtDuration idleMs ++ " 前（阈值 " ++
        toString r.upstreamSilentMin ++ "min），订阅可能假死") 0]
    else []
  | none => []

def checkEnrichmentRecent (data : Document) : List Finding :=
  match num data "enrichment_recent_hits", num data "enrichment_recent_total" with
  | some hits, some total =>
    if 200 ≤ total ∧ r.enrichmentRecentMinPct.below hits total then
      [finding .enrichmentRecentLow "" ("近 " ++ toString total ++ " 条命中 " ++
        r.enrichmentRecentMinPct.share hits total ++ "%（阈值 " ++
        r.enrichmentRecentMinPct.text ++ "%）") 0]
    else []
  | _, _ => []

def checkCatalog (data : Document) : List Finding :=
  match num data "catalog_markets" with
  | some markets =>
    if markets < r.catalogMinMarkets then
      [finding .catalogSmall "" ("缓存 " ++ toString markets ++ " 个市场（阈值 " ++
        toString r.catalogMinMarkets ++ "）") 300]
    else []
  | none => []

def checkUpstreamCounter (data : Document) (rule : Rule) (field : String) (windowMs threshold : ℕ)
    (detail : ℕ → String) : StateM (Table String Series) (List Finding) :=
  checkCounter now rule "" ("up:" ++ field) (num data field) windowMs threshold detail

def checkReconnects (data : Document) : StateM (Table String Series) (List Finding) :=
  checkUpstreamCounter now data .rpcReconnects "rpc_reconnects_total" (30 * minuteMs)
    r.rpcReconnectsPer30m fun n => "近 30min 重连 " ++ toString n ++ " 次（阈值 " ++
      toString r.rpcReconnectsPer30m ++ "）"

def checkMisses (data : Document) : StateM (Table String Series) (List Finding) :=
  checkUpstreamCounter now data .enrichmentMisses "enrichment_misses_total" hourMs
    r.enrichmentMissesPer1h fun n => "近 1h 未命中 " ++ toString n ++ " 条（阈值 " ++
      toString r.enrichmentMissesPer1h ++ "）"

def checkDecodeErrors (data : Document) : StateM (Table String Series) (List Finding) :=
  checkUpstreamCounter now data .decodeErrors "decode_errors_total" hourMs
    r.decodeErrorsPer1h fun n => "近 1h 解码失败 " ++ toString n ++ " 条（阈值 " ++
      toString r.decodeErrorsPer1h ++ "），看 journal 里的 discarding undecodable RPC log"

def checkSlowClients (data : Document) : StateM (Table String Series) (List Finding) :=
  checkUpstreamCounter now data .slowClients "slow_clients_dropped_total" (10 * minuteMs)
    r.slowClientsPer10m fun n => "近 10min " ++ toString n ++ " 次（阈值 " ++
      toString r.slowClientsPer10m ++ "），法兰克福→香港链路可能拥塞"

def checkCursors (data : Document) : StateM (Table String Series) (List Finding) :=
  checkUpstreamCounter now data .cursorRejected "ws_cursor_rejected_total" (10 * minuteMs)
    r.cursorRejectedPer10m fun n => "近 10min " ++ toString n ++ " 次（阈值 " ++
      toString r.cursorRejectedPer10m ++ "）"

def checkStorage (data : Document) : StateM (Table String Series) (List Finding) :=
  checkUpstreamCounter now data .storageDropped "storage_queue_dropped_total" (10 * minuteMs)
    r.storageDroppedPer10m fun n => "近 10min 丢弃 " ++ toString n ++ " 条"

def checkUpstream (data : Document) : StateM (Table String Series) (List Finding) := do
  let reconnects ← checkReconnects r now data
  let misses ← checkMisses r now data
  let decodeErrors ← checkDecodeErrors r now data
  let slowClients ← checkSlowClients r now data
  let cursors ← checkCursors r now data
  let storage ← checkStorage r now data
  return checkRpcConnected r data ++ checkRpcSources r data ++ reconnects ++
    checkSilent r now data ++ checkEnrichmentRecent r data ++ misses ++ decodeErrors ++
    slowClients ++ cursors ++ storage ++ checkCatalog r data

def checkNodeCounter (id : String) (rule : Rule) (field : String) (value windowMs threshold : ℕ)
    (detail : ℕ → String) : StateM (Table String Series) (List Finding) :=
  checkCounter now rule id ("edge:" ++ id ++ ":" ++ field) (some value) windowMs threshold detail

def checkHeartbeat (latest : ℕ) (hb : Heartbeat) : List Finding :=
  (if !hb.upstreamConnected then
    [finding .edgeUpstreamDown hb.nodeId
      ("累计重连 " ++ toString hb.upstreamReconnectsTotal ++ " 次") r.edgeUpstreamDownS]
  else []) ++
  (if 0 < latest ∧ 0 < hb.lastEventSequence ∧ r.edgeSequenceLag ≤ latest - hb.lastEventSequence then
    [finding .edgeSequenceLag hb.nodeId ("落后 " ++ toString (latest - hb.lastEventSequence) ++
      " 条（阈值 " ++ toString r.edgeSequenceLag ++ "）") r.edgeSequenceLagS]
  else []) ++
  (if wrap (r.edgeLinkLagMs * 1000) ≤ hb.upstreamLagLastUs ∧
      now - hb.lastFrameAtMs ≤ 2 * minuteMs then
    [finding .edgeLinkLag hb.nodeId ("最近一帧 " ++ fmtDuration (hb.upstreamLagLastUs / 1000) ++
      "（阈值 " ++ toString r.edgeLinkLagMs ++ "ms）") r.edgeLinkLagS]
  else [])

def checkFull (hb : Heartbeat) : List Finding :=
  if 0 < hb.maxClients ∧ wrap (hb.maxClients * r.edgeFullPct) ≤ wrap (hb.clients * 100) then
    [finding .edgeNearFull hb.nodeId (toString hb.clients ++ "/" ++ toString hb.maxClients ++
      "（阈值 " ++ toString r.edgeFullPct ++ "%）") r.edgeFullS]
  else []

def checkNode (latest : ℕ) (node : NodeView) : StateM (Table String Series) (List Finding) :=
  let hb := node.heartbeat
  match node.status with
  | .disabled => return []
  | .stale =>
    return [finding .edgeStale hb.nodeId
      ("心跳 " ++ fmtDuration (now - node.lastSeenMs) ++ " 没到") r.edgeStaleS]
  | _ => do
      let churn ← checkNodeCounter now hb.nodeId .edgeChurn "clients_accepted_total"
        hb.clientsAcceptedTotal hourMs r.edgeAcceptedPer1h fun n =>
          "近 1h 新接入 " ++ toString n ++ " 个连接，当前在线 " ++ toString hb.clients ++ "（阈值 " ++
            toString r.edgeAcceptedPer1h ++ "）"
      let slow ← checkNodeCounter now hb.nodeId .edgeSlowClients "slow_clients_disconnected_total"
        hb.slowClientsDisconnectedTotal (10 * minuteMs) r.edgeSlowClientsPer10m fun n =>
          "近 10min " ++ toString n ++ " 个（阈值 " ++ toString r.edgeSlowClientsPer10m ++ "）"
      let bad ← checkNodeCounter now hb.nodeId .edgeBadFrames "bad_frames_total"
        hb.badFramesTotal (10 * minuteMs) r.edgeBadFramesPer10m fun n =>
          "近 10min " ++ toString n ++ " 帧"
      return checkHeartbeat r now latest hb ++ churn ++ slow ++ bad ++ checkFull r hb

def checkNodes (latest : ℕ) : List NodeView → StateM (Table String Series) (List Finding)
  | [] => return []
  | node :: nodes => do
      let first ← checkNode r now latest node
      let rest ← checkNodes latest nodes
      return first ++ rest

def checkServing (nodes : List NodeView) : List Finding :=
  let serving := nodes.countP fun node => node.status = .serving
  if serving < r.minServingNodes then
    [finding .clusterServingLow "" ("服务中 " ++ toString serving ++ " 台（阈值 " ++
      toString r.minServingNodes ++ "）") 60]
  else []

def checkFeed (feedConnected : Bool) : List Finding :=
  if feedConnected then []
  else [finding .panelFeedDown "" "console → tinyuma 的 ws 未连上（只影响面板，不影响业务下游）"
    r.panelFeedDownS]

def evaluate (input : Inputs) : StateM (Table String Series) (List Finding) := do
  let up := input.upstream
  let upstream ← match up.fresh, up.data with
    | true, some data => checkUpstream r now data
    | _, _ => pure []
  let latest := if up.fresh then up.latestSequence else 0
  let edges ← checkNodes r now latest input.nodes
  return checkReachable r up ++ upstream ++ edges ++ checkServing r input.nodes ++
    checkFeed r input.feedConnected

end Checks

/-! ## What a finding says -/

def AlertRules.holdS (r : AlertRules) : Rule → ℕ
  | .tinyumaUnreachable => r.upstreamUnreachableS
  | .rpcDisconnected => r.rpcDisconnectedS
  | .rpcSourcesDegraded => r.rpcSourcesDegradedS
  | .catalogSmall => 300
  | .edgeStale => r.edgeStaleS
  | .edgeUpstreamDown => r.edgeUpstreamDownS
  | .edgeSequenceLag => r.edgeSequenceLagS
  | .edgeLinkLag => r.edgeLinkLagS
  | .edgeNearFull => r.edgeFullS
  | .clusterServingLow => 60
  | .panelFeedDown => r.panelFeedDownS
  | _ => 0

def AlertRules.Produces (r : AlertRules) (f : Finding) : Prop :=
  f = finding f.rule f.subject f.detail (r.holdS f.rule) ∧
    (f.rule = .tinyumaUnreachable → f.subject = "")

section Findings

variable {r : AlertRules} {now : ℕ} {f : Finding}

def Yields (P : Finding → Prop) (check : StateM (Table String Series) (List Finding)) : Prop :=
  ∀ series, ∀ f ∈ (check series).1, P f

variable {P : Finding → Prop} {check : StateM (Table String Series) (List Finding)}
  {rest : List Finding → StateM (Table String Series) (List Finding)} {found : List Finding}

lemma yields_pure (h : ∀ f ∈ found, P f) : Yields P (pure found) := fun _ => h

lemma Yields.bind (h : Yields P check)
    (hrest : ∀ found, (∀ f ∈ found, P f) → Yields P (rest found)) : Yields P (check >>= rest) :=
  fun series => hrest _ (h series) _

lemma forall_mem_ite {p : Prop} [Decidable p] (hf : P f) :
    ∀ g ∈ (if p then [f] else []), P g := by
  simp_all

lemma forall_mem_ite_nil {p : Prop} [Decidable p] (hf : P f) :
    ∀ g ∈ (if p then [] else [f]), P g := by
  simp_all

lemma produces_finding (rule : Rule) (subject detail : String)
    (h : rule = .tinyumaUnreachable → subject = "") :
    r.Produces (finding rule subject detail (r.holdS rule)) := ⟨rfl, h⟩

lemma yields_checkCounter {rule : Rule} {subject key : String} {value : Option ℕ}
    {windowMs threshold : ℕ} {detail : ℕ → String} (hrule : r.holdS rule = 0)
    (hne : rule ≠ .tinyumaUnreachable) :
    Yields r.Produces (checkCounter now rule subject key value windowMs threshold detail) := by
  intro series
  cases value with
  | none =>
    intro f hf
    cases hf
  | some value =>
    refine forall_mem_ite ?_
    rw [← hrule]
    exact produces_finding rule _ _ fun heq => absurd heq hne

lemma produces_of_mem_checkReachable {up : UpstreamSnapshot} :
    ∀ f ∈ checkReachable r up, r.Produces f := by
  exact forall_mem_ite_nil (produces_finding .tinyumaUnreachable _ _ fun _ => rfl)

variable {data : Document} {latest : ℕ}

lemma produces_of_mem_checkRpcSources :
    ∀ f ∈ checkRpcSources r data, r.Produces f := by
  unfold checkRpcSources
  split
  · exact forall_mem_ite (produces_finding .rpcSourcesDegraded _ _ nofun)
  simp

lemma produces_of_mem_checkSilent :
    ∀ f ∈ checkSilent r now data, r.Produces f := by
  unfold checkSilent
  split
  · exact forall_mem_ite (produces_finding .upstreamSilent _ _ nofun)
  simp

lemma produces_of_mem_checkEnrichmentRecent :
    ∀ f ∈ checkEnrichmentRecent r data, r.Produces f := by
  unfold checkEnrichmentRecent
  split
  · exact forall_mem_ite (produces_finding .enrichmentRecentLow _ _ nofun)
  simp

lemma produces_of_mem_checkCatalog :
    ∀ f ∈ checkCatalog r data, r.Produces f := by
  unfold checkCatalog
  split
  · exact forall_mem_ite (produces_finding .catalogSmall _ _ nofun)
  simp

lemma yields_checkUpstream :
    Yields r.Produces (checkUpstream r now data) := by
  refine (yields_checkCounter rfl (by decide)).bind fun reconnects hreconnects => ?_
  refine (yields_checkCounter rfl (by decide)).bind fun misses hmisses => ?_
  refine (yields_checkCounter rfl (by decide)).bind fun decodeErrors hdecodeErrors => ?_
  refine (yields_checkCounter rfl (by decide)).bind fun slowClients hslowClients => ?_
  refine (yields_checkCounter rfl (by decide)).bind fun cursors hcursors => ?_
  refine (yields_checkCounter rfl (by decide)).bind fun storage hstorage => ?_
  refine yields_pure ?_
  simp only [List.forall_mem_append]
  exact ⟨⟨⟨⟨⟨⟨⟨⟨⟨⟨forall_mem_ite (produces_finding .rpcDisconnected _ _ nofun),
    produces_of_mem_checkRpcSources⟩, hreconnects⟩, produces_of_mem_checkSilent⟩,
    produces_of_mem_checkEnrichmentRecent⟩, hmisses⟩, hdecodeErrors⟩, hslowClients⟩, hcursors⟩,
    hstorage⟩, produces_of_mem_checkCatalog⟩

lemma produces_of_mem_checkHeartbeat {hb : Heartbeat} :
    ∀ f ∈ checkHeartbeat r now latest hb, r.Produces f := by
  unfold checkHeartbeat
  simp only [List.forall_mem_append]
  exact ⟨⟨forall_mem_ite (produces_finding .edgeUpstreamDown _ _ nofun),
    forall_mem_ite (produces_finding .edgeSequenceLag _ _ nofun)⟩,
    forall_mem_ite (produces_finding .edgeLinkLag _ _ nofun)⟩

lemma yields_checkNode {node : NodeView} :
    Yields r.Produces (checkNode r now latest node) := by
  unfold checkNode
  split
  · exact yields_pure fun f hf => absurd hf List.not_mem_nil
  · refine yields_pure fun f hf => ?_
    rw [List.mem_singleton.mp hf]
    exact produces_finding .edgeStale _ _ nofun
  · refine (yields_checkCounter rfl (by decide)).bind fun churn hchurn => ?_
    refine (yields_checkCounter rfl (by decide)).bind fun slow hslow => ?_
    refine (yields_checkCounter rfl (by decide)).bind fun bad hbad => ?_
    refine yields_pure ?_
    simp only [List.forall_mem_append]
    exact ⟨⟨⟨⟨produces_of_mem_checkHeartbeat, hchurn⟩, hslow⟩, hbad⟩,
      forall_mem_ite (produces_finding .edgeNearFull _ _ nofun)⟩

lemma yields_checkNodes (nodes : List NodeView) :
    Yields r.Produces (checkNodes r now latest nodes) := by
  induction nodes with
  | nil => exact yields_pure fun f hf => absurd hf List.not_mem_nil
  | cons node nodes ih =>
    refine yields_checkNode.bind fun first hfirst => ih.bind fun others hothers => ?_
    exact yields_pure (List.forall_mem_append.mpr ⟨hfirst, hothers⟩)

lemma yields_evaluate (input : Inputs) : Yields r.Produces (evaluate r now input) := by
  unfold evaluate
  dsimp only
  have hrest : ∀ latest upstream, (∀ f ∈ upstream, r.Produces f) →
      Yields r.Produces (checkNodes r now latest input.nodes >>= fun edges =>
        pure (checkReachable r input.upstream ++ upstream ++ edges ++
          checkServing r input.nodes ++ checkFeed r input.feedConnected)) := by
    intro latest upstream hupstream
    refine (yields_checkNodes _).bind fun edges hedges => yields_pure ?_
    simp only [List.forall_mem_append]
    exact ⟨⟨⟨⟨produces_of_mem_checkReachable, hupstream⟩, hedges⟩,
      forall_mem_ite (produces_finding .clusterServingLow _ _ nofun)⟩,
      forall_mem_ite_nil (produces_finding .panelFeedDown _ _ nofun)⟩
  split
  · exact yields_checkUpstream.bind (hrest _)
  · exact (yields_pure fun f hf => absurd hf List.not_mem_nil).bind (hrest _)

lemma mem_checkNodes_of_stale {latest : ℕ} {nodes : List NodeView} {node : NodeView}
    (hnode : node ∈ nodes) (hstale : node.status = .stale) (series : Table String Series) :
    ∃ f ∈ (checkNodes r now latest nodes series).1,
      f.rule = .edgeStale ∧ f.subject = node.heartbeat.nodeId := by
  induction nodes generalizing series with
  | nil => cases hnode
  | cons first nodes ih =>
    rcases List.mem_cons.mp hnode with rfl | hnode
    · obtain ⟨detail, hfirst⟩ : ∃ detail, (checkNode r now latest node series).1 =
          [finding .edgeStale node.heartbeat.nodeId detail r.edgeStaleS] := by
        unfold checkNode
        rw [hstale]
        exact ⟨_, rfl⟩
      exact ⟨_, List.mem_append_left _ (hfirst ▸ List.mem_singleton_self _), rfl, rfl⟩
    · obtain ⟨f, hf, hfound⟩ := ih hnode (checkNode r now latest first series).2
      exact ⟨f, List.mem_append_right _ hf, hfound⟩

lemma evaluate_eq (input : Inputs) (series : Table String Series) :
    ∃ upstream latest before, (evaluate r now input series).1 =
      checkReachable r input.upstream ++ upstream ++
        (checkNodes r now latest input.nodes before).1 ++ checkServing r input.nodes ++
        checkFeed r input.feedConnected := by
  unfold evaluate
  dsimp only
  cases input.upstream.fresh <;> cases input.upstream.data <;> exact ⟨_, _, _, rfl⟩

end Findings

def upstreamRules : List Rule :=
  [.rpcDisconnected, .rpcSourcesDegraded, .rpcReconnects, .upstreamSilent, .enrichmentRecentLow,
    .enrichmentMisses, .decodeErrors, .slowClients, .cursorRejected, .storageDropped, .catalogSmall]

def edgeRules : List Rule :=
  [.edgeStale, .edgeUpstreamDown, .edgeSequenceLag, .edgeLinkLag, .edgeChurn, .edgeSlowClients,
    .edgeBadFrames, .edgeNearFull]

def evaluatedRules (input : Inputs) : List Rule :=
  let up := input.upstream
  [.tinyumaUnreachable] ++ (if up.fresh && up.data.isSome then upstreamRules else []) ++
    edgeRules ++ [.clusterServingLow, .panelFeedDown]

end RustUma.Console
