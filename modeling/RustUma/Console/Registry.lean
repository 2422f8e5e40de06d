import Mathlib.Algebra.Group.Int.Defs
import Mathlib.Algebra.GroupWithZero.Nat
import Mathlib.Data.String.Basic
import RustUma.Found.Table

/-!
# The console's node registry (`src/console/registry.rs`, `src/console/store.rs`)

Nodes report by heartbeat. What an administrator decides about a node, whether it is disabled or a
relay and a note, and the settings of the balancer are kept in `nodes.json`; the nodes themselves
and the requests to drain or release are not.

Texts are given as they are after `trim`, and times come from the clock, which may do anything.
-/

namespace RustUma.Console

open RustUma.Found

/-! ## Saving -/

inductive SaveStep
  | createDirAll
  | toVecPretty
  | create
  | write (bytes : ℕ)
  | rename
  deriving DecidableEq

inductive TmpFile (α : Type*)
  | absent
  | cut (bytes : ℕ)
  | whole (value : α)

structure JsonFile (α : Type*) where
  content : Option α
  tmp : TmpFile α

def saveJson {α : Type*} (file : JsonFile α) (value : α) (fails : Option SaveStep) :
    JsonFile α × Except SaveStep Unit :=
  match fails with
  | some .createDirAll => (file, .error .createDirAll)
  | some .toVecPretty => (file, .error .toVecPretty)
  | some .create => (file, .error .create)
  | some (.write bytes) => ({ file with tmp := .cut bytes }, .error (.write bytes))
  | some .rename => ({ file with tmp := .whole value }, .error .rename)
  | none => (⟨some value, .absent⟩, .ok ())

lemma saveJson_error {α : Type*} (file : JsonFile α) (value : α) (step : SaveStep) :
    (saveJson file value (some step)).1.content = file.content ∧
      (saveJson file value (some step)).2 = .error step := by
  cases step <;> exact ⟨rfl, rfl⟩

/-! ## Nodes -/

structure Heartbeat where
  nodeId : String := ""
  startedAtMs : ℕ := 0
  advertiseHost : String := ""
  port : ℕ := 0
  tls : Bool := false
  path : String := ""
  subprotocol : String := ""
  ready : Bool := false
  draining : Bool := false
  upstreamConnected : Bool := false
  upstreamReconnectsTotal : ℕ := 0
  lastFrameAtMs : ℕ := 0
  badFramesTotal : ℕ := 0
  lastEventSequence : ℕ := 0
  upstreamLagLastUs : ℕ := 0
  clients : ℕ := 0
  maxClients : ℕ := 0
  clientsAcceptedTotal : ℕ := 0
  slowClientsDisconnectedTotal : ℕ := 0
  deriving DecidableEq

inductive Status
  | stale
  | relay
  | disabled
  | draining
  | notReady
  | full
  | serving
  deriving DecidableEq

structure NodeAdmin where
  disabled : Bool := false
  note : String := ""
  relay : Bool := false
  deriving DecidableEq

structure Settings where
  autoBalance : Bool := true
  releaseBatch : ℕ := 20
  balanceSpreadPct : ℕ := 5
  balanceMinExcess : ℕ := 5
  deriving DecidableEq

structure NodesFile where
  nodes : Table String NodeAdmin
  settings : Settings

def NodesFile.default : NodesFile := ⟨.empty, {}⟩

structure Node where
  heartbeat : Heartbeat
  remoteIp : String
  firstSeenMs : ℕ
  lastSeenMs : ℕ
  desiredDrain : Bool
  pendingRelease : ℕ
  releasedTotal : ℕ
  lastReleaseMs : ℕ
  deriving DecidableEq

structure Inner where
  nodes : Table String Node
  admin : Table String NodeAdmin
  settings : Settings

structure RegistryConfig where
  staleAfterMs : ℕ
  floorExcess : ℕ → ℕ → ℕ → ℤ

structure Registry where
  file : JsonFile NodesFile
  inner : Inner

structure HeartbeatOutcome where
  firstSeen : Bool
  restarted : Bool
  desiredDrain : Bool
  release : ℕ
  releaseReason : String
  deriving DecidableEq

structure PublicNode where
  nodeId : String
  url : String
  weight : ℕ
  clients : ℕ
  deriving DecidableEq

structure NodeList where
  nodes : List PublicNode
  subprotocol : String
  path : String
  ttlS : ℕ
  generatedAtMs : ℕ
  deriving DecidableEq

structure NodeView where
  heartbeat : Heartbeat
  remoteIp : String
  firstSeenMs : ℕ
  lastSeenMs : ℕ
  disabled : Bool
  relay : Bool
  desiredDrain : Bool
  note : String
  status : Status
  url : String
  pendingRelease : ℕ
  releasedTotal : ℕ
  lastReleaseMs : ℕ
  balanceExcess : ℤ
  deriving DecidableEq

def orDefault (value fallback : String) : String := if value = "" then fallback else value

def nodeUrl (node : Node) : String :=
  let hb := node.heartbeat
  let scheme := if hb.tls then "wss" else "ws"
  let host := if hb.advertiseHost = "" then node.remoteIp else hb.advertiseHost
  let port := if hb.port = 0 then 8012 else hb.port
  let path := orDefault hb.path "/uma/v1/ws"
  let host := if ':' ∈ host.toList ∧ host.toList.head? ≠ some '[' then "[" ++ host ++ "]" else host
  scheme ++ "://" ++ host ++ ":" ++ toString port ++ path

namespace Inner

def adminOf (inner : Inner) (id : String) : NodeAdmin := (inner.admin.get? id).getD {}

lemma adminOf_of_get? {inner : Inner} {id : String} {admin : NodeAdmin}
    (h : inner.admin.get? id = some admin) : inner.adminOf id = admin := by
  unfold adminOf
  rw [h]
  rfl

section Lists

variable (config : RegistryConfig) (inner : Inner) (now : ℕ)

def statusOf (node : Node) (admin : NodeAdmin) : Status :=
  let hb := node.heartbeat
  if config.staleAfterMs < now - node.lastSeenMs then .stale
  else if admin.relay then .relay
  else if admin.disabled then .disabled
  else if node.desiredDrain || hb.draining then .draining
  else if !hb.ready then .notReady
  else if hb.maxClients ≤ hb.clients then .full
  else .serving

def status (node : Node) : Status := statusOf config now node (inner.adminOf node.heartbeat.nodeId)

def serving : List Node :=
  inner.nodes.values.filter fun node => inner.status config now node = .serving

def sheddable : List Node :=
  inner.nodes.values.filter fun node =>
    inner.status config now node = .serving ∨ inner.status config now node = .full

def busier (a b : Node) : Bool :=
  a.heartbeat.clients < b.heartbeat.clients ∨
    a.heartbeat.clients = b.heartbeat.clients ∧ b.heartbeat.nodeId ≤ a.heartbeat.nodeId

def busiestSheddable : Option String :=
  ((inner.sheddable config now).foldl
    (fun best node => match best with
      | none => some node
      | some top => if busier top node then some node else some top) none).map
    fun node => node.heartbeat.nodeId

def asI64 (n : ℕ) : ℤ := (BitVec.ofNat 64 n).toInt

def balanceExcess (id : String) : ℤ :=
  match (inner.sheddable config now).find? fun node => node.heartbeat.nodeId = id with
  | none => 0
  | some me =>
    let serving := inner.serving config now
    let othersSpare := ((serving.filter fun node => node.heartbeat.nodeId ≠ id).map
      fun node => node.heartbeat.maxClients - node.heartbeat.clients).sum
    if othersSpare = 0 then 0
    else
      let emptiest := (serving.map fun node => node.heartbeat.clients).min?.getD 0
      let excess :=
        config.floorExcess me.heartbeat.clients emptiest inner.settings.balanceSpreadPct
      let halfGap := asI64 ((me.heartbeat.clients - emptiest) / 2)
      min (min excess halfGap) (asI64 othersSpare)

def publicNode (node : Node) : PublicNode where
  nodeId := node.heartbeat.nodeId
  url := nodeUrl node
  weight := max (node.heartbeat.maxClients - node.heartbeat.clients) 1
  clients := node.heartbeat.clients

def listedBefore (ceiling : ℕ) (a b : PublicNode) : Bool :=
  match decide (a.clients ≤ ceiling), decide (b.clients ≤ ceiling) with
  | true, true => true
  | true, false => true
  | false, true => false
  | false, false =>
    a.clients < b.clients ∨ a.clients = b.clients ∧
      (b.weight < a.weight ∨ a.weight = b.weight ∧ a.nodeId ≤ b.nodeId)

def publicList (shuffle : List PublicNode → List PublicNode) (ttlS : ℕ) : NodeList :=
  let nodes := (inner.serving config now).map publicNode
  let emptiest := (nodes.map PublicNode.clients).min?.getD 0
  let ceiling := emptiest + emptiest * inner.settings.balanceSpreadPct / 100
  let first := inner.nodes.values.head?.map Node.heartbeat
  { nodes := (shuffle nodes).mergeSort (listedBefore ceiling)
    subprotocol := orDefault ((first.map Heartbeat.subprotocol).getD "") "uma.pb.v1"
    path := orDefault ((first.map Heartbeat.path).getD "") "/uma/v1/ws"
    ttlS := ttlS
    generatedAtMs := now }

end Lists

end Inner

/-! ## Heartbeats -/

section Heartbeats

variable (config : RegistryConfig)

def Inner.decideRelease (inner : Inner) (id : String) (now : ℕ) : Inner × ℕ × String :=
  let batch := max inner.settings.releaseBatch 1
  match inner.nodes.get? id with
  | none => (inner, 0, "")
  | some node =>
    if 0 < node.pendingRelease then
      let n := min node.pendingRelease batch
      ({ inner with
          nodes := inner.nodes.put id { node with
            pendingRelease := node.pendingRelease - n
            releasedTotal := node.releasedTotal + n
            lastReleaseMs := now } }, n, "manual")
    else if !inner.settings.autoBalance || node.desiredDrain then (inner, 0, "")
    else if inner.busiestSheddable config now ≠ some id then (inner, 0, "")
    else
      let excess := inner.balanceExcess config now id
      if excess < Inner.asI64 inner.settings.balanceMinExcess then (inner, 0, "")
      else
        let n := min (excess % 2 ^ 64).toNat batch
        ({ inner with
            nodes := inner.nodes.put id { node with
              releasedTotal := node.releasedTotal + n
              lastReleaseMs := now } }, n, "auto-balance")

def Node.fresh (remoteIp : String) (now : ℕ) : Node where
  heartbeat := {}
  remoteIp := remoteIp
  firstSeenMs := now
  lastSeenMs := now
  desiredDrain := false
  pendingRelease := 0
  releasedTotal := 0
  lastReleaseMs := 0

def Inner.heartbeat (inner : Inner) (hb : Heartbeat) (remoteIp : String) (now : ℕ) :
    Inner × HeartbeatOutcome :=
  let known := inner.nodes.get? hb.nodeId
  let node := known.getD (.fresh remoteIp now)
  let restarted := known.isSome && node.heartbeat.startedAtMs ≠ 0 &&
    node.heartbeat.startedAtMs ≠ hb.startedAtMs
  let node := { node with
    heartbeat := hb
    remoteIp := remoteIp
    lastSeenMs := now
    desiredDrain := node.desiredDrain && !restarted }
  let inner := { inner with nodes := inner.nodes.put hb.nodeId node }
  if (inner.adminOf hb.nodeId).relay then
    ({ inner with
        nodes := inner.nodes.put hb.nodeId
          { node with desiredDrain := false, pendingRelease := 0 } },
      ⟨known.isNone, restarted, false, 0, ""⟩)
  else
    let (inner, release, reason) := inner.decideRelease config hb.nodeId now
    (inner, ⟨known.isNone, restarted, node.desiredDrain, release, reason⟩)

end Heartbeats

/-! ## Administration -/

def NodeAdmin.withDisabled (disabled : Bool) (admin : NodeAdmin) : NodeAdmin :=
  { admin with disabled := disabled }

def NodeAdmin.withRelay (relay : Bool) (admin : NodeAdmin) : NodeAdmin :=
  { admin with relay := relay, disabled := admin.disabled || !relay }

def NodeAdmin.withNote (note : String) (admin : NodeAdmin) : NodeAdmin :=
  { admin with note := note }

namespace Inner

def isRelay (inner : Inner) (id : String) : Bool := (inner.admin.get? id).any NodeAdmin.relay

def modifyNode (inner : Inner) (id : String) (f : Node → Node) : Inner × Bool :=
  match inner.nodes.get? id with
  | some node => ({ inner with nodes := inner.nodes.put id (f node) }, true)
  | none => (inner, false)

def setDrain (inner : Inner) (id : String) (drain : Bool) : Inner × Bool :=
  inner.modifyNode id fun node => { node with desiredDrain := drain }

def requestRelease (inner : Inner) (id : String) (count : ℕ) : Inner × Bool :=
  inner.modifyNode id fun node => { node with pendingRelease := count }

def known (inner : Inner) (id : String) : Bool :=
  (inner.nodes.get? id).isSome || (inner.admin.get? id).isSome

def toFile (inner : Inner) : NodesFile := ⟨inner.admin, inner.settings⟩

end Inner

namespace Registry

def «open» (file : JsonFile NodesFile) : Registry where
  file := file
  inner :=
    { nodes := .empty
      admin := (file.content.getD .default).nodes
      settings := (file.content.getD .default).settings }

def persist {β : Type} (r : Registry) (inner : Inner) (fails : Option SaveStep) (value : β) :
    Registry × Except SaveStep β :=
  let (file, saved) := saveJson r.file inner.toFile fails
  (⟨file, inner⟩, saved.map fun _ => value)

def mutateAdmin (r : Registry) (id : String) (f : NodeAdmin → NodeAdmin) (fails : Option SaveStep) :
    Registry × Except SaveStep Bool :=
  if r.inner.known id then
    r.persist { r.inner with admin := r.inner.admin.put id (f (r.inner.adminOf id)) } fails true
  else (r, .ok false)

def setDisabled (r : Registry) (id : String) (disabled : Bool) (fails : Option SaveStep) :
    Registry × Except SaveStep Bool :=
  r.mutateAdmin id (.withDisabled disabled) fails

def setRelay (r : Registry) (id : String) (relay : Bool) (fails : Option SaveStep) :
    Registry × Except SaveStep Bool :=
  r.mutateAdmin id (.withRelay relay) fails

def setNote (r : Registry) (id note : String) (fails : Option SaveStep) :
    Registry × Except SaveStep Bool :=
  r.mutateAdmin id (.withNote note) fails

def forget (r : Registry) (id : String) (fails : Option SaveStep) :
    Registry × Except SaveStep Bool :=
  if r.inner.known id then
    r.persist { r.inner with nodes := r.inner.nodes.erase id, admin := r.inner.admin.erase id }
      fails true
  else (r, .ok false)

def setAutoBalance (r : Registry) (enabled : Bool) (fails : Option SaveStep) :
    Registry × Except SaveStep Unit :=
  r.persist { r.inner with settings := { r.inner.settings with autoBalance := enabled } } fails ()

end Registry

end RustUma.Console
