import RustUma.Console.PublicList
import RustUma.Found.Transfer

/-!
# The balancer (`src/console/registry.rs` `decide_release`, `balance_excess`)

The busiest node is told to release connections, at most half of what it has more than the emptiest
one, and they come back to the emptiest. The console compares what the nodes last reported.
-/

namespace RustUma.Console

open RustUma.Found

variable {config : RegistryConfig}

/-! ## What is decided -/

namespace Inner

variable {inner : Inner} {now : ℕ} {id : String}

lemma asI64_le (n : ℕ) : asI64 n ≤ n := by
  rw [asI64, BitVec.toInt_ofNat', Int.bmod_def]
  split <;> omega

lemma asI64_of_lt {n : ℕ} (h : n < 2 ^ 63) : asI64 n = n := by
  rw [asI64, BitVec.toInt_ofNat', Int.bmod_def]
  split <;> omega

def busierOf (best : Option Node) (node : Node) : Option Node :=
  match best with
  | none => some node
  | some top => if busier top node then some node else some top

lemma exists_busierOf (best : Option Node) (node : Node) :
    ∃ kept, busierOf best node = some kept ∧ (kept = node ∨ best = some kept) ∧
      node.heartbeat.clients ≤ kept.heartbeat.clients ∧
      ∀ top, best = some top → top.heartbeat.clients ≤ kept.heartbeat.clients := by
  cases best with
  | none => simp [busierOf]
  | some top =>
    by_cases hbusier : busier top node
    · refine ⟨node, by simp [busierOf, hbusier], Or.inl rfl, le_rfl, ?_⟩
      intro top' htop
      cases htop
      simp only [busier, decide_eq_true_eq] at hbusier
      omega
    · refine ⟨top, by simp [busierOf, hbusier], Or.inr rfl, ?_, by simp⟩
      simp only [busier, decide_eq_true_eq] at hbusier
      omega

lemma foldl_busierOf {l : List Node} {best : Option Node} {top : Node}
    (h : l.foldl busierOf best = some top) :
    (top ∈ l ∨ best = some top) ∧
      ∀ node, node ∈ l ∨ best = some node → node.heartbeat.clients ≤ top.heartbeat.clients := by
  induction l generalizing best with
  | nil => simp_all
  | cons x l ih =>
    obtain ⟨kept, hkept, hfrom, hx, hbest⟩ := exists_busierOf best x
    grind

lemma exists_busiest (h : inner.busiestSheddable config now = some id) :
    ∃ top ∈ inner.sheddable config now, top.heartbeat.nodeId = id ∧
      ∀ node ∈ inner.sheddable config now, node.heartbeat.clients ≤ top.heartbeat.clients := by
  obtain ⟨top, htop, hid⟩ := Option.map_eq_some_iff.mp h
  obtain ⟨hmem, hmax⟩ := foldl_busierOf htop
  grind

variable (config inner now id) in
def othersSpare : ℕ :=
  (((inner.serving config now).filter fun node => node.heartbeat.nodeId ≠ id).map
    fun node => node.heartbeat.maxClients - node.heartbeat.clients).sum

lemma balanceExcess_spec (h : 1 ≤ inner.balanceExcess config now id) :
    ∃ me ∈ inner.sheddable config now, me.heartbeat.nodeId = id ∧
      inner.balanceExcess config now id ≤ me.heartbeat.clients ∧
      inner.balanceExcess config now id ≤ inner.othersSpare config now id ∧
      ∀ receiver ∈ inner.serving config now,
        (∀ node ∈ inner.serving config now, receiver.heartbeat.clients ≤ node.heartbeat.clients) →
        inner.balanceExcess config now id ≤
          ((me.heartbeat.clients - receiver.heartbeat.clients) / 2 : ℕ) := by
  unfold balanceExcess at h ⊢
  cases hme : (inner.sheddable config now).find? fun node => node.heartbeat.nodeId = id with
  | none => simp [hme] at h
  | some me =>
    rw [hme] at h
    dsimp only at h ⊢
    split_ifs at h ⊢ with hspare
    · omega
    have hhalf : ∀ {x y : ℤ} {n : ℕ}, min (min x (asI64 n)) y ≤ n :=
      (min_le_left _ _).trans ((min_le_right _ _).trans (asI64_le _))
    refine ⟨me, List.mem_of_find?_eq_some hme, by grind, ?_, ?_, ?_⟩
    · grind
    · exact (min_le_right _ _).trans (asI64_le _)
    · intro receiver hreceiver hemptiest
      refine hhalf.trans ?_
      have hle : receiver.heartbeat.clients ≤ ((inner.serving config now).map
          fun node => node.heartbeat.clients).min?.getD 0 := by
        cases hmin : ((inner.serving config now).map fun node => node.heartbeat.clients).min? with
        | none =>
          simp_all
        | some m =>
          obtain ⟨node, hnode, rfl⟩ := List.mem_map.mp (List.min?_mem hmin)
          grind
      omega

lemma decideRelease_spec {node : Node} (hget : inner.nodes.get? id = some node)
    (hidle : node.pendingRelease = 0) (hn : (inner.decideRelease config id now).2.1 ≠ 0) :
    inner.busiestSheddable config now = some id ∧
      asI64 inner.settings.balanceMinExcess ≤ inner.balanceExcess config now id ∧
      (inner.decideRelease config id now).2.1 =
        min (inner.balanceExcess config now id % 2 ^ 64).toNat
          (max inner.settings.releaseBatch 1) := by
  unfold decideRelease at hn ⊢
  grind

def reported (inner : Inner) (hb : Heartbeat) (remoteIp : String) (now : ℕ) : Inner :=
  let known := inner.nodes.get? hb.nodeId
  let node := known.getD (.fresh remoteIp now)
  let restarted := known.isSome && node.heartbeat.startedAtMs ≠ 0 &&
    node.heartbeat.startedAtMs ≠ hb.startedAtMs
  { inner with nodes := inner.nodes.put hb.nodeId { node with
      heartbeat := hb
      remoteIp := remoteIp
      lastSeenMs := now
      desiredDrain := node.desiredDrain && !restarted } }

variable (config) in
lemma heartbeat_release {hb : Heartbeat} (remoteIp : String) (now : ℕ)
    (h : (inner.adminOf hb.nodeId).relay = false) :
    (inner.heartbeat config hb remoteIp now).1 =
        ((inner.reported hb remoteIp now).decideRelease config hb.nodeId now).1 ∧
      (inner.heartbeat config hb remoteIp now).2.release =
        ((inner.reported hb remoteIp now).decideRelease config hb.nodeId now).2.1 := by
  unfold heartbeat
  dsimp only
  rw [if_neg (by exact ne_true_of_eq_false h)]
  exact ⟨rfl, rfl⟩

lemma mem_values_decideRelease {node : Node}
    (h : node ∈ (inner.decideRelease config id now).1.nodes.values) :
    ∃ before ∈ inner.nodes.values, node.heartbeat = before.heartbeat ∧
      node.pendingRelease ≤ before.pendingRelease := by
  rcases inner.decideRelease_nodes config id now with heq | ⟨old, new, hget, heq, hhb, -, hpending⟩
  · grind
  · rw [heq, Table.mem_values_put] at h
    rcases h with rfl | ⟨id', -, hget'⟩
    · exact ⟨old, Table.mem_values_of_get? hget, hhb, hpending⟩
    · exact ⟨node, Table.mem_values_of_get? hget', rfl, le_rfl⟩

lemma isSome_decideRelease (id' : String) :
    ((inner.decideRelease config id now).1.nodes.get? id').isSome =
      (inner.nodes.get? id').isSome := by
  rcases inner.decideRelease_nodes config id now with heq | ⟨old, new, hget, heq, -⟩
  · rw [heq]
  · rw [heq, Table.get?_put]
    grind

lemma relay_eq_false {node : Node} (h : inner.status config now node = .serving ∨
    inner.status config now node = .full) :
    (inner.adminOf node.heartbeat.nodeId).relay = false := by
  by_contra hrelay
  simp only [status, statusOf, Bool.not_eq_false] at h hrelay
  grind

end Inner

structure Settings.Tuned (settings : Settings) : Prop where
  batch : 1 ≤ settings.releaseBatch
  excess : 1 ≤ settings.balanceMinExcess
  excess_lt : settings.balanceMinExcess < 2 ^ 63

/-! ## A closed cluster -/

structure Cluster where
  inner : Inner
  clients : String → ℕ

structure Beat where
  hb : Heartbeat
  remoteIp : String
  now : ℕ
  receiver : String

namespace Cluster

variable (config) (maxClients : ℕ) (c : Cluster) (b : Beat)

def view : Inner := c.inner.reported b.hb b.remoteIp b.now

def release : ℕ := (c.inner.heartbeat config b.hb b.remoteIp b.now).2.release

def step : Option Cluster :=
  let view := c.view b
  if (c.inner.nodes.get? b.hb.nodeId).isSome ∧ b.hb.clients = c.clients b.hb.nodeId ∧
      b.hb.maxClients = maxClients ∧
      (∀ node ∈ view.nodes.values, view.status config b.now node = .serving ∨
        view.status config b.now node = .full) ∧
      (c.release config b = 0 ∨ ∃ receiver ∈ view.serving config b.now,
        receiver.heartbeat.nodeId = b.receiver ∧ ∀ node ∈ view.serving config b.now,
          c.clients b.receiver ≤ c.clients node.heartbeat.nodeId) then
    some ⟨(c.inner.heartbeat config b.hb b.remoteIp b.now).1,
      move c.clients b.hb.nodeId b.receiver (c.release config b)⟩
  else none

def ids : Finset String := (c.inner.nodes.rows.map Prod.fst).toFinset

def total : ℕ := ∑ id ∈ c.ids, c.clients id

def squares : ℕ := ∑ id ∈ c.ids, c.clients id ^ 2

structure Closed : Prop where
  keyed : Keyed c.inner.nodes
  idle : ∀ node ∈ c.inner.nodes.values,
    node.pendingRelease = 0 ∧ node.heartbeat.maxClients = maxClients

def Current : Prop :=
  ∀ node ∈ c.inner.nodes.values, node.heartbeat.nodeId ≠ b.hb.nodeId →
    node.heartbeat.clients = c.clients node.heartbeat.nodeId

variable {config maxClients c b} {c' : Cluster}

lemma mem_ids {id : String} : id ∈ c.ids ↔ (c.inner.nodes.get? id).isSome := by
  rw [ids, List.mem_toFinset, List.mem_map, Option.isSome_iff_exists]
  constructor
  · rintro ⟨row, hrow, rfl⟩
    exact ⟨row.2, Table.get?_of_mem_rows hrow⟩
  · rintro ⟨node, hget⟩
    exact ⟨_, Table.mem_rows_of_get? hget, rfl⟩

structure Stepped (config : RegistryConfig) (maxClients : ℕ) (c : Cluster) (b : Beat)
    (c' : Cluster) : Prop where
  known : b.hb.nodeId ∈ c.ids
  clients : b.hb.clients = c.clients b.hb.nodeId
  capacity : b.hb.maxClients = maxClients
  working : ∀ node ∈ (c.view b).nodes.values, node ∈ (c.view b).sheddable config b.now
  receiver : c.release config b ≠ 0 → ∃ receiver ∈ (c.view b).serving config b.now,
    receiver.heartbeat.nodeId = b.receiver ∧ ∀ node ∈ (c.view b).serving config b.now,
      c.clients b.receiver ≤ c.clients node.heartbeat.nodeId
  decided : c'.inner = ((c.view b).decideRelease config b.hb.nodeId b.now).1
  told : c.release config b = ((c.view b).decideRelease config b.hb.nodeId b.now).2.1
  moved : c'.clients = move c.clients b.hb.nodeId b.receiver (c.release config b)

lemma stepped (h : c.step config maxClients b = some c') : Stepped config maxClients c b c' := by
  unfold step at h
  dsimp only at h
  split_ifs at h with hguard
  obtain ⟨hknown, hclients, hcapacity, hworking, hreceiver⟩ := hguard
  have hrelay : (c.inner.adminOf b.hb.nodeId).relay = false := by
    exact Inner.relay_eq_false
      (hworking _ (Table.mem_values_of_get? (Table.get?_put_self c.inner.nodes b.hb.nodeId _)))
  obtain ⟨hinner, hrelease⟩ := Inner.heartbeat_release config b.remoteIp b.now hrelay
  cases h
  exact {
    known := mem_ids.mpr hknown
    clients := hclients
    capacity := hcapacity
    working := fun node hnode => List.mem_filter.mpr ⟨hnode, decide_eq_true (hworking node hnode)⟩
    receiver := hreceiver.resolve_left
    decided := hinner
    told := hrelease
    moved := rfl }

lemma Closed.keyed_view (h : c.Closed maxClients) : Keyed (c.view b).nodes := h.keyed.put rfl

lemma Closed.heartbeat_view (h : c.Closed maxClients) {node : Node}
    (hnode : node ∈ (c.view b).nodes.values) (hid : node.heartbeat.nodeId = b.hb.nodeId) :
    node.heartbeat = b.hb := by
  have hget := h.keyed_view.get?_of_mem hnode
  rw [hid] at hget
  cases (Table.get?_put_self _ _ _).symm.trans hget
  rfl

lemma Stepped.mem_ids_of_view (hs : Stepped config maxClients c b c') (h : c.Closed maxClients)
    {node : Node} (hnode : node ∈ (c.view b).nodes.values) : node.heartbeat.nodeId ∈ c.ids := by
  have hget := (Table.get?_put _ _ _ _).symm.trans (h.keyed_view.get?_of_mem hnode)
  split_ifs at hget with hid
  · rw [hid]
    exact hs.known
  · exact mem_ids.mpr (Option.isSome_of_eq_some hget)

lemma Closed.idle_view (h : c.Closed maxClients) (hcapacity : b.hb.maxClients = maxClients)
    {node : Node} (hnode : node ∈ (c.view b).nodes.values) :
    node.pendingRelease = 0 ∧ node.heartbeat.maxClients = maxClients := by
  rcases Table.mem_values_put.mp hnode with rfl | ⟨id, -, hget⟩
  · refine ⟨?_, hcapacity⟩
    cases hget : c.inner.nodes.get? b.hb.nodeId with
    | none => rfl
    | some node => exact (h.idle node (Table.mem_values_of_get? hget)).1
  · exact h.idle node (Table.mem_values_of_get? hget)

namespace Stepped

variable (hs : Stepped config maxClients c b c')

include hs

lemma closed (h : c.Closed maxClients) :
    c'.Closed maxClients ∧ c'.ids = c.ids ∧ c'.inner.settings = c.inner.settings := by
  refine ⟨⟨?_, ?_⟩, ?_, ?_⟩
  · rw [hs.decided]
    exact h.keyed_view.decideRelease _ _
  · intro node hnode
    rw [hs.decided] at hnode
    obtain ⟨before, hbefore, hhb, hpending⟩ := Inner.mem_values_decideRelease hnode
    obtain ⟨hidle, hcapacity⟩ := h.idle_view hs.capacity hbefore
    simp_all
  · ext id
    rw [mem_ids, mem_ids, hs.decided, Inner.isSome_decideRelease]
    unfold view Inner.reported
    rw [Table.get?_put]
    split_ifs with hid
    · simp [hid, mem_ids.mp hs.known]
    · rfl
  · rw [hs.decided]
    exact congrArg NodesFile.settings (Inner.decideRelease_toFile _ _)

lemma recorded (h : c.Closed maxClients) (hcurrent : c.Current b) {node : Node}
    (hnode : node ∈ (c.view b).nodes.values) :
    node.heartbeat.clients = c.clients node.heartbeat.nodeId := by
  rcases Table.mem_values_put.mp hnode with rfl | ⟨id, hid, hget⟩
  · exact hs.clients
  · refine hcurrent node (Table.mem_values_of_get? hget) ?_
    rw [h.keyed id node hget]
    exact hid

lemma released (h : c.Closed maxClients) (htuned : c.inner.settings.Tuned)
    (hn : c.release config b ≠ 0) :
    c.release config b ≤ c.inner.settings.releaseBatch ∧
      c.release config b ≤ c.clients b.hb.nodeId ∧
      c.release config b ≤ (c.view b).othersSpare config b.now b.hb.nodeId ∧
      (∀ node ∈ (c.view b).nodes.values, node.heartbeat.clients ≤ c.clients b.hb.nodeId) ∧
      ∀ receiver ∈ (c.view b).serving config b.now,
        (∀ node ∈ (c.view b).serving config b.now,
          receiver.heartbeat.clients ≤ node.heartbeat.clients) →
        c.release config b ≤ (c.clients b.hb.nodeId - receiver.heartbeat.clients) / 2 := by
  obtain ⟨node, hget⟩ : ∃ node, (c.view b).nodes.get? b.hb.nodeId = some node :=
    ⟨_, Table.get?_put_self _ _ _⟩
  have hidle := h.idle_view hs.capacity (Table.mem_values_of_get? hget)
  rw [hs.told] at hn ⊢
  obtain ⟨hbusiest, hexcess, hrelease⟩ := Inner.decideRelease_spec hget hidle.1 hn
  have hpos : 1 ≤ (c.view b).balanceExcess config b.now b.hb.nodeId := by
    refine le_trans ?_ hexcess
    show 1 ≤ Inner.asI64 c.inner.settings.balanceMinExcess
    rw [Inner.asI64_of_lt htuned.excess_lt]
    exact_mod_cast htuned.excess
  obtain ⟨me, hme, hid, hown, hspare, hgap⟩ := Inner.balanceExcess_spec hpos
  rw [h.heartbeat_view (List.mem_filter.mp hme).1 hid, hs.clients] at hown hgap
  obtain ⟨top, htop, hid', hmax⟩ := Inner.exists_busiest hbusiest
  rw [hrelease]
  refine ⟨?_, by omega, by omega, ?_, ?_⟩
  · rw [max_eq_left (show 1 ≤ (c.view b).settings.releaseBatch from htuned.batch)]
    exact min_le_right _ _
  · intro node hnode
    rw [← hs.clients, ← h.heartbeat_view (List.mem_filter.mp htop).1 hid']
    exact hmax node (hs.working node hnode)
  grind

end Stepped

variable (config maxClients c b c') in
structure Moves : Prop where
  le_batch : c.release config b ≤ c.inner.settings.releaseBatch
  le_half_gap : c.release config b ≤ (c.clients b.hb.nodeId - c.clients b.receiver) / 2
  le_spare : c.release config b ≤ ((((c.view b).serving config b.now).filter fun node =>
    node.heartbeat.nodeId ≠ b.hb.nodeId).map fun node =>
      maxClients - c.clients node.heartbeat.nodeId).sum
  busiest : ∀ id ∈ c.ids, c.clients id ≤ c.clients b.hb.nodeId
  no_busier : c'.clients b.receiver ≤ c'.clients b.hb.nodeId
  squares : c'.squares < c.squares

lemma Stepped.total_eq (hs : Stepped config maxClients c b c') (h : c.Closed maxClients)
    (htuned : c.inner.settings.Tuned) : c'.total = c.total := by
  obtain ⟨-, hids, -⟩ := hs.closed h
  unfold total
  rw [hids, hs.moved]
  by_cases hn : c.release config b = 0
  · rw [hn, move_zero]
  · obtain ⟨-, hown, -⟩ := hs.released h htuned hn
    obtain ⟨receiver, hreceiver, hid, -⟩ := hs.receiver hn
    have hmem := hs.mem_ids_of_view h (List.mem_filter.mp hreceiver).1
    exact sum_move hs.known (hid ▸ hmem) hown

lemma Stepped.moves (hs : Stepped config maxClients c b c') (h : c.Closed maxClients)
    (htuned : c.inner.settings.Tuned) (hcurrent : c.Current b) (hn : c.release config b ≠ 0) :
    Moves config maxClients c b c' := by
  obtain ⟨hbatch, hown, hspare, hmax, hgap⟩ := hs.released h htuned hn
  obtain ⟨receiver, hreceiver, hid, hemptiest⟩ := hs.receiver hn
  have hrecorded : ∀ node ∈ (c.view b).nodes.values,
      node.heartbeat.clients = c.clients node.heartbeat.nodeId :=
    fun node => hs.recorded h hcurrent
  have hserving : ∀ node ∈ (c.view b).serving config b.now, node ∈ (c.view b).nodes.values :=
    fun node hnode => (List.mem_filter.mp hnode).1
  have hhalf : c.release config b ≤ (c.clients b.hb.nodeId - c.clients b.receiver) / 2 := by
    grind
  have hne : b.hb.nodeId ≠ b.receiver := by
    grind
  have hmem : b.receiver ∈ c.ids := hid ▸ hs.mem_ids_of_view h (hserving receiver hreceiver)
  obtain ⟨-, hids, -⟩ := hs.closed h
  constructor
  · exact hbatch
  · exact hhalf
  · refine hspare.trans_eq (congrArg List.sum (List.map_congr_left ?_))
    intro node hnode
    have hvalues := hserving node (List.mem_filter.mp hnode).1
    rw [hrecorded _ hvalues, (h.idle_view hs.capacity hvalues).2]
  · intro id hmem
    obtain ⟨node, hget⟩ := Option.isSome_iff_exists.mp (mem_ids.mp hmem)
    by_cases hself : id = b.hb.nodeId
    · rw [hself]
    · have hvalues : node ∈ (c.view b).nodes.values :=
        Table.mem_values_put.mpr (Or.inr ⟨id, hself, hget⟩)
      have hle := hmax node hvalues
      rwa [hrecorded _ hvalues, h.keyed id node hget] at hle
  · rw [hs.moved, move_of_ne hne, move_of_ne hne]
    grind
  · unfold squares
    rw [hids, hs.moved]
    apply sum_sq_move_lt hs.known hmem <;> omega

end Cluster

theorem auto_balance_converges (config : RegistryConfig) (maxClients : ℕ) {c₀ : Cluster}
    (hclosed : c₀.Closed maxClients) (htuned : c₀.inner.settings.Tuned) :
    (∀ bs c b c', run (Cluster.step config maxClients) c₀ bs = some c →
      c.step config maxClients b = some c' →
        c'.total = c₀.total ∧
        (c.Current b → c.release config b ≠ 0 → Cluster.Moves config maxClients c b c')) ∧
    ∀ (cs : ℕ → Cluster) (bs : ℕ → Beat), cs 0 = c₀ →
      (∀ k, (cs k).step config maxClients (bs k) = some (cs (k + 1))) →
      (∀ k, (cs k).release config (bs k) ≠ 0 → (cs k).Current (bs k)) →
      ∃ N, ∀ k, N ≤ k → (cs k).release config (bs k) = 0 := by
  let I (c : Cluster) : Prop :=
    c.Closed maxClients ∧ c.inner.settings.Tuned ∧ c.total = c₀.total
  have hstep : ∀ c b c', I c → c.step config maxClients b = some c' → I c' := by
    rintro c b c' ⟨hc, ht, htotal⟩ hstep
    have hs := Cluster.stepped hstep
    obtain ⟨hc', -, hsettings⟩ := hs.closed hc
    exact ⟨hc', hsettings ▸ ht, (hs.total_eq hc ht).trans htotal⟩
  have hinit : I c₀ := ⟨hclosed, htuned, rfl⟩
  constructor
  · intro bs c b c' hrun hb
    have hc : I c := run_invariant_of_step hstep hinit hrun
    exact ⟨(hstep c b c' hc hb).2.2, (Cluster.stepped hb).moves hc.1 hc.2.1⟩
  · rintro cs bs rfl hsteps hcurrent
    have hI : ∀ k, I (cs k) := by
      intro k
      induction k with
      | zero => exact hinit
      | succ k ih => grind
    have hlt : ∀ k, (cs k).release config (bs k) ≠ 0 → (cs (k + 1)).squares < (cs k).squares := by
      intro k hn
      exact ((Cluster.stepped (hsteps k)).moves (hI k).1 (hI k).2.1 (hcurrent k hn) hn).squares
    have hle : ∀ k, (cs (k + 1)).squares ≤ (cs k).squares := by
      intro k
      by_cases hn : (cs k).release config (bs k) = 0
      · have hs := Cluster.stepped (hsteps k)
        unfold Cluster.squares
        rw [(hs.closed (hI k).1).2.1, hs.moved, hn, move_zero]
      · exact (hlt k hn).le
    obtain ⟨N, hN⟩ := exists_quiet (g := fun k => (cs k).squares) hle hlt
    exact ⟨N, fun k hk => not_not.mp (hN k hk)⟩

def testBalance : RegistryConfig where
  staleAfterMs := 15000
  floorExcess clients emptiest pct := ((clients : ℤ) * 100 - emptiest * (100 + pct)) / 100

def testReport (id : String) (clients : ℕ) : Heartbeat :=
  { testHeartbeat id with clients := clients }

def testBeat (id : String) (clients : ℕ) (receiver : String) : Beat :=
  ⟨testReport id clients, "10.0.0.1", 2, receiver⟩

def testCluster : Cluster where
  inner := ((Inner.heartbeat testBalance ⟨.empty, .empty, {}⟩ (testReport "a" 40) "10.0.0.1"
    1).1.heartbeat testBalance (testReport "b" 0) "10.0.0.2" 1).1
  clients id := if id = "a" then 40 else 0

lemma closed_testCluster : testCluster.Closed 100 where
  keyed := by
    apply Keyed.heartbeat
    apply Keyed.heartbeat
    intro id node hget
    cases hget
  idle := by decide +kernel

lemma tuned_testCluster : testCluster.inner.settings.Tuned :=
  ⟨by decide +kernel, by decide +kernel, by decide +kernel⟩

/-- The busy node releases a batch to the empty one. -/
theorem auto_balance_converges_of_two :
    ∃ c, testCluster.step testBalance 100 (testBeat "a" 40 "b") = some c ∧
      testCluster.release testBalance (testBeat "a" 40 "b") = 20 ∧ c.total = testCluster.total ∧
      c.clients "b" ≤ c.clients "a" ∧ c.squares < testCluster.squares := by
  have hcurrent : testCluster.Current (testBeat "a" 40 "b") := by
    unfold Cluster.Current
    decide +kernel
  refine exists_some_imp (P := fun _ => testCluster.release testBalance (testBeat "a" 40 "b") = 20)
    (by decide +kernel) ?_
  intro c hstep hrelease
  obtain ⟨htotal, hmoves⟩ := (auto_balance_converges testBalance 100 closed_testCluster
    tuned_testCluster).1 [] _ _ c rfl hstep
  have hmoved := hmoves hcurrent (by decide)
  exact ⟨hrelease, htotal, hmoved.no_busier, hmoved.squares⟩

/-- The busy node reports a second time before the empty one does. It is told to release half of a
gap that is closed by now, and the receiver is left with three times as many. -/
theorem balance_overshoots :
    testCluster.Closed 100 ∧ testCluster.inner.settings.Tuned ∧
    ∃ c c', run (Cluster.step testBalance 100) testCluster [testBeat "a" 40 "b"] = some c ∧
      c.step testBalance 100 (testBeat "a" 20 "b") = some c' ∧
      c.clients "a" = 20 ∧ c.clients "b" = 20 ∧
      c.release testBalance (testBeat "a" 20 "b") = 10 ∧
      c'.clients "a" = 10 ∧ c'.clients "b" = 30 ∧ c.squares < c'.squares :=
  ⟨closed_testCluster, tuned_testCluster, exists_some₂_imp (by decide +kernel) fun _ _ _ _ h => h⟩

end RustUma.Console
