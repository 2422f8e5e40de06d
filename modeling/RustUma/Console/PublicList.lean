import Mathlib.Data.Prod.Lex
import Mathlib.Order.WithBot
import RustUma.Console.Relays
import RustUma.Found.StableSort

/-!
# The public node list (`src/console/registry.rs` `public_list`)

Clients take the first node of the list. Nodes that are within a few percent of the emptiest one are
equally empty and are left in a random order; the others follow, the emptier first.

Counts are natural numbers: the ceiling is the source's as long as its product stays below `2 ^ 64`.
-/

namespace RustUma.Console

open RustUma.Found

/-! ## The keys of the nodes -/

lemma Inner.decideRelease_nodes (inner : Inner) (config : RegistryConfig) (id : String) (now : ℕ) :
    (inner.decideRelease config id now).1.nodes = inner.nodes ∨
      ∃ node node', inner.nodes.get? id = some node ∧
        (inner.decideRelease config id now).1.nodes = inner.nodes.put id node' ∧
        node'.heartbeat = node.heartbeat ∧ node'.desiredDrain = node.desiredDrain ∧
        node'.pendingRelease ≤ node.pendingRelease := by
  unfold Inner.decideRelease
  grind

def Keyed (nodes : Table String Node) : Prop :=
  ∀ id node, nodes.get? id = some node → node.heartbeat.nodeId = id

namespace Keyed

variable {config : RegistryConfig} {inner : Inner}

lemma put {nodes : Table String Node} (h : Keyed nodes) {id : String} {node : Node}
    (hid : node.heartbeat.nodeId = id) : Keyed (nodes.put id node) := by
  intro id' node' hget
  rw [Table.get?_put] at hget
  split_ifs at hget with heq
  · simp_all
  · exact h id' node' hget

lemma get?_of_mem {nodes : Table String Node} (h : Keyed nodes) {node : Node}
    (hmem : node ∈ nodes.values) : nodes.get? node.heartbeat.nodeId = some node := by
  obtain ⟨id, hget⟩ := Table.get?_of_mem_values hmem
  rw [h id node hget, hget]

lemma modifyNode (h : Keyed inner.nodes) (id : String) {f : Node → Node}
    (hf : ∀ node, (f node).heartbeat = node.heartbeat) :
    Keyed (inner.modifyNode id f).1.nodes := by
  unfold Inner.modifyNode
  split
  · next node hget => exact h.put (by rw [hf, h id node hget])
  · exact h

lemma decideRelease (h : Keyed inner.nodes) (id : String) (now : ℕ) :
    Keyed (inner.decideRelease config id now).1.nodes := by
  rcases inner.decideRelease_nodes config id now with heq | ⟨node, node', hget, heq, hhb, -⟩
  · rw [heq]
    exact h
  · rw [heq]
    exact h.put (by rw [hhb, h id node hget])

lemma heartbeat (h : Keyed inner.nodes) (hb : Heartbeat) (remoteIp : String) (now : ℕ) :
    Keyed (inner.heartbeat config hb remoteIp now).1.nodes := by
  unfold Inner.heartbeat
  have hput : ∀ {nodes : Table String Node}, Keyed nodes → ∀ node : Node, node.heartbeat = hb →
      Keyed (nodes.put hb.nodeId node) := by
    intro nodes hnodes node heq
    exact hnodes.put (by rw [heq])
  dsimp only
  split_ifs
  · simp_all
  · apply decideRelease
    exact hput h _ rfl

end Keyed

namespace Registry

variable {config : RegistryConfig} {r r' : Registry}

lemma keyed_mutateAdmin (h : Keyed r.inner.nodes) (id : String) (f : NodeAdmin → NodeAdmin)
    (fails : Option SaveStep) : Keyed (r.mutateAdmin id f fails).1.inner.nodes := by
  unfold mutateAdmin
  split_ifs <;> exact h

lemma keyed_step (h : Keyed r.inner.nodes) {a : RegistryAction}
    (hstep : r.step config a = some r') :
    Keyed r'.inner.nodes := by
  cases a with
  | action id action =>
    cases hstep
    unfold adminNodeAction
    split_ifs
    · exact h
    · cases action with
      | relay | unrelay | disable | enable => exact keyed_mutateAdmin h _ _ _
      | drain | undrain => exact h.modifyNode _ fun _ => rfl
      | forget =>
        unfold forget
        split_ifs
        · intro id' node hget
          by_cases hid : id' = id
          · rw [hid] at hget
            exact absurd (hget.symm.trans (Table.get?_erase_self _ _)) (by simp)
          · exact h id' node ((Table.get?_erase_of_ne hid).symm.trans hget)
        · exact h
      | unknown => exact h
  | release id count =>
    cases hstep
    unfold adminNodeRelease
    split_ifs
    · exact h
    · exact h
    · exact h.modifyNode _ fun _ => rfl
  | note id note =>
    cases hstep
    exact keyed_mutateAdmin h _ _ _
  | balance enabled =>
    cases hstep
    exact h
  | heartbeat hb remoteIp now =>
    cases hstep
    exact h.heartbeat hb remoteIp now
  | restart =>
    cases hstep
    intro id node hget
    cases hget

lemma keyed_run {file : JsonFile NodesFile} {as : List RegistryAction}
    (hrun : run (Registry.step config) (Registry.open file) as = some r) : Keyed r.inner.nodes := by
  refine run_invariant_of_step (I := fun r => Keyed r.inner.nodes) ?_ ?_ hrun
  · intro r a r' h hstep
    exact keyed_step h hstep
  · intro id node hget
    cases hget

end Registry

/-! ## The comparison -/

def compareListed (ceiling : ℕ) (a b : PublicNode) : Ordering :=
  match decide (a.clients ≤ ceiling), decide (b.clients ≤ ceiling) with
  | true, true => .eq
  | true, false => .lt
  | false, true => .gt
  | false, false =>
    (compare a.clients b.clients).then
      ((compare b.weight a.weight).then (compare a.nodeId b.nodeId))

def PublicNode.Before (a b : PublicNode) : Prop :=
  a.clients < b.clients ∨ a.clients = b.clients ∧
    (b.weight < a.weight ∨ a.weight = b.weight ∧ a.nodeId < b.nodeId)

def listedRank (ceiling : ℕ) (p : PublicNode) : WithBot (ℕ ×ₗ ℕᵒᵈ ×ₗ String) :=
  if p.clients ≤ ceiling then ⊥
  else ((toLex (p.clients, toLex (OrderDual.toDual p.weight, p.nodeId)) : ℕ ×ₗ ℕᵒᵈ ×ₗ String) :
    WithBot (ℕ ×ₗ ℕᵒᵈ ×ₗ String))

lemma listedBefore_iff (ceiling : ℕ) (a b : PublicNode) :
    Inner.listedBefore ceiling a b = true ↔ listedRank ceiling a ≤ listedRank ceiling b := by
  unfold Inner.listedBefore listedRank
  by_cases ha : a.clients ≤ ceiling <;> by_cases hb : b.clients ≤ ceiling
  · simp [ha, hb]
  · simp [ha, hb]
  · simp [ha, hb]
  · simp only [ha, hb, decide_false, decide_eq_true_eq, if_false, WithBot.coe_le_coe,
      Prod.Lex.toLex_le_toLex, OrderDual.toDual_lt_toDual, OrderDual.toDual_inj]

lemma then_ne_gt {α : Type*} [LinearOrder α] (a b : α) (o : Ordering) :
    (compare a b).then o ≠ .gt ↔ a < b ∨ a = b ∧ o ≠ .gt := by
  rcases lt_trichotomy a b with h | rfl | h
  · simp [compare_lt_iff_lt.mpr h, h]
  · simp
  · simp [compare_gt_iff_gt.mpr h, h.not_gt, h.ne']

lemma compareListed_ne_gt (ceiling : ℕ) (a b : PublicNode) :
    compareListed ceiling a b ≠ .gt ↔ Inner.listedBefore ceiling a b = true := by
  unfold compareListed Inner.listedBefore
  by_cases ha : a.clients ≤ ceiling <;> by_cases hb : b.clients ≤ ceiling
  · simp [ha, hb]
  · simp [ha, hb]
  · simp [ha, hb]
  · simp only [ha, hb, decide_false, decide_eq_true_eq]
    rw [then_ne_gt, then_ne_gt, compare_le_iff_le, eq_comm (a := b.weight)]

lemma compareListed_swap (ceiling : ℕ) (a b : PublicNode) :
    compareListed ceiling b a = (compareListed ceiling a b).swap := by
  unfold compareListed
  by_cases ha : a.clients ≤ ceiling <;> by_cases hb : b.clients ≤ ceiling
  · simp [ha, hb]
  · simp [ha, hb]
  · simp [ha, hb]
  · simp only [ha, hb, decide_false, Ordering.swap_then]
    rw [← Std.OrientedCmp.eq_swap, ← Std.OrientedCmp.eq_swap, ← Std.OrientedCmp.eq_swap]

lemma listedBefore_trans (ceiling : ℕ) (a b c : PublicNode)
    (hab : Inner.listedBefore ceiling a b = true) (hbc : Inner.listedBefore ceiling b c = true) :
    Inner.listedBefore ceiling a c = true := by
  rw [listedBefore_iff] at hab hbc ⊢
  exact hab.trans hbc

lemma listedBefore_total (ceiling : ℕ) (a b : PublicNode) :
    (Inner.listedBefore ceiling a b || Inner.listedBefore ceiling b a) = true := by
  simp [listedBefore_iff, le_total]

lemma listedBefore_of_le {ceiling : ℕ} {a : PublicNode} (ha : a.clients ≤ ceiling)
    (b : PublicNode) : Inner.listedBefore ceiling a b = true := by
  rw [listedBefore_iff]
  simp [listedRank, ha]

lemma listedBefore_of_lt {ceiling : ℕ} {a b : PublicNode} (ha : a.clients ≤ ceiling)
    (hb : ceiling < b.clients) : Inner.listedBefore ceiling b a = false := by
  simp [Inner.listedBefore, ha, hb.not_ge]

lemma PublicNode.before_of_listedBefore {ceiling : ℕ} {a b : PublicNode}
    (ha : ceiling < a.clients) (hb : ceiling < b.clients) (hid : a.nodeId ≠ b.nodeId)
    (h : Inner.listedBefore ceiling a b = true) : a.Before b := by
  simp only [Inner.listedBefore, ha.not_ge, hb.not_ge, decide_false, decide_eq_true_eq] at h
  refine h.imp_right fun ⟨hclients, h⟩ => ⟨hclients, h.imp_right fun ⟨hweight, hle⟩ => ?_⟩
  grind

/-! ## The list -/

namespace Inner

variable (config : RegistryConfig) (inner : Inner) (now : ℕ)

def listed : List PublicNode := (inner.serving config now).map publicNode

def listCeiling : ℕ :=
  let emptiest := ((inner.listed config now).map PublicNode.clients).min?.getD 0
  emptiest + emptiest * inner.settings.balanceSpreadPct / 100

variable {config inner now}

lemma nodup_listed (h : Keyed inner.nodes) :
    ((inner.listed config now).map PublicNode.nodeId).Nodup := by
  have hids : inner.nodes.values.map (fun node => node.heartbeat.nodeId) =
      inner.nodes.rows.map Prod.fst := by
    unfold Table.values
    rw [List.map_map]
    apply List.map_congr_left
    intro row hrow
    exact h row.1 row.2 (Table.get?_of_mem_rows hrow)
  have hkeys : (inner.nodes.rows.map Prod.fst).Nodup := by
    refine List.pairwise_map.mpr (inner.nodes.sorted.imp ?_)
    grind
  rw [listed, List.map_map]
  exact (List.filter_sublist.map _).nodup (hids ▸ hkeys)

end Inner

theorem public_list_right (config : RegistryConfig) (file : JsonFile NodesFile)
    {as : List RegistryAction} {r : Registry}
    (hrun : run (Registry.step config) (.open file) as = some r) (now ttlS : ℕ)
    {shuffle : List PublicNode → List PublicNode} (hshuffle : ∀ l, (shuffle l).Perm l) :
    let nodes := (r.inner.publicList config now shuffle ttlS).nodes
    let shuffled := shuffle (r.inner.listed config now)
    let ceiling := r.inner.listCeiling config now
    (∀ p, p ∈ nodes ↔ ∃ node ∈ r.inner.nodes.values,
      r.inner.status config now node = .serving ∧ Inner.publicNode node = p) ∧
    (nodes.map PublicNode.nodeId).Nodup ∧
    (∃ rest, nodes = shuffled.filter (·.clients ≤ ceiling) ++ rest ∧
      rest.Pairwise PublicNode.Before ∧ ∀ p ∈ rest, ceiling < p.clients) ∧
    (∀ c a b, compareListed c b a = (compareListed c a b).swap) ∧
    (∀ c a b d, compareListed c a b ≠ .gt → compareListed c b d ≠ .gt →
      compareListed c a d ≠ .gt) ∧
    ∀ sorted, StablySorted (fun a b => compareListed ceiling a b ≠ .gt) shuffled sorted →
      sorted = nodes := by
  intro nodes shuffled ceiling
  have hnodes : nodes = shuffled.mergeSort (Inner.listedBefore ceiling) := rfl
  have hperm : nodes.Perm (r.inner.listed config now) :=
    (List.mergeSort_perm _ _).trans (hshuffle _)
  have hids : (nodes.map PublicNode.nodeId).Nodup :=
    (hperm.map _).nodup_iff.mpr (Inner.nodup_listed (Registry.keyed_run hrun))
  have hnodup : shuffled.Nodup := (List.mergeSort_perm _ _).nodup_iff.mp (hids.of_map _)
  refine ⟨?_, hids, ?_, compareListed_swap, ?_, ?_⟩
  · intro p
    rw [hperm.mem_iff]
    simp [Inner.listed, Inner.serving, and_assoc]
  · have hband : nodes = _ := hnodes.trans (mergeSort_band (p := (·.clients ≤ ceiling))
      (listedBefore_trans ceiling) (listedBefore_total ceiling) hnodup ?_ ?_)
    · let rest := (shuffled.filter fun p => !decide (p.clients ≤ ceiling)).mergeSort
        (Inner.listedBefore ceiling)
      have habove : ∀ p ∈ rest, ceiling < p.clients := by simp [rest]
      have hrest : rest.Pairwise fun a b => Inner.listedBefore ceiling a b = true :=
        List.pairwise_mergeSort (listedBefore_trans ceiling) (listedBefore_total ceiling) _
      refine ⟨rest, hband, ?_, habove⟩
      rw [hband, List.map_append] at hids
      refine (hrest.and (List.pairwise_map.mp hids.of_append_right)).imp_of_mem ?_
      grind [PublicNode.before_of_listedBefore]
    · intro a b ha
      exact listedBefore_of_le (by simpa using ha) b
    grind [listedBefore_of_lt]
  · grind [compareListed_ne_gt, listedBefore_trans]
  · intro sorted hsorted
    have hle : (fun a b => decide (compareListed ceiling a b ≠ .gt)) =
        Inner.listedBefore ceiling := by
      funext a b
      rw [Bool.eq_iff_iff, decide_eq_true_iff, compareListed_ne_gt]
    rw [hle] at hsorted
    exact hsorted.unique hnodup
      (stablySorted_mergeSort (listedBefore_trans ceiling) (listedBefore_total ceiling) hnodup)

/-- Four serving nodes, two of them within five percent of the emptiest, and a full one; shuffled by
turning the list around. -/
theorem public_list_right_of_five :
    let config : RegistryConfig := ⟨15000, fun _ _ _ => 0⟩
    let report (id : String) (clients : ℕ) : RegistryAction :=
      .heartbeat { testHeartbeat id with clients := clients, maxClients := 1000 } "10.0.0.1" 1
    let shown (id : String) (clients : ℕ) : PublicNode :=
      ⟨id, "ws://10.0.0.1:8012/uma/v1/ws", 1000 - clients, clients⟩
    ∃ r, run (Registry.step config) (.open ⟨none, .absent⟩)
        [report "a" 105, report "b" 300, report "c" 1000, report "d" 100, report "e" 200] =
          some r ∧
      (r.inner.publicList config 2 List.reverse 1).nodes =
        [shown "d" 100, shown "a" 105, shown "e" 200, shown "b" 300] := by
  intro config report shown
  have hvals : (run (Registry.step config) (.open ⟨none, .absent⟩)
        [report "a" 105, report "b" 300, report "c" 1000, report "d" 100, report "e" 200]).map
      (fun r => (r.inner.listed config 2, r.inner.listCeiling config 2)) =
      some ([shown "a" 105, shown "b" 300, shown "d" 100, shown "e" 200], 105) := by
    decide +kernel
  obtain ⟨r, hr, hvals⟩ := Option.map_eq_some_iff.mp hvals
  obtain ⟨hlisted, hceiling⟩ := Prod.mk.inj hvals
  obtain ⟨-, -, -, -, -, hstable⟩ :=
    public_list_right config ⟨none, .absent⟩ hr 2 1 fun l => List.reverse_perm l
  refine ⟨r, hr, (hstable _ ?_).symm⟩
  rw [hlisted, hceiling]
  exact ⟨by decide, by decide⟩

end RustUma.Console
