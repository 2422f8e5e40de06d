import RustUma.Found.Run

/-!
# Pending transactions (`tools/p2p-mempool-probe/main.go` `onAnnounce`, `onTx`, `handle`, `prune`)

A transaction is known by its hash. What is counted for a peer does not matter here.
-/

namespace RustUma.Probe

open RustUma.Found

inductive Via where
  | push
  | fetch
  deriving DecidableEq

structure TxInfo (Peer : Type) where
  announceUs : ℕ
  firstUs : ℕ
  peer : Peer
  fetched : Bool := false
  fullUs : Option ℕ := none

structure P2pMatch (Peer Hash : Type) where
  hash : Hash
  matched : String
  announceUs : ℕ
  fullUs : ℕ
  via : Via
  peer : Peer
  firstUs : ℕ

structure NewPooledTransactionHashes (Hash : Type) where
  types : List ℕ
  sizes : List ℕ
  hashes : List Hash

structure Pool (Peer Hash : Type) where
  txs : Hash → Option (TxInfo Peer) := fun _ => none
  lines : List (P2pMatch Peer Hash) := []
  connected : Peer → Bool := fun _ => false
  asked : Peer → List (List Hash) := fun _ => []
  incoming : Peer → List (Via × Hash) := fun _ => []

inductive PoolAction (Peer Hash : Type) where
  | connect (peer : Peer)
  | disconnect (peer : Peer)
  | announce (now : ℕ) (peer : Peer) (pkt : NewPooledTransactionHashes Hash)
  | response (peer : Peer) (request : Option ℕ) (txs : List Hash)
  | push (peer : Peer) (txs : List Hash)
  | handle (now : ℕ) (peer : Peer)
  | prune (now : ℕ)

variable {Peer Hash : Type}

def NewPooledTransactionHashes.fits (pkt : NewPooledTransactionHashes Hash) (i : ℕ) : Bool :=
  pkt.types[i]? != some 3 && !(pkt.sizes[i]?.any fun size => decide (256 * 1024 < size))

namespace Pool

section Tables

variable [DecidableEq Hash]

def announceOne (now : ℕ) (peer : Peer) (pkt : NewPooledTransactionHashes Hash)
    (acc : (Hash → Option (TxInfo Peer)) × List Hash) (item : Hash × ℕ) :
    (Hash → Option (TxInfo Peer)) × List Hash :=
  let info := (acc.1 item.1).getD { announceUs := now, firstUs := now, peer := peer }
  if info.fetched ∨ info.fullUs.isSome ∨ ¬pkt.fits item.2 then
    (Function.update acc.1 item.1 (some info), acc.2)
  else (Function.update acc.1 item.1 (some { info with fetched := true }), acc.2 ++ [item.1])

def onAnnounce (now : ℕ) (peer : Peer) (pkt : NewPooledTransactionHashes Hash)
    (txs : Hash → Option (TxInfo Peer)) : (Hash → Option (TxInfo Peer)) × List Hash :=
  pkt.hashes.zipIdx.foldl (announceOne now peer pkt) (txs, [])

def requests (fetch : List Hash) : List (List Hash) :=
  (List.range ((fetch.length + 255) / 256)).map fun k => (fetch.drop (256 * k)).take 256

def onTx (classify : Hash → Option String) (now : ℕ) (peer : Peer) (tx : Via × Hash)
    (s : Pool Peer Hash) : Pool Peer Hash :=
  let info := (s.txs tx.2).getD { announceUs := now, firstUs := now, peer := peer }
  if info.fullUs.isSome then s
  else
    { s with
      txs := Function.update s.txs tx.2 (some { info with fullUs := some now })
      lines := s.lines ++ ((classify tx.2).map fun m =>
        ⟨tx.2, m, info.announceUs, now, tx.1, info.peer, info.firstUs⟩).toList }

end Tables

def keptUs : ℕ := 900000000

def step [DecidableEq Peer] [DecidableEq Hash] (classify : Hash → Option String) (s : Pool Peer Hash) :
    PoolAction Peer Hash → Option (Pool Peer Hash)
  | .connect peer =>
    if s.connected peer then none
    else some { s with connected := Function.update s.connected peer true }
  | .disconnect peer =>
    if s.connected peer ∧ s.incoming peer = [] then
      some { s with
        connected := Function.update s.connected peer false
        asked := Function.update s.asked peer [] }
    else none
  | .announce now peer pkt =>
    if s.connected peer ∧ s.incoming peer = [] then
      let next := onAnnounce now peer pkt s.txs
      some { s with
        txs := next.1
        asked := Function.update s.asked peer (s.asked peer ++ requests next.2) }
    else none
  | .response peer request txs =>
    if s.connected peer ∧ s.incoming peer = [] then
      some { s with
        asked := match request with
          | some i => Function.update s.asked peer ((s.asked peer).eraseIdx i)
          | none => s.asked
        incoming := Function.update s.incoming peer (txs.map (.fetch, ·)) }
    else none
  | .push peer txs =>
    if s.connected peer ∧ s.incoming peer = [] then
      some { s with incoming := Function.update s.incoming peer (txs.map (.push, ·)) }
    else none
  | .handle now peer =>
    match s.incoming peer with
    | tx :: rest =>
      some (onTx classify now peer tx { s with incoming := Function.update s.incoming peer rest })
    | [] => none
  | .prune now =>
    some { s with txs := fun h => (s.txs h).filter fun info => !decide (info.firstUs < now - keptUs) }

def Withheld (s : Pool Peer Hash) (h : Hash) : Prop :=
  ∃ info, s.txs h = some info ∧ info.fetched = true ∧ info.fullUs = none

def Answers (peer : Peer) (s : Pool Peer Hash) : PoolAction Peer Hash → Prop
  | .disconnect other => other ≠ peer
  | .response other (some i) txs => other = peer → ∀ r, (s.asked peer)[i]? = some r → r ⊆ txs
  | _ => True

def Emitted (s : Pool Peer Hash) (h : Hash) (m : String) : Prop :=
  ∃ line ∈ s.lines, line.hash = h ∧ line.matched = m

lemma mem_requests {fetch : List Hash} {h : Hash} (hmem : h ∈ fetch) :
    ∃ r ∈ requests fetch, h ∈ r := by
  obtain ⟨j, hj, rfl⟩ := List.getElem_of_mem hmem
  refine ⟨_, List.mem_map.mpr ⟨j / 256, List.mem_range.mpr (by omega), rfl⟩, ?_⟩
  refine List.mem_of_getElem? (i := j % 256) ?_
  grind

section Announce

variable [DecidableEq Hash] {now : ℕ} {peer : Peer} {pkt : NewPooledTransactionHashes Hash} {h : Hash} {P : Prop}
  {acc : (Hash → Option (TxInfo Peer)) × List Hash} {item : Hash × ℕ}

def Fetching (h : Hash) (P : Prop) (acc : (Hash → Option (TxInfo Peer)) × List Hash) : Prop :=
  ∀ info, acc.1 h = some info → info.fetched ∨ info.fullUs.isSome → h ∈ acc.2 ∨ P

omit [DecidableEq Hash] in
lemma Fetching.getD (hacc : Fetching h P acc) {info : TxInfo Peer} (hnew : info.fetched = false)
    (hnone : info.fullUs = none)
    (hheld : ((acc.1 h).getD info).fetched ∨ ((acc.1 h).getD info).fullUs.isSome) :
    h ∈ acc.2 ∨ P := by
  cases hold : acc.1 h with
  | none => simp [hold, hnew, hnone] at hheld
  | some old => exact hacc old hold (by rwa [hold] at hheld)

lemma mem_announceOne (hmem : h ∈ acc.2) : h ∈ (announceOne now peer pkt acc item).2 := by
  unfold announceOne
  grind

lemma fetching_announceOne (hacc : Fetching h P acc) :
    Fetching h P (announceOne now peer pkt acc item) := by
  intro info hinfo hheld
  unfold announceOne at hinfo ⊢
  dsimp only at hinfo ⊢
  split_ifs at hinfo ⊢
  · obtain ⟨rfl, rfl⟩ | ⟨-, hold⟩ := update_eq_some_iff.mp hinfo
    · exact hacc.getD rfl rfl hheld
    · exact hacc info hold hheld
  · obtain ⟨rfl, -⟩ | ⟨-, hold⟩ := update_eq_some_iff.mp hinfo
    · simp
    · exact (hacc info hold hheld).imp_left (List.mem_append_left _)

lemma fetch_announceOne {i : ℕ} (hacc : Fetching h P acc) (hfits : pkt.fits i) :
    h ∈ (announceOne now peer pkt acc (h, i)).2 ∨ P := by
  unfold announceOne
  dsimp only
  split_ifs with hskip
  · obtain hfetched | hfull | hlarge := hskip
    · exact hacc.getD rfl rfl (.inl hfetched)
    · exact hacc.getD rfl rfl (.inr hfull)
    simp_all
  simp

variable (now peer) in
lemma fetch_onAnnounce {txs : Hash → Option (TxInfo Peer)} {i : ℕ} (hi : pkt.hashes[i]? = some h)
    (hfits : pkt.fits i) (htxs : Fetching h P (txs, [])) :
    h ∈ (onAnnounce now peer pkt txs).2 ∨ P := by
  obtain ⟨before, after, hsplit⟩ := List.append_of_mem
    ((List.mem_zipIdx_iff_getElem? (x := (h, i))).mpr hi)
  unfold onAnnounce
  rw [hsplit, List.foldl_append, List.foldl_cons]
  have hbefore : Fetching h P (before.foldl (announceOne now peer pkt) (txs, [])) :=
    List.foldlRecOn before _ htxs fun _ hacc _ _ => fetching_announceOne hacc
  obtain hmem | hP := fetch_announceOne hbefore hfits
  · exact .inl (List.foldlRecOn (motive := (h ∈ Prod.snd ·)) after _ hmem
      fun _ hacc _ _ => mem_announceOne hacc)
  · exact .inr hP

lemma full_onAnnounce {txs : Hash → Option (TxInfo Peer)}
    (htxs : ∀ info, txs h = some info → info.fullUs.isSome → P) :
    ∀ info, (onAnnounce now peer pkt txs).1 h = some info → info.fullUs.isSome → P := by
  refine List.foldlRecOn (motive := fun acc : (Hash → Option (TxInfo Peer)) × List Hash =>
    ∀ info, acc.1 h = some info → info.fullUs.isSome → P) _ _ htxs fun acc hacc item _ => ?_
  intro info hinfo hfull
  have hold : ∀ new : TxInfo Peer, new.fullUs = none → ((acc.1 h).getD new).fullUs.isSome → P := by
    intro new hnew hfull
    cases hold : acc.1 h with
    | none => grind
    | some old => simp_all
  unfold announceOne at hinfo
  dsimp only at hinfo
  split_ifs at hinfo
  · grind
  grind

end Announce

/-! ## Over a run -/

section Run

variable [DecidableEq Peer] [DecidableEq Hash] {classify : Hash → Option String}
  {s s' : Pool Peer Hash} {a : PoolAction Peer Hash} {h : Hash} {m : String} {peer : Peer}

def FullEmitted (h : Hash) (m : String) (s : Pool Peer Hash) : Prop :=
  ∀ info, s.txs h = some info → info.fullUs.isSome → s.Emitted h m

section OnTx

omit [DecidableEq Peer]

variable {now : ℕ} {tx : Via × Hash}

@[simp] lemma onTx_incoming : (onTx classify now peer tx s).incoming = s.incoming := by
  unfold onTx
  dsimp only
  split_ifs <;> rfl

lemma Emitted.onTx (hem : s.Emitted h m) : (onTx classify now peer tx s).Emitted h m := by
  obtain ⟨line, hline, heq⟩ := hem
  refine ⟨line, ?_, heq⟩
  unfold Pool.onTx
  grind

lemma emitted_onTx (hmatch : classify tx.2 = some m) (hs : s.FullEmitted tx.2 m) :
    (onTx classify now peer tx s).Emitted tx.2 m := by
  unfold onTx
  dsimp only
  split_ifs with hfull
  · cases hold : s.txs tx.2 with
    | none => simp [hold] at hfull
    | some info => exact hs info hold (by rwa [hold] at hfull)
  · exact ⟨_, List.mem_append_right _ (by rw [hmatch]; exact List.mem_cons_self), rfl, rfl⟩

lemma FullEmitted.onTx (hmatch : classify h = some m) (hs : s.FullEmitted h m) :
    (onTx classify now peer tx s).FullEmitted h m := by
  intro info hinfo hfull
  by_cases htx : tx.2 = h
  · subst htx
    exact emitted_onTx hmatch hs
  · refine (hs info ?_ hfull).onTx
    unfold Pool.onTx at hinfo
    dsimp only at hinfo
    split_ifs at hinfo
    · exact hinfo
    grind

end OnTx

lemma of_handle {now : ℕ} (hstep : s.step classify (.handle now peer) = some s') :
    ∃ tx rest, s.incoming peer = tx :: rest ∧ s' = onTx classify now peer tx
      { s with incoming := Function.update s.incoming peer rest } := by
  dsimp only [step] at hstep
  grind

lemma FullEmitted.step (hmatch : classify h = some m) (hs : s.FullEmitted h m)
    (hstep : s.step classify a = some s') : s'.FullEmitted h m := by
  cases a with
  | announce now other pkt =>
    obtain ⟨-, heq⟩ := Option.ite_none_right_eq_some.mp hstep
    cases heq
    exact full_onAnnounce hs
  | handle now other =>
    obtain ⟨tx, rest, -, rfl⟩ := of_handle hstep
    exact FullEmitted.onTx hmatch hs
  | prune now =>
    cases hstep
    intro info hinfo
    exact hs info (Option.filter_eq_some_iff.mp hinfo).1
  | connect other =>
    obtain ⟨-, heq⟩ := Option.ite_none_left_eq_some.mp hstep
    cases heq
    exact hs
  | disconnect _ | response _ _ _ | push _ _ =>
    obtain ⟨-, heq⟩ := Option.ite_none_right_eq_some.mp hstep
    cases heq
    exact hs

lemma due_of_announce {now i : ℕ} {pkt : NewPooledTransactionHashes Hash}
    (hs : s.FullEmitted h m) (hi : pkt.hashes[i]? = some h) (hfits : pkt.fits i)
    (hheld : ¬s.Withheld h) (hann : s.step classify (.announce now peer pkt) = some s') :
    s'.Emitted h m ∨ ∃ r ∈ s'.asked peer, h ∈ r := by
  obtain ⟨-, heq⟩ := Option.ite_none_right_eq_some.mp hann
  cases heq
  have hfetching : Fetching h (s.Emitted h m) (s.txs, []) := by
    intro info hinfo hor
    cases hcome : info.fullUs with
    | some at' => exact .inr (hs info hinfo (by simp [hcome]))
    | none => exact absurd ⟨info, hinfo, by simpa [hcome] using hor, hcome⟩ hheld
  obtain hfetch | hem := fetch_onAnnounce now peer hi hfits hfetching
  · obtain ⟨r, hr, hmem⟩ := mem_requests hfetch
    exact .inr ⟨r, by simp [hr], hmem⟩
  · exact .inl hem

lemma incoming_of_response {i : ℕ} {txs : List Hash}
    (hstep : s.step classify (.response peer (some i) txs) = some s') :
    s'.incoming peer = txs.map (.fetch, ·) := by
  obtain ⟨-, heq⟩ := Option.ite_none_right_eq_some.mp hstep
  cases heq
  exact Function.update_self _ _ _

lemma incoming_step (hbusy : s.incoming peer ≠ []) (ha : ∀ now, a ≠ .handle now peer)
    (hstep : s.step classify a = some s') : s'.incoming peer = s.incoming peer := by
  cases a with
  | connect other =>
    obtain ⟨-, heq⟩ := Option.ite_none_left_eq_some.mp hstep
    cases heq
    rfl
  | prune now =>
    cases hstep
    rfl
  | disconnect other | announce now other pkt =>
    obtain ⟨-, heq⟩ := Option.ite_none_right_eq_some.mp hstep
    cases heq
    rfl
  | response other request txs | push other txs =>
    obtain ⟨⟨-, hidle⟩, heq⟩ := Option.ite_none_right_eq_some.mp hstep
    cases heq
    exact Function.update_of_ne (fun heq : peer = other => hbusy (heq ▸ hidle)) _ _
  | handle now other =>
    obtain ⟨tx, rest, -, rfl⟩ := of_handle hstep
    rw [onTx_incoming]
    exact Function.update_of_ne (fun heq : peer = other => ha now (heq ▸ rfl)) _ _

structure Reliable (peer : Peer) (acts : ℕ → PoolAction Peer Hash) (states : ℕ → Pool Peer Hash)
    (n : ℕ) : Prop where
  answers : ∀ k > n, (states k).Answers peer (acts k)
  answered : ∀ k > n, ∀ r ∈ (states k).asked peer, ∃ j ≥ k, ∃ i txs,
    acts j = .response peer (some i) txs ∧ ((states j).asked peer)[i]? = some r
  handled : ∀ k > n, (states k).incoming peer ≠ [] → ∃ j ≥ k, ∃ now, acts j = .handle now peer

section Trace

variable {acts : ℕ → PoolAction Peer Hash} {states : ℕ → Pool Peer Hash} {n : ℕ}

lemma Reliable.exists_handle (hreliable : Reliable peer acts states n)
    (htrace : IsTrace (step classify) acts states) {k : ℕ} (hk : n < k)
    (hbusy : (states k).incoming peer ≠ []) :
    ∃ j ≥ k, ∃ now, acts j = .handle now peer ∧
      (states j).incoming peer = (states k).incoming peer := by
  obtain ⟨j, hj, now, hact⟩ := hreliable.handled k hk hbusy
  obtain ⟨d, rfl⟩ := Nat.exists_eq_add_of_le hj
  induction d generalizing k with
  | zero => exact ⟨k, Nat.le_refl _, now, hact, rfl⟩
  | succ d ih =>
    by_cases hnow : ∃ now, acts k = .handle now peer
    · exact ⟨k, Nat.le_refl _, hnow.choose, hnow.choose_spec, rfl⟩
    · have hsame := incoming_step hbusy (not_exists.mp hnow) (htrace k)
      obtain ⟨j, hj, hhandle⟩ := ih (Nat.lt_succ_of_lt hk) (hsame ▸ hbusy) (by omega)
        (by rwa [Nat.succ_add])
      rw [hsame] at hhandle
      exact ⟨j, by omega, hhandle⟩

lemma Reliable.exists_emitted (hreliable : Reliable peer acts states n)
    (htrace : IsTrace (step classify) acts states) (hmatch : classify h = some m)
    (hfull : ∀ k, (states k).FullEmitted h m) {before after : List (Via × Hash)} {via : Via} {k : ℕ}
    (hk : n < k) (hincoming : (states k).incoming peer = before ++ (via, h) :: after) :
    ∃ j, (states j).Emitted h m := by
  induction before generalizing k with
  | nil =>
    obtain ⟨j, hj, now, hact, hsame⟩ := hreliable.exists_handle htrace hk (by simp [hincoming])
    obtain ⟨tx, rest, hhead, hnext⟩ := of_handle (hact ▸ htrace j)
    rw [hsame, hincoming, List.nil_append, List.cons.injEq] at hhead
    obtain ⟨rfl, -⟩ := hhead
    exact ⟨j + 1, hnext ▸ emitted_onTx hmatch (hfull j)⟩
  | cons first before ih =>
    obtain ⟨j, hj, now, hact, hsame⟩ := hreliable.exists_handle htrace hk (by simp [hincoming])
    obtain ⟨tx, rest, hhead, hnext⟩ := of_handle (hact ▸ htrace j)
    rw [hsame, hincoming, List.cons_append, List.cons.injEq] at hhead
    refine @ih (j + 1) (by omega) ?_
    rw [hnext, onTx_incoming, hhead.2]
    exact Function.update_self _ _ _

end Trace

end Run

def answeredActs : ℕ → PoolAction Bool Unit
  | 0 => .connect true
  | 1 => .announce 1 true ⟨[], [], [()]⟩
  | 2 => .response true (some 0) [()]
  | 3 => .handle 2 true
  | _ + 4 => .prune 0

def answeredStates : ℕ → Pool Bool Unit
  | 0 => {}
  | n + 1 => ((answeredStates n).step (fun _ => some "watched") (answeredActs n)).getD {}

lemma answeredStates_idle (n : ℕ) :
    (answeredStates (n + 4)).asked true = [] ∧ (answeredStates (n + 4)).incoming true = [] := by
  induction n with
  | zero => exact ⟨rfl, rfl⟩
  | succ n ih => exact ih

end Pool

end RustUma.Probe
