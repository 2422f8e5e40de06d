import Mathlib.Data.List.Induction
import Mathlib.Data.List.Pairwise
import Mathlib.Order.Lattice

/-!
# Ordered tables

A map with its rows in ascending order of their keys, for code that looks rows up by key and also
walks them in order. The order is part of the type.
-/

namespace RustUma.Found

variable {κ ν : Type*} [LinearOrder κ]

structure Table (κ ν : Type*) [LinearOrder κ] where
  rows : List (κ × ν)
  sorted : rows.Pairwise fun a b => a.1 < b.1

def putRow (k : κ) (v : ν) : List (κ × ν) → List (κ × ν)
  | [] => [(k, v)]
  | r :: rows =>
    if k < r.1 then (k, v) :: r :: rows
    else if k = r.1 then (k, v) :: rows
    else r :: putRow k v rows

variable {rows : List (κ × ν)}

lemma mem_putRow {k : κ} {v : ν} (h : rows.Pairwise fun a b => a.1 < b.1) (x : κ × ν) :
    x ∈ putRow k v rows ↔ x = (k, v) ∨ x ∈ rows ∧ x.1 ≠ k := by
  induction rows with
  | nil => simp [putRow]
  | cons r rows ih =>
    obtain ⟨hr, hrows⟩ := List.pairwise_cons.mp h
    unfold putRow
    split_ifs with hlt heq
    · grind
    · grind
    grind

lemma putRow_sorted (k : κ) (v : ν) (h : rows.Pairwise fun a b => a.1 < b.1) :
    (putRow k v rows).Pairwise fun a b => a.1 < b.1 := by
  induction rows with
  | nil => exact List.pairwise_singleton _ _
  | cons r rows ih =>
    obtain ⟨hr, hrows⟩ := List.pairwise_cons.mp h
    unfold putRow
    split_ifs with hlt heq
    · grind
    · refine List.pairwise_cons.mpr ⟨?_, hrows⟩
      grind
    · refine List.pairwise_cons.mpr ⟨?_, ih hrows⟩
      intro y hy
      rcases (mem_putRow hrows y).mp hy with rfl | ⟨hy, -⟩
      · grind
      · exact hr y hy

lemma eq_of_key_eq (h : rows.Pairwise fun a b => a.1 < b.1) {a b : κ × ν} (ha : a ∈ rows)
    (hb : b ∈ rows) (hkey : a.1 = b.1) : a = b := by
  induction rows with
  | nil => cases ha
  | cons r rows ih =>
    obtain ⟨hr, hrows⟩ := List.pairwise_cons.mp h
    grind

namespace Table

def empty : Table κ ν := ⟨[], List.Pairwise.nil⟩

def get? (t : Table κ ν) (k : κ) : Option ν := (t.rows.find? fun r => r.1 = k).map Prod.snd

def put (t : Table κ ν) (k : κ) (v : ν) : Table κ ν :=
  ⟨putRow k v t.rows, putRow_sorted k v t.sorted⟩

def filter (t : Table κ ν) (keep : ν → Bool) : Table κ ν :=
  ⟨t.rows.filter fun r => keep r.2, t.sorted.filter _⟩

def values (t : Table κ ν) : List ν := t.rows.map Prod.snd

def ofList (rows : List (κ × ν)) : Table κ ν := rows.foldl (fun t r => t.put r.1 r.2) empty

variable {t : Table κ ν} {v : ν} {k : κ} {keep : ν → Bool} {rows : List (κ × ν)}

lemma mem_values : v ∈ t.values ↔ ∃ k, (k, v) ∈ t.rows := by
  simp [values]

lemma mem_rows_of_get? (h : t.get? k = some v) :
    (k, v) ∈ t.rows := by
  obtain ⟨r, hfind, rfl⟩ := Option.map_eq_some_iff.mp h
  grind

lemma get?_of_mem_rows (h : (k, v) ∈ t.rows) :
    t.get? k = some v := by
  have hsome : (t.get? k).isSome := by
    rw [get?, Option.isSome_map, List.find?_isSome]
    grind
  obtain ⟨w, hw⟩ := Option.isSome_iff_exists.mp hsome
  have heq := eq_of_key_eq t.sorted (mem_rows_of_get? hw) h rfl
  simp_all

lemma mem_values_put {w : ν} :
    w ∈ (t.put k v).values ↔ w = v ∨ ∃ k', k' ≠ k ∧ t.get? k' = some w := by
  rw [mem_values]
  constructor
  · rintro ⟨k', hmem⟩
    rcases (mem_putRow t.sorted _).mp hmem with heq | ⟨hmem, hne⟩
    · simp_all
    · exact Or.inr ⟨k', hne, get?_of_mem_rows hmem⟩
  · rintro (rfl | ⟨k', hne, hget⟩)
    · exact ⟨k, (mem_putRow t.sorted _).mpr (Or.inl rfl)⟩
    · exact ⟨k', (mem_putRow t.sorted _).mpr (Or.inr ⟨mem_rows_of_get? hget, hne⟩)⟩

lemma mem_values_of_get? (h : t.get? k = some v) : v ∈ t.values :=
  mem_values.mpr ⟨k, mem_rows_of_get? h⟩

lemma get?_of_mem_values (h : v ∈ t.values) : ∃ k, t.get? k = some v := by
  obtain ⟨k, hk⟩ := mem_values.mp h
  exact ⟨k, get?_of_mem_rows hk⟩

@[simp] lemma mem_values_filter :
    v ∈ (t.filter keep).values ↔ v ∈ t.values ∧ keep v := by
  simp only [mem_values, filter, List.mem_filter]
  exact exists_and_right

lemma filter_eq_self_of_length (h : ¬ (t.filter keep).values.length < t.values.length) :
    t.filter keep = t := by
  have hlength : (t.rows.filter fun r => keep r.2).length = t.rows.length := by
    simp only [values, filter, List.length_map] at h
    grind
  unfold filter
  congr 1
  exact List.filter_eq_self.mpr (List.length_filter_eq_length_iff.mp hlength)

lemma mem_of_mem_rows_ofList {r : κ × ν} (h : r ∈ (ofList rows).rows) :
    r ∈ rows := by
  unfold ofList at h
  induction rows using List.reverseRecOn with
  | nil => cases h
  | append_singleton rows r' ih =>
    rw [List.foldl_append] at h
    rcases (mem_putRow (Table.sorted _) r).mp h with rfl | ⟨h, -⟩
    · simp
    simp_all

lemma mem_of_mem_values_ofList (h : v ∈ (ofList rows).values) :
    ∃ k, (k, v) ∈ rows := by
  obtain ⟨k, hk⟩ := mem_values.mp h
  exact ⟨k, mem_of_mem_rows_ofList hk⟩

lemma get?_eq_some_iff : t.get? k = some v ↔ (k, v) ∈ t.rows :=
  ⟨mem_rows_of_get?, get?_of_mem_rows⟩

lemma get?_of_get?_filter (h : (t.filter keep).get? k = some v) : t.get? k = some v :=
  get?_of_mem_rows (List.mem_filter.mp (mem_rows_of_get? h)).1

lemma get?_put (t : Table κ ν) (k : κ) (v : ν) (k' : κ) :
    (t.put k v).get? k' = if k' = k then some v else t.get? k' := by
  refine Option.ext fun w => ?_
  rw [get?_eq_some_iff]
  refine (mem_putRow t.sorted _).trans ?_
  split_ifs with hkey
  · grind
  · rw [get?_eq_some_iff]
    simp [hkey]

lemma get?_put_self (t : Table κ ν) (k : κ) (v : ν) : (t.put k v).get? k = some v := by
  rw [get?_put, if_pos rfl]

lemma get?_put_of_ne {k' : κ} (h : k' ≠ k) :
    (t.put k v).get? k' = t.get? k' := by
  rw [get?_put, if_neg h]

lemma get?_ofList (hmem : (k, v) ∈ rows) (hkey : ∀ w, (k, w) ∈ rows → w = v) :
    (ofList rows).get? k = some v := by
  unfold ofList
  induction rows using List.reverseRecOn with
  | nil => cases hmem
  | append_singleton rows r ih =>
    rw [List.foldl_append, List.foldl_cons, List.foldl_nil, get?_put]
    grind

lemma putRow_eq_self (h : rows.Pairwise fun a b => a.1 < b.1) (hmem : (k, v) ∈ rows) :
    putRow k v rows = rows := by
  induction rows with
  | nil => cases hmem
  | cons r rows ih =>
    obtain ⟨hr, hrows⟩ := List.pairwise_cons.mp h
    unfold putRow
    grind

lemma put_eq_self (h : t.get? k = some v) : t.put k v = t := by
  obtain ⟨rows, sorted⟩ := t
  unfold put
  congr 1
  exact putRow_eq_self sorted (mem_rows_of_get? h)

def filterMap (t : Table κ ν) (f : κ → ν → Option ν) : Table κ ν where
  rows := t.rows.filterMap fun r => (f r.1 r.2).map (r.1, ·)
  sorted := by
    refine t.sorted.filterMap _ fun a b hab a' ha' b' hb' => ?_
    obtain ⟨_, -, rfl⟩ := Option.map_eq_some_iff.mp ha'
    obtain ⟨_, -, rfl⟩ := Option.map_eq_some_iff.mp hb'
    exact hab

lemma get?_filterMap (t : Table κ ν) (f : κ → ν → Option ν) (k : κ) :
    (t.filterMap f).get? k = (t.get? k).bind (f k) := by
  refine Option.ext fun w => ?_
  rw [get?_eq_some_iff, Option.bind_eq_some_iff]
  refine List.mem_filterMap.trans ?_
  constructor
  · rintro ⟨⟨k', v⟩, hmem, hf⟩
    obtain ⟨w', hw', heq⟩ := Option.map_eq_some_iff.mp hf
    cases heq
    exact ⟨v, get?_of_mem_rows hmem, hw'⟩
  · rintro ⟨v, hget, hf⟩
    exact ⟨(k, v), mem_rows_of_get? hget, Option.map_eq_some_iff.mpr ⟨w, hf, rfl⟩⟩

def erase (t : Table κ ν) (k : κ) : Table κ ν :=
  t.filterMap fun k' v => if k' = k then none else some v

lemma get?_erase_self (t : Table κ ν) (k : κ) : (t.erase k).get? k = none := by
  unfold erase
  rw [get?_filterMap]
  cases t.get? k <;> simp

lemma get?_erase_of_ne {k' : κ} (h : k' ≠ k) :
    (t.erase k).get? k' = t.get? k' := by
  unfold erase
  rw [get?_filterMap]
  simp_all

end Table

end RustUma.Found
