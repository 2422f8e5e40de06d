import RustUma.Found.Ring
import RustUma.Model.Event
import Mathlib.Order.MinMax

/-!
# The deduplication ring (`src/hub.rs` `EventState`, `EventHub`)

The last `capacity` accepted events, with the set of their keys beside them for the membership
test.
-/

namespace RustUma.Hub

open RustUma.Found RustUma.Model

structure EventHub where
  capacity : ℕ
  capacity_pos : 0 < capacity
  events : List EventRecord
  keys : Finset EventKey
  latest : ℕ

namespace EventHub

def new (capacity : ℕ) : EventHub where
  capacity := max capacity 1
  capacity_pos := lt_max_of_lt_right Nat.one_pos
  events := []
  keys := ∅
  latest := 0

def contains (hub : EventHub) (key : EventKey) : Bool := decide (key ∈ hub.keys)

def insert (hub : EventHub) (event : EventRecord) : EventHub × Bool :=
  if event.key ∈ hub.keys then (hub, false)
  else
    let state := trim hub.capacity (fun keys removed => keys.erase removed.key)
      (hub.events ++ [event]) (Insert.insert event.key hub.keys)
    ({ hub with events := state.1, keys := state.2, latest := event.sequence }, true)

def snapshot (hub : EventHub) : List EventRecord := hub.events

def pushed (hub : EventHub) (event : EventRecord) : EventHub :=
  { hub with
    events := (hub.events ++ [event]).rtake hub.capacity
    keys := ((hub.events ++ [event]).rdrop hub.capacity).foldl
      (fun keys removed => keys.erase removed.key) (Insert.insert event.key hub.keys)
    latest := event.sequence }

variable {hub : EventHub} {event : EventRecord}

lemma pushed_keys_of_room (h : hub.events.length < hub.capacity) (event : EventRecord) :
    (hub.pushed event).keys = Insert.insert event.key hub.keys := by
  have hnone : (hub.events ++ [event]).rdrop hub.capacity = [] := by
    unfold List.rdrop
    rw [List.length_append, List.length_singleton, Nat.sub_eq_zero_of_le h, List.take_zero]
  show ((hub.events ++ [event]).rdrop hub.capacity).foldl _ _ = _
  rw [hnone]
  rfl

lemma insert_of_mem (h : event.key ∈ hub.keys) :
    hub.insert event = (hub, false) := by
  unfold insert
  rw [if_pos h]

lemma insert_of_notMem (h : event.key ∉ hub.keys) :
    hub.insert event = (hub.pushed event, true) := by
  unfold insert pushed
  simp only [if_neg h, trim_eq]

@[simp] lemma insert_capacity (hub : EventHub) (event : EventRecord) :
    (hub.insert event).1.capacity = hub.capacity := by
  by_cases h : event.key ∈ hub.keys
  · rw [insert_of_mem h]
  · rw [insert_of_notMem h]
    rfl

structure Valid (hub : EventHub) : Prop where
  keys_eq : hub.keys = (hub.events.map EventRecord.key).toFinset
  nodup : (hub.events.map EventRecord.key).Nodup
  length_le : hub.events.length ≤ hub.capacity

lemma new_valid (capacity : ℕ) : (new capacity).Valid where
  keys_eq := rfl
  nodup := by simp [new]
  length_le := by simp [new]

lemma Valid.pushed (h : hub.Valid) (hnew : event.key ∉ hub.keys) : (hub.pushed event).Valid := by
  have hnodup : ((hub.events ++ [event]).map EventRecord.key).Nodup := by
    rw [List.map_append, List.map_singleton, List.nodup_append]
    refine ⟨h.nodup, List.nodup_singleton _, ?_⟩
    intro k hk k' hk' heq
    rw [List.mem_singleton] at hk'
    rw [h.keys_eq, List.mem_toFinset] at hnew
    grind
  have hall : Insert.insert event.key hub.keys =
      ((hub.events ++ [event]).map EventRecord.key).toFinset := by
    rw [h.keys_eq]
    simp
  refine ⟨?_, ?_, length_rtake_le _ _⟩
  · show ((hub.events ++ [event]).rdrop hub.capacity).foldl _ _ = _
    rw [hall]
    exact rdrop_foldl_erase_toFinset EventRecord.key _ _ hnodup
  · exact hnodup.sublist ((rtake_suffix _ _).sublist.map _)

lemma Valid.insert (h : hub.Valid) (event : EventRecord) :
    (hub.insert event).1.Valid := by
  by_cases hmem : event.key ∈ hub.keys
  · rw [insert_of_mem hmem]
    exact h
  · rw [insert_of_notMem hmem]
    exact h.pushed hmem

end EventHub

end RustUma.Hub
