import Mathlib.Data.List.Basic

/-!
# Reading JSON into records

The rules by which a record is read from a JSON value: each of its members at most once, a member
that is not there has a default or makes the record fail, members that are not known are passed
over. A list is read as a whole, or not at all.
-/

namespace RustUma.Found

inductive Json where
  | null
  | bool (value : Bool)
  | num (literal : List Char)
  | str (text : List Char)
  | arr (items : List Json)
  | obj (members : List (String × Json))

namespace Json

variable {α : Type}

def text : Json → Option (List Char)
  | .str text => some text
  | _ => none

def flag : Json → Option Bool
  | .bool value => some value
  | _ => none

def optional (read : Json → Option α) : Json → Option (Option α)
  | .null => some none
  | json => (read json).map some

def listOf (read : Json → Option α) : Json → Option (List α)
  | .arr items => items.mapM read
  | _ => none

def member (names : List String) (name : String) : Json → Option (Option Json)
  | .obj members =>
    match members.filter fun m => m.1 = name with
    | [] => some none
    | [m] => some (some m.2)
    | _ => none
  | .arr items => if items.length ≤ names.length then some items[names.idxOf name]? else none
  | _ => none

def required (read : Json → Option α) : Option (Option Json) → Option α
  | some (some json) => read json
  | _ => none

def defaulted (read : Json → Option α) (default : α) : Option (Option Json) → Option α
  | some (some json) => read json
  | some none => some default
  | none => none

variable {read : Json → Option α} {items : List Json}

lemma listOf_eq_some (h : ∀ json ∈ items, (read json).isSome = true) :
    listOf read (.arr items) = some (items.filterMap read) := by
  change items.mapM read = _
  induction items with
  | nil => rfl
  | cons json items ih =>
    grind

lemma listOf_eq_none {json : Json} (hmem : json ∈ items) (h : read json = none) :
    listOf read (.arr items) = none := by
  change items.mapM read = _
  induction items with
  | nil => simp_all
  | cons first items ih =>
    rw [List.mapM_cons]
    rcases List.mem_cons.mp hmem with rfl | hmem
    · rw [h]
      rfl
    simp_all

end Json

end RustUma.Found
