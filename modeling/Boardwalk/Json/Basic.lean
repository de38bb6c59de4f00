import Boardwalk.Number.Binary
/-!
# Json values

What a state file can hold. Whole numbers are unbounded and kept apart from floating point numbers, and
the fields of an object keep their order.
-/

namespace Boardwalk

inductive Json where
  | null
  | bool (b : Bool)
  | int (n : Int)
  | float (x : Float)
  | str (s : String)
  | arr (items : List Json)
  | obj (fields : List (String × Json))
  deriving Inhabited

namespace Json

/-- Sets a field: a known key keeps its place, a new one goes to the end. -/
def put {α : Type} (key : String) (value : α) : List (String × α) → List (String × α)
  | [] => [(key, value)]
  | (k, v) :: rest => if k = key then (key, value) :: rest else (k, v) :: put key value rest

def field? (key : String) : Json → Option Json
  | .obj fields => fields.lookup key
  | _ => none

mutual

/-- How many containers there are around the innermost value, those that it is itself included. -/
def nesting : Json → Nat
  | .arr xs => nestingItems xs + 1
  | .obj fs => nestingFields fs + 1
  | .null => 0
  | .bool _ => 0
  | .int _ => 0
  | .float _ => 0
  | .str _ => 0

def nestingItems : List Json → Nat
  | [] => 0
  | x :: xs => max (nesting x) (nestingItems xs)

def nestingFields : List (String × Json) → Nat
  | [] => 0
  | (_, x) :: fs => max (nesting x) (nestingFields fs)

end

theorem lookup_put_self {α : Type} (key : String) (value : α) (fields : List (String × α)) :
    (put key value fields).lookup key = some value := by
  induction fields with
  | nil => simp [put]
  | cons p rest ih =>
    obtain ⟨k, v⟩ := p
    by_cases h : k = key
    · simp [put, h]
    · have hk : (key == k) = false := by simpa using fun e => h e.symm
      simp [put, h, List.lookup_cons, hk, ih]

theorem keys_put {α : Type} (key : String) (value : α) (fields : List (String × α)) :
    (put key value fields).map Prod.fst =
      if key ∈ fields.map Prod.fst then fields.map Prod.fst else fields.map Prod.fst ++ [key] := by
  induction fields with
  | nil => simp [put]
  | cons p rest ih =>
    obtain ⟨k, v⟩ := p
    by_cases h : k = key
    · simp [put, h]
    · have hk : key ≠ k := fun e => h e.symm
      simp only [put, h, if_false, List.map_cons, ih, List.mem_cons, hk, false_or]
      split <;> simp

end Json

end Boardwalk
