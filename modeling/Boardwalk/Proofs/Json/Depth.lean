import Boardwalk.Json.Parser
/-!
# Texts that are nested too deep

A reader keeps in mind only so many containers at a time. Each array uses up one place for them, so a text that opens more
arrays in a row than there are places is not read, whatever comes behind them (`parse_deep`).
-/

namespace Boardwalk.Json

def opening (n : Nat) : List Char := List.replicate n '['

theorem readValue_opening (fuel room : Nat) (cs : List Char) :
    readValue (fuel + 2) (room + 1) ('[' :: '[' :: cs) =
      (readItems (fuel + 1) room ('[' :: cs)).map fun p => (.arr p.1, p.2) := by
  rw [readValue]
  rfl

theorem readItems_error {fuel room : Nat} {cs : List Char} {f : Flaw} (h : readValue fuel room cs = .error f) :
    readItems (fuel + 1) room cs = .error f := by
  rw [readItems, h]
  rfl

/-- Every bracket takes a place, and two steps: one for the array, and one for its first item. -/
theorem readValue_deep {room n fuel : Nat} (hn : room < n) (hfuel : 2 * room < fuel) (rest : List Char) :
    readValue fuel room (opening n ++ rest) = .error (.tooDeep .array) := by
  induction room generalizing n fuel with
  | zero =>
    obtain ⟨n, rfl⟩ := Nat.exists_eq_succ_of_ne_zero (Nat.ne_of_gt hn)
    obtain ⟨fuel, rfl⟩ := Nat.exists_eq_succ_of_ne_zero (Nat.ne_of_gt hfuel)
    rw [opening, List.replicate_succ, List.cons_append, readValue, if_pos rfl]
  | succ room ih =>
    obtain ⟨n, rfl⟩ : ∃ k, n = k + 2 := ⟨n - 2, by omega⟩
    obtain ⟨fuel, rfl⟩ : ∃ k, fuel = k + 2 := ⟨fuel - 2, by omega⟩
    have hinner : readValue fuel room (opening (n + 1) ++ rest) = .error (.tooDeep .array) :=
      ih (by omega) (by omega)
    rw [opening, List.replicate_succ, List.cons_append] at hinner
    rw [opening, List.replicate_succ, List.replicate_succ, List.cons_append, List.cons_append, readValue_opening,
      readItems_error hinner]
    rfl

theorem skipGaps_opening {n : Nat} (hn : 0 < n) (rest : List Char) : skipGaps (opening n ++ rest) = opening n ++ rest := by
  obtain ⟨n, rfl⟩ := Nat.exists_eq_succ_of_ne_zero (Nat.ne_of_gt hn)
  rfl

/-- **A text that opens too many arrays is not read**, whether it closes them or not. -/
theorem parse_deep {n : Nat} (hn : depthLimit < n) (rest : List Char) :
    parse (String.ofList (opening n ++ rest)) = .error (.tooDeep .array) := by
  have hlength : (opening n ++ rest).length = n + rest.length := by simp [opening]
  unfold parse parseChars
  rw [String.toList_ofList, hlength, skipGaps_opening (by omega) rest, readValue_deep hn (by omega) rest]
  rfl

end Boardwalk.Json
