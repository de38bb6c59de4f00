import Boardwalk.Session
/-!
# Journals that are read are valid

Each part of a reading that finds no defect accepts what it read. So the records of a model that was read from Json have
whole numbers for their positions and a truth value for their completion (`Model.ofState_valid`).
-/

namespace Boardwalk

namespace Schema.Checked

variable {α β : Type}

theorem both_good {x : Checked α} {y : Checked β} {p : α × β} (h : x.both y = .good p) :
    x = .good p.1 ∧ y = .good p.2 := by
  cases x with
  | bad => cases h
  | good a =>
    cases y with
    | bad => cases h
    | good b =>
      cases h
      exact ⟨rfl, rfl⟩

theorem map_good {f : α → β} {x : Checked α} {b : β} (h : x.map f = .good b) : ∃ a, x = .good a ∧ f a = b := by
  cases x with
  | bad => cases h
  | good a =>
    cases h
    exact ⟨a, rfl, rfl⟩

theorem below_good {s : Step} {x : Checked α} {a : α} (h : x.below s = .good a) : x = .good a := by
  cases x with
  | bad => cases h
  | good => exact h

theorem items_good {check : Value → Checked α} {vs : List Value} {n : Nat} {as : List α}
    (h : items check n vs = .good as) : ∀ a ∈ as, ∃ v ∈ vs, check v = .good a := by
  induction vs generalizing n as with
  | nil =>
    cases h
    intro a ha
    cases ha
  | cons v vs ih =>
    obtain ⟨⟨a₀, as'⟩, hboth, rfl⟩ := map_good h
    obtain ⟨hfirst, hrest⟩ := both_good hboth
    intro a ha
    rcases List.mem_cons.mp ha with rfl | ha
    · exact ⟨v, List.mem_cons_self, below_good hfirst⟩
    · obtain ⟨v', hv', hc⟩ := ih hrest a ha
      exact ⟨v', List.mem_cons_of_mem v hv', hc⟩

end Schema.Checked

namespace Value

theorem mem_ofJsonItems {v : Value} {js : List Json} (h : v ∈ ofJsonItems js) : ∃ j, v = ofJson j := by
  induction js with
  | nil => cases h
  | cons j js ih =>
    rcases List.mem_cons.mp h with rfl | h
    · exact ⟨j, rfl⟩
    · exact ih h

theorem lookup_ofJsonFields {k : String} {v : Value} {fs : List (String × Json)}
    (h : (ofJsonFields fs).lookup k = some v) : ∃ j, v = ofJson j := by
  induction fs with
  | nil => cases h
  | cons f fs ih =>
    obtain ⟨k', j⟩ := f
    rw [ofJsonFields, List.lookup_cons] at h
    split at h
    · cases h
      exact ⟨j, rfl⟩
    · exact ih h

end Value

namespace Record

theorem nullOr_good {fields : List (String × Value)} {name : String} {v : Value}
    (h : Schema.optional (nullOr Schema.whole) name .null fields = .good v) : v = .null ∨ ∃ n, v = .int n := by
  unfold Schema.optional Schema.atField at h
  split at h
  · rename_i v' _
    split at h
    · rename_i hr
      cases h
      unfold nullOr at hr
      split at hr
      · exact .inl (Except.ok.inj hr).symm
      · cases hw : Schema.whole v' with
        | error e =>
          rw [hw] at hr
          cases hr
        | ok n =>
          rw [hw] at hr
          exact .inr ⟨n, (Except.ok.inj hr).symm⟩
    · cases h
  · cases h
    exact .inl rfl

theorem checkFields_valid {fields : List (String × Value)} {r : Record} (h : checkFields fields = .good r) :
    r.IsValid := by
  obtain ⟨⟨index, name, kind, output, completed, frameIndex⟩, hboth, rfl⟩ := Schema.Checked.map_good h
  obtain ⟨-, hrest⟩ := Schema.Checked.both_good hboth
  obtain ⟨-, hrest⟩ := Schema.Checked.both_good hrest
  obtain ⟨-, hrest⟩ := Schema.Checked.both_good hrest
  obtain ⟨-, hrest⟩ := Schema.Checked.both_good hrest
  obtain ⟨-, hframe⟩ := Schema.Checked.both_good hrest
  exact ⟨⟨index, rfl⟩, ⟨completed, rfl⟩, nullOr_good hframe⟩

theorem check_valid {j : Json} {r : Record} (h : check (Value.ofJson j) = .good r) : r.IsValid := by
  cases j with
  | obj fs => exact checkFields_valid h
  | _ => cases h

end Record

namespace Model

theorem checkTimeline_valid {j : Json} {t : Timeline} (h : checkTimeline (Value.ofJson j) = .good t) :
    ∀ r ∈ t, r.IsValid := by
  cases j with
  | arr js =>
    intro r hr
    obtain ⟨v, hv, hc⟩ := Schema.Checked.items_good h r hr
    obtain ⟨j, rfl⟩ := Value.mem_ofJsonItems hv
    exact Record.check_valid hc
  | _ => cases h

/-- **The records of a model that was read are valid.** -/
theorem ofState_valid {j : Json} {m : Model} (h : ofState j = .ok m) : ∀ r ∈ m.timeline, r.IsValid := by
  unfold ofState at h
  cases hc : check (Value.ofJson j) with
  | bad =>
    rw [hc] at h
    cases h
  | good m' =>
    rw [hc] at h
    cases h
    cases j with
    | obj fs =>
      obtain ⟨⟨b, t⟩, hboth, rfl⟩ := Schema.Checked.map_good hc
      obtain ⟨-, ht⟩ := Schema.Checked.both_good hboth
      dsimp only at ht ⊢
      split at ht
      · rename_i v hv
        obtain ⟨j, rfl⟩ := Value.lookup_ofJsonFields hv
        exact checkTimeline_valid (Schema.Checked.below_good ht)
      · cases ht
        intro r hr
        cases hr
    | _ => cases hc

end Model

end Boardwalk
