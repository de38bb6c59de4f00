import Boardwalk.Board.Basic
import Boardwalk.Proofs.Record.Edited
/-!
# What a journal amounts to

The outputs of a journal hold one entry for every name of work that was done, in the order in which the names came up
first, with what the last work of the name gave (`keys_outputs`, `lookup_outputs`). The last output is the output of
the last work at all. The two resolvers agree on it, and there is none exactly when there are no outputs
(`resolvers_agree`).
-/

namespace Boardwalk

theorem eraseDups_concat {α : Type} [BEq α] [LawfulBEq α] (values : List α) (value : α) :
    (values ++ [value]).eraseDups =
      if value ∈ values.eraseDups then values.eraseDups else values.eraseDups ++ [value] := by
  rw [List.eraseDups_append]
  by_cases h : value ∈ values
  · rw [if_pos (List.mem_eraseDups.mpr h)]
    simp [List.removeAll, h]
  · rw [if_neg fun hd => h (List.mem_eraseDups.mp hd)]
    simp [List.removeAll, h, List.eraseDups_cons]

namespace Timeline

def works (t : Timeline) : Timeline :=
  t.filter fun r => r.isCompleted && (r.kind == "key_frame" || r.kind == "loop_frame" || r.kind == "story_frame")

def named (name : String) (t : Timeline) : Timeline := t.filter fun r => r.name == name

theorem works_eq (t : Timeline) : t.works = t.filter Record.isWork := by
  apply List.filter_congr
  intro r _
  unfold Record.isWork workKinds
  simp only [List.contains_cons, List.contains_nil, Bool.or_false, Bool.or_assoc]

/-! ## One record more -/

theorem outputs_concat (t : Timeline) (r : Record) :
    (t ++ [r]).outputs = if r.isWork then Json.put r.name r.output t.outputs else t.outputs := by
  unfold outputs
  rw [List.filter_append, List.foldl_append]
  by_cases h : r.isWork = true
  · rw [List.filter_cons_of_pos h, if_pos h]
    rfl
  · rw [List.filter_cons_of_neg h, if_neg h]
    rfl

theorem works_concat (t : Timeline) (r : Record) : works (t ++ [r]) = if r.isWork then works t ++ [r] else works t := by
  rw [works_eq, works_eq, List.filter_append]
  by_cases h : r.isWork = true
  · rw [List.filter_cons_of_pos h, if_pos h]
    rfl
  · rw [List.filter_cons_of_neg h, if_neg h]
    exact List.append_nil _

theorem getLast?_named_concat (t : Timeline) (r : Record) (name : String) :
    (named name (t ++ [r])).getLast? = if name = r.name then some r else (named name t).getLast? := by
  unfold named
  rw [List.filter_append]
  by_cases h : name = r.name
  · rw [if_pos h, List.filter_cons_of_pos (by simp [h])]
    exact List.getLast?_concat
  · rw [if_neg h, List.filter_cons_of_neg (by simpa using Ne.symm h), List.filter_nil, List.append_nil]

/-! ## The whole journal -/

/-- **A name stands where it came up first.** -/
theorem keys_outputs (t : Timeline) : t.outputs.map Prod.fst = (t.works.map Record.name).eraseDups := by
  induction t using List.reverseRecOn with
  | nil => rfl
  | append_singleton t r ih =>
    rw [outputs_concat, works_concat]
    by_cases h : r.isWork = true
    · rw [if_pos h, if_pos h, Json.keys_put, ih, List.map_append, List.map_singleton, eraseDups_concat]
    · rw [if_neg h, if_neg h, ih]

/-- **A name has what its last work gave.** -/
theorem lookup_outputs (t : Timeline) (name : String) :
    t.outputs.lookup name = (t.works.named name).getLast?.map Record.output := by
  induction t using List.reverseRecOn with
  | nil => rfl
  | append_singleton t r ih =>
    rw [outputs_concat, works_concat]
    by_cases h : r.isWork = true
    · rw [if_pos h, if_pos h, Json.lookup_put, getLast?_named_concat, ih]
      split
      · rfl
      · rfl
    · rw [if_neg h, if_neg h, ih]

theorem outputs_eq_nil_iff (t : Timeline) : t.outputs = [] ↔ t.works = [] := by
  rw [← List.map_eq_nil_iff (f := Prod.fst), keys_outputs, ← List.map_eq_nil_iff (f := Record.name) (l := t.works)]
  constructor
  · intro h
    rw [List.eq_nil_iff_forall_not_mem] at h ⊢
    intro name hname
    exact h name (List.mem_eraseDups.mpr hname)
  · intro h
    rw [h]
    rfl

theorem getLast?_named {t : Timeline} {r : Record} (h : t.getLast? = some r) : (t.named r.name).getLast? = some r := by
  obtain ⟨before, rfl⟩ := List.getLast?_eq_some_iff.mp h
  rw [getLast?_named_concat, if_pos rfl]

theorem lastOutput_of_some {t : Timeline} {r : Record} (h : t.works.getLast? = some r) : t.lastOutput = .ok r.output := by
  rw [works_eq] at h
  have h : t.reverse.find? Record.isWork = some r := List.getLast?_filter.symm.trans h
  simp only [lastOutput, h]

theorem lastOutput_of_none {t : Timeline} (h : t.works.getLast? = none) : t.lastOutput = .error .noOutput := by
  rw [works_eq] at h
  have h : t.reverse.find? Record.isWork = none := List.getLast?_filter.symm.trans h
  simp only [lastOutput, h]

end Timeline

/-- **The resolvers agree.** The outputs are a mapping of the names of all work that was done, each where it came up
first and with the output of the last work of the name. There is no last output exactly when this mapping is empty;
else it is the output of the last work, and what the mapping has for the name of this work. -/
theorem resolvers_agree (t : Timeline) :
    ∃ outputs, Resolver.outputs t = .ok (.dict outputs) ∧
      outputs.map Prod.fst = (t.works.map Record.name).eraseDups ∧
      (∀ name, outputs.lookup name = (t.works.named name).getLast?.map Record.output) ∧
      (Resolver.last t = .error .noOutput ↔ outputs = []) ∧
      (outputs = [] ∨ ∃ r, t.works.getLast? = some r ∧ Resolver.last t = .ok r.output ∧
        outputs.lookup r.name = some r.output) := by
  refine ⟨t.outputs, rfl, t.keys_outputs, t.lookup_outputs, ?_⟩
  rw [t.outputs_eq_nil_iff]
  cases h : t.works.getLast? with
  | none =>
    have hlast : Resolver.last t = .error .noOutput := Timeline.lastOutput_of_none h
    rw [List.getLast?_eq_none_iff] at h
    exact ⟨iff_of_true hlast h, .inl h⟩
  | some r =>
    have hlast : Resolver.last t = .ok r.output := Timeline.lastOutput_of_some h
    have hne : t.works ≠ [] := by
      intro he
      rw [he] at h
      cases h
    have hfault : Resolver.last t ≠ .error .noOutput := by
      intro he
      rw [hlast] at he
      cases he
    refine ⟨iff_of_false hfault hne, .inr ⟨r, rfl, hlast, ?_⟩⟩
    rw [t.lookup_outputs, Timeline.getLast?_named h]
    rfl

end Boardwalk
