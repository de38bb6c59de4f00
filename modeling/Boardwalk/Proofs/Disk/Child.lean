import Boardwalk.Disk.Location
/-!
# Names below a location

A name that is not empty, has no slash and is no row of dots alone names one thing in a directory: from a location it
leads to a child of that location and to nothing else (`join_eq_child`, `place_child`).
-/

namespace Boardwalk.Location

/-- The location that a text names from another one. Its names are entered one by one, but a text that starts at the
root of all files leads there from everywhere. -/
def join (l : Location) (s : String) : Location :=
  let below := ofText s
  if below.root.isEmpty then ⟨l.root, l.names ++ below.names⟩ else below

/-- A name with an ending is none of the names that are shorter than the ending. -/
theorem append_ne {s ending n : String} (h : n.toList.length < ending.toList.length) : s ++ ending ≠ n := by
  rintro rfl
  rw [String.toList_append, List.length_append] at h
  omega

theorem append_ne_append {s t a b : String} {c d : Char} (ha : a.toList.getLast? = some c)
    (hb : b.toList.getLast? = some d) (h : c ≠ d) : s ++ a ≠ t ++ b := by
  intro he
  have hl := congrArg (fun n : String => n.toList.getLast?) he
  simp only [String.toList_append] at hl
  rw [List.getLast?_append, List.getLast?_append, ha, hb] at hl
  exact h (Option.some.inj hl)

theorem parent_child (l : Location) (n : String) : (l.child n).parent = l := by
  unfold parent child
  rw [List.dropLast_concat]

theorem way_child (l : Location) (n : String) : (l.child n).way = l.way ++ [n] := by
  unfold way child
  rw [List.map_append, List.map_singleton, String.ofList_toList]

theorem place_child (l : Location) {n : String} (h : n ≠ "..") : (l.child n).place = l.place ++ [n] := by
  have hstart : (l.child n).start = l.start := rfl
  unfold place
  rw [way_child, hstart, List.foldl_append]
  exact if_neg h

theorem child_inj {l : Location} {m n : String} : l.child m = l.child n ↔ m = n := by
  constructor
  · intro h
    have hnames : l.names ++ [m.toList] = l.names ++ [n.toList] := congrArg names h
    exact String.toList_inj.mp (List.singleton_inj.mp (List.append_cancel_left hnames))
  · intro h
    rw [h]

theorem rootOf_eq_nil {cs : List Char} (h : '/' ∉ cs) : rootOf cs = [] := by
  cases cs with
  | nil => rfl
  | cons c cs =>
    unfold rootOf
    rw [List.takeWhile_cons_of_neg (by simpa using (List.ne_of_not_mem_cons h).symm)]

theorem ofText_name {n : String} (hslash : '/' ∉ n.toList) (hempty : n ≠ "") (hdot : n ≠ ".") :
    ofText n = ⟨[], [n.toList]⟩ := by
  have h₁ : n.toList ≠ [] := fun h => hempty (String.toList_eq_nil_iff.mp h)
  have h₂ : n.toList ≠ ['.'] := fun h => hdot (String.toList_inj.mp h)
  unfold ofText
  simp only [rootOf_eq_nil hslash, Text.splitAt_of_not_mem hslash]
  congr 1
  rw [List.filter_eq_self]
  intro w hw
  rw [List.mem_singleton.mp hw]
  simp [h₁, h₂]

theorem join_eq_child (l : Location) {n : String} (hslash : '/' ∉ n.toList) (hempty : n ≠ "") (hdot : n ≠ ".") :
    l.join n = l.child n := by
  unfold join
  rw [ofText_name hslash hempty hdot]
  rfl

end Boardwalk.Location
