import Boardwalk.Log.Line
import Boardwalk.Proofs.Json.RoundTrip
import Boardwalk.Proofs.Record.Edited
/-!
# Log lines are read back

A value of Json without floating point numbers is written on one line, whatever its texts hold (`isVisible_chars`), and
the line is read back as the value. The fields of a log line are told by their keys (`fields_eq`): each of the eight has
a value of its own, so that no named value of an entry takes the place of another field. So a log line tells all that
was logged (`text_shows`).
-/

namespace Boardwalk

/-! ## Texts on one line -/

namespace Json

/-- Neither a line break nor another control character of ASCII. -/
def IsVisible (c : Char) : Prop := 32 ≤ c.toNat

instance (c : Char) : Decidable (IsVisible c) := inferInstanceAs (Decidable (_ ≤ _))

theorem isVisible_of_all {cs : List Char} (h : (cs.all fun c => decide (IsVisible c)) = true) :
    ∀ c ∈ cs, IsVisible c :=
  fun c hc => of_decide_eq_true (List.all_eq_true.mp h c hc)

theorem isVisible_digit {c : Char} (h : c.isDigit = true) : IsVisible c :=
  Nat.le_trans (by decide) (Text.toNat_of_isDigit h).1

theorem isVisible_hexDigits {n : Nat} (hn : n < 32) : ∀ c ∈ Text.hexDigits 4 n, IsVisible c := by
  have hall : ∀ n < 32, ((Text.hexDigits 4 n).all fun c => decide (IsVisible c)) = true := by decide
  exact isVisible_of_all (hall n hn)

theorem isVisible_escapeChar (c : Char) : ∀ c' ∈ escapeChar c, IsVisible c' := by
  unfold escapeChar
  split
  · exact isVisible_of_all (by decide)
  split
  · exact isVisible_of_all (by decide)
  split
  · exact isVisible_of_all (by decide)
  split
  · exact isVisible_of_all (by decide)
  split
  · exact isVisible_of_all (by decide)
  split
  · exact isVisible_of_all (by decide)
  split
  · exact isVisible_of_all (by decide)
  split
  · rename_i hlow
    exact List.forall_mem_cons.mpr ⟨by decide, List.forall_mem_cons.mpr ⟨by decide, isVisible_hexDigits hlow⟩⟩
  · rename_i hlow
    exact List.forall_mem_singleton.mpr (Nat.le_of_not_lt hlow)

theorem isVisible_strChars (s : String) : ∀ c ∈ strChars s, IsVisible c := by
  refine List.forall_mem_append.mpr ⟨List.forall_mem_cons.mpr ⟨by decide, fun c hc => ?_⟩, isVisible_of_all (by decide)⟩
  obtain ⟨c', -, hc⟩ := List.mem_flatMap.mp hc
  exact isVisible_escapeChar c' c hc

theorem isVisible_intChars (n : Int) : ∀ c ∈ intChars n, IsVisible c := by
  have hdigits : ∀ c ∈ natChars n.natAbs, IsVisible c := fun c hc =>
    isVisible_digit ((Number.isNumeral_toDigits n.natAbs).digits c hc)
  unfold intChars
  split
  · exact List.forall_mem_cons.mpr ⟨by decide, hdigits⟩
  · exact hdigits

theorem opening_line (d : Nat) : Layout.line.opening d = [] := rfl

theorem between_line (d : Nat) : Layout.line.between d = [',', ' '] := rfl

theorem closing_line (d : Nat) : Layout.line.closing d = [] := rfl

mutual

theorem isVisible_chars : ∀ (j : Json) (d : Nat), j.isExact = true → ∀ c ∈ chars .line d j, IsVisible c
  | .null, _, _ => by
    rw [chars]
    exact isVisible_of_all (by decide)
  | .bool true, _, _ => by
    rw [chars]
    exact isVisible_of_all (by decide)
  | .bool false, _, _ => by
    rw [chars]
    exact isVisible_of_all (by decide)
  | .int n, _, _ => isVisible_intChars n
  | .float _, _, h => by simp [isExact] at h
  | .str s, _, _ => isVisible_strChars s
  | .arr [], _, _ => by
    rw [chars]
    exact isVisible_of_all (by decide)
  | .arr (x :: xs), d, h => by
    simp only [isExact, isExactItems, Bool.and_eq_true] at h
    have hx := isVisible_chars x (d + 1) h.1
    have hxs := isVisible_charsItems xs d h.2
    simp only [chars, opening_line, closing_line, List.append_nil, List.forall_mem_append]
    exact ⟨⟨⟨isVisible_of_all (by decide), hx⟩, hxs⟩, isVisible_of_all (by decide)⟩
  | .obj [], _, _ => by
    rw [chars]
    exact isVisible_of_all (by decide)
  | .obj ((k, x) :: fs), d, h => by
    simp only [isExact, isExactFields, Bool.and_eq_true] at h
    have hx := isVisible_chars x (d + 1) h.2.1
    have hfs := isVisible_charsFields fs d h.2.2
    simp only [chars, opening_line, closing_line, List.append_nil, List.forall_mem_append]
    have hcolon : ∀ c ∈ [':', ' '], IsVisible c := isVisible_of_all (by decide)
    exact ⟨⟨⟨⟨⟨isVisible_of_all (by decide), isVisible_strChars k⟩, hcolon⟩, hx⟩, hfs⟩, isVisible_of_all (by decide)⟩

theorem isVisible_charsItems : ∀ (xs : List Json) (d : Nat), isExactItems xs = true →
    ∀ c ∈ charsItems .line d xs, IsVisible c
  | [], _, _ => by simp [charsItems]
  | x :: xs, d, h => by
    simp only [isExactItems, Bool.and_eq_true] at h
    simp only [charsItems, between_line, List.forall_mem_append]
    exact ⟨⟨isVisible_of_all (by decide), isVisible_chars x (d + 1) h.1⟩, isVisible_charsItems xs d h.2⟩

theorem isVisible_charsFields : ∀ (fs : List (String × Json)) (d : Nat), isExactFields fs = true →
    ∀ c ∈ charsFields .line d fs, IsVisible c
  | [], _, _ => by simp [charsFields]
  | (k, x) :: fs, d, h => by
    simp only [isExactFields, Bool.and_eq_true] at h
    simp only [charsFields, between_line, List.forall_mem_append]
    exact ⟨⟨⟨⟨isVisible_of_all (by decide), isVisible_strChars k⟩, isVisible_of_all (by decide)⟩,
      isVisible_chars x (d + 1) h.1⟩,
      isVisible_charsFields fs d h.2⟩

end

theorem newline_not_mem_line {j : Json} (h : j.isExact = true) : '\n' ∉ j.line.toList := by
  rw [line, String.toList_ofList]
  intro hmem
  exact absurd (isVisible_chars j 0 h '\n' hmem) (by decide)

theorem isExactFields_iff {fs : List (String × Json)} : isExactFields fs = true ↔ ∀ f ∈ fs, f.2.isExact = true := by
  induction fs with
  | nil => simp [isExactFields]
  | cons f fs ih => rw [isExactFields, Bool.and_eq_true, ih, List.forall_mem_cons]

theorem isWritableFields_iff {fs : List (String × Json)} :
    isWritableFields fs = true ↔ ∀ f ∈ fs, f.2.isWritable = true := by
  induction fs with
  | nil => simp [isWritableFields]
  | cons f fs ih => rw [isWritableFields, Bool.and_eq_true, ih, List.forall_mem_cons]

theorem nestingFields_le {fs : List (String × Json)} {n : Nat} : nestingFields fs ≤ n ↔ ∀ f ∈ fs, f.2.nesting ≤ n := by
  induction fs with
  | nil => simp [nestingFields]
  | cons f fs ih => rw [nestingFields, Nat.max_le, ih, List.forall_mem_cons]

theorem lookup_map {α β : Type} (f : α → β) (fields : List (String × α)) (key : String) :
    (fields.map fun e => (e.1, f e.2)).lookup key = (fields.lookup key).map f := by
  induction fields with
  | nil => rfl
  | cons e fields ih =>
    rw [List.map_cons, List.lookup_cons, List.lookup_cons, ih]
    cases key == e.1 with
    | true => rfl
    | false => rfl

theorem lookup_filter_key {α : Type} (p : String → Bool) (fields : List (String × α)) {key : String}
    (hp : p key = true) : (fields.filter fun e => p e.1).lookup key = fields.lookup key := by
  induction fields with
  | nil => rfl
  | cons e fields ih =>
    rw [List.filter_cons]
    split
    · rw [List.lookup_cons, List.lookup_cons, ih]
    · rename_i he
      have hne : key ≠ e.1 := fun h => he (h ▸ hp)
      rw [List.lookup_cons, beq_false_of_ne hne, ih]

end Json

/-! ## Values of Json -/

namespace Json

/-- The value is written as it is on a line that opens so many containers before it. -/
def Stands (j : Json) (n : Nat) : Prop := j.isExact = true ∧ j.isWritable = true ∧ j.nesting + n ≤ depthLimit

theorem Stands.mono {j : Json} {m n : Nat} (h : j.Stands n) (hm : m ≤ n) : j.Stands m :=
  ⟨h.1, h.2.1, (Nat.add_le_add_left hm _).trans h.2.2⟩

theorem stands_str (s : String) : (Json.str s).Stands 1 := ⟨rfl, rfl, by simp [nesting, depthLimit]⟩

theorem stands_obj {fs : List (String × Json)} {n : Nat} (hn : n + 1 ≤ depthLimit) (hkeys : (fs.map Prod.fst).Nodup)
    (h : ∀ f ∈ fs, f.2.Stands (n + 1)) : (obj fs).Stands n := by
  refine ⟨?_, isWritableFields_iff.mpr fun f hf => (h f hf).2.1, ?_⟩
  · simp only [isExact, Bool.and_eq_true, decide_eq_true_iff]
    exact ⟨hkeys, isExactFields_iff.mpr fun f hf => (h f hf).1⟩
  · have hall : nestingFields fs ≤ depthLimit - (n + 1) := nestingFields_le.mpr fun f hf => by
      have := (h f hf).2.2
      omega
    rw [nesting]
    omega

end Json

namespace Value

theorem ofJsonFields_eq_map (fs : List (String × Json)) : ofJsonFields fs = fs.map fun f => (f.1, ofJson f.2) := by
  induction fs with
  | nil => rfl
  | cons f fs ih => rw [ofJsonFields, List.map_cons, ih]

mutual

theorem inLine_ofJson : ∀ j : Json, (ofJson j).inLine = j
  | .null => rfl
  | .bool _ => rfl
  | .int _ => rfl
  | .float _ => rfl
  | .str _ => rfl
  | .arr xs => by rw [ofJson, inLine, inLineItems_ofJson xs]
  | .obj fs => by rw [ofJson, inLine, inLineFields_ofJson fs]

theorem inLineItems_ofJson : ∀ xs : List Json, inLineItems (ofJsonItems xs) = xs
  | [] => rfl
  | x :: xs => by rw [ofJsonItems, inLineItems, inLine_ofJson x, inLineItems_ofJson xs]

theorem inLineFields_ofJson : ∀ fs : List (String × Json), inLineFields (ofJsonFields fs) = fs
  | [] => rfl
  | (k, x) :: fs => by rw [ofJsonFields, inLineFields, inLine_ofJson x, inLineFields_ofJson fs]

end

/-- The value is one of Json. It holds no floating point numbers and no key twice. -/
def IsExact (v : Value) : Prop := ∃ j : Json, v = ofJson j ∧ j.isExact = true

/-- The numbers in the value have numerals, and below two fields it is not nested too deep for a line. -/
def FitsLine (v : Value) : Prop := v.inLine.isWritable = true ∧ v.inLine.nesting + 2 ≤ Json.depthLimit

theorem IsExact.inLine {v : Value} (h : v.IsExact) : ofJson v.inLine = v ∧ v.inLine.isExact = true := by
  obtain ⟨j, rfl, hexact⟩ := h
  rw [inLine_ofJson]
  exact ⟨rfl, hexact⟩

theorem IsExact.stands {v : Value} (h : v.IsExact) (hfits : v.FitsLine) : v.inLine.Stands 2 :=
  ⟨h.inLine.2, hfits.1, hfits.2⟩

theorem isExact_str (s : String) : (Value.str s).IsExact := ⟨.str s, rfl, rfl⟩

theorem fitsLine_str (s : String) : (Value.str s).FitsLine := ⟨rfl, by simp [inLine, Json.nesting, Json.depthLimit]⟩

end Value

/-! ## The fields of a log line -/

namespace Log

def lineKeys : List String :=
  ["timestamp", "level", "logger", "storyboard", "session", "message", "extra", "exception"]

/-- A named value of an entry that stands below `extra`. -/
def IsNested (key : String) : Prop := key ∉ ownNames ∧ key.toList.head? ≠ some '_' ∧ key ∉ runNames

instance (key : String) : Decidable (IsNested key) := inferInstanceAs (Decidable (_ ∧ _ ∧ _))

def nested (extras : List (String × Value)) : List (String × Value) := extras.filter fun e => IsNested e.1

theorem isNested_iff {key : String} : IsNested key ↔ isExtra key = true ∧ runNames.contains key = false := by
  simp [IsNested, isExtra, and_assoc]

theorem mem_of_lookup {α : Type} {fields : List (String × α)} {key : String} {v : α} (h : fields.lookup key = some v) :
    (key, v) ∈ fields := by
  obtain ⟨before, after, rfl, -⟩ := List.lookup_eq_some_iff.mp h
  exact List.mem_append_right before List.mem_cons_self

namespace Line

/-- What a log line has to tell, and under which keys. -/
def entries (l : Line) (stamp : String) : List (String × Option Json) :=
  [("timestamp", some (.str stamp)), ("level", some l.level.inLine), ("logger", some l.logger.inLine),
    ("storyboard", (l.extras.lookup "storyboard").map Value.inLine),
    ("session", (l.extras.lookup "session").map Value.inLine), ("message", some (.str l.message)),
    ("extra", if l.otherFields.isEmpty then none else some (.obj l.otherFields)), ("exception", l.fault.map .str)]

def fields (l : Line) (stamp : String) : List (String × Json) := ("timestamp", .str stamp) :: l.body

variable {l : Line} {stamp : String}

theorem otherFields_eq (l : Line) : l.otherFields = (nested l.extras).map fun e => (e.1, e.2.inLine) := by
  unfold otherFields shownExtras nested
  rw [List.filter_filter]
  congr 1
  refine List.filter_congr fun e _ => ?_
  rw [Bool.eq_iff_iff, decide_eq_true_iff, isNested_iff, Bool.and_eq_true, Bool.not_eq_true', and_comm]

theorem runFields_eq (l : Line) :
    l.runFields = runNames.filterMap fun key => ((l.extras.lookup key).map Value.inLine).map fun v => (key, v) := by
  unfold runFields
  refine List.filterMap_congr fun key hkey => ?_
  have hshown : isExtra key = true := by
    revert key
    decide
  rw [shownExtras, Json.lookup_filter_key _ _ hshown, Option.map_map]
  rfl

theorem fields_eq (l : Line) (stamp : String) :
    l.fields stamp = lineKeys.filterMap fun key => ((l.entries stamp).lookup key).join.map fun v => (key, v) := by
  generalize hgiven : (fun key => ((l.entries stamp).lookup key).join.map fun v => (key, v)) = given
  have hrun : l.runFields = runNames.filterMap given := by
    rw [runFields_eq, ← hgiven]
    exact List.filterMap_congr (by simp [runNames, entries, List.lookup_cons])
  have hextra : (if l.otherFields.isEmpty then [] else [("extra", Json.obj l.otherFields)]) =
      ["extra"].filterMap given := by
    rw [← hgiven]
    by_cases hempty : l.otherFields.isEmpty = true
    · simp [entries, hempty, List.lookup_cons]
    · simp [entries, hempty, List.lookup_cons]
  have hfirst : [("timestamp", Json.str stamp), ("level", l.level.inLine), ("logger", l.logger.inLine)] =
      ["timestamp", "level", "logger"].filterMap given := by
    rw [← hgiven]
    rfl
  have hmessage : [("message", Json.str l.message)] = ["message"].filterMap given := by
    rw [← hgiven]
    rfl
  obtain ⟨faults, hfields, hfaults⟩ : ∃ faults, l.fields stamp =
      [("timestamp", Json.str stamp), ("level", l.level.inLine), ("logger", l.logger.inLine)] ++ l.runFields ++
        [("message", .str l.message)] ++ (if l.otherFields.isEmpty then [] else [("extra", .obj l.otherFields)]) ++
        faults ∧ faults = ["exception"].filterMap given := by
    refine ⟨_, rfl, ?_⟩
    rw [← hgiven]
    cases hfault : l.fault with
    | none => simp [entries, hfault, List.lookup_cons]
    | some text => simp [entries, hfault, List.lookup_cons]
  rw [hfields, hfirst, hrun, hmessage, hextra, hfaults]
  simp only [← List.filterMap_append]
  rfl

theorem lookup_fields (l : Line) (stamp key : String) :
    (l.fields stamp).lookup key = if key ∈ lineKeys then ((l.entries stamp).lookup key).join else none := by
  rw [fields_eq, Json.lookup_filterMap]

theorem keys_fields (l : Line) (stamp : String) : ((l.fields stamp).map Prod.fst).Sublist lineKeys := by
  rw [fields_eq, Json.keys_filterMap]
  exact List.filter_sublist

theorem nodup_fields (l : Line) (stamp : String) : ((l.fields stamp).map Prod.fst).Nodup :=
  (keys_fields l stamp).nodup (by decide)

theorem mem_entries {f : String × Json} (h : f ∈ l.fields stamp) : (f.1, some f.2) ∈ l.entries stamp := by
  rw [fields_eq] at h
  obtain ⟨key, -, hf⟩ := List.mem_filterMap.mp h
  obtain ⟨v, hv, rfl⟩ := Option.map_eq_some_iff.mp hf
  exact mem_of_lookup (Option.join_eq_some_iff.mp hv)

theorem mem_extra (h : l.otherFields ≠ []) : ("extra", .obj l.otherFields) ∈ l.fields stamp := by
  simp [fields, body, h]

end Line

/-! ## What a log line shows -/

/-- The values of the entry are those of Json, and named by different keys. -/
structure Draft.IsExact (d : Draft) : Prop where
  level : d.level.IsExact
  logger : d.logger.IsExact
  keys : (d.extras.map Prod.fst).Nodup
  extras : ∀ e ∈ d.extras, e.2.IsExact

/-- Its values can stand in a line. -/
structure Draft.Fits (d : Draft) : Prop where
  level : d.level.FitsLine
  logger : d.logger.FitsLine
  extras : ∀ e ∈ d.extras, e.2.FitsLine

/-- What the entry comes to: the text of its time, its message with the values in their places, and what is told of its
fault. -/
structure Draft.Gives (d : Draft) (stamp message : String) (fault : Option String) : Prop where
  time : ∃ time, Instant.ofValue d.created = .ok time ∧ time.text = .ok stamp
  message : messageText d.message d.values = .ok message
  fault : d.faultText = .ok fault

/-- The fields of a log line tell all that was logged, and each under a key of its own: the names of the board and of
the session just if they were given, and the other named values below `extra` if there are any. -/
structure Shows (d : Draft) (stamp message : String) (fault : Option String) (fields : List (String × Value)) :
    Prop where
  keys : (fields.map Prod.fst).Nodup
  known : ∀ key ∈ fields.map Prod.fst, key ∈ lineKeys
  timestamp : fields.lookup "timestamp" = some (.str stamp)
  level : fields.lookup "level" = some d.level
  logger : fields.lookup "logger" = some d.logger
  message : fields.lookup "message" = some (.str message)
  exception : fields.lookup "exception" = fault.map .str
  run : ∀ key ∈ runNames, fields.lookup key = d.extras.lookup key
  extra : ∃ others, fields.lookup "extra" = (if others = [] then none else some (.dict others)) ∧
    (others.map Prod.fst).Nodup ∧ ∀ e, e ∈ others ↔ e ∈ d.extras ∧ IsNested e.1

section

variable {d : Draft} {stamp message : String} {fault : Option String}

theorem Draft.text_of_gives (h : d.Gives stamp message fault) :
    ∃ time, d.text = (lineText (.obj ((d.line time message fault).fields stamp))).mapError .written := by
  obtain ⟨time, htime, hstamp⟩ := h.time
  refine ⟨time, ?_⟩
  unfold text
  simp only [htime, hstamp, h.message, h.fault]
  simp only [Line.toJson, Draft.line, hstamp]
  rfl

theorem lineText_of_fits {j : Json} (hw : j.isWritable = true) (hn : j.nesting ≤ Json.depthLimit) :
    lineText j = .ok j.line := by
  rw [lineText, if_neg (Nat.not_lt.mpr hn), if_pos hw]

theorem nodup_nested {extras : List (String × Value)} (h : (extras.map Prod.fst).Nodup) :
    ((nested extras).map Prod.fst).Nodup :=
  h.sublist (List.filter_sublist.map Prod.fst)

theorem mem_nested {extras : List (String × Value)} {e : String × Value} :
    e ∈ nested extras ↔ e ∈ extras ∧ IsNested e.1 := by
  rw [nested, List.mem_filter, decide_eq_true_iff]

section

variable {extras : List (String × Value)} (h : ∀ e ∈ extras, e.2.IsExact)
include h

theorem lookup_reread (key : String) :
    ((extras.lookup key).map Value.inLine).map Value.ofJson = extras.lookup key := by
  cases hv : extras.lookup key with
  | none => rfl
  | some v => exact congrArg some (h _ (mem_of_lookup hv)).inLine.1

theorem nested_reread : ((nested extras).map fun e => (e.1, e.2.inLine)).map (fun e => (e.1, Value.ofJson e.2)) =
    nested extras := by
  rw [List.map_map]
  refine (List.map_congr_left fun e he => ?_).trans (List.map_id _)
  have hv := (h e (mem_nested.mp he).1).inLine.1
  rw [Function.comp_apply, hv]
  rfl

end

section

variable {l : Line} (hkeys : (l.extras.map Prod.fst).Nodup)
  (hextras : ∀ e ∈ l.extras, e.2.IsExact) (hfits : ∀ e ∈ l.extras, e.2.FitsLine)
include hextras hfits

theorem stands_run {key : String} {j : Json} (hj : (l.extras.lookup key).map Value.inLine = some j) : j.Stands 1 := by
  obtain ⟨v, hv, rfl⟩ := Option.map_eq_some_iff.mp hj
  have hmem := mem_of_lookup hv
  exact ((hextras _ hmem).stands (hfits _ hmem)).mono (by decide)

include hkeys

theorem stands_otherFields : (Json.obj l.otherFields).Stands 1 := by
  rw [Line.otherFields_eq]
  refine Json.stands_obj (by decide) ?_ fun f hf => ?_
  · rw [List.map_map]
    exact nodup_nested hkeys
  · obtain ⟨e, he, rfl⟩ := List.mem_map.mp hf
    have hmem := (mem_nested.mp he).1
    exact (hextras e hmem).stands (hfits e hmem)

theorem stands_fields (hlevel : l.level.inLine.Stands 1) (hlogger : l.logger.inLine.Stands 1) (stamp : String) :
    (Json.obj (l.fields stamp)).Stands 0 := by
  have hentries : ∀ e ∈ l.entries stamp, ∀ j, e.2 = some j → j.Stands 1 := by
    simp only [Line.entries, List.forall_mem_cons]
    refine ⟨?_, ?_, ?_, ?_, ?_, ?_, ?_, ?_, by simp⟩
    · rintro j ⟨⟩
      exact Json.stands_str stamp
    · rintro j ⟨⟩
      exact hlevel
    · rintro j ⟨⟩
      exact hlogger
    · exact fun j => stands_run hextras hfits
    · exact fun j => stands_run hextras hfits
    · rintro j ⟨⟩
      exact Json.stands_str l.message
    · intro j hj
      split at hj
      · cases hj
      · cases hj
        exact stands_otherFields hkeys hextras hfits
    · intro j hj
      obtain ⟨text, -, rfl⟩ := Option.map_eq_some_iff.mp hj
      exact Json.stands_str text
  exact Json.stands_obj (by decide) (Line.nodup_fields l stamp) fun f hf => hentries _ (Line.mem_entries hf) f.2 rfl

end

theorem fields_shows (hexact : d.IsExact) (time : Instant) (stamp message : String) (fault : Option String) :
    Shows d stamp message fault (Value.ofJsonFields ((d.line time message fault).fields stamp)) := by
  have hlookup : ∀ key, (Value.ofJsonFields ((d.line time message fault).fields stamp)).lookup key =
      (if key ∈ lineKeys then (((d.line time message fault).entries stamp).lookup key).join else none).map
        Value.ofJson := fun key => by
    rw [Value.ofJsonFields_eq_map, Json.lookup_map, Line.lookup_fields]
  have hkeys : (Value.ofJsonFields ((d.line time message fault).fields stamp)).map Prod.fst =
      ((d.line time message fault).fields stamp).map Prod.fst := by
    rw [Value.ofJsonFields_eq_map, List.map_map]
    rfl
  refine ⟨?_, ?_, hlookup _, ?_, ?_, hlookup _, ?_, ?_, nested d.extras, ?_, nodup_nested hexact.keys,
    fun e => mem_nested⟩
  · rw [hkeys]
    exact Line.nodup_fields _ _
  · rw [hkeys]
    exact fun key => (Line.keys_fields _ _).mem
  · exact (hlookup _).trans (congrArg some hexact.level.inLine.1)
  · exact (hlookup _).trans (congrArg some hexact.logger.inLine.1)
  · refine (hlookup _).trans ?_
    cases fault with
    | none => rfl
    | some text => rfl
  · intro key hkey
    rcases List.mem_pair.mp hkey with rfl | rfl
    · exact (hlookup _).trans (lookup_reread hexact.extras _)
    · exact (hlookup _).trans (lookup_reread hexact.extras _)
  · refine (hlookup _).trans ?_
    change (if (d.line time message fault).otherFields.isEmpty then none
      else some (Json.obj (d.line time message fault).otherFields)).map Value.ofJson = _
    have hothers : (d.line time message fault).otherFields = (nested d.extras).map fun e => (e.1, e.2.inLine) :=
      Line.otherFields_eq _
    rw [hothers]
    by_cases hempty : nested d.extras = []
    · rw [if_pos (by simp [hempty]), if_pos hempty]
      rfl
    · rw [if_neg (by simpa using hempty), if_neg hempty, Option.map_some, Value.ofJson, Value.ofJsonFields_eq_map,
        nested_reread hexact.extras]

/-- **A log line loses nothing**, if its values fit on it. It is one line, it is read back as the object that was
written, in which no key stands twice, and the fields of this object show all that was logged. -/
theorem text_shows (hgives : d.Gives stamp message fault) (hexact : d.IsExact) (hfits : d.Fits) :
    ∃ j fields, d.text = .ok j.line ∧ '\n' ∉ j.line.toList ∧ Json.parse j.line = .ok j ∧
      Value.ofJson j = .dict fields ∧ Shows d stamp message fault fields := by
  obtain ⟨time, htext⟩ := Draft.text_of_gives hgives
  obtain ⟨hj, hw, hn⟩ := stands_fields (l := d.line time message fault) hexact.keys hexact.extras hfits.extras
    ((hexact.level.stands hfits.level).mono (by decide)) ((hexact.logger.stands hfits.logger).mono (by decide)) stamp
  rw [lineText_of_fits hw hn] at htext
  refine ⟨_, _, htext, Json.newline_not_mem_line hj, ?_, rfl, fields_shows hexact time stamp message fault⟩
  rw [Json.parse_line hw hn, Json.reread_eq_self hj]

end

def startEntry : Draft where
  created := .int 0
  level := .str "INFO"
  logger := .str "boards"
  message := .str "Started\n\tall\x00 of it"
  values := .row []
  extras := [("level", .int 3), ("storyboard", .str "create project"), ("message", .null), ("_cursor", .int 2),
    ("extra", .list [.bool true, .dict [("timestamp", .str "\"\n")]])]
  fault := none
  cause := .null

/-- What is called like a field does not take its place. -/
theorem startEntry_shown :
    startEntry.Gives "1970-01-01T00:00:00+00:00" "Started\n\tall\x00 of it" none ∧ startEntry.IsExact ∧
    startEntry.Fits ∧
    ∃ j fields, startEntry.text = .ok j.line ∧ Json.parse j.line = .ok j ∧ Value.ofJson j = .dict fields ∧
      fields.lookup "level" = some (.str "INFO") ∧ fields.lookup "storyboard" = some (.str "create project") ∧
      fields.lookup "session" = none := by
  have hgives : startEntry.Gives "1970-01-01T00:00:00+00:00" "Started\n\tall\x00 of it" none :=
    ⟨⟨⟨0, 0⟩, by decide +kernel, by decide +kernel⟩, rfl, rfl⟩
  have hexact : startEntry.IsExact := by
    refine ⟨Value.isExact_str _, Value.isExact_str _, by decide, ?_⟩
    simp only [startEntry, List.forall_mem_cons]
    exact ⟨⟨.int 3, rfl, by decide⟩, Value.isExact_str _, ⟨.null, rfl, rfl⟩, ⟨.int 2, rfl, rfl⟩,
      ⟨.arr [.bool true, .obj [("timestamp", .str "\"\n")]], rfl, by decide⟩, by simp⟩
  have hfits : startEntry.Fits := by
    refine ⟨Value.fitsLine_str _, Value.fitsLine_str _, ?_⟩
    simp only [startEntry, List.forall_mem_cons]
    exact ⟨⟨by decide +kernel, by decide⟩, Value.fitsLine_str _, ⟨rfl, by decide⟩, ⟨by decide +kernel, by decide⟩,
      ⟨by decide, by decide⟩, by simp⟩
  obtain ⟨j, fields, htext, -, hread, hfields, hshows⟩ := text_shows hgives hexact hfits
  exact ⟨hgives, hexact, hfits, j, fields, htext, hread, hfields, hshows.level, hshows.run _ (by decide),
    hshows.run _ (by decide)⟩

def sizedEntry (n : Int) : Draft := { startEntry with extras := [("size", .int n)] }

def unfilledEntry : Draft := { startEntry with message := .str "100%", values := .row [.int 1], extras := [] }

/-- A number without a numeral takes the whole line away, and so does a message that its values do not fill. -/
theorem lines_lost :
    (∃ n, (sizedEntry n).Gives "1970-01-01T00:00:00+00:00" "Started\n\tall\x00 of it" none ∧ (sizedEntry n).IsExact ∧
      ∀ text, (sizedEntry n).text ≠ .ok text) ∧
    unfilledEntry.IsExact ∧ unfilledEntry.text = .error (.message .unfinished) := by
  have htime : Instant.ofValue startEntry.created = .ok ⟨0, 0⟩ := by decide +kernel
  have hgives : ∀ n, (sizedEntry n).Gives "1970-01-01T00:00:00+00:00" "Started\n\tall\x00 of it" none := fun n =>
    ⟨⟨⟨0, 0⟩, htime, by decide +kernel⟩, rfl, rfl⟩
  have hexact : ∀ n, (sizedEntry n).IsExact := fun n =>
    ⟨Value.isExact_str _, Value.isExact_str _, List.nodup_singleton _, List.forall_mem_singleton.mpr ⟨.int n, rfl, rfl⟩⟩
  have hlost : ∀ n, Number.hasNumeral n = false → ∀ text, (sizedEntry n).text ≠ .ok text := by
    intro n hn
    obtain ⟨time, htext⟩ := Draft.text_of_gives (hgives n)
    have hothers : ((sizedEntry n).line time "Started\n\tall\x00 of it" none).otherFields = [("size", .int n)] := by
      rw [Line.otherFields_eq]
      simp [nested, IsNested, ownNames, runNames, sizedEntry, Draft.line, Value.inLine]
    have hw : (Json.obj (((sizedEntry n).line time "Started\n\tall\x00 of it" none).fields
        "1970-01-01T00:00:00+00:00")).isWritable = false := by
      refine Bool.eq_false_iff.mpr fun hall => ?_
      have hextra := Json.isWritableFields_iff.mp hall _ (Line.mem_extra (by simp [hothers]))
      rw [hothers] at hextra
      simp [Json.isWritable, Json.isWritableFields, hn] at hextra
    intro text hgiven
    rw [htext, lineText, hw] at hgiven
    split at hgiven
    · cases hgiven
    · cases hgiven
  exact ⟨⟨_, hgives _, hexact _, hlost (10 ^ Number.numeralLimit : Nat) (by decide +kernel)⟩,
    ⟨Value.isExact_str _, Value.isExact_str _, by decide, by simp [unfilledEntry]⟩, rfl⟩

end Log

end Boardwalk
