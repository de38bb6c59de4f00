import Boardwalk.Proofs.Json.Tokens
import Boardwalk.Proofs.Text.Numeral
/-!
# Reading back what was written

The text of a value in any loose layout is read back as the value (`parseChars_chars`) unless it is nested too deep, up to
what a text cannot hold: a floating point number is the one that its text shows, and of two fields with one key the later value
counts (`reread`). A value without floating point numbers whose keys differ is read back as it was
(`reread_eq_self`).
-/

namespace Boardwalk

def Number.reread (x : Float) : Float :=
  match parts? x with
  | some p => p.reread
  | none => if isNaN x then notANumber else infinity (isNegative x)

namespace Json

mutual

def reread : Json → Json
  | .null => .null
  | .bool b => .bool b
  | .int n => .int n
  | .float x => .float (Number.reread x)
  | .str s => .str s
  | .arr xs => .arr (rereadItems xs)
  | .obj fs => .obj (rereadFields fs [])

def rereadItems : List Json → List Json
  | [] => []
  | x :: xs => reread x :: rereadItems xs

def rereadFields : List (String × Json) → List (String × Json) → List (String × Json)
  | [], read => read
  | (k, x) :: fs, read => rereadFields fs (put k (reread x) read)

end

/-! ## Layouts -/

/-- Nothing but gaps stands around the items of a container, and one comma between two of them. -/
structure Layout.IsLoose (l : Layout) : Prop where
  opening : ∀ d, ∀ c ∈ l.opening d, isGap c = true
  between : ∀ d, ∃ gs, l.between d = ',' :: gs ∧ ∀ c ∈ gs, isGap c = true
  closing : ∀ d, ∀ c ∈ l.closing d, isGap c = true

theorem isGap_newline (d : Nat) : ∀ c ∈ newline d, isGap c = true := by
  intro c hc
  rcases List.mem_cons.mp hc with rfl | hc
  · rfl
  · rw [List.eq_of_mem_replicate hc]
    rfl

theorem Layout.isLoose_indented : Layout.indented.IsLoose :=
  ⟨fun d => isGap_newline (d + 1), fun d => ⟨newline (d + 1), rfl, isGap_newline (d + 1)⟩, isGap_newline⟩

theorem Layout.isLoose_line : Layout.line.IsLoose :=
  ⟨by simp [Layout.line], fun _ => ⟨[' '], rfl, by simp [isGap]⟩, by simp [Layout.line]⟩

theorem skipGaps_append {gs : List Char} (h : ∀ c ∈ gs, isGap c = true) (rest : List Char) :
    skipGaps (gs ++ rest) = skipGaps rest :=
  List.dropWhile_append_of_pos h

theorem skipGaps_cons {c : Char} (h : isGap c = false) (rest : List Char) :
    skipGaps (c :: rest) = c :: rest :=
  List.dropWhile_cons_of_neg (by simp [h])

theorem stops_gaps {gs : List Char} (h : ∀ c ∈ gs, isGap c = true) {rest : List Char} (hr : Stops rest) :
    Stops (gs ++ rest) := by
  cases gs with
  | nil => exact hr
  | cons g gs =>
    intro c hc
    cases Option.mem_some.mp hc
    have hg := h g List.mem_cons_self
    refine ⟨?_, ?_, ?_, ?_⟩
    · unfold isGap at hg
      simp only [Bool.or_eq_true, decide_eq_true_eq] at hg
      rcases hg with ((rfl | rfl) | rfl) | rfl <;> rfl
    all_goals
      rintro rfl
      cases hg

theorem stops_cons {c : Char} (h : c.isDigit = false) (h₁ : c ≠ '.') (h₂ : c ≠ 'e') (h₃ : c ≠ 'E')
    (rest : List Char) : Stops (c :: rest) := by
  intro c' hc'
  cases Option.mem_some.mp hc'
  exact ⟨h, h₁, h₂, h₃⟩

/-! ## The first character of a value -/

def IsOpener (c : Char) : Prop := Text.isBlank c = false ∧ c ≠ ']' ∧ c ≠ '}'

theorem IsOpener.not_gap {c : Char} (h : IsOpener c) : isGap c = false := by
  cases hg : isGap c with
  | false => rfl
  | true =>
    have hb := h.1
    simp only [isGap, Bool.or_eq_true, decide_eq_true_eq] at hg
    rcases hg with ((rfl | rfl) | rfl) | rfl
    all_goals cases hb

theorem isOpener_digit {c : Char} (h : c.isDigit = true) : IsOpener c := by
  refine ⟨Text.not_isBlank_of_isDigit h, ?_, ?_⟩
  all_goals
    rintro rfl
    cases h

theorem layOut_head {ds : List Char} (h : Number.IsNumeral ds) (e : Int) :
    ∃ c cs, Number.layOut ds e = c :: cs ∧ c.isDigit = true := by
  obtain ⟨d, ds, rfl⟩ := List.exists_cons_of_ne_nil h.ne_nil
  have hd : d.isDigit = true := h.digits d List.mem_cons_self
  unfold Number.layOut
  split
  · cases ds with
    | nil => exact ⟨d, _, rfl, hd⟩
    | cons c cs => exact ⟨d, _, rfl, hd⟩
  · split
    · exact ⟨'0', _, rfl, rfl⟩
    · dsimp only
      split
      · exact ⟨d, _, rfl, hd⟩
      · exact ⟨d, _, rfl, hd⟩

theorem floatWords_eq (x : Float) : floatWords x = match Number.parts? x with
    | some p => p.chars
    | none => if Number.isNaN x then "NaN".toList else
        if Number.isNegative x then "-Infinity".toList else "Infinity".toList := by
  unfold floatWords Number.floatText
  cases Number.parts? x with
  | some p => exact String.toList_ofList
  | none =>
    dsimp only
    split
    · rfl
    · split
      · rfl
      · rfl

theorem floatWords_head (x : Float) : ∃ c cs, floatWords x = c :: cs ∧ IsOpener c := by
  rw [floatWords_eq]
  split
  · rename_i p _
    obtain ⟨c, cs, hc, hd⟩ := layOut_head p.decimal_isNumeral p.decimal.2
    unfold Number.Parts.chars
    dsimp only
    rw [hc]
    cases p.negative with
    | true => exact ⟨'-', c :: cs, rfl, by decide, by decide, by decide⟩
    | false => exact ⟨c, cs, rfl, isOpener_digit hd⟩
  · split
    · exact ⟨'N', _, rfl, by decide, by decide, by decide⟩
    · split
      · exact ⟨'-', _, rfl, by decide, by decide, by decide⟩
      · exact ⟨'I', _, rfl, by decide, by decide, by decide⟩

theorem natChars_head (n : Nat) : ∃ c cs, natChars n = c :: cs ∧ c.isDigit = true := by
  obtain ⟨c, cs, hc⟩ := List.exists_cons_of_ne_nil (Number.isNumeral_toDigits n).ne_nil
  exact ⟨c, cs, hc, (Number.isNumeral_toDigits n).digits c (by rw [hc]; exact List.mem_cons_self)⟩

theorem chars_head (l : Layout) (d : Nat) (j : Json) : ∃ c cs, chars l d j = c :: cs ∧ IsOpener c := by
  unfold chars
  split
  · exact ⟨'n', _, rfl, by decide, by decide, by decide⟩
  · exact ⟨'t', _, rfl, by decide, by decide, by decide⟩
  · exact ⟨'f', _, rfl, by decide, by decide, by decide⟩
  · rename_i n
    obtain ⟨c, cs, hc, hd⟩ := natChars_head n.natAbs
    unfold intChars
    rw [hc]
    split
    · exact ⟨'-', _, rfl, by decide, by decide, by decide⟩
    · exact ⟨c, cs, rfl, isOpener_digit hd⟩
  · exact floatWords_head _
  · exact ⟨'"', _, rfl, by decide, by decide, by decide⟩
  · exact ⟨'[', _, rfl, by decide, by decide, by decide⟩
  · exact ⟨'[', _, rfl, by decide, by decide, by decide⟩
  · exact ⟨'{', _, rfl, by decide, by decide, by decide⟩
  · exact ⟨'{', _, rfl, by decide, by decide, by decide⟩

theorem skipGaps_chars (l : Layout) (d : Nat) (j : Json) (rest : List Char) :
    skipGaps (chars l d j ++ rest) = chars l d j ++ rest := by
  obtain ⟨c, cs, hc, ho⟩ := chars_head l d j
  rw [hc]
  exact skipGaps_cons ho.not_gap _

/-! ## Values without parts -/

theorem readValue_digit (fuel room : Nat) {c : Char} (h : c.isDigit = true) (cs : List Char) :
    readValue (fuel + 1) room (c :: cs) = readNumber false (c :: cs) := by
  unfold readValue
  split
  case h_11 => rfl
  all_goals
    rename_i heq
    cases heq
    cases h

theorem readValue_minus (fuel room : Nat) {c : Char} (h : c.isDigit = true) (cs : List Char) :
    readValue (fuel + 1) room ('-' :: c :: cs) = readNumber true (c :: cs) := by
  unfold readValue
  split
  case h_9 =>
    rename_i heq
    cases heq
    cases h
  case h_10 =>
    rename_i heq
    cases heq
    rfl
  case h_11 =>
    rename_i hn
    exact absurd rfl (hn (c :: cs))
  all_goals
    rename_i heq
    cases heq

theorem readValue_int {fuel room : Nat} {n : Int} {rest : List Char} (h : Number.hasNumeral n = true)
    (hr : Stops rest) : readValue (fuel + 1) room (intChars n ++ rest) = .ok (.int n, rest) := by
  obtain ⟨c, cs, hc, hd⟩ := natChars_head n.natAbs
  have hl : (natChars n.natAbs).length ≤ Number.numeralLimit := Number.hasNumeral_iff.mp h
  have hm : Number.IsNumeral (natChars n.natAbs) := Number.isNumeral_toDigits n.natAbs
  have hv : Number.digitsValue (natChars n.natAbs) = n.natAbs := Number.digitsValue_toDigits _
  unfold intChars
  by_cases hn : n < 0
  · have hi := readNumber_int true hm hl hr
    rw [if_pos hn]
    rw [hc] at hi ⊢
    rw [List.cons_append, List.cons_append, readValue_minus fuel room hd]
    rw [List.cons_append, ← hc, hv, if_pos rfl, show -(n.natAbs : Int) = n by omega] at hi
    exact hi
  · have hi := readNumber_int false hm hl hr
    rw [if_neg hn]
    rw [hc] at hi ⊢
    rw [List.cons_append, readValue_digit fuel room hd]
    rw [List.cons_append, ← hc, hv, if_neg Bool.false_ne_true, show (n.natAbs : Int) = n by omega] at hi
    exact hi

theorem readValue_float (fuel room : Nat) (x : Float) {rest : List Char} (hr : Stops rest) :
    readValue (fuel + 1) room (floatWords x ++ rest) = .ok (.float (Number.reread x), rest) := by
  rw [floatWords_eq]
  unfold Number.reread
  cases Number.parts? x with
  | some p =>
    obtain ⟨c, cs, hc, hd⟩ := layOut_head p.decimal_isNumeral p.decimal.2
    have hn := readNumber_decimal p hr
    unfold Number.Parts.chars
    dsimp only
    rw [hc] at hn ⊢
    cases hs : p.negative with
    | true =>
      rw [hs] at hn
      rw [if_pos rfl, List.singleton_append, List.cons_append, List.cons_append, readValue_minus fuel room hd]
      exact hn
    | false =>
      rw [hs] at hn
      rw [if_neg Bool.false_ne_true, List.nil_append, List.cons_append, readValue_digit fuel room hd]
      exact hn
  | none =>
    dsimp only
    by_cases hn : Number.isNaN x = true
    · rw [if_pos hn, if_pos hn]
      rfl
    · rw [if_neg hn, if_neg hn]
      cases Number.isNegative x with
      | true => rfl
      | false => rfl

theorem readValue_str (fuel room : Nat) (s : String) (rest : List Char) :
    readValue (fuel + 1) room (strChars s ++ rest) = .ok (.str s, rest) := by
  obtain ⟨cs, hc, hs⟩ := readString_strChars s rest
  rw [hc]
  simp only [readValue, hs, wellFormed, Except.map, String.ofList_toList]

/-! ## Containers -/

theorem stops_items {l : Layout} (hl : l.IsLoose) (d : Nat) (xs : List Json) {c : Char} (h : Stops [c])
    (rest : List Char) : Stops (charsItems l d xs ++ l.closing d ++ c :: rest) := by
  cases xs with
  | nil => exact stops_gaps (hl.closing d) h
  | cons x xs =>
    obtain ⟨gs, hg, -⟩ := hl.between d
    simp only [charsItems, hg, List.cons_append]
    exact stops_cons rfl (by decide) (by decide) (by decide) _

theorem stops_fields {l : Layout} (hl : l.IsLoose) (d : Nat) (fs : List (String × Json)) {c : Char}
    (h : Stops [c]) (rest : List Char) : Stops (charsFields l d fs ++ l.closing d ++ c :: rest) := by
  cases fs with
  | nil => exact stops_gaps (hl.closing d) h
  | cons f fs =>
    obtain ⟨gs, hg, -⟩ := hl.between d
    simp only [charsFields, hg, List.cons_append]
    exact stops_cons rfl (by decide) (by decide) (by decide) _

theorem skipGaps_closing {l : Layout} (hl : l.IsLoose) (d : Nat) {c : Char} (h : isGap c = false)
    (rest : List Char) : skipGaps (l.closing d ++ c :: rest) = c :: rest := by
  rw [skipGaps_append (hl.closing d), skipGaps_cons h]

theorem skipGaps_between {l : Layout} (hl : l.IsLoose) (d : Nat) (rest : List Char) :
    ∃ gs, skipGaps (l.between d ++ rest) = ',' :: (gs ++ rest) ∧ ∀ c ∈ gs, isGap c = true := by
  obtain ⟨gs, hg, hs⟩ := hl.between d
  refine ⟨gs, ?_, hs⟩
  rw [hg, List.cons_append, skipGaps_cons rfl]

mutual

/-- A value is read from its text, however the text goes on. -/
theorem readValue_chars {l : Layout} (hl : l.IsLoose) (j : Json) (d fuel room : Nat) {rest : List Char}
    (hw : j.isWritable = true) (hn : j.nesting ≤ room) (hr : Stops rest) (hf : (chars l d j).length ≤ fuel) :
    readValue fuel room (chars l d j ++ rest) = .ok (reread j, rest) := by
  match fuel with
  | 0 =>
    obtain ⟨c, cs, hc, -⟩ := chars_head l d j
    rw [hc, List.length_cons] at hf
    omega
  | fuel + 1 =>
    cases j with
    | null => simp only [chars, List.cons_append, List.nil_append, readValue, reread]
    | bool b =>
      cases b with
      | true => simp only [chars, List.cons_append, List.nil_append, readValue, reread]
      | false => simp only [chars, List.cons_append, List.nil_append, readValue, reread]
    | int n =>
      simp only [isWritable] at hw
      simp only [chars, reread]
      exact readValue_int hw hr
    | float x =>
      simp only [chars, reread]
      exact readValue_float fuel room x hr
    | str s =>
      simp only [chars, reread]
      exact readValue_str fuel room s rest
    | arr items =>
      have hroom : room ≠ 0 := by
        simp only [nesting] at hn
        omega
      cases items with
      | nil =>
        simp only [chars, List.cons_append, List.nil_append, readValue, reread, rereadItems, hroom, if_false]
        rw [skipGaps_cons rfl]
        rfl
      | cons x xs =>
        simp only [isWritable, isWritableItems, Bool.and_eq_true] at hw
        simp only [chars, List.length_cons, List.length_append, List.length_nil] at hf
        simp only [nesting, nestingItems] at hn
        have hi := readItems_chars hl x xs d fuel (room - 1) rest hw.1 hw.2 (by omega) (by omega) (by omega)
        obtain ⟨c, cs, hc, ho⟩ := chars_head l (d + 1) x
        simp only [chars, List.cons_append, List.append_assoc, List.nil_append, readValue, reread,
          rereadItems, hroom, if_false] at hi ⊢
        rw [skipGaps_append (hl.opening d)]
        rw [hc] at hi ⊢
        rw [List.cons_append, skipGaps_cons ho.not_gap]
        rw [List.cons_append] at hi
        -- an item does not begin with the bracket that closes an array
        split
        · rename_i heq
          exact absurd (List.head_eq_of_cons_eq heq) ho.2.1
        · rw [hi]
          rfl
    | obj fields =>
      have hroom : room ≠ 0 := by
        simp only [nesting] at hn
        omega
      cases fields with
      | nil =>
        simp only [chars, List.cons_append, List.nil_append, readValue, reread, rereadFields, hroom, if_false]
        rw [skipGaps_cons rfl]
        rfl
      | cons f fs =>
        obtain ⟨k, x⟩ := f
        simp only [isWritable, isWritableFields, Bool.and_eq_true] at hw
        simp only [chars, List.length_cons, List.length_append, List.length_nil] at hf
        simp only [nesting, nestingFields] at hn
        have hi := readFields_chars hl k x fs [] d fuel (room - 1) rest hw.1 hw.2 (by omega) (by omega) (by omega)
        obtain ⟨cs, hc, -⟩ := readString_strChars k
          (':' :: ' ' :: (chars l (d + 1) x ++ (charsFields l d fs ++ (l.closing d ++ '}' :: rest))))
        simp only [chars, List.cons_append, List.append_assoc, List.nil_append, readValue, reread,
          rereadFields, hroom, if_false] at hi ⊢
        rw [skipGaps_append (hl.opening d)]
        rw [hc] at hi ⊢
        rw [skipGaps_cons rfl]
        show Except.map _ (readFields fuel (room - 1) ('"' :: cs) []) = _
        rw [hi]
        rfl
termination_by structural fuel

theorem readItems_chars {l : Layout} (hl : l.IsLoose) (x : Json) (xs : List Json) (d fuel room : Nat)
    (rest : List Char) (hx : x.isWritable = true) (hxs : isWritableItems xs = true) (hnx : x.nesting ≤ room)
    (hnxs : nestingItems xs ≤ room) (hf : (chars l (d + 1) x).length + (charsItems l d xs).length + 1 ≤ fuel) :
    readItems fuel room (chars l (d + 1) x ++ charsItems l d xs ++ l.closing d ++ ']' :: rest) =
      .ok (reread x :: rereadItems xs, rest) := by
  match fuel with
  | 0 => omega
  | fuel + 1 =>
    have hs := stops_items hl d xs (c := ']') (stops_cons rfl (by decide) (by decide) (by decide) _) rest
    have hv := readValue_chars hl x (d + 1) fuel room hx hnx hs (by omega)
    simp only [List.append_assoc] at hv hs ⊢
    simp only [readItems, hv, bind, Except.bind]
    cases xs with
    | nil =>
      simp only [charsItems, List.nil_append, rereadItems]
      rw [skipGaps_closing hl d rfl]
      rfl
    | cons y ys =>
      simp only [isWritableItems, Bool.and_eq_true] at hxs
      simp only [nestingItems] at hnxs
      simp only [charsItems, List.length_append] at hf
      have hb : 1 ≤ (l.between d).length := by
        obtain ⟨gs, hg, -⟩ := hl.between d
        rw [hg]
        exact Nat.succ_pos _
      have hi := readItems_chars hl y ys d fuel room rest hxs.1 hxs.2 (by omega) (by omega) (by omega)
      obtain ⟨gs, hg, hgs⟩ := skipGaps_between hl d
        (chars l (d + 1) y ++ (charsItems l d ys ++ (l.closing d ++ ']' :: rest)))
      simp only [charsItems, List.append_assoc, rereadItems] at hi ⊢
      rw [hg]
      show Except.map _ (readItems fuel room (skipGaps (gs ++ _))) = _
      rw [skipGaps_append hgs, skipGaps_chars, hi]
      rfl
termination_by structural fuel

theorem readFields_chars {l : Layout} (hl : l.IsLoose) (k : String) (x : Json)
    (fs read : List (String × Json)) (d fuel room : Nat) (rest : List Char) (hx : x.isWritable = true)
    (hfs : isWritableFields fs = true) (hnx : x.nesting ≤ room) (hnfs : nestingFields fs ≤ room)
    (hf : (chars l (d + 1) x).length + (charsFields l d fs).length + 1 ≤ fuel) :
    readFields fuel room (strChars k ++ [':', ' '] ++ chars l (d + 1) x ++ charsFields l d fs ++ l.closing d
      ++ '}' :: rest) read = .ok (rereadFields fs (put k (reread x) read), rest) := by
  match fuel with
  | 0 => omega
  | fuel + 1 =>
    have hs := stops_fields hl d fs (c := '}') (stops_cons rfl (by decide) (by decide) (by decide) _) rest
    have hv := readValue_chars hl x (d + 1) fuel room hx hnx hs (by omega)
    obtain ⟨cs, hc, hk⟩ := readString_strChars k
      (':' :: ' ' :: (chars l (d + 1) x ++ (charsFields l d fs ++ (l.closing d ++ '}' :: rest))))
    have hgap : skipGaps (' ' :: (chars l (d + 1) x ++ (charsFields l d fs ++ (l.closing d ++ '}' :: rest)))) =
        chars l (d + 1) x ++ (charsFields l d fs ++ (l.closing d ++ '}' :: rest)) := by
      rw [← List.singleton_append, skipGaps_append (by simp [isGap]), skipGaps_chars]
    simp only [List.append_assoc, List.cons_append, List.nil_append] at hv ⊢
    rw [hc]
    simp only [readFields, hk, wellFormed, bind, Except.bind]
    rw [skipGaps_cons rfl]
    simp only [hgap, hv, String.ofList_toList]
    cases fs with
    | nil =>
      simp only [charsFields, List.nil_append, rereadFields]
      rw [skipGaps_closing hl d rfl]
      rfl
    | cons f fs =>
      obtain ⟨k', y⟩ := f
      simp only [isWritableFields, Bool.and_eq_true] at hfs
      simp only [nestingFields] at hnfs
      simp only [charsFields, List.length_append, List.length_cons] at hf
      have hi := readFields_chars hl k' y fs (put k (reread x) read) d fuel room rest hfs.1 hfs.2 (by omega)
        (by omega) (by omega)
      obtain ⟨cs', hc', -⟩ := readString_strChars k'
        (':' :: ' ' :: (chars l (d + 1) y ++ (charsFields l d fs ++ (l.closing d ++ '}' :: rest))))
      obtain ⟨gs, hg, hgs⟩ := skipGaps_between hl d
        (strChars k' ++ ':' :: ' ' :: (chars l (d + 1) y ++ (charsFields l d fs ++ (l.closing d ++ '}' :: rest))))
      simp only [charsFields, List.append_assoc, List.cons_append, List.nil_append, rereadFields] at hi hg ⊢
      rw [hg]
      show readFields fuel room (skipGaps (gs ++ _)) _ = _
      rw [skipGaps_append hgs]
      rw [hc'] at hi ⊢
      rw [skipGaps_cons rfl, hi]
termination_by structural fuel

end

theorem parseChars_chars {l : Layout} (hl : l.IsLoose) {j : Json} (h : j.isWritable = true) (hn : j.nesting ≤ depthLimit)
    {gs : List Char} (hgs : ∀ c ∈ gs, isGap c = true) : parseChars (chars l 0 j ++ gs) = .ok (reread j) := by
  have hs : Stops gs := by
    have hs : Stops (gs ++ []) := stops_gaps hgs fun c hc => nomatch hc
    rwa [List.append_nil] at hs
  have hf : (chars l 0 j).length ≤ 2 * (chars l 0 j ++ gs).length + 1 := by
    rw [List.length_append]
    omega
  have hv := readValue_chars hl j 0 _ _ h hn hs hf
  have hend : skipGaps gs = [] := by
    have hend := skipGaps_append hgs []
    rwa [List.append_nil] at hend
  unfold parseChars
  rw [skipGaps_chars, hv]
  simp only [bind, Except.bind, hend, List.isEmpty_nil, if_true]

/-- **The text of a state file is read back.** -/
theorem parse_document {j : Json} (h : j.isWritable = true) (hn : j.nesting ≤ depthLimit) :
    parse j.document = .ok (reread j) := by
  unfold parse document
  rw [String.toList_ofList]
  exact parseChars_chars Layout.isLoose_indented h hn (by simp [isGap])

/-- **The text of a line is read back.** -/
theorem parse_line {j : Json} (h : j.isWritable = true) (hn : j.nesting ≤ depthLimit) :
    parse j.line = .ok (reread j) := by
  have hread : parseChars (chars .line 0 j ++ []) = .ok (reread j) := parseChars_chars Layout.isLoose_line h hn nofun
  unfold parse line
  rwa [String.toList_ofList, ← List.append_nil (chars .line 0 j)]

/-! ## Values that a text holds as they are -/

mutual

/-- A value without floating point numbers in which no object has a key twice. -/
def isExact : Json → Bool
  | .float _ => false
  | .arr xs => isExactItems xs
  | .obj fs => decide (fs.map Prod.fst).Nodup && isExactFields fs
  | .null => true
  | .bool _ => true
  | .int _ => true
  | .str _ => true

def isExactItems : List Json → Bool
  | [] => true
  | x :: xs => isExact x && isExactItems xs

def isExactFields : List (String × Json) → Bool
  | [] => true
  | (_, x) :: fs => isExact x && isExactFields fs

end

theorem put_new {α : Type} {key : String} (value : α) {fields : List (String × α)}
    (h : key ∉ fields.map Prod.fst) : put key value fields = fields ++ [(key, value)] := by
  induction fields with
  | nil => rfl
  | cons f fields ih =>
    obtain ⟨k, v⟩ := f
    rw [List.map_cons, List.mem_cons, not_or] at h
    have hk : k ≠ key := fun e => h.1 e.symm
    simp only [put, hk, if_false, List.cons_append, ih h.2]

theorem rereadFields_append {fs read : List (String × Json)} (hn : (fs.map Prod.fst).Nodup)
    (hd : ∀ k ∈ fs.map Prod.fst, k ∉ read.map Prod.fst) :
    rereadFields fs read = read ++ fs.map fun f => (f.1, reread f.2) := by
  induction fs generalizing read with
  | nil => exact (List.append_nil read).symm
  | cons f fs ih =>
    obtain ⟨k, x⟩ := f
    rw [List.map_cons, List.nodup_cons] at hn
    have hk : k ∉ read.map Prod.fst := hd k List.mem_cons_self
    have hr : ∀ k' ∈ fs.map Prod.fst, k' ∉ (read ++ [(k, reread x)]).map Prod.fst := by
      intro k' hk' hm
      rw [List.map_append, List.mem_append] at hm
      rcases hm with hm | hm
      · exact hd k' (List.mem_cons_of_mem _ hk') hm
      · rw [List.map_singleton, List.mem_singleton] at hm
        exact hn.1 (hm ▸ hk')
    rw [rereadFields, put_new _ hk, ih hn.2 hr, List.append_assoc]
    rfl

theorem reread_obj {fs : List (String × Json)} {keys : List String} (hn : keys.Nodup)
    (hk : fs.map Prod.fst = keys) : reread (.obj fs) = .obj (fs.map fun f => (f.1, reread f.2)) := by
  subst hk
  rw [reread, rereadFields_append hn (fun _ _ => List.not_mem_nil), List.nil_append]

mutual

theorem reread_eq_self : ∀ {j : Json}, j.isExact = true → reread j = j
  | .null, _ => rfl
  | .bool _, _ => rfl
  | .int _, _ => rfl
  | .float _, h => by simp [isExact] at h
  | .str _, _ => rfl
  | .arr xs, h => by
    simp only [isExact] at h
    rw [reread, rereadItems_eq_self h]
  | .obj fs, h => by
    simp only [isExact, Bool.and_eq_true, decide_eq_true_eq] at h
    rw [reread_obj h.1 rfl, map_reread_eq_self h.2]

theorem rereadItems_eq_self : ∀ {xs : List Json}, isExactItems xs = true → rereadItems xs = xs
  | [], _ => rfl
  | x :: xs, h => by
    simp only [isExactItems, Bool.and_eq_true] at h
    rw [rereadItems, reread_eq_self h.1, rereadItems_eq_self h.2]

theorem map_reread_eq_self : ∀ {fs : List (String × Json)}, isExactFields fs = true →
    (fs.map fun f => (f.1, reread f.2)) = fs
  | [], _ => rfl
  | (k, x) :: fs, h => by
    simp only [isExactFields, Bool.and_eq_true] at h
    rw [List.map_cons, reread_eq_self h.1, map_reread_eq_self h.2]

end

end Json

end Boardwalk
