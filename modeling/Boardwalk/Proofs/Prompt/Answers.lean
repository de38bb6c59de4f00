import Mathlib.Data.List.Forall2
import Boardwalk.Proofs.Record.Outputs
import Boardwalk.Proofs.Text.Numeral
import Boardwalk.Prompt.Question
/-!
# Answers to a choice of several

An answer is valid if its parts are all numbers of choices, and it mentions their positions (`IsValid`, `mentioned`).
Reading an answer accepts it just if it is valid, and refuses it otherwise, unless it trips over a part of digit signs
that make no numeral (`parsePositions_reads`). So a question that gets a valid answer ends with the first one and with
the names of what it mentions, just if the console shows what is printed and none of the answers up to that one trips
the reading (`asked_until_valid_iff`).
-/

namespace Boardwalk

namespace Choice

variable {count : Nat} {answer : String} {part : List Char} {parts : List (List Char)}

/-- The pieces that are not blank, without the blanks around them. -/
def shown (pieces : List (List Char)) : List (List Char) :=
  (pieces.map (Text.trimBy Text.isBlank)).filter fun part => !part.isEmpty

def answered (answer : String) : List (List Char) := shown (Text.splitAt ',' answer.toList)

/-- The part is the number of one of so many choices, in the decimal digits of any script. -/
def IsNumber (count : Nat) (part : List Char) : Prop :=
  Text.isDecimal part = true ∧ 1 ≤ Text.decimalValue part ∧ Text.decimalValue part ≤ count

instance (count : Nat) (part : List Char) : Decidable (IsNumber count part) :=
  inferInstanceAs (Decidable (_ ∧ _ ∧ _))

def IsValid (count : Nat) (answer : String) : Prop := ∀ part ∈ answered answer, IsNumber count part

instance (count : Nat) (answer : String) : Decidable (IsValid count answer) :=
  inferInstanceAs (Decidable (∀ part ∈ answered answer, IsNumber count part))

def positionOf (part : List Char) : Nat := Text.decimalValue part - 1

/-- The positions of the choices that an answer mentions, each once, in the order of first mention. -/
def mentioned (answer : String) : List Nat := ((answered answer).map positionOf).eraseDups

/-- Digit signs are read only if they are decimal digits, and no more than a numeral may have. -/
def IsReadable (part : List Char) : Prop :=
  Text.allDigitSigns part = true → Text.isDecimal part = true ∧ part.length ≤ Number.numeralLimit

/-- Behind numbers of choices only comes a part of digit signs that is not read. -/
def Trips (count : Nat) (parts : List (List Char)) : Prop :=
  ∃ before part after, parts = before ++ part :: after ∧ (∀ p ∈ before, IsNumber count p) ∧ ¬ IsReadable part

/-! ## Reading the parts -/

/-- What reading some parts comes to, after others that were numbers of choices. -/
inductive Reads (count : Nat) :
    List (List Char) → List (List Char) → Except Fault (Option (List Nat)) → Prop where
  | done {read : List (List Char)} : Reads count read [] (.ok (some (read.map positionOf).eraseDups))
  | number {read parts : List (List Char)} {part : List Char} {r : Except Fault (Option (List Nat))} :
      IsNumber count part → IsReadable part → Reads count (read ++ [part]) parts r → Reads count read (part :: parts) r
  | refused {read parts : List (List Char)} {part : List Char} : ¬ IsNumber count part → IsReadable part →
      Reads count read (part :: parts) (.ok none)
  | tripped {read parts : List (List Char)} {part : List Char} {f : Number.NumeralFault} : ¬ IsReadable part →
      Reads count read (part :: parts) (.error (.numeral f (String.ofList part)))

theorem shown_cons (piece : List Char) (pieces : List (List Char)) :
    shown (piece :: pieces) = if (Text.trimBy Text.isBlank piece).isEmpty then shown pieces
      else Text.trimBy Text.isBlank piece :: shown pieces := by
  unfold shown
  rw [List.map_cons]
  by_cases h : (Text.trimBy Text.isBlank piece).isEmpty = true
  · rw [if_pos h, List.filter_cons_of_neg (by simp [h])]
  · rw [if_neg h, List.filter_cons_of_pos (by simp [h])]

theorem pickParts_reads (pieces read : List (List Char)) :
    Reads count read (shown pieces) (pickParts count (read.map positionOf).eraseDups pieces) := by
  induction pieces generalizing read with
  | nil => exact .done
  | cons piece pieces ih =>
    rw [shown_cons]
    unfold pickParts
    dsimp only
    generalize Text.trimBy Text.isBlank piece = part
    by_cases hempty : part.isEmpty = true
    · rw [if_pos hempty, if_pos hempty]
      exact ih read
    rw [if_neg hempty, if_neg hempty]
    by_cases hsigns : Text.allDigitSigns part = true
    · rw [if_neg (by simp [hsigns])]
      cases hread : Text.readNumeral part with
      | error f =>
        refine .tripped fun hreadable => ?_
        obtain ⟨hdecimal, hlimit⟩ := hreadable hsigns
        cases hread.symm.trans (Text.readNumeral_ok_iff.mpr ⟨hdecimal, hlimit, rfl⟩)
      | ok n =>
        obtain ⟨hdecimal, hlimit, rfl⟩ := Text.readNumeral_ok_iff.mp hread
        dsimp only
        by_cases hin : 1 ≤ Text.decimalValue part ∧ Text.decimalValue part ≤ count
        · have hpicked : (if (read.map positionOf).eraseDups.contains (Text.decimalValue part - 1)
              then (read.map positionOf).eraseDups
              else (read.map positionOf).eraseDups ++ [Text.decimalValue part - 1]) =
              ((read ++ [part]).map positionOf).eraseDups := by
            rw [List.map_append, List.map_singleton, eraseDups_concat]
            exact if_congr List.contains_iff_mem rfl rfl
          rw [if_pos hin, hpicked]
          exact .number ⟨hdecimal, hin⟩ (fun _ => ⟨hdecimal, hlimit⟩) (ih _)
        · rw [if_neg hin]
          exact .refused (fun h => hin h.2) fun _ => ⟨hdecimal, hlimit⟩
    · rw [if_pos (by simp [hsigns])]
      exact .refused (fun h => hsigns (Text.allDigitSigns_of_isDecimal h.1)) fun h => absurd h hsigns

theorem parsePositions_reads (count : Nat) (answer : String) :
    Reads count [] (answered answer) (parsePositions answer count) :=
  pickParts_reads (Text.splitAt ',' answer.toList) []

/-! ## Accepted, refused or tripped -/

theorem not_trips_nil : ¬ Trips count [] := by
  rintro ⟨before, part, after, h, -⟩
  simp at h

theorem trips_cons : Trips count (part :: parts) ↔ ¬ IsReadable part ∨ IsNumber count part ∧ Trips count parts := by
  constructor
  · rintro ⟨before, p, after, hsplit, hbefore, hp⟩
    cases before with
    | nil =>
      cases hsplit
      exact .inl hp
    | cons q before =>
      cases hsplit
      obtain ⟨hq, hbefore⟩ := List.forall_mem_cons.mp hbefore
      exact .inr ⟨hq, before, p, after, rfl, hbefore, hp⟩
  · rintro (h | ⟨hnumber, before, p, after, rfl, hbefore, hp⟩)
    · exact ⟨[], part, parts, rfl, by simp, h⟩
    · exact ⟨part :: before, p, after, rfl, List.forall_mem_cons.mpr ⟨hnumber, hbefore⟩, hp⟩

theorem Reads.accepted {read : List (List Char)} {ps : List Nat} (h : Reads count read parts (.ok (some ps))) :
    (∀ part ∈ parts, IsNumber count part) ∧ ¬ Trips count parts ∧ ps = ((read ++ parts).map positionOf).eraseDups := by
  generalize hr : Except.ok (some ps) = r at h
  induction h with
  | done =>
    cases hr
    exact ⟨by simp, not_trips_nil, by rw [List.append_nil]⟩
  | number hnumber hreadable _ ih =>
    obtain ⟨hall, hnot, hps⟩ := ih hr
    refine ⟨List.forall_mem_cons.mpr ⟨hnumber, hall⟩, ?_, by rw [hps, List.append_assoc, List.singleton_append]⟩
    rw [trips_cons]
    rintro (h | ⟨-, h⟩)
    · exact h hreadable
    · exact hnot h
  | refused => cases hr
  | tripped => cases hr

theorem Reads.declined {read : List (List Char)} (h : Reads count read parts (.ok none)) :
    ¬ (∀ part ∈ parts, IsNumber count part) ∧ ¬ Trips count parts := by
  generalize hr : Except.ok none = r at h
  induction h with
  | done => cases hr
  | number hnumber hreadable _ ih =>
    obtain ⟨hall, hnot⟩ := ih hr
    refine ⟨fun h => hall (List.forall_mem_cons.mp h).2, ?_⟩
    rw [trips_cons]
    rintro (h | ⟨-, h⟩)
    · exact h hreadable
    · exact hnot h
  | refused hnumber hreadable =>
    refine ⟨fun h => hnumber (List.forall_mem_cons.mp h).1, ?_⟩
    rw [trips_cons]
    rintro (h | ⟨h, -⟩)
    · exact h hreadable
    · exact hnumber h
  | tripped => cases hr

theorem Reads.raised {read : List (List Char)} {f : Fault} (h : Reads count read parts (.error f)) :
    Trips count parts := by
  generalize hr : Except.error f = r at h
  induction h with
  | done => cases hr
  | number hnumber _ _ ih => exact trips_cons.mpr (.inr ⟨hnumber, ih hr⟩)
  | refused => cases hr
  | tripped h => exact trips_cons.mpr (.inl h)

end Choice

/-! ## Asking -/

namespace Prompt

open Choice

variable {choices : List Value} {default : Option String} {count : Nat}

def defaultOf (ps : List Nat) : Option String := if ps.isEmpty then none else some (positionsText ps)

def NamedAt (choices : List Value) (p : Nat) (name : String) : Prop :=
  ∃ c, choices[p]? = some c ∧ Choice.name c = .ok name

/-- Answers that are not valid are asked again. Once one of them trips the reading its fault is raised, and so is that of a
complaint that cannot be shown. Otherwise the first valid one is accepted, with the lines behind it left. -/
theorem askLines_positions (console : Console) {before : List String} {line : String}
    (hfirst : ∀ l ∈ before, ¬ IsValid count (answerOf default l)) (hvalid : IsValid count (answerOf default line))
    (after : List String) (question written : String) :
    (((before ≠ [] → console.Shows (outOfRange count)) ∧
        ∀ l ∈ before ++ [line], ¬ Trips count (answered (answerOf default l))) ∧
      ∃ written', Terminal.askLines console question (judgePositions count default) (before ++ line :: after) written =
        (.ok (mentioned (answerOf default line)), ⟨console, after, written'⟩)) ∨
    (¬ ((before ≠ [] → console.Shows (outOfRange count)) ∧
        ∀ l ∈ before ++ [line], ¬ Trips count (answered (answerOf default l))) ∧
      ∃ f t, Terminal.askLines console question (judgePositions count default) (before ++ line :: after) written =
        (.error f, t)) := by
  induction before generalizing written with
  | nil =>
    have hreads := parsePositions_reads count (answerOf default line)
    rw [List.nil_append, List.nil_append, Terminal.askLines, judgePositions]
    cases hparse : parsePositions (answerOf default line) count with
    | error f =>
      rw [hparse] at hreads
      exact .inr ⟨fun h => h.2 line (List.mem_singleton_self _) hreads.raised, f, _, rfl⟩
    | ok o =>
      rw [hparse] at hreads
      cases o with
      | none => exact absurd hvalid hreads.declined.1
      | some ps =>
        obtain ⟨-, hnot, rfl⟩ := hreads.accepted
        exact .inl ⟨⟨fun h => absurd rfl h, by simpa using hnot⟩, _, rfl⟩
  | cons l before ih =>
    obtain ⟨hl, hbefore⟩ := List.forall_mem_cons.mp hfirst
    have hreads := parsePositions_reads count (answerOf default l)
    rw [List.cons_append, List.cons_append, Terminal.askLines, judgePositions]
    cases hparse : parsePositions (answerOf default l) count with
    | error f =>
      rw [hparse] at hreads
      exact .inr ⟨fun h => h.2 l List.mem_cons_self hreads.raised, f, _, rfl⟩
    | ok o =>
      rw [hparse] at hreads
      cases o with
      | some ps => exact absurd hreads.accepted.1 hl
      -- the line is asked again if the complaint about it can be shown, and counts among those that trip nothing
      | none =>
        dsimp only
        cases hcomplaint : console (outOfRange count) with
        | error f =>
          refine .inr ⟨fun h => ?_, f, _, rfl⟩
          obtain ⟨shown, hshown⟩ := h.1 (List.cons_ne_nil l before)
          cases hcomplaint.symm.trans hshown
        | ok shown =>
          rcases ih hbefore _ with ⟨⟨-, hnone⟩, haccepted⟩ | ⟨hnot, hraised⟩
          · exact .inl ⟨⟨fun _ => ⟨shown, hcomplaint⟩, List.forall_mem_cons.mpr ⟨hreads.declined.2, hnone⟩⟩, haccepted⟩
          · exact .inr ⟨fun h => hnot ⟨fun _ => ⟨shown, hcomplaint⟩, (List.forall_mem_cons.mp h.2).2⟩, hraised⟩

theorem namesAt_cases (ps : List Nat) (hps : ∀ p ∈ ps, p < choices.length) :
    ((∀ p ∈ ps, ∃ name, NamedAt choices p name) ∧
      ∃ names, namesAt choices ps = .ok names ∧ List.Forall₂ (NamedAt choices) ps names) ∨
    ((∃ p ∈ ps, ∀ name, ¬ NamedAt choices p name) ∧ ∃ f, namesAt choices ps = .error f) := by
  induction ps with
  | nil => exact .inl ⟨by simp, [], rfl, .nil⟩
  | cons p ps ih =>
    obtain ⟨hp, hps⟩ := List.forall_mem_cons.mp hps
    have hc : choices[p]? = some choices[p] := List.getElem?_eq_getElem hp
    rw [namesAt, hc, Option.getD_some]
    cases hname : Choice.name choices[p] with
    | error f =>
      refine .inr ⟨⟨p, List.mem_cons_self, ?_⟩, f, rfl⟩
      rintro name ⟨c, hc', hn⟩
      cases hc.symm.trans hc'
      cases hname.symm.trans hn
    | ok name =>
      have hnamed : NamedAt choices p name := ⟨_, hc, hname⟩
      rcases ih hps with ⟨hall, names, hnames, hnamesAt⟩ | ⟨⟨q, hq, hnot⟩, f, hf⟩
      · rw [hnames]
        exact .inl ⟨List.forall_mem_cons.mpr ⟨⟨name, hnamed⟩, hall⟩, name :: names, rfl, .cons hnamed hnamesAt⟩
      · rw [hf]
        exact .inr ⟨⟨q, List.mem_cons_of_mem p hq, hnot⟩, f, rfl⟩

theorem mentioned_lt {answer : String} (h : IsValid count answer) {p : Nat} (hp : p ∈ mentioned answer) : p < count := by
  obtain ⟨part, hpart, rfl⟩ := List.mem_map.mp (List.mem_eraseDups.mp hp)
  obtain ⟨-, hpos, hle⟩ := h part hpart
  unfold positionOf
  omega

/-! ## What is printed before -/

/-- Writes to every terminal whose console meets the condition, without taking a line of it, and fails on the others. -/
def Speaks (dialog : Dialog Unit) (condition : Console → Prop) : Prop :=
  ∀ t : Terminal, (condition t.console ∧ ∃ written, dialog t = (.ok (), { t with written })) ∨
    (¬ condition t.console ∧ ∃ f t', dialog t = (.error f, t'))

theorem Speaks.before {first next : Dialog Unit} {P Q : Console → Prop} (hfirst : Speaks first P)
    (hnext : Speaks next Q) : Speaks (first.before next) fun console => P console ∧ Q console := by
  intro t
  unfold Dialog.before
  rcases hfirst t with ⟨hp, written, h⟩ | ⟨hp, f, t', h⟩
  · rw [h]
    rcases hnext { t with written } with ⟨hq, h⟩ | ⟨hq, h⟩
    · exact .inl ⟨⟨hp, hq⟩, h⟩
    · exact .inr ⟨fun h => hq h.2, h⟩
  · rw [h]
    exact .inr ⟨fun h => hp h.1, f, t', rfl⟩

theorem speaks_print (text : String) : Speaks (Terminal.print text) fun console => console.Shows text := by
  intro t
  unfold Terminal.print
  cases hshown : t.console text with
  | ok shown => exact .inl ⟨⟨shown, hshown⟩, _, rfl⟩
  | error f =>
    refine .inr ⟨fun ⟨shown, h⟩ => ?_, f, t, rfl⟩
    cases hshown.symm.trans h

theorem speaks_printSome (text : Option String) :
    Speaks (Terminal.printSome text) fun console => ∀ s, text = some s → s ≠ "" → console.Shows s := by
  intro t
  cases text with
  | none => exact .inl ⟨nofun, t.written, rfl⟩
  | some s =>
    unfold Terminal.printSome
    dsimp only
    by_cases hs : s = ""
    · rw [if_pos hs]
      exact .inl ⟨fun _ h hne => absurd (Option.some.inj h ▸ hs) hne, t.written, rfl⟩
    · rw [if_neg hs]
      rcases speaks_print s t with ⟨hshows, h⟩ | ⟨hnot, h⟩
      · exact .inl ⟨fun _ h _ => Option.some.inj h ▸ hshows, h⟩
      · exact .inr ⟨fun hall => hnot (hall s rfl hs), h⟩

/-- The choices have labels, and these can be shown with their numbers. -/
def Labelled (console : Console) : Nat → List Value → Prop
  | _, [] => True
  | n, c :: cs => (∃ label, Choice.label c = .ok label ∧ console.Shows (labelled n label)) ∧ Labelled console (n + 1) cs

theorem speaks_printChoices (n : Nat) (cs : List Value) :
    Speaks (printChoices n cs) fun console => Labelled console n cs := by
  induction cs generalizing n with
  | nil => exact fun t => .inl ⟨trivial, t.written, rfl⟩
  | cons c cs ih =>
    intro t
    unfold printChoices
    cases hlabel : Choice.label c with
    | error f =>
      refine .inr ⟨fun ⟨⟨label, hc, _⟩, _⟩ => ?_, f, t, rfl⟩
      cases hlabel.symm.trans hc
    | ok label =>
      rcases (speaks_print (labelled n label)).before (ih (n + 1)) t with ⟨⟨hshows, hrest⟩, h⟩ | ⟨hnot, h⟩
      · exact .inl ⟨⟨⟨label, hlabel, hshows⟩, hrest⟩, h⟩
      · refine .inr ⟨fun ⟨⟨label', hc, hshows⟩, hrest⟩ => hnot ⟨?_, hrest⟩, h⟩
        cases hlabel.symm.trans hc
        exact hshows

/-- All that a choice of several prints before the first answer can be shown. -/
structure Presents (console : Console) (message : String) (choices : List Value) (hint header : Option String) :
    Prop where
  header : ∀ text, header = some text → text ≠ "" → console.Shows text
  hint : console.Shows (Terminal.dimmed (hintOr hint))
  labels : Labelled console 1 choices
  message : console.Shows message

theorem multiSelect_asks {initial : Value} {ps : List Nat}
    (hinitial : (Choice.listed initial).bind (Choice.positions choices) = .ok ps) (message : String)
    (hint header : Option String) (t : Terminal) :
    (Presents t.console message choices hint header ∧ ∃ question written,
      multiSelect message choices initial hint header t =
        match Terminal.askLines t.console question (judgePositions choices.length (defaultOf ps)) t.lines written with
        | (.error f, t) => (.error f, t)
        | (.ok picked, t) => (namesAt choices picked, t)) ∨
    (¬ Presents t.console message choices hint header ∧
      ∃ f t', multiSelect message choices initial hint header t = (.error f, t')) := by
  unfold multiSelect
  rcases (speaks_printSome header).before ((speaks_print (Terminal.dimmed (hintOr hint))).before
      (speaks_printChoices 1 choices)) t with ⟨⟨hheader, hhint, hlabels⟩, written, hprint⟩ | ⟨hnot, f, t', hprint⟩
  · rw [hprint, hinitial]
    dsimp only
    unfold Terminal.ask
    cases hmessage : t.console message with
    | ok shown => exact .inl ⟨⟨hheader, hhint, hlabels, shown, hmessage⟩, shown ++ hinted (defaultOf ps), written, rfl⟩
    | error f =>
      refine .inr ⟨fun h => ?_, f, _, rfl⟩
      obtain ⟨shown, h⟩ := h.message
      cases hmessage.symm.trans h
  · rw [hprint]
    exact .inr ⟨fun h => hnot ⟨h.header, h.hint, h.labels⟩, f, t', rfl⟩

/-- What it takes to come to an answer: all that is printed can be shown, no line up to the first valid answer trips the
reading, and the choices that this one mentions have names. -/
structure Answerable (console : Console) (message : String) (choices : List Value) (hint header default : Option String)
    (before : List String) (line : String) : Prop where
  presents : Presents console message choices hint header
  complains : before ≠ [] → console.Shows (outOfRange choices.length)
  reads : ∀ l ∈ before ++ [line], ¬ Trips choices.length (answered (answerOf default l))
  names : ∀ p ∈ mentioned (answerOf default line), ∃ name, NamedAt choices p name

/-- **A choice of several is asked until the first valid answer.** It takes the lines up to this one and gives the names
of the choices that it mentions, just if the question is answerable, and raises a fault otherwise. The numbers of the
choices that are picked beforehand stand for an empty line. -/
theorem asked_until_valid_iff {initial : Value} {ps : List Nat} {t : Terminal} {before after : List String}
    {line : String} (hinitial : (Choice.listed initial).bind (Choice.positions choices) = .ok ps)
    (hlines : t.lines = before ++ line :: after)
    (hfirst : ∀ l ∈ before, ¬ IsValid choices.length (answerOf (defaultOf ps) l))
    (hvalid : IsValid choices.length (answerOf (defaultOf ps) line)) (message : String) (hint header : Option String) :
    ((∃ names written, multiSelect message choices initial hint header t = (.ok names, ⟨t.console, after, written⟩) ∧
        List.Forall₂ (NamedAt choices) (mentioned (answerOf (defaultOf ps) line)) names) ↔
      Answerable t.console message choices hint header (defaultOf ps) before line) ∧
    (¬ Answerable t.console message choices hint header (defaultOf ps) before line →
      ∃ f t', multiSelect message choices initial hint header t = (.error f, t')) := by
  -- one of the two happens, and with it the condition is met or not
  have hcases : (Answerable t.console message choices hint header (defaultOf ps) before line ∧
      ∃ names written, multiSelect message choices initial hint header t = (.ok names, ⟨t.console, after, written⟩) ∧
        List.Forall₂ (NamedAt choices) (mentioned (answerOf (defaultOf ps) line)) names) ∨
      (¬ Answerable t.console message choices hint header (defaultOf ps) before line ∧
        ∃ f t', multiSelect message choices initial hint header t = (.error f, t')) := by
    rcases multiSelect_asks hinitial message hint header t with
      ⟨hpresents, question, written, hasks⟩ | ⟨hpresents, hraised⟩
    · rw [hasks, hlines]
      rcases askLines_positions t.console hfirst hvalid after question written with
        ⟨⟨hcomplains, hreads⟩, written', hask⟩ | ⟨hnot, f, t', hask⟩
      · rw [hask]
        rcases namesAt_cases (mentioned (answerOf (defaultOf ps) line)) fun p => mentioned_lt hvalid with
          ⟨hnamed, names, hnames, hall⟩ | ⟨⟨p, hp, hnot⟩, f, hf⟩
        · dsimp only
          rw [hnames]
          exact .inl ⟨⟨hpresents, hcomplains, hreads, hnamed⟩, names, written', rfl, hall⟩
        · dsimp only
          rw [hf]
          exact .inr ⟨fun h => (h.names p hp).elim hnot, f, _, rfl⟩
      · rw [hask]
        exact .inr ⟨fun h => hnot ⟨h.complains, h.reads⟩, f, t', rfl⟩
    · exact .inr ⟨fun h => hpresents h.presents, hraised⟩
  rcases hcases with ⟨hable, hpicked⟩ | ⟨hunable, hraised⟩
  · exact ⟨iff_of_true hpicked hable, fun h => absurd hable h⟩
  · obtain ⟨f, t', hraised⟩ := hraised
    refine ⟨iff_of_false ?_ hunable, fun _ => ⟨f, t', hraised⟩⟩
    rintro ⟨names, written, hpicked, -⟩
    cases hraised.symm.trans hpicked

def modules : List Value := [.str "api", .str "cli", .str "docs"]

/-- There is no ninth choice, and the third one is picked once. -/
theorem modules_picked :
    (Choice.listed .null).bind (Choice.positions modules) = .ok [] ∧
    (∀ l ∈ ["9"], ¬ IsValid modules.length (answerOf (defaultOf []) l)) ∧
    IsValid modules.length (answerOf (defaultOf []) " 3, 1,,3 ") ∧
    Answerable .marked "Modules" modules none none (defaultOf []) ["9"] " 3, 1,,3 " ∧
    ∃ written, multiSelect "Modules" modules .null none none ⟨.marked, ["9", " 3, 1,,3 ", "2"], ""⟩ =
      (.ok ["docs", "api"], ⟨.marked, ["2"], written⟩) := by
  have hinitial : (Choice.listed .null).bind (Choice.positions modules) = .ok [] := rfl
  have hfirst : ∀ l ∈ ["9"], ¬ IsValid modules.length (answerOf (defaultOf []) l) := by decide +kernel
  have hvalid : IsValid modules.length (answerOf (defaultOf []) " 3, 1,,3 ") := by decide +kernel
  have hmentioned : mentioned (answerOf (defaultOf []) " 3, 1,,3 ") = [2, 0] := by decide +kernel
  have hpicked : ∃ written, multiSelect "Modules" modules .null none none ⟨.marked, ["9", " 3, 1,,3 ", "2"], ""⟩ =
      (.ok ["docs", "api"], ⟨.marked, ["2"], written⟩) := ⟨_, rfl⟩
  obtain ⟨written, hrun⟩ := hpicked
  have hnames : List.Forall₂ (NamedAt modules) (mentioned (answerOf (defaultOf []) " 3, 1,,3 ")) ["docs", "api"] := by
    rw [hmentioned]
    exact .cons ⟨_, rfl, rfl⟩ (.cons ⟨_, rfl, rfl⟩ .nil)
  have hable := (asked_until_valid_iff (t := ⟨.marked, ["9", " 3, 1,,3 ", "2"], ""⟩) hinitial rfl hfirst hvalid
    "Modules" none none).1.mp ⟨_, written, hrun, hnames⟩
  exact ⟨hinitial, hfirst, hvalid, hable, written, hrun⟩

/-- A superscript is a digit sign, but no number. The line is not asked again, though a valid answer follows. -/
theorem superscript_not_asked_again : ¬ IsValid 3 (answerOf none "²") ∧ IsValid 3 (answerOf none "1") ∧
    ∃ written, multiSelect "Modules" modules .null none none ⟨.marked, ["²", "1"], ""⟩ =
      (.error (.numeral .malformed "²"), ⟨.marked, ["1"], written⟩) := by
  refine ⟨by decide +kernel, by decide +kernel, _, rfl⟩

end Prompt

end Boardwalk
