import Boardwalk.Command.Run
import Boardwalk.Proofs.Record.Edited
import Boardwalk.Proofs.Record.Validated
import Boardwalk.Proofs.Session.Stored
/-!
# How the command line ends

Settings are made of the texts of variables: those of the environment come before those of the file of variables
(`Settings.lookup_fieldsOf`). The checks refuse a waiting time and a strictness that make no sense
(`Settings.load_ok_iff`), but any text is good for the name of a level. The log knows eight names, and what is wrong
with the other ones comes out where nothing handles it; so does what is wrong with a file of variables that is no text
(`run_ends`). From then on every fault is handled, whatever the disk holds and whatever the console does not show.
-/

namespace Boardwalk

namespace Schema

variable {α β : Type}

def Checked.IsGood (x : Checked α) : Prop := ∃ a, x = .good a

theorem Checked.isGood_both {x : Checked α} {y : Checked β} : (x.both y).IsGood ↔ x.IsGood ∧ y.IsGood := by
  constructor
  · rintro ⟨p, hp⟩
    exact ⟨⟨p.1, (both_good hp).1⟩, p.2, (both_good hp).2⟩
  · rintro ⟨⟨a, rfl⟩, b, rfl⟩
    exact ⟨(a, b), rfl⟩

theorem Checked.isGood_map {f : α → β} {x : Checked α} : (x.map f).IsGood ↔ x.IsGood := by
  constructor
  · rintro ⟨b, hb⟩
    obtain ⟨a, ha, -⟩ := map_good hb
    exact ⟨a, ha⟩
  · rintro ⟨a, rfl⟩
    exact ⟨f a, rfl⟩

theorem isGood_optional {read : Value → Reading α} {name : String} {default : α} {fields : List (String × Value)} :
    (optional read name default fields).IsGood ↔ ∀ v, fields.lookup name = some v → ∃ a, read v = .ok a := by
  unfold optional
  cases hl : fields.lookup name with
  | none =>
    refine ⟨fun _ v hv => ?_, fun _ => ⟨default, rfl⟩⟩
    cases hv
  | some v =>
    dsimp only
    cases hr : read v with
    | error kind =>
      constructor
      · rintro ⟨a, ha⟩
        cases ha
      · intro h
        obtain ⟨a, ha⟩ := h v rfl
        cases hr.symm.trans ha
    | ok a =>
      refine ⟨fun _ v' hv' => ?_, fun _ => ⟨a, rfl⟩⟩
      cases hv'
      exact ⟨a, hr⟩

end Schema

namespace Settings

variable {environment : List (String × String)} {file : List (String × Option String)} {d : Disk}

/-! ## The texts of the fields -/

def textIn (vars : List (String × Option String)) (field : String) : Option String :=
  (vars.reverse.find? fun v => Text.lower v.1 == variablePrefixed field).bind Prod.snd

/-- The text for a field: that of the environment, or else that of the file of variables. -/
def text? (environment : List (String × String)) (file : List (String × Option String)) (field : String) :
    Option String :=
  (textIn (environment.map fun v => (v.1, some v.2)) field).or (textIn file field)

theorem lookup_ofVariables (vars : List (String × Option String)) {field : String} (hf : field ∈ fieldNames) :
    (ofVariables vars).lookup field = (textIn vars field).map Value.str := by
  have hmap : ofVariables vars = fieldNames.filterMap fun f => ((textIn vars f).map Value.str).map fun v => (f, v) := by
    unfold ofVariables textIn
    congr 1
    funext f
    cases hfound : vars.reverse.find? fun v => Text.lower v.1 == variablePrefixed f with
    | none => rfl
    | some v =>
      obtain ⟨name, value⟩ := v
      cases value <;> rfl
  rw [hmap, Json.lookup_filterMap, if_pos hf]

def fieldsOf (environment : List (String × String)) (file : List (String × Option String)) : List (String × Value) :=
  [] ++ ofVariables (environment.map fun v => (v.1, some v.2)) ++ ofVariables file

theorem lookup_fieldsOf {field : String} (hf : field ∈ fieldNames) :
    (fieldsOf environment file).lookup field = (text? environment file field).map Value.str := by
  unfold fieldsOf text?
  rw [List.nil_append, List.lookup_append, lookup_ofVariables _ hf, lookup_ofVariables _ hf]
  cases textIn (environment.map fun v => (v.1, some v.2)) field <;> rfl

theorem isGood_field {α : Type} {read : Value → Schema.Reading α} {field : String} {default : α}
    (hf : field ∈ fieldNames) : (Schema.optional read field default (fieldsOf environment file)).IsGood ↔
      ∀ s, text? environment file field = some s → ∃ a, read (.str s) = .ok a := by
  rw [Schema.isGood_optional, lookup_fieldsOf hf]
  constructor
  · intro h s hs
    exact h (.str s) (by rw [hs]; rfl)
  · intro h v hv
    obtain ⟨s, hs, rfl⟩ := Option.map_eq_some_iff.mp hv
    exact h s hs

/-! ## Settings that make sense -/

/-- The checks find nothing wrong: the waiting time is a number above zero, and strictness is a truth value. -/
structure Sound (environment : List (String × String)) (file : List (String × Option String)) : Prop where
  timeout : ∀ s, text? environment file "lock_timeout" = some s →
    ∃ x, Number.floatOfText? s = some x ∧ Number.ofInt 0 < x
  strict : ∀ s, text? environment file "strict_load" = some s → ∃ b, Number.boolOfText? s = some b

theorem readTimeout_ok_iff {s : String} : (∃ x, readTimeout (.str s) = .ok x) ↔
    ∃ x, Number.floatOfText? s = some x ∧ Number.ofInt 0 < x := by
  simp only [readTimeout, Schema.number, Schema.floatOfWord]
  cases Number.floatOfText? s with
  | none => simp
  | some x =>
    by_cases hpos : Number.ofInt 0 < x
    · simp [hpos]
    · simp [hpos]

theorem truth_ok_iff {s : String} : (∃ b, Schema.truth (.str s) = .ok b) ↔ ∃ b, Number.boolOfText? s = some b := by
  simp only [Schema.truth, Schema.truthOfWord]
  cases Number.boolOfText? s with
  | none => simp
  | some b => simp

theorem isGood_check_iff : (check (fieldsOf environment file)).IsGood ↔ Sound environment file := by
  unfold check
  rw [Schema.Checked.isGood_map, Schema.Checked.isGood_both, Schema.Checked.isGood_both, Schema.Checked.isGood_both,
    Schema.Checked.isGood_both, isGood_field (by decide), isGood_field (by decide), isGood_field (by decide),
    isGood_field (by decide), isGood_field (by decide)]
  constructor
  · rintro ⟨-, -, htimeout, hstrict, -⟩
    exact ⟨fun s hs => readTimeout_ok_iff.mp (htimeout s hs), fun s hs => truth_ok_iff.mp (hstrict s hs)⟩
  · rintro ⟨htimeout, hstrict⟩
    exact ⟨fun s _ => ⟨Location.ofText s, rfl⟩, fun s _ => ⟨Text.upper (Text.trim s), rfl⟩,
      fun s hs => readTimeout_ok_iff.mpr (htimeout s hs), fun s hs => truth_ok_iff.mpr (hstrict s hs),
      fun s _ => ⟨s, rfl⟩⟩

theorem load_eq : load [] environment file = (check (fieldsOf environment file)).toExcept := rfl

theorem load_of_sound (h : Sound environment file) : ∃ settings, load [] environment file = .ok settings := by
  obtain ⟨settings, hgood⟩ := isGood_check_iff.mpr h
  refine ⟨settings, ?_⟩
  rw [load_eq, hgood]
  rfl

theorem load_of_not_sound (h : ¬ Sound environment file) :
    ∃ issues, load [] environment file = .error (.invalid issues) := by
  rw [load_eq]
  cases hc : check (fieldsOf environment file) with
  | good settings => exact absurd (isGood_check_iff.mp ⟨settings, hc⟩) h
  | bad issues => exact ⟨issues, rfl⟩

/-! ## The level -/

def levelName (environment : List (String × String)) (file : List (String × Option String)) : String :=
  match text? environment file "log_level" with
  | some s => Text.upper (Text.trim s)
  | none => defaults.logLevel

theorem load_logLevel {settings : Settings} (h : load [] environment file = .ok settings) :
    settings.logLevel = levelName environment file := by
  rw [load_eq] at h
  cases hc : check (fieldsOf environment file) with
  | bad issues =>
    rw [hc] at h
    cases h
  | good settings' =>
    rw [hc] at h
    cases h
    obtain ⟨⟨path, level, timeout, strict, message⟩, hboth, rfl⟩ := Schema.Checked.map_good hc
    obtain ⟨-, hrest⟩ := Schema.Checked.both_good hboth
    obtain ⟨hlevel, -⟩ := Schema.Checked.both_good hrest
    unfold Schema.optional at hlevel
    rw [lookup_fieldsOf (by decide)] at hlevel
    unfold levelName
    cases hs : text? environment file "log_level" with
    | none =>
      rw [hs] at hlevel
      exact (Schema.Checked.good.inj hlevel).symm
    | some s =>
      rw [hs] at hlevel
      exact (Schema.Checked.good.inj hlevel).symm

end Settings

def Log.levelNames : List String := ["CRITICAL", "FATAL", "ERROR", "WARN", "WARNING", "INFO", "DEBUG", "NOTSET"]

theorem Log.levelsOf?_isSome_iff {name : String} : (levelsOf? name).isSome ↔ name ∈ levelNames := by
  unfold levelsOf? levelOf?
  rw [Option.isSome_map, List.lookup_isSome_iff]
  simp [levelNames]

namespace Command

variable {σ : Type} {console : Console} {environment : List (String × String)} {arguments : List String} {a : Arguments}
  {w : World σ}

/-! ## The actions -/

theorem task_code {settings : Settings} {request : Request} {n : Nat} {printed : Printed} {w' : World σ}
    (h : task settings request w = (.ok (n, printed), w')) : n ≤ 1 := by
  cases request with
  | list =>
    simp only [task, listSessions] at h
    split at h
    · cases h
    · cases h
      exact Nat.zero_le 1
    · cases hrows : (listFiles settings.sessionsPath _ w).1 with
      | error f =>
        rw [hrows] at h
        cases h
      | ok rows =>
        rw [hrows] at h
        cases h
        exact Nat.zero_le 1
  | «show» name parent =>
    simp only [task, showSession] at h
    split at h
    · cases h
    · cases h
      exact Nat.le_refl 1
    · split at h
      · cases h
      · cases h
        exact Nat.zero_le 1
  | clear name parent =>
    simp only [task, clearSession] at h
    split at h
    · cases h
    · cases h
      exact Nat.le_refl 1
    · split at h
      · cases h
      · cases h
        exact Nat.zero_le 1
      · cases h
        exact Nat.le_refl 1

theorem shownTask_code {settings : Settings} {request : Request} {n : Nat} {printed : Printed} {w' : World σ}
    (h : shownTask console settings request w = (.ok (n, printed), w')) : n ≤ 1 := by
  unfold shownTask at h
  cases ht : task settings request w with
  | mk answer w₁ =>
    rw [ht] at h
    cases answer with
    | error f => cases h
    | ok r =>
      cases hshown : showAll console r.2.markups with
      | error f =>
        simp only [hshown] at h
        cases h
      | ok u =>
        simp only [hshown] at h
        cases h
        exact task_code ht

/-! ## The program -/

/-- How a run ends once its arguments are read: one constructor for each way. -/
inductive Ends (console : Console) (environment : List (String × String)) (a : Arguments) (w : World σ) :
    Report σ → Prop where
  | undecodable {c : ByteArray} : w.disk.file? Settings.variablesPlace = some c → String.fromUTF8? c = none →
      Ends console environment a w ⟨.raised .undecodable, [], 0, w⟩
  | misconfigured {file : List (String × Option String)} {issues : List Issue} :
      Settings.fileVariables environment w.disk = .ok file → ¬ Settings.Sound environment file →
      Ends console environment a w ⟨.misconfigured issues, [], 0, w⟩
  | unknownLevel {file : List (String × Option String)} :
      Settings.fileVariables environment w.disk = .ok file → Settings.Sound environment file →
      Settings.levelName environment file ∉ Log.levelNames →
      Ends console environment a w ⟨.raised (.unknownLevel (Settings.levelName environment file)), [], 0, w⟩
  | failed {file : List (String × Option String)} {settings : Settings} {f : Fault} {level : Nat} {w' : World σ} :
      Settings.fileVariables environment w.disk = .ok file → Settings.Sound environment file →
      Settings.levelName environment file ∈ Log.levelNames →
      shownTask console settings a.request w = (.error f, w') →
      Ends console environment a w ⟨.code 1, [], level, w'.report
        { Log.entry Log.error Log.Logger.command "Command failed" [] with fault := some (f.message?.getD "") }⟩
  | done {file : List (String × Option String)} {settings : Settings} {n level : Nat} {printed : Printed}
      {w' : World σ} :
      Settings.fileVariables environment w.disk = .ok file → Settings.Sound environment file →
      Settings.levelName environment file ∈ Log.levelNames →
      shownTask console settings a.request w = (.ok (n, printed), w') →
      n ≤ 1 → Ends console environment a w ⟨.code n, [printed], level, w'⟩

theorem fileVariables_error {d : Disk} {f : Fault} (h : Settings.fileVariables environment d = .error f) :
    f = .undecodable ∧ ∃ c, d.file? Settings.variablesPlace = some c ∧ String.fromUTF8? c = none := by
  unfold Settings.fileVariables at h
  split at h
  · cases h
  · rename_i c hc
    split at h
    · cases h
    · rename_i ht
      cases h
      exact ⟨rfl, c, hc, ht⟩

theorem withPath_logLevel (settings : Settings) (path : Option String) :
    (withPath settings path).logLevel = settings.logLevel := by
  unfold withPath
  split
  · rfl
  · split <;> rfl

theorem run_ends (ha : Arguments.read arguments = .ok a) :
    Ends console environment a w (run console arguments environment w) := by
  unfold run
  rw [ha]
  dsimp only
  cases hfile : Settings.fileVariables environment w.disk with
  | error f =>
    obtain ⟨rfl, c, hc, ht⟩ := fileVariables_error hfile
    rw [show Settings.loadAt [] environment w.disk = .error .undecodable by
      unfold Settings.loadAt
      rw [hfile]
      rfl]
    exact .undecodable hc ht
  | ok file =>
    have hload : Settings.loadAt [] environment w.disk = Settings.load [] environment file := by
      unfold Settings.loadAt
      rw [hfile]
      rfl
    rw [hload]
    by_cases hsound : Settings.Sound environment file
    · obtain ⟨settings, hs⟩ := Settings.load_of_sound hsound
      rw [hs]
      dsimp only
      unfold runWith
      rw [withPath_logLevel, Settings.load_logLevel hs]
      cases hlevel : Log.levelsOf? (Settings.levelName environment file) with
      | none =>
        refine .unknownLevel hfile hsound fun hmem => ?_
        rw [← Log.levelsOf?_isSome_iff, hlevel] at hmem
        cases hmem
      | some levels =>
        have hmem : Settings.levelName environment file ∈ Log.levelNames := by
          rw [← Log.levelsOf?_isSome_iff, hlevel]
          rfl
        dsimp only
        unfold perform
        cases ht : shownTask console (withPath settings a.sessionsPath) a.request w with
        | mk answer w' =>
          cases answer with
          | error f => exact .failed hfile hsound hmem ht
          | ok r => exact .done hfile hsound hmem ht (shownTask_code ht)
    · obtain ⟨issues, hs⟩ := Settings.load_of_not_sound hsound
      rw [hs]
      exact .misconfigured hfile hsound

/-- A configuration that the whole program can work with. -/
structure Configured (environment : List (String × String)) (file : List (String × Option String)) : Prop where
  sound : Settings.Sound environment file
  level : Settings.levelName environment file ∈ Log.levelNames

/-- **When the program answers with a code.** It does on every configuration, and with 2 on each that it cannot work
with, exactly if the file of variables is a text, and the log knows the level unless a check fails before that. -/
theorem coded_iff (ha : Arguments.read arguments = .ok a) :
    ((∃ n ≤ 2, (run console arguments environment w).exit.code? = some n) ∧
      ((¬ ∃ file, Settings.fileVariables environment w.disk = .ok file ∧ Configured environment file) →
        (run console arguments environment w).exit.code? = some 2)) ↔
    ∃ file, Settings.fileVariables environment w.disk = .ok file ∧
      (Settings.Sound environment file → Settings.levelName environment file ∈ Log.levelNames) := by
  have hends : Ends console environment a w (run console arguments environment w) := run_ends ha
  generalize run console arguments environment w = r at hends ⊢
  cases hends with
  | @undecodable c hc ht =>
    constructor
    · rintro ⟨⟨n, -, hn⟩, -⟩
      cases hn
    · rintro ⟨file, hfile, -⟩
      unfold Settings.fileVariables at hfile
      rw [hc] at hfile
      dsimp only at hfile
      rw [ht] at hfile
      cases hfile
  | @misconfigured file issues hfile hsound =>
    exact ⟨fun _ => ⟨file, hfile, fun h => absurd h hsound⟩, fun _ => ⟨⟨2, Nat.le_refl 2, rfl⟩, fun _ => rfl⟩⟩
  | @unknownLevel file hfile hsound hlevel =>
    constructor
    · rintro ⟨⟨n, -, hn⟩, -⟩
      cases hn
    · rintro ⟨file', hfile', h⟩
      cases hfile.symm.trans hfile'
      exact absurd (h hsound) hlevel
  | @failed file settings f level w' hfile hsound hlevel ht =>
    exact ⟨fun _ => ⟨file, hfile, fun _ => hlevel⟩,
      fun _ => ⟨⟨1, by decide, rfl⟩, fun h => absurd ⟨file, hfile, hsound, hlevel⟩ h⟩⟩
  | @done file settings n level printed w' hfile hsound hlevel ht hn =>
    exact ⟨fun _ => ⟨file, hfile, fun _ => hlevel⟩,
      fun _ => ⟨⟨n, Nat.le_succ_of_le hn, rfl⟩, fun h => absurd ⟨file, hfile, hsound, hlevel⟩ h⟩⟩

def listing : List String := ["sessions", "list"]

theorem listing_read : Arguments.read listing = .ok ⟨none, .list⟩ := rfl

def hasty : List (String × String) := [("STORYBOARD_LOG_LEVEL", "LOUD"), ("STORYBOARD_LOCK_TIMEOUT", "soon")]

/-- What is wrong with the waiting time is found before the level is looked at. -/
theorem hasty_coded : (run .marked listing hasty (World.blank ())).exit.code? = some 2 := by
  have hsound : ¬ Settings.Sound hasty [] := by
    intro h
    obtain ⟨x, hx, -⟩ := h.timeout "soon" rfl
    have hnone : Number.floatOfText? "soon" = none := rfl
    cases hnone.symm.trans hx
  refine ((coded_iff listing_read).mpr ⟨[], rfl, fun h => absurd h hsound⟩).2 ?_
  rintro ⟨file, hfile, hc⟩
  cases hfile
  exact hsound hc.sound

def loud : List (String × String) := [("STORYBOARD_LOG_LEVEL", "LOUD")]

/-- The log does not know the level, and nothing handles that. -/
theorem loud_uncoded : (run .marked listing loud (World.blank ())).exit.code? = none ∧
    ¬ ∃ file, Settings.fileVariables loud (World.blank ()).disk = .ok file ∧ Configured loud file := by
  refine ⟨rfl, ?_⟩
  rintro ⟨file, hfile, hc⟩
  cases hfile
  exact absurd hc.level (by decide)

end Command

end Boardwalk
