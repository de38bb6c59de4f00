import Boardwalk.Proofs.Disk.Child
import Boardwalk.Proofs.Slug.Words
import Boardwalk.Session
/-!
# Names of session files

The file of a session is a child of the sessions directory, whatever its names are made of (`file_in_directory`). Its
name is the words of the parent followed by the words of the session (`slugs_compose`). So the parent keeps apart what
has one name, and the name what has one parent; but where the one ends and the other begins is not told
(`file_eq_iff`, `scopes_meet`).
-/

namespace Boardwalk.Session

open Slug (IsWord IsSlug shownWords isWordChar)

/-! ## The words of a file name -/

/-- The words that a parent puts in front of those of its sessions. -/
def scopeWords : Option String → List (List Char)
  | none => []
  | some p => shownWords (Slug.ofText p)

variable {parent parent' : Option String} {name name' : String}

theorem isWord_of_scope {w : List Char} (h : w ∈ scopeWords parent) : IsWord w := by
  cases parent with
  | none => cases h
  | some p =>
    rw [scopeWords, Slug.shownWords_ofText] at h
    exact Slug.isWord_of_mem h

theorem words_pair (p n : String) : Slug.words (p ++ " " ++ n).toList = Slug.words p.toList ++ Slug.words n.toList := by
  have hsep : isWordChar ' ' = false := by decide
  rw [← Slug.words_append_break hsep, String.toList_append, String.toList_append, List.append_assoc]
  rfl

theorem toList_stem (parent : Option String) (name : String) :
    (stem parent name).toList = Text.joinWith ['-'] (scopeWords parent ++ Slug.words name.toList) := by
  cases parent with
  | none => exact Slug.toList_ofText name
  | some p =>
    unfold stem
    by_cases h : p = ""
    · subst h
      exact Slug.toList_ofText name
    · dsimp only
      rw [if_neg h, Slug.toList_ofText, words_pair, scopeWords, Slug.shownWords_ofText]

theorem isWord_of_stem {w : List Char} (h : w ∈ scopeWords parent ++ Slug.words name.toList) : IsWord w := by
  rcases List.mem_append.mp h with h | h
  · exact isWord_of_scope h
  · exact Slug.isWord_of_mem h

theorem isSlug_stem (parent : Option String) (name : String) : IsSlug (stem parent name) :=
  ⟨_, fun _ => isWord_of_stem, toList_stem parent name⟩

theorem stem_eq_iff : stem parent name = stem parent' name' ↔
    scopeWords parent ++ Slug.words name.toList = scopeWords parent' ++ Slug.words name'.toList := by
  rw [← String.toList_inj, toList_stem, toList_stem]
  constructor
  · intro h
    rw [← Slug.words_join fun _ => isWord_of_stem, h, Slug.words_join fun _ => isWord_of_stem]
  · intro h
    rw [h]

/-! ## The file in its directory -/

theorem slash_not_mem_slug {s : String} (h : IsSlug s) : '/' ∉ s.toList := by
  obtain ⟨ws, hws, hs⟩ := h
  intro hmem
  rw [hs] at hmem
  rcases Text.mem_joinWith hmem with hmem | ⟨w, hw, hmem⟩
  · exact absurd hmem (by decide)
  · exact absurd ((hws w hw).2 '/' hmem) (by decide)

/-- **The file of a session is a child of its directory.** A slug is words of small letters and digits with single
dashes between them; it is its own slug, and no other texts are. So whatever the names of a session hold, separators and
dots too, its file name is a single name: from the directory it leads to a child and nowhere else. -/
theorem file_in_directory :
    (∀ s, IsSlug (Slug.ofText s) ∧ Slug.ofText (Slug.ofText s) = Slug.ofText s ∧ (IsSlug s ↔ Slug.ofText s = s)) ∧
    ∀ (directory : Location) (parent : Option String) (name : String),
      directory.join (stem parent name ++ ".json") = fileLocation directory parent name ∧
      (fileLocation directory parent name).parent = directory ∧
      (fileLocation directory parent name).place = directory.place ++ [stem parent name ++ ".json"] := by
  refine ⟨fun s => ⟨Slug.isSlug_ofText s, Slug.ofText_ofText s, Slug.isSlug_iff s⟩, fun directory parent name => ?_⟩
  have hslash : '/' ∉ (stem parent name ++ ".json").toList := by
    rw [String.toList_append, List.mem_append, not_or]
    exact ⟨slash_not_mem_slug (isSlug_stem parent name), by decide⟩
  exact ⟨directory.join_eq_child hslash (Location.append_ne (by decide)) (Location.append_ne (by decide)),
    directory.parent_child _, directory.place_child (Location.append_ne (by decide))⟩

/-! ## Slugs of composed names -/

/-- **Slugs compose.** A separator that is no letter and no digit parts the words of a text, so the file of a session
below another one is named with the slug of the parent, a dash and the slug of its own. -/
theorem slugs_compose :
    (∀ (a b : String) (sep : Char), isWordChar sep = false →
      shownWords (Slug.ofText (a ++ String.singleton sep ++ b)) =
        shownWords (Slug.ofText a) ++ shownWords (Slug.ofText b)) ∧
    ∀ parent name, Slug.ofText parent ≠ "" → Slug.ofText name ≠ "" →
      stem (some parent) name = Slug.ofText parent ++ "-" ++ Slug.ofText name := by
  constructor
  · intro a b sep hsep
    simp only [Slug.shownWords_ofText, String.toList_append, String.toList_singleton, List.append_assoc,
      List.singleton_append]
    exact Slug.words_append_break hsep a.toList b.toList
  · intro parent name hparent hname
    rw [Ne, Slug.ofText_eq_empty_iff] at hparent hname
    rw [← String.toList_inj, toList_stem, scopeWords, Slug.shownWords_ofText]
    simp only [String.toList_append, Slug.toList_ofText]
    exact Text.joinWith_append ['-'] hparent hname

theorem slugs_compose_humps :
    (isWordChar 'é' = false ∧
      shownWords (Slug.ofText ("addHTTPServer" ++ String.singleton 'é' ++ "v2Release")) =
        shownWords (Slug.ofText "addHTTPServer") ++ shownWords (Slug.ofText "v2Release")) ∧
    Slug.ofText "Create/Project" ≠ "" ∧ Slug.ofText "..addModule" ≠ "" ∧
      stem (some "Create/Project") "..addModule" = Slug.ofText "Create/Project" ++ "-" ++ Slug.ofText "..addModule" := by
  have hsep : isWordChar 'é' = false := by decide
  have hparent : Slug.ofText "Create/Project" ≠ "" := by decide
  have hname : Slug.ofText "..addModule" ≠ "" := by decide
  exact ⟨⟨hsep, slugs_compose.1 _ _ 'é' hsep⟩, hparent, hname, slugs_compose.2 _ _ hparent hname⟩

/-! ## Sessions with one file -/

theorem file_eq_iff_stem {directory : Location} :
    fileLocation directory parent name = fileLocation directory parent' name' ↔ stem parent name = stem parent' name' := by
  unfold fileLocation
  rw [Location.child_inj, ← String.toList_inj, String.toList_append, String.toList_append, List.append_left_inj,
    String.toList_inj]

theorem scopeWords_ne_nil {p : String} (h : Slug.ofText p ≠ "") : scopeWords (some p) ≠ [] := by
  rw [scopeWords, Slug.shownWords_ofText]
  exact fun e => h ((Slug.ofText_eq_empty_iff p).mpr e)

theorem scopeWords_eq_iff (h : ∀ p ∈ parent, Slug.ofText p ≠ "") (h' : ∀ p ∈ parent', Slug.ofText p ≠ "") :
    scopeWords parent = scopeWords parent' ↔ parent.map Slug.ofText = parent'.map Slug.ofText := by
  cases parent with
  | none =>
    cases parent' with
    | none => exact iff_of_true rfl rfl
    | some p' => exact iff_of_false (scopeWords_ne_nil (h' p' rfl)).symm (by simp)
  | some p =>
    cases parent' with
    | none => exact iff_of_false (scopeWords_ne_nil (h p rfl)) (by simp)
    | some p' =>
      rw [scopeWords, scopeWords, Slug.shownWords_ofText, Slug.shownWords_ofText, Option.map_some, Option.map_some,
        Option.some_inj, Slug.ofText_eq_iff]

/-- **When two sessions of a directory have one file**: when the words of parent and name are the same row. So with one
slug for the parents, or with none, it is one file exactly if the names have one slug, and with one slug for the names
exactly if the parents do. -/
theorem file_eq_iff (directory : Location) (parent parent' : Option String) (name name' : String)
    (h : ∀ p ∈ parent, Slug.ofText p ≠ "") (h' : ∀ p ∈ parent', Slug.ofText p ≠ "") :
    (fileLocation directory parent name = fileLocation directory parent' name' ↔
      scopeWords parent ++ shownWords (Slug.ofText name) = scopeWords parent' ++ shownWords (Slug.ofText name')) ∧
    (parent.map Slug.ofText = parent'.map Slug.ofText →
      (fileLocation directory parent name = fileLocation directory parent' name' ↔
        Slug.ofText name = Slug.ofText name')) ∧
    (Slug.ofText name = Slug.ofText name' →
      (fileLocation directory parent name = fileLocation directory parent' name' ↔
        parent.map Slug.ofText = parent'.map Slug.ofText)) := by
  rw [file_eq_iff_stem, stem_eq_iff, Slug.shownWords_ofText, Slug.shownWords_ofText, ← scopeWords_eq_iff h h',
    Slug.ofText_eq_iff]
  refine ⟨Iff.rfl, fun hscope => ?_, fun hname => ?_⟩
  · rw [hscope]
    exact List.append_right_inj _
  · rw [hname]
    exact List.append_left_inj _

theorem file_eq_iff_spellings :
    (∀ p ∈ some "createProject", Slug.ofText p ≠ "") ∧ (∀ p ∈ some "Create/Project", Slug.ofText p ≠ "") ∧
    (fileLocation ⟨[], []⟩ (some "createProject") "add_module" =
        fileLocation ⟨[], []⟩ (some "Create/Project") "..addModule" ↔
      scopeWords (some "createProject") ++ shownWords (Slug.ofText "add_module") =
        scopeWords (some "Create/Project") ++ shownWords (Slug.ofText "..addModule")) ∧
    (fileLocation ⟨[], []⟩ (some "createProject") "add_module" =
        fileLocation ⟨[], []⟩ (some "Create/Project") "..addModule" ↔
      Slug.ofText "add_module" = Slug.ofText "..addModule") ∧
    (fileLocation ⟨[], []⟩ (some "createProject") "add_module" =
        fileLocation ⟨[], []⟩ (some "Create/Project") "..addModule" ↔
      some (Slug.ofText "createProject") = some (Slug.ofText "Create/Project")) := by
  have h : ∀ p ∈ some "createProject", Slug.ofText p ≠ "" := by decide
  have h' : ∀ p ∈ some "Create/Project", Slug.ofText p ≠ "" := by decide
  obtain ⟨hwords, hscope, hname⟩ := file_eq_iff ⟨[], []⟩ _ _ "add_module" "..addModule" h h'
  exact ⟨h, h', hwords, hscope (by decide), hname (by decide)⟩

/-- **Where a parent ends is not told**: sessions of different names below different parents have one file. -/
theorem scopes_meet :
    (Slug.ofText "create" ≠ "" ∧ Slug.ofText "project modules" ≠ "") ∧
    (Slug.ofText "create project" ≠ "" ∧ Slug.ofText "modules" ≠ "") ∧
    fileLocation ⟨[], []⟩ (some "create") "project modules" = fileLocation ⟨[], []⟩ (some "create project") "modules" ∧
    Slug.ofText "create" ≠ Slug.ofText "create project" ∧ Slug.ofText "project modules" ≠ Slug.ofText "modules" := by
  decide

end Boardwalk.Session
