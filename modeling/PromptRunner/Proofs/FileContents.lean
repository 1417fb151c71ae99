import Mathlib.Data.List.Nodup
import PromptRunner.Proofs.Locating

/-!
# File systems that differ in the content of one file

The content of a file decides neither where a path leads nor what a directory lists. So two file
systems that differ in the content of one file are told apart only by reading this file. The order
in which a directory is listed may be another one, unless two names in it are shown alike.
-/

namespace PromptRunner.FileSystem

/-- Two file systems differ at most in the content of the file at a place. -/
structure DifferAt (fs fs' : FileSystem) (place : Place) : Prop where
  workingPlace : fs'.workingPlace = fs.workingPlace
  closed : fs'.closed = fs.closed
  unreadable : fs'.unreadable = fs.unreadable
  elsewhere : ∀ q, q ≠ place → fs'.at? q = fs.at? q
  file : ∃ content content' executable,
    fs.at? place = some (.file content executable) ∧
      fs'.at? place = some (.file content' executable)
  order : ∀ q, fs'.namesIn q = fs.namesIn q ∨ ((fs.namesIn q).map Path.shown).Nodup

variable {fs fs' : FileSystem} {place q : Place} {path : Path} {name : Path.Part}

namespace DifferAt

theorem at?_cases (h : DifferAt fs fs' place) (q : Place) :
    fs'.at? q = fs.at? q ∨ ∃ content content' executable,
      fs.at? q = some (.file content executable) ∧
        fs'.at? q = some (.file content' executable) := by
  by_cases hq : q = place
  · subst hq
    exact .inr h.file
  · exact .inl (h.elsewhere q hq)

theorem isSome_at? (h : DifferAt fs fs' place) (q : Place) :
    (fs'.at? q).isSome = (fs.at? q).isSome := by
  rcases h.at?_cases q with hsame | ⟨_, _, _, hold, hnew⟩
  · rw [hsame]
  · simp [hold, hnew]

theorem directory_iff (h : DifferAt fs fs' place) (q : Place) :
    fs'.at? q = some .directory ↔ fs.at? q = some .directory := by
  rcases h.at?_cases q with hsame | ⟨_, _, _, hold, hnew⟩
  · rw [hsame]
  · simp [hold, hnew]

theorem step_eq (h : DifferAt fs fs' place) (q : Place) (part : Path.Part) :
    fs'.step q part = fs.step q part := by
  have hnext := h.isSome_at? (q ++ [part])
  rcases h.at?_cases q with hsame | ⟨_, _, _, hold, hnew⟩
  · simp only [step, hsame, hnext, h.closed]
  · simp only [step, hold, hnew]

theorem follow_eq (h : DifferAt fs fs' place) (q : Place) (parts : List Path.Part) :
    fs'.follow q parts = fs.follow q parts := by
  induction parts generalizing q with
  | nil => rfl
  | cons part parts ih => simp only [follow, h.step_eq, ih]

theorem locate_eq (h : DifferAt fs fs' place) (path : Path) : fs'.locate path = fs.locate path := by
  simp only [locate, h.workingPlace, h.follow_eq]

theorem isFile_eq (h : DifferAt fs fs' place) (path : Path) : fs'.isFile path = fs.isFile path := by
  rw [isFile, isFile, find, find, h.locate_eq]
  cases fs.locate path with
  | error e => rfl
  | ok q =>
    rcases h.at?_cases q with hsame | ⟨_, _, _, hold, hnew⟩
    · simp only [hsame]
    · simp only [hold, hnew]

theorem mayRead_eq (h : DifferAt fs fs' place) (path : Path) :
    fs'.mayRead path = fs.mayRead path := by
  rw [mayRead, mayRead, h.locate_eq, h.unreadable]

theorem readText_eq (h : DifferAt fs fs' place) (hpath : fs.locate path ≠ .ok place) :
    fs'.readText path = fs.readText path := by
  have hfind : fs'.find path = fs.find path := by
    rw [find, find, h.locate_eq]
    cases hlocate : fs.locate path with
    | error e => rfl
    | ok q =>
      have hq : q ≠ place := by
        rintro rfl
        exact hpath hlocate
      simp only [h.elsewhere q hq]
  rw [readText, readText, readBytes, readBytes, hfind, h.mayRead_eq]

end DifferAt

/-! ## What a directory lists -/

/-- No name is listed twice, as nothing stands twice. -/
theorem nodup_namesIn (fs : FileSystem) (place : Place) : (fs.namesIn place).Nodup := by
  have hplaces : fs.namesIn place = (fs.entries.map Prod.fst).filterMap (nameIn? place) := by
    rw [List.filterMap_map]
    rfl
  rw [hplaces]
  apply List.Nodup.filterMap _ fs.unique
  intro q q' name hq hq'
  rw [nameIn?_eq_some_iff.mp hq, nameIn?_eq_some_iff.mp hq']

theorem isFileName_of_mem_list {names : List Path.Part} (h : fs.list path = .ok names)
    (hmem : name ∈ names) : isFileName name = true := by
  obtain ⟨place, -, -, -, rfl⟩ := list_eq_ok_iff.mp h
  obtain ⟨e, he, hin⟩ := List.mem_filterMap.mp hmem
  have hparts := fs.named e he
  rw [nameIn?_eq_some_iff.mp hin, List.all_append, Bool.and_eq_true] at hparts
  simpa using hparts.2

theorem DifferAt.namesIn_perm (h : DifferAt fs fs' place) (q : Place) :
    (fs'.namesIn q).Perm (fs.namesIn q) := by
  apply (List.perm_ext_iff_of_nodup (nodup_namesIn fs' q) (nodup_namesIn fs q)).mpr
  intro name
  rw [mem_namesIn, mem_namesIn, h.isSome_at?]

/-- A directory lists the same names in two file systems, or fails alike. The order may be another
one if no two names are shown alike. -/
structure ListsAlike (fs fs' : FileSystem) (path : Path) : Prop where
  names : ∀ {names}, fs.list path = .ok names → ∃ names', fs'.list path = .ok names' ∧
    names'.Perm names ∧ (names' = names ∨ (names.map Path.shown).Nodup)
  error : ∀ {e}, fs'.list path = .error e ↔ fs.list path = .error e

theorem DifferAt.listsAlike (h : DifferAt fs fs' place) (path : Path) :
    ListsAlike fs fs' path where
  names hlist := by
    obtain ⟨q, hlocate, hat, hread, rfl⟩ := list_eq_ok_iff.mp hlist
    have hlocate' := (h.locate_eq path).trans hlocate
    have hat' := (h.directory_iff q).mpr hat
    have hlist' := list_eq_ok_iff.mpr ⟨q, hlocate', hat', h.unreadable ▸ hread, rfl⟩
    exact ⟨_, hlist', h.namesIn_perm q, h.order q⟩
  error := by
    intro e
    simp only [list_eq_error_iff, h.locate_eq, ne_eq, h.directory_iff, h.unreadable]

end PromptRunner.FileSystem
