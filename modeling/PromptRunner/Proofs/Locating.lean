import PromptRunner.FileSystem
import PromptRunner.Proofs.Path
/-!
# Looking into a directory

A path that leads from a directory further is followed through the directory first. Without a step
upwards it ends at a place below, and a file found by a name is one of the files that the directory
lists.
-/

namespace PromptRunner.FileSystem

variable {fs : FileSystem} {place next : Place} {directory path : Path} {name part : Path.Part}

theorem follow_append (fs : FileSystem) (place : Place) (ps qs : List Path.Part) :
    fs.follow place (ps ++ qs) =
      match fs.follow place ps with
      | .ok next => fs.follow next qs
      | .error e => .error e := by
  induction ps generalizing place with
  | nil => rfl
  | cons p ps ih =>
    rw [List.cons_append, follow, follow]
    cases fs.step place p with
    | ok next => exact ih next
    | error e => rfl

theorem follow_singleton (fs : FileSystem) (place : Place) (part : Path.Part) :
    fs.follow place [part] = fs.step place part := by
  rw [follow]
  cases fs.step place part with
  | ok next => rfl
  | error e => rfl

theorem follow_append_eq_ok {ps qs : List Path.Part} :
    fs.follow place (ps ++ qs) = .ok next ↔
      ∃ middle, fs.follow place ps = .ok middle ∧ fs.follow middle qs = .ok next := by
  rw [follow_append]
  cases fs.follow place ps with
  | ok middle => simp
  | error e => simp

theorem follow_cons_eq_ok {parts : List Path.Part} :
    fs.follow place (part :: parts) = .ok next ↔
      ∃ middle, fs.step place part = .ok middle ∧ fs.follow middle parts = .ok next := by
  rw [← List.singleton_append, follow_append_eq_ok, follow_singleton]

theorem directory_of_step (h : fs.step place part = .ok next) : fs.at? place = some .directory := by
  rw [step] at h
  cases hat : fs.at? place with
  | none => rw [hat] at h; exact nomatch h
  | some e =>
    cases e with
    | directory => rfl
    | file content executable => rw [hat] at h; exact nomatch h

theorem step_nil (h : fs.at? place = some .directory) : fs.step place [] = .ok place := by
  rw [step, h]
  rfl

theorem eq_of_step (hparent : part ≠ Path.parentPart) (h : fs.step place part = .ok next) :
    next = if Path.isStep part then place ++ [part] else place := by
  have hdown : ¬ (part == Path.parentPart) = true := by simpa using hparent
  rw [step, directory_of_step h] at h
  dsimp only at h
  rw [if_neg hdown] at h
  by_cases hempty : part = []
  · subst hempty
    exact (Except.ok.inj h).symm
  · rw [if_neg (mt List.isEmpty_iff.mp hempty)] at h
    by_cases hself : part = Path.selfPart
    · subst hself
      rw [if_neg (by decide)]
      split_ifs at h with _ hnot
      · exact (Except.ok.inj h).symm
      · exact absurd (beq_self_eq_true Path.selfPart) hnot
    · rw [if_pos (Path.isStep_iff.mpr ⟨hempty, hself⟩)]
      split_ifs at h with _ heq
      · exact absurd (beq_iff_eq.mp heq) hself
      · exact (Except.ok.inj h).symm

theorem step_name (hname : isFileName name = true) (h : fs.step place name = .ok next) :
    fs.at? place = some .directory ∧ next = place ++ [name] := by
  obtain ⟨hempty, hself, hparent, -⟩ := isFileName_iff.mp hname
  have hnext := eq_of_step hparent h
  have hstep : Path.isStep name = true := Path.isStep_iff.mpr ⟨hempty, hself⟩
  rw [if_pos hstep] at hnext
  exact ⟨directory_of_step h, hnext⟩

/-- Without a part that leads upwards, following a path ends below, by the steps that it takes. -/
theorem eq_of_follow {parts : List Path.Part} (hparent : Path.parentPart ∉ parts)
    (h : fs.follow place parts = .ok next) : next = place ++ parts.filter Path.isStep := by
  induction parts generalizing place with
  | nil =>
    obtain rfl := Except.ok.inj h
    simp
  | cons part parts ih =>
    obtain ⟨hpart, hparts⟩ := not_or.mp (mt List.mem_cons.mpr hparent)
    obtain ⟨middle, hstep, hrest⟩ := follow_cons_eq_ok.mp h
    have hmiddle := eq_of_step (Ne.symm hpart) hstep
    rw [ih hparts hrest, hmiddle, List.filter_cons]
    split_ifs <;> simp

theorem directory_of_follow {parts : List Path.Part} (hne : parts ≠ [])
    (h : fs.follow place parts = .ok next) : fs.at? place = some .directory := by
  cases parts with
  | nil => exact absurd rfl hne
  | cons part parts =>
    obtain ⟨middle, hstep, -⟩ := follow_cons_eq_ok.mp h
    exact directory_of_step hstep

/-- Following a path with a relative one behind it follows the path, and the relative one from
there. -/
theorem follow_join {base path : Path} (hbase : base ≠ [])
    (hrelative : Path.isAbsolute path = false)
    (h : fs.follow place (Path.split (Path.join base path)) = .ok next) :
    ∃ middle, fs.follow place (Path.split base) = .ok middle ∧
      fs.follow middle (Path.split path) = .ok next := by
  have hparts (front : Path) :
      Path.split (front ++ Path.slash :: path) = Path.split front ++ Path.split path :=
    Text.splitAt_append_cons Path.slash front path
  obtain ⟨hjoin, hends⟩ | hjoin := Path.join_of_relative base hrelative
  · obtain ⟨front, rfl⟩ := hends.resolve_left hbase
    rw [hjoin, List.append_assoc, List.singleton_append, hparts] at h
    obtain ⟨middle, hmiddle, hrest⟩ := follow_append_eq_ok.mp h
    have hsplit : Path.split (front ++ [Path.slash]) = Path.split front ++ [[]] :=
      Text.splitAt_append_cons Path.slash front []
    have hdirectory := directory_of_follow (Text.splitAt_ne_nil Path.slash path) hrest
    refine ⟨middle, ?_, hrest⟩
    rw [hsplit, follow_append, hmiddle]
    exact (follow_singleton fs middle []).trans (step_nil hdirectory)
  · rw [hjoin, hparts] at h
    exact follow_append_eq_ok.mp h

theorem locate_eq_ok_iff :
    fs.locate path = .ok place ↔
      0 ∉ path ∧ path ≠ [] ∧ path.length < pathLimit ∧
        fs.follow (if Path.isAbsolute path then [] else fs.workingPlace) (Path.split path) =
          .ok place := by
  rw [locate]
  simp only [List.contains_iff_mem, List.isEmpty_iff, ← Nat.not_le]
  split_ifs <;> simp_all

/-- A relative path behind a directory leads through the directory. -/
theorem locate_through (hdirectory : directory ≠ []) (hrelative : Path.isAbsolute path = false)
    (h : fs.locate (Path.join directory path) = .ok next) :
    ∃ place, fs.locate directory = .ok place ∧ fs.follow place (Path.split path) = .ok next := by
  rw [locate_eq_ok_iff] at h
  obtain ⟨hnul, -, hlimit, hfollow⟩ := h
  have hjoin : ∃ rest, Path.join directory path = directory ++ rest := by
    obtain ⟨hjoin, -⟩ | hjoin := Path.join_of_relative directory hrelative
    · exact ⟨_, hjoin⟩
    · exact ⟨_, hjoin⟩
  obtain ⟨place, hplace, hrest⟩ := follow_join hdirectory hrelative hfollow
  obtain ⟨rest, hjoin⟩ := hjoin
  rw [hjoin, Path.isAbsolute_append rest hdirectory] at hplace
  rw [hjoin, List.mem_append, not_or] at hnul
  rw [hjoin, List.length_append] at hlimit
  exact ⟨place, locate_eq_ok_iff.mpr ⟨hnul.1, hdirectory, by omega, hplace⟩, hrest⟩

theorem locate_join (hdirectory : directory ≠ []) (hname : Path.slash ∉ name)
    (h : fs.locate (Path.join directory name) = .ok next) :
    ∃ place, fs.locate directory = .ok place ∧ fs.step place name = .ok next := by
  obtain ⟨place, hplace, hfollow⟩ :=
    locate_through hdirectory (Path.isAbsolute_of_not_mem hname) h
  rw [Path.split, Text.splitAt_of_not_mem hname, follow_singleton] at hfollow
  exact ⟨place, hplace, hfollow⟩

theorem isFile_iff :
    fs.isFile path = true ↔
      ∃ place content executable, fs.locate path = .ok place ∧
        fs.at? place = some (.file content executable) := by
  rw [isFile, find]
  constructor
  · intro h
    split at h
    · rename_i content executable hfind
      split at hfind
      · rename_i place hplace
        split at hfind
        · rename_i e hat
          exact ⟨place, content, executable, hplace, hat.trans (congrArg some (Except.ok.inj hfind))⟩
        · exact nomatch hfind
      · exact nomatch hfind
    · exact nomatch h
  · rintro ⟨place, content, executable, hplace, hat⟩
    simp only [hplace, hat]

theorem nameIn?_eq_some_iff {q : Place} : nameIn? place q = some name ↔ q = place ++ [name] := by
  unfold nameIn?
  constructor
  · intro h
    split at h
    · rename_i last hlast
      split_ifs at h with hfront
      obtain ⟨front, rfl⟩ := List.getLast?_eq_some_iff.mp hlast
      simp_all
    · exact nomatch h
  · rintro rfl
    simp

theorem mem_namesIn : name ∈ fs.namesIn place ↔ (fs.at? (place ++ [name])).isSome = true := by
  have hne : (place ++ [name]).isEmpty = false := by simp
  rw [at?, hne, namesIn, List.mem_filterMap]
  simp [nameIn?_eq_some_iff, List.lookup_isSome_iff]

theorem list_eq_ok_iff {names : List Path.Part} :
    fs.list path = .ok names ↔ ∃ place, fs.locate path = .ok place ∧
      fs.at? place = some .directory ∧ place ∉ fs.unreadable ∧ names = fs.namesIn place := by
  rw [list]
  cases fs.locate path with
  | error e => simp
  | ok place =>
    cases hat : fs.at? place with
    | none => simp [hat]
    | some entry =>
      cases entry with
      | file content executable => simp [hat]
      | directory =>
        by_cases hread : place ∈ fs.unreadable
        · simp [hat, hread]
        · simp [hat, hread, eq_comm]

theorem list_eq_error_iff {e : FileError} :
    fs.list path = .error e ↔ fs.locate path = .error e ∨
      ∃ place, fs.locate path = .ok place ∧
        (fs.at? place ≠ some .directory ∧ e = .notDirectory ∨
          fs.at? place = some .directory ∧ place ∈ fs.unreadable ∧ e = .permissionDenied) := by
  rw [list]
  cases fs.locate path with
  | error e => simp
  | ok place =>
    cases hat : fs.at? place with
    | none => simp [hat, eq_comm]
    | some entry =>
      cases entry with
      | file content executable => simp [hat, eq_comm]
      | directory =>
        by_cases hread : place ∈ fs.unreadable
        · simp [hat, hread, eq_comm]
        · simp [hat, hread]

theorem exists_place_of_isFile (hdirectory : directory ≠ []) (hname : isFileName name = true)
    (h : fs.isFile (Path.join directory name) = true) :
    ∃ place, fs.locate directory = .ok place ∧ fs.at? place = some .directory ∧
      name ∈ fs.namesIn place := by
  have hslash : Path.slash ∉ name := (isFileName_iff.mp hname).2.2.2
  obtain ⟨next, content, executable, hnext, hat⟩ := isFile_iff.mp h
  obtain ⟨place, hplace, hstep⟩ := locate_join hdirectory hslash hnext
  obtain ⟨hdir, rfl⟩ := step_name hname hstep
  exact ⟨place, hplace, hdir, mem_namesIn.mpr (by rw [hat]; rfl)⟩

theorem mem_of_isFile {names : List Path.Part} (hdirectory : directory ≠ [])
    (hname : isFileName name = true) (h : fs.isFile (Path.join directory name) = true)
    (hlist : fs.list directory = .ok names) : name ∈ names := by
  obtain ⟨place, hplace, -, hmem⟩ := exists_place_of_isFile hdirectory hname h
  obtain ⟨place', hplace', -, -, rfl⟩ := list_eq_ok_iff.mp hlist
  obtain rfl := Except.ok.inj (hplace.symm.trans hplace')
  exact hmem

theorem isFile_eq_false_of_missing (hdirectory : directory ≠ []) (hname : isFileName name = true)
    (hlist : fs.list directory = .error .missing) : fs.isFile (Path.join directory name) = false := by
  refine Bool.eq_false_iff.mpr fun h => ?_
  obtain ⟨place, hplace, hdir, -⟩ := exists_place_of_isFile hdirectory hname h
  rw [list, hplace] at hlist
  simp only [hdir] at hlist
  split_ifs at hlist
  exact nomatch hlist

end PromptRunner.FileSystem
