import PromptRunner.Proofs.Path.Below
import PromptRunner.Proofs.Prompt.Library

/-!
# Where prompts are looked for

A prompt is first looked for at the path that is asked for. Then a name without a dot stands for
three files, which are below the directory of the library as long as the name is relative. An
absolute name takes them away from the library: the files are then looked for where the name says.
No prompt is looked for if the current directory cannot be reached.
-/

namespace PromptRunner

namespace Library

variable {fs : FileSystem} {host : Host} {directory path direct : Path} {name ending : String}

/-- The files that a name stands for in a library, the preferred one first. -/
def filesNamed (directory : Path) (name : String) : List Path :=
  [Path.join directory (Path.ofText (name ++ ".prompt.yaml")),
    Path.join directory (Path.ofText (name ++ ".md")),
    Path.join directory (Path.ofText (name ++ ".txt"))]

/-- What is found for a name: the file at this path, or else, for a name without a dot, the first
file that it stands for. If nothing is found, the failure tells all paths that have been tried. -/
inductive Search (fs : FileSystem) (host : Host) (directory : Path) (name : String) :
    Except Failure Path → Prop
  | currentDir {e : FileError} : host.currentDir = .error e →
      Search fs host directory name (.error (.currentDirUnknown e))
  | direct {direct : Path} : host.expand name = .ok direct → fs.isFile direct = true →
      Search fs host directory name (.ok direct)
  | found {direct path : Path} : host.expand name = .ok direct → fs.isFile direct = false →
      '.' ∉ name.toList → (filesNamed directory name).find? fs.isFile = some path →
      Search fs host directory name (.ok path)
  | dotted {direct : Path} : host.expand name = .ok direct → fs.isFile direct = false →
      '.' ∈ name.toList →
      Search fs host directory name (.error (.promptNotFound name [Path.shown direct]))
  | missing {direct : Path} : host.expand name = .ok direct → fs.isFile direct = false →
      '.' ∉ name.toList → (∀ path ∈ filesNamed directory name, fs.isFile path = false) →
      Search fs host directory name
        (.error (.promptNotFound name ((direct :: filesNamed directory name).map Path.shown)))

theorem candidates_eq_filesNamed (directory : Path) (hdot : '.' ∉ name.toList) :
    candidates directory name = filesNamed directory name :=
  candidates_of_no_dot directory hdot

theorem search_resolve (fs : FileSystem) (host : Host) (directory : Path) (name : String) :
    Search fs host directory name (resolve fs host directory name) := by
  cases hexpand : host.expand name with
  | error f =>
    obtain ⟨e, he, rfl⟩ := Host.expand_eq_error_iff.mp hexpand
    rw [resolve, hexpand]
    exact .currentDir he
  | ok direct =>
    cases hdirect : fs.isFile direct with
    | true =>
      simp only [resolve, hexpand, hdirect]
      exact .direct hexpand hdirect
    | false =>
      rw [resolve_of_not_isFile hexpand hdirect]
      by_cases hdot : '.' ∈ name.toList
      · rw [candidates_of_dot directory hdot]
        exact .dotted hexpand hdirect hdot
      · rw [candidates_eq_filesNamed directory hdot]
        cases hfind : (filesNamed directory name).find? fs.isFile with
        | some path => exact .found hexpand hdirect hdot hfind
        | none =>
          apply Search.missing hexpand hdirect hdot
          simpa using List.find?_eq_none.mp hfind

/-! ## What is said of a search without success -/

theorem separated_indented (path : String) (paths : List String) :
    "\n" ++ Text.separated "\n" ((path :: paths).map ("  " ++ ·)) =
      String.join ((path :: paths).map ("\n  " ++ ·)) := by
  have hline (path : String) : "\n" ++ ("  " ++ path) = "\n  " ++ path := by
    rw [← String.append_assoc]
    rfl
  induction paths generalizing path with
  | nil => simpa [Text.separated] using hline path
  | cons next paths ih =>
    calc
      _ = "\n" ++ ("  " ++ path ++ "\n" ++
          Text.separated "\n" ((next :: paths).map ("  " ++ ·))) := rfl
      _ = "\n" ++ ("  " ++ path) ++
          ("\n" ++ Text.separated "\n" ((next :: paths).map ("  " ++ ·))) := by
        simp only [String.append_assoc]
      _ = "\n  " ++ path ++ String.join ((next :: paths).map ("\n  " ++ ·)) := by rw [hline, ih]
      _ = _ := String.join_cons.symm

/-- The message of a search without success tells the paths that have been tried, in order. -/
theorem message_promptNotFound (name path : String) (paths : List String) :
    (Failure.promptNotFound name (path :: paths)).message =
      "prompt '" ++ name ++ "' not found\n\nTried:" ++
        String.join ((path :: paths).map ("\n  " ++ ·)) ++
        "\n\nFix: run \x60prun list\x60 to see available prompts." := by
  have htried : "' not found\n\nTried:\n" = "' not found\n\nTried:" ++ "\n" := by decide
  unfold Failure.message
  rw [← separated_indented]
  simp only [htried, String.append_assoc]

/-! ## Where the files for a name are -/

theorem mem_filesNamed :
    path ∈ filesNamed directory name ↔
      ∃ ending ∈ endings, path = Path.join directory (Path.ofText (name ++ ending)) := by
  simp [filesNamed, endings]

theorem isAbsolute_named (name : String) (hending : ending ∈ endings) :
    Path.isAbsolute (Path.ofText (name ++ ending)) = Path.isAbsolute (Path.ofText name) := by
  have hrelative := Path.isAbsolute_of_not_mem (ending_form ending hending).1
  rw [Path.ofText_append]
  by_cases hname : Path.ofText name = []
  · rw [hname, List.nil_append, hrelative]
    rfl
  · exact Path.isAbsolute_append _ hname

/-- The last part of the path of a file is the last part of the name with the ending behind it. -/
theorem split_named (name : String) (hending : ending ∈ endings) :
    ∃ parts last, Path.split (Path.ofText name) = parts ++ [last] ∧
      Path.split (Path.ofText (name ++ ending)) = parts ++ [last ++ Path.ofText ending] ∧
      2 < (last ++ Path.ofText ending).length := by
  obtain ⟨hslash, hlong⟩ := ending_form ending hending
  obtain ⟨parts, last, hname, hfile⟩ := Text.splitAt_append (Path.ofText name) hslash
  refine ⟨parts, last, hname, by rwa [Path.ofText_append], ?_⟩
  rw [List.length_append]
  omega

theorem parentPart_notMem_named (hdot : '.' ∉ name.toList) (hending : ending ∈ endings) :
    Path.parentPart ∉ Path.split (Path.ofText (name ++ ending)) := by
  obtain ⟨parts, last, hname, hfile, hlong⟩ := split_named name hending
  rw [hfile, List.mem_append, List.mem_singleton]
  rintro (hparent | hparent)
  · have hpart : Path.parentPart ∈ Path.split (Path.ofText name) :=
      hname ▸ List.mem_append_left _ hparent
    exact hdot (Path.dot_mem_ofText_iff.mp (Text.mem_of_mem_splitAt hpart List.mem_cons_self).1)
  · rw [← hparent] at hlong
    exact absurd hlong (by decide)

theorem steps_named_ne_nil (name : String) (hending : ending ∈ endings) :
    Path.steps (Path.ofText (name ++ ending)) ≠ [] := by
  obtain ⟨parts, last, -, hfile, hlong⟩ := split_named name hending
  have hmem : last ++ Path.ofText ending ∈ Path.steps (Path.ofText (name ++ ending)) :=
    List.mem_filter.mpr
      ⟨hfile ▸ List.mem_append_right _ List.mem_cons_self, (Path.isStep_of_length hlong).1⟩
  exact List.ne_nil_of_mem hmem

section Containment

variable (hrelative : Path.isAbsolute (Path.ofText name) = false) (hdot : '.' ∉ name.toList)
include hrelative hdot

theorem isBelow_of_mem_filesNamed (h : path ∈ filesNamed directory name) :
    Path.IsBelow directory path := by
  obtain ⟨ending, hending, rfl⟩ := mem_filesNamed.mp h
  have hparent : Path.parentPart ∉ Path.steps (Path.ofText (name ++ ending)) :=
    fun hmem => parentPart_notMem_named hdot hending (List.mem_of_mem_filter hmem)
  exact Path.isBelow_join directory ((isAbsolute_named name hending).trans hrelative)
    hparent (steps_named_ne_nil name hending)

theorem place_of_mem_filesNamed (hdirectory : directory ≠ [])
    (h : path ∈ filesNamed directory name) (hfile : fs.isFile path = true) :
    ∃ place names, names ≠ [] ∧ fs.locate directory = .ok place ∧
      fs.locate path = .ok (place ++ names) := by
  obtain ⟨ending, hending, rfl⟩ := mem_filesNamed.mp h
  obtain ⟨next, _, _, hnext, -⟩ := FileSystem.isFile_iff.mp hfile
  obtain ⟨place, hplace, hfollow⟩ := FileSystem.locate_through hdirectory
    ((isAbsolute_named name hending).trans hrelative) hnext
  have hnames := FileSystem.eq_of_follow (parentPart_notMem_named hdot hending) hfollow
  exact ⟨place, _, steps_named_ne_nil name hending, hplace, hnames ▸ hnext⟩

end Containment

theorem filesNamed_of_isAbsolute (directory : Path)
    (h : Path.isAbsolute (Path.ofText name) = true) :
    filesNamed directory name = [Path.ofText (name ++ ".prompt.yaml"),
      Path.ofText (name ++ ".md"), Path.ofText (name ++ ".txt")] := by
  have hjoin : ∀ ending ∈ endings,
      Path.join directory (Path.ofText (name ++ ending)) = Path.ofText (name ++ ending) := by
    intro ending hending
    exact Path.join_of_absolute directory ((isAbsolute_named name hending).trans h)
  rw [filesNamed, hjoin _ (by decide), hjoin _ (by decide), hjoin _ (by decide)]

/-- A search has one result: the file at the path that is asked for, or else the first file that
there is among the three that a name without a dot stands for, or else a failure. If the current
directory can be reached, the failure tells all paths that have been tried, in order. The files for
a relative name are below the directory of the library, and what is found of them stands at a place
below that of the directory. An absolute name takes them elsewhere. -/
theorem search_stays_in_library (fs : FileSystem) (host : Host) (directory : Path) (name : String) :
    Search fs host directory name (resolve fs host directory name) ∧
    (∀ direct f, host.expand name = .ok direct → resolve fs host directory name = .error f →
      f.kind = .notFound ∧ f.message =
        "prompt '" ++ name ++ "' not found\n\nTried:" ++
          String.join ((direct ::
            if '.' ∈ name.toList then [] else filesNamed directory name).map
              ("\n  " ++ Path.shown ·)) ++
          "\n\nFix: run \x60prun list\x60 to see available prompts.") ∧
    (Path.isAbsolute (Path.ofText name) = false → '.' ∉ name.toList →
      ∀ path ∈ filesNamed directory name, Path.IsBelow directory path ∧
        (directory ≠ [] → fs.isFile path = true →
          ∃ place names, names ≠ [] ∧ fs.locate directory = .ok place ∧
            fs.locate path = .ok (place ++ names))) ∧
    (Path.isAbsolute (Path.ofText name) = true →
      filesNamed directory name = [Path.ofText (name ++ ".prompt.yaml"),
        Path.ofText (name ++ ".md"), Path.ofText (name ++ ".txt")]) := by
  have hsearch := search_resolve fs host directory name
  refine ⟨hsearch, fun direct f hexpand hf => ?_,
    fun hrelative hdot path hpath => ⟨?_, fun hdirectory hfile => ?_⟩,
    filesNamed_of_isAbsolute directory⟩
  · rw [hf] at hsearch
    cases hsearch with
    | currentDir he => exact nomatch hexpand.symm.trans (Host.expand_of_error he name)
    | dotted hdirect _ hdot =>
      obtain rfl := Except.ok.inj (hexpand.symm.trans hdirect)
      rw [if_pos hdot]
      exact ⟨rfl, message_promptNotFound name _ _⟩
    | missing hdirect _ hdot _ =>
      obtain rfl := Except.ok.inj (hexpand.symm.trans hdirect)
      rw [if_neg hdot]
      exact ⟨rfl, message_promptNotFound name _ _⟩
  · exact isBelow_of_mem_filesNamed hrelative hdot hpath
  · exact place_of_mem_filesNamed hrelative hdot hdirectory hpath hfile

/-- A library with a prompt in a directory of its own, and a prompt beside the library. -/
def nestedSample : FileSystem where
  entries := [
    ([Path.ofText "p"], .directory),
    ([Path.ofText "p", Path.ofText "b"], .directory),
    ([Path.ofText "p", Path.ofText "b", Path.ofText "c.md"], .file .empty false),
    ([Path.ofText "q"], .directory),
    ([Path.ofText "q", Path.ofText "c.md"], .file .empty false)]
  unique := by decide
  named := by decide

theorem search_stays_in_nested_library :
    Path.isAbsolute (Path.ofText "b/c") = false ∧ '.' ∉ "b/c".toList ∧
      resolve nestedSample rootHost (Path.ofText "/p") "b/c" = .ok (Path.ofText "/p/b/c.md") ∧
      Path.IsBelow (Path.ofText "/p") (Path.ofText "/p/b/c.md") ∧
      ∃ place names, names ≠ [] ∧ nestedSample.locate (Path.ofText "/p") = .ok place ∧
        nestedSample.locate (Path.ofText "/p/b/c.md") = .ok (place ++ names) := by
  have hfound : resolve nestedSample rootHost (Path.ofText "/p") "b/c" =
      .ok (Path.ofText "/p/b/c.md") := by decide
  have hdot : '.' ∉ "b/c".toList := by decide
  obtain ⟨-, -, hbelow, -⟩ :=
    search_stays_in_library nestedSample rootHost (Path.ofText "/p") "b/c"
  obtain ⟨hpath, hplace⟩ := hbelow rfl hdot (Path.ofText "/p/b/c.md") (by decide)
  exact ⟨rfl, hdot, hfound, hpath, hplace (by decide) (by decide)⟩

/-- The search for an absolute name leaves the library. -/
theorem search_leaves_library :
    ¬ ∀ (fs : FileSystem) (host : Host) (directory path : Path) (name : String),
      resolve fs host directory name = .ok path →
      host.expand name = .ok path ∨ Path.IsBelow directory path := by
  intro h
  have hfound : resolve nestedSample rootHost (Path.ofText "/p") "/q/c" =
      .ok (Path.ofText "/q/c.md") := by decide
  rcases h _ _ _ _ _ hfound with hdirect | hbelow
  · exact absurd hdirect (by decide)
  · obtain ⟨names, -, -, hsteps⟩ := hbelow.descends
    exact absurd (List.cons.inj hsteps).1 (by decide)

end Library

end PromptRunner
