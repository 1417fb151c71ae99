import Mathlib.Data.List.Sort
import Mathlib.Data.String.Basic
import PromptRunner.Prompt.Document
import PromptRunner.Prompt.Library
import PromptRunner.Proofs.FileContents
import PromptRunner.Proofs.Path.Texts
/-!
# Listing a library and asking it for prompts

A listing sorts what a directory holds; a request tries the endings in order. Both find the same
file: the first entry with a name is the file with the first ending that there is. A file whose name
is no text is listed by what its name shows, and no request leads to it.
-/

namespace PromptRunner.Library

variable {fs : FileSystem} {host : Host} {directory path direct : Path} {fileName : Path.Part}
  {ending name shown : String}

/-! ## Endings -/

theorem stem?_eq_some_iff : stem? shown ending = some name ↔ shown = name ++ ending := by
  rw [stem?, ← String.toList_inj, String.toList_append]
  constructor
  · intro h
    split_ifs at h with hsuffix
    obtain ⟨front, hfront⟩ := List.isSuffixOf_iff_suffix.mp hsuffix
    have hlength : shown.length - ending.length = front.length := by
      rw [← String.length_toList, ← String.length_toList, ← hfront, List.length_append]
      omega
    rw [hlength, ← hfront, List.take_left] at h
    rw [← Option.some.inj h, String.toList_ofList, hfront]
  · intro h
    have hsuffix : ending.toList.isSuffixOf shown.toList = true :=
      List.isSuffixOf_iff_suffix.mpr (h ▸ List.suffix_append _ _)
    have hlength : shown.length - ending.length = name.toList.length := by
      rw [← String.length_toList, ← String.length_toList, h, List.length_append]
      omega
    rw [if_pos hsuffix, hlength, h, List.take_left, String.ofList_toList]

/-- An ending stays in the last part of a path, and nothing that ends in it is a step to a directory
above or to the directory itself. -/
theorem ending_form : ∀ e ∈ endings, Path.slash ∉ Path.ofText e ∧ 2 < (Path.ofText e).length := by
  decide

theorem ending_ascii : ∀ e ∈ endings, ∃ b rest, b.toNat < 0x80 ∧ Path.ofText e = b :: rest := by
  have hhead : ∀ e ∈ endings, (Path.ofText e).head? = some Path.dot := by decide
  intro e he
  obtain ⟨rest, hrest⟩ := List.head?_eq_some_iff.mp (hhead e he)
  exact ⟨Path.dot, rest, by decide, hrest⟩

theorem eq_of_ending_suffix : ∀ e ∈ endings, ∀ e' ∈ endings, e.toList <:+ e'.toList → e = e' := by
  decide

/-- A file name has at most one of the endings, so at most one name. -/
theorem append_ending_inj {name' ending' : String} (hending : ending ∈ endings)
    (hending' : ending' ∈ endings) (h : name ++ ending = name' ++ ending') :
    name = name' ∧ ending = ending' := by
  have hlists : name.toList ++ ending.toList = name'.toList ++ ending'.toList := by
    rw [← String.toList_append, ← String.toList_append, h]
  have hsame : ending = ending' := by
    obtain hs | hs := List.suffix_or_suffix_of_suffix
      (List.suffix_append name.toList ending.toList)
      (hlists ▸ List.suffix_append name'.toList ending'.toList)
    · exact eq_of_ending_suffix _ hending _ hending' hs
    · exact (eq_of_ending_suffix _ hending' _ hending hs).symm
  refine ⟨?_, hsame⟩
  rw [hsame] at hlists
  exact String.toList_inj.mp (List.append_cancel_right hlists)

theorem nodup_endings : endings.Nodup := by decide

theorem format_of_ending (hending : ending ∈ endings) (hname : Path.fileName? path = some fileName)
    (h : ending.toList <:+ (Path.shown fileName).toList) :
    ∃ format, Format.ofPath path = .ok format := by
  have hformats : ∀ e ∈ endings, ∃ e' ∈ structuredEndings ++ textEndings,
      e'.toList <:+ e.toList.map Char.toLower := by decide
  obtain ⟨e', he', hsuffix⟩ := hformats ending hending
  have hhas : Path.hasEnding path e' = true := by
    rw [Path.hasEnding, hname]
    refine List.isSuffixOf_iff_suffix.mpr (hsuffix.trans ?_)
    exact List.IsSuffix.map Char.toLower h
  rw [Format.ofPath]
  split_ifs with hstructured htext
  · exact ⟨_, rfl⟩
  · exact ⟨_, rfl⟩
  · rcases List.mem_append.mp he' with he' | he'
    · exact absurd (List.any_eq_true.mpr ⟨e', he', hhas⟩) hstructured
    · exact absurd (List.any_eq_true.mpr ⟨e', he', hhas⟩) htext

/-! ## The files of a listing -/

/-- The first ending that fits is the only one that fits. -/
theorem stem_iff {rank : Nat} :
    (endings.zipIdx.findSome? fun (ending, rank) => (stem? shown ending).map (·, rank)) =
        some (name, rank) ↔
      ∃ ending, endings[rank]? = some ending ∧ shown = name ++ ending := by
  have hfits {found : String × Nat} {e : String × Nat}
      (h : (stem? shown e.1).map (·, e.2) = some found) :
      found.2 = e.2 ∧ shown = found.1 ++ e.1 := by
    obtain ⟨stem, hstem, rfl⟩ := Option.map_eq_some_iff.mp h
    exact ⟨rfl, stem?_eq_some_iff.mp hstem⟩
  constructor
  · intro h
    obtain ⟨e, he, hfound⟩ := List.exists_of_findSome?_eq_some h
    obtain ⟨hrank, hshown⟩ := hfits hfound
    dsimp only at hrank
    rw [hrank]
    exact ⟨e.1, List.mem_zipIdx_iff_getElem?.mp he, hshown⟩
  · rintro ⟨ending, hending, hshown⟩
    have hsome : (endings.zipIdx.findSome? fun (ending, rank) =>
        (stem? shown ending).map (·, rank)).isSome = true := by
      refine List.findSome?_isSome_iff.mpr ⟨(ending, rank), ?_, ?_⟩
      · exact List.mem_zipIdx_iff_getElem?.mpr hending
      · simp only [stem?_eq_some_iff.mpr hshown, Option.map_some, Option.isSome_some]
    -- Some ending is found, and it is this one: both fit, and no file name has two of them.
    obtain ⟨found, hfound⟩ := Option.isSome_iff_exists.mp hsome
    obtain ⟨e, he, hfirst⟩ := List.exists_of_findSome?_eq_some hfound
    obtain ⟨hrank, hshown'⟩ := hfits hfirst
    have hplace : endings[e.2]? = some e.1 := List.mem_zipIdx_iff_getElem?.mp he
    obtain ⟨hname, hsame⟩ := append_ending_inj (List.mem_of_getElem? hending)
      (List.mem_of_getElem? hplace) (hshown.symm.trans hshown')
    have hranks : rank = e.2 :=
      (List.getElem?_inj (List.getElem?_eq_some_iff.mp hending).1 nodup_endings).mp
        (hending.trans (hsame ▸ hplace.symm))
    rw [hfound, hname, hranks, ← hrank]

theorem found?_eq_some_iff {f : Found} :
    found? fs directory fileName = some f ↔
      (∃ ending, endings[f.rank]? = some ending ∧ Path.shown fileName = f.name ++ ending) ∧
        f.name ≠ "" ∧ f.path = Path.join directory fileName ∧ fs.isFile f.path = true := by
  have hempty : f.name.isEmpty = true ↔ f.name = "" := String.isEmpty_iff
  rw [found?]
  constructor
  · intro h
    split_ifs at h with hfile
    split at h
    · rename_i name rank hstem
      split_ifs at h with hname
      obtain rfl := Option.some.inj h
      exact ⟨stem_iff.mp hstem, mt hempty.mpr hname, rfl, hfile⟩
    · exact nomatch h
  · rintro ⟨hstem, hname, hpath, hfile⟩
    rw [if_pos (hpath ▸ hfile), stem_iff.mpr hstem]
    exact (if_neg (mt hempty.mp hname)).trans (by rw [← hpath])

/-! ## The order of a listing -/

theorem precedes_iff {a b : Found} :
    a.precedes b = true ↔ a.name < b.name ∨ a.name = b.name ∧ a.rank ≤ b.rank := by
  simp [Found.precedes]

instance : Std.Total fun a b : Found => a.precedes b = true where
  total a b := by
    simp only [precedes_iff]
    rcases lt_trichotomy a.name b.name with h | h | h
    · exact .inl (.inl h)
    · exact (Nat.le_total a.rank b.rank).imp (fun hr => .inr ⟨h, hr⟩) (fun hr => .inr ⟨h.symm, hr⟩)
    · exact .inr (.inl h)

instance : IsTrans Found fun a b => a.precedes b = true where
  trans a b c hab hbc := by
    rw [precedes_iff] at *
    rcases hab with hab | ⟨hab, hrab⟩
    · rcases hbc with hbc | ⟨hbc, -⟩
      · exact .inl (hab.trans hbc)
      · exact .inl (hbc ▸ hab)
    · rcases hbc with hbc | ⟨hbc, hrbc⟩
      · exact .inl (hab ▸ hbc)
      · exact .inr ⟨hab.trans hbc, hrab.trans hrbc⟩

def sorted (fs : FileSystem) (directory : Path) (fileNames : List Path.Part) : List Found :=
  (fileNames.filterMap (found? fs directory)).foldr insertFound []

theorem entriesAmong_eq (fs : FileSystem) (directory : Path) (fileNames : List Path.Part) :
    entriesAmong fs directory fileNames =
      (sorted fs directory fileNames).map fun f => ⟨f.name, f.path⟩ :=
  rfl

theorem foldr_insertFound (files : List Found) :
    files.foldr insertFound [] = files.insertionSort fun a b => a.precedes b = true := by
  have hinsert (a : Found) (bs : List Found) :
      insertFound a bs = bs.orderedInsert (fun a b => a.precedes b = true) a := by
    induction bs with
    | nil => rfl
    | cons b bs ih => rw [insertFound, List.orderedInsert_cons, ih]
  induction files with
  | nil => rfl
  | cons a files ih => rw [List.foldr_cons, List.insertionSort_cons, hinsert, ih]

theorem pairwise_sorted (fs : FileSystem) (directory : Path) (fileNames : List Path.Part) :
    (sorted fs directory fileNames).Pairwise fun a b => a.precedes b = true := by
  rw [sorted, foldr_insertFound]
  exact List.pairwise_insertionSort _ _

theorem mem_sorted {fileNames : List Path.Part} {f : Found} :
    f ∈ sorted fs directory fileNames ↔
      ∃ fileName ∈ fileNames, found? fs directory fileName = some f := by
  rw [sorted, foldr_insertFound, List.mem_insertionSort, List.mem_filterMap]

theorem file_of_mem_sorted {fileNames : List Path.Part} {f : Found}
    (h : f ∈ sorted fs directory fileNames) :
    ∃ fileName ∈ fileNames, (∃ ending, endings[f.rank]? = some ending ∧
      Path.shown fileName = f.name ++ ending) ∧
      f.path = Path.join directory fileName ∧ fs.isFile f.path = true := by
  obtain ⟨fileName, hmem, hfound⟩ := mem_sorted.mp h
  obtain ⟨hending, -, hpath, hfile⟩ := found?_eq_some_iff.mp hfound
  exact ⟨fileName, hmem, hending, hpath, hfile⟩

theorem found_of_mem_available {es : List Entry} {e : Entry} (h : available fs directory = .ok es)
    (he : e ∈ es) :
    ∃ fileNames, fs.list directory = .ok fileNames ∧
      ∃ f ∈ sorted fs directory fileNames, e = ⟨f.name, f.path⟩ := by
  rw [available] at h
  split at h
  · rename_i fileNames hlist
    obtain rfl := Except.ok.inj h
    obtain ⟨f, hf, rfl⟩ := List.mem_map.mp he
    exact ⟨fileNames, hlist, f, hf, rfl⟩
  · obtain rfl := Except.ok.inj h
    exact nomatch he
  · exact nomatch h

theorem isFileName_append (hending : ending ∈ endings) (hslash : '/' ∉ name.toList) :
    isFileName (Path.ofText (name ++ ending)) = true := by
  obtain ⟨hslash', hlong⟩ := ending_form ending hending
  have hlength : 2 < (Path.ofText (name ++ ending)).length := by
    rw [Path.ofText_append, List.length_append]
    omega
  obtain ⟨hstep, hparent⟩ := Path.isStep_of_length hlength
  obtain ⟨hempty, hself⟩ := Path.isStep_iff.mp hstep
  have hnone : Path.slash ∉ Path.ofText (name ++ ending) := by
    rw [Path.ofText_append, List.mem_append, Path.slash_mem_ofText_iff]
    exact not_or.mpr ⟨hslash, hslash'⟩
  exact isFileName_iff.mpr ⟨hempty, hself, hparent, hnone⟩

theorem candidates_of_dot (directory : Path) (hdot : '.' ∈ name.toList) :
    candidates directory name = [] :=
  if_pos (by simpa using hdot)

theorem candidates_of_no_dot (directory : Path) (hdot : '.' ∉ name.toList) :
    candidates directory name =
      endings.map fun ending => Path.join directory (Path.ofText (name ++ ending)) :=
  if_neg (by simpa using hdot)

/-! ## Entries that are spelled -/

/-- The path of an entry is spelled with its name and an ending. -/
def Entry.isSpelled (directory : Path) (e : Entry) : Bool :=
  endings.any fun ending => e.path == Path.join directory (Path.ofText (e.name ++ ending))

/-- A name in a library has an ending, and it is spelled like its prompt just if it is a text. -/
theorem isSpelled_iff (hfileName : isFileName fileName = true) (hending : ending ∈ endings)
    (hshown : Path.shown fileName = name ++ ending) :
    Entry.isSpelled directory ⟨name, Path.join directory fileName⟩ = true ↔
      Path.IsText fileName := by
  have hrelative := Path.isAbsolute_of_not_mem (isFileName_iff.mp hfileName).2.2.2
  rw [Entry.isSpelled, List.any_eq_true]
  constructor
  · rintro ⟨ending', -, hpath⟩
    have htext := Path.isText_ofText (name ++ ending')
    rw [beq_iff_eq] at hpath
    by_cases habsolute : Path.isAbsolute (Path.ofText (name ++ ending')) = true
    · rw [Path.join_of_absolute directory habsolute] at hpath
      exact .of_join hrelative (hpath ▸ htext)
    · exact (Path.join_inj hrelative (Bool.eq_false_iff.mpr habsolute)).mp hpath ▸ htext
  · intro htext
    refine ⟨ending, hending, ?_⟩
    rw [beq_iff_eq, ← hshown, Path.ofText_shown_iff.mpr htext]

theorem isSpelled_candidate (directory : Path) (name : String) (hending : ending ∈ endings) :
    Entry.isSpelled directory ⟨name, Path.join directory (Path.ofText (name ++ ending))⟩ = true :=
  List.any_eq_true.mpr ⟨ending, hending, beq_self_eq_true _⟩

/-- An entry that is spelled stands at the candidate with its ending. -/
theorem path_of_isSpelled {fileNames : List Path.Part} {f : Found}
    (hlist : fs.list directory = .ok fileNames) (h : f ∈ sorted fs directory fileNames)
    (hspelled : Entry.isSpelled directory ⟨f.name, f.path⟩ = true) :
    ∃ ending, endings[f.rank]? = some ending ∧
      f.path = Path.join directory (Path.ofText (f.name ++ ending)) := by
  obtain ⟨fileName, hmem, ⟨ending, hending, hshown⟩, hpath, -⟩ := file_of_mem_sorted h
  have hfileName := FileSystem.isFileName_of_mem_list hlist hmem
  rw [hpath, isSpelled_iff hfileName (List.mem_of_getElem? hending) hshown, ← Path.ofText_shown_iff,
    hshown] at hspelled
  exact ⟨ending, hending, hpath.trans (by rw [hspelled])⟩

section Agreement

variable (hdirectory : directory ≠ []) (hslash : '/' ∉ name.toList)
include hdirectory hslash

theorem mem_sorted_of_candidate {rank : Nat} {fileNames : List Path.Part} (hname : name ≠ "")
    (hlist : fs.list directory = .ok fileNames) (hending : endings[rank]? = some ending)
    (hfile : fs.isFile (Path.join directory (Path.ofText (name ++ ending))) = true) :
    ⟨name, rank, Path.join directory (Path.ofText (name ++ ending))⟩ ∈
      sorted fs directory fileNames := by
  have hfileName := isFileName_append (List.mem_of_getElem? hending) hslash
  have hmem := FileSystem.mem_of_isFile hdirectory hfileName hfile hlist
  have hshown : Path.shown (Path.ofText (name ++ ending)) = name ++ ending := Text.ofBytes_bytes _
  exact mem_sorted.mpr
    ⟨_, hmem, found?_eq_some_iff.mpr ⟨⟨ending, hending, hshown⟩, hname, rfl, hfile⟩⟩

/-- A candidate that is a file stands in the listing behind the first entry that is spelled, or is
this entry. -/
theorem rank_le_of_candidate {rank : Nat} {fileNames : List Path.Part} {f : Found}
    (hname : name ≠ "") (hlist : fs.list directory = .ok fileNames)
    (hfirst : (sorted fs directory fileNames).find? (fun f =>
      f.name == name && Entry.isSpelled directory ⟨f.name, f.path⟩) = some f)
    (hending : endings[rank]? = some ending)
    (hfile : fs.isFile (Path.join directory (Path.ofText (name ++ ending))) = true) :
    f.rank ≤ rank := by
  obtain ⟨hf, before, after, hsplit, hbefore⟩ := List.find?_eq_some_iff_append.mp hfirst
  obtain rfl : f.name = name := beq_iff_eq.mp (Bool.and_eq_true_iff.mp hf).1
  have hspelled := isSpelled_candidate directory f.name (List.mem_of_getElem? hending)
  have hmem := mem_sorted_of_candidate hdirectory hslash hname hlist hending hfile
  have hsorted := pairwise_sorted fs directory fileNames
  rw [hsplit, List.pairwise_append, List.pairwise_cons] at hsorted
  rw [hsplit] at hmem
  rcases List.mem_append.mp hmem with hmem | hmem
  · exact absurd (hbefore _ hmem) (by simp [hspelled])
  · rcases List.mem_cons.mp hmem with hmem | hmem
    · exact (congrArg Found.rank hmem).ge
    · rcases precedes_iff.mp (hsorted.2.1.1 _ hmem) with hprecedes | ⟨-, hprecedes⟩
      · exact absurd hprecedes (lt_irrefl f.name)
      · exact hprecedes

theorem find?_candidates_sorted {fileNames : List Path.Part} (hname : name ≠ "")
    (hdot : '.' ∉ name.toList) (hlist : fs.list directory = .ok fileNames) :
    (candidates directory name).find? fs.isFile =
      ((sorted fs directory fileNames).find? fun f =>
        f.name == name && Entry.isSpelled directory ⟨f.name, f.path⟩).map Found.path := by
  rw [candidates_of_no_dot directory hdot]
  cases hfirst : (sorted fs directory fileNames).find? fun f =>
      f.name == name && Entry.isSpelled directory ⟨f.name, f.path⟩ with
  | none =>
    rw [Option.map_none, List.find?_eq_none, List.forall_mem_map]
    intro ending hending hfile
    obtain ⟨rank, hrank⟩ := List.mem_iff_getElem?.mp hending
    have hmem := mem_sorted_of_candidate hdirectory hslash hname hlist hrank hfile
    have hspelled := isSpelled_candidate directory name hending
    exact List.find?_eq_none.mp hfirst _ hmem (by simp [hspelled])
  | some f =>
    obtain ⟨hf, -⟩ := List.find?_eq_some_iff_append.mp hfirst
    obtain ⟨hnamed, hspelled⟩ := Bool.and_eq_true_iff.mp hf
    have hmem := List.mem_of_find?_eq_some hfirst
    obtain ⟨ending, hending, hpath⟩ := path_of_isSpelled hlist hmem hspelled
    obtain ⟨-, -, -, -, hfile⟩ := file_of_mem_sorted hmem
    obtain ⟨hrank, hat⟩ := List.getElem?_eq_some_iff.mp hending
    rw [Option.map_some, List.find?_eq_some_iff_getElem]
    refine ⟨hfile, f.rank, by rwa [List.length_map], ?_, fun rank hless => ?_⟩
    · rw [List.getElem_map, hat, hpath, beq_iff_eq.mp hnamed]
    · rw [List.getElem_map, Bool.not_eq_true']
      refine Bool.eq_false_iff.mpr fun hother => ?_
      have hat' := List.getElem?_eq_getElem (hless.trans hrank)
      have hle := rank_le_of_candidate hdirectory hslash hname hlist hfirst hat' hother
      exact absurd hless (Nat.not_lt.mpr hle)

theorem find?_candidates {es : List Entry} (hname : name ≠ "") (hdot : '.' ∉ name.toList)
    (h : available fs directory = .ok es) :
    (candidates directory name).find? fs.isFile =
      (es.find? fun e => e.name == name && e.isSpelled directory).map Entry.path := by
  rw [available] at h
  cases hlist : fs.list directory with
  | ok fileNames =>
    rw [hlist] at h
    obtain rfl := Except.ok.inj h
    rw [find?_candidates_sorted hdirectory hslash hname hdot hlist, entriesAmong_eq, List.find?_map,
      Option.map_map]
    rfl
  | error e =>
    rw [hlist] at h
    cases e <;> simp only [reduceCtorEq] at h
    obtain rfl := Except.ok.inj h
    rw [List.find?_nil, Option.map_none, List.find?_eq_none]
    intro candidate hcandidate
    rw [candidates_of_no_dot directory hdot] at hcandidate
    obtain ⟨ending, hending, rfl⟩ := List.mem_map.mp hcandidate
    rw [FileSystem.isFile_eq_false_of_missing hdirectory (isFileName_append hending hslash) hlist]
    exact Bool.false_ne_true

end Agreement

/-! ## What is listed and what is found -/

theorem format_of_mem_candidates (h : path ∈ candidates directory name) :
    ∃ format, Format.ofPath path = .ok format := by
  rw [candidates] at h
  split_ifs at h
  · exact nomatch h
  · obtain ⟨ending, hending, rfl⟩ := List.mem_map.mp h
    obtain ⟨hslash, hlong⟩ := ending_form ending hending
    have hsuffix : Path.ofText ending <:+ Path.join directory (Path.ofText (name ++ ending)) := by
      refine List.IsSuffix.trans ?_ (Path.suffix_join directory _)
      rw [Path.ofText_append]
      exact List.suffix_append _ _
    obtain ⟨front, hfileName⟩ := Path.fileName?_of_suffix hsuffix hslash hlong
    exact format_of_ending hending hfileName
      (Path.suffix_shown_append front (ending_ascii ending hending))

theorem file_of_mem_available {es : List Entry} {e : Entry} (h : available fs directory = .ok es)
    (he : e ∈ es) : ∃ fileNames fileName ending, fs.list directory = .ok fileNames ∧
      fileName ∈ fileNames ∧ ending ∈ endings ∧ Path.shown fileName = e.name ++ ending ∧
      e.path = Path.join directory fileName := by
  obtain ⟨fileNames, hlist, f, hf, rfl⟩ := found_of_mem_available h he
  obtain ⟨fileName, hmem, ⟨ending, hending, hshown⟩, hpath, -⟩ := file_of_mem_sorted hf
  exact ⟨fileNames, fileName, ending, hlist, hmem, List.mem_of_getElem? hending, hshown, hpath⟩

theorem format_of_mem_available {es : List Entry} {e : Entry} (h : available fs directory = .ok es)
    (he : e ∈ es) : ∃ format, Format.ofPath e.path = .ok format := by
  obtain ⟨_, fileName, ending, hlist, hmem, hending, hshown, hpath⟩ := file_of_mem_available h he
  obtain ⟨hempty, hself, hparent, hslash⟩ :=
    isFileName_iff.mp (FileSystem.isFileName_of_mem_list hlist hmem)
  have hfileName := Path.fileName?_join directory (Path.isStep_iff.mpr ⟨hempty, hself⟩) hparent hslash
  rw [hpath]
  refine format_of_ending hending hfileName ?_
  rw [hshown, String.toList_append]
  exact List.suffix_append _ _

theorem resolve_of_not_isFile (hexpand : host.expand name = .ok direct)
    (h : fs.isFile direct = false) :
    resolve fs host directory name =
      match (candidates directory name).find? fs.isFile with
      | some path => .ok path
      | none =>
        .error (.promptNotFound name ((direct :: candidates directory name).map Path.shown)) := by
  rw [resolve, hexpand]
  exact if_neg (h ▸ Bool.false_ne_true)

/-- A listing and the requests for prompts agree. A file at the path that is asked for is taken
whatever the library holds. Otherwise a name without a dot stands for the first entry with this name
whose file name is a text, and a name with a dot for nothing. Every path that is listed or found in
the library belongs to a prompt document. The empty path is none of a directory: it lists nothing,
and names behind it start from the working place. -/
theorem resolve_agrees_with_available {es : List Entry} (h : available fs directory = .ok es) :
    (∀ name direct, name ≠ "" → '/' ∉ name.toList → host.expand name = .ok direct →
      (fs.isFile direct = true → ∀ library, resolve fs host library name = .ok direct) ∧
      (directory ≠ [] → fs.isFile direct = false → '.' ∉ name.toList →
        resolve fs host directory name =
          match es.find? fun e => e.name == name && e.isSpelled directory with
          | some e => .ok e.path
          | none =>
            .error (.promptNotFound name ((direct :: candidates directory name).map Path.shown))) ∧
      (fs.isFile direct = false → '.' ∈ name.toList →
        resolve fs host directory name = .error (.promptNotFound name [Path.shown direct]))) ∧
    (∀ name direct path, host.expand name = .ok direct → fs.isFile direct = false →
      resolve fs host directory name = .ok path → ∃ format, Format.ofPath path = .ok format) ∧
    ∀ e ∈ es, (∃ format, Format.ofPath e.path = .ok format) ∧
      ∃ fileName, e.path = Path.join directory fileName ∧
        (e.isSpelled directory = true ↔ Path.IsText fileName) := by
  refine ⟨fun name direct hname hslash hexpand => ⟨?direct, ?undotted, ?dotted⟩, ?found, ?listed⟩
  case direct =>
    intro hfile library
    rw [resolve, hexpand]
    exact if_pos hfile
  case undotted =>
    intro hdirectory hfile hdot
    rw [resolve_of_not_isFile hexpand hfile, find?_candidates hdirectory hslash hname hdot h]
    cases es.find? fun e => e.name == name && e.isSpelled directory with
    | none => rfl
    | some e => rfl
  case dotted =>
    intro hfile hdot
    rw [resolve_of_not_isFile hexpand hfile, candidates_of_dot directory hdot]
    rfl
  case found =>
    intro name direct path hexpand hfile hresolve
    rw [resolve_of_not_isFile hexpand hfile] at hresolve
    split at hresolve
    · rename_i found hfound
      obtain rfl := Except.ok.inj hresolve
      exact format_of_mem_candidates (List.mem_of_find?_eq_some hfound)
    · exact nomatch hresolve
  case listed =>
    intro e he
    obtain ⟨fileNames, fileName, ending, hlist, hmem, hending, hshown, hpath⟩ :=
      file_of_mem_available h he
    refine ⟨format_of_mem_available h he, fileName, hpath, ?_⟩
    rw [← isSpelled_iff (FileSystem.isFileName_of_mem_list hlist hmem) hending hshown, ← hpath]

/-- A directory with two files of one name, a file whose name has a dot, a file whose name is no
text, and a directory that is named like a prompt. -/
def sample : FileSystem where
  entries := [
    ([Path.ofText "p"], .directory),
    ([Path.ofText "p", Path.ofText "a.txt"], .file .empty false),
    ([Path.ofText "p", Path.ofText "a.md"], .file .empty false),
    ([Path.ofText "p", Path.ofText "a.b.md"], .file .empty false),
    ([Path.ofText "p", 0xff :: Path.ofText ".md"], .file .empty false),
    ([Path.ofText "p", Path.ofText "c.md"], .directory)]
  unique := by decide
  named := by decide

def rootHost : Host where
  currentDir := .ok (Path.ofText "/")

theorem resolve_in_sample :
    available sample (Path.ofText "/p") = .ok [⟨"a", Path.ofText "/p/a.md"⟩,
        ⟨"a", Path.ofText "/p/a.txt"⟩, ⟨"a.b", Path.ofText "/p/a.b.md"⟩,
        ⟨"\ufffd", Path.ofText "/p/" ++ 0xff :: Path.ofText ".md"⟩] ∧
      resolve sample rootHost (Path.ofText "/p") "a" = .ok (Path.ofText "/p/a.md") := by
  have hlist : available sample (Path.ofText "/p") = .ok [⟨"a", Path.ofText "/p/a.md"⟩,
      ⟨"a", Path.ofText "/p/a.txt"⟩, ⟨"a.b", Path.ofText "/p/a.b.md"⟩,
      ⟨"\ufffd", Path.ofText "/p/" ++ 0xff :: Path.ofText ".md"⟩] := by decide
  refine ⟨hlist, ?_⟩
  have hexpand : rootHost.expand "a" = .ok (Path.ofText "/a") := by decide
  obtain ⟨-, hundotted, -⟩ :=
    (resolve_agrees_with_available hlist).1 "a" _ (by decide) (by decide) hexpand
  exact hundotted (by decide) (by decide) (by decide)

/-- A name without a dot that is no path of a file is found just if it is listed, and the path is
then that of the first entry with this name. -/
def ListingDecides (fs : FileSystem) (host : Host) (directory : Path) : Prop :=
  ∀ es, available fs directory = .ok es →
    ∀ name, name ≠ "" → '/' ∉ name.toList → '.' ∉ name.toList →
      (∀ direct, host.expand name = .ok direct → fs.isFile direct = false) →
      ∀ path, resolve fs host directory name = .ok path ↔
        (es.find? (·.name == name)).map Entry.path = some path

/-- Entries do not decide behind the empty path, for a name that is no text, and where no path can
be completed. -/
theorem listing_does_not_decide :
    ¬ ListingDecides (sample.startingAt [Path.ofText "p"]) rootHost [] ∧
      ¬ ListingDecides sample rootHost (Path.ofText "/p") ∧
      ¬ ListingDecides sample { currentDir := .error .missing } (Path.ofText "/p") := by
  refine ⟨fun h => ?_, fun h => ?_, fun h => ?_⟩
  · have hfound := (h [] (by decide) "a" (by decide) (by decide) (by decide) ?_
      (Path.ofText "a.md")).mp (by decide)
    · exact nomatch hfound
    · rintro direct ⟨⟩
      decide
  · have hfound := (h _ rfl "\ufffd" (by decide) (by decide) (by decide) ?_
      (Path.ofText "/p/" ++ 0xff :: Path.ofText ".md")).mpr (by decide)
    · exact absurd hfound (by decide)
    · rintro direct ⟨⟩
      decide
  · have hfound := (h _ rfl "a" (by decide) (by decide) (by decide) nofun
      (Path.ofText "/p/a.md")).mpr (by decide)
    exact nomatch hfound

end PromptRunner.Library
