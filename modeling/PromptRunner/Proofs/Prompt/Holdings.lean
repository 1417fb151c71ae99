import Mathlib.Data.List.Nodup
import PromptRunner.Proofs.Prompt.Listing

/-!
# What a library lists

The names in a directory are taken to be texts. Each file whose name is a name and one of the
endings is listed once, and nothing else is listed. A listing is strictly increasing, because the
name and the ending of a prompt tell which file it is. So a directory is listed alike in whatever
order its files are found.
-/

namespace PromptRunner

/-! ## File systems kept in another order -/

namespace FileSystem

/-- The same directories and files at the same places, kept in another order. -/
structure Rearranged (fs fs' : FileSystem) : Prop where
  workingPlace : fs'.workingPlace = fs.workingPlace
  closed : fs'.closed = fs.closed
  unreadable : fs'.unreadable = fs.unreadable
  entries : fs'.entries.Perm fs.entries

variable {fs fs' : FileSystem} {path : Path}

theorem lookup_eq_some_iff_mem {es : List (Place × Entry)} (hunique : (es.map Prod.fst).Nodup)
    {place : Place} {e : Entry} : es.lookup place = some e ↔ (place, e) ∈ es := by
  induction es with
  | nil => simp
  | cons d es ih =>
    obtain ⟨hnew, hrest⟩ := List.nodup_cons.mp hunique
    rw [List.lookup_cons, List.mem_cons]
    by_cases hd : place = d.1
    · have hold : (place, e) ∉ es := by
        intro hmem
        exact hnew (hd ▸ List.mem_map_of_mem hmem)
      simp [hd ▸ hold, hd, Prod.ext_iff, eq_comm]
    · have hother : (place == d.1) = false := by simpa using hd
      simp [hother, ih hrest, hd, Prod.ext_iff]

namespace Rearranged

theorem at?_eq (h : Rearranged fs fs') (place : Place) : fs'.at? place = fs.at? place := by
  have hlookup : fs'.entries.lookup place = fs.entries.lookup place := by
    apply Option.ext
    intro e
    rw [lookup_eq_some_iff_mem fs'.unique, lookup_eq_some_iff_mem fs.unique, h.entries.mem_iff]
  rw [at?, at?, hlookup]

theorem follow_eq (h : Rearranged fs fs') (place : Place) (parts : List Path.Part) :
    fs'.follow place parts = fs.follow place parts := by
  induction parts generalizing place with
  | nil => rfl
  | cons part parts ih => simp only [follow, step, h.at?_eq, h.closed, ih]

theorem locate_eq (h : Rearranged fs fs') (path : Path) : fs'.locate path = fs.locate path := by
  simp only [locate, h.workingPlace, h.follow_eq]

theorem isFile_eq (h : Rearranged fs fs') (path : Path) : fs'.isFile path = fs.isFile path := by
  simp only [isFile, find, h.locate_eq, h.at?_eq]

theorem listsAlike (h : Rearranged fs fs')
    (hnodup : ∀ names, fs.list path = .ok names → (names.map Path.shown).Nodup) :
    ListsAlike fs fs' path where
  names hlist := by
    obtain ⟨place, hlocate, hat, hread, rfl⟩ := list_eq_ok_iff.mp hlist
    have hlocate' := (h.locate_eq path).trans hlocate
    have hat' := (h.at?_eq place).trans hat
    have hlist' := list_eq_ok_iff.mpr ⟨place, hlocate', hat', h.unreadable ▸ hread, rfl⟩
    exact ⟨_, hlist', h.entries.filterMap _, .inr (hnodup _ hlist)⟩
  error := by
    intro e
    simp only [list_eq_error_iff, h.locate_eq, h.at?_eq, h.unreadable]

end Rearranged

end FileSystem

namespace Library

variable {fs fs' : FileSystem} {directory : Path} {names : List String} {es : List Entry}
  {e e' : Entry} {fileName fileName' : String}

/-! ## The entry for a file -/

/-- An entry is for a file if the file is named by the entry, with one of the endings. -/
structure Entry.IsFor (fs : FileSystem) (directory : Path) (fileName : String)
    (e : Entry) : Prop where
  ending : ∃ ending ∈ endings, fileName = e.name ++ ending
  named : e.name ≠ ""
  path : e.path = Path.join directory (Path.ofText fileName)
  file : fs.isFile e.path = true

/-- The ending of a listed prompt stands at a place in the order of endings. -/
def Entry.HasRank (directory : Path) (rank : Nat) (e : Entry) : Prop :=
  ∃ ending, endings[rank]? = some ending ∧
    e.path = Path.join directory (Path.ofText (e.name ++ ending))

/-- The strict order of a listing: by name, and of one name by ending. -/
def Entry.Precedes (directory : Path) (a b : Entry) : Prop :=
  a.name < b.name ∨
    a.name = b.name ∧ ∃ i j, a.HasRank directory i ∧ b.HasRank directory j ∧ i < j

/-- A listing of the files with the given names: in strict order, each entry for one file only, and
for each file that can have an entry exactly one. -/
structure ListsExactly (fs : FileSystem) (directory : Path) (names : List String)
    (es : List Entry) : Prop where
  increasing : es.Pairwise (Entry.Precedes directory)
  nothingElse : ∀ e ∈ es, ∃! fileName, fileName ∈ names ∧ e.IsFor fs directory fileName
  exactlyOne : ∀ fileName ∈ names, (∃ e : Entry, e.IsFor fs directory fileName) →
    ∃! i : Nat, ∃ e : Entry, es[i]? = some e ∧ e.IsFor fs directory fileName

theorem found?_ofText_eq_some_iff {f : Found} :
    found? fs directory (Path.ofText fileName) = some f ↔
      (∃ ending, endings[f.rank]? = some ending ∧ fileName = f.name ++ ending) ∧
        f.name ≠ "" ∧ f.path = Path.join directory (Path.ofText fileName) ∧
        fs.isFile f.path = true := by
  have hshown : Path.shown (Path.ofText fileName) = fileName := Text.ofBytes_bytes fileName
  rw [found?_eq_some_iff, hshown]

theorem isFor_of_found {f : Found} (h : found? fs directory (Path.ofText fileName) = some f) :
    Entry.IsFor fs directory fileName ⟨f.name, f.path⟩ := by
  obtain ⟨⟨ending, hending, hfile⟩, hname, hpath, hisFile⟩ := found?_ofText_eq_some_iff.mp h
  exact ⟨⟨ending, List.mem_of_getElem? hending, hfile⟩, hname, hpath, hisFile⟩

theorem Entry.IsFor.found (h : e.IsFor fs directory fileName) :
    ∃ rank, found? fs directory (Path.ofText fileName) = some ⟨e.name, rank, e.path⟩ := by
  obtain ⟨ending, hending, hfile⟩ := h.ending
  obtain ⟨rank, hrank⟩ := List.mem_iff_getElem?.mp hending
  exact ⟨rank, found?_ofText_eq_some_iff.mpr ⟨⟨ending, hrank, hfile⟩, h.named, h.path, h.file⟩⟩

theorem mem_sorted_texts {f : Found} : f ∈ sorted fs directory (names.map Path.ofText) ↔
    ∃ fileName ∈ names, found? fs directory (Path.ofText fileName) = some f := by
  simp only [mem_sorted, List.mem_map, exists_exists_and_eq_and]

theorem mem_entriesAmong : e ∈ entriesAmong fs directory (names.map Path.ofText) ↔
    ∃ fileName ∈ names, e.IsFor fs directory fileName := by
  rw [entriesAmong_eq, List.mem_map]
  constructor
  · rintro ⟨f, hf, rfl⟩
    obtain ⟨fileName, hmem, hfound⟩ := mem_sorted_texts.mp hf
    exact ⟨fileName, hmem, isFor_of_found hfound⟩
  · rintro ⟨fileName, hmem, hfor⟩
    obtain ⟨rank, hfound⟩ := hfor.found
    exact ⟨_, mem_sorted_texts.mpr ⟨fileName, hmem, hfound⟩, rfl⟩

theorem Entry.IsFor.unique (h : e.IsFor fs directory fileName)
    (h' : e'.IsFor fs directory fileName) : e = e' := by
  obtain ⟨ending, hending, hfile⟩ := h.ending
  obtain ⟨ending', hending', hfile'⟩ := h'.ending
  have hname : e.name = e'.name := (append_ending_inj hending hending' (hfile.symm.trans hfile')).1
  have hpath : e.path = e'.path := h.path.trans h'.path.symm
  cases e
  cases e'
  simp_all

theorem join_ofText_inj (hslash : '/' ∉ fileName.toList) (hslash' : '/' ∉ fileName'.toList)
    (h : Path.join directory (Path.ofText fileName) = Path.join directory (Path.ofText fileName')) :
    fileName = fileName' := by
  have hrelative {s : String} (hs : '/' ∉ s.toList) : Path.isAbsolute (Path.ofText s) = false :=
    Path.isAbsolute_of_not_mem (mt Path.slash_mem_ofText_iff.mp hs)
  exact Text.bytes_injective ((Path.join_inj (hrelative hslash) (hrelative hslash')).mp h)

/-! ## Nothing is lost or listed twice -/

theorem map_shown_ofText (names : List String) : (names.map Path.ofText).map Path.shown = names := by
  rw [List.map_map]
  exact (List.map_congr_left fun name _ => Text.ofBytes_bytes name).trans (List.map_id names)

theorem nodup_sorted (hnames : names.Nodup) :
    (sorted fs directory (names.map Path.ofText)).Nodup := by
  have hfound : ((names.map Path.ofText).filterMap (found? fs directory)).Nodup := by
    rw [List.filterMap_map]
    apply hnames.filterMap
    intro fileName fileName' f hf hf'
    obtain ⟨⟨ending, hending, hfile⟩, -⟩ := found?_ofText_eq_some_iff.mp hf
    obtain ⟨⟨ending', hending', hfile'⟩, -⟩ := found?_ofText_eq_some_iff.mp hf'
    rw [hending] at hending'
    rw [hfile, hfile', Option.some.inj hending']
  rw [sorted, foldr_insertFound]
  exact (List.perm_insertionSort _ _).nodup_iff.mpr hfound

theorem hasRank_of_mem_sorted {f : Found} (h : f ∈ sorted fs directory (names.map Path.ofText)) :
    Entry.HasRank directory f.rank ⟨f.name, f.path⟩ := by
  obtain ⟨fileName, -, hfound⟩ := mem_sorted_texts.mp h
  obtain ⟨⟨ending, hending, rfl⟩, -, hpath, -⟩ := found?_ofText_eq_some_iff.mp hfound
  exact ⟨ending, hending, hpath⟩

theorem pairwise_entriesAmong (hnames : names.Nodup) :
    (entriesAmong fs directory (names.map Path.ofText)).Pairwise (Entry.Precedes directory) := by
  rw [entriesAmong_eq, List.pairwise_map]
  have hstrict := (pairwise_sorted fs directory (names.map Path.ofText)).and (nodup_sorted hnames)
  apply hstrict.imp_of_mem
  intro f g hf hg hfg
  obtain ⟨hprecedes, hne⟩ := hfg
  rcases precedes_iff.mp hprecedes with hname | ⟨hname, hrank⟩
  · exact .inl hname
  · have hother : f.rank ≠ g.rank := by
      intro hsame
      exact hne (eq_of_precedes ((map_shown_ofText names).symm ▸ hnames) hf hg hprecedes
        (precedes_iff.mpr (.inr ⟨hname.symm, hsame.ge⟩)))
    exact .inr
      ⟨hname, f.rank, g.rank, hasRank_of_mem_sorted hf, hasRank_of_mem_sorted hg, by omega⟩

section Names

variable (hslash : ∀ fileName ∈ names, '/' ∉ fileName.toList)
include hslash

theorem eq_of_path {f g : Found} (hf : f ∈ sorted fs directory (names.map Path.ofText))
    (hg : g ∈ sorted fs directory (names.map Path.ofText)) (hpath : f.path = g.path) : f = g := by
  obtain ⟨fileName, hmem, hfound⟩ := mem_sorted_texts.mp hf
  obtain ⟨fileName', hmem', hfound'⟩ := mem_sorted_texts.mp hg
  have hjoin := (isFor_of_found hfound).path.symm.trans (hpath.trans (isFor_of_found hfound').path)
  obtain rfl := join_ofText_inj (hslash _ hmem) (hslash _ hmem') hjoin
  exact Option.some.inj (hfound.symm.trans hfound')

theorem nodup_entriesAmong (hnames : names.Nodup) :
    (entriesAmong fs directory (names.map Path.ofText)).Nodup := by
  rw [entriesAmong_eq]
  apply List.Nodup.map_on _ (nodup_sorted hnames)
  intro f hf g hg hsame
  exact eq_of_path hslash hf hg (congrArg Entry.path hsame)

theorem listsExactly_entriesAmong (hnames : names.Nodup) :
    ListsExactly fs directory names (entriesAmong fs directory (names.map Path.ofText)) where
  increasing := pairwise_entriesAmong hnames
  nothingElse := by
    intro e he
    obtain ⟨fileName, hmem, hfor⟩ := mem_entriesAmong.mp he
    refine ⟨fileName, ⟨hmem, hfor⟩, ?_⟩
    intro fileName' hfor'
    exact join_ofText_inj (hslash _ hfor'.1) (hslash _ hmem) (hfor'.2.path.symm.trans hfor.path)
  exactlyOne := by
    intro fileName hmem hsome
    obtain ⟨e, hfor⟩ := hsome
    obtain ⟨i, hi⟩ := List.mem_iff_getElem?.mp (mem_entriesAmong.mpr ⟨fileName, hmem, hfor⟩)
    refine ⟨i, ⟨e, hi, hfor⟩, ?_⟩
    intro j hj
    obtain ⟨e', hj, hfor'⟩ := hj
    have hsame := hi.trans (congrArg some (hfor.unique hfor')) |>.trans hj.symm
    have hbound : i < (entriesAmong fs directory (names.map Path.ofText)).length :=
      (List.getElem?_eq_some_iff.mp hi).1
    exact ((List.getElem?_inj hbound (nodup_entriesAmong hslash hnames)).mp hsame).symm

end Names

/-- A directory lists the files that it holds, each of them once and in strict order. Neither
another order in which it is read nor another order of the files on the machine changes the
listing. -/
theorem available_exact (h : fs.list directory = .ok (names.map Path.ofText)) :
    ∃ es, available fs directory = .ok es ∧ ListsExactly fs directory names es ∧
      (∀ order : List String, order.Perm names →
        entriesAmong fs directory (order.map Path.ofText) = es) ∧
      ∀ fs', FileSystem.Rearranged fs fs' → available fs' directory = .ok es := by
  have hslash : ∀ fileName ∈ names, '/' ∉ fileName.toList := by
    intro fileName hmem
    have hname := FileSystem.isFileName_of_mem_list h (List.mem_map_of_mem hmem)
    exact mt Path.slash_mem_ofText_iff.mpr (isFileName_iff.mp hname).2.2.2
  have hnames : names.Nodup := by
    obtain ⟨place, -, -, -, hplace⟩ := FileSystem.list_eq_ok_iff.mp h
    exact .of_map Path.ofText (hplace ▸ FileSystem.nodup_namesIn fs place)
  have hnodup : ((names.map Path.ofText).map Path.shown).Nodup :=
    (map_shown_ofText names).symm ▸ hnames
  have hes : available fs directory = .ok (entriesAmong fs directory (names.map Path.ofText)) := by
    rw [available, h]
  refine ⟨_, hes, listsExactly_entriesAmong hslash hnames, ?_, ?_⟩
  · intro order horder
    rw [entriesAmong_eq, entriesAmong_eq, sorted_perm (horder.map Path.ofText) hnodup]
  · intro fs' hfs'
    have halike := hfs'.listsAlike fun fileNames hlist => Except.ok.inj (h.symm.trans hlist) ▸ hnodup
    rw [available_congr hfs'.isFile_eq halike, hes]

/-- The files of a directory that is read in a confusing order: endings inside of names, an ending
alone, one name with two endings, and a directory that is named like a prompt. -/
def confusing : FileSystem where
  entries := [
    ([Path.ofText "p", Path.ofText "b.md.txt"], .file .empty false),
    ([Path.ofText "p", Path.ofText ".md"], .file .empty false),
    ([Path.ofText "p", Path.ofText "b.txt"], .file .empty false),
    ([Path.ofText "p", Path.ofText "a.prompt.yaml.md"], .file .empty false),
    ([Path.ofText "p", Path.ofText "b.prompt.yaml"], .file .empty false),
    ([Path.ofText "p", Path.ofText "c.md"], .directory),
    ([Path.ofText "p"], .directory)]
  unique := by decide
  named := by decide

theorem available_exact_confusing :
    ∃ names, confusing.list (Path.ofText "/p") = .ok (names.map Path.ofText) ∧
      ListsExactly confusing (Path.ofText "/p") names
        [⟨"a.prompt.yaml", Path.ofText "/p/a.prompt.yaml.md"⟩,
          ⟨"b", Path.ofText "/p/b.prompt.yaml"⟩, ⟨"b", Path.ofText "/p/b.txt"⟩,
          ⟨"b.md", Path.ofText "/p/b.md.txt"⟩] := by
  have hlist : confusing.list (Path.ofText "/p") = .ok (["b.md.txt", ".md", "b.txt",
      "a.prompt.yaml.md", "b.prompt.yaml", "c.md"].map Path.ofText) := by decide
  have hes : available confusing (Path.ofText "/p") =
      .ok [⟨"a.prompt.yaml", Path.ofText "/p/a.prompt.yaml.md"⟩,
        ⟨"b", Path.ofText "/p/b.prompt.yaml"⟩, ⟨"b", Path.ofText "/p/b.txt"⟩,
        ⟨"b.md", Path.ofText "/p/b.md.txt"⟩] := by decide
  obtain ⟨es, havailable, hexact, -⟩ := available_exact hlist
  obtain rfl := Except.ok.inj (havailable.symm.trans hes)
  exact ⟨_, hlist, hexact⟩

end Library

end PromptRunner
