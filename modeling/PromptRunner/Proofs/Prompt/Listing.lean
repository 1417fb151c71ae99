import Mathlib
import PromptRunner.Command
import PromptRunner.Proofs.FileContents
import PromptRunner.Proofs.Prompt.Library

/-!
# Listings and the contents of prompts

What a library holds and how wide its names are is decided without looking into a file. So the
content of a prompt decides nothing but the description behind its own name, and a prompt that
cannot be read stays in the listing without one.
-/

namespace PromptRunner

open FileSystem (DifferAt ListsAlike)

variable {fs fs' : FileSystem} {place : Place} {directory : Path} {es : List Library.Entry}
  {e : Library.Entry} {width : Nat}

namespace Library

variable {names names' : List Path.Part}

theorem sorted_congr (h : ∀ path, fs'.isFile path = fs.isFile path) (names : List Path.Part) :
    sorted fs' directory names = sorted fs directory names := by
  have hfound : found? fs' directory = found? fs directory := by
    funext fileName
    rw [found?, found?, h]
  rw [sorted, sorted, hfound]

/-- Two files of one name and one ending are the same, unless names are shown alike. -/
theorem eq_of_precedes {a b : Found} (hnodup : (names.map Path.shown).Nodup)
    (ha : a ∈ sorted fs directory names) (hb : b ∈ sorted fs directory names)
    (hab : a.precedes b = true) (hba : b.precedes a = true) : a = b := by
  rw [precedes_iff] at hab hba
  have hname : a.name = b.name := by
    apply le_antisymm
    · exact hab.elim le_of_lt fun h => le_of_eq h.1
    · exact hba.elim le_of_lt fun h => le_of_eq h.1
  have hrank : a.rank = b.rank := by
    simp only [hname, lt_irrefl, true_and, false_or] at hab hba
    exact Nat.le_antisymm hab hba
  obtain ⟨fileName, hmem, ⟨ending, hending, hshown⟩, hpath, -⟩ := file_of_mem_sorted ha
  obtain ⟨fileName', hmem', ⟨ending', hending', hshown'⟩, hpath', -⟩ := file_of_mem_sorted hb
  have hsame : ending = ending' := by
    rw [hrank, hending'] at hending
    exact (Option.some.inj hending).symm
  have hfileName : fileName = fileName' :=
    List.inj_on_of_nodup_map hnodup hmem hmem' (by rw [hshown, hshown', hname, hsame])
  have hpaths : a.path = b.path := by rw [hpath, hpath', hfileName]
  cases a
  cases b
  simp_all

/-- The order in which a directory is listed does not matter if no names are shown alike. -/
theorem sorted_perm (h : names'.Perm names) (hnodup : (names.map Path.shown).Nodup) :
    sorted fs directory names' = sorted fs directory names := by
  have hperm : (sorted fs directory names').Perm (sorted fs directory names) := by
    rw [sorted, sorted, foldr_insertFound, foldr_insertFound]
    have hfound := h.filterMap (found? fs directory)
    have hbefore := List.perm_insertionSort (fun a b : Found => a.precedes b = true)
      (names'.filterMap (found? fs directory))
    have hafter := List.perm_insertionSort (fun a b : Found => a.precedes b = true)
      (names.filterMap (found? fs directory))
    exact hbefore.trans (hfound.trans hafter.symm)
  apply hperm.eq_of_pairwise
  · exact fun a b ha hb => eq_of_precedes hnodup (hperm.mem_iff.mp ha) hb
  · exact pairwise_sorted fs directory names'
  · exact pairwise_sorted fs directory names

/-- What a library holds is decided by the names in its directory and by which of them are files. -/
theorem available_congr (hfile : ∀ path, fs'.isFile path = fs.isFile path)
    (hlist : ListsAlike fs fs' directory) : available fs' directory = available fs directory := by
  cases hnames : fs.list directory with
  | ok names =>
    obtain ⟨names', hnames', hperm, horder⟩ := hlist.names hnames
    have hsorted : sorted fs directory names' = sorted fs directory names :=
      horder.elim (fun hsame => hsame ▸ rfl) (sorted_perm hperm)
    have hentries : entriesAmong fs' directory names' = entriesAmong fs directory names := by
      rw [entriesAmong_eq, entriesAmong_eq, sorted_congr hfile, hsorted]
    simp only [available, hnames, hnames', hentries]
  | error e =>
    rw [available, available, hnames, hlist.error.mpr hnames]
    cases e <;> rfl

theorem available_eq (h : DifferAt fs fs' place) (directory : Path) :
    available fs' directory = available fs directory :=
  available_congr h.isFile_eq (h.listsAlike directory)

theorem place_of_mem_available (h : available fs directory = .ok es) (he : e ∈ es) :
    ∃ library fileName, ∃ ending ∈ endings, fs.locate directory = .ok library ∧
      Path.shown fileName = e.name ++ ending ∧ e.path = Path.join directory fileName ∧
        fs.locate e.path = .ok (library ++ [fileName]) := by
  obtain ⟨names, hlist, f, hf, rfl⟩ := found_of_mem_available h he
  obtain ⟨fileName, hmem, ⟨ending, hending, hshown⟩, hpath, hfile⟩ := file_of_mem_sorted hf
  obtain ⟨library, hlibrary, -, -, -⟩ := FileSystem.list_eq_ok_iff.mp hlist
  have hdirectory : directory ≠ [] := (FileSystem.locate_eq_ok_iff.mp hlibrary).2.1
  have hname := FileSystem.isFileName_of_mem_list hlist hmem
  have hslash := (isFileName_iff.mp hname).2.2.2
  obtain ⟨next, _, _, hnext, -⟩ := FileSystem.isFile_iff.mp hfile
  rw [hpath] at hnext
  obtain ⟨start, hstart, hstep⟩ := FileSystem.locate_join hdirectory hslash hnext
  obtain ⟨-, rfl⟩ := FileSystem.step_name hname hstep
  obtain rfl := Except.ok.inj (hlibrary.symm.trans hstart)
  exact ⟨library, fileName, ending, List.mem_of_getElem? hending, hlibrary, hshown, hpath,
    hpath ▸ hnext⟩

theorem eq_of_same_place {other : Entry} (h : available fs directory = .ok es) (he : e ∈ es)
    (hother : other ∈ es) (hplace : fs.locate e.path = fs.locate other.path) : e = other := by
  obtain ⟨library, fileName, ending, hending, hlibrary, hshown, hpath, hlocate⟩ :=
    place_of_mem_available h he
  obtain ⟨library', fileName', ending', hending', hlibrary', hshown', hpath', hlocate'⟩ :=
    place_of_mem_available h hother
  obtain rfl := Except.ok.inj (hlibrary.symm.trans hlibrary')
  rw [hlocate, hlocate'] at hplace
  obtain rfl := List.singleton_inj.mp (List.append_cancel_left (Except.ok.inj hplace))
  have hname : e.name = other.name :=
    (append_ending_inj hending hending' (hshown.symm.trans hshown')).1
  have hpaths : e.path = other.path := hpath.trans hpath'.symm
  cases e
  cases other
  simp_all

end Library

namespace Listing

/-- The width of the column of names. No description has a part in it. -/
def columnWidth (es : List Library.Entry) : Nat :=
  nameWidth (es.map fun e => (e, none))

def item (fs : FileSystem) (width : Nat) (e : Library.Entry) : String :=
  line width (e, describe fs e) ++ "\n"

theorem nameWidth_map (description : Library.Entry → Option String) (es : List Library.Entry) :
    nameWidth (es.map fun e => (e, description e)) = columnWidth es := by
  simp only [columnWidth, nameWidth, List.foldr_map]

theorem separated_eq_join (texts : List String) : Text.separated "" texts = String.join texts := by
  induction texts with
  | nil => rfl
  | cons s texts ih =>
    cases texts with
    | nil => simp [Text.separated]
    | cons t texts =>
      rw [Text.separated, ih, String.append_empty, ← String.join_cons]
      exact List.cons_ne_nil t texts

theorem text_eq (fs : FileSystem) (directory : Path) (hes : es ≠ []) :
    text fs directory es = String.join (es.map (item fs (columnWidth es))) := by
  have hitems : (lines (es.map fun e => (e, describe fs e))).map (· ++ "\n") =
      es.map (item fs (columnWidth es)) := by
    rw [lines, nameWidth_map, List.map_map, List.map_map]
    rfl
  rw [text, if_neg (by simpa using hes), hitems, separated_eq_join]

theorem describe_eq_none_iff :
    describe fs e = none ↔ ∀ p, Prompt.load fs e.path = .ok p → p.metadata.description = none := by
  rw [describe]
  cases Prompt.load fs e.path with
  | ok p => simp
  | error f => simp

theorem item_eq_name_iff : item fs width e = e.name ++ "\n" ↔ describe fs e = none := by
  rw [item, line]
  cases describe fs e with
  | none => simp
  | some description =>
    have hlonger : (Text.padded width e.name ++ "  " ++ description ++ "\n").length ≠
        (e.name ++ "\n").length := by
      simp only [Text.padded, String.length_append, String.length_ofList, List.length_replicate]
      have hgap : "  ".length = 2 := rfl
      omega
    constructor
    · intro h
      exact absurd (congrArg String.length h) hlonger
    · exact nofun

theorem item_congr (h : fs'.readText e.path = fs.readText e.path) (width : Nat) :
    item fs' width e = item fs width e := by
  have hload : Prompt.load fs' e.path = Prompt.load fs e.path := by
    simp only [Prompt.load, Prompt.fileText, h]
  rw [item, item, describe, describe, hload]

end Listing

namespace Command

open Listing (columnWidth item)

variable {m : Machine} {c : Context}

/-- The prompts of the library are listed: an item for each of them, or a notice if there is none.
An item is the name alone just if the prompt cannot be read or has no description. -/
structure Lists (m : Machine) (c : Context) (es : List Library.Entry) : Prop where
  available : Library.available m.files c.promptsDir = .ok es
  outcome : (listPrompts m c).outcome = .ok 0
  quiet : (listPrompts m c).errorText = ""
  notice : es = [] → (listPrompts m c).output = "No prompts found in " ++ Path.shown c.promptsDir ++ "\n"
  items : es ≠ [] →
    (listPrompts m c).output = String.join (es.map (item m.files (columnWidth es)))
  nameAlone : ∀ e ∈ es, item m.files (columnWidth es) e = e.name ++ "\n" ↔
    ∀ p, Prompt.load m.files e.path = .ok p → p.metadata.description = none

theorem lists_of_available (h : Library.available m.files c.promptsDir = .ok es) :
    Lists m c es where
  available := h
  outcome := by
    rw [listPrompts, h]
    rfl
  quiet := by
    rw [listPrompts, h]
    rfl
  notice hes := by
    rw [listPrompts, h, hes]
    rfl
  items hes := by
    rw [listPrompts, h]
    exact Listing.text_eq m.files c.promptsDir hes
  nameAlone _ _ := Listing.item_eq_name_iff.trans Listing.describe_eq_none_iff

/-- A directory that is not there or can be read is listed, whatever its prompts hold. Another
content of one prompt changes nothing but the item of this prompt. -/
theorem listing_keeps_other_items (m : Machine) (c : Context)
    (h : m.files.list c.promptsDir = .error .missing ∨
      ∃ names, m.files.list c.promptsDir = .ok names) :
    ∃ es, Lists m c es ∧ ∀ changed ∈ es, ∃ place, m.files.locate changed.path = .ok place ∧
      ∀ fs', DifferAt m.files fs' place →
        Lists { m with files := fs' } c es ∧
          ∀ e ∈ es, e ≠ changed →
            item fs' (columnWidth es) e = item m.files (columnWidth es) e := by
  have hsome : ∃ es, Library.available m.files c.promptsDir = .ok es := by
    rw [Library.available]
    rcases h with h | ⟨names, h⟩
    · exact ⟨[], by rw [h]⟩
    · exact ⟨_, by rw [h]⟩
  obtain ⟨es, hes⟩ := hsome
  refine ⟨es, lists_of_available hes, ?_⟩
  intro changed hchanged
  obtain ⟨library, fileName, -, -, -, -, -, hplace⟩ := Library.place_of_mem_available hes hchanged
  refine ⟨_, hplace, ?_⟩
  intro fs' hdiffer
  have hes' : Library.available fs' c.promptsDir = .ok es :=
    (Library.available_eq hdiffer c.promptsDir).trans hes
  refine ⟨lists_of_available hes', ?_⟩
  intro e he hne
  apply Listing.item_congr
  apply hdiffer.readText_eq
  intro hsame
  exact hne (Library.eq_of_same_place hes he hchanged (hsame.trans hplace.symm))

def describedText : String :=
  "---\ndescription: d\n---\n"

/-- Two prompts, the second one with a given content. -/
def twoPrompts (content : ByteArray) : FileSystem where
  entries := [
    ([Path.ofText "p"], .directory),
    ([Path.ofText "p", Path.ofText "a.md"], .file describedText.toUTF8 false),
    ([Path.ofText "p", Path.ofText "b.md"], .file content false)]
  unique := by simp; decide
  named := by simp; decide

theorem differAt_twoPrompts (content content' : ByteArray) :
    DifferAt (twoPrompts content) (twoPrompts content') [Path.ofText "p", Path.ofText "b.md"] where
  workingPlace := rfl
  closed := rfl
  unreadable := rfl
  elsewhere q hq := by
    have hother : (q == [Path.ofText "p", Path.ofText "b.md"]) = false := by simpa using hq
    simp only [FileSystem.at?, twoPrompts, List.lookup_cons, hother]
  file := ⟨content, content', false, rfl, rfl⟩
  order _ := .inl rfl

def listingContext : Context :=
  ⟨.default, Path.ofText "/p"⟩

def listingMachine : Machine :=
  .ofProcess (twoPrompts describedText.toUTF8) (.ok (Path.ofText "/")) []

def listingEntries : List Library.Entry :=
  [⟨"a", Path.ofText "/p/a.md"⟩, ⟨"b", Path.ofText "/p/b.md"⟩]

/-- A second prompt that is no text any more keeps its name in the listing, and the first one its
description. -/
theorem listing_keeps_other_items_broken :
    (∃ names, listingMachine.files.list listingContext.promptsDir = .ok names) ∧
      (listPrompts listingMachine listingContext).output = "a  d\nb  d\n" ∧
      (listPrompts { listingMachine with files := twoPrompts ⟨#[0xff]⟩ } listingContext).output =
        "a  d\nb\n" := by
  have hnames : ∃ names, listingMachine.files.list listingContext.promptsDir = .ok names :=
    ⟨[Path.ofText "a.md", Path.ofText "b.md"], by decide⟩
  have havailable : Library.available listingMachine.files listingContext.promptsDir =
      .ok listingEntries := by decide
  have hwidth : columnWidth listingEntries = 1 := by decide
  have hbefore : item listingMachine.files 1 ⟨"a", Path.ofText "/p/a.md"⟩ = "a  d\n" ∧
      item listingMachine.files 1 ⟨"b", Path.ofText "/p/b.md"⟩ = "b  d\n" := by decide +kernel
  have hlocate : listingMachine.files.locate (Path.ofText "/p/b.md") =
      .ok [Path.ofText "p", Path.ofText "b.md"] := by
    decide
  have hload : Prompt.load (twoPrompts ⟨#[0xff]⟩) (Path.ofText "/p/b.md") =
      .error (.promptNotText "/p/b.md") := by
    rfl
  obtain ⟨es, hlists, hchange⟩ :=
    listing_keeps_other_items listingMachine listingContext (.inr hnames)
  obtain rfl := Except.ok.inj (hlists.available.symm.trans havailable)
  obtain ⟨place, hplace, hother⟩ := hchange ⟨"b", Path.ofText "/p/b.md"⟩ (by decide)
  obtain rfl := Except.ok.inj (hlocate.symm.trans hplace)
  obtain ⟨hlists', hsame⟩ := hother _ (differAt_twoPrompts _ ⟨#[0xff]⟩)
  have hfirst := hsame ⟨"a", Path.ofText "/p/a.md"⟩ (by decide) (by decide)
  have hsecond := (hlists'.nameAlone ⟨"b", Path.ofText "/p/b.md"⟩ (by decide)).mpr fun p hp =>
    nomatch hload.symm.trans hp
  rw [hwidth] at hfirst hsecond
  refine ⟨hnames, ?_, ?_⟩
  · rw [hlists.items (by decide), hwidth, listingEntries, List.map_cons, List.map_cons, hbefore.1,
      hbefore.2]
    rfl
  · rw [hlists'.items (by decide), hwidth, listingEntries, List.map_cons, List.map_cons, hfirst,
      hbefore.1, hsecond]
    rfl

end Command

end PromptRunner
