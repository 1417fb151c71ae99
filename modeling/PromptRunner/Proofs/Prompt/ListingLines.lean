import PromptRunner.Proofs.Lines
import PromptRunner.Proofs.Prompt.Listing
import PromptRunner.Proofs.Yaml.Reading

/-!
# Lines of a listing

A listing has a line for each prompt, and one more for each line feed in a name or in a description.
Descriptions are written as they are, and a YAML block scalar ends with a line feed: so a listing
has a line for each prompt just if no line feed is found in what it shows.
-/

namespace PromptRunner

open Yaml (total)

namespace Listing

variable {fs : FileSystem} {es : List Library.Entry} {e : Library.Entry} {width : Nat}

def breaks (fs : FileSystem) (e : Library.Entry) : Nat :=
  e.name.toList.count '\n' +
    match describe fs e with
    | some description => description.toList.count '\n'
    | none => 0

def IsUnbroken (fs : FileSystem) (e : Library.Entry) : Prop :=
  '\n' ∉ e.name.toList ∧
    ∀ description, describe fs e = some description → '\n' ∉ description.toList

theorem isUnbroken_iff : IsUnbroken fs e ↔ breaks fs e = 0 := by
  rw [IsUnbroken, breaks, Nat.add_eq_zero_iff, List.count_eq_zero]
  cases describe fs e with
  | none => simp
  | some description => simp [List.count_eq_zero]

/-- An item starts with the name of its prompt and ends with a line feed. -/
theorem item_eq (fs : FileSystem) (width : Nat) (e : Library.Entry) :
    ∃ rest, (item fs width e).toList = e.name.toList ++ rest ++ ['\n'] ∧
      rest.count '\n' + e.name.toList.count '\n' = breaks fs e := by
  rw [item, breaks, line]
  cases describe fs e with
  | none => exact ⟨[], by simp, by simp⟩
  | some description =>
    refine ⟨List.replicate (width - e.name.length) ' ' ++ ' ' :: ' ' :: description.toList, ?_, ?_⟩
    · simp [Text.padded]
    · simp [List.count_append, List.count_replicate, Nat.add_comm]

theorem count_item (fs : FileSystem) (width : Nat) (e : Library.Entry) :
    (item fs width e).toList.count '\n' = 1 + breaks fs e := by
  obtain ⟨rest, hitem, hbreaks⟩ := item_eq fs width e
  rw [hitem, ← hbreaks]
  simp only [List.count_append, List.count_singleton_self]
  omega

theorem endsLine_item (fs : FileSystem) (width : Nat) (e : Library.Entry) :
    Text.EndsLine (item fs width e).toList := by
  obtain ⟨rest, hitem, -⟩ := item_eq fs width e
  exact .inr (by simp [hitem])

theorem isComplete_item (h : IsUnbroken fs e) (width : Nat) :
    Text.IsComplete (item fs width e).toList := by
  obtain ⟨rest, hitem, hbreaks⟩ := item_eq fs width e
  rw [isUnbroken_iff.mp h, ← List.count_append] at hbreaks
  refine ⟨e.name.toList ++ rest, ?_, hitem⟩
  have hnone := List.count_eq_zero.mp hbreaks
  simpa [or_comm] using hnone

theorem length_lines_items (fs : FileSystem) (width : Nat) (es : List Library.Entry) :
    (Text.lines (String.join (es.map (item fs width))).toList).length =
      total (fun e => 1 + breaks fs e) es := by
  induction es with
  | nil => rfl
  | cons e es ih =>
    rw [List.map_cons, String.join_cons, String.toList_append,
      Text.lines_append (endsLine_item fs width e), List.length_append, ih,
      Text.length_lines_of_endsLine (endsLine_item fs width e), count_item]
    rfl

theorem lines_items (h : ∀ e ∈ es, IsUnbroken fs e) (width : Nat) :
    Text.lines (String.join (es.map (item fs width))).toList =
      es.map fun e => (item fs width e).toList := by
  induction es with
  | nil => rfl
  | cons e es ih =>
    have he := isComplete_item (h e List.mem_cons_self) width
    have hes := ih fun e' he' => h e' (List.mem_cons_of_mem e he')
    rw [List.map_cons, String.join_cons, String.toList_append, Text.lines_append he.endsLine,
      Text.lines_of_isComplete he, hes]
    rfl

theorem total_succ_eq_length_iff :
    total (fun e => 1 + breaks fs e) es = es.length ↔ ∀ e ∈ es, breaks fs e = 0 := by
  have hbound (es : List Library.Entry) : es.length ≤ total (fun e => 1 + breaks fs e) es := by
    induction es with
    | nil => exact Nat.le_refl 0
    | cons e es ih =>
      rw [List.length_cons, total]
      omega
  induction es with
  | nil => simp [total]
  | cons e es ih =>
    have hes := hbound es
    rw [total, List.length_cons, List.forall_mem_cons]
    constructor
    · intro hsum
      exact ⟨by omega, ih.mp (by omega)⟩
    · intro hnone
      have hrest := ih.mpr hnone.2
      omega

end Listing

namespace Command

open Listing (IsUnbroken)

variable {m : Machine} {c : Context} {es : List Library.Entry}

def listedLines (m : Machine) (c : Context) : List (List Char) :=
  Text.lines (listPrompts m c).output.toList

/-- The listed lines are one for each prompt, and each starts with the name of its prompt. -/
def HasLinePerPrompt (m : Machine) (c : Context) (es : List Library.Entry) : Prop :=
  (listedLines m c).length = es.length ∧
    ∀ (i : Nat) (e : Library.Entry), es[i]? = some e →
      ∃ rest, (listedLines m c)[i]? = some (e.name.toList ++ rest)

theorem listedLines_eq (h : Library.available m.files c.promptsDir = .ok es) (hes : es ≠ []) :
    listedLines m c = Text.lines (String.join (es.map
      (Listing.item m.files (Listing.columnWidth es)))).toList := by
  rw [listedLines, (lists_of_available h).items hes]

theorem hasLinePerPrompt_of_unbroken (h : Library.available m.files c.promptsDir = .ok es)
    (hes : es ≠ []) (hunbroken : ∀ e ∈ es, IsUnbroken m.files e) : HasLinePerPrompt m c es := by
  rw [HasLinePerPrompt, listedLines_eq h hes, Listing.lines_items hunbroken]
  refine ⟨List.length_map _, ?_⟩
  intro i e he
  obtain ⟨rest, hitem, -⟩ := Listing.item_eq m.files (Listing.columnWidth es) e
  exact ⟨rest ++ ['\n'], by simp [he, hitem]⟩

theorem length_listedLines (h : Library.available m.files c.promptsDir = .ok es) (hes : es ≠ []) :
    (listedLines m c).length = total (fun e => 1 + Listing.breaks m.files e) es := by
  rw [listedLines_eq h hes, Listing.length_lines_items]

theorem unbroken_of_length (h : Library.available m.files c.promptsDir = .ok es) (hes : es ≠ [])
    (hlength : (listedLines m c).length = es.length) : ∀ e ∈ es, IsUnbroken m.files e := by
  rw [length_listedLines h hes, Listing.total_succ_eq_length_iff] at hlength
  intro e he
  exact Listing.isUnbroken_iff.mpr (hlength e he)

/-- A listing of prompts has a line for each of them, and one more for each line feed that it shows.
So each prompt has a line of its own, which starts with its name, just if no name and no description
has a line feed. -/
theorem line_per_prompt_of_unbroken (h : Library.available m.files c.promptsDir = .ok es)
    (hes : es ≠ []) :
    (listedLines m c).length = total (fun e => 1 + Listing.breaks m.files e) es ∧
      (HasLinePerPrompt m c es ↔ ∀ e ∈ es, IsUnbroken m.files e) := by
  refine ⟨length_listedLines h hes, ?_⟩
  constructor
  · intro hlines
    exact unbroken_of_length h hes hlines.1
  · exact hasLinePerPrompt_of_unbroken h hes

/-- A description that is written as a block scalar. -/
def blockDescription : String :=
  "---\ndescription: |\n  d\n---\n"

theorem line_per_prompt_of_unbroken_two :
    Library.available listingMachine.files listingContext.promptsDir = .ok listingEntries ∧
      HasLinePerPrompt listingMachine listingContext listingEntries := by
  have havailable : Library.available listingMachine.files listingContext.promptsDir =
      .ok listingEntries := by decide
  have hdescribe : ∀ e ∈ listingEntries, Listing.describe listingMachine.files e = some "d" := by
    decide +kernel
  refine ⟨havailable, (line_per_prompt_of_unbroken havailable (by decide)).2.mpr fun e he => ?_⟩
  refine ⟨(by decide : ∀ e ∈ listingEntries, '\n' ∉ e.name.toList) e he, ?_⟩
  simp [hdescribe e he]

/-- A library with a description that ends with a line feed is listed with a line that belongs to no
prompt. -/
theorem line_without_prompt :
    ¬ ∀ (m : Machine) (c : Context) (es : List Library.Entry),
      Library.available m.files c.promptsDir = .ok es → es ≠ [] → HasLinePerPrompt m c es := by
  intro h
  have havailable : Library.available (twoPrompts blockDescription.toUTF8) (Path.ofText "/p") =
      .ok listingEntries := by decide
  have hdescribe : ∃ e ∈ listingEntries,
      Listing.describe (twoPrompts blockDescription.toUTF8) e = some "d\n" :=
    ⟨⟨"b", Path.ofText "/p/b.md"⟩, by decide, by decide +kernel⟩
  obtain ⟨e, he, hdescribe⟩ := hdescribe
  have hlines := h (.ofProcess (twoPrompts blockDescription.toUTF8) (.ok (Path.ofText "/")) [])
    listingContext _ havailable (by decide)
  have hunbroken := unbroken_of_length havailable (by decide) hlines.1 e he
  exact hunbroken.2 _ hdescribe (by decide)

end Command

end PromptRunner
