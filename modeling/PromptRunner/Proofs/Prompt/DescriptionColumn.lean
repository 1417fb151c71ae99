import Mathlib.Data.List.Forall2
import Mathlib.Order.Bounds.Basic
import PromptRunner.Prompt.Listing

/-!
# The column of descriptions

The column of names is as wide as the longest name in bytes, but names are filled up to it in
characters. No text has more characters than bytes. So every name fits into the column, whatever its
letters are, and in all lines with a description the same number of characters stands before it.
-/

namespace PromptRunner

namespace Text

theorem length_le_byteCount (cs : List Char) : cs.length ≤ byteCount cs := by
  induction cs with
  | nil => exact Nat.le_refl 0
  | cons c cs ih =>
    have hc := c.utf8Size_pos
    rw [List.length_cons, byteCount]
    omega

theorem length_padded {width : Nat} {s : String} (h : s.length ≤ width) :
    (padded width s).length = width := by
  rw [padded, String.length_append, String.length_ofList, List.length_replicate]
  omega

end Text

namespace Listing

variable {es : List (Library.Entry × Option String)} {e : Library.Entry × Option String} {width : Nat}

/-- The line of a prompt where descriptions start in a given column. Before a description stands the
whole name, then spaces, two of them at least, and together they are as many characters as the
column says. Without a description there is just the name. -/
inductive IsAligned (column : Nat) : Library.Entry × Option String → String → Prop
  | nameAlone (e : Library.Entry) : IsAligned column (e, none) e.name
  | described (e : Library.Entry) (description : String) {padding : Nat} {before : String} :
      before = e.name ++ String.ofList (List.replicate padding ' ') ++ "  " →
      before.length = column → IsAligned column (e, some description) (before ++ description)

theorem nameWidth_le_iff :
    nameWidth es ≤ width ↔ ∀ e ∈ es, Text.byteCount e.1.name.toList ≤ width := by
  induction es with
  | nil => simp [nameWidth]
  | cons e es ih =>
    rw [List.forall_mem_cons, ← ih, ← Nat.max_le]
    rfl

theorem isLUB_nameWidth (es : List (Library.Entry × Option String)) :
    IsLUB {n | ∃ e ∈ es, Text.byteCount e.1.name.toList = n} (nameWidth es) := by
  rw [isLUB_iff_le_iff]
  intro width
  rw [nameWidth_le_iff]
  constructor
  · rintro hfits _ ⟨e, he, rfl⟩
    exact hfits e he
  · intro hbound e he
    exact hbound ⟨e, he, rfl⟩

theorem length_name_le (he : e ∈ es) : e.1.name.length ≤ nameWidth es := by
  calc
    e.1.name.length = e.1.name.toList.length := String.length_toList.symm
    _ ≤ Text.byteCount e.1.name.toList := Text.length_le_byteCount _
    _ ≤ nameWidth es := nameWidth_le_iff.mp (Nat.le_refl _) e he

theorem isAligned_line (h : e.1.name.length ≤ width) : IsAligned (width + 2) e (line width e) := by
  obtain ⟨e, description⟩ := e
  cases description with
  | none => exact .nameAlone e
  | some description =>
    have hbefore : (Text.padded width e.name ++ "  ").length = width + 2 := by
      rw [String.length_append, Text.length_padded h]
      rfl
    exact .described e description rfl hbefore

/-- A listing has a line for each prompt, in order. All descriptions start in one column, two
characters behind the width of the longest name in bytes, and every name is written whole before
it. -/
theorem descriptions_start_in_one_column (es : List (Library.Entry × Option String)) :
    ∃ width, IsLUB {n | ∃ e ∈ es, Text.byteCount e.1.name.toList = n} width ∧
      List.Forall₂ (IsAligned (width + 2)) es (lines es) := by
  refine ⟨nameWidth es, isLUB_nameWidth es, ?_⟩
  rw [lines, List.forall₂_map_right_iff, List.forall₂_same]
  intro e he
  exact isAligned_line (length_name_le he)

/-- Two letters of three bytes leave the other names more room than they need. -/
example :
    lines [(⟨"é", Path.ofText "é.md"⟩, some "first"),
        (⟨"日本", Path.ofText "日本.md"⟩, some "second"), (⟨"mid", Path.ofText "mid.md"⟩, none)] =
      ["é       first", "日本      second", "mid"] := by
  decide

end Listing

end PromptRunner
