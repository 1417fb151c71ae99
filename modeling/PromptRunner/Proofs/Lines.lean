import Mathlib.Data.List.Basic
import PromptRunner.Text.Lines

/-!
# Lines of a text

A text is cut into lines in one way only: each line but the last one is complete, which means that
it ends with its only line feed. So the lines of a text can be told from the text itself, by where
they start and end.
-/

namespace PromptRunner.Text

/-- A text is empty or its last line is complete. -/
def EndsLine (cs : List Char) : Prop :=
  cs = [] ∨ cs.getLast? = some '\n'

def IsComplete (line : List Char) : Prop :=
  ∃ cs, '\n' ∉ cs ∧ line = cs ++ ['\n']

inductive Successive : List (List Char) → Prop
  | nil : Successive []
  | last {line : List Char} : line ≠ [] → '\n' ∉ line → Successive [line]
  | cons {line : List Char} {ls : List (List Char)} :
      IsComplete line → Successive ls → Successive (line :: ls)

/-- A line of a text starts behind a complete line, or with the text, and ends with its line feed,
or with the text. -/
def IsLineOf (line cs : List Char) : Prop :=
  ∃ before after, cs = before ++ line ++ after ∧ EndsLine before ∧
    (IsComplete line ∨ line ≠ [] ∧ '\n' ∉ line ∧ after = [])

variable {cs line : List Char} {ls : List (List Char)}

theorem lines_ne_nil {cs : List Char} (h : cs ≠ []) : lines cs ≠ [] := by
  intro hlines
  exact h (by rw [← flatten_lines cs, hlines, List.flatten_nil])

theorem EndsLine.tail {c : Char} {cs : List Char} (h : EndsLine (c :: cs)) : EndsLine cs := by
  cases cs with
  | nil => exact .inl rfl
  | cons c' cs =>
    have hlast := h.resolve_left (List.cons_ne_nil c _)
    rw [List.getLast?_cons_cons] at hlast
    exact .inr hlast

theorem lines_append {as : List Char} (h : EndsLine as) (bs : List Char) :
    lines (as ++ bs) = lines as ++ lines bs := by
  induction as with
  | nil => rfl
  | cons a as ih =>
    have ih := ih h.tail
    rw [List.cons_append, lines, lines, ih]
    by_cases ha : a = '\n'
    · rw [if_pos ha, if_pos ha, List.cons_append]
    · rw [if_neg ha, if_neg ha]
      have has : as ≠ [] := by
        rintro rfl
        exact ha (Option.some.inj (h.resolve_left (List.cons_ne_nil a [])))
      obtain ⟨line, lines', hlines⟩ := List.exists_cons_of_ne_nil (lines_ne_nil has)
      rw [hlines]
      rfl

theorem IsComplete.endsLine (h : IsComplete line) : EndsLine line := by
  obtain ⟨cs, -, rfl⟩ := h
  exact .inr (by simp)

theorem IsComplete.cons {c : Char} (hc : c ≠ '\n') (h : IsComplete line) :
    IsComplete (c :: line) := by
  obtain ⟨cs, hcs, rfl⟩ := h
  exact ⟨c :: cs, by simp [Ne.symm hc, hcs], rfl⟩

theorem EndsLine.append {as bs : List Char} (has : EndsLine as) (hbs : EndsLine bs) :
    EndsLine (as ++ bs) := by
  rcases hbs with rfl | hlast
  · simpa using has
  · exact .inr (by simp [hlast])

theorem endsLine_flatten (h : ∀ line ∈ ls, IsComplete line) : EndsLine ls.flatten := by
  induction ls with
  | nil => exact .inl rfl
  | cons line ls ih =>
    have hline := h line List.mem_cons_self
    have hrest := ih fun l hl => h l (List.mem_cons_of_mem line hl)
    rw [List.flatten_cons]
    exact hline.endsLine.append hrest

/-- What follows an incomplete line at the start of a text belongs to the same line. -/
theorem Successive.cons_char {c : Char} (hc : c ≠ '\n') (h : Successive (line :: ls)) :
    Successive ((c :: line) :: ls) := by
  cases h with
  | last hne hline => exact .last (List.cons_ne_nil c line) (by simp [Ne.symm hc, hline])
  | cons hline hls => exact .cons (hline.cons hc) hls

theorem successive_lines (cs : List Char) : Successive (lines cs) := by
  induction cs with
  | nil => exact .nil
  | cons c cs ih =>
    rw [lines]
    by_cases hc : c = '\n'
    · rw [if_pos hc]
      exact .cons ⟨[], by simp, by simp [hc]⟩ ih
    · rw [if_neg hc]
      cases hlines : lines cs with
      | nil => exact .last (List.cons_ne_nil c []) (by simp [Ne.symm hc])
      | cons line ls => exact (hlines ▸ ih).cons_char hc

theorem lines_of_notMem (hne : cs ≠ []) (h : '\n' ∉ cs) : lines cs = [cs] := by
  induction cs with
  | nil => exact absurd rfl hne
  | cons c cs ih =>
    obtain ⟨hc, hcs⟩ := not_or.mp (mt List.mem_cons.mpr h)
    rw [lines, if_neg (Ne.symm hc)]
    by_cases hnil : cs = []
    · rw [hnil]
      rfl
    · rw [ih hnil hcs]

theorem lines_of_isComplete (h : IsComplete line) : lines line = [line] := by
  obtain ⟨cs, hcs, rfl⟩ := h
  induction cs with
  | nil => rfl
  | cons c cs ih =>
    obtain ⟨hc, hcs⟩ := not_or.mp (mt List.mem_cons.mpr hcs)
    rw [List.cons_append, lines, if_neg (Ne.symm hc), ih hcs]

theorem lines_flatten (h : Successive ls) : lines ls.flatten = ls := by
  induction h with
  | nil => rfl
  | last hne hline => simpa using lines_of_notMem hne hline
  | cons hline _ ih =>
    rw [List.flatten_cons, lines_append hline.endsLine, lines_of_isComplete hline, ih]
    rfl

/-- The lines of a text are the only lines in succession that make up the text. -/
theorem lines_eq_iff : lines cs = ls ↔ Successive ls ∧ ls.flatten = cs := by
  constructor
  · rintro rfl
    exact ⟨successive_lines cs, flatten_lines cs⟩
  · rintro ⟨hls, rfl⟩
    exact lines_flatten hls

theorem length_lines_of_endsLine (h : EndsLine cs) : (lines cs).length = cs.count '\n' := by
  induction cs with
  | nil => rfl
  | cons c cs ih =>
    have ih := ih h.tail
    rw [lines, List.count_cons]
    by_cases hc : c = '\n'
    · simp [hc, ih]
    · rw [if_neg hc]
      have hcs : cs ≠ [] := by
        rintro rfl
        exact hc (Option.some.inj (h.resolve_left (List.cons_ne_nil c [])))
      obtain ⟨line, ls, hlines⟩ := List.exists_cons_of_ne_nil (lines_ne_nil hcs)
      rw [hlines] at ih ⊢
      simpa [hc] using ih

theorem successive_of_isComplete (h : ∀ line ∈ ls, IsComplete line) : Successive ls := by
  induction ls with
  | nil => exact .nil
  | cons line ls ih =>
    have hrest := ih fun l hl => h l (List.mem_cons_of_mem line hl)
    exact .cons (h line List.mem_cons_self) hrest

/-- Of lines in succession, all are complete that stand before another one. -/
theorem Successive.of_append_cons {ls' : List (List Char)} (h : Successive (ls ++ line :: ls')) :
    (∀ l ∈ ls, IsComplete l) ∧
      (IsComplete line ∨ line ≠ [] ∧ '\n' ∉ line ∧ ls' = []) ∧ Successive ls' := by
  induction ls with
  | nil =>
    refine ⟨List.forall_mem_nil _, ?_⟩
    cases h with
    | last hne hline => exact ⟨.inr ⟨hne, hline, rfl⟩, .nil⟩
    | cons hline hls => exact ⟨.inl hline, hls⟩
  | cons l ls ih =>
    rw [List.cons_append] at h
    generalize hrest : ls ++ line :: ls' = rest at h
    cases h with
    | last _ _ => simp at hrest
    | cons hl hls =>
      obtain ⟨hcomplete, hline⟩ := ih (hrest ▸ hls)
      exact ⟨List.forall_mem_cons.mpr ⟨hl, hcomplete⟩, hline⟩

theorem mem_lines_iff : line ∈ lines cs ↔ IsLineOf line cs := by
  constructor
  · intro hmem
    obtain ⟨ls, ls', hsplit⟩ := List.append_of_mem hmem
    have hlines := successive_lines cs
    have hcs := flatten_lines cs
    rw [hsplit] at hlines hcs
    obtain ⟨hls, hline, -⟩ := hlines.of_append_cons
    refine ⟨ls.flatten, ls'.flatten, by simp [← hcs], endsLine_flatten hls, ?_⟩
    apply hline.imp_right
    rintro ⟨hne, hopen, rfl⟩
    exact ⟨hne, hopen, rfl⟩
  · rintro ⟨before, after, rfl, hbefore, hline⟩
    rw [List.append_assoc, lines_append hbefore]
    apply List.mem_append_right
    rcases hline with hline | ⟨hne, hopen, rfl⟩
    · rw [lines_append hline.endsLine, lines_of_isComplete hline]
      exact List.mem_append_left _ List.mem_cons_self
    · rw [List.append_nil, lines_of_notMem hne hopen]
      exact List.mem_cons_self

/-- Where a text ends with a complete line, all its lines are complete. -/
theorem IsLineOf.isComplete (h : IsLineOf line cs) (hcs : EndsLine cs) : IsComplete line := by
  obtain ⟨before, after, rfl, -, hline | ⟨hne, hopen, rfl⟩⟩ := h
  · exact hline
  · have hlast : (before ++ line).getLast? = some '\n' := by
      simpa [EndsLine, hne] using hcs
    rw [List.getLast?_append_of_ne_nil before hne] at hlast
    exact absurd (List.mem_of_getLast? hlast) hopen

end PromptRunner.Text
