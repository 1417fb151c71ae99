import Mathlib.Data.List.TakeWhile
import Mathlib.Logic.Function.Basic
import PromptRunner.Prompt.Document
import PromptRunner.Proofs.Lines

/-!
# Blocks between delimiter lines

A text document with metadata is a block of complete lines in a frame of two delimiter lines, and a
text behind it. Cutting such a document undoes the framing: it finds exactly the documents that are
framed, and each of them is framed in one way only, so that nothing is lost.
-/

namespace PromptRunner

namespace Text

/-- Nothing else can be dropped from the end of a text than what follows the last character that is
kept. -/
theorem dropRight_eq_iff {p : Char → Bool} {c : Char} (hc : p c = false) {cs front : List Char} :
    dropRight p cs = front ++ [c] ↔
      ∃ ending, (∀ d ∈ ending, p d = true) ∧ cs = front ++ [c] ++ ending := by
  constructor
  · intro h
    have hsplit := List.takeWhile_append_dropWhile (p := p) (l := cs.reverse)
    refine ⟨(cs.reverse.takeWhile p).reverse, fun d hd => ?_, ?_⟩
    · exact List.mem_takeWhile_imp (List.mem_reverse.mp hd)
    · rw [← h, dropRight, ← List.reverse_append, hsplit, List.reverse_reverse]
  · rintro ⟨ending, hending, rfl⟩
    have hdrop : ∀ d ∈ ending.reverse, p d = true := fun d hd => hending d (List.mem_reverse.mp hd)
    rw [dropRight, List.reverse_append, List.dropWhile_append_of_pos hdrop]
    simp [hc]

end Text

namespace Prompt

/-- A delimiter line with its line feed. -/
def IsCompleteDelimiter (line : List Char) : Prop :=
  ∃ returns, line = delimiter ++ List.replicate returns '\r' ++ ['\n']

/-- A delimiter line that ends with its document. -/
def IsOpenDelimiter (line : List Char) : Prop :=
  ∃ returns, line = delimiter ++ List.replicate returns '\r'

/-- A block of complete lines between two delimiter lines, and the text behind it. -/
@[ext]
structure Frame where
  opening : List Char
  block : List Char
  closing : List Char
  rest : List Char
  opening_isCompleteDelimiter : IsCompleteDelimiter opening
  block_endsLine : Text.EndsLine block
  block_noDelimiter : ∀ line, Text.IsLineOf line block →
    ¬ IsCompleteDelimiter line ∧ ¬ IsOpenDelimiter line
  closing_isDelimiter : IsCompleteDelimiter closing ∨ IsOpenDelimiter closing ∧ rest = []

def Frame.text (f : Frame) : List Char :=
  f.opening ++ f.block ++ f.closing ++ f.rest

variable {cs line block rest : List Char}

theorem isDelimiter_iff :
    isDelimiter line = true ↔
      ∃ ending, (∀ c ∈ ending, isLineEnding c = true) ∧ line = delimiter ++ ending := by
  have hhyphen : isLineEnding '-' = false := by decide
  have hdelimiter : delimiter = ['-', '-'] ++ ['-'] := rfl
  rw [isDelimiter, beq_iff_eq, hdelimiter]
  exact Text.dropRight_eq_iff hhyphen

theorem IsCompleteDelimiter.isComplete (h : IsCompleteDelimiter line) : Text.IsComplete line := by
  obtain ⟨returns, rfl⟩ := h
  exact ⟨_, by simp [delimiter, List.mem_replicate], rfl⟩

theorem IsOpenDelimiter.lineFeed_notMem (h : IsOpenDelimiter line) : '\n' ∉ line := by
  obtain ⟨returns, rfl⟩ := h
  simp [delimiter, List.mem_replicate]

theorem isDelimiter_of_notMem (h : '\n' ∉ line) : isDelimiter line = true ↔ IsOpenDelimiter line := by
  rw [isDelimiter_iff]
  constructor
  · rintro ⟨ending, hending, rfl⟩
    have hreturns : ∀ c ∈ ending, c = '\r' := by
      intro c hc
      have hfeed : c ≠ '\n' := fun heq => h (heq ▸ List.mem_append_right _ hc)
      simpa [isLineEnding, hfeed] using hending c hc
    exact ⟨ending.length, by rw [List.eq_replicate_of_mem hreturns, List.length_replicate]⟩
  · rintro ⟨returns, rfl⟩
    refine ⟨_, ?_, rfl⟩
    intro c hc
    rw [List.eq_of_mem_replicate hc]
    rfl

theorem isDelimiter_of_isComplete (h : Text.IsComplete line) :
    isDelimiter line = true ↔ IsCompleteDelimiter line := by
  obtain ⟨cs, hcs, rfl⟩ := h
  have hfeed : isDelimiter (cs ++ ['\n']) = isDelimiter cs := by
    simp [isDelimiter, Text.dropRight, isLineEnding]
  rw [hfeed, isDelimiter_of_notMem hcs]
  exact exists_congr fun returns => (List.append_left_inj ['\n']).symm

theorem IsCompleteDelimiter.isDelimiter (h : IsCompleteDelimiter line) : isDelimiter line = true :=
  (isDelimiter_of_isComplete h.isComplete).mpr h

theorem IsOpenDelimiter.isDelimiter (h : IsOpenDelimiter line) : isDelimiter line = true :=
  (isDelimiter_of_notMem h.lineFeed_notMem).mpr h

theorem splitFrontmatter_eq_some_iff :
    splitFrontmatter cs = some (block, rest) ↔
      ∃ opening closing blockLines restLines,
        Text.lines cs = opening :: (blockLines ++ closing :: restLines) ∧
        isDelimiter opening = true ∧ isDelimiter closing = true ∧
        (∀ line ∈ blockLines, isDelimiter line = false) ∧
        blockLines.flatten = block ∧ restLines.flatten = rest := by
  constructor
  · intro h
    unfold splitFrontmatter at h
    cases hlines : Text.lines cs with
    | nil =>
      rw [hlines] at h
      exact nomatch h
    | cons opening ls =>
      rw [hlines] at h
      dsimp only at h
      split_ifs at h with hopening
      have hsplit := List.takeWhile_append_dropWhile (p := fun l => !isDelimiter l) (l := ls)
      have hclosing := List.head?_dropWhile_not (fun l => !isDelimiter l) ls
      cases hdrop : ls.dropWhile fun l => !isDelimiter l with
      | nil =>
        rw [hdrop] at h
        exact nomatch h
      | cons closing restLines =>
        rw [hdrop] at h hclosing hsplit
        obtain ⟨rfl, rfl⟩ := Prod.mk.inj (Option.some.inj h)
        refine ⟨opening, closing, _, restLines, by rw [hsplit], hopening, by simpa using hclosing,
          fun line hline => ?_, rfl, rfl⟩
        simpa using List.mem_takeWhile_imp hline
  · rintro ⟨opening, closing, blockLines, restLines, hlines, hopening, hclosing, hblock, rfl, rfl⟩
    have hpass : ∀ line ∈ blockLines, (!isDelimiter line) = true :=
      fun line hline => by rw [hblock line hline]; rfl
    rw [splitFrontmatter, hlines]
    simp [hopening, hclosing, List.dropWhile_append_of_pos hpass,
      List.takeWhile_append_of_pos hpass]

namespace Frame

/-- The lines of a framed document: those of its block stand between the first delimiter line and
the next one. -/
theorem lines_text (f : Frame) :
    Text.lines f.text = f.opening :: (Text.lines f.block ++ f.closing :: Text.lines f.rest) := by
  have hopening := f.opening_isCompleteDelimiter.isComplete
  have hclosing : Text.lines (f.closing ++ f.rest) = f.closing :: Text.lines f.rest := by
    rcases f.closing_isDelimiter with hcomplete | ⟨hopen, hrest⟩
    · rw [Text.lines_append hcomplete.isComplete.endsLine,
        Text.lines_of_isComplete hcomplete.isComplete]
      rfl
    · have hne : f.closing ≠ [] := by
        obtain ⟨returns, hline⟩ := hopen
        simp [hline, delimiter]
      rw [hrest, List.append_nil, Text.lines_of_notMem hne hopen.lineFeed_notMem]
      rfl
  rw [text, List.append_assoc, List.append_assoc, Text.lines_append hopening.endsLine,
    Text.lines_of_isComplete hopening, Text.lines_append f.block_endsLine, hclosing]
  rfl

theorem isDelimiter_closing (f : Frame) : isDelimiter f.closing = true := by
  rcases f.closing_isDelimiter with h | ⟨h, -⟩
  · exact h.isDelimiter
  · exact h.isDelimiter

theorem isDelimiter_of_mem_block (f : Frame) : ∀ l ∈ Text.lines f.block, isDelimiter l = false := by
  intro l hl
  have hline := Text.mem_lines_iff.mp hl
  have hcomplete := hline.isComplete f.block_endsLine
  apply Bool.eq_false_iff.mpr
  rw [ne_eq, isDelimiter_of_isComplete hcomplete]
  exact (f.block_noDelimiter l hline).1

theorem splitFrontmatter_text (f : Frame) : splitFrontmatter f.text = some (f.block, f.rest) :=
  splitFrontmatter_eq_some_iff.mpr ⟨f.opening, f.closing, _, _, f.lines_text,
    f.opening_isCompleteDelimiter.isDelimiter, f.isDelimiter_closing, f.isDelimiter_of_mem_block,
    Text.flatten_lines _, Text.flatten_lines _⟩

theorem exists_of_splitFrontmatter (h : splitFrontmatter cs = some (block, rest)) :
    ∃ f : Frame, f.text = cs ∧ f.block = block ∧ f.rest = rest := by
  obtain ⟨opening, closing, blockLines, restLines, hlines, hopening, hclosing, hblock, rfl, rfl⟩ :=
    splitFrontmatter_eq_some_iff.mp h
  have hsuccessive := Text.successive_lines cs
  have hcs := Text.flatten_lines cs
  rw [hlines] at hsuccessive hcs
  rw [← List.cons_append] at hsuccessive
  obtain ⟨hcomplete, hend, -⟩ := hsuccessive.of_append_cons
  obtain ⟨hfirst, hinside⟩ := List.forall_mem_cons.mp hcomplete
  have hsame : Text.lines blockLines.flatten = blockLines :=
    Text.lines_flatten (Text.successive_of_isComplete hinside)
  have hopens : IsCompleteDelimiter opening := (isDelimiter_of_isComplete hfirst).mp hopening
  have hcloses : IsCompleteDelimiter closing ∨ IsOpenDelimiter closing ∧ restLines.flatten = [] := by
    rcases hend with hclose | ⟨-, hopen, hrest⟩
    · exact .inl ((isDelimiter_of_isComplete hclose).mp hclosing)
    · exact .inr ⟨(isDelimiter_of_notMem hopen).mp hclosing, by simp [hrest]⟩
  have hnone (line : List Char) (hline : Text.IsLineOf line blockLines.flatten) :
      ¬ IsCompleteDelimiter line ∧ ¬ IsOpenDelimiter line := by
    have hpassed := hblock line (hsame ▸ Text.mem_lines_iff.mpr hline)
    exact ⟨fun h => by simp [h.isDelimiter] at hpassed, fun h => by simp [h.isDelimiter] at hpassed⟩
  refine ⟨⟨opening, blockLines.flatten, closing, restLines.flatten, hopens,
    Text.endsLine_flatten hinside, hnone, hcloses⟩, ?_, rfl, rfl⟩
  rw [← hcs]
  simp [text]

/-- A document is framed in one way only: its first line is the opening one, and the next delimiter
line is the closing one. -/
theorem text_injective : Function.Injective text := by
  intro f g h
  have hlines := congrArg Text.lines h
  have hsplit := congrArg splitFrontmatter h
  rw [lines_text, lines_text] at hlines
  rw [splitFrontmatter_text, splitFrontmatter_text] at hsplit
  have hopening : f.opening = g.opening := (List.cons.inj hlines).1
  obtain ⟨hblock, hrest⟩ := Prod.mk.inj (Option.some.inj hsplit)
  -- Once the blocks agree, the closing lines stand at one place among the lines.
  have hclosing : f.closing = g.closing := by
    have htails := (List.cons.inj hlines).2
    rw [hblock] at htails
    exact (List.cons.inj (List.append_cancel_left htails)).1
  exact Frame.ext hopening hblock hclosing hrest

end Frame

/-- Cutting a document accepts exactly the framed documents and loses nothing of them: it gives a
block and the text behind it if and only if the document is this block in its frame with this text
behind it. A document is framed in one way only, and one that is not framed has no block. -/
theorem splitFrontmatter_undoes_framing :
    (∀ cs block rest : List Char, splitFrontmatter cs = some (block, rest) ↔
      ∃ f : Frame, f.text = cs ∧ f.block = block ∧ f.rest = rest) ∧
    Function.Injective Frame.text ∧
    ∀ cs : List Char, splitFrontmatter cs = none ↔ ¬ ∃ f : Frame, f.text = cs := by
  have haccepts (cs block rest : List Char) : splitFrontmatter cs = some (block, rest) ↔
      ∃ f : Frame, f.text = cs ∧ f.block = block ∧ f.rest = rest := by
    constructor
    · exact Frame.exists_of_splitFrontmatter
    · rintro ⟨f, rfl, rfl, rfl⟩
      exact f.splitFrontmatter_text
  refine ⟨haccepts, Frame.text_injective, fun cs => ?_⟩
  constructor
  · rintro hnone ⟨f, rfl⟩
    exact nomatch hnone.symm.trans f.splitFrontmatter_text
  · intro hunframed
    cases hsplit : splitFrontmatter cs with
    | none => rfl
    | some parts =>
      obtain ⟨f, hf, -⟩ := (haccepts cs parts.1 parts.2).mp hsplit
      exact absurd ⟨f, hf⟩ hunframed

/-- Four hyphens are no delimiter, and the closing delimiter may end with its document. -/
example : splitFrontmatter "---\r\na: 1\r\n----\r\n---\r".toList =
    some ("a: 1\r\n----\r\n".toList, []) := by decide

end Prompt

end PromptRunner
