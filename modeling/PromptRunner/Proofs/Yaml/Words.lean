import Mathlib.Data.List.Basic
import PromptRunner.Yaml.Token.Scan

/-!
# Words of a YAML text

A word is a plain scalar without white space and colons. It stays on one line, and reading it as a
plain scalar adds its characters one after the other until a gap or a colon follows.
-/

namespace PromptRunner.Yaml

/-- A character that neither ends nor interrupts a plain scalar outside of brackets. -/
structure IsInside (c : Char) : Prop where
  allowed : isAllowed c = true
  notGap : isGap c = false
  notBreak : c ≠ '\r' ∧ c ≠ '\u0085'
  notColon : c ≠ ':'
  notMark : c ≠ byteOrderMark

instance (c : Char) : Decidable (IsInside c) :=
  decidable_of_iff (isAllowed c = true ∧ isGap c = false ∧ (c ≠ '\r' ∧ c ≠ '\u0085') ∧ c ≠ ':' ∧
    c ≠ byteOrderMark) ⟨fun ⟨ha, hg, hb, hc, hm⟩ => ⟨ha, hg, hb, hc, hm⟩,
    fun ⟨ha, hg, hb, hc, hm⟩ => ⟨ha, hg, hb, hc, hm⟩⟩

/-- A word: its first character is not an indicator, or it is a hyphen that another one follows. -/
structure IsWord (w : List Char) : Prop where
  inside : ∀ c ∈ w, IsInside c
  starts : ∃ c cs, w = c :: cs ∧ (c ∉ indicators ∨ c = '-' ∧ cs ≠ [])

theorem isWord_of_all {c : Char} {cs : List Char}
    (hinside : ((c :: cs).all fun c => decide (IsInside c)) = true) (hc : c ∉ indicators) :
    IsWord (c :: cs) :=
  ⟨fun c hc => of_decide_eq_true (List.all_eq_true.mp hinside c hc), c, cs, rfl, .inl hc⟩

/-- The marks of characters that stay on one line. -/
def placed (line column index : Nat) : List Char → List Mark
  | [] => []
  | c :: cs => ⟨c, line, column, index⟩ :: placed line (column + 1) (index + 1) cs

variable {c : Char} {w cs : List Char} {line column index margin : Nat} {m : Mark}
  {ms rest : List Mark} {text : List Char}

theorem IsInside.notBlank (h : IsInside c) : isBlank c = false ∧ isBreak c = false ∧ c ≠ endChar := by
  have hgap := h.notGap
  simp only [isGap, isLineEnd, Bool.or_eq_false_iff, beq_eq_false_iff_ne] at hgap
  exact ⟨hgap.1, hgap.2.1, hgap.2.2⟩

theorem marksFrom_cons (h : IsInside c) (line column index : Nat) (cs : List Char) :
    marksFrom line column index (c :: cs) =
      ⟨c, line, column, index⟩ :: marksFrom line (column + 1) (index + 1) cs := by
  obtain ⟨hreturn, hnext⟩ := h.notBreak
  obtain ⟨-, hbreak, -⟩ := h.notBlank
  simp [marksFrom, hreturn, hnext, hbreak]

theorem marksFrom_append (h : ∀ c ∈ w, IsInside c) (line column index : Nat) (cs : List Char) :
    marksFrom line column index (w ++ cs) =
      placed line column index w ++ marksFrom line (column + w.length) (index + w.length) cs := by
  induction w generalizing column index with
  | nil => rfl
  | cons c w ih =>
    have hw := ih (fun c' hc' => h c' (List.mem_cons_of_mem c hc')) (column + 1) (index + 1)
    rw [List.cons_append, marksFrom_cons (h c List.mem_cons_self), hw, placed, List.length_cons,
      List.cons_append]
    simp only [Nat.add_comm w.length 1, Nat.add_assoc]

/-! ## Plain scalars -/

namespace Plain

/-- A plain scalar in a block that is read up to here ends, with its line or within it. -/
def Ends (margin : Nat) (ms : List Mark) (newLine : Bool) (rest : List Mark) : Prop :=
  ∀ text, readFrom false margin text .empty ms = some ⟨text.reverse, newLine, rest⟩

/-- The characters of a word are added to the scalar that is read. -/
theorem readFrom_placed (h : ∀ c ∈ w, IsInside c) (text : List Char) :
    readFrom false margin text .empty (placed line column index w ++ rest) =
      readFrom false margin (w.reverse ++ text) .empty rest := by
  induction w generalizing column index text with
  | nil => rfl
  | cons c w ih =>
    have hc := h c List.mem_cons_self
    obtain ⟨hblank, hbreak, hend⟩ := hc.notBlank
    have hw : readFrom false margin (c :: text) .empty
        (placed line (column + 1) (index + 1) w ++ rest) =
          readFrom false margin (w.reverse ++ c :: text) .empty rest :=
      ih (fun c' hc' => h c' (List.mem_cons_of_mem c hc')) (c :: text)
    have hstep : readFrom false margin text .empty (placed line column index (c :: w) ++ rest) =
        readFrom false margin (c :: text) .empty
          (placed line (column + 1) (index + 1) w ++ rest) := by
      simp [placed, readFrom, hblank, hbreak, Gap.isOpen, Gap.empty, isMisplacedColon, isEnd, hend,
        hc.notColon, Gap.reversedText]
    rw [hstep, hw, List.reverse_cons, List.append_assoc, List.singleton_append]

theorem read_placed {newLine : Bool} {rest' : List Mark} (h : ∀ c ∈ w, IsInside c)
    (hends : Ends margin rest newLine rest') :
    read false margin (placed line column index w ++ rest) = some ⟨w, newLine, rest'⟩ := by
  rw [read, readFrom_placed h, hends, List.append_nil, List.reverse_reverse]

theorem ends_colon (hm : m.char = ':') (hgap : isGap (charAt ms 0) = true) :
    Ends margin (m :: ms) false (m :: ms) := by
  intro text
  simp [readFrom, hm, isBlank, isBreak, Gap.isOpen, Gap.empty, isMisplacedColon, isEnd, hgap]

theorem ends_end (hm : m.char = endChar) : Ends margin (m :: ms) false (m :: ms) := by
  intro text
  simp [readFrom, hm, isBlank, isBreak, endChar, Gap.isOpen, Gap.empty, isMisplacedColon, isEnd]

/-- Behind a line feed, a scalar ends at a mark before the margin. -/
theorem ends_break (hbreak : m.char = '\n') (spaces : List Mark)
    (hspaces : ∀ space ∈ spaces, space.char = ' ') {next : Mark}
    (hnext : isBlank next.char = false ∧ isBreak next.char = false) (hmargin : next.column < margin) :
    Ends margin (m :: (spaces ++ next :: ms)) true (next :: ms) := by
  intro text
  have hopen : readFrom false margin text .empty (m :: (spaces ++ next :: ms)) =
      readFrom false margin text (Gap.empty.addBreak '\n') (spaces ++ next :: ms) := by
    simp [readFrom, hbreak, isBlank, isBreak]
  rw [hopen]
  clear hopen
  induction spaces with
  | nil =>
    have hless : ¬ margin ≤ next.column := by omega
    simp [readFrom, hnext, Gap.isOpen, Gap.addBreak, Gap.empty, continues, hless]
  | cons space spaces ih =>
    have hspace := hspaces space List.mem_cons_self
    have hrest := ih (fun s hs => hspaces s (List.mem_cons_of_mem space hs))
    have hblank : readFrom false margin text (Gap.empty.addBreak '\n')
        (space :: (spaces ++ next :: ms)) =
          readFrom false margin text (Gap.empty.addBreak '\n') (spaces ++ next :: ms) := by
      simp [readFrom, hspace, isBlank, Gap.addBreak, Gap.addBlank, Gap.empty]
    rw [List.cons_append, hblank, hrest]

end Plain

end PromptRunner.Yaml
