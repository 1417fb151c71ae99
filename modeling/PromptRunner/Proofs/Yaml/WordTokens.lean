import Mathlib.Tactic.SplitIfs
import PromptRunner.Proofs.Yaml.Words

/-!
# Tokens of words

The reader takes a word, a colon or a hyphen at a time. What it knows behind one of them depends on
what it knew before and on the place, but not on the characters of a word. Steps are put together
along the text, each with the rest of it left open.
-/

namespace PromptRunner.Yaml.Scanner

variable {c : Char} {cs : List Char} {line column index margin : Nat} {m : Mark}
  {ms rest : List Mark}

def Steps (n : Nat) (s : Scanner) (ms : List Mark) (s' : Scanner) (rest : List Mark) : Prop :=
  ∀ fuel, run (fuel + n) s ms = run fuel s' rest

theorem Steps.trans {n n' : Nat} {s s' s'' : Scanner} {ms ms' ms'' : List Mark}
    (h : Steps n s ms s' ms') (h' : Steps n' s' ms' s'' ms'') : Steps (n + n') s ms s'' ms'' := by
  intro fuel
  rw [← h' fuel, ← h (fuel + n'), Nat.add_right_comm, Nat.add_assoc]

theorem run_space (hchar : m.char = ' ') (s : Scanner) (ms : List Mark) (fuel : Nat) :
    run (fuel + 1) s (m :: ms) = run (fuel + 1) s ms := by
  have hskip : skipSpace s.inFlow s.keyAllowed false (m :: ms) =
      skipSpace s.inFlow s.keyAllowed false ms := by
    simp [skipSpace, hchar, isBreak, endChar, byteOrderMark]
  rw [run, run, hskip]

variable {tokens : List Token} {count : Nat} {outer : List Nat} {keyAllowed newLine : Bool}

/-- The scanner in a block, with what may have started a key. -/
def inBlock (tokens : List Token) (count margin : Nat) (outer : List Nat) (keyAllowed : Bool)
    (pending : Option PendingKey) : Scanner :=
  ⟨tokens, count, margin, outer, keyAllowed, pending, []⟩

theorem closeTo_of_le {limit : Nat} (h : margin ≤ limit) :
    closeTo limit tokens count margin outer = (tokens, count, margin, outer) := by
  have hless : ¬ limit < margin := by omega
  cases outer with
  | nil => rfl
  | cons n ns => rw [closeTo, if_neg hless]

theorem unwind_inBlock {limit : Nat} (h : margin ≤ limit) (pending : Option PendingKey) :
    (inBlock tokens count margin outer keyAllowed pending).unwind limit =
      inBlock tokens count margin outer keyAllowed pending := by
  simp [unwind, inFlow, inBlock, closeTo_of_le h]

/-- The mark of a token is not skipped. -/
theorem skipSpace_of_token (inFlow keyAllowed : Bool) (ms : List Mark)
    (h : isBlank m.char = false ∧ isBreak m.char = false ∧ m.char ≠ endChar)
    (hm : m.char ≠ byteOrderMark ∧ m.char ≠ '#') :
    skipSpace inFlow keyAllowed false (m :: ms) = (keyAllowed, m :: ms) := by
  obtain ⟨hblank, hbreak, hend⟩ := h
  simp only [isBlank, Bool.or_eq_false_iff, beq_eq_false_iff_ne] at hblank
  simp [skipSpace, hbreak, hend, hm, hblank]

/-- What a mark does that starts a token while no key can be given up. -/
theorem next_of_step {s s' : Scanner} {rest : List Mark} {pending : Option PendingKey}
    (h : isBlank m.char = false ∧ isBreak m.char = false ∧ m.char ≠ endChar)
    (hm : m.char ≠ byteOrderMark ∧ m.char ≠ '#') (hmargin : margin ≤ m.column + 1)
    (hpending : ∀ k ∈ pending, isStale m k = false)
    (hs : s = inBlock tokens count margin outer keyAllowed pending)
    (hstep : s.step m ms = some (s', rest)) : Steps 1 s (m :: ms) s' rest := by
  intro fuel
  subst hs
  have hrefresh : (inBlock tokens count margin outer keyAllowed pending).refresh m =
      some (inBlock tokens count margin outer keyAllowed pending) := by
    cases pending with
    | none => rfl
    | some k => simp [refresh, inBlock, dropStale, hpending k rfl]
  have hflow : (inBlock tokens count margin outer keyAllowed pending).inFlow = false := rfl
  have hskip : skipSpace false (inBlock tokens count margin outer keyAllowed pending).keyAllowed
      false (m :: ms) = (keyAllowed, m :: ms) := skipSpace_of_token false keyAllowed ms h hm
  rw [run, hflow, hskip]
  simp only
  have hsame : ({ inBlock tokens count margin outer keyAllowed pending with keyAllowed } : Scanner) =
      inBlock tokens count margin outer keyAllowed pending := rfl
  rw [hsame, hrefresh]
  simp only [unwind_inBlock hmargin, hstep, beq_eq_false_iff_ne.mpr h.2.2, Bool.false_eq_true,
    if_false]

/-- What may have started a key, behind a token that started at a mark. -/
def noted (keyAllowed : Bool) (count margin : Nat) (m : Mark) : Option PendingKey :=
  if keyAllowed then some ⟨count, m, margin == m.column + 1⟩ else none

theorem startContent_inBlock (m : Mark) :
    (inBlock tokens count margin outer keyAllowed none).startContent m =
      some (inBlock tokens count margin outer false (noted keyAllowed count margin m)) := by
  cases keyAllowed <;> rfl

theorem indicators_eq : indicators = ['-', '?', ':', ',', '[', ']', '\x7b', '\x7d', '#', '&', '*', '!',
    '|', '>', '\x27', '\x22', '%', '@', '\x60'] := by
  decide

/-- A mark at which a plain scalar starts, and nothing else. -/
structure StartsWord (m : Mark) (ms : List Mark) : Prop where
  inside : IsInside m.char
  notIndicator : m.char ∉ indicators ∨ m.char = '-' ∧ isGap (charAt ms 0) = false
  notDivider : isDivider '-' (m :: ms) = false ∧ isDivider '.' (m :: ms) = false

theorem StartsWord.step_eq (h : StartsWord m ms) (s : Scanner) :
    s.step m ms = (s.startContent m).bind fun s =>
      (Plain.read s.inFlow s.margin (m :: ms)).map fun r =>
        ({ s.push (.scalar r.text .plain) with keyAllowed := r.newLine }, r.rest) := by
  have hcolon := h.inside.notColon
  have hdivider := h.notDivider
  rcases h.notIndicator with hother | ⟨hhyphen, hgap⟩
  · have hnone : m.char ∉ indicators := hother
    simp only [indicators_eq, List.mem_cons, not_or] at hother
    have hstarts : startsPlain s.inFlow m ms = true := by
      simp [startsPlain, h.inside.notGap, hnone]
    simp [step, hdivider, hother, hstarts]
  · have hblank : isBlank (charAt ms 0) = false := by
      rw [isGap, Bool.or_eq_false_iff] at hgap
      exact hgap.1
    have hstarts : startsPlain s.inFlow m ms = true := by
      simp [startsPlain, hhyphen, hblank]
    simp [step, hdivider, hhyphen, hgap, hstarts]

theorem isDivider_eq_false {c : Char} (h : 0 < m.column ∨ m.char ≠ c) :
    isDivider c (m :: ms) = false := by
  match ms with
  | [] | [_] => rfl
  | m' :: m'' :: rest =>
    rcases h with hcolumn | hchar
    · simp [isDivider, Nat.ne_of_gt hcolumn]
    · simp [isDivider, hchar]

theorem startsWord_placed (hw : IsWord (c :: cs))
    (hplace : 0 < column ∨ c ≠ '-' ∧ c ≠ '.') :
    StartsWord ⟨c, line, column, index⟩ (placed line (column + 1) (index + 1) cs ++ ms) := by
  obtain ⟨hinside, c', cs', heq, hstarts⟩ := hw
  obtain ⟨rfl, rfl⟩ := List.cons.inj heq
  refine ⟨hinside c List.mem_cons_self, ?_, ?_⟩
  · rcases hstarts with hother | ⟨hhyphen, hne⟩
    · exact .inl hother
    · obtain ⟨d, ds, rfl⟩ := List.exists_cons_of_ne_nil hne
      exact .inr ⟨hhyphen, (hinside d (by simp)).notGap⟩
  · exact ⟨isDivider_eq_false (hplace.imp_right And.left),
      isDivider_eq_false (hplace.imp_right And.right)⟩

theorem StartsWord.next (h : StartsWord m ms) (hmargin : margin ≤ m.column + 1) {r : Plain.Reading}
    (hread : Plain.read false margin (m :: ms) = some r) :
    Steps 1 (inBlock tokens count margin outer keyAllowed none) (m :: ms)
      (inBlock (.scalar r.text .plain :: tokens) (count + 1) margin outer r.newLine
        (noted keyAllowed count margin m)) r.rest := by
  have hhash : m.char ≠ byteOrderMark ∧ m.char ≠ '#' := by
    refine ⟨h.inside.notMark, ?_⟩
    intro hhash
    rcases h.notIndicator with hother | ⟨hhyphen, -⟩
    · exact hother (by rw [hhash]; decide)
    · rw [hhash] at hhyphen
      exact absurd hhyphen (by decide)
  refine next_of_step h.inside.notBlank hhash hmargin (by simp) rfl ?_
  rw [h.step_eq, startContent_inBlock, Option.bind_some]
  have hflow : (inBlock tokens count margin outer false (noted keyAllowed count margin m)).inFlow =
      false := rfl
  have hsame : (inBlock tokens count margin outer false (noted keyAllowed count margin m)).margin =
      margin := rfl
  rw [hflow, hsame, hread]
  rfl

theorem next_word (hw : IsWord (c :: cs)) (hends : Plain.Ends margin ms newLine rest)
    (hmargin : margin ≤ column + 1) (hplace : 0 < column ∨ c ≠ '-' ∧ c ≠ '.') :
    Steps 1 (inBlock tokens count margin outer keyAllowed none)
      (placed line column index (c :: cs) ++ ms)
      (inBlock (.scalar (c :: cs) .plain :: tokens) (count + 1) margin outer newLine
        (noted keyAllowed count margin ⟨c, line, column, index⟩)) rest :=
  (startsWord_placed hw hplace).next hmargin (Plain.read_placed hw.inside hends)

/-- The scanner behind a key and its colon. The key opens a mapping unless one is open at its
column. -/
def behindKey (tokens : List Token) (count margin : Nat) (outer : List Nat) (column : Nat)
    (t : Token) : Scanner :=
  if column < margin then inBlock (.value :: t :: .key :: tokens) (count + 3) margin outer false none
  else
    inBlock (.value :: t :: .key :: .blockMappingStart :: tokens) (count + 4) (column + 1)
      (margin :: outer) false none

/-- A colon behind a token that may be a key. -/
theorem next_colon {t : Token} {start : Mark} {required : Bool} (hchar : m.char = ':')
    (hgap : isGap (charAt ms 0) = true) (hmargin : margin ≤ m.column + 1)
    (hstale : isStale m ⟨count, start, required⟩ = false) :
    Steps 1 (inBlock (t :: tokens) (count + 1) margin outer keyAllowed
        (some ⟨count, start, required⟩)) (m :: ms)
      (behindKey tokens count margin outer start.column t) ms := by
  have hplain : isBlank m.char = false ∧ isBreak m.char = false ∧ m.char ≠ endChar := by
    rw [hchar]
    decide
  have hmark : m.char ≠ byteOrderMark ∧ m.char ≠ '#' := by
    rw [hchar]
    decide
  refine next_of_step hplain hmark hmargin (by simpa using hstale) rfl ?_
  have hdash : isDivider '-' (m :: ms) = false := isDivider_eq_false (.inr (by simp [hchar]))
  have hdot : isDivider '.' (m :: ms) = false := isDivider_eq_false (.inr (by simp [hchar]))
  have hstep (s : Scanner) : s.step m ms = (s.valueSign m).map fun s => (s, ms) := by
    simp [step, hchar, hdash, hdot, hgap]
  rw [hstep, behindKey]
  have hinsert : count + 1 - count = 1 := by omega
  have hinsert' : count + 1 + 1 - count = 2 := by omega
  split_ifs with hless
  · simp [valueSign, inBlock, openBlock, insertAt, push, inFlow, hless, hinsert]
  · simp [valueSign, inBlock, openBlock, insertAt, push, inFlow, hless, hinsert, hinsert']

/-- A hyphen before an item of a sequence that is not indented. -/
theorem next_hyphen (hchar : m.char = '-') (hgap : isGap (charAt ms 0) = true)
    (hmargin : margin = m.column + 1) :
    Steps 1 (inBlock tokens count margin outer true none) (m :: ms)
      (inBlock (.blockEntry :: tokens) (count + 1) margin outer true none) ms := by
  have hplain : isBlank m.char = false ∧ isBreak m.char = false ∧ m.char ≠ endChar := by
    rw [hchar]
    decide
  have hmark : m.char ≠ byteOrderMark ∧ m.char ≠ '#' := by
    rw [hchar]
    decide
  have hdash : isDivider '-' (m :: ms) = false := by
    match ms with
    | [] | [_] => rfl
    | m' :: m'' :: rest =>
      have hother : m'.char ≠ '-' := by
        intro hhyphen
        have hfirst : charAt (m' :: m'' :: rest) 0 = '-' := hhyphen
        rw [hfirst] at hgap
        exact absurd hgap (by decide)
      simp [isDivider, hother]
  have hdot : isDivider '.' (m :: ms) = false := isDivider_eq_false (.inr (by simp [hchar]))
  refine next_of_step hplain hmark (Nat.le_of_eq hmargin) (by simp) rfl ?_
  have hstep (s : Scanner) : s.step m ms = (s.blockEntry m).map fun s => (s, ms) := by
    simp [step, hchar, hdash, hdot, hgap]
  have hinside : m.column < margin := by omega
  rw [hstep]
  simp [blockEntry, inBlock, openBlock, inFlow, hinside, dropPending, push]

/-- Behind a line break a key may start. -/
theorem run_lineBreak (hchar : m.char = '\n') (fuel : Nat) :
    run (fuel + 1) (inBlock tokens count margin outer keyAllowed none) (m :: ms) =
      run (fuel + 1) (inBlock tokens count margin outer true none) ms := by
  have hskip : skipSpace false keyAllowed false (m :: ms) = skipSpace false true false ms := by
    simp [skipSpace, hchar, isBreak]
  rw [run, run]
  simp only [inFlow, inBlock, List.isEmpty_nil, Bool.not_true, hskip]

def colonBehind (line column index : Nat) (w : List Char) : Mark :=
  ⟨':', line, column + w.length, index + w.length⟩

/-- A word that can be a key at the start of a line. -/
structure IsKey (w : List Char) : Prop where
  word : IsWord w
  notDivider : w.head? ≠ some '-' ∧ w.head? ≠ some '.'
  short : w.length ≤ keyLimit

theorem steps_key {w text : List Char} (hw : IsKey w) (hmargin : margin ≤ column + 1)
    (hgap : isGap (charAt (marksFrom line (column + w.length + 1) (index + w.length + 1) text) 0) =
      true) :
    Steps 2 (inBlock tokens count margin outer true none)
      (marksFrom line column index (w ++ ':' :: text))
      (behindKey tokens count margin outer column (.scalar w .plain))
      (marksFrom line (column + w.length + 1) (index + w.length + 1) text) := by
  obtain ⟨c, cs, rfl, -⟩ := hw.word.starts
  obtain ⟨behind, hbehind⟩ : ∃ ms, ms = marksFrom line (column + (c :: cs).length + 1)
      (index + (c :: cs).length + 1) text := ⟨_, rfl⟩
  have hmarks : marksFrom line column index ((c :: cs) ++ ':' :: text) =
      placed line column index (c :: cs) ++ colonBehind line column index (c :: cs) :: behind := by
    rw [marksFrom_append hw.word.inside, hbehind]
    rfl
  rw [hmarks, ← hbehind]
  rw [← hbehind] at hgap
  have hends : Plain.Ends margin (colonBehind line column index (c :: cs) :: behind) false
      (colonBehind line column index (c :: cs) :: behind) := Plain.ends_colon rfl hgap
  have hstale : isStale (colonBehind line column index (c :: cs))
      ⟨count, ⟨c, line, column, index⟩, margin == column + 1⟩ = false := by
    have hshort := hw.short
    have hnear : ¬ index + keyLimit < index + (c :: cs).length := by omega
    simp [isStale, colonBehind, -List.length_cons, hnear]
  have hcolon : margin ≤ (colonBehind line column index (c :: cs)).column + 1 := by
    simp only [colonBehind]
    omega
  have hword : Steps 1 (inBlock tokens count margin outer true none)
      (placed line column index (c :: cs) ++ colonBehind line column index (c :: cs) :: behind)
      (inBlock (.scalar (c :: cs) .plain :: tokens) (count + 1) margin outer false
        (some ⟨count, ⟨c, line, column, index⟩, margin == column + 1⟩))
      (colonBehind line column index (c :: cs) :: behind) :=
    next_word hw.word hends hmargin (.inr (by simpa using hw.notDivider))
  exact hword.trans (next_colon rfl hgap hcolon hstale)

/-- Blocks that are closed in two steps are closed. -/
theorem closeTo_closeTo (limit : Nat) :
    closeTo 0 (closeTo limit tokens count margin outer).1 (closeTo limit tokens count margin outer).2.1
        (closeTo limit tokens count margin outer).2.2.1
        (closeTo limit tokens count margin outer).2.2.2 =
      closeTo 0 tokens count margin outer := by
  induction outer generalizing tokens count margin with
  | nil => rfl
  | cons n ns ih =>
    by_cases hless : limit < margin
    · have hopen : 0 < margin := by omega
      rw [closeTo, if_pos hless, ih, closeTo, if_pos hopen]
    · rw [closeTo, if_neg hless]

theorem run_end (hchar : m.char = endChar) (fuel : Nat) :
    run (fuel + 1) (inBlock tokens count margin outer keyAllowed none) [m] =
      some (.streamEnd :: (closeTo 0 tokens count margin outer).1).reverse := by
  have hskip : skipSpace false keyAllowed false [m] = (keyAllowed, [m]) := by
    simp [skipSpace, hchar, isBreak, endChar]
  rw [run]
  simp only [inFlow, inBlock, List.isEmpty_nil, Bool.not_true, hskip, refresh, dropStale,
    Option.map_some, unwind, Bool.false_eq_true, if_false, hchar, beq_self_eq_true, if_true,
    leaveDocument, dropPending, push]
  rw [closeTo_closeTo]

end PromptRunner.Yaml.Scanner
