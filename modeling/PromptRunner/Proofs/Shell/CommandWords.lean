import Mathlib.Data.List.Basic
import PromptRunner.Proofs.Running

/-!
# Command lines read back

Words that are quoted and joined are read back as the same words. The reader may be followed word by
word: behind a quoted word it stands inside a word that has just this text, and the space that
follows ends the word. So the command line that a dry run shows can be used as the command of a
configuration.
-/

namespace PromptRunner

namespace Shell

/-- A character that means nothing but itself, at the start of a word and inside of it. -/
def IsPlain (c : Char) : Prop :=
  c ∉ specialChars

variable {c : Char} {w : List Char}

theorem IsPlain.ne (hc : IsPlain c) :
    c ≠ '\x27' ∧ c ≠ '\x22' ∧ c ≠ '\\' ∧ isSeparator c = false ∧ c ≠ '#' := by
  simp only [IsPlain, specialChars, List.mem_cons, not_or] at hc
  simp only [isSeparator, Bool.or_eq_false_iff, beq_eq_false_iff_ne]
  tauto

theorem splitFrom_between_of_isPlain (hc : IsPlain c) (rest : List Char) :
    splitFrom .between [] (c :: rest) = splitFrom .word [c] rest := by
  obtain ⟨hsingle, hdouble, hescape, hseparator, hcomment⟩ := hc.ne
  simp [splitFrom, hsingle, hdouble, hescape, hseparator, hcomment]

theorem splitFrom_word_of_isPlain (hc : IsPlain c) (word rest : List Char) :
    splitFrom .word word (c :: rest) = splitFrom .word (c :: word) rest := by
  obtain ⟨hsingle, hdouble, hescape, hseparator, -⟩ := hc.ne
  simp [splitFrom, hsingle, hdouble, hescape, hseparator]

/-- Plain characters are added to the word that is read. -/
theorem splitFrom_word_append (h : ∀ c ∈ w, IsPlain c) (word rest : List Char) :
    splitFrom .word word (w ++ rest) = splitFrom .word (w.reverse ++ word) rest := by
  induction w generalizing word with
  | nil => rfl
  | cons c w ih =>
    have hc := h c List.mem_cons_self
    have hw := ih (fun c' hc' => h c' (List.mem_cons_of_mem c hc')) (c :: word)
    rw [List.cons_append, splitFrom_word_of_isPlain hc, hw]
    simp

/-- What stands between single quotes is added to the word that is read. -/
theorem splitFrom_single_append (w word rest : List Char) :
    splitFrom .single word (quoteBody w ++ quoteMark :: rest) =
      splitFrom .word (w.reverse ++ word) rest := by
  induction w generalizing word with
  | nil => simp [quoteBody, splitFrom, quoteMark]
  | cons c w ih =>
    by_cases hc : c = quoteMark
    · -- The quote closes, a quote is escaped, and the quote opens again.
      have hbody : splitFrom .single word (quoteBody (c :: w) ++ quoteMark :: rest) =
          splitFrom .single (quoteMark :: word) (quoteBody w ++ quoteMark :: rest) := by
        simp [quoteBody, hc, splitFrom, quoteMark]
      rw [hbody, ih, hc]
      simp
    · have hbody : splitFrom .single word (quoteBody (c :: w) ++ quoteMark :: rest) =
          splitFrom .single (c :: word) (quoteBody w ++ quoteMark :: rest) := by
        rw [quoteBody, if_neg hc, List.cons_append, splitFrom]
        exact if_neg hc
      rw [hbody, ih]
      simp

/-- Behind a quoted word the reader stands inside this word. -/
theorem splitFrom_quoteWord (w rest : List Char) :
    splitFrom .between [] (quoteWord w ++ rest) = splitFrom .word w.reverse rest := by
  rw [quoteWord]
  split
  · have hopen : splitFrom .between [] (quoteMark :: (quoteBody w ++ quoteMark :: rest)) =
        splitFrom .single [] (quoteBody w ++ quoteMark :: rest) := by
      simp [splitFrom, quoteMark]
    rw [List.cons_append, List.append_assoc, List.singleton_append, hopen, splitFrom_single_append,
      List.append_nil]
  · rename_i hword
    simp only [Bool.or_eq_true, List.isEmpty_iff, List.any_eq_true, List.contains_iff_mem, not_or,
      not_exists, not_and] at hword
    obtain ⟨hne, hplain⟩ := hword
    cases w with
    | nil => exact absurd rfl hne
    | cons c w =>
      have hc : IsPlain c := hplain c List.mem_cons_self
      have hw := splitFrom_word_append (fun c' hc' => hplain c' (List.mem_cons_of_mem c hc'))
        [c] rest
      rw [List.cons_append, splitFrom_between_of_isPlain hc, hw]
      simp

theorem joinWords_cons_cons (w w' : List Char) (ws : List (List Char)) :
    joinWords (w :: w' :: ws) = quoteWord w ++ ' ' :: joinWords (w' :: ws) := by
  simp [joinWords, List.intercalate]

theorem splitWords_joinWords (ws : List (List Char)) : splitWords (joinWords ws) = some ws := by
  induction ws with
  | nil => rfl
  | cons w ws ih =>
    cases ws with
    | nil =>
      have hread := splitFrom_quoteWord w []
      simpa [splitWords, joinWords, splitFrom] using hread
    | cons w' ws =>
      have hspace (rest : List Char) : splitFrom .word w.reverse (' ' :: rest) =
          (splitWords rest).map (w :: ·) := by
        simp [splitFrom, splitWords, isSeparator]
      rw [joinWords_cons_cons, splitWords, splitFrom_quoteWord, hspace, ih]
      rfl

theorem split?_join (ws : List String) : split? (join ws) = some ws := by
  rw [split?, join, String.toList_ofList, splitWords_joinWords]
  simp

end Shell

theorem Config.program_of_join {config : Config} {argv : List String} (hargv : argv ≠ [])
    (hcommand : config.command = Shell.join argv) : config.program = .ok argv := by
  rw [Config.program, hcommand, Shell.split?_join]
  cases argv with
  | nil => exact absurd rfl hargv
  | cons w ws => rfl

namespace Command

/-- The command line that a dry run shows before the text can be set as the command of a
configuration, whose program is then the same words. -/
theorem shown_command_reads_back (argv : List String) (hargv : argv ≠ []) :
    (∀ config : Config, config.command = Shell.join argv → config.program = .ok argv) ∧
      ∀ (m : Machine) (c : Context) (o : CommandLine.RunOptions) (i : Invocation)
        (ws : List Warning), o.dryRun = true → prepareRun m c o = ⟨.ok i, ws⟩ → i.argv = argv →
          (runPrompt m c o).output = Shell.join argv ++ "\n\n" ++ i.text ++ "\n" := by
  constructor
  · intro config hcommand
    exact Config.program_of_join hargv hcommand
  · intro m c o i ws hdry hprepared hi
    rw [runPrompt_of_ok hprepared, if_pos hdry, ← hi]
    rfl

def quotedMachine : Machine :=
  .ofProcess
    { entries := [
        ([Path.ofText "p"], .directory),
        ([Path.ofText "p", Path.ofText "a.md"], .file "it's\n#x".toUTF8 false)]
      unique := by simp
      named := by simp; decide } (.ok (Path.ofText "/")) []

def quotedContext : Context :=
  ⟨.default, Path.ofText "/p"⟩

def quotedArgv : List String :=
  ["claude", "-p", "it's\n#x"]

/-- A dry run of the prompt shows its command line with the text between quotes, and this line as a
command has the quote, the line feed and the number sign in its words again. -/
theorem shown_command_reads_back_quoted :
    quotedArgv ≠ [] ∧ Shell.join quotedArgv = "claude -p 'it'\\''s\n#x'" ∧
      (runPrompt quotedMachine quotedContext { prompt := "a", dryRun := true }).output =
        Shell.join quotedArgv ++ "\n\nit's\n#x\n" ∧
      ({ command := Shell.join quotedArgv } : Config).program = .ok quotedArgv := by
  have hargv : quotedArgv ≠ [] := by decide
  have hprepared : prepareRun quotedMachine quotedContext { prompt := "a", dryRun := true } =
      ⟨.ok ⟨"it's\n#x", quotedArgv⟩, []⟩ := by rfl
  obtain ⟨hprogram, houtput⟩ := shown_command_reads_back quotedArgv hargv
  refine ⟨hargv, by decide, ?_, hprogram _ rfl⟩
  exact houtput _ _ _ _ _ rfl hprepared rfl

end Command

end PromptRunner
