import Mathlib.Data.List.TakeWhile
import PromptRunner.Proofs.Occurrence
import PromptRunner.Template

/-!
# The tokens of a text

The pieces of a text are described by a relation: a token is read wherever one starts, and otherwise
one character. Tokens never overlap, since no brace stands in a name. So the tokens that are read
are exactly those that occur anywhere in the text.
-/

namespace PromptRunner.Template

/-- A name of a variable: one or more word characters. -/
def IsName (name : List Char) : Prop :=
  name ≠ [] ∧ ∀ c ∈ name, Text.isWord c = true

theorem IsName.openBrace_notMem {name : List Char} (h : IsName name) : '\x7b' ∉ name := by
  intro hm
  have hword := h.2 _ hm
  rw [Text.isWord_openBrace] at hword
  exact Bool.false_ne_true hword

theorem mem_tokenText {name : List Char} {c : Char} :
    c ∈ tokenText name ↔ c = '\x7b' ∨ c ∈ name ∨ c = '\x7d' := by
  simp only [tokenText, List.mem_cons, List.mem_append, List.not_mem_nil, or_false, or_self]
  tauto

theorem tokenText_ne_nil (name : List Char) : tokenText name ≠ [] :=
  List.cons_ne_nil _ _

/-- What follows the opening braces of a token decides which one it is. -/
theorem tokenText_prefix_iff {name cs : List Char} :
    tokenText name <+: '\x7b' :: '\x7b' :: cs ↔ name ++ ['\x7d', '\x7d'] <+: cs := by
  simp only [tokenText, List.cons_prefix_cons, true_and]

theorem takeWhile_name {name : List Char} (h : IsName name) {c : Char} (hc : Text.isWord c = false)
    (cs : List Char) : (name ++ c :: cs).takeWhile Text.isWord = name := by
  have hstop : ¬ Text.isWord c := by
    rw [hc]
    exact Bool.false_ne_true
  rw [List.takeWhile_append_of_pos h.2, List.takeWhile_cons_of_neg hstop, List.append_nil]

theorem dropWhile_name {name : List Char} (h : IsName name) {c : Char} (hc : Text.isWord c = false)
    (cs : List Char) : (name ++ c :: cs).dropWhile Text.isWord = c :: cs := by
  have hstop : ¬ Text.isWord c := by
    rw [hc]
    exact Bool.false_ne_true
  rw [List.dropWhile_append_of_pos h.2, List.dropWhile_cons_of_neg hstop]

theorem tokenAt_tokenText {name : List Char} (h : IsName name) (rest : List Char) :
    tokenAt (tokenText name ++ rest) = some name := by
  obtain ⟨w, ws, rfl⟩ := List.exists_cons_of_ne_nil h.1
  have ht := takeWhile_name h Text.isWord_closeBrace ('\x7d' :: rest)
  have hd := dropWhile_name h Text.isWord_closeBrace ('\x7d' :: rest)
  simp only [tokenText, List.cons_append, List.append_assoc, List.nil_append, tokenAt] at ht hd ⊢
  rw [ht, hd]
  rfl

theorem isName_of_tokenAt {cs name : List Char} (h : tokenAt cs = some name) :
    IsName name ∧ tokenText name <+: cs := by
  unfold tokenAt at h
  split at h
  · rename_i cs
    split at h
    · rename_i w ws rest ht hd
      obtain rfl := Option.some.inj h
      refine ⟨⟨List.cons_ne_nil _ _, fun c hc => List.mem_takeWhile_imp (ht ▸ hc)⟩, ?_⟩
      refine tokenText_prefix_iff.mpr ⟨rest, ?_⟩
      calc
        (w :: ws) ++ ['\x7d', '\x7d'] ++ rest = (w :: ws) ++ '\x7d' :: '\x7d' :: rest := by simp
        _ = cs.takeWhile Text.isWord ++ cs.dropWhile Text.isWord := by rw [ht, hd]
        _ = cs := List.takeWhile_append_dropWhile
    · exact nomatch h
  · exact nomatch h

theorem tokenAt_eq_none_iff {cs : List Char} :
    tokenAt cs = none ↔ ∀ name, IsName name → ¬ tokenText name <+: cs := by
  constructor
  · rintro hnone name h ⟨rest, rfl⟩
    exact nomatch (tokenAt_tokenText h rest).symm.trans hnone
  · intro h
    cases ht : tokenAt cs with
    | none => rfl
    | some name =>
      obtain ⟨hname, hpre⟩ := isName_of_tokenAt ht
      exact (h name hname hpre).elim

theorem piecesFrom_eq (skip : Nat) (cs : List Char) :
    piecesFrom skip cs = pieces (cs.drop skip) := by
  induction cs generalizing skip with
  | nil => cases skip <;> rfl
  | cons c cs ih =>
    cases skip with
    | zero => rfl
    | succ skip => exact ih skip

theorem pieces_tokenText {name : List Char} (h : IsName name) (rest : List Char) :
    pieces (tokenText name ++ rest) = .token name :: pieces rest := by
  have ht := tokenAt_tokenText h rest
  simp only [tokenText, List.cons_append] at ht ⊢
  rw [pieces, piecesFrom, ht]
  simp only [piecesFrom_eq, List.drop_succ_cons]
  rw [List.append_assoc, List.drop_append, List.drop_eq_nil_of_le (Nat.le_add_right _ _),
    List.nil_append, Nat.add_sub_cancel_left]
  rfl

theorem pieces_cons {c : Char} {cs : List Char}
    (h : ∀ name, IsName name → ¬ tokenText name <+: c :: cs) :
    pieces (c :: cs) = .char c :: pieces cs := by
  rw [pieces, piecesFrom, tokenAt_eq_none_iff.mpr h]
  rfl

/-- A text is read as a list of pieces: a token where one starts, else a single character. -/
inductive Reads : List Char → List Piece → Prop
  | nil : Reads [] []
  | token {name rest : List Char} {ps : List Piece} : IsName name → Reads rest ps →
      Reads (tokenText name ++ rest) (.token name :: ps)
  | char {c : Char} {cs : List Char} {ps : List Piece} :
      (∀ name, IsName name → ¬ tokenText name <+: c :: cs) → Reads cs ps →
      Reads (c :: cs) (.char c :: ps)

theorem Reads.pieces_eq {cs : List Char} {ps : List Piece} (h : Reads cs ps) : pieces cs = ps := by
  induction h with
  | nil => rfl
  | token hn _ ih => rw [pieces_tokenText hn, ih]
  | char hc _ ih => rw [pieces_cons hc, ih]

theorem reads_pieces (cs : List Char) : Reads cs (pieces cs) := by
  induction hn : cs.length using Nat.strong_induction_on generalizing cs with
  | h n ih =>
    cases cs with
    | nil => exact .nil
    | cons c cs =>
      by_cases h : ∃ name, IsName name ∧ tokenText name <+: c :: cs
      · obtain ⟨name, hname, rest, hrest⟩ := h
        have hlen := congrArg List.length hrest
        simp only [tokenText, List.length_append, List.length_cons] at hlen hn
        rw [← hrest, pieces_tokenText hname]
        exact .token hname (ih rest.length (by omega) rest rfl)
      · have h' : ∀ name, IsName name → ¬ tokenText name <+: c :: cs :=
          fun name hname hp => h ⟨name, hname, hp⟩
        rw [pieces_cons h']
        exact .char h' (ih cs.length (by simp only [List.length_cons] at hn; omega) cs rfl)

theorem reads_iff {cs : List Char} {ps : List Piece} : Reads cs ps ↔ pieces cs = ps :=
  ⟨Reads.pieces_eq, fun h => h ▸ reads_pieces cs⟩

theorem Reads.isName {cs : List Char} {ps : List Piece} (h : Reads cs ps) {name : List Char}
    (hm : .token name ∈ ps) : IsName name := by
  induction h with
  | nil => exact nomatch hm
  | token hn _ ih =>
    rcases List.mem_cons.mp hm with heq | hm
    · exact Piece.token.inj heq ▸ hn
    · exact ih hm
  | char _ _ ih => exact ih ((List.mem_cons.mp hm).resolve_left nofun)

theorem Reads.text_eq {cs : List Char} {ps : List Piece} (h : Reads cs ps) :
    ps.flatMap Piece.text = cs := by
  induction h with
  | nil => rfl
  | token _ _ ih => rw [List.flatMap_cons, ih]; rfl
  | char _ _ ih => rw [List.flatMap_cons, ih]; rfl

theorem tokenText_inj {name name' : List Char} (h : IsName name) (h' : IsName name')
    {rest : List Char} (hp : tokenText name <+: tokenText name' ++ rest) : name = name' := by
  obtain ⟨tail, htail⟩ := hp
  have heq := congrArg tokenAt htail
  rw [tokenAt_tokenText h, tokenAt_tokenText h'] at heq
  exact Option.some.inj heq

/-- A token occurs behind another one or is that one, since it cannot start inside it. -/
theorem tokenText_infix_tokenText_iff {name name' : List Char} (h : IsName name)
    (h' : IsName name') (rest : List Char) :
    tokenText name <:+: tokenText name' ++ rest ↔ name = name' ∨ tokenText name <:+: rest := by
  constructor
  · intro hi
    rcases List.infix_cons_iff.mp hi with hp | hi
    · exact .inl (tokenText_inj h h' hp)
    rcases List.infix_cons_iff.mp hi with hp | hi
    · obtain ⟨w, ws, rfl⟩ := List.exists_cons_of_ne_nil h'.1
      simp only [tokenText, List.cons_append, List.append_eq, List.cons_prefix_cons] at hp
      exact (h'.openBrace_notMem (hp.2.1 ▸ List.mem_cons_self)).elim
    · have hnot : '\x7b' ∉ name' ++ ['\x7d', '\x7d'] := by
        simpa using h'.openBrace_notMem
      exact .inr ((Text.infix_append_of_head_notMem hnot).mp hi)
  · rintro (rfl | hi)
    · exact (List.prefix_append _ _).isInfix
    · exact List.infix_append_of_infix_right hi

theorem Reads.token_mem_iff {cs : List Char} {ps : List Piece} (h : Reads cs ps)
    {name : List Char} (hname : IsName name) :
    .token name ∈ ps ↔ tokenText name <:+: cs := by
  induction h with
  | nil => simp [tokenText]
  | token hn _ ih =>
    rw [List.mem_cons, tokenText_infix_tokenText_iff hname hn, ih, Piece.token.injEq]
  | char hc _ ih =>
    rw [List.mem_cons, List.infix_cons_iff, ih]
    constructor
    · rintro (h | h)
      · exact nomatch h
      · exact .inr h
    · rintro (h | h)
      · exact (hc name hname h).elim
      · exact .inr h

theorem mem_tokens {name text : String} :
    name ∈ tokens text ↔ .token name.toList ∈ pieces text.toList := by
  unfold tokens
  rw [List.mem_filterMap]
  constructor
  · rintro ⟨p, hp, hname⟩
    cases p with
    | char c => exact nomatch hname
    | token w =>
      obtain rfl := Option.some.inj hname
      rwa [String.toList_ofList]
  · intro hp
    exact ⟨.token name.toList, hp, congrArg some String.ofList_toList⟩

theorem isName_of_mem_tokens {name text : String} (h : name ∈ tokens text) : IsName name.toList :=
  (reads_pieces text.toList).isName (mem_tokens.mp h)

theorem mem_tokens_iff {name text : String} :
    name ∈ tokens text ↔ IsName name.toList ∧ tokenText name.toList <:+: text.toList := by
  constructor
  · intro h
    have hname := isName_of_mem_tokens h
    exact ⟨hname, ((reads_pieces text.toList).token_mem_iff hname).mp (mem_tokens.mp h)⟩
  · rintro ⟨hname, hi⟩
    exact mem_tokens.mpr (((reads_pieces text.toList).token_mem_iff hname).mpr hi)

@[simp] theorem mem_names {name text : String} : name ∈ names text ↔ name ∈ tokens text :=
  Text.mem_nameSet

end PromptRunner.Template
