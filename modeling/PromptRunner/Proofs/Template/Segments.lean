import PromptRunner.Proofs.NameSet
import PromptRunner.Proofs.Prompt.References

/-!
# Texts cut at their tokens

A text is made of literal texts with a token between each two of them. It can be cut in this way in
exactly one way, since no token reaches into another one, and filling a text puts a value in place
of each token of the cut. The names of a text are those of all tokens that occur in it, wherever
they stand.
-/

namespace PromptRunner.Template

/-- A text in which no token stands. -/
def IsLiteral (cs : List Char) : Prop :=
  ∀ name, IsName name → ¬ tokenText name <:+: cs

/-- No token that starts before a text reaches into it. -/
def StartsApart (cs : List Char) : Prop :=
  ∀ name front back, IsName name → tokenText name = front ++ back → front ≠ [] → back <+: cs →
    back = []

variable {cs xs ys name : List Char} {ps qs : List Piece} {lookup : String → Option String}

theorem startsApart_cons {c : Char} (h : ∀ name, IsName name → c ∉ tokenText name)
    (cs : List Char) : StartsApart (c :: cs) := by
  intro name front back hname htext _ hback
  cases back with
  | nil => rfl
  | cons d back =>
    have hd : d = c := (List.cons_prefix_cons.mp hback).1
    have hmem : c ∈ tokenText name := by simp [htext, hd]
    exact absurd hmem (h name hname)

/-- The only opening braces of a token are the two that it starts with. -/
theorem front_of_openBrace {front back : List Char} (h : IsName name)
    (htext : tokenText name = front ++ '\x7b' :: back) :
    front = [] ∨ back = name ++ ['\x7d', '\x7d'] := by
  cases front with
  | nil => exact .inl rfl
  | cons e front =>
    have htail : '\x7b' :: (name ++ ['\x7d', '\x7d']) = front ++ '\x7b' :: back :=
      (List.cons.inj htext).2
    cases front with
    | nil => exact .inr (List.cons.inj htail).2.symm
    | cons e front =>
      have hrest : name ++ ['\x7d', '\x7d'] = front ++ '\x7b' :: back := (List.cons.inj htail).2
      have hmem : '\x7b' ∈ name ++ ['\x7d', '\x7d'] := by simp [hrest]
      simp [h.openBrace_notMem] at hmem

theorem startsApart_tokenText (name cs : List Char) : StartsApart (tokenText name ++ cs) := by
  intro name' front back hname' htext hfront hback
  cases back with
  | nil => rfl
  | cons d back =>
    obtain ⟨hd, htail⟩ := List.cons_prefix_cons.mp hback
    subst hd
    -- the name of the one token would start with the second brace of the other
    have hrest := (front_of_openBrace hname' htext).resolve_left hfront
    obtain ⟨w, ws, rfl⟩ := List.exists_cons_of_ne_nil hname'.1
    rw [hrest] at htail
    have hw : w = '\x7b' := (List.cons_prefix_cons.mp htail).1
    have hmem : '\x7b' ∈ w :: ws := by simp [hw]
    exact absurd hmem hname'.openBrace_notMem

/-- A text is read up to a place and from there on, if no token reaches across the place. -/
theorem Reads.append (hx : Reads xs ps) (hy : Reads ys qs) (hapart : StartsApart ys) :
    Reads (xs ++ ys) (ps ++ qs) := by
  induction hx with
  | nil => exact hy
  | token hname _ ih =>
    rw [List.append_assoc]
    exact .token hname ih
  | @char c xs ps hnone _ ih =>
    apply Reads.char _ ih
    intro name hname hp
    have hp' : tokenText name <+: (c :: xs) ++ ys := hp
    rcases List.prefix_or_prefix_of_prefix hp' (List.prefix_append _ _) with h | ⟨back, hback⟩
    · exact hnone name hname h
    · rw [← hback] at hp'
      have hnil := hapart name _ back hname hback.symm (List.cons_ne_nil c xs)
        ((List.prefix_append_right_inj _).mp hp')
      rw [hnil, List.append_nil] at hback
      exact hnone name hname (hback ▸ List.prefix_refl _)

theorem pieces_append (xs : List Char) (h : StartsApart ys) :
    pieces (xs ++ ys) = pieces xs ++ pieces ys :=
  ((reads_pieces xs).append (reads_pieces ys) h).pieces_eq

theorem isLiteral_nil : IsLiteral [] :=
  fun name _ h => tokenText_ne_nil name (List.infix_nil.mp h)

theorem IsLiteral.cons {c : Char} (h : IsLiteral cs)
    (hc : ∀ name, IsName name → ¬ tokenText name <+: c :: cs) : IsLiteral (c :: cs) := by
  intro name hname hi
  rcases List.infix_cons_iff.mp hi with hp | hi
  · exact hc name hname hp
  · exact h name hname hi

theorem IsLiteral.reads (h : IsLiteral cs) : Reads cs (cs.map .char) := by
  induction cs with
  | nil => exact .nil
  | cons c cs ih =>
    apply Reads.char
    · intro name hname hp
      exact h name hname hp.isInfix
    · apply ih
      intro name hname hi
      exact h name hname (List.infix_cons_iff.mpr (.inr hi))

theorem pieces_of_isLiteral (h : IsLiteral cs) : pieces cs = cs.map .char :=
  h.reads.pieces_eq

/-- A text cut at its tokens: literal texts with a token between each two of them. -/
inductive Segments where
  | last (literal : List Char) (isLiteral : IsLiteral literal)
  | token (literal name : List Char) (isLiteral : IsLiteral literal) (isName : IsName name)
      (rest : Segments)

namespace Segments

def chars : Segments → List Char
  | .last literal _ => literal
  | .token literal name _ _ rest => literal ++ (tokenText name ++ rest.chars)

/-- The characters with the value of each bound name in place of its token. -/
def filledChars (lookup : String → Option String) : Segments → List Char
  | .last literal _ => literal
  | .token literal name _ _ rest =>
    match lookup (String.ofList name) with
    | some value => literal ++ (value.toList ++ rest.filledChars lookup)
    | none => literal ++ (tokenText name ++ rest.filledChars lookup)

def text (s : Segments) : String :=
  String.ofList s.chars

def fill (lookup : String → Option String) (s : Segments) : String :=
  String.ofList (s.filledChars lookup)

def pieces : Segments → List Piece
  | .last literal _ => literal.map .char
  | .token literal name _ _ rest => literal.map .char ++ .token name :: rest.pieces

theorem reads (s : Segments) : Reads s.chars s.pieces := by
  induction s with
  | last literal hliteral => exact hliteral.reads
  | token literal name hliteral hname rest ih =>
    exact hliteral.reads.append (.token hname ih) (startsApart_tokenText name _)

theorem pieces_fill (lookup : String → Option String) (s : Segments) :
    s.pieces.flatMap (Piece.fill lookup) = s.filledChars lookup := by
  have hliteral (cs : List Char) : (cs.map Piece.char).flatMap (Piece.fill lookup) = cs := by
    rw [List.flatMap_map]
    exact List.flatMap_singleton' cs
  induction s with
  | last literal _ => exact hliteral literal
  | token literal name _ _ rest ih =>
    rw [pieces, List.flatMap_append, List.flatMap_cons, hliteral, ih, filledChars]
    cases h : lookup (String.ofList name) with
    | some value => simp only [Piece.fill, h]
    | none => simp only [Piece.fill, h]

/-- The first token of a list of pieces is where its leading characters end. -/
theorem token_after_chars_inj {n n' : List Char}
    (h : xs.map Piece.char ++ .token n :: ps = ys.map Piece.char ++ .token n' :: qs) :
    xs = ys ∧ n = n' ∧ ps = qs := by
  induction xs generalizing ys with
  | nil => cases ys <;> simp_all
  | cons x xs ih =>
    cases ys with
    | nil => simp at h
    | cons y ys =>
      simp only [List.map_cons, List.cons_append, List.cons.injEq, Piece.char.injEq] at h
      have htail := ih h.2
      simp [h.1, htail]

theorem token_notMem_chars (n cs : List Char) : .token n ∉ cs.map Piece.char := by
  simp

theorem pieces_injective : Function.Injective pieces := by
  intro s t h
  induction s generalizing t with
  | last literal _ =>
    cases t with
    | last literal' _ =>
      have hsame : literal = literal' := by
        simpa [pieces, List.map_inj_right] using h
      subst hsame
      rfl
    | token literal' name' _ _ rest' =>
      have hmem : .token name' ∈ literal.map Piece.char := by
        rw [pieces, pieces] at h
        simp [h]
      exact absurd hmem (token_notMem_chars name' literal)
  | token literal name _ _ rest ih =>
    cases t with
    | last literal' _ =>
      have hmem : .token name ∈ literal'.map Piece.char := by
        rw [pieces, pieces] at h
        simp [← h]
      exact absurd hmem (token_notMem_chars name literal')
    | token literal' name' _ _ rest' =>
      obtain ⟨rfl, rfl, hrest⟩ := token_after_chars_inj h
      rw [ih hrest]

theorem exists_of_reads (h : Reads cs ps) : ∃ s : Segments, s.chars = cs := by
  induction h with
  | nil => exact ⟨.last [] isLiteral_nil, rfl⟩
  | @token name _ _ hname _ ih =>
    obtain ⟨s, hs⟩ := ih
    exact ⟨.token [] name isLiteral_nil hname s, by simp [chars, hs]⟩
  | @char c cs _ hnone _ ih =>
    obtain ⟨s, rfl⟩ := ih
    cases s with
    | last literal hliteral => exact ⟨.last (c :: literal) (hliteral.cons hnone), rfl⟩
    | token literal name hliteral hname rest =>
      have hcons : IsLiteral (c :: literal) := by
        apply hliteral.cons
        intro name' hname' hp
        exact hnone name' hname' (hp.trans (List.prefix_append (c :: literal) _))
      exact ⟨.token (c :: literal) name hcons hname rest, rfl⟩

theorem text_bijective : Function.Bijective text := by
  constructor
  · intro s t h
    apply pieces_injective
    calc
      s.pieces = Template.pieces s.chars := s.reads.pieces_eq.symm
      _ = Template.pieces t.chars := by rw [String.ofList_injective h]
      _ = t.pieces := t.reads.pieces_eq
  · intro text
    obtain ⟨s, hs⟩ := exists_of_reads (reads_pieces text.toList)
    exact ⟨s, by rw [Segments.text, hs, String.ofList_toList]⟩

end Segments

theorem tokenText_infix_toList_iff {text w : String} :
    tokenText w.toList <:+: text.toList ↔
      ∃ pre post : String, text = pre ++ "\x7b\x7b" ++ w ++ "\x7d\x7d" ++ post := by
  constructor
  · rintro ⟨pre, post, h⟩
    refine ⟨String.ofList pre, String.ofList post, ?_⟩
    rw [← String.toList_inj, ← h]
    simp [tokenText]
  · rintro ⟨pre, post, rfl⟩
    exact ⟨pre.toList, post.toList, by simp [tokenText]⟩

/-- Filling is one pass over the tokens of a text. Every text is made of literal texts, in which no
token stands, and of tokens between them, in exactly one way; filling it puts the value of each
bound name, as it is, in place of its token and leaves the literal texts and the other tokens as
they stand. Nothing is changed if no name is bound. -/
theorem fill_is_one_pass :
    Function.Bijective Segments.text ∧
      (∀ (lookup : String → Option String) (s : Segments),
        fill lookup s.text = s.fill lookup) ∧
      ∀ text : String, fill (fun _ => none) text = text := by
  refine ⟨Segments.text_bijective, ?_, fill_none⟩
  intro lookup s
  rw [fill, Segments.text, String.toList_ofList, s.reads.pieces_eq, s.pieces_fill]
  rfl

/-- The names of a text are, in increasing order, those whose tokens occur anywhere in it: a token
is hidden neither by one before it nor by the braces around it. -/
theorem names_are_those_that_occur (text : String) :
    (names text).Pairwise (· < ·) ∧
      ∀ w : String, w ∈ names text ↔
        w ≠ "" ∧ (∀ c ∈ w.toList, Text.isWord c = true) ∧
          ∃ pre post : String, text = pre ++ "\x7b\x7b" ++ w ++ "\x7d\x7d" ++ post := by
  refine ⟨Text.pairwise_nameSet _, ?_⟩
  intro w
  have hname : IsName w.toList ↔ w ≠ "" ∧ ∀ c ∈ w.toList, Text.isWord c = true := by
    rw [IsName, ne_eq, String.toList_eq_nil_iff]
  rw [mem_names, mem_tokens_iff, hname, and_assoc, tokenText_infix_toList_iff]

end PromptRunner.Template
