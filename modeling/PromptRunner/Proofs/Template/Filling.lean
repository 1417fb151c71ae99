import Mathlib.Data.List.Chain
import PromptRunner.Proofs.Template.Tokens

/-!
# The tokens of a filled text

A filled text may hold new tokens: a brace may come to stand beside another one where a token
between them is replaced by nothing. This is ruled out if every two adjacent opening braces of the
text belong to a token and no value brings an opening brace along. Then the pieces of the filled
text are those of the text, with the characters of a value in place of each bound token.
-/

namespace PromptRunner.Template

/-- Wherever two opening braces stand side by side, a token starts. -/
def BracesOpenTokens (cs : List Char) : Prop :=
  ∀ pre post, cs = pre ++ '\x7b' :: '\x7b' :: post →
    ∃ name, IsName name ∧ name ++ ['\x7d', '\x7d'] <+: post

def ValuesWithoutBrace (lookup : String → Option String) : Prop :=
  ∀ name value, lookup name = some value → '\x7b' ∉ value.toList

def Piece.Opens : Piece → Prop
  | .char c => c = '\x7b'
  | .token _ => True

/-- The first piece is not a single opening brace with another brace behind it. -/
def Apart (p q : Piece) : Prop :=
  p = .char '\x7b' → ¬ q.Opens

/-- What a piece is read as when it is filled: the characters of its value, or itself. -/
def Piece.refill (lookup : String → Option String) : Piece → List Piece
  | .char c => [.char c]
  | .token name =>
    match lookup (String.ofList name) with
    | some value => value.toList.map .char
    | none => [.token name]

theorem bracesOpenTokens_iff {cs : List Char} : BracesOpenTokens cs ↔
    ∀ rest ∈ cs.tails, ['\x7b', '\x7b'] <+: rest → (tokenAt rest).isSome := by
  constructor
  · rintro h rest hrest ⟨post, rfl⟩
    obtain ⟨pre, hcs⟩ := (List.mem_tails _ _).mp hrest
    obtain ⟨name, hname, hpre⟩ := h pre post hcs.symm
    obtain ⟨behind, htok⟩ := tokenText_prefix_iff.mpr hpre
    have hat := tokenAt_tokenText hname behind
    rw [htok] at hat
    exact Option.isSome_of_eq_some hat
  · intro h pre post hcs
    have hsuffix : '\x7b' :: '\x7b' :: post ∈ cs.tails := by
      rw [List.mem_tails]
      exact ⟨pre, hcs.symm⟩
    obtain ⟨name, hat⟩ := Option.isSome_iff_exists.mp (h _ hsuffix ⟨post, rfl⟩)
    obtain ⟨hname, hpre⟩ := isName_of_tokenAt hat
    exact ⟨name, hname, tokenText_prefix_iff.mp hpre⟩

instance (cs : List Char) : Decidable (BracesOpenTokens cs) :=
  decidable_of_iff _ bracesOpenTokens_iff.symm

variable {lookup : String → Option String} {cs : List Char} {ps : List Piece}

theorem BracesOpenTokens.of_append {xs ys : List Char} (h : BracesOpenTokens (xs ++ ys)) :
    BracesOpenTokens ys := by
  intro pre post hys
  exact h (xs ++ pre) post (by rw [hys, List.append_assoc])

/-- A piece with a text that starts with an opening brace comes first where the text does. -/
theorem head_opens_iff {c : Char} {rest : List Char} (h : ps.flatMap Piece.text = c :: rest) :
    ∃ q qs, ps = q :: qs ∧ (q.Opens ↔ c = '\x7b') := by
  cases ps with
  | nil => exact nomatch h
  | cons q qs =>
    refine ⟨q, qs, rfl, ?_⟩
    cases q with
    | char d =>
      obtain rfl : d = c := (List.cons.inj h).1
      exact Iff.rfl
    | token name =>
      obtain rfl : '\x7b' = c := (List.cons.inj h).1
      exact ⟨fun _ => rfl, fun _ => trivial⟩

theorem Reads.apart (h : Reads cs ps) (hcs : BracesOpenTokens cs) : ps.IsChain Apart := by
  induction h with
  | nil => exact .nil
  | token hn _ ih => exact List.isChain_cons.mpr ⟨fun _ _ => nofun, ih hcs.of_append⟩
  | @char c cs ps hno hr ih =>
    have htail : BracesOpenTokens ([c] ++ cs) := hcs
    refine List.isChain_cons.mpr ⟨?_, ih htail.of_append⟩
    intro q hq heq hopens
    -- a second brace would make a token start at the first one
    obtain rfl := Piece.char.inj heq
    obtain ⟨qs, rfl⟩ := List.head?_eq_some_iff.mp hq
    have htext := hr.text_eq
    cases cs with
    | nil =>
      cases q <;> exact nomatch htext
    | cons d rest =>
      obtain ⟨q', qs', hps, hiff⟩ := head_opens_iff htext
      obtain rfl := (List.cons.inj hps).1
      obtain rfl := hiff.mp hopens
      obtain ⟨name, hname, hpre⟩ := hcs [] rest rfl
      exact hno name hname (tokenText_prefix_iff.mpr hpre)

/-- Pieces that stand apart are read back from their text. -/
theorem reads_of_apart (h : ps.IsChain Apart) (hnames : ∀ name, .token name ∈ ps → IsName name) :
    Reads (ps.flatMap Piece.text) ps := by
  induction ps with
  | nil => exact .nil
  | cons p ps ih =>
    obtain ⟨hhead, htail⟩ := List.isChain_cons.mp h
    have hrest := ih htail fun name hm => hnames name (List.mem_cons_of_mem p hm)
    rw [List.flatMap_cons]
    cases p with
    | token name => exact .token (hnames name List.mem_cons_self) hrest
    | char c =>
      refine .char ?_ hrest
      rintro name - ⟨rest, htok⟩
      obtain ⟨rfl, htext⟩ := List.cons.inj htok
      obtain ⟨q, qs, rfl, hiff⟩ := head_opens_iff htext.symm
      exact hhead q rfl rfl (hiff.mpr rfl)

section Refill
variable {name : List Char} {value : String}

theorem refill_bound (h : lookup (String.ofList name) = some value) :
    (Piece.token name).refill lookup = value.toList.map .char := by
  simp only [Piece.refill, h]

theorem refill_unbound (h : lookup (String.ofList name) = none) :
    (Piece.token name).refill lookup = [.token name] := by
  simp only [Piece.refill, h]

theorem fill_bound (h : lookup (String.ofList name) = some value) :
    (Piece.token name).fill lookup = value.toList := by
  simp only [Piece.fill, h]

theorem fill_unbound (h : lookup (String.ofList name) = none) :
    (Piece.token name).fill lookup = tokenText name := by
  simp only [Piece.fill, h]

end Refill

theorem refill_text (p : Piece) :
    (p.refill lookup).flatMap Piece.text = p.fill lookup := by
  cases p with
  | char c => rfl
  | token name =>
    cases h : lookup (String.ofList name) with
    | none => rw [refill_unbound h, fill_unbound h, List.flatMap_singleton, Piece.text]
    | some value =>
      rw [refill_bound h, fill_bound h, List.flatMap_map]
      exact List.flatMap_singleton' _

theorem refill_fill (p : Piece) :
    (p.refill lookup).flatMap (Piece.fill lookup) = p.fill lookup := by
  cases p with
  | char c => rfl
  | token name =>
    cases h : lookup (String.ofList name) with
    | none => rw [refill_unbound h, List.flatMap_singleton]
    | some value =>
      rw [refill_bound h, fill_bound h, List.flatMap_map]
      exact List.flatMap_singleton' _

theorem refill_name? (p : Piece) :
    (p.refill lookup).filterMap Piece.name? =
      p.name?.toList.filter fun name => (lookup name).isNone := by
  cases p with
  | char c => rfl
  | token name =>
    cases h : lookup (String.ofList name) with
    | none =>
      rw [refill_unbound h]
      simp [Piece.name?, h]
    | some value =>
      rw [refill_bound h]
      simp [Piece.name?, h, Function.comp_def]

theorem refill_ne_brace (hv : ValuesWithoutBrace lookup) {p : Piece} (hp : p ≠ .char '\x7b')
    {q : Piece} (hq : q ∈ p.refill lookup) : q ≠ .char '\x7b' := by
  cases p with
  | char c => exact List.mem_singleton.mp hq ▸ hp
  | token name =>
    cases h : lookup (String.ofList name) with
    | none =>
      rw [refill_unbound h] at hq
      exact List.mem_singleton.mp hq ▸ nofun
    | some value =>
      rw [refill_bound h] at hq
      obtain ⟨c, hc, rfl⟩ := List.mem_map.mp hq
      rintro ⟨⟩
      exact hv _ _ h hc

theorem isChain_apart_of_ne (h : ∀ p ∈ ps, p ≠ .char '\x7b') : ps.IsChain Apart := by
  induction ps with
  | nil => exact .nil
  | cons p ps ih =>
    refine List.isChain_cons.mpr ⟨fun _ _ heq => (h p List.mem_cons_self heq).elim, ?_⟩
    exact ih fun q hq => h q (List.mem_cons_of_mem p hq)

theorem isChain_refill (hv : ValuesWithoutBrace lookup) (h : ps.IsChain Apart) :
    (ps.flatMap (Piece.refill lookup)).IsChain Apart := by
  induction ps with
  | nil => exact .nil
  | cons p ps ih =>
    obtain ⟨hhead, htail⟩ := List.isChain_cons.mp h
    rw [List.flatMap_cons]
    by_cases hp : p = .char '\x7b'
    · subst hp
      refine List.isChain_cons.mpr ⟨?_, ih htail⟩
      intro q hq _
      cases ps with
      | nil => exact nomatch hq
      | cons p' ps =>
        have hp' := hhead p' rfl rfl
        cases p' with
        | token name => exact (hp' trivial).elim
        | char c => exact Option.some.inj hq ▸ hp'
    · have hne : ∀ q ∈ p.refill lookup, q ≠ .char '\x7b' := fun _ hq => refill_ne_brace hv hp hq
      refine List.isChain_append.mpr ⟨isChain_apart_of_ne hne, ih htail, ?_⟩
      intro q hq _ _ heq
      exact (hne q (List.mem_of_getLast? hq) heq).elim

theorem mem_refill_token {p : Piece} {name : List Char}
    (h : .token name ∈ p.refill lookup) : p = .token name := by
  cases p with
  | char c => exact nomatch List.mem_singleton.mp h
  | token name' =>
    cases hl : lookup (String.ofList name') with
    | none =>
      rw [refill_unbound hl] at h
      exact (List.mem_singleton.mp h).symm
    | some value =>
      rw [refill_bound hl] at h
      obtain ⟨_, _, heq⟩ := List.mem_map.mp h
      exact nomatch heq

/-- The pieces of a filled text are the filled pieces of the text. -/
theorem pieces_fill {text : String} (h : BracesOpenTokens text.toList)
    (hv : ValuesWithoutBrace lookup) :
    pieces (fill lookup text).toList = (pieces text.toList).flatMap (Piece.refill lookup) := by
  have hread := reads_pieces text.toList
  have hchain := isChain_refill hv (hread.apart h)
  have hagain := reads_of_apart hchain fun name hm => by
    obtain ⟨p, hp, hpm⟩ := List.mem_flatMap.mp hm
    exact hread.isName (mem_refill_token hpm ▸ hp)
  rw [List.flatMap_assoc] at hagain
  simp only [refill_text] at hagain
  rw [fill, String.toList_ofList]
  exact hagain.pieces_eq

theorem tokens_fill {text : String} (h : BracesOpenTokens text.toList)
    (hv : ValuesWithoutBrace lookup) :
    tokens (fill lookup text) = (tokens text).filter fun name => (lookup name).isNone := by
  unfold tokens
  rw [pieces_fill h hv]
  induction pieces text.toList with
  | nil => rfl
  | cons p ps ih =>
    rw [List.flatMap_cons, List.filterMap_append, refill_name?, ih]
    cases hp : p.name? with
    | none =>
      rw [List.filterMap_cons_none hp]
      rfl
    | some name =>
      rw [List.filterMap_cons_some hp, ← List.filter_append]
      rfl

theorem fill_fill {text : String} (h : BracesOpenTokens text.toList)
    (hv : ValuesWithoutBrace lookup) : fill lookup (fill lookup text) = fill lookup text := by
  conv_lhs => rw [fill, pieces_fill h hv, List.flatMap_assoc]
  simp only [refill_fill]
  rfl

end PromptRunner.Template
