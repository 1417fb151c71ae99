import PromptRunner.Invocation
import PromptRunner.Proofs.Prompt.Flattening
import PromptRunner.Proofs.Template.Segments

/-!
# The text of a filled body

A body may be filled text by text and flattened then, or flattened first and filled as one text. No
token reaches across a line feed or stands in a scalar, so both come to the same, unless a text
disappears that consists of tokens with empty values: the one way leaves it out, the other keeps an
empty line.
-/

namespace PromptRunner

variable {lookup : String → Option String}

namespace Template

variable {cs ys sep : List Char} {texts : List (List Char)}

/-- The characters of a text with every bound token replaced by its value. -/
def fillChars (lookup : String → Option String) (cs : List Char) : List Char :=
  (pieces cs).flatMap (Piece.fill lookup)

theorem toList_fill (text : String) : (fill lookup text).toList = fillChars lookup text.toList :=
  String.toList_ofList

theorem fillChars_append (xs : List Char) (h : StartsApart ys) :
    fillChars lookup (xs ++ ys) = fillChars lookup xs ++ fillChars lookup ys := by
  simp only [fillChars, pieces_append xs h, List.flatMap_append]

theorem fillChars_of_isLiteral (h : IsLiteral cs) : fillChars lookup cs = cs := by
  rw [fillChars, pieces_of_isLiteral h, List.flatMap_map]
  exact List.flatMap_singleton' cs

theorem fillChars_lineFeed (cs : List Char) :
    fillChars lookup ('\n' :: cs) = '\n' :: fillChars lookup cs := by
  have hnone : ∀ name, IsName name → ¬ tokenText name <+: '\n' :: cs := by
    intro name _ hp
    have hbrace : '\x7b' = '\n' := (List.cons_prefix_cons.mp hp).1
    exact absurd hbrace (by decide)
  simp only [fillChars, pieces_cons hnone, List.flatMap_cons, Piece.fill, List.singleton_append]

theorem fillChars_separator (hsep : ∀ c ∈ sep, c = '\n') (cs : List Char) :
    fillChars lookup (sep ++ cs) = sep ++ fillChars lookup cs := by
  induction sep with
  | nil => rfl
  | cons c sep ih =>
    have hc : c = '\n' := hsep c List.mem_cons_self
    have hrest := ih fun d hd => hsep d (List.mem_cons_of_mem c hd)
    rw [hc, List.cons_append, fillChars_lineFeed, hrest, List.cons_append]

theorem startsApart_separator (hne : sep ≠ []) (hsep : ∀ c ∈ sep, c = '\n') (cs : List Char) :
    StartsApart (sep ++ cs) := by
  obtain ⟨c, sep, rfl⟩ := List.exists_cons_of_ne_nil hne
  have hc : c = '\n' := hsep c List.mem_cons_self
  subst hc
  exact startsApart_cons (fun name hname => hname.lineFeed_notMem) _

theorem fillChars_intercalate (hne : sep ≠ []) (hsep : ∀ c ∈ sep, c = '\n')
    (texts : List (List Char)) :
    fillChars lookup (sep.intercalate texts) = sep.intercalate (texts.map (fillChars lookup)) := by
  induction texts with
  | nil => rfl
  | cons xs texts ih =>
    cases texts with
    | nil => simp
    | cons ys texts =>
      have hapart := startsApart_separator hne hsep (sep.intercalate (ys :: texts))
      rw [List.intercalate_cons_cons, List.append_assoc, fillChars_append xs hapart,
        fillChars_separator hsep, ih]
      simp only [List.map_cons, List.intercalate_cons_cons, List.append_assoc]

/-- Nothing but the empty text is filled up to the empty text, if no token has an empty value. -/
theorem fillChars_eq_nil_iff
    (h : ∀ name, .token name ∈ pieces cs → lookup (String.ofList name) ≠ some "") :
    fillChars lookup cs = [] ↔ cs = [] := by
  have hpiece : ∀ p ∈ pieces cs, p.fill lookup ≠ [] := by
    intro p hp
    cases p with
    | char c => exact List.cons_ne_nil c []
    | token name =>
      have hname := h name hp
      cases hvalue : lookup (String.ofList name) with
      | none =>
        rw [fill_unbound hvalue]
        exact tokenText_ne_nil name
      | some value =>
        rw [hvalue] at hname
        rw [fill_bound hvalue]
        simpa using hname
  constructor
  · intro hnil
    have hnone : pieces cs = [] := by
      rw [fillChars, List.flatMap_eq_nil_iff] at hnil
      apply List.eq_nil_iff_forall_not_mem.mpr
      intro p hp
      exact hpiece p hp (hnil p hp)
    have htext := (reads_pieces cs).text_eq
    rw [hnone] at htext
    exact htext.symm
  · rintro rfl
    rfl

end Template

open Template (fillChars)

namespace Content

/-- Texts that stay empty or not empty are left out or kept alike before and after they are
filled. -/
theorem fillChars_joinLines {texts : List (List Char)}
    (h : ∀ cs ∈ texts, fillChars lookup cs = [] ↔ cs = []) :
    fillChars lookup (joinLines texts) = joinLines (texts.map (fillChars lookup)) := by
  have hkept : (texts.map (fillChars lookup)).filter (fun t => !t.isEmpty) =
      (texts.filter fun t => !t.isEmpty).map (fillChars lookup) := by
    rw [List.filter_map]
    congr 1
    apply List.filter_congr
    intro cs hcs
    have hiff := h cs hcs
    cases hfilled : fillChars lookup cs <;> cases cs <;> simp_all
  rw [joinLines, Template.fillChars_intercalate (List.cons_ne_nil _ _) (by simp), joinLines, hkept]

theorem fillChars_chars_eq_nil_iff {c : Content} (hc : c.WithPlainScalars)
    (h : ∀ name ∈ c.tokens, lookup name ≠ some "") :
    fillChars lookup c.chars = [] ↔ c.chars = [] := by
  apply Template.fillChars_eq_nil_iff
  intro name hm
  have hname : String.ofList name ∈ Template.names c.toText := by
    rw [Template.mem_names, Template.mem_tokens, toText, String.toList_ofList, String.toList_ofList]
    exact hm
  rw [← names_toText hc] at hname
  exact h _ (Text.mem_nameSet.mp hname)

theorem joinLines_fill {parts : List Content} (hparts : ∀ c ∈ parts, c.WithPlainScalars)
    (h : ∀ c ∈ parts, ∀ name ∈ c.tokens, lookup name ≠ some "")
    (hfill : ∀ c ∈ parts, (c.fill lookup).chars = fillChars lookup c.chars) :
    joinLines (parts.map fun c => (c.fill lookup).chars) =
      fillChars lookup (joinLines (parts.map chars)) := by
  have hkept : ∀ cs ∈ parts.map chars, fillChars lookup cs = [] ↔ cs = [] := by
    rw [List.forall_mem_map]
    exact fun c hc => fillChars_chars_eq_nil_iff (hparts c hc) (h c hc)
  rw [fillChars_joinLines hkept, List.map_map]
  congr 1
  exact List.map_congr_left hfill

theorem chars_fill {c : Content} (hc : c.WithPlainScalars)
    (h : ∀ name ∈ c.tokens, lookup name ≠ some "") :
    (c.fill lookup).chars = fillChars lookup c.chars := by
  induction hc with
  | text s => exact Template.toList_fill s
  | @list items hitems ih =>
    have hitem : ∀ c ∈ items, ∀ name ∈ c.tokens, lookup name ≠ some "" := by
      intro c hc name hname
      exact h name (mem_tokens_list hc hname)
    have hlines := joinLines_fill hitems hitem fun c hc => ih c hc (hitem c hc)
    simpa [fill, chars, fillItems_eq, itemChars_eq, Function.comp_def] using hlines
  | @map entries hentries ih =>
    have hentry : ∀ e ∈ entries, ∀ name ∈ e.2.tokens, lookup name ≠ some "" := by
      intro e he name hname
      exact h name (mem_tokens_map he hname)
    have hparts : ∀ c ∈ entries.map Prod.snd, c.WithPlainScalars := List.forall_mem_map.mpr hentries
    have hlines := joinLines_fill hparts (List.forall_mem_map.mpr hentry)
      (List.forall_mem_map.mpr fun e he => ih e he (hentry e he))
    simpa [fill, chars, fillEntries_eq, entryChars_eq, Function.comp_def] using hlines
  | @other v hv =>
    have hliteral : Template.IsLiteral v.plainText.toList :=
      fun _ _ => Template.not_tokenText_infix hv.openBrace_notMem
    exact (Template.fillChars_of_isLiteral hliteral).symm

end Content

theorem Body.chars_fill {b : Body} (hb : b.WithPlainScalars)
    (h : ∀ name ∈ b.names, lookup name ≠ some "") :
    (b.fill lookup).chars = fillChars lookup b.chars := by
  cases b with
  | flat text => exact Template.toList_fill text
  | messages ms =>
    have hcontent : ∀ m ∈ ms, (m.content.fill lookup).chars = fillChars lookup m.content.chars := by
      intro m hm
      apply Content.chars_fill (hb m hm)
      intro name hname
      apply h
      rw [names, Text.mem_nameSet, tokens]
      exact List.mem_flatMap.mpr ⟨m, hm, hname⟩
    rw [fill, chars, chars, Template.fillChars_intercalate (List.cons_ne_nil _ _) (by simp),
      List.map_map, List.map_map]
    congr 1
    exact List.map_congr_left hcontent

/-- Filling a prompt that is read and flattening it may change places: if no name of it has an empty
value, the text of the filled body is the filled text of the body. So the prompt is filled as the
text document with the same text is. -/
theorem Prompt.filling_commutes_with_flattening {format : Format} {path content : String}
    {p : Prompt} (h : Prompt.parse format path content = .ok p) (vars : Bindings)
    (hvalues : ∀ name ∈ p.names, vars.find? name ≠ some "") :
    (p.body.fill vars.find?).toText = Template.fill vars.find? p.body.toText ∧
      ∀ (metadata : Metadata) (warnings : List Warning),
        Invocation.textOf p vars =
          Invocation.textOf ⟨metadata, .flat p.body.toText, warnings⟩ vars := by
  have hbody := (fromValues_of_parse h).withPlainScalars
  have htext : (p.body.fill vars.find?).toText = Template.fill vars.find? p.body.toText := by
    rw [Body.toText, Body.chars_fill hbody hvalues, Template.fill, Body.toText,
      String.toList_ofList]
    rfl
  refine ⟨htext, ?_⟩
  intro metadata warnings
  rw [Invocation.textOf, htext]
  exact String.ofList_toList.symm

theorem Prompt.filling_commutes_with_flattening_nested :
    ∃ p, Prompt.parse .structured "p.yaml" nestedSource = .ok p ∧
      (∀ name ∈ p.names,
        (Bindings.ofList [("a", "\x7b\x7bb\x7d\x7d")]).find? name ≠ some "") ∧
      (p.body.fill (Bindings.ofList [("a", "\x7b\x7bb\x7d\x7d")]).find?).toText =
        "\x7b\x7bb\x7d\x7d\n\x7b\x7bb\x7d\x7d!" := by
  obtain ⟨p, hparse, hnames, htext⟩ := Prompt.parse_nestedSource
  have hvalues : ∀ name ∈ p.names,
      (Bindings.ofList [("a", "\x7b\x7bb\x7d\x7d")]).find? name ≠ some "" := by
    rw [hnames]
    decide
  have hcommutes := (Prompt.filling_commutes_with_flattening hparse _ hvalues).1
  refine ⟨p, hparse, hvalues, hcommutes.trans ?_⟩
  rw [htext]
  decide

end PromptRunner
