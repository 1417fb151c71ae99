import Mathlib
import PromptRunner.Proofs.NameSet
import PromptRunner.Proofs.Prompt.Parsing

/-!
# The tokens of a flattened body

The text of a body joins the texts inside it by line feeds, leaves empty ones out and writes scalars
between them. No token reaches across a line feed and none stands in a scalar. So the text refers to
exactly the names that the texts inside the body refer to.
-/

namespace PromptRunner

open Template (IsName tokenText)

namespace Template

theorem IsName.lineFeed_notMem {name : List Char} (h : IsName name) : '\n' ∉ tokenText name := by
  rw [mem_tokenText]
  rintro (hb | hm | hb)
  · exact absurd hb (by decide)
  · exact absurd (h.2 _ hm) (by decide)
  · exact absurd hb (by decide)

theorem not_tokenText_infix {name cs : List Char} (h : '\x7b' ∉ cs) : ¬ tokenText name <:+: cs :=
  fun hi => h (hi.subset List.mem_cons_self)

theorem tokenText_infix_intercalate_iff {name sep : List Char} (h : IsName name) (hne : sep ≠ [])
    (hsep : ∀ c ∈ sep, c = '\n') (texts : List (List Char)) :
    tokenText name <:+: sep.intercalate texts ↔ ∃ cs ∈ texts, tokenText name <:+: cs :=
  Text.infix_intercalate_iff (tokenText_ne_nil name) hne
    (fun c hc => hsep c hc ▸ h.lineFeed_notMem) texts

/-- Names that are collected from texts are those of a joined text if a token stands in the joined
text exactly where it stands in one of the texts. -/
theorem names_eq_of_texts {HasText : String → Prop} {collected : List String} {joined : String}
    (hcollected : ∀ name, name ∈ collected ↔ ∃ s, HasText s ∧ name ∈ tokens s)
    (hjoined : ∀ name, IsName name →
      (tokenText name <:+: joined.toList ↔ ∃ s, HasText s ∧ tokenText name <:+: s.toList)) :
    Text.nameSet collected = names joined := by
  refine Text.nameSet_eq_of_mem_iff (Text.pairwise_nameSet _) fun name => ?_
  rw [hcollected, mem_names, mem_tokens_iff]
  constructor
  · rintro ⟨s, hs, hn⟩
    obtain ⟨hname, hi⟩ := mem_tokens_iff.mp hn
    exact ⟨hname, (hjoined _ hname).mpr ⟨s, hs, hi⟩⟩
  · rintro ⟨hname, hi⟩
    obtain ⟨s, hs, hi⟩ := (hjoined _ hname).mp hi
    exact ⟨s, hs, mem_tokens_iff.mpr ⟨hname, hi⟩⟩

end Template

namespace Content

/-- Empty texts hold no token, so none is lost with them. -/
theorem tokenText_infix_joinLines_iff {name : List Char} (h : IsName name)
    (texts : List (List Char)) :
    tokenText name <:+: joinLines texts ↔ ∃ cs ∈ texts, tokenText name <:+: cs := by
  rw [joinLines, Template.tokenText_infix_intercalate_iff h (List.cons_ne_nil _ _) (by simp)]
  constructor
  · rintro ⟨cs, hcs, hi⟩
    exact ⟨cs, (List.mem_filter.mp hcs).1, hi⟩
  · rintro ⟨cs, hcs, hi⟩
    refine ⟨cs, List.mem_filter.mpr ⟨hcs, ?_⟩, hi⟩
    cases cs with
    | nil => exact (Template.tokenText_ne_nil name (List.infix_nil.mp hi)).elim
    | cons c cs => rfl

theorem tokenText_infix_chars_iff {c : Content} (hc : c.WithPlainScalars) {name : List Char}
    (h : IsName name) :
    tokenText name <:+: c.chars ↔ ∃ s, c.HasText s ∧ tokenText name <:+: s.toList := by
  induction hc with
  | text s => simp [chars]
  | list _ ih =>
    rw [chars, itemChars_eq, tokenText_infix_joinLines_iff h, exists_hasText_list]
    simp only [List.mem_map, exists_exists_and_eq_and]
    exact exists_congr fun c => and_congr_right fun hc => ih c hc
  | map _ ih =>
    rw [chars, entryChars_eq, tokenText_infix_joinLines_iff h, exists_hasText_map]
    simp only [List.mem_map, exists_exists_and_eq_and]
    exact exists_congr fun e => and_congr_right fun he => ih e he
  | other hv =>
    constructor
    · exact fun hi => (Template.not_tokenText_infix hv.openBrace_notMem hi).elim
    · rintro ⟨s, hs, _⟩
      exact (not_hasText_other hs).elim

theorem names_toText {c : Content} (hc : c.WithPlainScalars) :
    c.names = Template.names c.toText := by
  refine Template.names_eq_of_texts (fun _ => c.mem_tokens_iff) fun name hname => ?_
  rw [toText, String.toList_ofList]
  exact tokenText_infix_chars_iff hc hname

end Content

namespace Body

theorem tokenText_infix_chars_iff {b : Body} (hb : b.WithPlainScalars) {name : List Char}
    (h : IsName name) :
    tokenText name <:+: b.chars ↔ ∃ s, b.HasText s ∧ tokenText name <:+: s.toList := by
  cases b with
  | flat text => simp [chars, HasText]
  | messages ms =>
    rw [chars, Template.tokenText_infix_intercalate_iff h (List.cons_ne_nil _ _) (by simp)]
    constructor
    · rintro ⟨cs, hcs, hi⟩
      obtain ⟨m, hm, rfl⟩ := List.mem_map.mp hcs
      obtain ⟨s, hs, hi⟩ := (Content.tokenText_infix_chars_iff (hb m hm) h).mp hi
      exact ⟨s, ⟨m, hm, hs⟩, hi⟩
    · rintro ⟨s, ⟨m, hm, hs⟩, hi⟩
      have hchars := (Content.tokenText_infix_chars_iff (hb m hm) h).mpr ⟨s, hs, hi⟩
      exact ⟨m.content.chars, List.mem_map.mpr ⟨m, hm, rfl⟩, hchars⟩

theorem names_toText {b : Body} (hb : b.WithPlainScalars) :
    b.names = Template.names b.toText := by
  refine Template.names_eq_of_texts (fun _ => b.mem_tokens_iff) fun name hname => ?_
  rw [toText, String.toList_ofList]
  exact tokenText_infix_chars_iff hb hname

end Body

/-- Flattening neither hides a token nor creates one: the names of the content of a value are those
that its text refers to, and those that the texts in the value refer to. So the text of every prompt
that is read refers to exactly the variables that the prompt needs. -/
theorem Prompt.flattening_keeps_names :
    (∀ v : Yaml.Value, (Content.ofValue v).names = Template.names (Content.ofValue v).toText ∧
      ∀ name, name ∈ (Content.ofValue v).names ↔ ∃ s, v.HasText s ∧ name ∈ Template.names s) ∧
    ∀ (format : Format) (path content : String) (p : Prompt),
      Prompt.parse format path content = .ok p → p.names = Template.names p.body.toText := by
  constructor
  · intro v
    have hv := Content.withPlainScalars_ofValue v
    refine ⟨Content.names_toText hv, fun name => ?_⟩
    rw [Content.names, Text.mem_nameSet, Content.mem_tokens_iff]
    simp only [Content.hasText_ofValue, Template.mem_names]
  · intro format path content p h
    exact Body.names_toText (fromValues_of_parse h).withPlainScalars

/-- A structured document whose message nests a list with an item that stands for nothing. -/
def Prompt.nestedSource : String :=
  "messages:\n- role: u\n  content: [[\"\x7b\x7ba\x7d\x7d\", ~], \"\x7b\x7bb\x7d\x7d!\"]\n"

def Prompt.nestedDocument : Yaml.Document :=
  .ofRoot (some (.mapping {} [(.scalar {} "messages".toList .plain, .sequence {} [
    .mapping {} [(.scalar {} "role".toList .plain, .scalar {} "u".toList .plain),
      (.scalar {} "content".toList .plain, .sequence {} [
        .sequence {} [.scalar {} "\x7b\x7ba\x7d\x7d".toList .quoted, .scalar {} ['~'] .plain],
        .scalar {} "\x7b\x7bb\x7d\x7d!".toList .quoted])]])]))

theorem Prompt.parse_nestedSource :
    ∃ p, Prompt.parse .structured "p.yaml" nestedSource = .ok p ∧ p.names = ["a", "b"] ∧
      p.body.toText = "\x7b\x7ba\x7d\x7d\n\x7b\x7bb\x7d\x7d!" := by
  have hdocument : Yaml.Document.ofText? nestedSource = some nestedDocument := by cbv
  have hbody : (nestedDocument.decode (decodeStructured nestedDocument)).map
      (fun r => ((Body.messages r.2).names, (Body.messages r.2).toText)) =
      some (["a", "b"], "\x7b\x7ba\x7d\x7d\n\x7b\x7bb\x7d\x7d!") := by decide +kernel
  obtain ⟨⟨metadata, messages⟩, hdecode, hread⟩ := Option.map_eq_some_iff.mp hbody
  obtain ⟨hnames, htext⟩ := Prod.mk.inj hread
  refine ⟨{ metadata, body := .messages messages }, ?_, hnames, htext⟩
  rw [parse, ofStructuredDocument, hdocument, Option.bind_some, hdecode]

theorem Prompt.flattening_keeps_names_nested :
    ∃ p, Prompt.parse .structured "p.yaml" nestedSource = .ok p ∧ p.names = ["a", "b"] ∧
      Template.names p.body.toText = ["a", "b"] := by
  obtain ⟨p, hparse, hnames, -⟩ := Prompt.parse_nestedSource
  exact ⟨p, hparse, hnames, Prompt.flattening_keeps_names.2 _ _ _ _ hparse ▸ hnames⟩

end PromptRunner
