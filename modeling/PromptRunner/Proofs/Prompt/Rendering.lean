import PromptRunner.Proofs.Preparation
import PromptRunner.Proofs.Prompt.Flattening

/-!
# Filled bodies

Filling a body takes away its bound names and no others, provided that in each of its texts adjacent
opening braces belong to a token and that no value holds an opening brace. It is enough to look at
the texts one by one: flattening creates no token, so none can arise between two of them.
-/

namespace PromptRunner

open Template (BracesOpenTokens IsName ValuesWithoutBrace tokenText)

/-- Bindings bring no opening brace along if none of their values holds one. -/
theorem Bindings.valuesWithoutBrace {b : Bindings} (h : ∀ e ∈ b.entries, '\x7b' ∉ e.2.toList) :
    ValuesWithoutBrace b.find? := by
  intro name value hfind
  obtain ⟨before, after, hb, -⟩ := List.lookup_eq_some_iff.mp hfind
  exact h (name, value) (hb ▸ by simp)

variable {lookup : String → Option String}

namespace Content

theorem withPlainScalars_fill {c : Content} (hc : c.WithPlainScalars) :
    (c.fill lookup).WithPlainScalars := by
  induction hc with
  | text s => exact .text _
  | list _ ih =>
    rw [fill, fillItems_eq]
    refine .list fun c hc => ?_
    obtain ⟨c, hm, rfl⟩ := List.mem_map.mp hc
    exact ih c hm
  | map _ ih =>
    rw [fill, fillEntries_eq]
    refine .map fun e he => ?_
    obtain ⟨e, hm, rfl⟩ := List.mem_map.mp he
    exact ih e hm
  | other hv => exact .other hv

theorem tokens_fill {c : Content} (h : ∀ s, c.HasText s → BracesOpenTokens s.toList)
    (hv : ValuesWithoutBrace lookup) :
    (c.fill lookup).tokens = c.tokens.filter fun name => (lookup name).isNone := by
  induction c using Content.deepInduction with
  | text s => exact Template.tokens_fill (h s (.text s)) hv
  | list items ih =>
    rw [fill, tokens, tokens, itemTokens_eq, itemTokens_eq, fillItems_eq, List.flatMap_map,
      List.filter_flatMap]
    exact List.flatMap_congr fun c hc => ih c hc fun s hs => h s (.item hc hs)
  | map entries ih =>
    rw [fill, tokens, tokens, entryTokens_eq, entryTokens_eq, fillEntries_eq, List.flatMap_map,
      List.filter_flatMap]
    exact List.flatMap_congr fun e he => ih e he fun s hs => h s (.entry he hs)
  | other v => rfl

theorem fill_fill {c : Content} (h : ∀ s, c.HasText s → BracesOpenTokens s.toList)
    (hv : ValuesWithoutBrace lookup) :
    (c.fill lookup).fill lookup = c.fill lookup := by
  induction c using Content.deepInduction with
  | text s => exact congrArg Content.text (Template.fill_fill (h s (.text s)) hv)
  | list items ih =>
    simp only [fill, fillItems_eq, List.map_map]
    refine congrArg Content.list (List.map_congr_left fun c hc => ?_)
    exact ih c hc fun s hs => h s (.item hc hs)
  | map entries ih =>
    simp only [fill, fillEntries_eq, List.map_map]
    refine congrArg Content.map (List.map_congr_left fun e he => ?_)
    exact congrArg (Prod.mk e.1) (ih e he fun s hs => h s (.entry he hs))
  | other v => rfl

end Content

namespace Body

theorem withPlainScalars_fill {b : Body} (hb : b.WithPlainScalars) :
    (b.fill lookup).WithPlainScalars := by
  cases b with
  | flat text => trivial
  | messages ms =>
    intro _ hfilled
    obtain ⟨m, hm, rfl⟩ := List.mem_map.mp hfilled
    exact Content.withPlainScalars_fill (hb m hm)

theorem tokens_fill {b : Body} (h : ∀ s, b.HasText s → BracesOpenTokens s.toList)
    (hv : ValuesWithoutBrace lookup) :
    (b.fill lookup).tokens = b.tokens.filter fun name => (lookup name).isNone := by
  cases b with
  | flat text => exact Template.tokens_fill (h text rfl) hv
  | messages ms =>
    rw [fill, tokens, tokens, List.flatMap_map, List.filter_flatMap]
    refine List.flatMap_congr fun m hm => ?_
    exact Content.tokens_fill (fun s hs => h s ⟨m, hm, hs⟩) hv

theorem fill_fill {b : Body} (h : ∀ s, b.HasText s → BracesOpenTokens s.toList)
    (hv : ValuesWithoutBrace lookup) :
    (b.fill lookup).fill lookup = b.fill lookup := by
  cases b with
  | flat text => exact congrArg Body.flat (Template.fill_fill (h text rfl) hv)
  | messages ms =>
    simp only [fill, List.map_map]
    refine congrArg Body.messages (List.map_congr_left fun m hm => ?_)
    have hcontent := Content.fill_fill (fun s hs => h s ⟨m, hm, hs⟩) hv
    exact congrArg (Message.mk m.role) hcontent

theorem names_toText_fill {b : Body} {vars : Bindings} (hb : b.WithPlainScalars)
    (h : ∀ s, b.HasText s → BracesOpenTokens s.toList) (hv : ValuesWithoutBrace vars.find?) :
    Template.names (b.fill vars.find?).toText = b.names.filter fun name => !vars.binds name := by
  rw [← names_toText (withPlainScalars_fill hb), names, tokens_fill h hv, Text.nameSet_filter,
    names]
  simp only [Bindings.binds, Option.not_isSome]

end Body

/-- Filling the body of a prompt leaves no bound token behind and creates none. So the text that is
handed to the tool once all variables are bound refers to no variable. -/
theorem Invocation.fill_leaves_unbound_names (p : Prompt) (vars : Bindings)
    (hvalues : p.body.FromValues) (h : ∀ s, p.body.HasText s → BracesOpenTokens s.toList)
    (hv : ValuesWithoutBrace vars.find?) :
    Template.names (p.body.fill vars.find?).toText = (p.names.filter fun name => !vars.binds name) ∧
      (p.body.fill vars.find?).fill vars.find? = p.body.fill vars.find? ∧
      (checkVariables p vars = .ok () → ∀ name, IsName name →
        ¬ tokenText name <:+: (textOf p vars).toList) := by
  have hb := hvalues.withPlainScalars
  have hnames := Body.names_toText_fill hb h hv
  refine ⟨hnames, Body.fill_fill h hv, ?_⟩
  intro hcheck name hname htok
  have hmem : String.ofList name ∈ Template.names (p.body.fill vars.find?).toText := by
    rw [Template.mem_names, Template.mem_tokens_iff, String.toList_ofList]
    exact ⟨hname, htok⟩
  have hnone : (p.names.filter fun name => !vars.binds name) = [] :=
    checkVariables_ok_iff.mp hcheck
  rw [hnames, ← Prompt.names, hnone] at hmem
  exact nomatch hmem

/-- A message whose content nests a text with two tokens and one whose token is in single braces. -/
def Prompt.nested : Prompt where
  metadata := .empty
  body := .messages [{
    role := "user"
    content := .ofValue (.list [.text "\x7b\x7bb\x7d\x7dx\x7b\x7ba\x7d\x7d",
      .map [(.text "k", .tagged "!t" (.text "\x7b \x7b\x7bc\x7d\x7d \x7d"))], .null]) }]

theorem Prompt.nested_bracesOpenTokens {s : String} (h : Prompt.nested.body.HasText s) :
    BracesOpenTokens s.toList := by
  have htexts : s = "\x7b\x7bb\x7d\x7dx\x7b\x7ba\x7d\x7d" ∨ s = "\x7b \x7b\x7bc\x7d\x7d \x7d" := by
    simpa [Prompt.nested, Body.HasText, Content.ofValue, Content.ofItems, Content.ofEntries] using h
  rcases htexts with rfl | rfl
  · decide
  · decide

theorem Invocation.fill_leaves_unbound_names_nested :
    Template.names (Prompt.nested.body.fill (Bindings.ofList [("a", "1"), ("b", "")]).find?).toText =
        ["c"] ∧
      ∀ name, IsName name → ¬ tokenText name <:+:
        (textOf Prompt.nested (Bindings.ofList [("a", "1"), ("b", ""), ("c", "\x7d")])).toList := by
  have hvalues : Prompt.nested.body.FromValues := by
    intro m hm
    obtain rfl := List.mem_singleton.mp hm
    exact ⟨_, rfl⟩
  have htwo := fill_leaves_unbound_names Prompt.nested (Bindings.ofList [("a", "1"), ("b", "")])
    hvalues (fun _ => Prompt.nested_bracesOpenTokens) (Bindings.valuesWithoutBrace (by decide))
  have hthree := fill_leaves_unbound_names Prompt.nested
    (Bindings.ofList [("a", "1"), ("b", ""), ("c", "\x7d")])
    hvalues (fun _ => Prompt.nested_bracesOpenTokens) (Bindings.valuesWithoutBrace (by decide))
  refine ⟨htwo.1.trans (by decide), hthree.2.2 ?_⟩
  rw [checkVariables_ok_iff]
  decide

end PromptRunner
