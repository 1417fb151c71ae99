import PromptRunner.Proofs.Prompt.Leaves
import PromptRunner.Proofs.Yaml.Decoder
import PromptRunner.Prompt.Document

/-!
# The bodies of prompts that are read

A body that is read is a text or a list of messages, and the content of each message is that of a
YAML value. In such a body every part that is not a text is a scalar.
-/

namespace PromptRunner

/-- The contents of the messages of a body, if it has any, come from YAML values. -/
def Body.FromValues : Body → Prop
  | .flat _ => True
  | .messages ms => ∀ m ∈ ms, ∃ v, m.content = .ofValue v

def Body.WithPlainScalars : Body → Prop
  | .flat _ => True
  | .messages ms => ∀ m ∈ ms, m.content.WithPlainScalars

namespace Content

theorem withPlainScalars_ofValue (v : Yaml.Value) : (ofValue v).WithPlainScalars := by
  induction v using Yaml.Value.deepInduction with
  | text s => exact .text s
  | scalar v hv => cases hv <;> exact .other (by constructor)
  | list vs ih =>
    rw [ofValue, ofItems_eq]
    refine .list fun c hc => ?_
    obtain ⟨v, hv, rfl⟩ := List.mem_map.mp hc
    exact ih v hv
  | map es ih =>
    rw [ofValue, ofEntries_eq]
    refine .map fun e he => ?_
    obtain ⟨e, hm, rfl⟩ := List.mem_map.mp he
    exact ih e hm
  | tagged tag v ih => exact ih

theorem hasText_ofValue (v : Yaml.Value) (s : String) : (ofValue v).HasText s ↔ v.HasText s := by
  induction v using Yaml.Value.deepInduction with
  | text s' =>
    constructor
    · rintro ⟨⟩
      exact .text s
    · rintro ⟨⟩
      exact .text s
  | scalar v hv => cases hv <;> exact ⟨nofun, nofun⟩
  | list vs ih =>
    rw [ofValue, ofItems_eq, hasText_list]
    constructor
    · rintro ⟨_, hc, hs⟩
      obtain ⟨v, hv, rfl⟩ := List.mem_map.mp hc
      exact .item hv ((ih v hv).mp hs)
    · rintro ⟨⟩
      rename_i v hv hs
      exact ⟨ofValue v, List.mem_map_of_mem hv, (ih v hv).mpr hs⟩
  | map es ih =>
    rw [ofValue, ofEntries_eq, hasText_map]
    constructor
    · rintro ⟨_, he, hs⟩
      obtain ⟨e, hm, rfl⟩ := List.mem_map.mp he
      exact .entry hm ((ih e hm).mp hs)
    · rintro ⟨⟩
      rename_i e he hs
      exact ⟨(e.1, ofValue e.2), List.mem_map.mpr ⟨e, he, rfl⟩, (ih e he).mpr hs⟩
  | tagged tag v ih =>
    rw [ofValue, ih]
    constructor
    · exact .tagged tag
    · rintro ⟨⟩
      assumption

end Content

theorem Body.FromValues.withPlainScalars {b : Body} (h : b.FromValues) : b.WithPlainScalars := by
  cases b with
  | flat text => trivial
  | messages ms =>
    intro m hm
    obtain ⟨v, hv⟩ := h m hm
    exact hv ▸ Content.withPlainScalars_ofValue v

namespace Prompt

open Yaml Decoder

theorem decodeMessage_gives (d : Document) (t : Tree) :
    Gives (decodeMessage d t) fun m => ∃ v, m.content = .ofValue v := by
  have hcontent : ∀ fs, Gives (Decode.field "content" fs (.text "") fun t =>
      Content.ofValue <$> Decode.value d Decode.standard (Decode.depthLimit - 3) t)
      fun c => ∃ v, c = Content.ofValue v := fun fs =>
    gives_field ⟨.text "", rfl⟩ fun t => Gives.map fun _ v _ _ => ⟨v, rfl⟩
  refine (gives_true _).bind fun fs _ => (gives_true _).bind fun role _ =>
    (hcontent fs).bind fun content hc => ?_
  cases role with
  | none => exact gives_failure
  | some role => exact gives_pure hc

theorem decodeMessages_gives (d : Document) (t : Tree) :
    Gives (decodeMessages d t) fun ms => ∀ m ∈ ms, ∃ v, m.content = .ofValue v :=
  (gives_true _).bind fun ts _ => gives_mapM (decodeMessage_gives d) ts

theorem decodeStructured_gives (d : Document) (t : Tree) :
    Gives (decodeStructured d t) fun r => (Body.messages r.2).FromValues := by
  refine (gives_true _).bind fun fs _ => Gives.bind (gives_field (P := fun ms => ∀ m ∈ ms,
    ∃ v, m.content = .ofValue v) (fun _ h => nomatch h) (decodeMessages_gives d)) fun ms hms => ?_
  refine (gives_true _).bind fun others _ => ?_
  split
  · exact gives_pure hms
  · exact gives_failure

theorem fromValues_of_parse {format : Format} {path content : String} {p : Prompt}
    (h : parse format path content = .ok p) : p.body.FromValues := by
  cases format with
  | structured =>
    rw [parse, ofStructuredDocument] at h
    cases hdoc : (Document.ofText? content).bind fun d => d.decode (decodeStructured d) with
    | none =>
      rw [hdoc] at h
      exact nomatch h
    | some r =>
      rw [hdoc] at h
      obtain rfl := Except.ok.inj h
      obtain ⟨d, -, hd⟩ := Option.bind_eq_some_iff.mp hdoc
      exact d.decode_gives (decodeStructured_gives d) hd
  | text =>
    obtain rfl := Except.ok.inj h
    unfold ofTextDocument
    split
    · trivial
    · split <;> trivial

end Prompt

end PromptRunner
