import PromptRunner.Config
import PromptRunner.Proofs.Yaml.Fields

/-!
# What the text of a configuration describes

The settings are told from the nodes of the document: each of the three fields stands once at most,
and one that is missing has a standard setting. The decoder gives just these settings, and none
where a field is not what it has to be.
-/

namespace PromptRunner.Config

open Yaml Decoder

/-- A document describes settings. Its directory of prompts may be left out or stand for nothing,
its command is a scalar and its tools are a sequence of scalars; other fields are left aside. -/
structure Describes (d : Document) (c : Config) : Prop where
  fields : ∃ fields, HasFields d d.rootOrBlank fields ∧
    HasField "prompts_dir" fields none (HasOptionalText d) c.promptsDir ∧
    HasField "command" fields "claude" (fun t s => d.text? t = some s) c.command ∧
    HasField "default_tools" fields ["Read", "Grep", "Glob", "LS"] (HasTexts d) c.defaultTools

variable {d : Document} {c : Config}

theorem describes_of_yields (hd : d.IsSized) (h : Yields (decode d d.rootOrBlank) c) :
    Describes d c := by
  unfold decode at h
  obtain ⟨fields, hfields, h⟩ := yields_bind h
  obtain ⟨promptsDir, hpromptsDir, h⟩ := yields_bind h
  obtain ⟨command, hcommand, h⟩ := yields_bind h
  obtain ⟨defaultTools, hdefaultTools, h⟩ := yields_bind h
  obtain rfl := yields_pure h
  have hfields := yields_fields hfields
  have hsizes := (within_fields hd hd.root hfields).2
  exact ⟨fields, hfields, yields_field (fun f hf _ => yields_optionalText hd (hsizes f hf)) hpromptsDir,
    yields_field (fun _ _ _ => yields_text) hcommand,
    yields_field (fun _ _ _ => yields_texts) hdefaultTools⟩

theorem Describes.within (hd : d.IsSized) (h : Describes d c) :
    Within (decode d d.rootOrBlank) (4 + 2 * d.size) c := by
  obtain ⟨fields, hfields, hpromptsDir, hcommand, hdefaultTools⟩ := h.fields
  obtain ⟨hread, hsizes⟩ := within_fields hd hd.root hfields
  have htools := within_field (fun f hf _ => within_texts hd (hsizes f hf)) hdefaultTools
  have hall : Within (decode d d.rootOrBlank) (1 + d.size + (1 + (1 + (1 + d.size)))) c := by
    unfold decode
    refine hread.andThen ((within_field (fun _ _ _ => within_optionalText) hpromptsDir).andThen ?_)
    refine (within_field (fun _ _ _ => within_text) hcommand).andThen ?_
    exact htools.ending (within_pure c)
  exact hall.mono (by omega)

/-- The decoder gives the settings that are described. The document is large enough for the aliases
that they take. -/
theorem decode_eq_some_iff (hd : d.IsSized) : d.decode (decode d) = some c ↔ Describes d c := by
  constructor
  · exact fun h => describes_of_yields hd (Document.yields_of_decode h)
  · intro h
    refine Document.decode_of_within (h.within hd) ?_
    have hpos := Nat.le_trans d.rootOrBlank.size_pos hd.root
    rw [Decode.aliasFactor]
    omega

theorem Describes.unique (hd : d.IsSized) {c' : Config} (h : Describes d c) (h' : Describes d c') :
    c = c' :=
  Option.some.inj (((decode_eq_some_iff hd).mpr h).symm.trans ((decode_eq_some_iff hd).mpr h'))

def tailored : Config where
  promptsDir := some "p"
  command := "tool -x"
  defaultTools := ["Read"]

def tailoredText : String :=
  "command: tool -x\nprompts_dir: p\ntheme: dark\ndefault_tools: [Read]\n"

theorem ofText_tailoredText : ofText tailoredText = .ok tailored := by decide +kernel

end PromptRunner.Config
