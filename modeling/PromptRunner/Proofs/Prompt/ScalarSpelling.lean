import PromptRunner.Proofs.Variables.Merging
import PromptRunner.Proofs.Yaml.ScalarDocuments
import PromptRunner.Proofs.Yaml.StandardScalars
import PromptRunner.Prompt.Document

/-!
# The spelling of truth values and numbers

A truth value or a number without quotes is read as a value, and the text of this value is what a
variable is bound to and what a message says. So the spelling of the document is kept by the scalars
in their standard spelling, and by no others.
-/

namespace PromptRunner

open Yaml
open Yaml.Scanner (IsKey)

variable {s name role ending : List Char} {v : Value} {fs : FileSystem} {path : Path}

namespace Variables

theorem yamlText_eq (hv : v.IsTruthOrNumber) (name : String) : yamlText name v = .ok v.plainText := by
  cases hv <;> rfl

theorem isBlank_entryText (name s ending : List Char) :
    Text.isBlank (String.ofList (entryText name s ending)) = false := by
  rw [Text.isBlank, String.toList_ofList, List.all_eq_false]
  exact ⟨':', by simp [entryText], by decide⟩

theorem ofYaml_entryText (hs : Decode.plainValue s = some v) (hv : v.IsTruthOrNumber)
    (hname : IsKey name) (htext : resolve name = .text) (hending : IsEnding ending) (path : String) :
    ofYaml path (String.ofList (entryText name s ending)) =
      .ok [(String.ofList name, v.plainText)] := by
  have hkey : Decode.plainValue name = some (.text (String.ofList name)) := by
    rw [Decode.plainValue, htext]
  have hdocument := ofText?_entryText hname (isWord_of_plainValue hs hv) hending
  rw [ofYaml, isBlank_entryText, hdocument, Option.bind_some, entries?_entryTree hkey hs]
  simp only [pairsOf, keyText, yamlText_eq hv]
  rfl

theorem ofFile_yaml {content : String} (hpath : FileFormat.ofPath? path = some .yaml)
    (hread : fs.readText path = .ok content) :
    ofFile fs path = ofYaml (Path.shown path) content := by
  rw [ofFile, hpath]
  simp only [fileText_ok_iff.mpr hread]

end Variables

namespace Prompt

open Decoder

variable {d : Document}

theorem reads_decodeMessage (hs : Decode.plainValue s = some v) (role : List Char) :
    Reads (decodeMessage d (messageTree role s)) 0
      (some ⟨String.ofList role, Content.ofValue v⟩) := by
  have hfields : Reads (Decode.fields d (messageTree role s)) 0
      (some [("role", .plain role), ("content", .plain s)]) :=
    reads_fields_plain [(roleKey, .plain role), (contentKey, .plain s)]
  have hrole := (reads_text d (.plain role)).map some
  have hcontent := (reads_value_plain (d := d) hs Decode.standard (Decode.depthLimit - 3)).map
    Content.ofValue
  unfold decodeMessage
  exact hfields.ending (hrole.ending (hcontent.ending (reads_pure _)))

theorem reads_decodeMessages (hs : Decode.plainValue s = some v) (role : List Char) :
    Reads (decodeMessages d (.sequence {} [messageTree role s])) 0
      (some [⟨String.ofList role, Content.ofValue v⟩]) := by
  have hitems : Reads (Decode.items d (.sequence {} [messageTree role s])) 0
      (some [messageTree role s]) := by
    unfold Decode.items
    exact (reads_node rfl).ending (reads_pure _)
  have hmessage : Reads ([messageTree role s].mapM (decodeMessage d)) 0
      (some [⟨String.ofList role, Content.ofValue v⟩]) := by
    rw [List.mapM_cons]
    exact (reads_decodeMessage hs role).ending (reads_pure _)
  unfold decodeMessages
  exact hitems.ending hmessage

theorem reads_decodeStructured (hs : Decode.plainValue s = some v) (role : List Char) :
    Reads (decodeStructured d (messagesTree role s)) 0
      (some (.empty, [⟨String.ofList role, Content.ofValue v⟩])) := by
  have hfields : Reads (Decode.fields d (messagesTree role s)) 0
      (some [("messages", .sequence {} [messageTree role s])]) :=
    reads_fields_plain [(messagesKey, .sequence {} [messageTree role s])]
  unfold decodeStructured
  refine hfields.ending ((reads_decodeMessages hs role).ending ?_)
  exact reads_pure _

theorem ofStructuredDocument_messageText (hs : Decode.plainValue s = some v)
    (hv : v.IsTruthOrNumber) (hrole : IsWord role) (hending : IsEnding ending) (path : String) :
    ofStructuredDocument path (String.ofList (messageText role s ending)) =
      .ok { metadata := .empty, body := .messages [⟨String.ofList role, Content.ofValue v⟩] } := by
  obtain ⟨d, hd⟩ : ∃ d, d = Document.ofRoot (some (messagesTree role s)) := ⟨_, rfl⟩
  have hread : Reads (decodeStructured d d.rootOrBlank) 0
      (some (.empty, [⟨String.ofList role, Content.ofValue v⟩])) := by
    rw [hd]
    exact reads_decodeStructured hs role
  rw [ofStructuredDocument, ofText?_messageText hrole (isWord_of_plainValue hs hv) hending,
    Option.bind_some, ← hd, Document.decode_of_reads hread, if_pos (Nat.zero_le _)]

theorem load_structured {content : String} (hpath : Format.ofPath path = .ok .structured)
    (hread : fs.readText path = .ok content) :
    load fs path = ofStructuredDocument (Path.shown path) content := by
  rw [load, hpath, fileText, hread]
  rfl

end Prompt

/-- A message that says nothing but a truth value or a number has the text of the value. -/
theorem Body.toText_scalar (hv : v.IsTruthOrNumber) (role : String) :
    (Body.messages [⟨role, Content.ofValue v⟩]).toText = v.plainText := by
  have hchars : (Content.ofValue v).chars = v.plainText.toList := by
    cases hv <;> rw [Content.ofValue, Content.chars]
  have hbody : (Body.messages [⟨role, Content.ofValue v⟩]).chars = (Content.ofValue v).chars := by
    simp [Body.chars]
  rw [Body.toText, hbody, hchars, String.ofList_toList]

/-- A truth value or a number without quotes is bound, and said, as the text of its value. That is
what was written just if it was written in its standard spelling, as a number with few digits is
that is laid out in the standard way. -/
theorem scalar_text_of_spelling (hs : Decode.plainValue s = some v) (hv : v.IsTruthOrNumber) :
    (∀ fs path name ending, IsKey name → resolve name = .text → IsEnding ending →
      Variables.FileFormat.ofPath? path = some .yaml →
      fs.readText path = .ok (String.ofList (entryText name s ending)) →
      Variables.ofFile fs path = .ok [(String.ofList name, v.plainText)]) ∧
    (∀ fs path role ending, IsWord role → IsEnding ending →
      Format.ofPath path = .ok .structured →
      fs.readText path = .ok (String.ofList (messageText role s ending)) →
      ∃ p, Prompt.load fs path = .ok p ∧ p.body.toText = v.plainText) ∧
    (v.plainText = String.ofList s ↔ IsStandard s) ∧
    (∀ negative (d : Decimal.Digits), d.IsFew → s = signed negative (numberLayout.positive d) →
      v.plainText = String.ofList s) := by
  have hkept (hstandard : IsStandard s) : v.plainText = String.ofList s := by
    rw [← hstandard.toList_plainText hs, String.ofList_toList]
  refine ⟨?_, ?_, ⟨?_, hkept⟩, ?_⟩
  · intro fs path name ending hname htext hending hpath hread
    rw [Variables.ofFile_yaml hpath hread]
    exact Variables.ofYaml_entryText hs hv hname htext hending (Path.shown path)
  · intro fs path role ending hrole hending hpath hread
    rw [Prompt.load_structured hpath hread,
      Prompt.ofStructuredDocument_messageText hs hv hrole hending (Path.shown path)]
    exact ⟨_, rfl, Body.toText_scalar hv (String.ofList role)⟩
  · intro htext
    apply isStandard_of_toList_plainText hs hv
    rw [htext, String.toList_ofList]
  · intro negative d hfew hspelling
    apply hkept
    rw [hspelling]
    exact isStandard_of_isFew hfew negative

def oneFile (name : Path.Part) (hname : isFileName name = true) (text : String) : FileSystem where
  entries := [([name], .file text.toUTF8 false)]
  unique := by simp
  named := by simp [hname]

theorem isKey_k : IsKey ['k'] :=
  ⟨isWord_of_all (by decide) (by decide), by decide, by decide⟩

theorem isWord_user : IsWord ['u', 's', 'e', 'r'] :=
  isWord_of_all (by decide) (by decide)

theorem scalar_text_of_spelling_oneAndHalf :
    Variables.ofFile (oneFile (Path.ofText "v.yml") rfl "k: 1.5\n") (Path.ofText "/v.yml") =
        .ok [("k", "1.5")] ∧
      ∃ p, Prompt.load (oneFile (Path.ofText "p.yml") rfl
          "messages:\n- role: user\n  content: 1.5\n") (Path.ofText "/p.yml") = .ok p ∧
        p.body.toText = "1.5" := by
  obtain ⟨x, hx⟩ : ∃ x, resolve ['1', '.', '5'] = .float x :=
    ⟨.finite false 6755399441055744 (-52), by decide +kernel⟩
  have hs : Decode.plainValue ['1', '.', '5'] = some (.float x) := by rw [Decode.plainValue, hx]
  obtain ⟨hvariable, hmessage, -, hfew⟩ := scalar_text_of_spelling hs (.float x)
  rw [hfew false ⟨15, -1⟩ ⟨by decide, by decide, by decide⟩ (by decide +kernel)] at hvariable hmessage
  constructor
  · exact hvariable _ (Path.ofText "/v.yml") ['k'] ['\n'] isKey_k (by decide +kernel) (.inr rfl)
      (by decide) (by decide +kernel)
  · exact hmessage _ (Path.ofText "/p.yml") ['u', 's', 'e', 'r'] ['\n'] isWord_user (.inr rfl)
      (by decide) (by decide +kernel)

/-- A number with a zero at its end loses the zero. -/
theorem scalar_loses_zero :
    ¬ ∀ (s : List Char) (v : Value), Decode.plainValue s = some v → v.IsTruthOrNumber →
      ∀ (fs : FileSystem) (path : Path), Variables.FileFormat.ofPath? path = some .yaml →
        fs.readText path = .ok (String.ofList (entryText ['k'] s ['\n'])) →
        Variables.ofFile fs path = .ok [("k", String.ofList s)] := by
  intro h
  obtain ⟨x, hx⟩ : ∃ x, resolve ['1', '.', '1', '0'] = .float x :=
    ⟨.finite false 4953959590107546 (-52), by decide +kernel⟩
  have hs : Decode.plainValue ['1', '.', '1', '0'] = some (.float x) := by rw [Decode.plainValue, hx]
  have hkept := h _ _ hs (.float x) (oneFile (Path.ofText "v.yml") rfl "k: 1.10\n")
    (Path.ofText "/v.yml") (by decide) (by decide +kernel)
  have hread : Variables.ofFile (oneFile (Path.ofText "v.yml") rfl "k: 1.10\n")
      (Path.ofText "/v.yml") = .ok [("k", "1.1")] := by decide +kernel
  rw [hread] at hkept
  exact absurd hkept (by decide)

end PromptRunner
