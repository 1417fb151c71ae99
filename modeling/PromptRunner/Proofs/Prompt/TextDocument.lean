import PromptRunner.Invocation
import PromptRunner.Proofs.Prompt.Delimiters

/-!
# Texts behind blocks of metadata

A text document is always read. What stands in its block of metadata decides what the prompt says
about itself, and whether there is a warning, but the text behind the block is handed on as it is.
-/

namespace PromptRunner.Prompt

/-- What is read of a block of metadata, and whether it is passed over with a warning. -/
inductive BlockReads (block : List Char) : Metadata → Bool → Prop
  | blank : Text.isBlank (String.ofList block) = true → BlockReads block .empty false
  | malformed : Text.isBlank (String.ofList block) = false →
      Yaml.Document.ofText? (String.ofList block) = none → BlockReads block .empty true
  | misshapen {d : Yaml.Document} : Text.isBlank (String.ofList block) = false →
      Yaml.Document.ofText? (String.ofList block) = some d → Metadata.ofDocument? d = none →
      BlockReads block .empty true
  | valid {d : Yaml.Document} {m : Metadata} : Text.isBlank (String.ofList block) = false →
      Yaml.Document.ofText? (String.ofList block) = some d → Metadata.ofDocument? d = some m →
      BlockReads block m false

variable {path content : String} {block rest : List Char}

theorem BlockReads.empty_of_warned {m : Metadata} (h : BlockReads block m true) : m = .empty := by
  cases h <;> rfl

theorem blockReads_frontmatter? (block : List Char) :
    match frontmatter? block with
    | some m => BlockReads block m false
    | none => BlockReads block .empty true := by
  unfold frontmatter?
  cases hblank : Text.isBlank (String.ofList block) with
  | true => exact .blank hblank
  | false =>
    cases hdocument : Yaml.Document.ofText? (String.ofList block) with
    | none => exact .malformed hblank hdocument
    | some d =>
      cases hmetadata : Metadata.ofDocument? d with
      | none => simpa [hmetadata] using .misshapen hblank hdocument hmetadata
      | some m => simpa [hmetadata] using .valid hblank hdocument hmetadata

/-- A block stands between two delimiter lines at the start of a document, and the text behind it is
all that follows. -/
theorem splitFrontmatter_some {cs : List Char} (h : splitFrontmatter cs = some (block, rest)) :
    ∃ opening closing, isDelimiter opening = true ∧ isDelimiter closing = true ∧
      cs = opening ++ block ++ closing ++ rest := by
  obtain ⟨opening, closing, blockLines, restLines, hlines, hopening, hclosing, -, rfl, rfl⟩ :=
    splitFrontmatter_eq_some_iff.mp h
  refine ⟨opening, closing, hopening, hclosing, ?_⟩
  rw [← Text.flatten_lines cs, hlines]
  simp

theorem parse_text_of_none (h : splitFrontmatter content.toList = none) :
    parse .text path content = .ok { metadata := .empty, body := .flat content } := by
  simp only [parse, ofTextDocument, h]

theorem parse_text_of_split (path : String)
    (h : splitFrontmatter content.toList = some (block, rest)) :
    parse .text path content =
      .ok (match frontmatter? block with
        | some metadata => { metadata, body := .flat (String.ofList rest) }
        | none => { metadata := .empty, body := .flat (String.ofList rest),
                    warnings := [.frontmatterIgnored path] }) := by
  cases hread : frontmatter? block with
  | none => simp only [parse, ofTextDocument, h, hread]
  | some metadata => simp only [parse, ofTextDocument, h, hread]

theorem parse_text_of_some (path : String)
    (h : splitFrontmatter content.toList = some (block, rest)) :
    ∃ m warned, BlockReads block m warned ∧ parse .text path content =
      .ok { metadata := m, body := .flat (String.ofList rest),
            warnings := if warned then [.frontmatterIgnored path] else [] } := by
  have hreads := blockReads_frontmatter? block
  rw [parse_text_of_split path h]
  cases hblock : frontmatter? block with
  | none =>
    rw [hblock] at hreads
    exact ⟨.empty, true, hreads, rfl⟩
  | some m =>
    rw [hblock] at hreads
    exact ⟨m, false, hreads, rfl⟩

/-- A block of metadata leaves the text behind it alone. Every text document is read: one without a
block is a text throughout, and of any other the text behind the block is the body, with one warning
at most, and then without metadata. So documents with the same text behind their blocks need the
same variables and come to the same text. -/
theorem frontmatter_leaves_text_alone :
    (∀ path content : String, ∃ p, parse .text path content = .ok p ∧
      (splitFrontmatter content.toList = none →
        p.body = .flat content ∧ p.metadata = .empty ∧ p.warnings = []) ∧
      ∀ block rest, splitFrontmatter content.toList = some (block, rest) →
        (∃ opening closing, isDelimiter opening = true ∧ isDelimiter closing = true ∧
          content.toList = opening ++ block ++ closing ++ rest) ∧
        p.body = .flat (String.ofList rest) ∧ p.warnings.length ≤ 1 ∧
        (p.warnings ≠ [] → p.metadata = .empty) ∧
        ∃ warned, BlockReads block p.metadata warned ∧
          p.warnings = if warned then [.frontmatterIgnored path] else []) ∧
    ∀ (path path' content content' : String) (block block' rest : List Char) (p p' : Prompt),
      splitFrontmatter content.toList = some (block, rest) →
      splitFrontmatter content'.toList = some (block', rest) →
      parse .text path content = .ok p → parse .text path' content' = .ok p' →
      p.names = p'.names ∧ ∀ b : Bindings,
        (p.body.fill b.find?).toText = (p'.body.fill b.find?).toText ∧
        Invocation.checkVariables p b = Invocation.checkVariables p' b := by
  constructor
  · intro path content
    cases hsplit : splitFrontmatter content.toList with
    | none => exact ⟨_, parse_text_of_none hsplit, fun _ => ⟨rfl, rfl, rfl⟩, nofun⟩
    | some parts =>
      obtain ⟨m, warned, hreads, hparse⟩ := parse_text_of_some path hsplit
      refine ⟨_, hparse, nofun, ?_⟩
      rintro block rest ⟨⟩
      refine ⟨splitFrontmatter_some hsplit, rfl, ?_, ?_, warned, hreads, rfl⟩
      · cases warned with
        | false => exact Nat.zero_le 1
        | true => exact Nat.le_refl 1
      · intro hwarned
        cases warned with
        | false => exact (hwarned rfl).elim
        | true => exact hreads.empty_of_warned
  · intro path path' content content' block block' rest p p' hsplit hsplit' hparse hparse'
    obtain ⟨m, warned, -, hp⟩ := parse_text_of_some path hsplit
    obtain ⟨m', warned', -, hp'⟩ := parse_text_of_some path' hsplit'
    obtain rfl := Except.ok.inj (hparse.symm.trans hp)
    obtain rfl := Except.ok.inj (hparse'.symm.trans hp')
    exact ⟨rfl, fun b => ⟨rfl, rfl⟩⟩

def brokenDocument : String := "---\nname: [\n---\n\x7b\x7ba\x7d\x7d"

def blankDocument : String := "---\n \n---\n\x7b\x7ba\x7d\x7d"

theorem same_text_behind_broken_and_blank :
    ∃ p p' : Prompt, parse .text "p.md" brokenDocument = .ok p ∧
      parse .text "q.md" blankDocument = .ok p' ∧ p.names = p'.names ∧
      ∀ b : Bindings, (p.body.fill b.find?).toText = (p'.body.fill b.find?).toText := by
  obtain ⟨hread, hsame⟩ := frontmatter_leaves_text_alone
  obtain ⟨p, hp, -⟩ := hread "p.md" brokenDocument
  obtain ⟨p', hp', -⟩ := hread "q.md" blankDocument
  have hsplit : splitFrontmatter brokenDocument.toList =
      some ("name: [\n".toList, "\x7b\x7ba\x7d\x7d".toList) := by decide
  have hsplit' : splitFrontmatter blankDocument.toList =
      some (" \n".toList, "\x7b\x7ba\x7d\x7d".toList) := by decide
  obtain ⟨hnames, hfill⟩ := hsame "p.md" "q.md" _ _ _ _ _ p p' hsplit hsplit' hp hp'
  exact ⟨p, p', hp, hp', hnames, fun b => (hfill b).1⟩

end PromptRunner.Prompt
