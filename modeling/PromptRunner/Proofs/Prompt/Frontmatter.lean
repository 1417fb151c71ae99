import Mathlib
import PromptRunner.Prompt.Document
import PromptRunner.Proofs.Prompt.Delimiters
import PromptRunner.Proofs.Prompt.Metadata
import PromptRunner.Proofs.Prompt.TextDocument

/-!
# Blocks of metadata before a text

A block between two delimiter lines is cut out of a text document again, if no line of it is a
delimiter. What such a block says is then the same as in a structured document of its own, if it is
written in kind.
-/

namespace PromptRunner

namespace Prompt

def delimiterLine : List Char := delimiter ++ ['\n']

def withFrontmatter (block rest : List Char) : List Char :=
  delimiterLine ++ block ++ delimiterLine ++ rest

variable {block : List Char}

/-- A block without delimiter lines is what is found before the text. -/
theorem splitFrontmatter_withFrontmatter (hend : Text.EndsLine block)
    (hlines : ∀ line ∈ Text.lines block, isDelimiter line = false) (rest : List Char) :
    splitFrontmatter (withFrontmatter block rest) = some (block, rest) := by
  have hdelimiter : Text.EndsLine delimiterLine := .inr rfl
  have hsplit : Text.lines (withFrontmatter block rest) =
      delimiterLine :: (Text.lines block ++ delimiterLine :: Text.lines rest) := by
    rw [withFrontmatter, List.append_assoc, List.append_assoc, Text.lines_append hdelimiter,
      Text.lines_append hend, Text.lines_append hdelimiter]
    rfl
  exact splitFrontmatter_eq_some_iff.mpr ⟨_, _, _, _, hsplit, rfl, rfl, hlines,
    Text.flatten_lines _, Text.flatten_lines _⟩

theorem parse_withFrontmatter (hend : Text.EndsLine block)
    (hlines : ∀ line ∈ Text.lines block, isDelimiter line = false) (path : String)
    (rest : List Char) :
    parse .text path (String.ofList (withFrontmatter block rest)) =
      .ok (match frontmatter? block with
        | some metadata => { metadata, body := .flat (String.ofList rest) }
        | none => { metadata := .empty, body := .flat (String.ofList rest),
                    warnings := [.frontmatterIgnored path] }) := by
  have hsplit : splitFrontmatter (String.ofList (withFrontmatter block rest)).toList =
      some (block, rest) := by
    rw [String.toList_ofList, splitFrontmatter_withFrontmatter hend hlines]
  exact parse_text_of_split path hsplit

open Yaml

/-- A block of complete lines without delimiters that is not blank and is a mapping with metadata
fields as its keys. -/
structure IsBlock (block : List Char) (d : Document) : Prop where
  endsLine : Text.EndsLine block
  noDelimiter : ∀ line ∈ Text.lines block, isDelimiter line = false
  notBlank : Text.isBlank (String.ofList block) = false
  document : Document.ofText? (String.ofList block) = some d
  fields : ∃ p entries, d.root = some (.mapping p entries) ∧ ∀ e ∈ entries,
    ∃ name ∈ metadataNames, d.text? e.1 = some name

/-- A block says the same before a text and as a structured document: the one gives some metadata
without a warning if and only if the other one gives it. -/
def MeansTheSame (block : List Char) : Prop :=
  ∀ (rest : List Char) (path path' : String) (m : Metadata),
    (∃ p, parse .text path (String.ofList (withFrontmatter block rest)) = .ok p ∧
        p.metadata = m ∧ p.warnings = []) ↔
      ∃ p, parse .structured path' (String.ofList block) = .ok p ∧ p.metadata = m

variable {d : Document}

theorem IsBlock.parse_text (h : IsBlock block d) (path : String) (rest : List Char) :
    parse .text path (String.ofList (withFrontmatter block rest)) =
      .ok (match Metadata.ofDocument? d with
        | some metadata => { metadata, body := .flat (String.ofList rest) }
        | none => { metadata := .empty, body := .flat (String.ofList rest),
                    warnings := [.frontmatterIgnored path] }) := by
  have hread : frontmatter? block = Metadata.ofDocument? d := by
    rw [frontmatter?, h.notBlank, h.document, Option.bind_some]
    rfl
  rw [parse_withFrontmatter h.endsLine h.noDelimiter, hread]

theorem IsBlock.parse_structured (h : IsBlock block d) (path : String) :
    parse .structured path (String.ofList block) =
      match d.decode (decodeStructured d) with
      | some (metadata, messages) => .ok { metadata, body := .messages messages }
      | none => .error (.promptMalformed path) := by
  cases hread : d.decode (decodeStructured d) with
  | none => simp only [parse, ofStructuredDocument, h.document, Option.bind_some, hread]
  | some r => simp only [parse, ofStructuredDocument, h.document, Option.bind_some, hread]

/-- Metadata that is written in kind means the same in both shapes of documents. -/
theorem same_metadata_of_kind (h : IsBlock block d) (hkind : IsMetadata d) :
    MeansTheSame block := by
  intro rest path path' m
  rw [h.parse_text, h.parse_structured, hkind.decode_eq]
  cases Metadata.ofDocument? d with
  | none =>
    constructor
    · rintro ⟨p, hp, -, hwarnings⟩
      obtain rfl := Except.ok.inj hp
      exact nomatch hwarnings
    · rintro ⟨p, hp, -⟩
      exact nomatch hp
  | some metadata =>
    constructor
    · rintro ⟨p, hp, rfl, -⟩
      obtain rfl := Except.ok.inj hp
      exact ⟨_, rfl, rfl⟩
    · rintro ⟨p, hp, rfl⟩
      obtain rfl := Except.ok.inj hp
      exact ⟨_, rfl, rfl, rfl⟩

def plain (text : String) : Tree :=
  .scalar {} text.toList .plain

theorem isText_plain {text : String} (h : resolve text.toList = .text) :
    IsText d (plain text) text := by
  have hplain : IsText d (plain text) (String.ofList text.toList) := .plain rfl rfl h
  rwa [String.ofList_toList] at hplain

def reviewBlock : List Char :=
  "name: review\nrequirements:\n  commands: [git]\n".toList

def reviewDocument : Document :=
  .ofRoot (some (.mapping {} [(plain "name", plain "review"),
    (plain "requirements", .mapping {} [(plain "commands", .sequence {} [plain "git"])])]))

theorem same_metadata_of_review :
    IsBlock reviewBlock reviewDocument ∧ IsMetadata reviewDocument ∧ MeansTheSame reviewBlock := by
  have hblock : IsBlock reviewBlock reviewDocument :=
    { endsLine := .inr rfl
      noDelimiter := by decide
      notBlank := by decide
      document := by cbv
      fields := ⟨_, _, rfl, by decide⟩ }
  have hcommands : IsTexts reviewDocument (.sequence {} [plain "git"]) := by
    refine ⟨_, _, rfl, rfl, ?_⟩
    rw [List.forall_mem_singleton]
    exact ⟨"git", isText_plain (by rfl)⟩
  have hrequirements : IsRequirements reviewDocument
      (.mapping {} [(plain "commands", .sequence {} [plain "git"])]) := by
    refine ⟨_, _, rfl, rfl, ?_⟩
    rw [List.forall_mem_singleton]
    exact ⟨"commands", isText_plain (by rfl), .list (by decide) hcommands⟩
  have hkind : IsMetadata reviewDocument := by
    refine ⟨_, _, rfl, ?_⟩
    rw [List.forall_mem_cons, List.forall_mem_singleton]
    exact ⟨⟨"name", rfl, .text (by decide) (isText_plain (by rfl : resolve "review".toList = _))⟩,
      ⟨"requirements", rfl, .requirements hrequirements⟩⟩
  exact ⟨hblock, hkind, same_metadata_of_kind hblock hkind⟩

/-- A truth value or a number as a name is taken before a text and refused in a structured
document. -/
theorem IsBlock.apart {cs : List Char} {v : Value} (h : IsBlock block (namedBy cs))
    (hvalue : Decode.plainValue cs = some v) (hkind : Metadata.textOf? v = none)
    (rest : List Char) (path : String) :
    parse .text path (String.ofList (withFrontmatter block rest)) =
        .ok { metadata := { name := some (String.ofList cs) }, body := .flat (String.ofList rest) } ∧
      parse .structured path (String.ofList block) = .error (.promptMalformed path) := by
  obtain ⟨hdirect, hstructured⟩ := decode_namedBy hvalue hkind
  rw [h.parse_text, h.parse_structured, hdirect, hstructured]
  exact ⟨rfl, rfl⟩

theorem isBlock_number : IsBlock "name: 123\n".toList (namedBy "123".toList) where
  endsLine := .inr rfl
  noDelimiter := by decide
  notBlank := by decide
  document := by cbv
  fields := ⟨_, _, rfl, by decide⟩

theorem metadata_apart :
    ¬ ∀ (block : List Char) (d : Document), IsBlock block d → MeansTheSame block := by
  intro h
  have hvalue : Decode.plainValue "123".toList = some (.int 123) := by rfl
  obtain ⟨htext, hstructured⟩ := isBlock_number.apart hvalue rfl [] "p"
  obtain ⟨p, hp, -⟩ := (h _ _ isBlock_number [] "p" "p" _).mp ⟨_, htext, rfl, rfl⟩
  exact nomatch hstructured.symm.trans hp

end Prompt

end PromptRunner
