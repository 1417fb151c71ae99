import PromptRunner.Proofs.Host
import PromptRunner.Proofs.Json.Members
import PromptRunner.Proofs.Results
import PromptRunner.Variables.Sources

/-!
# What sources of variables hold

The variables of a file and of a JSON object are told from what they are read as: the members of an
object or the entries of a mapping, each of which has to be a text, a number or a truth value. The
first that is something else is refused by its name. The ending of a file decides what it is read
as.
-/

namespace PromptRunner

/-- The first entry of a list that has some fault has a given one. -/
def First {α : Type} (faulty has : α → Prop) (xs : List α) : Prop :=
  ∃ before x after, xs = before ++ x :: after ∧ has x ∧ ∀ y ∈ before, ¬ faulty y

section

variable {α : Type} {faulty has : α → Prop} {x : α} {xs : List α}

theorem not_first_nil : ¬ First faulty has [] := by
  rintro ⟨before, x, after, h, -, -⟩
  exact List.append_ne_nil_of_right_ne_nil before (List.cons_ne_nil x after) h.symm

theorem first_cons : First faulty has (x :: xs) ↔ has x ∨ ¬ faulty x ∧ First faulty has xs := by
  constructor
  · rintro ⟨before, y, after, h, hy, hbefore⟩
    cases before with
    | nil =>
      obtain ⟨rfl, rfl⟩ := List.cons.inj h
      exact .inl hy
    | cons b before =>
      obtain ⟨rfl, rfl⟩ := List.cons.inj h
      obtain ⟨hb, hbefore⟩ := List.forall_mem_cons.mp hbefore
      exact .inr ⟨hb, before, y, after, rfl, hy, hbefore⟩
  · rintro (hx | ⟨hx, before, y, after, rfl, hy, hbefore⟩)
    · exact ⟨[], x, xs, rfl, hx, nofun⟩
    · exact ⟨x :: before, y, after, rfl, hy, List.forall_mem_cons.mpr ⟨hx, hbefore⟩⟩

end

namespace Path

/-- The file name of a path ends in an ending, letter case aside. -/
def EndsIn (path : Path) (ending : String) : Prop :=
  ∃ name, fileName? path = some name ∧ ending.toList <:+ (shown name).toList.map Char.toLower

theorem hasEnding_iff {path : Path} {ending : String} (h : ending ≠ "") :
    hasEnding path ending = true ↔ EndsIn path ending := by
  unfold hasEnding EndsIn
  cases fileName? path with
  | none => simpa using h
  | some name => simp

end Path

namespace Variables

/-- The text of a JSON value that a variable may have. -/
inductive JsonScalar : Json.Value → String → Prop
  | text (s : String) : JsonScalar (.text s) s
  | int (n : Int) : JsonScalar (.int n) (toString n)
  | float (d : Decimal.Double) : JsonScalar (.float d) (Json.numberLayout.text d)
  | true : JsonScalar (.bool true) "true"
  | false : JsonScalar (.bool false) "false"

inductive JsonRefused : Json.Value → Prop
  | null : JsonRefused .null
  | array (items : List Json.Value) : JsonRefused (.array items)
  | object (members : List (String × Json.Value)) : JsonRefused (.object members)

/-- The text of a YAML value that a variable may have. -/
inductive YamlScalar : Yaml.Value → String → Prop
  | text (s : String) : YamlScalar (.text s) s
  | int (n : Int) : YamlScalar (.int n) (toString n)
  | float (d : Decimal.Double) : YamlScalar (.float d) (Yaml.numberLayout.text d)
  | true : YamlScalar (.bool true) "true"
  | false : YamlScalar (.bool false) "false"

inductive YamlRefused : Yaml.Value → Prop
  | null : YamlRefused .null
  | list (items : List Yaml.Value) : YamlRefused (.list items)
  | map (entries : List (Yaml.Value × Yaml.Value)) : YamlRefused (.map entries)
  | tagged (tag : String) (value : Yaml.Value) : YamlRefused (.tagged tag value)

/-- The name of a variable from the key of an entry: a text as it is, and any other value by its
text. -/
inductive YamlKey : Yaml.Value → String → Prop
  | text (s : String) : YamlKey (.text s) s
  | other {v : Yaml.Value} : (∀ s, v ≠ .text s) → YamlKey v v.plainText

/-- The pairs of a JSON object, one for each of its members that count. -/
def JsonHolds (text : String) (pairs : List (String × String)) : Prop :=
  ∃ written members, Json.written? text = .ok written ∧ Json.Counts written members ∧
    List.Forall₂ (fun m p => m.1 = p.1 ∧ JsonScalar m.2 p.2) members pairs

/-- A text is no JSON object, or the first of its members that count is refused. -/
inductive JsonFails (file : Option String) (text : String) : Failure → Prop
  | malformed {fault : Json.Fault} : Json.written? text = .error fault →
      JsonFails file text (.jsonMalformed fault file)
  | refused {written members : List (String × Json.Value)} {f : Failure} :
      Json.written? text = .ok written → Json.Counts written members →
      First (fun m => JsonRefused m.2)
        (fun m => JsonRefused m.2 ∧ f = .notScalar m.1 m.2.compact file) members →
      JsonFails file text f

/-- The pairs of a YAML mapping, one for each of its entries. A blank text is an empty mapping. -/
inductive YamlHolds (text : String) : List (String × String) → Prop
  | blank : Text.isBlank text = true → YamlHolds text []
  | mapping {entries : List (Yaml.Value × Yaml.Value)} {pairs : List (String × String)} :
      Text.isBlank text = false →
      (Yaml.Document.ofText? text).bind Yaml.Document.entries? = some entries →
      List.Forall₂ (fun e p => YamlKey e.1 p.1 ∧ YamlScalar e.2 p.2) entries pairs →
      YamlHolds text pairs

/-- A text is no YAML mapping, or the first of its entries whose value is refused. -/
inductive YamlFails (file text : String) : Failure → Prop
  | malformed : Text.isBlank text = false →
      (Yaml.Document.ofText? text).bind Yaml.Document.entries? = none →
      YamlFails file text (.variablesMalformed file)
  | refused {entries : List (Yaml.Value × Yaml.Value)} {f : Failure} :
      Text.isBlank text = false →
      (Yaml.Document.ofText? text).bind Yaml.Document.entries? = some entries →
      First (fun e => YamlRefused e.2)
        (fun e => YamlRefused e.2 ∧ ∃ name, YamlKey e.1 name ∧ f = .notScalar name e.2.plainText none)
        entries →
      YamlFails file text f

/-- The name of a file shows how it is read. -/
inductive IsReadAs (path : Path) : FileFormat → Prop
  | json : Path.EndsIn path ".json" → IsReadAs path .json
  | yaml : ¬ Path.EndsIn path ".json" → Path.EndsIn path ".yaml" ∨ Path.EndsIn path ".yml" →
      IsReadAs path .yaml

/-- A file cannot be read. One that does not exist is told apart. -/
inductive FileFails (fs : FileSystem) (role : FileRole) (path : Path) : Failure → Prop
  | missing : fs.readText path = .error .missing →
      FileFails fs role path (.fileMissing role (Path.shown path))
  | other {e : FileError} : fs.readText path = .error e → e ≠ .missing →
      FileFails fs role path (.fileUnreadable role (Path.shown path) e)

variable {fs : FileSystem} {host : Host} {path : Path} {role : FileRole} {text file name : String}
  {f : Failure} {pairs : List (String × String)} {json? : Option String}

/-! ## Members and entries -/

theorem jsonText_ok_iff {v : Json.Value} {s : String} :
    jsonText json? name v = .ok s ↔ JsonScalar v s := by
  constructor
  · intro h
    cases v with
    | text t => exact Except.ok.inj h ▸ .text t
    | int n => exact Except.ok.inj h ▸ .int n
    | float d => exact Except.ok.inj h ▸ .float d
    | bool b =>
      obtain rfl := Except.ok.inj h
      cases b with
      | true => exact .true
      | false => exact .false
    | null => exact nomatch h
    | array items => exact nomatch h
    | object members => exact nomatch h
  · rintro (_ | _ | _ | _ | _) <;> rfl

theorem jsonText_error_iff {v : Json.Value} :
    jsonText json? name v = .error f ↔ JsonRefused v ∧ f = .notScalar name v.compact json? := by
  constructor
  · intro h
    cases v with
    | text t => exact nomatch h
    | int n => exact nomatch h
    | float d => exact nomatch h
    | bool b => exact nomatch h
    | null => exact ⟨.null, (Except.error.inj h).symm⟩
    | array items => exact ⟨.array items, (Except.error.inj h).symm⟩
    | object members => exact ⟨.object members, (Except.error.inj h).symm⟩
  · rintro ⟨_ | _ | _, rfl⟩ <;> rfl

theorem yamlText_ok_iff {v : Yaml.Value} {s : String} : yamlText name v = .ok s ↔ YamlScalar v s := by
  constructor
  · intro h
    cases v with
    | text t => exact Except.ok.inj h ▸ .text t
    | int n => exact Except.ok.inj h ▸ .int n
    | float d => exact Except.ok.inj h ▸ .float d
    | bool b =>
      obtain rfl := Except.ok.inj h
      cases b with
      | true => exact .true
      | false => exact .false
    | null => exact nomatch h
    | list items => exact nomatch h
    | map entries => exact nomatch h
    | tagged tag value => exact nomatch h
  · rintro (_ | _ | _ | _ | _) <;> rfl

theorem yamlText_error_iff {v : Yaml.Value} :
    yamlText name v = .error f ↔ YamlRefused v ∧ f = .notScalar name v.plainText none := by
  constructor
  · intro h
    cases v with
    | text t => exact nomatch h
    | int n => exact nomatch h
    | float d => exact nomatch h
    | bool b => exact nomatch h
    | null => exact ⟨.null, (Except.error.inj h).symm⟩
    | list items => exact ⟨.list items, (Except.error.inj h).symm⟩
    | map entries => exact ⟨.map entries, (Except.error.inj h).symm⟩
    | tagged tag value => exact ⟨.tagged tag value, (Except.error.inj h).symm⟩
  · rintro ⟨_ | _ | _ | _, rfl⟩ <;> rfl

theorem yamlKey_iff {v : Yaml.Value} {s : String} : YamlKey v s ↔ keyText v = s := by
  constructor
  · intro h
    cases h with
    | text => rfl
    | other hother =>
      unfold keyText
      split
      · exact absurd rfl (hother _)
      · rfl
  · rintro rfl
    unfold keyText
    split
    · exact .text _
    · rename_i hother
      exact .other hother

theorem pairsOf_eq_mapM {α : Type} (pair : α → Except Failure (String × String)) (ms : List α) :
    pairsOf pair ms = ms.mapM pair := by
  induction ms with
  | nil => rfl
  | cons m ms ih =>
    rw [pairsOf, ih, List.mapM_cons]
    cases pair m with
    | error g => rfl
    | ok p => cases ms.mapM pair <;> rfl

theorem pairsOf_ok_iff {α : Type} {pair : α → Except Failure (String × String)} {ms : List α} :
    pairsOf pair ms = .ok pairs ↔ List.Forall₂ (fun m p => pair m = .ok p) ms pairs := by
  rw [pairsOf_eq_mapM, Except.mapM_eq_ok_iff]

theorem pairsOf_error_iff {α : Type} {pair : α → Except Failure (String × String)} {ms : List α} :
    pairsOf pair ms = .error f ↔
      First (fun m => ∃ g, pair m = .error g) (fun m => pair m = .error f) ms := by
  induction ms with
  | nil => exact ⟨nofun, fun h => (not_first_nil h).elim⟩
  | cons m ms ih =>
    rw [pairsOf, first_cons, ← ih]
    cases hpair : pair m with
    | error g => simp
    | ok p =>
      cases hrest : pairsOf pair ms with
      | error g => simp
      | ok ps => simp

theorem jsonMembers_ok_iff {members : List (String × Json.Value)} :
    pairsOf (fun m => (jsonText json? m.1 m.2).map (m.1, ·)) members = .ok pairs ↔
      List.Forall₂ (fun m p => m.1 = p.1 ∧ JsonScalar m.2 p.2) members pairs := by
  simp only [pairsOf_ok_iff, Except.map_pair_eq_ok_iff, jsonText_ok_iff]

theorem jsonMembers_error_iff {members : List (String × Json.Value)} :
    pairsOf (fun m => (jsonText json? m.1 m.2).map (m.1, ·)) members = .error f ↔
      First (fun m => JsonRefused m.2)
        (fun m => JsonRefused m.2 ∧ f = .notScalar m.1 m.2.compact json?) members := by
  simp only [pairsOf_error_iff, Except.map_eq_error_iff, jsonText_error_iff, exists_and_left,
    exists_eq, and_true]

theorem yamlEntries_ok_iff {entries : List (Yaml.Value × Yaml.Value)} :
    pairsOf (fun e => (yamlText (keyText e.1) e.2).map (keyText e.1, ·)) entries = .ok pairs ↔
      List.Forall₂ (fun e p => YamlKey e.1 p.1 ∧ YamlScalar e.2 p.2) entries pairs := by
  simp only [pairsOf_ok_iff, Except.map_pair_eq_ok_iff, yamlText_ok_iff, yamlKey_iff]

theorem yamlEntries_error_iff {entries : List (Yaml.Value × Yaml.Value)} :
    pairsOf (fun e => (yamlText (keyText e.1) e.2).map (keyText e.1, ·)) entries = .error f ↔
      First (fun e => YamlRefused e.2) (fun e => YamlRefused e.2 ∧
        ∃ name, YamlKey e.1 name ∧ f = .notScalar name e.2.plainText none) entries := by
  simp only [pairsOf_error_iff, Except.map_eq_error_iff, yamlText_error_iff, yamlKey_iff,
    exists_and_left, exists_eq, exists_eq_left', and_true]

theorem ofJson_of_written {written : List (String × Json.Value)}
    (h : Json.written? text = .ok written) :
    ofJson json? text = pairsOf (fun m => (jsonText json? m.1 m.2).map (m.1, ·))
      (Json.countedMembers written) := by
  rw [ofJson, Json.object?, h]
  rfl

theorem ofJson_of_fault {fault : Json.Fault} (h : Json.written? text = .error fault) :
    ofJson json? text = .error (.jsonMalformed fault json?) := by
  rw [ofJson, Json.object?, h]
  rfl

theorem ofJson_ok_iff : ofJson json? text = .ok pairs ↔ JsonHolds text pairs := by
  cases hwritten : Json.written? text with
  | error fault => simp [ofJson_of_fault hwritten, JsonHolds, hwritten]
  | ok written =>
    rw [ofJson_of_written hwritten, jsonMembers_ok_iff]
    simp [JsonHolds, hwritten, ← Json.countedMembers_eq_iff]

theorem ofJson_error_iff : ofJson json? text = .error f ↔ JsonFails json? text f := by
  constructor
  · intro h
    cases hwritten : Json.written? text with
    | error fault =>
      rw [ofJson_of_fault hwritten] at h
      exact Except.error.inj h ▸ .malformed hwritten
    | ok written =>
      rw [ofJson_of_written hwritten] at h
      exact .refused hwritten (Json.counts_countedMembers written) (jsonMembers_error_iff.mp h)
  · rintro (hfault | ⟨hwritten, hcounts, hrefused⟩)
    · exact ofJson_of_fault hfault
    · rw [ofJson_of_written hwritten, Json.countedMembers_eq_iff.mpr hcounts]
      exact jsonMembers_error_iff.mpr hrefused

theorem ofYaml_of_blank (h : Text.isBlank text = true) : ofYaml file text = .ok [] :=
  if_pos h

section Filled

variable (hfilled : Text.isBlank text = false)
include hfilled

theorem ofYaml_of_malformed
    (h : (Yaml.Document.ofText? text).bind Yaml.Document.entries? = none) :
    ofYaml file text = .error (.variablesMalformed file) := by
  rw [ofYaml, hfilled, h]
  rfl

theorem ofYaml_of_entries {entries : List (Yaml.Value × Yaml.Value)}
    (h : (Yaml.Document.ofText? text).bind Yaml.Document.entries? = some entries) :
    ofYaml file text =
      pairsOf (fun e => (yamlText (keyText e.1) e.2).map (keyText e.1, ·)) entries := by
  rw [ofYaml, hfilled, h]
  rfl

end Filled

theorem ofYaml_ok_iff : ofYaml file text = .ok pairs ↔ YamlHolds text pairs := by
  constructor
  · intro h
    cases hblank : Text.isBlank text with
    | true =>
      rw [ofYaml_of_blank hblank] at h
      exact Except.ok.inj h ▸ .blank hblank
    | false =>
      cases hentries : (Yaml.Document.ofText? text).bind Yaml.Document.entries? with
      | none => exact nomatch (ofYaml_of_malformed hblank hentries).symm.trans h
      | some entries =>
        rw [ofYaml_of_entries hblank hentries] at h
        exact .mapping hblank hentries (yamlEntries_ok_iff.mp h)
  · rintro (hblank | ⟨hfilled, hentries, hpairs⟩)
    · exact ofYaml_of_blank hblank
    · rw [ofYaml_of_entries hfilled hentries]
      exact yamlEntries_ok_iff.mpr hpairs

theorem ofYaml_error_iff : ofYaml file text = .error f ↔ YamlFails file text f := by
  constructor
  · intro h
    cases hblank : Text.isBlank text with
    | true => exact nomatch (ofYaml_of_blank hblank).symm.trans h
    | false =>
      cases hentries : (Yaml.Document.ofText? text).bind Yaml.Document.entries? with
      | none =>
        rw [ofYaml_of_malformed hblank hentries] at h
        exact Except.error.inj h ▸ .malformed hblank hentries
      | some entries =>
        rw [ofYaml_of_entries hblank hentries] at h
        exact .refused hblank hentries (yamlEntries_error_iff.mp h)
  · rintro (⟨hfilled, hentries⟩ | ⟨hfilled, hentries, hrefused⟩)
    · exact ofYaml_of_malformed hfilled hentries
    · rw [ofYaml_of_entries hfilled hentries]
      exact yamlEntries_error_iff.mpr hrefused

/-! ## Files -/

theorem ofPath?_eq_some_iff {format : FileFormat} :
    FileFormat.ofPath? path = some format ↔ IsReadAs path format := by
  have hjson : Path.hasEnding path ".json" = true ↔ Path.EndsIn path ".json" :=
    Path.hasEnding_iff (by decide)
  have hyaml : (Path.hasEnding path ".yaml" || Path.hasEnding path ".yml") = true ↔
      Path.EndsIn path ".yaml" ∨ Path.EndsIn path ".yml" := by
    rw [Bool.or_eq_true, Path.hasEnding_iff (by decide), Path.hasEnding_iff (by decide)]
  unfold FileFormat.ofPath?
  constructor
  · intro h
    split_ifs at h with h₁ h₂
    · exact Option.some.inj h ▸ .json (hjson.mp h₁)
    · exact Option.some.inj h ▸ .yaml (mt hjson.mpr h₁) (hyaml.mp h₂)
  · intro h
    cases h with
    | json h => rw [if_pos (hjson.mpr h)]
    | yaml hnot h => rw [if_neg (mt hjson.mp hnot), if_pos (hyaml.mpr h)]

theorem fileText_ok_iff : fileText fs role path = .ok text ↔ fs.readText path = .ok text := by
  unfold fileText
  rcases fs.readText path with e | t
  · cases e <;> exact ⟨nofun, nofun⟩
  · simp only [Except.ok.injEq]

theorem fileText_error_iff : fileText fs role path = .error f ↔ FileFails fs role path f := by
  unfold fileText
  constructor
  · intro h
    split at h
    · exact nomatch h
    · rename_i hmissing
      obtain rfl := Except.error.inj h
      exact .missing hmissing
    · rename_i e hne herror
      obtain rfl := Except.error.inj h
      exact .other herror hne
  · intro h
    cases h with
    | missing hmissing => rw [hmissing]
    | @other e herror hne =>
      rw [herror]
      cases e <;> first | rfl | exact (hne rfl).elim

inductive FileHolds (fs : FileSystem) (path : Path) (pairs : List (String × String)) : Prop
  | json {text : String} : IsReadAs path .json → fs.readText path = .ok text →
      JsonHolds text pairs → FileHolds fs path pairs
  | yaml {text : String} : IsReadAs path .yaml → fs.readText path = .ok text →
      YamlHolds text pairs → FileHolds fs path pairs

/-- A file has another ending, or it cannot be read, or its text is not what it has to be. -/
inductive VariableFileFails (fs : FileSystem) (path : Path) : Failure → Prop
  | format : (∀ format, ¬ IsReadAs path format) →
      VariableFileFails fs path (.variablesFormat (Path.shown path))
  | unreadable {format : FileFormat} {f : Failure} : IsReadAs path format →
      FileFails fs .variableFile path f → VariableFileFails fs path f
  | json {text : String} {f : Failure} : IsReadAs path .json → fs.readText path = .ok text →
      JsonFails (some (Path.shown path)) text f → VariableFileFails fs path f
  | yaml {text : String} {f : Failure} : IsReadAs path .yaml → fs.readText path = .ok text →
      YamlFails (Path.shown path) text f → VariableFileFails fs path f

theorem ofFile_of_format {format : FileFormat} (h : IsReadAs path format) :
    ofFile fs path = fileText fs .variableFile path >>= fun content =>
      match format with
      | .json => ofJson (some (Path.shown path)) content
      | .yaml => ofYaml (Path.shown path) content := by
  unfold ofFile
  rw [ofPath?_eq_some_iff.mpr h]
  cases fileText fs .variableFile path <;> rfl

theorem isReadAs_or_not (path : Path) :
    (∃ format, IsReadAs path format) ∨ ∀ format, ¬ IsReadAs path format := by
  by_cases h : ∃ format, IsReadAs path format
  · exact .inl h
  · exact .inr fun format hformat => h ⟨format, hformat⟩

theorem ofFile_of_no_format (h : ∀ format, ¬ IsReadAs path format) :
    ofFile fs path = .error (.variablesFormat (Path.shown path)) := by
  unfold ofFile
  cases hformat : FileFormat.ofPath? path with
  | none => rfl
  | some format => exact absurd (ofPath?_eq_some_iff.mp hformat) (h format)

theorem ofFile_ok_iff : ofFile fs path = .ok pairs ↔ FileHolds fs path pairs := by
  constructor
  · intro h
    obtain ⟨format, hformat⟩ | hnone := isReadAs_or_not path
    · rw [ofFile_of_format hformat] at h
      obtain ⟨text, htext, hpairs⟩ := Except.bind_eq_ok_iff.mp h
      cases format with
      | json => exact .json hformat (fileText_ok_iff.mp htext) (ofJson_ok_iff.mp hpairs)
      | yaml => exact .yaml hformat (fileText_ok_iff.mp htext) (ofYaml_ok_iff.mp hpairs)
    · rw [ofFile_of_no_format hnone] at h
      exact nomatch h
  · intro h
    cases h with
    | @json text hformat htext hpairs =>
      rw [ofFile_of_format hformat]
      exact Except.bind_eq_ok_iff.mpr ⟨text, fileText_ok_iff.mpr htext, ofJson_ok_iff.mpr hpairs⟩
    | @yaml text hformat htext hpairs =>
      rw [ofFile_of_format hformat]
      exact Except.bind_eq_ok_iff.mpr ⟨text, fileText_ok_iff.mpr htext, ofYaml_ok_iff.mpr hpairs⟩

theorem ofFile_error_iff : ofFile fs path = .error f ↔ VariableFileFails fs path f := by
  constructor
  · intro h
    obtain ⟨format, hformat⟩ | hnone := isReadAs_or_not path
    · rw [ofFile_of_format hformat] at h
      obtain hread | ⟨text, htext, hpairs⟩ := Except.bind_eq_error_iff.mp h
      · exact .unreadable hformat (fileText_error_iff.mp hread)
      · cases format with
        | json => exact .json hformat (fileText_ok_iff.mp htext) (ofJson_error_iff.mp hpairs)
        | yaml => exact .yaml hformat (fileText_ok_iff.mp htext) (ofYaml_error_iff.mp hpairs)
    · rw [ofFile_of_no_format hnone] at h
      obtain rfl := Except.error.inj h
      exact .format hnone
  · intro h
    cases h with
    | format hnone => exact ofFile_of_no_format hnone
    | unreadable hformat hread =>
      rw [ofFile_of_format hformat]
      exact Except.bind_eq_error_iff.mpr (.inl (fileText_error_iff.mpr hread))
    | @json text _ hformat htext hfails =>
      rw [ofFile_of_format hformat]
      exact Except.bind_eq_error_iff.mpr
        (.inr ⟨text, fileText_ok_iff.mpr htext, ofJson_error_iff.mpr hfails⟩)
    | @yaml text _ hformat htext hfails =>
      rw [ofFile_of_format hformat]
      exact Except.bind_eq_error_iff.mpr
        (.inr ⟨text, fileText_ok_iff.mpr htext, ofYaml_error_iff.mpr hfails⟩)

/-! ## Sources -/

/-- The pairs of the file of sources, if there is one. Its path is completed first. -/
inductive Sources.FilePairs (s : Sources) (fs : FileSystem) (host : Host) :
    List (String × String) → Prop
  | none : s.file = none → FilePairs s fs host []
  | some {file path : Path} {pairs : List (String × String)} : s.file = some file →
      host.expand (Path.shown file) = .ok path → FileHolds fs path pairs → FilePairs s fs host pairs

/-- The file of sources fails, or the current directory cannot be reached to complete its path. -/
inductive Sources.FileFails (s : Sources) (fs : FileSystem) (host : Host) : Failure → Prop
  | currentDir {file : Path} {e : FileError} : s.file = some file → host.currentDir = .error e →
      FileFails s fs host (.currentDirUnknown e)
  | file {file path : Path} {f : Failure} : s.file = some file →
      host.expand (Path.shown file) = .ok path → VariableFileFails fs path f → FileFails s fs host f

inductive Sources.JsonPairs (s : Sources) : List (String × String) → Prop
  | none : s.json = none → JsonPairs s []
  | some {json : String} {pairs : List (String × String)} : s.json = some json →
      JsonHolds json pairs → JsonPairs s pairs

variable {s : Sources}

theorem Sources.filePairs_ok_iff : s.filePairs fs host = .ok pairs ↔ s.FilePairs fs host pairs := by
  unfold filePairs
  constructor
  · intro h
    split at h
    · rename_i file hfile
      obtain ⟨path, hpath, hpairs⟩ := Except.bind_eq_ok_iff.mp h
      exact .some hfile hpath (ofFile_ok_iff.mp hpairs)
    · rename_i hfile
      obtain rfl := Except.ok.inj h
      exact .none hfile
  · intro h
    cases h with
    | none hfile => rw [hfile]
    | @some file path _ hfile hpath hpairs =>
      rw [hfile]
      exact Except.bind_eq_ok_iff.mpr ⟨path, hpath, ofFile_ok_iff.mpr hpairs⟩

theorem Sources.filePairs_error_iff : s.filePairs fs host = .error f ↔ s.FileFails fs host f := by
  unfold filePairs
  constructor
  · intro h
    split at h
    · rename_i file hfile
      obtain hexpand | ⟨path, hpath, hfails⟩ := Except.bind_eq_error_iff.mp h
      · obtain ⟨e, he, rfl⟩ := Host.expand_eq_error_iff.mp hexpand
        exact .currentDir hfile he
      · exact .file hfile hpath (ofFile_error_iff.mp hfails)
    · exact nomatch h
  · intro h
    cases h with
    | @currentDir file e hfile he =>
      rw [hfile]
      exact Except.bind_eq_error_iff.mpr (.inl (Host.expand_of_error he _))
    | @file file path _ hfile hpath hfails =>
      rw [hfile]
      exact Except.bind_eq_error_iff.mpr (.inr ⟨path, hpath, ofFile_error_iff.mpr hfails⟩)

theorem Sources.jsonPairs_ok_iff : s.jsonPairs = .ok pairs ↔ s.JsonPairs pairs := by
  unfold jsonPairs
  constructor
  · intro h
    split at h
    · rename_i json hjson
      exact .some hjson (ofJson_ok_iff.mp h)
    · rename_i hjson
      obtain rfl := Except.ok.inj h
      exact .none hjson
  · intro h
    cases h with
    | none hjson => rw [hjson]
    | some hjson hpairs =>
      rw [hjson]
      exact ofJson_ok_iff.mpr hpairs

theorem Sources.jsonPairs_error_iff :
    s.jsonPairs = .error f ↔ ∃ json, s.json = some json ∧ JsonFails none json f := by
  unfold jsonPairs
  cases hjson : s.json with
  | none => simp
  | some json => simp [ofJson_error_iff]

end Variables

end PromptRunner
