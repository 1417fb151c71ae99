import Mathlib.Tactic.Choose
import PromptRunner.Prompt.Document
import PromptRunner.Proofs.Yaml.Reading

/-!
# Metadata in the two shapes of documents

Metadata is read directly from a block before a text, and by way of values from a structured
document. The two readings differ where a scalar of another kind stands for a text, and where
requirements are a list. They agree on metadata in which everything is written as what it is.
-/

namespace PromptRunner

open Yaml Decoder

variable {d : Document} {t : Tree}

/-- The fields of requirements that are lists and never left out. -/
def listNames : List String :=
  ["commands", "environment", "directories"]

def textNames : List String :=
  ["name", "description", "model"]

def metadataNames : List String :=
  ["name", "description", "model", "requirements"]

/-! ## Nodes of one kind -/

/-- A scalar that is a text: a quoted one, a plain one that stands for nothing else, or one under a
tag that makes it a text. -/
inductive IsText (d : Document) (t : Tree) : String → Prop
  | quoted {p : Properties} {cs : List Char} (node : d.node? t = some (.scalar p cs .quoted))
      (tag : p.tag = none) : IsText d t (String.ofList cs)
  | plain {p : Properties} {cs : List Char} (node : d.node? t = some (.scalar p cs .plain))
      (tag : p.tag = none) (text : resolve cs = .text) : IsText d t (String.ofList cs)
  | tagged {p : Properties} {cs : List Char} {style : Style} {tag : List Char}
      (node : d.node? t = some (.scalar p cs style)) (tag_eq : p.tag = some tag)
      (foreign : Decode.ownTag? tag = none)
      (kind : tag ∉ [Decode.boolTag, Decode.intTag, Decode.floatTag, Decode.nullTag]) :
      IsText d t (String.ofList cs)

def IsNothing (d : Document) (t : Tree) : Prop :=
  ∃ p cs, d.node? t = some (.scalar p cs .plain) ∧ p.tag = none ∧ resolve cs = .null

def IsTexts (d : Document) (t : Tree) : Prop :=
  ∃ p items, d.node? t = some (.sequence p items) ∧ p.tag.bind Decode.ownTag? = none ∧
    ∀ item ∈ items, ∃ text, IsText d item text

/-- A field of requirements: lists of texts, and tools may be left out. Another field has to be
readable and must not refer to other nodes. -/
inductive IsRequirement (d : Document) (t : Tree) : String → Prop
  | list {name : String} (mem : name ∈ listNames)
      (texts : IsTexts d t) : IsRequirement d t name
  | tools (texts : IsTexts d t) : IsRequirement d t "tools"
  | noTools (nothing : IsNothing d t) : IsRequirement d t "tools"
  | other {name : String} {v : Value} (other : name ∉ Requirements.fieldNames)
      (value : Reads (Decode.value d Decode.untagged (Decode.depthLimit - 2) t) 0 (some v)) :
      IsRequirement d t name

def IsRequirements (d : Document) (t : Tree) : Prop :=
  ∃ p entries, d.node? t = some (.mapping p entries) ∧ p.tag.bind Decode.ownTag? = none ∧
    ∀ e ∈ entries, ∃ name, IsText d e.1 name ∧ IsRequirement d e.2 name

/-- A field of metadata: texts and requirements, each of which may be left out. -/
inductive IsField (d : Document) (t : Tree) : String → Prop
  | text {name s : String} (mem : name ∈ textNames) (text : IsText d t s) :
      IsField d t name
  | requirements (requirements : IsRequirements d t) : IsField d t "requirements"
  | nothing {name : String} (mem : name ∈ metadataNames)
      (nothing : IsNothing d t) : IsField d t name

def IsMetadata (d : Document) : Prop :=
  ∃ p entries, d.root = some (.mapping p entries) ∧
    ∀ e ∈ entries, ∃ name, d.text? e.1 = some name ∧ IsField d e.2 name

/-! ## The two readings of a node -/

theorem IsText.text? {s : String} (h : IsText d t s) : d.text? t = some s := by
  cases h with
  | quoted node tag => rw [Document.text?, node]; rfl
  | plain node tag text => rw [Document.text?, node]; rfl
  | tagged node tag_eq foreign kind => rw [Document.text?, node]; rfl

theorem IsText.reads_value {s : String} (h : IsText d t s) (depth : Nat) :
    Reads (Decode.value d Decode.untagged depth t) t.aliases (some (.text s)) := by
  cases h with
  | quoted node tag =>
    refine reads_value_scalar node ?_
    rw [Decode.scalar, tag]
    exact reads_lift _
  | @plain p cs node tag text =>
    have hvalue : Decode.untaggedValue cs .plain = some (.text (String.ofList cs)) := by
      rw [Decode.untaggedValue, Decode.plainValue, text]
    refine reads_value_scalar node ?_
    rw [Decode.scalar, tag, hvalue]
    exact reads_lift _
  | @tagged p cs style tag node tag_eq foreign kind =>
    have hvalue : Decode.forcedValue tag cs = some (.text (String.ofList cs)) := by
      simp only [List.mem_cons, List.not_mem_nil, or_false, not_or] at kind
      rw [Decode.forcedValue, if_neg kind.1, if_neg kind.2.1, if_neg kind.2.2.1, if_neg kind.2.2.2]
    refine reads_value_scalar node ?_
    rw [Decode.scalar, tag_eq]
    simp only [foreign, Option.isSome_none, Bool.false_eq_true, if_false, hvalue]
    exact reads_lift _

theorem IsNothing.reads_value (h : IsNothing d t) (depth : Nat) :
    Reads (Decode.value d Decode.untagged depth t) t.aliases (some .null) := by
  obtain ⟨p, cs, node, tag, null⟩ := h
  have hvalue : Decode.untaggedValue cs .plain = some .null := by
    rw [Decode.untaggedValue, Decode.plainValue, null]
  refine reads_value_scalar node ?_
  rw [Decode.scalar, tag, hvalue]
  exact reads_lift _

theorem resolve_eq_null_iff {cs : List Char} :
    resolve cs = .null ↔ (cs.isEmpty || Resolve.isNull cs) = true := by
  rw [resolve]
  by_cases h : (cs.isEmpty || Resolve.isNull cs) = true
  · rw [if_pos h]
    exact ⟨fun _ => h, fun _ => rfl⟩
  · rw [if_neg h]
    refine ⟨fun hnull => ?_, fun hnull => absurd hnull h⟩
    split at hnull
    · exact nomatch hnull
    · split at hnull
      · exact nomatch hnull
      · split_ifs at hnull
        split at hnull <;> exact nomatch hnull

theorem IsNothing.reads_optional (h : IsNothing d t) :
    Reads (Decode.optional d t) t.aliases (some none) := by
  obtain ⟨p, cs, node, tag, null⟩ := h
  unfold Decode.optional
  refine (reads_node node).ending ?_
  simp only [tag, resolve_eq_null_iff.mp null, if_true]
  exact reads_pure none

theorem reads_optional_plain {p : Properties} {cs : List Char}
    (node : d.node? t = some (.scalar p cs .plain)) (tag : p.tag = none)
    (h : resolve cs ≠ .null) :
    Reads (Decode.optional d t) t.aliases (some (some (.scalar p cs .plain))) := by
  have hnull : (cs.isEmpty || Resolve.isNull cs) = false :=
    Bool.eq_false_iff.mpr (mt resolve_eq_null_iff.mpr h)
  unfold Decode.optional
  refine (reads_node node).ending ?_
  simp only [tag, hnull, Bool.false_eq_true, if_false]
  exact reads_pure _

theorem IsText.reads_optional {s : String} (h : IsText d t s) :
    ∃ t', t'.aliases = 0 ∧ d.text? t' = some s ∧
      Reads (Decode.optional d t) t.aliases (some (some t')) := by
  cases h with
  | @quoted p cs node tag =>
    refine ⟨.scalar p cs .quoted, rfl, rfl, ?_⟩
    unfold Decode.optional
    exact (reads_node node).ending (reads_pure _)
  | @plain p cs node tag text =>
    refine ⟨.scalar p cs .plain, rfl, rfl, reads_optional_plain node tag ?_⟩
    rw [text]
    nofun
  | @tagged p cs style tag node tag_eq foreign kind =>
    refine ⟨.scalar p cs style, rfl, rfl, ?_⟩
    unfold Decode.optional
    refine (reads_node node).ending ?_
    have hnull : tag ≠ Decode.nullTag := fun h => kind (by simp [h])
    cases style with
    | plain =>
      simp only [tag_eq, hnull, if_false]
      exact reads_pure _
    | quoted => exact reads_pure _

/-! ## The two readings of a field -/

/-- A node is read alike: directly, and from its value by `convert`. Both follow the same
aliases. -/
def Alike {α : Type} (d : Document) (depth : Nat) (read : Tree → Decoder α)
    (convert : Value → Option α) (t : Tree) : Prop :=
  ∃ n v, Reads (Decode.value d Decode.untagged depth t) n (some v) ∧ Reads (read t) n (convert v)

theorem IsText.alike {s : String} (h : IsText d t s) (depth : Nat) :
    Alike d depth (Decode.optionalText d) Metadata.textOf? t := by
  obtain ⟨t', haliases, htext, hoptional⟩ := h.reads_optional
  refine ⟨t.aliases, .text s, h.reads_value depth, ?_⟩
  have hread : Reads (Decode.text d t') 0 (some s) := haliases ▸ htext ▸ reads_text d t'
  unfold Decode.optionalText
  exact hoptional.ending (hread.map some)

theorem IsTexts.reads (h : IsTexts d t) (depth : Nat) :
    ∃ n texts,
      Reads (Decode.value d Decode.untagged (depth + 1) t) (t.aliases + n)
        (some (.list (texts.map .text))) ∧
      Reads (Decode.texts d t) (t.aliases + n) (some texts) ∧
      ∃ t', Reads (Decode.optional d t) t.aliases (some (some t')) ∧
        Reads (Decode.texts d t') n (some texts) := by
  obtain ⟨p, items, node, htag, hitems⟩ := h
  choose! text htext using hitems
  have hwritten : ∀ item ∈ items, d.text? item = some (text item) :=
    fun item hitem => (htext item hitem).text?
  refine ⟨total Tree.aliases items, items.map text, ?_, reads_texts node hwritten,
    .sequence p items, ?_, ?_⟩
  · rw [List.map_map]
    exact reads_value_sequence node htag fun item hitem => (htext item hitem).reads_value depth
  · unfold Decode.optional
    exact (reads_node node).ending (reads_pure _)
  · have hread := reads_texts (t := .sequence p items) rfl hwritten
    exact hread.congr (Nat.zero_add _)

theorem mapM_map_some {α β γ : Type} {f : β → Option γ} {g : α → β} {k : α → γ}
    (h : ∀ a, f (g a) = some (k a)) (as : List α) : (as.map g).mapM f = some (as.map k) := by
  induction as with
  | nil => rfl
  | cons a as ih =>
    rw [List.map_cons, List.mapM_cons, h, ih]
    rfl

theorem textsOf?_texts (texts : List String) :
    Requirements.textsOf? (.list (texts.map .text)) = some texts := by
  rw [Requirements.textsOf?, mapM_map_some (k := id), List.map_id]
  exact fun _ => rfl

theorem IsTexts.alike (h : IsTexts d t) (depth : Nat) :
    Alike d (depth + 1) (Decode.texts d) Requirements.textsOf? t := by
  obtain ⟨n, texts, hvalue, htexts, -⟩ := h.reads depth
  exact ⟨_, _, hvalue, by rwa [textsOf?_texts]⟩

def toolsField (d : Document) (t : Tree) : Decoder (Option (List String)) := do
  match ← Decode.optional d t with
  | some t => some <$> Decode.texts d t
  | none => pure none

theorem IsTexts.alike_tools (h : IsTexts d t) (depth : Nat) :
    Alike d (depth + 1) (toolsField d) Requirements.toolsOf? t := by
  obtain ⟨n, texts, hvalue, -, t', hoptional, htexts⟩ := h.reads depth
  refine ⟨_, _, hvalue, ?_⟩
  have htools : Requirements.toolsOf? (.list (texts.map .text)) = some (some texts) := by
    rw [Requirements.toolsOf?, textsOf?_texts, Option.map_some]
    nofun
  rw [htools]
  exact hoptional.andThen (htexts.map some)

theorem IsNothing.alike_tools (h : IsNothing d t) (depth : Nat) :
    Alike d depth (toolsField d) Requirements.toolsOf? t :=
  ⟨_, _, h.reads_value depth, h.reads_optional.ending (reads_pure none)⟩

/-! ## The two readings of a record -/

/-- A field is read alike from the fields of a node and from their values, if every node under its
name is. -/
theorem reads_field {α : Type} {name : String} {fs : List (String × Tree)}
    {count : String × Tree → Nat} {v : String × Tree → Value} (missing : α)
    {read : Tree → Decoder α} {convert : Value → Option α}
    (h : ∀ f ∈ fs, f.1 = name → Reads (read f.2) (count f) (convert (v f))) :
    Reads (Decode.field name fs missing read) (total count (fs.filter (·.1 == name)))
      (Requirements.fieldOf? name (fs.map fun f => (f.1, v f)) missing convert) := by
  have hvalues : (fs.map fun f => (f.1, v f)).filter (·.1 == name) =
      (fs.filter (·.1 == name)).map fun f => (f.1, v f) := by
    rw [List.filter_map]
    rfl
  have hnamed : ∀ f ∈ fs.filter (·.1 == name), Reads (read f.2) (count f) (convert (v f)) := by
    intro f hf
    obtain ⟨hmem, hname⟩ := List.mem_filter.mp hf
    exact h f hmem (beq_iff_eq.mp hname)
  rw [Decode.field, Requirements.fieldOf?, field?, field?, hvalues]
  cases hfs : fs.filter (·.1 == name) with
  | nil => exact reads_pure missing
  | cons f rest =>
    cases rest with
    | nil => exact hnamed f (hfs ▸ List.mem_cons_self)
    | cons g rest => exact reads_failure _

/-- The aliases of all fields are those of the fields with each of the names, if there are none in
other fields. -/
theorem total_by_name {names : List String} (hnodup : names.Nodup) {count : String × Tree → Nat}
    {fs : List (String × Tree)} (h : ∀ f ∈ fs, f.1 ∉ names → count f = 0) :
    total count fs = total (fun name => total count (fs.filter (·.1 == name))) names := by
  induction names generalizing fs with
  | nil => exact total_eq_zero fun f hf => h f hf List.not_mem_nil
  | cons name names ih =>
    obtain ⟨hname, hnodup⟩ := List.nodup_cons.mp hnodup
    have hothers : ∀ f ∈ fs.filter fun f => !(f.1 == name), f.1 ∉ names → count f = 0 := by
      intro f hf hmem
      obtain ⟨hf, hne⟩ := List.mem_filter.mp hf
      exact h f hf (not_or.mpr ⟨by simpa using hne, hmem⟩ ∘ List.mem_cons.mp)
    have hsame : ∀ name' ∈ names, (fs.filter fun f => !(f.1 == name)).filter (·.1 == name') =
        fs.filter (·.1 == name') := by
      intro name' hmem
      rw [List.filter_filter]
      refine List.filter_congr fun f _ => ?_
      by_cases hf : f.1 = name'
      · have hne : name' ≠ name := fun heq => hname (heq ▸ hmem)
        simp [hf, hne]
      · simp [hf]
    rw [total_filter (·.1 == name), ih hnodup hothers, total]
    exact congrArg _ (total_congr fun name' hmem => by rw [hsame name' hmem])

/-! ## Requirements -/

theorem ofValue?_map (fs : List (String × Tree)) (v : String × Tree → Value) :
    Requirements.ofValue? (.map (fs.map fun f => (.text f.1, v f))) =
      Requirements.ofFields? (fs.map fun f => (f.1, v f)) := by
  rw [Requirements.ofValue?, mapM_map_some (k := fun f => (f.1, v f)), Option.bind_some]
  exact fun _ => rfl

theorem IsRequirement.reads {name : String} (h : IsRequirement d t name) :
    ∃ n v, Reads (Decode.value d Decode.untagged (Decode.depthLimit - 2) t) n (some v) ∧
      (name ∈ listNames →
        Reads (Decode.texts d t) n (Requirements.textsOf? v)) ∧
      (name = "tools" → Reads (toolsField d t) n (Requirements.toolsOf? v)) ∧
      (name ∉ Requirements.fieldNames → n = 0) := by
  have hnames : ∀ name ∈ listNames,
      name ≠ "tools" ∧ name ∈ Requirements.fieldNames := by decide
  have htools : "tools" ∉ listNames ∧
      "tools" ∈ Requirements.fieldNames := by decide
  cases h with
  | list mem texts =>
    obtain ⟨n, v, hvalue, htexts⟩ := texts.alike (Decode.depthLimit - 3)
    exact ⟨n, v, hvalue, fun _ => htexts, fun h => absurd h (hnames name mem).1,
      fun h => absurd (hnames name mem).2 h⟩
  | tools texts =>
    obtain ⟨n, v, hvalue, hread⟩ := texts.alike_tools (Decode.depthLimit - 3)
    exact ⟨n, v, hvalue, fun h => absurd h htools.1, fun _ => hread, fun h => absurd htools.2 h⟩
  | noTools nothing =>
    obtain ⟨n, v, hvalue, hread⟩ := nothing.alike_tools (Decode.depthLimit - 2)
    exact ⟨n, v, hvalue, fun h => absurd h htools.1, fun _ => hread, fun h => absurd htools.2 h⟩
  | @other _ v other value =>
    exact ⟨0, v, value, fun h => absurd (hnames name h).2 other,
      fun h => absurd (h ▸ htools.2) other, fun _ => rfl⟩

theorem reads_ofFields? {fs : List (String × Tree)} {count : String × Tree → Nat}
    {v : String × Tree → Value} {p : Properties} {entries : List (Tree × Tree)}
    {name : Tree × Tree → String} (hfs : fs = entries.map fun e => (name e, e.2))
    (hname : ∀ e ∈ entries, d.text? e.1 = some (name e))
    (hlists : ∀ f ∈ fs, f.1 ∈ listNames →
      Reads (Decode.texts d f.2) (count f) (Requirements.textsOf? (v f)))
    (htools : ∀ f ∈ fs, f.1 = "tools" →
      Reads (toolsField d f.2) (count f) (Requirements.toolsOf? (v f)))
    (hothers : ∀ f ∈ fs, f.1 ∉ Requirements.fieldNames → count f = 0) :
    Reads (Requirements.decode d (.mapping p entries))
      (total (fun e => e.1.aliases) entries + total count fs)
      (Requirements.ofFields? (fs.map fun f => (f.1, v f))) := by
  have hfields := reads_fields (p := p) hname
  rw [← hfs] at hfields
  have hlist {field : String} (hmem : field ∈ listNames) :=
    reads_field [] fun f hf hf' => hlists f hf (hf' ▸ hmem)
  have hnames : Requirements.fieldNames.Nodup := by decide
  -- The fields are read one name after the other, their values in the order of the document.
  rw [total_by_name hnames hothers]
  unfold Requirements.decode Requirements.ofFields?
  refine hfields.andThen ?_
  refine (hlist (by decide)).bind fun commands _ => ?_
  refine (reads_field none htools).bind fun tools _ => ?_
  refine (hlist (by decide)).bind fun environment _ => ?_
  refine (hlist (by decide)).bind fun directories _ => ?_
  exact reads_pure _

theorem IsRequirements.reads (h : IsRequirements d t) :
    ∃ n fields,
      Reads (Decode.value d Decode.untagged (Decode.depthLimit - 1) t) (t.aliases + n)
        (some (.map fields)) ∧
      ∃ t', Reads (Decode.optional d t) t.aliases (some (some t')) ∧
        Reads (Requirements.decode d t') n (Requirements.ofValue? (.map fields)) := by
  obtain ⟨p, entries, node, htag, hentries⟩ := h
  choose! name hname hfield using hentries
  have hwritten : ∀ e ∈ entries, d.text? e.1 = some (name e) := fun e he => (hname e he).text?
  obtain ⟨fs, hfs⟩ : ∃ fs, fs = entries.map fun e => (name e, e.2) := ⟨_, rfl⟩
  have hreads : ∀ f ∈ fs, IsRequirement d f.2 f.1 := by
    intro f hf
    rw [hfs] at hf
    obtain ⟨e, he, rfl⟩ := List.mem_map.mp hf
    exact hfield e he
  have hvalues : Nonempty Value := ⟨.null⟩
  choose! count v hv using fun f hf => (hreads f hf).reads
  have hentry : ∀ e ∈ entries, (name e, e.2) ∈ fs := fun e he => hfs ▸ List.mem_map_of_mem he
  have hfieldsValue : (entries.map fun e => (Value.text (name e), v (name e, e.2))) =
      (fs.map fun f => (Value.text f.1, v f)) := by
    rw [hfs, List.map_map]
    rfl
  refine ⟨total (fun e => e.1.aliases) entries + total count fs,
    fs.map fun f => (.text f.1, v f), ?_, .mapping p entries, ?_, ?_⟩
  · have hvalue := reads_value_mapping node htag rfl
      (fun e he => (hname e he).reads_value (Decode.depthLimit - 2))
      (fun e he => (hv _ (hentry e he)).1)
    rw [hfieldsValue] at hvalue
    rw [hfs, total_map, ← total_add, ← hfs]
    exact hvalue
  · unfold Decode.optional
    exact (reads_node node).ending (reads_pure _)
  · have hdecode := reads_ofFields? (p := p) hfs hwritten (fun f hf => (hv f hf).2.1)
      (fun f hf => (hv f hf).2.2.1) (fun f hf => (hv f hf).2.2.2)
    rwa [← ofValue?_map fs v] at hdecode

def requirementsField (d : Document) (t : Tree) : Decoder (Option Requirements) := do
  match ← Decode.optional d t with
  | some t => some <$> Requirements.decode d t
  | none => pure none

theorem IsRequirements.alike (h : IsRequirements d t) :
    Alike d (Decode.depthLimit - 1) (requirementsField d) Metadata.requirementsOf? t := by
  obtain ⟨n, fields, hvalue, t', hoptional, hdecode⟩ := h.reads
  exact ⟨_, _, hvalue, hoptional.andThen (hdecode.map some)⟩

/-! ## Metadata -/

theorem IsField.reads {name : String} (h : IsField d t name) :
    name ∈ metadataNames ∧
    ∃ n v, Reads (Decode.value d Decode.untagged (Decode.depthLimit - 1) t) n (some v) ∧
      (name ∈ textNames →
        Reads (Decode.optionalText d t) n (Metadata.textOf? v)) ∧
      (name = "requirements" →
        Reads (requirementsField d t) n (Metadata.requirementsOf? v)) := by
  have hnames : ∀ name ∈ textNames,
      name ∈ metadataNames ∧ name ≠ "requirements" := by decide
  have hrequirements : "requirements" ∉ textNames := by decide
  cases h with
  | text mem text =>
    obtain ⟨n, v, hvalue, hread⟩ := text.alike (Decode.depthLimit - 1)
    exact ⟨(hnames name mem).1, n, v, hvalue, fun _ => hread,
      fun h => absurd h (hnames name mem).2⟩
  | requirements requirements =>
    obtain ⟨n, v, hvalue, hread⟩ := requirements.alike
    exact ⟨by decide, n, v, hvalue, fun h => absurd h hrequirements, fun _ => hread⟩
  | nothing mem nothing =>
    refine ⟨mem, t.aliases, .null, nothing.reads_value _, fun _ => ?_, fun _ => ?_⟩
    · unfold Decode.optionalText
      exact nothing.reads_optional.ending (reads_pure none)
    · exact nothing.reads_optional.ending (reads_pure none)

section Record

variable {fs : List (String × Tree)} (count : String × Tree → Nat) (v : String × Tree → Value)
  {p : Properties} {entries : List (Tree × Tree)} {name : Tree × Tree → String}

theorem reads_decode (hfs : fs = entries.map fun e => (name e, e.2))
    (hname : ∀ e ∈ entries, d.text? e.1 = some (name e))
    (hnames : ∀ f ∈ fs, f.1 ∈ metadataNames)
    (htexts : ∀ f ∈ fs, f.1 ∈ textNames →
      Reads (Decode.optionalText d f.2) (count f) (Metadata.textOf? (v f)))
    (hrequirements : ∀ f ∈ fs, f.1 = "requirements" →
      Reads (requirementsField d f.2) (count f) (Metadata.requirementsOf? (v f))) :
    Reads (Metadata.decode d (.mapping p entries))
      (total (fun e => e.1.aliases) entries + total count fs)
      (Metadata.ofEntries? (fs.map fun f => (f.1, v f))) := by
  have hfields := reads_fields (p := p) hname
  rw [← hfs] at hfields
  have htext {field : String} (hmem : field ∈ textNames) :=
    reads_field none fun f hf hf' => htexts f hf (hf' ▸ hmem)
  have hnodup : metadataNames.Nodup := by decide
  rw [total_by_name hnodup fun f hf hother => absurd (hnames f hf) hother]
  unfold Metadata.decode Metadata.ofEntries?
  refine hfields.andThen ?_
  refine (htext (by decide)).bind fun name _ => ?_
  refine (htext (by decide)).bind fun description _ => ?_
  refine (htext (by decide)).bind fun model _ => ?_
  refine (reads_field none hrequirements).bind fun requirements _ => ?_
  exact reads_pure _

/-- The reading by way of values, where there are no messages. -/
theorem reads_decodeStructured (hfs : fs = entries.map fun e => (name e, e.2))
    (hname : ∀ e ∈ entries, d.text? e.1 = some (name e))
    (hmessages : ∀ f ∈ fs, f.1 ≠ "messages")
    (hvalues : ∀ f ∈ fs,
      Reads (Decode.value d Decode.untagged (Decode.depthLimit - 1) f.2) (count f) (some (v f))) :
    Reads (Prompt.decodeStructured d (.mapping p entries))
      (total (fun e => e.1.aliases) entries + total count fs)
      ((Metadata.ofEntries? (fs.map fun f => (f.1, v f))).map (·, [])) := by
  have hfields := reads_fields (p := p) hname
  rw [← hfs] at hfields
  have hnone : fs.filter (·.1 == "messages") = [] :=
    List.filter_eq_nil_iff.mpr fun f hf => by simpa using hmessages f hf
  have hall : fs.filter (·.1 != "messages") = fs :=
    List.filter_eq_self.mpr fun f hf => by simpa using hmessages f hf
  have hfield : Reads (Decode.field "messages" fs [] (Prompt.decodeMessages d)) 0 (some []) := by
    rw [Decode.field, field?, hnone]
    exact reads_pure []
  have hothers : Reads (fs.mapM fun f => do
      pure (f.1, ← Decode.value d Decode.untagged (Decode.depthLimit - 1) f.2)) (total count fs)
      (some (fs.map fun f => (f.1, v f))) := by
    exact reads_mapM fun f hf => (hvalues f hf).ending (reads_pure _)
  unfold Prompt.decodeStructured
  refine hfields.andThen ?_
  refine Reads.congr (hfield.andThen ?_) (Nat.zero_add _)
  rw [hall]
  refine hothers.ending ?_
  cases Metadata.ofEntries? (fs.map fun f => (f.1, v f)) with
  | none => exact reads_failure 0
  | some metadata => exact reads_pure _

end Record

theorem IsMetadata.reads (h : IsMetadata d) :
    ∃ n answer, Reads (Metadata.decode d d.rootOrBlank) n answer ∧
      Reads (Prompt.decodeStructured d d.rootOrBlank) n (answer.map (·, [])) := by
  obtain ⟨p, entries, hroot, hentries⟩ := h
  choose! name hname hfield using hentries
  obtain ⟨fs, hfs⟩ : ∃ fs, fs = entries.map fun e => (name e, e.2) := ⟨_, rfl⟩
  have hreads : ∀ f ∈ fs, IsField d f.2 f.1 := by
    intro f hf
    rw [hfs] at hf
    obtain ⟨e, he, rfl⟩ := List.mem_map.mp hf
    exact hfield e he
  have hvalues : Nonempty Value := ⟨.null⟩
  choose! count v hv using fun f hf => (hreads f hf).reads.2
  have hnames : ∀ f ∈ fs, f.1 ∈ metadataNames :=
    fun f hf => (hreads f hf).reads.1
  have hmessages : ∀ f ∈ fs, f.1 ≠ "messages" :=
    fun f hf h => absurd (h ▸ hnames f hf) (by decide)
  have hmapping : d.rootOrBlank = .mapping p entries := by
    rw [Document.rootOrBlank, hroot, Option.getD_some]
  rw [hmapping]
  exact ⟨_, _, reads_decode count v hfs hname hnames (fun f hf => (hv f hf).2.1) fun f hf => (hv f hf).2.2,
    reads_decodeStructured count v hfs hname hmessages fun f hf => (hv f hf).1⟩

/-- Such a document gives the same metadata in both shapes, or none in either. -/
theorem IsMetadata.decode_eq (h : IsMetadata d) :
    d.decode (Prompt.decodeStructured d) = (Metadata.ofDocument? d).map (·, []) := by
  obtain ⟨n, answer, hdirect, hstructured⟩ := h.reads
  rw [Metadata.ofDocument?, Document.decode_of_reads hdirect, Document.decode_of_reads hstructured]
  split_ifs
  · rfl
  · rfl

/-! ## Scalars of another kind -/

def namedBy (cs : List Char) : Document :=
  .ofRoot (some (.mapping {} [(.scalar {} "name".toList .plain, .scalar {} cs .plain)]))

/-- A truth value or a number is the text of a name where metadata is read directly, and no name
where it is read by way of values. -/
theorem decode_namedBy {cs : List Char} {v : Value} (hvalue : Decode.plainValue cs = some v)
    (hkind : Metadata.textOf? v = none) :
    Metadata.ofDocument? (namedBy cs) = some { name := some (String.ofList cs) } ∧
      (namedBy cs).decode (Prompt.decodeStructured (namedBy cs)) = none := by
  obtain ⟨entries, hentries⟩ : ∃ entries : List (Tree × Tree),
    entries = [(.scalar {} "name".toList .plain, .scalar {} cs .plain)] := ⟨_, rfl⟩
  obtain ⟨fs, hfs⟩ : ∃ fs : List (String × Tree), fs = [("name", .scalar {} cs .plain)] := ⟨_, rfl⟩
  have hroot : (namedBy cs).rootOrBlank = .mapping {} entries := by rw [hentries]; rfl
  have hfields : fs = entries.map fun e => ("name", e.2) := by rw [hentries, hfs]; rfl
  have hname : ∀ e ∈ entries, (namedBy cs).text? e.1 = some "name" := by
    rw [hentries, List.forall_mem_singleton]
    rfl
  have haliases : total (fun e => e.1.aliases) entries + total (fun _ => 0) fs = 0 := by
    rw [hentries, hfs]
    rfl
  constructor
  · have hnull : resolve cs ≠ .null := by
      intro hnull
      rw [Decode.plainValue, hnull] at hvalue
      obtain rfl := Option.some.inj hvalue
      exact nomatch hkind
    have htext : Reads (Decode.optionalText (namedBy cs) (.scalar {} cs .plain)) 0
        (some (some (String.ofList cs))) := by
      have hoptional := reads_optional_plain (d := namedBy cs) (t := .scalar {} cs .plain) rfl rfl
        hnull
      unfold Decode.optionalText
      refine hoptional.andThen (m := 0) ?_
      exact (reads_text (namedBy cs) (.scalar {} cs .plain)).map some
    have hdecode := reads_decode (d := namedBy cs) (p := {}) (fun _ => 0)
      (fun _ => .text (String.ofList cs)) hfields hname
      (by simp [hfs, metadataNames])
      (by rw [hfs, List.forall_mem_singleton]; exact fun _ => htext)
      (by simp [hfs])
    rw [haliases, ← hroot] at hdecode
    rw [Metadata.ofDocument?, Document.decode_of_reads hdecode, if_pos (Nat.zero_le _), hfs]
    rfl
  · have hread : Reads (Decode.value (namedBy cs) Decode.untagged (Decode.depthLimit - 1)
        (.scalar {} cs .plain)) 0 (some v) :=
      reads_value_scalar rfl (hvalue ▸ reads_lift _)
    have hstructured := reads_decodeStructured (d := namedBy cs) (p := {}) (fun _ => 0) (fun _ => v)
      hfields hname
      (by simp [hfs])
      (by rw [hfs, List.forall_mem_singleton]; exact hread)
    have hnone : Metadata.ofEntries? (fs.map fun f => (f.1, v)) = none := by
      rw [hfs, Metadata.ofEntries?, Requirements.fieldOf?]
      simp [field?, hkind]
    rw [haliases, ← hroot, hnone] at hstructured
    rw [Document.decode_of_reads hstructured, if_pos (Nat.zero_le _)]
    rfl

end PromptRunner
