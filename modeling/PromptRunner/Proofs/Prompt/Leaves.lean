import PromptRunner.Proofs.Template.Filling
import PromptRunner.Proofs.Yaml.PlainText
import PromptRunner.Prompt.Body

/-!
# The texts inside values, contents and bodies

A content is a tree whose texts are its leaves. Its names are the names of its leaves, and filling
it fills each of them. The leaves of the content of a value are the texts that stand in the value,
under items, under the values of mappings and under tags, but not in keys.
-/

namespace PromptRunner

/-- A text stands in a value, in any depth, but not in a key. -/
inductive Yaml.Value.HasText : Yaml.Value → String → Prop
  | text (s : String) : HasText (.text s) s
  | item {items : List Yaml.Value} {v : Yaml.Value} {s : String} : v ∈ items → HasText v s →
      HasText (.list items) s
  | entry {entries : List (Yaml.Value × Yaml.Value)} {e : Yaml.Value × Yaml.Value} {s : String} :
      e ∈ entries → HasText e.2 s → HasText (.map entries) s
  | tagged (tag : String) {v : Yaml.Value} {s : String} : HasText v s → HasText (.tagged tag v) s

namespace Content

/-- A text stands in a content, in any depth, but not in a key. -/
inductive HasText : Content → String → Prop
  | text (s : String) : HasText (.text s) s
  | item {items : List Content} {c : Content} {s : String} : c ∈ items → HasText c s →
      HasText (.list items) s
  | entry {entries : List (Yaml.Value × Content)} {e : Yaml.Value × Content} {s : String} :
      e ∈ entries → HasText e.2 s → HasText (.map entries) s

/-- Every part of a content that is not a text is a scalar that cannot hold a text. -/
inductive WithPlainScalars : Content → Prop
  | text (s : String) : WithPlainScalars (.text s)
  | list {items : List Content} : (∀ c ∈ items, WithPlainScalars c) →
      WithPlainScalars (.list items)
  | map {entries : List (Yaml.Value × Content)} : (∀ e ∈ entries, WithPlainScalars e.2) →
      WithPlainScalars (.map entries)
  | other {v : Yaml.Value} : v.IsPlainScalar → WithPlainScalars (.other v)

section Lists

theorem ofItems_eq (vs : List Yaml.Value) : ofItems vs = vs.map ofValue := by
  induction vs with
  | nil => rfl
  | cons v vs ih => rw [ofItems, ih, List.map_cons]

theorem ofEntries_eq (es : List (Yaml.Value × Yaml.Value)) :
    ofEntries es = es.map fun e => (e.1, ofValue e.2) := by
  induction es with
  | nil => rfl
  | cons e es ih => rw [ofEntries, ih, List.map_cons]

theorem itemTokens_eq (cs : List Content) : itemTokens cs = cs.flatMap tokens := by
  induction cs with
  | nil => rfl
  | cons c cs ih => rw [itemTokens, ih, List.flatMap_cons]

theorem entryTokens_eq (es : List (Yaml.Value × Content)) :
    entryTokens es = es.flatMap fun e => e.2.tokens := by
  induction es with
  | nil => rfl
  | cons e es ih => rw [entryTokens, ih, List.flatMap_cons]

theorem fillItems_eq (lookup : String → Option String) (cs : List Content) :
    fillItems lookup cs = cs.map (fill lookup) := by
  induction cs with
  | nil => rfl
  | cons c cs ih => rw [fillItems, ih, List.map_cons]

theorem fillEntries_eq (lookup : String → Option String) (es : List (Yaml.Value × Content)) :
    fillEntries lookup es = es.map fun e => (e.1, e.2.fill lookup) := by
  induction es with
  | nil => rfl
  | cons e es ih => rw [fillEntries, ih, List.map_cons]

theorem itemChars_eq (cs : List Content) : itemChars cs = cs.map chars := by
  induction cs with
  | nil => rfl
  | cons c cs ih => rw [itemChars, ih, List.map_cons]

theorem entryChars_eq (es : List (Yaml.Value × Content)) :
    entryChars es = es.map fun e => e.2.chars := by
  induction es with
  | nil => rfl
  | cons e es ih => rw [entryChars, ih, List.map_cons]

end Lists

section Membership
variable {items : List Content} {entries : List (Yaml.Value × Content)} {s : String}

theorem mem_tokens_list {c : Content} {name : String} (hc : c ∈ items) (h : name ∈ c.tokens) :
    name ∈ (list items).tokens := by
  rw [tokens, itemTokens_eq]
  exact List.mem_flatMap.mpr ⟨c, hc, h⟩

theorem mem_tokens_map {e : Yaml.Value × Content} {name : String} (he : e ∈ entries)
    (h : name ∈ e.2.tokens) : name ∈ (map entries).tokens := by
  rw [tokens, entryTokens_eq]
  exact List.mem_flatMap.mpr ⟨e, he, h⟩

@[simp] theorem hasText_text {s' : String} : (Content.text s').HasText s ↔ s = s' := by
  constructor
  · rintro ⟨⟩
    rfl
  · rintro rfl
    exact .text s

@[simp] theorem hasText_list : (Content.list items).HasText s ↔ ∃ c ∈ items, c.HasText s := by
  constructor
  · rintro ⟨⟩
    rename_i c hc hs
    exact ⟨c, hc, hs⟩
  · rintro ⟨c, hc, hs⟩
    exact .item hc hs

@[simp] theorem hasText_map : (Content.map entries).HasText s ↔ ∃ e ∈ entries, e.2.HasText s := by
  constructor
  · rintro ⟨⟩
    rename_i e he hs
    exact ⟨e, he, hs⟩
  · rintro ⟨e, he, hs⟩
    exact .entry he hs

theorem exists_hasText_list {Q : String → Prop} :
    (∃ s, (Content.list items).HasText s ∧ Q s) ↔ ∃ c ∈ items, ∃ s, c.HasText s ∧ Q s := by
  constructor
  · rintro ⟨s, hs, hq⟩
    obtain ⟨c, hc, hs⟩ := hasText_list.mp hs
    exact ⟨c, hc, s, hs, hq⟩
  · rintro ⟨c, hc, s, hs, hq⟩
    exact ⟨s, .item hc hs, hq⟩

theorem exists_hasText_map {Q : String → Prop} :
    (∃ s, (Content.map entries).HasText s ∧ Q s) ↔ ∃ e ∈ entries, ∃ s, e.2.HasText s ∧ Q s := by
  constructor
  · rintro ⟨s, hs, hq⟩
    obtain ⟨e, he, hs⟩ := hasText_map.mp hs
    exact ⟨e, he, s, hs, hq⟩
  · rintro ⟨e, he, s, hs, hq⟩
    exact ⟨s, .entry he hs, hq⟩

@[simp] theorem not_hasText_other {v : Yaml.Value} : ¬ (Content.other v).HasText s :=
  nofun

end Membership

end Content

/-- Induction on contents: what holds of the items of a list or of the values of a mapping holds of
the whole. Keys do not count. -/
theorem Content.deepInduction {P : Content → Prop} (text : ∀ s, P (.text s))
    (list : ∀ items, (∀ c ∈ items, P c) → P (.list items))
    (map : ∀ entries, (∀ e ∈ entries, P e.2) → P (.map entries)) (other : ∀ v, P (.other v)) :
    ∀ c, P c
  | .text s => text s
  | .list items => list items fun c _ => deepInduction text list map other c
  | .map entries => map entries fun e _ => deepInduction text list map other e.2
  | .other v => other v
termination_by c => sizeOf c
decreasing_by
  · have := List.sizeOf_lt_of_mem ‹_›
    simp only [Content.list.sizeOf_spec]
    omega
  · have := List.sizeOf_lt_of_mem ‹e ∈ entries›
    obtain ⟨k, c⟩ := e
    simp only [Content.map.sizeOf_spec, Prod.mk.sizeOf_spec] at this ⊢
    omega

/-- Induction on values: what holds of the items of a list or of the values of a mapping holds of
the whole, and what holds under a tag holds with it. Keys do not count. -/
theorem Yaml.Value.deepInduction {P : Yaml.Value → Prop} (text : ∀ s, P (.text s))
    (scalar : ∀ v, v.IsPlainScalar → P v) (list : ∀ items, (∀ v ∈ items, P v) → P (.list items))
    (map : ∀ entries, (∀ e ∈ entries, P e.2) → P (.map entries))
    (tagged : ∀ tag v, P v → P (.tagged tag v)) : ∀ v, P v
  | .text s => text s
  | .null => scalar _ .null
  | .bool b => scalar _ (.bool b)
  | .int n => scalar _ (.int n)
  | .float d => scalar _ (.float d)
  | .list items => list items fun v _ => deepInduction text scalar list map tagged v
  | .map entries => map entries fun e _ => deepInduction text scalar list map tagged e.2
  | .tagged tag v => tagged tag v (deepInduction text scalar list map tagged v)
termination_by v => sizeOf v
decreasing_by
  · have := List.sizeOf_lt_of_mem ‹_›
    simp only [Yaml.Value.list.sizeOf_spec]
    omega
  · have := List.sizeOf_lt_of_mem ‹e ∈ entries›
    obtain ⟨k, v⟩ := e
    simp only [Yaml.Value.map.sizeOf_spec, Prod.mk.sizeOf_spec] at this ⊢
    omega
  · simp only [Yaml.Value.tagged.sizeOf_spec]
    omega

theorem Content.mem_tokens_iff (c : Content) {name : String} :
    name ∈ c.tokens ↔ ∃ s, c.HasText s ∧ name ∈ Template.tokens s := by
  induction c using Content.deepInduction with
  | text s => simp [tokens]
  | list items ih =>
    rw [tokens, itemTokens_eq, List.mem_flatMap, exists_hasText_list]
    exact exists_congr fun c => and_congr_right fun hc => ih c hc
  | map entries ih =>
    rw [tokens, entryTokens_eq, List.mem_flatMap, exists_hasText_map]
    exact exists_congr fun e => and_congr_right fun he => ih e he
  | other v => simp [tokens]

namespace Body

/-- A text stands in a body: it is the body, or it stands in the content of a message. -/
def HasText : Body → String → Prop
  | .flat text, s => s = text
  | .messages ms, s => ∃ m ∈ ms, m.content.HasText s

theorem mem_tokens_iff (b : Body) {name : String} :
    name ∈ b.tokens ↔ ∃ s, b.HasText s ∧ name ∈ Template.tokens s := by
  cases b with
  | flat text => simp [tokens, HasText]
  | messages ms =>
    rw [tokens, List.mem_flatMap]
    constructor
    · rintro ⟨m, hm, hn⟩
      obtain ⟨s, hs, hn⟩ := m.content.mem_tokens_iff.mp hn
      exact ⟨s, ⟨m, hm, hs⟩, hn⟩
    · rintro ⟨s, ⟨m, hm, hs⟩, hn⟩
      exact ⟨m, hm, m.content.mem_tokens_iff.mpr ⟨s, hs, hn⟩⟩

theorem isName_of_mem_names {b : Body} {name : String} (h : name ∈ b.names) :
    Template.IsName name.toList := by
  obtain ⟨s, -, hs⟩ := b.mem_tokens_iff.mp (Text.mem_nameSet.mp h)
  exact Template.isName_of_mem_tokens hs

end Body

end PromptRunner
