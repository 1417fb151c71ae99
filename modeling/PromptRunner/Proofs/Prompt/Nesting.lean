import PromptRunner.Proofs.Prompt.Leaves

/-!
# Nested contents

The text of a content puts the texts of its leaves on lines of their own, in the order of the
document, and leaves out those that are empty. How the leaves are grouped into lists and mappings
does not show in it, because texts that are put together in groups come to the same as texts that
are put together at once.
-/

namespace PromptRunner

namespace Yaml.Value

mutual

/-- The texts at the leaves of a value, in the order of the document. Keys and tags do not count. -/
def leafTexts : Value → List String
  | .text s => [s]
  | .list vs => itemLeafTexts vs
  | .map es => entryLeafTexts es
  | .tagged _ v => leafTexts v
  | .null => [plainText .null]
  | .bool b => [plainText (.bool b)]
  | .int n => [plainText (.int n)]
  | .float d => [plainText (.float d)]

def itemLeafTexts : List Value → List String
  | [] => []
  | v :: vs => leafTexts v ++ itemLeafTexts vs

def entryLeafTexts : List (Value × Value) → List String
  | [] => []
  | (_, v) :: es => leafTexts v ++ entryLeafTexts es

end

theorem itemLeafTexts_eq (vs : List Value) : itemLeafTexts vs = vs.flatMap leafTexts := by
  induction vs with
  | nil => rfl
  | cons v vs ih => rw [itemLeafTexts, ih, List.flatMap_cons]

theorem entryLeafTexts_eq (es : List (Value × Value)) :
    entryLeafTexts es = (es.map Prod.snd).flatMap leafTexts := by
  induction es with
  | nil => rfl
  | cons e es ih => rw [entryLeafTexts, ih, List.map_cons, List.flatMap_cons]

theorem leafTexts_of_isPlainScalar {v : Value} (h : v.IsPlainScalar) : leafTexts v = [v.plainText] := by
  cases h <;> rfl

/-- Lists of values that differ in how the values are grouped, in tags, and in values that stand for
nothing. A collection may stand for its values and they for it, so values may be regrouped in any
depth. -/
inductive Regrouped : List Value → List Value → Prop
  | list (items : List Value) : Regrouped [.list items] items
  | map (entries : List (Value × Value)) : Regrouped [.map entries] (entries.map Prod.snd)
  | tagged (tag : String) (v : Value) : Regrouped [.tagged tag v] [v]
  | emptyText : Regrouped [.text ""] []
  | null : Regrouped [.null] []
  | refl (vs : List Value) : Regrouped vs vs
  | symm {vs ws : List Value} : Regrouped vs ws → Regrouped ws vs
  | trans {us vs ws : List Value} : Regrouped us vs → Regrouped vs ws → Regrouped us ws
  | append {vs vs' ws ws' : List Value} : Regrouped vs vs' → Regrouped ws ws' →
      Regrouped (vs ++ ws) (vs' ++ ws')

end Yaml.Value

namespace Content

/-! ## Texts on lines of their own -/

/-- A text above another one, unless one of them is empty. -/
def above (as bs : List Char) : List Char :=
  if as = [] then bs else if bs = [] then as else as ++ '\n' :: bs

@[simp] theorem above_nil (as : List Char) : above as [] = as := by
  by_cases has : as = []
  · simp [above, has]
  · simp [above, has]

@[simp] theorem nil_above (bs : List Char) : above [] bs = bs := rfl

theorem above_of_ne_nil {as bs : List Char} (has : as ≠ []) (hbs : bs ≠ []) :
    above as bs = as ++ '\n' :: bs := by
  rw [above, if_neg has, if_neg hbs]

theorem above_assoc (as bs cs : List Char) : above (above as bs) cs = above as (above bs cs) := by
  by_cases has : as = []
  · rw [has, nil_above, nil_above]
  by_cases hbs : bs = []
  · rw [hbs, above_nil, nil_above]
  by_cases hcs : cs = []
  · rw [hcs, above_nil, above_nil]
  rw [above_of_ne_nil has hbs, above_of_ne_nil hbs hcs, above_of_ne_nil (by simp) hcs,
    above_of_ne_nil has (by simp), List.append_assoc, List.cons_append]

theorem intercalate_ne_nil {sep as : List Char} (h : as ≠ []) (rest : List (List Char)) :
    sep.intercalate (as :: rest) ≠ [] := by
  cases rest with
  | nil => simpa using h
  | cons bs rest => simp [List.intercalate_cons_cons, h]

theorem joinLines_cons (as : List Char) (texts : List (List Char)) :
    joinLines (as :: texts) = above as (joinLines texts) := by
  by_cases has : as = []
  · simp [joinLines, has]
  · rw [joinLines, List.filter_cons_of_pos (by simpa using has), joinLines]
    cases hkept : texts.filter fun t => !t.isEmpty with
    | nil => simp
    | cons bs rest =>
      have hmem : bs ∈ texts.filter fun t => !t.isEmpty := hkept ▸ List.mem_cons_self
      have hbs : bs ≠ [] := by simpa using (List.mem_filter.mp hmem).2
      rw [List.intercalate_cons_cons, above_of_ne_nil has (intercalate_ne_nil hbs rest)]
      simp

theorem joinLines_append (texts texts' : List (List Char)) :
    joinLines (texts ++ texts') = above (joinLines texts) (joinLines texts') := by
  induction texts with
  | nil => rfl
  | cons as texts ih => rw [List.cons_append, joinLines_cons, joinLines_cons, ih, above_assoc]

theorem joinLines_flatMap {α : Type} {chars : α → List Char} {texts : α → List (List Char)}
    {groups : List α} (h : ∀ g ∈ groups, chars g = joinLines (texts g)) :
    joinLines (groups.map chars) = joinLines (groups.flatMap texts) := by
  induction groups with
  | nil => rfl
  | cons g groups ih =>
    obtain ⟨hg, hgroups⟩ := List.forall_mem_cons.mp h
    rw [List.map_cons, joinLines_cons, List.flatMap_cons, joinLines_append, hg, ih hgroups]

theorem joinLines_singleton (as : List Char) : joinLines [as] = as := by
  rw [joinLines_cons]
  exact above_nil as

/-! ## The text of a content -/

def leafChars (v : Yaml.Value) : List (List Char) :=
  v.leafTexts.map String.toList

theorem flatMap_leafChars (vs : List Yaml.Value) :
    vs.flatMap leafChars = (vs.flatMap Yaml.Value.leafTexts).map String.toList := by
  rw [List.map_flatMap]
  rfl

/-- A content is written like the texts at its leaves: a group of them counts as one text, and as
none if all of them are empty. -/
theorem chars_ofValue (v : Yaml.Value) : (ofValue v).chars = joinLines (leafChars v) := by
  induction v using Yaml.Value.deepInduction with
  | text s => exact (joinLines_singleton s.toList).symm
  | scalar v hv =>
    rw [leafChars, Yaml.Value.leafTexts_of_isPlainScalar hv, List.map_singleton, joinLines_singleton]
    cases hv <;> rfl
  | list items ih =>
    have hlines := joinLines_flatMap ih
    rw [ofValue, chars, itemChars_eq, ofItems_eq, List.map_map]
    rw [leafChars, Yaml.Value.leafTexts, Yaml.Value.itemLeafTexts_eq, ← flatMap_leafChars]
    exact hlines
  | map entries ih =>
    have hvalues : ∀ v ∈ entries.map Prod.snd, (ofValue v).chars = joinLines (leafChars v) :=
      List.forall_mem_map.mpr ih
    have hlines := joinLines_flatMap hvalues
    rw [ofValue, chars, entryChars_eq, ofEntries_eq, List.map_map]
    rw [leafChars, Yaml.Value.leafTexts, Yaml.Value.entryLeafTexts_eq, ← flatMap_leafChars]
    rw [← hlines, List.map_map]
    rfl
  | tagged tag v ih => exact ih

theorem toText_ofValue (v : Yaml.Value) :
    (ofValue v).toText = "\n".intercalate (v.leafTexts.filter (· ≠ "")) := by
  have hkept : (v.leafTexts.map String.toList).filter (fun t => !t.isEmpty) =
      (v.leafTexts.filter (· ≠ "")).map String.toList := by
    rw [List.filter_map]
    congr 1
    apply List.filter_congr
    intro s _
    rw [Bool.eq_iff_iff]
    simp
  apply String.toList_inj.mp
  rw [toText, String.toList_ofList, chars_ofValue, String.toList_intercalate, joinLines, leafChars, hkept]
  rfl

end Content

namespace Yaml.Value

namespace Regrouped
variable {vs ws : List Value}

/-- What is regrouped inside a list regroups the list. -/
theorem inList (h : Regrouped vs ws) : Regrouped [.list vs] [.list ws] :=
  (Regrouped.list vs).trans (h.trans (Regrouped.list ws).symm)

/-- Regrouping keeps the texts at the leaves that are not empty, and their order. -/
theorem leafTexts_eq (h : Regrouped vs ws) :
    (vs.flatMap leafTexts).filter (· ≠ "") = (ws.flatMap leafTexts).filter (· ≠ "") := by
  induction h with
  | list items => simp [leafTexts, itemLeafTexts_eq]
  | map entries => simp [leafTexts, entryLeafTexts_eq]
  | tagged tag v => simp [leafTexts]
  | emptyText => rfl
  | null => rfl
  | refl vs => rfl
  | symm _ ih => exact ih.symm
  | trans _ _ ih ih' => exact ih.trans ih'
  | append _ _ ih ih' =>
    rw [List.flatMap_append, List.filter_append, ih, ih', ← List.filter_append, ← List.flatMap_append]

end Regrouped

end Yaml.Value

namespace Content

/-- The text of a value is made of the texts at its leaves, in the order of the document: those that
are not empty stand on lines of their own. So it stays the same when values in a list or a mapping,
in any depth, are put into lists and mappings of their own or taken out of them, and when empty
texts, nulls and collections without items come in or go out. -/
theorem flattening_ignores_nesting :
    (∀ v : Yaml.Value, (ofValue v).toText = "\n".intercalate (v.leafTexts.filter (· ≠ ""))) ∧
    ∀ v w : Yaml.Value, Yaml.Value.Regrouped [v] [w] → (ofValue v).toText = (ofValue w).toText := by
  refine ⟨toText_ofValue, fun v w h => ?_⟩
  have hleaves := h.leafTexts_eq
  rw [List.flatMap_singleton, List.flatMap_singleton] at hleaves
  rw [toText_ofValue, toText_ofValue, hleaves]

/-- A list with a mapping in it, whose leaves are a text, a number, a null and two texts more. -/
def scatteredValue : Yaml.Value :=
  .list [.text "a", .map [(.text "k", .list [.int 1, .null]), (.text "l", .text "b")], .text ""]

def gatheredValue : Yaml.Value :=
  .list [.list [.text "a", .int 1], .list [], .text "b"]

theorem flattening_ignores_nesting_scattered :
    Yaml.Value.Regrouped [scatteredValue] [gatheredValue] ∧
      (ofValue scatteredValue).toText = (ofValue gatheredValue).toText ∧
      (ofValue scatteredValue).toText = "a\n1\nb" := by
  have hpair : Yaml.Value.Regrouped [.list [.int 1, .null]] [.int 1] :=
    (Yaml.Value.Regrouped.list _).trans ((Yaml.Value.Regrouped.refl [.int 1]).append .null)
  have hmap : Yaml.Value.Regrouped
      [.map [(.text "k", .list [.int 1, .null]), (.text "l", .text "b")]] [.int 1, .text "b"] :=
    (Yaml.Value.Regrouped.map _).trans (hpair.append (.refl [.text "b"]))
  have hscattered : Yaml.Value.Regrouped
      [.text "a", .map [(.text "k", .list [.int 1, .null]), (.text "l", .text "b")], .text ""]
      [.text "a", .int 1, .text "b"] :=
    (Yaml.Value.Regrouped.refl [.text "a"]).append (hmap.append .emptyText)
  have hgathered : Yaml.Value.Regrouped [.list [.text "a", .int 1], .list [], .text "b"]
      [.text "a", .int 1, .text "b"] :=
    (Yaml.Value.Regrouped.list _).append ((Yaml.Value.Regrouped.list []).append (.refl [.text "b"]))
  have hvalues : Yaml.Value.Regrouped [scatteredValue] [gatheredValue] :=
    (hscattered.trans hgathered.symm).inList
  obtain ⟨htext, hsame⟩ := flattening_ignores_nesting
  exact ⟨hvalues, hsame _ _ hvalues, (htext scatteredValue).trans (by decide)⟩

end Content

end PromptRunner
