import PromptRunner.Proofs.Prompt.Metadata
import PromptRunner.Proofs.Results

/-!
# Fields as they are written

What the fields of a mapping say, told from the nodes of a document and without the decoder. The
aliases that are followed for a few fields are always within what a document allows, so the decoder
gives just what is written.
-/

namespace PromptRunner.Yaml

variable {d : Document} {t : Tree}

/-- The pairs of the mapping that stands at a node. Where nothing is written there are none. -/
inductive IsMapping (d : Document) (t : Tree) : List (Tree × Tree) → Prop
  | mapping {p : Properties} {entries : List (Tree × Tree)} :
      d.node? t = some (.mapping p entries) → IsMapping d t entries
  | omitted {p : Properties} : d.node? t = some (.scalar p [] .plain) → IsMapping d t []

inductive IsSequence (d : Document) (t : Tree) : List Tree → Prop
  | sequence {p : Properties} {items : List Tree} :
      d.node? t = some (.sequence p items) → IsSequence d t items
  | omitted {p : Properties} : d.node? t = some (.scalar p [] .plain) → IsSequence d t []

/-- The fields of a mapping whose keys are scalars: their names as written, and the nodes behind
them. -/
def HasFields (d : Document) (t : Tree) (fields : List (String × Tree)) : Prop :=
  ∃ entries, IsMapping d t entries ∧
    List.Forall₂ (fun e f => d.text? e.1 = some f.1 ∧ e.2 = f.2) entries fields

def HasTexts (d : Document) (t : Tree) (texts : List String) : Prop :=
  ∃ items, IsSequence d t items ∧ List.Forall₂ (fun item s => d.text? item = some s) items texts

/-- The text of a scalar as it is written, or none for a plain scalar that stands for nothing. -/
inductive HasOptionalText (d : Document) (t : Tree) : Option String → Prop
  | nothing {p : Properties} {cs : List Char} : d.node? t = some (.scalar p cs .plain) →
      p.tag = none → resolve cs = .null → HasOptionalText d t none
  | tagged {p : Properties} {cs : List Char} : d.node? t = some (.scalar p cs .plain) →
      p.tag = some Decode.nullTag → Resolve.isNull cs = true → HasOptionalText d t none
  | text {p : Properties} {cs : List Char} {style : Style} :
      d.node? t = some (.scalar p cs style) →
      (style = .plain → p.tag ≠ some Decode.nullTag ∧ (p.tag = none → resolve cs ≠ .null)) →
      HasOptionalText d t (some (String.ofList cs))

/-- The value of the field with a name, which stands once at most, or what a missing one stands
for. -/
inductive HasField {α : Type} (name : String) (fields : List (String × Tree)) (missing : α)
    (IsValue : Tree → α → Prop) : α → Prop
  | absent : (∀ f ∈ fields, f.1 ≠ name) → HasField name fields missing IsValue missing
  | present {front back : List (String × Tree)} {t : Tree} {a : α} :
      fields = front ++ (name, t) :: back → (∀ f ∈ front ++ back, f.1 ≠ name) → IsValue t a →
      HasField name fields missing IsValue a

namespace Decoder

variable {α β : Type} {x : Decoder α} {a : α} {n : Nat}

/-- A decoder yields an answer, from some number of aliases that are left. -/
def Yields (x : Decoder α) (a : α) : Prop :=
  ∃ left left', x left = some (a, left')

theorem Reads.eq_of_yields {answer : Option α} (h : Reads x n answer) (hyields : Yields x a) :
    answer = some a := by
  obtain ⟨left, left', hx⟩ := hyields
  rw [h left] at hx
  split_ifs at hx
  obtain ⟨b, hb, hpair⟩ := Option.map_eq_some_iff.mp hx
  rw [hb, (Prod.mk.inj hpair).1]

theorem yields_bind {f : α → Decoder β} {b : β} (h : Yields (x >>= f) b) :
    ∃ a, Yields x a ∧ Yields (f a) b := by
  obtain ⟨left, left', hx⟩ := h
  obtain ⟨⟨a, middle⟩, hfirst, hrest⟩ := Option.bind_eq_some_iff.mp hx
  exact ⟨a, ⟨left, middle, hfirst⟩, middle, left', hrest⟩

theorem yields_pure {b : α} (h : Yields (pure a : Decoder α) b) : b = a := by
  obtain ⟨_, _, h⟩ := h
  exact (Prod.mk.inj (Option.some.inj h)).1.symm

theorem yields_map {f : α → β} {b : β} (h : Yields (f <$> x) b) : ∃ a, Yields x a ∧ f a = b := by
  rw [map_eq_pure_bind] at h
  obtain ⟨a, ha, hb⟩ := yields_bind h
  exact ⟨a, ha, (yields_pure hb).symm⟩

theorem not_yields_failure (a : α) : ¬ Yields (failure : Decoder α) a := by
  rintro ⟨_, _, h⟩
  exact nomatch h

theorem yields_mapM {f : α → Decoder β} {as : List α} {bs : List β} (h : Yields (as.mapM f) bs) :
    List.Forall₂ (fun a b => Yields (f a) b) as bs := by
  induction as generalizing bs with
  | nil =>
    obtain rfl := yields_pure h
    exact .nil
  | cons a as ih =>
    rw [List.mapM_cons] at h
    obtain ⟨b, hb, hrest⟩ := yields_bind h
    obtain ⟨bs', hbs, hpure⟩ := yields_bind hrest
    obtain rfl := yields_pure hpure
    exact .cons hb (ih hbs)

/-- A decoder yields an answer and follows no more than so many aliases for it. -/
def Within (x : Decoder α) (n : Nat) (a : α) : Prop :=
  ∃ m ≤ n, Reads x m (some a)

theorem Within.andThen {f : α → Decoder β} {b : β} {m : Nat} (hx : Within x n a)
    (hf : Within (f a) m b) : Within (x >>= f) (n + m) b := by
  obtain ⟨k, hk, hx⟩ := hx
  obtain ⟨l, hl, hf⟩ := hf
  exact ⟨k + l, Nat.add_le_add hk hl, hx.andThen hf⟩

/-- A last step that follows no alias. -/
theorem Within.ending {f : α → Decoder β} {b : β} (hx : Within x n a) (hf : Within (f a) 0 b) :
    Within (x >>= f) n b :=
  hx.andThen hf

theorem within_pure (a : α) : Within (pure a) 0 a :=
  ⟨0, Nat.le_refl 0, reads_pure a⟩

theorem Within.map (f : α → β) (hx : Within x n a) : Within (f <$> x) n (f a) := by
  obtain ⟨k, hk, hx⟩ := hx
  exact ⟨k, hk, hx.map f⟩

theorem Within.mono {m : Nat} (hx : Within x n a) (h : n ≤ m) : Within x m a := by
  obtain ⟨k, hk, hx⟩ := hx
  exact ⟨k, Nat.le_trans hk h, hx⟩

/-- Where each step follows one alias at most, a list of them follows no more than it has
members. -/
theorem within_mapM {f : α → Decoder β} {as : List α} {bs : List β}
    (h : List.Forall₂ (fun a b => Within (f a) 1 b) as bs) : Within (as.mapM f) as.length bs := by
  induction h with
  | nil => exact within_pure []
  | @cons a b as bs hhead _ ih =>
    rw [List.mapM_cons]
    have hrest := ih.andThen (f := fun bs => pure (b :: bs)) (within_pure (b :: bs))
    exact (hhead.andThen hrest).mono (by simp [Nat.add_comm])

end Decoder

open Decoder

/-! ## The size of what is read -/

theorem Tree.aliases_le_one (t : Tree) : t.aliases ≤ 1 := by
  cases t <;> simp [aliases]

namespace Tree

theorem size_pos (t : Tree) : 1 ≤ t.size := by
  cases t with
  | «alias» n => exact Nat.le_refl 1
  | scalar p cs style => exact Nat.le_refl 1
  | sequence p items => exact Nat.le_trans (by decide) (Nat.le_add_right 2 _)
  | mapping p entries => exact Nat.le_trans (by decide) (Nat.le_add_right 2 _)

theorem length_le_sizeItems (items : List Tree) : items.length ≤ sizeItems items := by
  induction items with
  | nil => exact Nat.le_refl 0
  | cons t ts ih =>
    have hpos := t.size_pos
    rw [sizeItems, List.length_cons]
    omega

theorem length_le_sizeEntries (entries : List (Tree × Tree)) :
    entries.length ≤ sizeEntries entries := by
  induction entries with
  | nil => exact Nat.le_refl 0
  | cons e es ih =>
    have hpos := e.1.size_pos
    rw [sizeEntries, List.length_cons]
    omega

theorem size_le_of_mem_entries {entries : List (Tree × Tree)} {e : Tree × Tree} (h : e ∈ entries) :
    e.2.size ≤ sizeEntries entries := by
  induction entries with
  | nil => exact nomatch h
  | cons f es ih =>
    rw [sizeEntries]
    rcases List.mem_cons.mp h with rfl | h
    · omega
    · exact Nat.le_trans (ih h) (by omega)

theorem eq_of_mem_underAnchor {p : Properties} {t : Tree} {a : Nat × Tree}
    (h : a ∈ underAnchor p t) : a.2 = t := by
  unfold underAnchor at h
  split at h
  · rw [List.mem_singleton.mp h]
  · exact nomatch h

mutual

/-- A node with an anchor is no alias, and a part of the node in which it is found. -/
theorem of_mem_anchored :
    ∀ {t : Tree} {a : Nat × Tree}, a ∈ t.anchored → a.2.aliases = 0 ∧ a.2.size ≤ t.size
  | .alias _, _, h => nomatch h
  | .scalar _ _ _, _, h => by
    rw [eq_of_mem_underAnchor h]
    exact ⟨rfl, Nat.le_refl _⟩
  | .sequence _ items, _, h => by
    rcases List.mem_append.mp h with h | h
    · rw [eq_of_mem_underAnchor h]
      exact ⟨rfl, Nat.le_refl _⟩
    · obtain ⟨halias, hle⟩ := of_mem_anchoredItems h
      exact ⟨halias, Nat.le_trans hle (Nat.le_add_left _ 2)⟩
  | .mapping _ entries, _, h => by
    rcases List.mem_append.mp h with h | h
    · rw [eq_of_mem_underAnchor h]
      exact ⟨rfl, Nat.le_refl _⟩
    · obtain ⟨halias, hle⟩ := of_mem_anchoredEntries h
      exact ⟨halias, Nat.le_trans hle (Nat.le_add_left _ 2)⟩

theorem of_mem_anchoredItems : ∀ {items : List Tree} {a : Nat × Tree},
    a ∈ anchoredItems items → a.2.aliases = 0 ∧ a.2.size ≤ sizeItems items
  | [], _, h => nomatch h
  | t :: ts, _, h => by
    rcases List.mem_append.mp h with h | h
    · obtain ⟨halias, hle⟩ := of_mem_anchored h
      exact ⟨halias, Nat.le_trans hle (Nat.le_add_right _ _)⟩
    · obtain ⟨halias, hle⟩ := of_mem_anchoredItems h
      exact ⟨halias, Nat.le_trans hle (Nat.le_add_left _ _)⟩

theorem of_mem_anchoredEntries : ∀ {entries : List (Tree × Tree)} {a : Nat × Tree},
    a ∈ anchoredEntries entries → a.2.aliases = 0 ∧ a.2.size ≤ sizeEntries entries
  | [], _, h => nomatch h
  | (k, v) :: es, _, h => by
    rw [sizeEntries]
    rcases List.mem_append.mp h with h | h
    · rcases List.mem_append.mp h with h | h
      · obtain ⟨halias, hle⟩ := of_mem_anchored h
        exact ⟨halias, by omega⟩
      · obtain ⟨halias, hle⟩ := of_mem_anchored h
        exact ⟨halias, by omega⟩
    · obtain ⟨halias, hle⟩ := of_mem_anchoredEntries h
      exact ⟨halias, by omega⟩

end

end Tree

/-- The root and the nodes with anchors are no larger than the document, and no anchor stands at an
alias. -/
structure Document.IsSized (d : Document) : Prop where
  root : d.rootOrBlank.size ≤ d.size
  anchors : ∀ a ∈ d.anchors, a.2.aliases = 0 ∧ a.2.size ≤ d.size

theorem Document.isSized_ofRoot (root : Option Tree) : (ofRoot root).IsSized := by
  cases root with
  | none => exact ⟨Nat.le_refl 1, nofun⟩
  | some t => exact ⟨Nat.le_refl _, fun a ha => Tree.of_mem_anchored (List.mem_reverse.mp ha)⟩

theorem Document.isSized_of_ofText? {text : String} (h : ofText? text = some d) : d.IsSized := by
  obtain ⟨tokens, -, htokens⟩ := Option.bind_eq_some_iff.mp h
  unfold ofTokens? at htokens
  split_ifs at htokens
  · obtain rfl := Option.some.inj htokens
    exact isSized_ofRoot none
  · split at htokens
    · split_ifs at htokens
      obtain rfl := Option.some.inj htokens
      exact isSized_ofRoot _
    · exact nomatch htokens

theorem Document.IsSized.node {t' : Tree} (hd : d.IsSized) (ht : t.size ≤ d.size)
    (h : d.node? t = some t') : t'.aliases = 0 ∧ t'.size ≤ d.size := by
  cases t with
  | «alias» n =>
    obtain ⟨front, back, hanchors, -⟩ := List.lookup_eq_some_iff.mp h
    exact hd.anchors (n, t') (by rw [hanchors]; exact List.mem_append_right _ List.mem_cons_self)
  | scalar p cs style => exact Option.some.inj h ▸ ⟨rfl, ht⟩
  | sequence p items => exact Option.some.inj h ▸ ⟨rfl, ht⟩
  | mapping p entries => exact Option.some.inj h ▸ ⟨rfl, ht⟩

/-! ## What the decoder gives -/

theorem yields_text {s : String} (h : Yields (Decode.text d t) s) : d.text? t = some s :=
  (reads_text d t).eq_of_yields h

theorem yields_follow {t' : Tree} (h : Yields (Decode.follow d t) t') : d.node? t = some t' :=
  (reads_follow d t).eq_of_yields h

theorem eq_of_isOmitted {t : Tree} (h : Decode.isOmitted t = true) : ∃ p, t = .scalar p [] .plain := by
  cases t with
  | scalar p cs style =>
    obtain ⟨hcs, hstyle⟩ := Bool.and_eq_true_iff.mp h
    exact ⟨p, by rw [List.isEmpty_iff.mp hcs, beq_iff_eq.mp hstyle]⟩
  | _ => exact nomatch h

theorem yields_pairs {entries : List (Tree × Tree)} (h : Yields (Decode.pairs d t) entries) :
    IsMapping d t entries := by
  unfold Decode.pairs at h
  obtain ⟨t', hfollow, hpairs⟩ := yields_bind h
  have hnode := yields_follow hfollow
  split at hpairs
  · obtain rfl := yields_pure hpairs
    exact .mapping hnode
  · split_ifs at hpairs with homitted
    · obtain rfl := yields_pure hpairs
      obtain ⟨p, rfl⟩ := eq_of_isOmitted homitted
      exact .omitted hnode
    · exact absurd hpairs (not_yields_failure _)

theorem yields_items {items : List Tree} (h : Yields (Decode.items d t) items) :
    IsSequence d t items := by
  unfold Decode.items at h
  obtain ⟨t', hfollow, hitems⟩ := yields_bind h
  have hnode := yields_follow hfollow
  split at hitems
  · obtain rfl := yields_pure hitems
    exact .sequence hnode
  · split_ifs at hitems with homitted
    · obtain rfl := yields_pure hitems
      obtain ⟨p, rfl⟩ := eq_of_isOmitted homitted
      exact .omitted hnode
    · exact absurd hitems (not_yields_failure _)

theorem yields_fields {fields : List (String × Tree)} (h : Yields (Decode.fields d t) fields) :
    HasFields d t fields := by
  unfold Decode.fields at h
  obtain ⟨entries, hpairs, hnames⟩ := yields_bind h
  refine ⟨entries, yields_pairs hpairs, (yields_mapM hnames).imp fun e f hfield => ?_⟩
  obtain ⟨name, hname, hpure⟩ := yields_bind hfield
  obtain rfl := yields_pure hpure
  exact ⟨yields_text hname, rfl⟩

theorem yields_texts {texts : List String} (h : Yields (Decode.texts d t) texts) :
    HasTexts d t texts := by
  unfold Decode.texts at h
  obtain ⟨items, hitems, htexts⟩ := yields_bind h
  exact ⟨items, yields_items hitems, (yields_mapM htexts).imp fun _ _ => yields_text⟩

/-- The node behind another one, unless it is a plain scalar that stands for nothing. -/
theorem yields_optional {answer : Option Tree} (h : Yields (Decode.optional d t) answer) :
    HasOptionalText d t none ∧ answer = none ∨
      ∃ t', d.node? t = some t' ∧ answer = some t' ∧ ∀ p cs, t' = .scalar p cs .plain →
        p.tag ≠ some Decode.nullTag ∧ (p.tag = none → resolve cs ≠ .null) := by
  unfold Decode.optional at h
  obtain ⟨t', hfollow, hanswer⟩ := yields_bind h
  have hnode := yields_follow hfollow
  split at hanswer
  · rename_i p cs
    split at hanswer
    · rename_i htag
      obtain rfl := yields_pure hanswer
      split_ifs with hnull
      · exact .inl ⟨.nothing hnode htag (resolve_eq_null_iff.mpr hnull), rfl⟩
      · refine .inr ⟨_, hnode, rfl, fun p' cs' heq => ?_⟩
        obtain ⟨rfl, rfl, -⟩ := Tree.scalar.inj heq
        exact ⟨fun hnullTag => (nomatch htag.symm.trans hnullTag),
          fun _ => mt resolve_eq_null_iff.mp hnull⟩
    · rename_i tag htag
      split_ifs at hanswer with hnullTag hnull
      · obtain rfl := yields_pure hanswer
        exact .inl ⟨.tagged hnode (hnullTag ▸ htag) hnull, rfl⟩
      · exact absurd hanswer (not_yields_failure _)
      · obtain rfl := yields_pure hanswer
        refine .inr ⟨_, hnode, rfl, fun p' cs' heq => ?_⟩
        obtain ⟨rfl, rfl, -⟩ := Tree.scalar.inj heq
        exact ⟨fun h => hnullTag (Option.some.inj (htag.symm.trans h)),
          fun hnone => nomatch htag.symm.trans hnone⟩
  · rename_i hscalar
    obtain rfl := yields_pure hanswer
    exact .inr ⟨t', hnode, rfl, fun p cs heq => absurd heq (hscalar p cs)⟩

theorem yields_optionalText (hd : d.IsSized) (ht : t.size ≤ d.size) {text : Option String}
    (h : Yields (Decode.optionalText d t) text) : HasOptionalText d t text := by
  unfold Decode.optionalText at h
  obtain ⟨answer, hoptional, htext⟩ := yields_bind h
  obtain ⟨hnothing, rfl⟩ | ⟨t', hnode, rfl, hplain⟩ := yields_optional hoptional
  · obtain rfl := yields_pure htext
    exact hnothing
  · obtain ⟨s, hs, rfl⟩ := yields_map htext
    have hs := yields_text hs
    have halias := (hd.node ht hnode).1
    cases t' with
    | «alias» n => exact absurd halias Nat.one_ne_zero
    | scalar p cs style =>
      obtain rfl := Option.some.inj hs
      exact .text hnode fun hstyle => hplain p cs (by rw [hstyle])
    | sequence p items => exact nomatch hs
    | mapping p entries => exact nomatch hs

section Field

variable {α : Type} {name : String} {fields : List (String × Tree)} {missing a : α}
  {read : Tree → Decoder α} {IsValue : Tree → α → Prop}

theorem yields_field (hread : ∀ f ∈ fields, ∀ a, Yields (read f.2) a → IsValue f.2 a)
    (h : Yields (Decode.field name fields missing read) a) :
    HasField name fields missing IsValue a := by
  unfold Decode.field field? at h
  cases hnamed : fields.filter (·.1 == name) with
  | nil =>
    rw [hnamed] at h
    obtain rfl := yields_pure h
    exact .absent fun f hf => by simpa using List.filter_eq_nil_iff.mp hnamed f hf
  | cons f rest =>
    cases rest with
    | nil =>
      rw [hnamed] at h
      obtain ⟨front, back, hfields, hfront, hname, hback⟩ := List.filter_eq_cons_iff.mp hnamed
      obtain rfl : f.1 = name := beq_iff_eq.mp hname
      have hmem : f ∈ fields := by
        rw [hfields]
        exact List.mem_append_right _ List.mem_cons_self
      refine .present hfields (fun g hg => ?_) (hread f hmem a h)
      rcases List.mem_append.mp hg with hg | hg
      · simpa using hfront g hg
      · simpa using List.filter_eq_nil_iff.mp hback g hg
    | cons g rest =>
      rw [hnamed] at h
      exact absurd h (not_yields_failure a)

theorem within_field {n : Nat} (hread : ∀ f ∈ fields, ∀ a, IsValue f.2 a → Within (read f.2) n a)
    (h : HasField name fields missing IsValue a) :
    Within (Decode.field name fields missing read) n a := by
  have hnone {fs : List (String × Tree)} (hfs : ∀ f ∈ fs, f.1 ≠ name) :
      fs.filter (·.1 == name) = [] :=
    List.filter_eq_nil_iff.mpr fun f hf => by simpa using hfs f hf
  unfold Decode.field field?
  cases h with
  | absent habsent =>
    rw [hnone habsent]
    exact (within_pure missing).mono (Nat.zero_le n)
  | @present front back t a hfields hothers hvalue =>
    obtain ⟨hfront, hback⟩ := List.forall_mem_append.mp hothers
    have hnamed : fields.filter (·.1 == name) = [(name, t)] := by
      rw [hfields, List.filter_append, hnone hfront, List.nil_append, List.filter_cons, hnone hback,
        if_pos (beq_self_eq_true name)]
    rw [hnamed]
    exact hread (name, t) (by rw [hfields]; exact List.mem_append_right _ List.mem_cons_self) a hvalue

end Field

theorem within_text {s : String} (h : d.text? t = some s) : Within (Decode.text d t) 1 s :=
  ⟨t.aliases, t.aliases_le_one, h ▸ reads_text d t⟩

theorem within_follow {t' : Tree} (h : d.node? t = some t') : Within (Decode.follow d t) 1 t' :=
  ⟨t.aliases, t.aliases_le_one, reads_node h⟩

theorem within_pairs {entries : List (Tree × Tree)} (h : IsMapping d t entries) :
    Within (Decode.pairs d t) 1 entries := by
  unfold Decode.pairs
  cases h with
  | mapping hnode => exact (within_follow hnode).ending (within_pure _)
  | omitted hnode => exact (within_follow hnode).ending (within_pure _)

theorem within_items {items : List Tree} (h : IsSequence d t items) :
    Within (Decode.items d t) 1 items := by
  unfold Decode.items
  cases h with
  | sequence hnode => exact (within_follow hnode).ending (within_pure _)
  | omitted hnode => exact (within_follow hnode).ending (within_pure _)

theorem IsMapping.length_le (hd : d.IsSized) (ht : t.size ≤ d.size) {entries : List (Tree × Tree)}
    (h : IsMapping d t entries) :
    entries.length ≤ d.size ∧ ∀ e ∈ entries, e.2.size ≤ d.size := by
  cases h with
  | @mapping p _ hnode =>
    have hsize : 2 + Tree.sizeEntries entries ≤ d.size := (hd.node ht hnode).2
    have hlength := Tree.length_le_sizeEntries entries
    refine ⟨by omega, fun e he => ?_⟩
    have hentry := Tree.size_le_of_mem_entries he
    omega
  | omitted => exact ⟨Nat.zero_le _, nofun⟩

theorem IsSequence.length_le (hd : d.IsSized) (ht : t.size ≤ d.size) {items : List Tree}
    (h : IsSequence d t items) : items.length ≤ d.size := by
  cases h with
  | @sequence p _ hnode =>
    have hsize : 2 + Tree.sizeItems items ≤ d.size := (hd.node ht hnode).2
    have hlength := Tree.length_le_sizeItems items
    omega
  | omitted => exact Nat.zero_le _

theorem within_fields (hd : d.IsSized) (ht : t.size ≤ d.size) {fields : List (String × Tree)}
    (h : HasFields d t fields) :
    Within (Decode.fields d t) (1 + d.size) fields ∧ ∀ f ∈ fields, f.2.size ≤ d.size := by
  obtain ⟨entries, hmapping, hfields⟩ := h
  obtain ⟨hlength, hsizes⟩ := hmapping.length_le hd ht
  constructor
  · unfold Decode.fields
    refine (within_pairs hmapping).andThen ((within_mapM (hfields.imp fun e f hf => ?_)).mono hlength)
    exact (within_text hf.1).ending (hf.2 ▸ within_pure (f.1, e.2))
  · intro f hf
    obtain ⟨e, he, hfield⟩ := List.Forall₂.exists_of_mem_right hfields hf
    exact hfield.2 ▸ hsizes e he

theorem within_texts (hd : d.IsSized) (ht : t.size ≤ d.size) {texts : List String}
    (h : HasTexts d t texts) : Within (Decode.texts d t) (1 + d.size) texts := by
  obtain ⟨items, hitems, htexts⟩ := h
  unfold Decode.texts
  exact (within_items hitems).andThen
    ((within_mapM (htexts.imp fun _ _ => within_text)).mono (hitems.length_le hd ht))

theorem within_optional_none (h : HasOptionalText d t none) : Within (Decode.optional d t) 1 none := by
  unfold Decode.optional
  cases h with
  | nothing hnode htag hnull =>
    refine (within_follow hnode).ending ?_
    simp only [htag, resolve_eq_null_iff.mp hnull, if_true]
    exact within_pure none
  | tagged hnode htag hnull =>
    refine (within_follow hnode).ending ?_
    simp only [htag, hnull, if_true]
    exact within_pure none

theorem within_optional_some {p : Properties} {cs : List Char} {style : Style}
    (hnode : d.node? t = some (.scalar p cs style))
    (hplain : style = .plain → p.tag ≠ some Decode.nullTag ∧ (p.tag = none → resolve cs ≠ .null)) :
    Within (Decode.optional d t) 1 (some (.scalar p cs style)) := by
  unfold Decode.optional
  refine (within_follow hnode).ending ?_
  cases style with
  | quoted => exact within_pure _
  | plain =>
    obtain ⟨htag, hnull⟩ := hplain rfl
    cases hp : p.tag with
    | none =>
      have hfilled := Bool.eq_false_iff.mpr (mt resolve_eq_null_iff.mpr (hnull hp))
      simp only [hp, hfilled, Bool.false_eq_true, if_false]
      exact within_pure _
    | some tag =>
      have hforeign : tag ≠ Decode.nullTag := fun h => htag (hp.trans (congrArg some h))
      simp only [hp, hforeign, if_false]
      exact within_pure _

theorem within_optionalText {text : Option String} (h : HasOptionalText d t text) :
    Within (Decode.optionalText d t) 1 text := by
  unfold Decode.optionalText
  cases text with
  | none => exact (within_optional_none h).ending (within_pure none)
  | some s =>
    cases h with
    | @text p cs style hnode hplain =>
      have htext : Within (Decode.text d (.scalar p cs style)) 0 (String.ofList cs) :=
        ⟨0, Nat.le_refl 0, reads_text d (.scalar p cs style)⟩
      exact (within_optional_some hnode hplain).ending (htext.map some)

/-- What is given from few enough aliases is the answer of a document. -/
theorem Document.decode_of_within {α : Type} {read : Tree → Decoder α} {n : Nat} {a : α}
    (h : Within (read d.rootOrBlank) n a) (hn : n ≤ Decode.aliasFactor * d.size) :
    d.decode read = some a := by
  obtain ⟨m, hm, hreads⟩ := h
  rw [decode_of_reads hreads, if_pos (Nat.le_trans hm hn)]

theorem Document.yields_of_decode {α : Type} {read : Tree → Decoder α} {a : α}
    (h : d.decode read = some a) : Yields (read d.rootOrBlank) a := by
  obtain ⟨⟨b, left⟩, hread, rfl⟩ := Option.map_eq_some_iff.mp h
  exact ⟨_, left, hread⟩

end PromptRunner.Yaml
