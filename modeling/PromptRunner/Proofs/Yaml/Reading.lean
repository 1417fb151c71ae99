import Mathlib.Data.List.Basic
import PromptRunner.Yaml.Decode

/-!
# What a decoder reads

A decoder whose steps do not look at the number of aliases that are left gives one answer from every
number that suffices. Such answers are put together along the decoder, and the aliases that are
followed add up.
-/

namespace PromptRunner.Yaml

/-- The sum of a count over a list. -/
def total {α : Type} (count : α → Nat) : List α → Nat
  | [] => 0
  | a :: as => count a + total count as

section Total

variable {α : Type} {count : α → Nat}

theorem total_add (count count' : α → Nat) (as : List α) :
    total (fun a => count a + count' a) as = total count as + total count' as := by
  induction as with
  | nil => rfl
  | cons a as ih => rw [total, total, total, ih]; omega

theorem total_map {β : Type} (f : β → α) (as : List β) :
    total count (as.map f) = total (fun b => count (f b)) as := by
  induction as with
  | nil => rfl
  | cons a as ih => rw [List.map_cons, total, total, ih]

theorem total_congr {count' : α → Nat} {as : List α} (h : ∀ a ∈ as, count a = count' a) :
    total count as = total count' as := by
  induction as with
  | nil => rfl
  | cons a as ih =>
    rw [total, total, h a List.mem_cons_self, ih fun b hb => h b (List.mem_cons_of_mem a hb)]

theorem total_eq_zero {as : List α} (h : ∀ a ∈ as, count a = 0) : total count as = 0 := by
  induction as with
  | nil => rfl
  | cons a as ih =>
    rw [total, h a List.mem_cons_self, ih fun b hb => h b (List.mem_cons_of_mem a hb)]

/-- A sum may be taken over some members first. -/
theorem total_filter (p : α → Bool) (as : List α) :
    total count as = total count (as.filter p) + total count (as.filter fun a => !p a) := by
  induction as with
  | nil => rfl
  | cons a as ih =>
    cases hp : p a with
    | true =>
      rw [List.filter_cons_of_pos hp, List.filter_cons_of_neg (by simp [hp]), total, total, ih]
      omega
    | false =>
      rw [List.filter_cons_of_neg (by simp [hp]), List.filter_cons_of_pos (by simp [hp]), total,
        total, ih]
      omega

end Total

namespace Decoder

variable {α β : Type} {n m : Nat}

/-- A decoder that gives `answer` after following `n` aliases, and nothing if fewer are left. -/
def Reads (x : Decoder α) (n : Nat) (answer : Option α) : Prop :=
  ∀ left, x left = if n ≤ left then answer.map (·, left - n) else none

theorem reads_pure (a : α) : Reads (pure a) 0 (some a) :=
  fun _ => rfl

theorem reads_failure (n : Nat) : Reads (failure : Decoder α) n none := by
  intro left
  rw [Option.map_none, ite_self]
  rfl

theorem reads_lift (answer : Option α) : Reads (StateT.lift answer) 0 answer := by
  intro left
  cases answer <;> rfl

theorem Reads.congr {x : Decoder α} {answer : Option α} (h : Reads x n answer) (hn : n = m) :
    Reads x m answer :=
  hn ▸ h

theorem Reads.bind {x : Decoder α} {f : α → Decoder β} {answer : Option α} {g : α → Option β}
    (hx : Reads x n answer) (hf : ∀ a, answer = some a → Reads (f a) m (g a)) :
    Reads (x >>= f) (n + m) (answer.bind g) := by
  intro left
  change (x left).bind (fun r => f r.1 r.2) = _
  rw [hx left]
  cases answer with
  | none => simp
  | some a =>
    by_cases hn : n ≤ left
    · rw [if_pos hn, Option.map_some, Option.bind_some, Option.bind_some, hf a rfl (left - n)]
      by_cases hm : m ≤ left - n
      · rw [if_pos hm, if_pos (by omega), Nat.sub_sub]
      · rw [if_neg hm, if_neg (by omega)]
    · rw [if_neg hn, if_neg (by omega)]
      rfl

theorem Reads.andThen {x : Decoder α} {f : α → Decoder β} {a : α} {answer : Option β}
    (hx : Reads x n (some a)) (hf : Reads (f a) m answer) : Reads (x >>= f) (n + m) answer :=
  hx.bind (g := fun _ => answer) fun _ h => Option.some.inj h ▸ hf

/-- A last step that follows no alias. -/
theorem Reads.ending {x : Decoder α} {f : α → Decoder β} {a : α} {answer : Option β}
    (hx : Reads x n (some a)) (hf : Reads (f a) 0 answer) : Reads (x >>= f) n answer :=
  hx.andThen hf

theorem Reads.map {x : Decoder α} {answer : Option α} (f : α → β) (hx : Reads x n answer) :
    Reads (f <$> x) n (answer.map f) := by
  rw [map_eq_pure_bind, Option.map_eq_bind]
  exact hx.bind fun a _ => reads_pure (f a)

theorem reads_mapM {f : α → Decoder β} {count : α → Nat} {g : α → β} {as : List α}
    (h : ∀ a ∈ as, Reads (f a) (count a) (some (g a))) :
    Reads (as.mapM f) (total count as) (some (as.map g)) := by
  induction as with
  | nil => exact reads_pure []
  | cons a as ih =>
    rw [List.mapM_cons]
    have hrest := ih fun b hb => h b (List.mem_cons_of_mem a hb)
    exact (h a List.mem_cons_self).andThen (hrest.ending (reads_pure (g a :: as.map g)))

end Decoder

/-! ## Nodes -/

namespace Document

/-- The node that is read where a node stands: behind an alias the one that it refers to. -/
def node? (d : Document) : Tree → Option Tree
  | .alias n => d.target? n
  | t => some t

end Document

namespace Tree

def scalarText? : Tree → Option String
  | .scalar _ cs _ => some (String.ofList cs)
  | _ => none

/-- The number of aliases that are followed to read a node. -/
def aliases : Tree → Nat
  | .alias _ => 1
  | _ => 0

end Tree

def Document.text? (d : Document) (t : Tree) : Option String :=
  (d.node? t).bind Tree.scalarText?

section Nodes

open Decoder

variable {d : Document} {t t' : Tree}

theorem reads_follow (d : Document) (t : Tree) :
    Reads (Decode.follow d t) t.aliases (d.node? t) := by
  cases t with
  | «alias» n =>
    intro left
    rw [Decode.follow, Tree.aliases, Document.node?]
    cases left with
    | zero => rfl
    | succ left =>
      rw [if_pos (Nat.le_add_left 1 left)]
      cases d.target? n with
      | none => rfl
      | some t => rfl
  | scalar p cs style => exact reads_pure _
  | sequence p items => exact reads_pure _
  | mapping p entries => exact reads_pure _

theorem reads_node (h : d.node? t = some t') : Reads (Decode.follow d t) t.aliases (some t') :=
  h ▸ reads_follow d t

theorem reads_text (d : Document) (t : Tree) : Reads (Decode.text d t) t.aliases (d.text? t) := by
  refine Reads.congr ((reads_follow d t).bind fun t' _ => ?_) (Nat.add_zero _)
  cases t' with
  | «alias» n => exact reads_failure 0
  | scalar p cs style => exact reads_pure _
  | sequence p items => exact reads_failure 0
  | mapping p entries => exact reads_failure 0

theorem reads_fields {p : Properties} {entries : List (Tree × Tree)} {name : Tree × Tree → String}
    (hname : ∀ e ∈ entries, d.text? e.1 = some (name e)) :
    Reads (Decode.fields d (.mapping p entries)) (total (fun e => e.1.aliases) entries)
      (some (entries.map fun e => (name e, e.2))) := by
  have hpairs : Reads (Decode.pairs d (.mapping p entries)) 0 (some entries) := by
    have hnode : d.node? (.mapping p entries) = some (.mapping p entries) := rfl
    unfold Decode.pairs
    exact (reads_node hnode).ending (reads_pure entries)
  refine Reads.congr (hpairs.andThen (reads_mapM fun e he => ?_)) (Nat.zero_add _)
  have hkey : Reads (Decode.text d e.1) e.1.aliases (some (name e)) := hname e he ▸ reads_text d e.1
  exact hkey.ending (reads_pure (name e, e.2))

theorem reads_texts {p : Properties} {items : List Tree} {text : Tree → String}
    (h : d.node? t = some (.sequence p items))
    (htext : ∀ item ∈ items, d.text? item = some (text item)) :
    Reads (Decode.texts d t) (t.aliases + total Tree.aliases items) (some (items.map text)) := by
  have hitems : Reads (Decode.items d t) t.aliases (some items) := by
    unfold Decode.items
    exact (reads_node h).ending (reads_pure items)
  exact hitems.andThen (reads_mapM fun item hitem => htext item hitem ▸ reads_text d item)

/-! ## Values -/

variable {strictness : Decode.Strictness} {depth : Nat}

theorem reads_value_scalar {p : Properties} {cs : List Char} {style : Style} {v : Value}
    (h : d.node? t = some (.scalar p cs style))
    (hscalar : Reads (Decode.scalar strictness p cs style) 0 (some v)) :
    Reads (Decode.value d strictness depth t) t.aliases (some v) := by
  unfold Decode.value
  exact (reads_node h).ending hscalar

theorem reads_wrap {p : Properties} (htag : p.tag.bind Decode.ownTag? = none) (v : Value) :
    Reads (Decode.wrap strictness p v) 0 (some v) := by
  rw [Decode.wrap, htag]
  exact reads_pure v

theorem reads_value_sequence {p : Properties} {items : List Tree} {count : Tree → Nat}
    {g : Tree → Value} (h : d.node? t = some (.sequence p items))
    (htag : p.tag.bind Decode.ownTag? = none)
    (hitems : ∀ item ∈ items,
      Reads (Decode.value d strictness depth item) (count item) (some (g item))) :
    Reads (Decode.value d strictness (depth + 1) t) (t.aliases + total count items)
      (some (.list (items.map g))) := by
  unfold Decode.value
  exact (reads_node h).andThen ((reads_mapM hitems).ending (reads_wrap htag _))

/-- The entries of a mapping in which keys may be repeated. -/
theorem reads_value_mapping {p : Properties} {entries : List (Tree × Tree)}
    {keyCount count : Tree × Tree → Nat} {key g : Tree × Tree → Value}
    (h : d.node? t = some (.mapping p entries)) (htag : p.tag.bind Decode.ownTag? = none)
    (hrepeated : strictness.repeatedKeys = true)
    (hkeys : ∀ e ∈ entries,
      Reads (Decode.value d strictness depth e.1) (keyCount e) (some (key e)))
    (hvalues : ∀ e ∈ entries,
      Reads (Decode.value d strictness depth e.2) (count e) (some (g e))) :
    Reads (Decode.value d strictness (depth + 1) t)
      (t.aliases + total (fun e => keyCount e + count e) entries)
      (some (.map (entries.map fun e => (key e, g e)))) := by
  have hfold (acc : List (Value × Value)) :
      Reads (entries.foldlM (fun es e => do
          let k ← Decode.value d strictness depth e.1
          Decode.addEntry strictness es k (Decode.value d strictness depth e.2)) acc)
        (total (fun e => keyCount e + count e) entries)
        (some ((entries.map fun e => (key e, g e)).reverse ++ acc)) := by
    clear h
    induction entries generalizing acc with
    | nil => exact reads_pure acc
    | cons e es ih =>
      have hadd : Reads (Decode.addEntry strictness acc (key e)
          (Decode.value d strictness depth e.2)) (count e) (some ((key e, g e) :: acc)) := by
        rw [Decode.addEntry, hrepeated]
        exact (hvalues e List.mem_cons_self).ending (reads_pure _)
      have hrest := ih (fun f hf => hkeys f (List.mem_cons_of_mem e hf))
        (fun f hf => hvalues f (List.mem_cons_of_mem e hf)) ((key e, g e) :: acc)
      rw [List.foldlM_cons, total, List.map_cons, List.reverse_cons, List.append_assoc]
      exact ((hkeys e List.mem_cons_self).andThen hadd).andThen hrest
  unfold Decode.value
  refine (reads_node h).andThen ((hfold []).ending ?_)
  rw [List.append_nil, List.reverse_reverse]
  exact reads_wrap htag _

end Nodes

/-- What a document gives, if it gives it after following as many aliases as it may. -/
theorem Document.decode_of_reads {α : Type} {d : Document} {read : Tree → Decoder α} {n : Nat}
    {answer : Option α} (h : Decoder.Reads (read d.rootOrBlank) n answer) :
    d.decode read = if n ≤ Decode.aliasFactor * d.size then answer else none := by
  rw [Document.decode, h]
  split_ifs
  · cases answer <;> rfl
  · rfl

end PromptRunner.Yaml
