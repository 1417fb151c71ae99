import Mathlib.Data.List.Infix

/-!
# Occurrences across separators

A text occurs in another one as an infix. Where texts are joined by a separator that shares no
character with the text looked for, nothing is found across a join and nothing is lost at one.
-/

namespace PromptRunner.Text

variable {α : Type}

/-- An occurrence does not start where its first character is missing. -/
theorem infix_append_of_head_notMem {a : α} {l xs ys : List α} (h : a ∉ xs) :
    a :: l <:+: xs ++ ys ↔ a :: l <:+: ys := by
  induction xs with
  | nil => rfl
  | cons x xs ih =>
    obtain ⟨hx, hxs⟩ := not_or.mp (mt List.mem_cons.mpr h)
    rw [List.cons_append, List.infix_cons_iff, List.cons_prefix_cons, ih hxs]
    exact ⟨fun h => h.resolve_left fun hp => hx hp.1, .inr⟩

theorem infix_append_of_disjoint {l sep ys : List α} (hl : l ≠ []) (h : ∀ c ∈ sep, c ∉ l) :
    l <:+: sep ++ ys ↔ l <:+: ys := by
  induction sep with
  | nil => rfl
  | cons c sep ih =>
    have hc : c ∉ l := h c List.mem_cons_self
    rw [List.cons_append, List.infix_cons_iff, ih fun d hd => h d (List.mem_cons_of_mem c hd)]
    refine ⟨fun h => h.resolve_left fun hp => ?_, .inr⟩
    obtain hnil | ⟨t, rfl, _⟩ := List.prefix_cons_iff.mp hp
    · exact hl hnil
    · exact hc List.mem_cons_self

/-- An occurrence never reaches across a separator. -/
theorem infix_separated_iff {l sep : List α} (hl : l ≠ []) (hsep : sep ≠ [])
    (h : ∀ c ∈ sep, c ∉ l) (xs ys : List α) :
    l <:+: xs ++ sep ++ ys ↔ l <:+: xs ∨ l <:+: ys := by
  obtain ⟨c, sep, rfl⟩ := List.exists_cons_of_ne_nil hsep
  rw [List.append_assoc, List.infix_append_iff_ne_nil, infix_append_of_disjoint hl h]
  constructor
  · rintro (hx | hy | ⟨l₁, l₂, _, h₂, rfl, _, hp⟩)
    · exact .inl hx
    · exact .inr hy
    · obtain hnil | ⟨t, rfl, _⟩ := List.prefix_cons_iff.mp hp
      · exact (h₂ hnil).elim
      · exact (h c List.mem_cons_self (List.mem_append_right l₁ List.mem_cons_self)).elim
  · rintro (hx | hy)
    · exact .inl hx
    · exact .inr (.inl hy)

/-- What occurs in joined texts occurs in one of them. -/
theorem infix_intercalate_iff {l sep : List α} (hl : l ≠ []) (hsep : sep ≠ [])
    (h : ∀ c ∈ sep, c ∉ l) (xss : List (List α)) :
    l <:+: sep.intercalate xss ↔ ∃ xs ∈ xss, l <:+: xs := by
  induction xss with
  | nil => simpa using hl
  | cons xs xss ih =>
    cases xss with
    | nil => simp
    | cons ys xss =>
      rw [List.intercalate_cons_cons, infix_separated_iff hl hsep h, ih]
      exact (List.exists_mem_cons_iff _ _ _).symm

end PromptRunner.Text
