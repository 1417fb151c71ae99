import Mathlib.Tactic.SplitIfs
import PromptRunner.Yaml.ValueText

/-!
# The text of numbers and truth values

A number is written with digits, a point, signs and the letter of an exponent; an infinity and what
is not a number have words of their own. None of them holds a brace, and neither does a truth value
or null. So a scalar that is not a text never refers to a variable.
-/

namespace PromptRunner.Decimal

def IsNumberChar (c : Char) : Prop :=
  c.isDigit = true ∨ c ∈ ['.', '-', '+', 'e']

theorem openBrace_not_isNumberChar : ¬ IsNumberChar '\x7b' := by
  unfold IsNumberChar
  decide

theorem isNumberChar_toDigits {n : Nat} {c : Char} (h : c ∈ Nat.toDigits 10 n) : IsNumberChar c :=
  .inl (Nat.isDigit_of_mem_toDigits (by decide) (by decide) h)

theorem isNumberChar_zeros {n : Nat} {c : Char} (h : c ∈ Layout.zeros n) : IsNumberChar c := by
  obtain rfl := List.eq_of_mem_replicate h
  exact .inl rfl

namespace Layout

variable {l : Layout} (hl : ∀ c ∈ l.exponentSign, IsNumberChar c)
include hl

theorem isNumberChar_exponentText {e : Int} {c : Char} (h : c ∈ l.exponentText e) :
    IsNumberChar c := by
  unfold exponentText at h
  split_ifs at h
  · rcases List.mem_cons.mp h with rfl | h
    · exact .inr (by decide)
    · exact isNumberChar_toDigits h
  · rcases List.mem_append.mp h with h | h
    · exact hl c h
    · exact isNumberChar_toDigits h

theorem isNumberChar_positive {d : Digits} {c : Char} (h : c ∈ l.positive d) : IsNumberChar c := by
  have hdigit : ∀ c ∈ digitText d.digits, IsNumberChar c := fun c hc => isNumberChar_toDigits hc
  simp only [positive] at h
  split_ifs at h
  · simp only [List.mem_append, List.mem_cons, List.not_mem_nil, or_false] at h
    obtain (h | h) | rfl | rfl := h
    · exact hdigit c h
    · exact isNumberChar_zeros h
    · exact .inr (by decide)
    · exact .inl rfl
  · rcases List.mem_append.mp h with h | h
    · exact hdigit c (List.mem_of_mem_take h)
    rcases List.mem_cons.mp h with rfl | h
    · exact .inr (by decide)
    · exact hdigit c (List.mem_of_mem_drop h)
  · simp only [List.mem_cons, List.mem_append] at h
    obtain rfl | rfl | h | h := h
    · exact .inl rfl
    · exact .inr (by decide)
    · exact isNumberChar_zeros h
    · exact hdigit c h
  · split at h
    · rename_i c' hc'
      simp only [List.mem_cons] at h
      obtain rfl | rfl | h := h
      · exact hdigit c (hc' ▸ List.mem_cons_self)
      · exact .inr (by decide)
      · exact isNumberChar_exponentText hl h
    · rename_i c' cs _ hc'
      simp only [List.mem_cons, List.mem_append] at h
      obtain rfl | rfl | h | rfl | h := h
      · exact hdigit c (hc' ▸ List.mem_cons_self)
      · exact .inr (by decide)
      · exact hdigit c (hc' ▸ List.mem_cons_of_mem _ h)
      · exact .inr (by decide)
      · exact isNumberChar_exponentText hl h
    · exact nomatch h

theorem isNumberChar_text {negative : Bool} {mantissa : Nat} {exponent : Int} {c : Char}
    (h : c ∈ (l.text (.finite negative mantissa exponent)).toList) : IsNumberChar c := by
  have hbody : ∀ c ∈ (if mantissa = 0 then ['0', '.', '0']
      else l.positive (shortestDigits mantissa exponent)), IsNumberChar c := by
    intro c hc
    split_ifs at hc
    · obtain rfl | rfl | rfl : c = '0' ∨ c = '.' ∨ c = '0' := by simpa using hc
      · exact .inl rfl
      · exact .inr (by decide)
      · exact .inl rfl
    · exact isNumberChar_positive hl hc
  cases negative with
  | false => exact hbody c (by simpa [text] using h)
  | true =>
    simp only [text, if_true, String.toList_ofList, List.mem_cons] at h
    rcases h with rfl | h
    · exact .inr (by decide)
    · exact hbody c h

end Layout

end PromptRunner.Decimal

namespace PromptRunner.Yaml

open Decimal (IsNumberChar isNumberChar_toDigits openBrace_not_isNumberChar)

theorem isNumberChar_intText {n : Int} {c : Char} (h : c ∈ (toString n).toList) :
    IsNumberChar c := by
  rw [Int.toString_eq_repr, Int.repr_eq_if] at h
  split_ifs at h
  · rw [Nat.toList_repr] at h
    exact isNumberChar_toDigits h
  · rw [String.toList_append, Nat.toList_repr] at h
    rcases List.mem_append.mp h with h | h
    · obtain rfl := List.mem_singleton.mp h
      exact .inr (by decide)
    · exact isNumberChar_toDigits h

theorem openBrace_notMem_floatText (d : Decimal.Double) :
    '\x7b' ∉ (numberLayout.text d).toList := by
  cases d with
  | finite s m e =>
    intro h
    exact openBrace_not_isNumberChar (Decimal.Layout.isNumberChar_text (by simp [numberLayout]) h)
  | infinite s => cases s <;> decide
  | notANumber => decide

/-- The kinds of scalars other than texts. -/
inductive Value.IsPlainScalar : Value → Prop
  | null : IsPlainScalar .null
  | bool (b : Bool) : IsPlainScalar (.bool b)
  | int (n : Int) : IsPlainScalar (.int n)
  | float (d : Decimal.Double) : IsPlainScalar (.float d)

theorem Value.IsPlainScalar.openBrace_notMem {v : Value} (h : v.IsPlainScalar) :
    '\x7b' ∉ v.plainText.toList := by
  cases h with
  | null => decide
  | bool b => cases b <;> decide
  | int n => exact fun h => openBrace_not_isNumberChar (isNumberChar_intText h)
  | float d => exact openBrace_notMem_floatText d

end PromptRunner.Yaml
