import Mathlib
import PromptRunner.Decimal.Layout
import PromptRunner.Proofs.Yaml.Words
import PromptRunner.Yaml.Decode

/-!
# Plain scalars that are not texts

A truth value or a number is written with letters, digits, points and signs only. So a plain scalar
that stands for one is a word.
-/

namespace PromptRunner

def IsScalarChar (c : Char) : Prop :=
  c.isAlphanum = true ∨ c = '.' ∨ c = '+' ∨ c = '-'

instance (c : Char) : Decidable (IsScalarChar c) :=
  inferInstanceAs (Decidable (_ ∨ _))

theorem isScalarChar_of_isDigit {c : Char} (h : c.isDigit = true) : IsScalarChar c :=
  .inl (by simp [Char.isAlphanum, h])

namespace Decimal

variable {cs : List Char} {negative : Bool} {d : Double} {e : Int}

theorem isScalarChar_of_all (h : cs.all Char.isDigit = true) : ∀ c ∈ cs, IsScalarChar c :=
  fun c hc => isScalarChar_of_isDigit (List.all_eq_true.mp h c hc)

theorem isScalarChar_cons {c : Char} (hc : IsScalarChar c) (h : ∀ c ∈ cs, IsScalarChar c) :
    ∀ c' ∈ c :: cs, IsScalarChar c' := by
  intro c' hc'
  rcases List.mem_cons.mp hc' with rfl | hc'
  · exact hc
  · exact h c' hc'

theorem isScalarChar_of_exponentPart (h : exponentPart cs = some e) : ∀ c ∈ cs, IsScalarChar c := by
  have hdigits (ds : List Char) (value : Int)
      (hds : (if ds.isEmpty || !ds.all Char.isDigit then none else some value) = some e) :
      ∀ c ∈ ds, IsScalarChar c := by
    split at hds
    · exact nomatch hds
    · rename_i hall
      simp only [Bool.or_eq_true, Bool.not_eq_true', not_or, Bool.not_eq_false] at hall
      exact isScalarChar_of_all hall.2
  cases cs with
  | nil => exact fun c hc => absurd hc List.not_mem_nil
  | cons c cs =>
    simp only [exponentPart] at h
    split at h
    · rename_i hletter
      have hc : IsScalarChar c := by
        simp only [Bool.or_eq_true, decide_eq_true_eq] at hletter
        rcases hletter with rfl | rfl
        · exact .inl (by decide)
        · exact .inl (by decide)
      apply isScalarChar_cons hc
      split at h
      · exact isScalarChar_cons (.inr (.inr (.inr rfl))) (hdigits _ _ h)
      · exact isScalarChar_cons (.inr (.inr (.inl rfl))) (hdigits _ _ h)
      · exact hdigits _ _ h
    · exact nomatch h

theorem isScalarChar_append {as bs : List Char} (has : ∀ c ∈ as, IsScalarChar c)
    (hbs : ∀ c ∈ bs, IsScalarChar c) : ∀ c ∈ as ++ bs, IsScalarChar c := by
  intro c hc
  rcases List.mem_append.mp hc with hc | hc
  · exact has c hc
  · exact hbs c hc

/-- Digits and what follows them. -/
theorem isScalarChar_of_dropWhile (h : ∀ c ∈ cs.dropWhile Char.isDigit, IsScalarChar c) :
    ∀ c ∈ cs, IsScalarChar c := by
  have hsplit : cs.takeWhile Char.isDigit ++ cs.dropWhile Char.isDigit = cs :=
    List.takeWhile_append_dropWhile
  rw [← hsplit]
  exact isScalarChar_append (isScalarChar_of_all List.all_takeWhile) h

theorem isScalarChar_of_unsignedLiteral (h : unsignedLiteral negative cs = some d) :
    ∀ c ∈ cs, IsScalarChar c := by
  have hexponent (rest : List Char) (number : Int → Double) {condition : Bool}
      (hread : (if condition then none else (exponentPart rest).map number) = some d) :
      ∀ c ∈ rest, IsScalarChar c := by
    split at hread
    · exact nomatch hread
    · obtain ⟨e, he, -⟩ := Option.map_eq_some_iff.mp hread
      exact isScalarChar_of_exponentPart he
  apply isScalarChar_of_dropWhile
  simp only [unsignedLiteral] at h
  split at h
  · rename_i ds hpoint
    rw [hpoint]
    apply isScalarChar_cons (.inr (.inl rfl))
    exact isScalarChar_of_dropWhile (hexponent _ _ h)
  · exact hexponent _ _ h

theorem isScalarChar_of_literal? (h : literal? cs = some d) : ∀ c ∈ cs, IsScalarChar c := by
  unfold literal? at h
  split at h
  · exact isScalarChar_cons (.inr (.inr (.inr rfl))) (isScalarChar_of_unsignedLiteral h)
  · exact isScalarChar_cons (.inr (.inr (.inl rfl))) (isScalarChar_of_unsignedLiteral h)
  · exact isScalarChar_of_unsignedLiteral h

end Decimal

namespace Yaml

namespace Resolve

open Decimal (isScalarChar_cons isScalarChar_of_literal?)

variable {cs : List Char} {base bound : Nat}

theorem isAlphanum_of_digit? {c : Char} {n : Nat} (h : digit? c = some n) : c.isAlphanum = true := by
  rw [digit?] at h
  split_ifs at h with hdigit hlower hupper
  · simp [Char.isAlphanum, hdigit]
  · simp [Char.isAlphanum, Char.isAlpha, hlower]
  · simp [Char.isAlphanum, Char.isAlpha, hupper]

/-- Read on with the next digit of a number in a base. -/
def addDigit (base : Nat) (n : Option Nat) (c : Char) : Option Nat :=
  n.bind fun n => (digit? c).bind fun d => if d < base then some (base * n + d) else none

theorem natural?_eq (base : Nat) (cs : List Char) :
    natural? base cs = if cs.isEmpty then none else cs.foldl (addDigit base) (some 0) :=
  rfl

theorem foldl_addDigit_none (base : Nat) (cs : List Char) : cs.foldl (addDigit base) none = none := by
  induction cs with
  | nil => rfl
  | cons c cs ih => exact ih

theorem isScalarChar_of_foldl {a n : Nat} (h : cs.foldl (addDigit base) (some a) = some n) :
    ∀ c ∈ cs, IsScalarChar c := by
  induction cs generalizing a with
  | nil => exact fun c hc => absurd hc List.not_mem_nil
  | cons c cs ih =>
    rw [List.foldl_cons] at h
    cases hnext : addDigit base (some a) c with
    | none =>
      rw [hnext, foldl_addDigit_none] at h
      exact nomatch h
    | some a' =>
      rw [hnext] at h
      rw [addDigit, Option.bind_some] at hnext
      obtain ⟨d, hd, -⟩ := Option.bind_eq_some_iff.mp hnext
      exact isScalarChar_cons (.inl (isAlphanum_of_digit? hd)) (ih h)

theorem isScalarChar_of_natural? {n : Nat} (h : natural? base cs = some n) :
    ∀ c ∈ cs, IsScalarChar c := by
  rw [natural?_eq] at h
  split_ifs at h
  exact isScalarChar_of_foldl h

theorem isScalarChar_of_magnitude? {whole : List Char} {n : Nat} (h : magnitude? whole cs = some n) :
    ∀ c ∈ cs, IsScalarChar c := by
  have hletter {c : Char} (hc : c.isAlphanum = true) : IsScalarChar c := .inl hc
  unfold magnitude? at h
  split at h
  · exact isScalarChar_cons (hletter (by decide))
      (isScalarChar_cons (hletter (by decide)) (isScalarChar_of_natural? h))
  · exact isScalarChar_cons (hletter (by decide))
      (isScalarChar_cons (hletter (by decide)) (isScalarChar_of_natural? h))
  · exact isScalarChar_cons (hletter (by decide))
      (isScalarChar_cons (hletter (by decide)) (isScalarChar_of_natural? h))
  · split_ifs at h
    exact isScalarChar_of_natural? h

theorem isScalarChar_of_positive? {n : Nat} (h : positive? bound cs = some n) :
    ∀ c ∈ cs, IsScalarChar c := by
  simp only [positive?] at h
  obtain ⟨hread, -⟩ := Option.filter_eq_some_iff.mp h
  split at hread
  · exact isScalarChar_cons (.inr (.inr (.inl rfl))) (isScalarChar_of_magnitude? hread)
  · exact isScalarChar_of_magnitude? hread

theorem isScalarChar_of_negative? {n : Int} (h : negative? bound cs = some n) :
    ∀ c ∈ cs, IsScalarChar c := by
  unfold negative? at h
  split at h
  · obtain ⟨k, hk, -⟩ := Option.map_eq_some_iff.mp h
    obtain ⟨a, ha, -⟩ := Option.bind_eq_some_iff.mp hk
    obtain ⟨hread, -⟩ := Option.filter_eq_some_iff.mp ha
    exact isScalarChar_cons (.inr (.inr (.inr rfl))) (isScalarChar_of_magnitude? hread)
  · exact nomatch h

theorem isScalarChar_of_int? {n : Int} (h : int? cs = some n) : ∀ c ∈ cs, IsScalarChar c := by
  unfold int? at h
  split at h
  · rename_i hpositive
    exact isScalarChar_of_positive? hpositive
  · exact isScalarChar_of_negative? h

theorem isScalarChar_of_mem {words : List String}
    (hwords : (words.all fun w => w.toList.all fun c => decide (IsScalarChar c)) = true)
    (h : words.contains (String.ofList cs) = true) : ∀ c ∈ cs, IsScalarChar c := by
  have hall := List.all_eq_true.mp hwords _ (List.contains_iff_mem.mp h)
  rw [String.toList_ofList] at hall
  exact fun c hc => of_decide_eq_true (List.all_eq_true.mp hall c hc)

theorem isScalarChar_of_bool? {b : Bool} (h : bool? cs = some b) : ∀ c ∈ cs, IsScalarChar c := by
  rw [bool?] at h
  split_ifs at h with htrue hfalse
  · exact isScalarChar_of_mem (by decide) htrue
  · exact isScalarChar_of_mem (by decide) hfalse

/-- A number is read from a word, and then it is not finite, or from a literal. -/
theorem float?_cases {d : Decimal.Double} (h : float? cs = some d) :
    (d.isFinite = false ∧ ∀ c ∈ cs, IsScalarChar c) ∨
      ∃ body, (cs = body ∨ cs = '+' :: body) ∧ Decimal.literal? body = some d := by
  have hplus {rest : List Char} (hrest : ∀ c ∈ rest, IsScalarChar c) :
      ∀ c ∈ '+' :: rest, IsScalarChar c :=
    isScalarChar_cons (.inr (.inr (.inl rfl))) hrest
  simp only [float?] at h
  split at h
  · rename_i rest
    split_ifs at h with hdouble hinf hinf' hnan
    · exact .inl ⟨Option.some.inj h ▸ rfl, hplus (isScalarChar_of_mem (by decide) hinf)⟩
    · exact .inl ⟨Option.some.inj h ▸ rfl, isScalarChar_of_mem (by decide) hinf'⟩
    · exact .inl ⟨Option.some.inj h ▸ rfl, isScalarChar_of_mem (by decide) hnan⟩
    · exact .inr ⟨rest, .inr rfl, (Option.filter_eq_some_iff.mp h).1⟩
  · split_ifs at h with hdouble hinf hinf' hnan
    · exact .inl ⟨Option.some.inj h ▸ rfl, isScalarChar_of_mem (by decide) hinf⟩
    · exact .inl ⟨Option.some.inj h ▸ rfl, isScalarChar_of_mem (by decide) hinf'⟩
    · exact .inl ⟨Option.some.inj h ▸ rfl, isScalarChar_of_mem (by decide) hnan⟩
    · exact .inr ⟨cs, .inl rfl, (Option.filter_eq_some_iff.mp h).1⟩

theorem isScalarChar_of_float? {d : Decimal.Double} (h : float? cs = some d) :
    ∀ c ∈ cs, IsScalarChar c := by
  rcases float?_cases h with ⟨-, hword⟩ | ⟨body, rfl | rfl, hread⟩
  · exact hword
  · exact isScalarChar_of_literal? hread
  · exact isScalarChar_cons (.inr (.inr (.inl rfl))) (isScalarChar_of_literal? hread)

end Resolve

theorem notMem_of_isScalarChar {c : Char} (others : List Char)
    (hothers : (others.all fun c => !decide (IsScalarChar c)) = true) (h : IsScalarChar c) :
    c ∉ others := by
  intro hmem
  have hother := List.all_eq_true.mp hothers c hmem
  rw [decide_eq_true h] at hother
  exact nomatch hother

theorem isAllowed_of_isAlphanum {c : Char} (h : c.isAlphanum = true) : isAllowed c = true := by
  have hrange : 0x30 ≤ c.toNat ∧ c.toNat ≤ 0x7a := by
    simp only [Char.isAlphanum, Char.isAlpha, Char.isUpper, Char.isLower, Char.isDigit,
      Bool.or_eq_true, Bool.and_eq_true, decide_eq_true_eq, UInt32.le_iff_toNat_le] at h
    have hcode : c.toNat = c.val.toNat := rfl
    simp at h
    omega
  have hlow : 0x20 ≤ c.toNat := by omega
  have hhigh : c.toNat ≤ 0x7e := by omega
  simp [isAllowed, hlow, hhigh]

theorem isInside_of_isScalarChar {c : Char} (h : IsScalarChar c) : IsInside c := by
  rcases h with halphanum | rfl | rfl | rfl
  · have hothers := notMem_of_isScalarChar [' ', '\t', '\n', '\u2028', '\u2029', endChar, '\r',
      '\u0085', ':', byteOrderMark] (by decide) (.inl halphanum)
    simp only [List.mem_cons, not_or] at hothers
    refine ⟨isAllowed_of_isAlphanum halphanum, ?_, ?_, ?_, ?_⟩
    · simp [isGap, isBlank, isLineEnd, isBreak, hothers]
    · simp [hothers]
    · simp [hothers]
    · simp [hothers]
  · decide
  · decide
  · decide

theorem notMem_indicators {c : Char} (h : IsScalarChar c) (hhyphen : c ≠ '-') : c ∉ indicators := by
  have hothers := notMem_of_isScalarChar (indicators.erase '-') (by decide) h
  exact fun hmem => hothers ((List.mem_erase_of_ne hhyphen).mpr hmem)

/-- The kinds of values that a plain scalar stands for, if it is neither a text nor null. -/
inductive Value.IsTruthOrNumber : Value → Prop
  | bool (b : Bool) : IsTruthOrNumber (.bool b)
  | int (n : Int) : IsTruthOrNumber (.int n)
  | float (d : Decimal.Double) : IsTruthOrNumber (.float d)

variable {cs : List Char} {v : Value}

theorem resolve_cases (h : Decode.plainValue cs = some v) (hv : v.IsTruthOrNumber) :
    cs ≠ [] ∧ ((∃ b, v = .bool b ∧ Resolve.bool? cs = some b) ∨
      (∃ n, v = .int n ∧ Resolve.int? cs = some n) ∨
      ∃ d, v = .float d ∧ Resolve.float? cs = some d) := by
  have hother (hvalue : v = .null ∨ v = .text (String.ofList cs)) : False := by
    rcases hvalue with rfl | rfl
    · exact nomatch hv
    · exact nomatch hv
  by_cases hnull : (cs.isEmpty || Resolve.isNull cs) = true
  · rw [Decode.plainValue, resolve, if_pos hnull] at h
    exact (hother (.inl (Option.some.inj h).symm)).elim
  · have hne : cs ≠ [] := by
      intro hnil
      exact hnull (by rw [hnil]; rfl)
    refine ⟨hne, ?_⟩
    rw [Decode.plainValue, resolve, if_neg hnull] at h
    cases hbool : Resolve.bool? cs with
    | some b =>
      rw [hbool] at h
      exact .inl ⟨b, (Option.some.inj h).symm, rfl⟩
    | none =>
      cases hint : Resolve.int? cs with
      | some n =>
        simp only [hbool, hint] at h
        exact .inr (.inl ⟨n, (Option.some.inj h).symm, rfl⟩)
      | none =>
        cases hfloat : Resolve.float? cs with
        | some d =>
          simp only [hbool, hint, hfloat] at h
          split_ifs at h
          · exact (hother (.inr (Option.some.inj h).symm)).elim
          · exact .inr (.inr ⟨d, (Option.some.inj h).symm, rfl⟩)
        | none =>
          simp only [hbool, hint, hfloat, ite_self] at h
          split_ifs at h
          exact (hother (.inr (Option.some.inj h).symm)).elim

theorem isScalarChar_of_plainValue (h : Decode.plainValue cs = some v) (hv : v.IsTruthOrNumber) :
    ∀ c ∈ cs, IsScalarChar c := by
  obtain ⟨-, ⟨b, -, hb⟩ | ⟨n, -, hn⟩ | ⟨d, -, hd⟩⟩ := resolve_cases h hv
  · exact Resolve.isScalarChar_of_bool? hb
  · exact Resolve.isScalarChar_of_int? hn
  · exact Resolve.isScalarChar_of_float? hd

theorem isWord_of_plainValue (h : Decode.plainValue cs = some v) (hv : v.IsTruthOrNumber) :
    IsWord cs := by
  have hchars := isScalarChar_of_plainValue h hv
  obtain ⟨c, rest, rfl⟩ := List.exists_cons_of_ne_nil (resolve_cases h hv).1
  refine ⟨fun c hc => isInside_of_isScalarChar (hchars c hc), c, rest, rfl, ?_⟩
  by_cases hhyphen : c = '-'
  · refine .inr ⟨hhyphen, ?_⟩
    intro hrest
    rw [hhyphen, hrest] at h
    have hvalue : v = .text "-" := (Option.some.inj h).symm
    rw [hvalue] at hv
    exact nomatch hv
  · exact .inl (notMem_indicators (hchars c List.mem_cons_self) hhyphen)

end Yaml

end PromptRunner
