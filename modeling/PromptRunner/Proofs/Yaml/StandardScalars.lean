import PromptRunner.Proofs.Decimal.ReadingLayout
import PromptRunner.Proofs.Yaml.PlainText
import PromptRunner.Proofs.Yaml.Resolving

/-!
# Scalars in their standard spelling

The text of a truth value, of an integer of 64 bits and of a double stands for the value that it is
the text of. So a scalar is the text of its value just if it is in one of these spellings.
-/

namespace PromptRunner.Yaml

open Decimal (AllDigits)
open Decimal.Layout (digitText)

namespace Resolve

variable {cs : List Char} {base bound : Nat}

/-! ## Integers -/

theorem digit?_of_isDigit {c : Char} (h : c.isDigit = true) :
    digit? c = some (c.toNat - '0'.toNat) ∧ c.toNat - '0'.toNat < 10 := by
  refine ⟨by rw [digit?, if_pos h], ?_⟩
  simp only [Char.isDigit, Bool.and_eq_true, decide_eq_true_eq, UInt32.le_iff_toNat_le] at h
  have hcode : c.toNat = c.val.toNat := rfl
  simp at h ⊢
  omega

theorem foldl_addDigit_digits (h : AllDigits cs) (n : Nat) :
    cs.foldl (addDigit 10) (some n) = some (Nat.ofDigitChars 10 cs n) := by
  induction cs generalizing n with
  | nil => rfl
  | cons c cs ih =>
    obtain ⟨hdigit, hless⟩ := digit?_of_isDigit (h c List.mem_cons_self)
    have hnext : addDigit 10 (some n) c = some (10 * n + (c.toNat - '0'.toNat)) := by
      rw [addDigit, Option.bind_some, hdigit, Option.bind_some, if_pos hless]
    rw [List.foldl_cons, hnext, Nat.ofDigitChars_cons]
    exact ih (fun c hc => h c (List.mem_cons_of_mem _ hc)) _

theorem natural?_digits (h : AllDigits cs) (hne : cs ≠ []) :
    natural? 10 cs = some (Text.natOfDigits cs) := by
  rw [natural?_eq, if_neg (by simpa using hne), foldl_addDigit_digits h, Decimal.natOfDigits_eq]

/-- No number but zero is written with a zero at its front. -/
theorem head_digitText {n : Nat} (hn : 1 ≤ n) : (digitText n).head? ≠ some '0' := by
  have hdigit : ∀ n < 10, 1 ≤ n → n.digitChar ≠ '0' := by decide
  induction n using Nat.strongRecOn with
  | ind n ih =>
    rw [digitText, Nat.toDigits_eq_if (by decide)]
    split_ifs with hless
    · simpa using hdigit n hless hn
    · rw [List.head?_append_of_ne_nil _ Nat.toDigits_ne_nil]
      exact ih (n / 10) (Nat.div_lt_self hn (by decide)) (by omega)

theorem isPaddedNumber_digitText {n : Nat} {whole : List Char} (h : unsigned whole = digitText n) :
    isPaddedNumber whole = false := by
  rw [isPaddedNumber, h]
  split
  · rename_i c cs hdigits
    rcases Nat.eq_zero_or_pos n with rfl | hpos
    · rw [digitText, Nat.toDigits_zero] at hdigits
      simp at hdigits
    · have hhead := head_digitText hpos
      rw [hdigits] at hhead
      exact absurd rfl hhead
  · rfl

theorem magnitude?_digits {whole : List Char} (h : AllDigits cs) (hne : cs ≠ [])
    (hpadded : isPaddedNumber whole = false) :
    magnitude? whole cs = some (Text.natOfDigits cs) := by
  have hletter {c : Char} {rest : List Char} (hc : c.isDigit = false) : cs ≠ '0' :: c :: rest := by
    rintro rfl
    have hdigit := h c (by simp)
    rw [hc] at hdigit
    exact nomatch hdigit
  unfold magnitude?
  split
  · exact absurd rfl (hletter (by decide))
  · exact absurd rfl (hletter (by decide))
  · exact absurd rfl (hletter (by decide))
  · rw [hpadded]
    exact natural?_digits h hne

theorem magnitude?_digitText {n : Nat} {whole : List Char} (h : unsigned whole = digitText n) :
    magnitude? whole (digitText n) = some n := by
  rw [magnitude?_digits (Decimal.allDigits_digitText n) Nat.toDigits_ne_nil
    (isPaddedNumber_digitText h), Decimal.natOfDigits_digitText]

theorem ne_cons_of_allDigits {c : Char} (h : AllDigits cs) (hc : c.isDigit = false)
    (rest : List Char) : cs ≠ c :: rest := by
  rintro rfl
  have hdigit := h c List.mem_cons_self
  rw [hc] at hdigit
  exact nomatch hdigit

theorem unsigned_digitText (n : Nat) : unsigned (digitText n) = digitText n := by
  have hdigits := Decimal.allDigits_digitText n
  unfold unsigned
  split
  · rename_i rest heq
    exact absurd heq (ne_cons_of_allDigits hdigits (by decide) rest)
  · rename_i rest heq
    exact absurd heq (ne_cons_of_allDigits hdigits (by decide) rest)
  · rfl

theorem positive?_digitText {n : Nat} (hn : n < bound) : positive? bound (digitText n) = some n := by
  have hdigits := Decimal.allDigits_digitText n
  simp only [positive?]
  split
  · rename_i rest heq
    exact absurd heq (ne_cons_of_allDigits hdigits (by decide) rest)
  · rw [magnitude?_digitText (unsigned_digitText n)]
    simp [hn]

theorem positive?_hyphen (bound n : Nat) : positive? bound ('-' :: digitText n) = none := by
  have hunsigned : unsigned ('-' :: digitText n) = digitText n := rfl
  have hnone : magnitude? ('-' :: digitText n) ('-' :: digitText n) = none := by
    have hread : natural? 10 ('-' :: digitText n) = none := by
      rw [natural?_eq, if_neg (by simp), List.foldl_cons]
      exact foldl_addDigit_none 10 (digitText n)
    rw [magnitude?, isPaddedNumber_digitText hunsigned, hread]
    · rfl
    · simp
    · simp
    · simp
  simp [positive?, hnone]

theorem negative?_digitText {n : Nat} (hn : n ≤ bound) :
    negative? bound ('-' :: digitText n) = some (-(n : Int)) := by
  have hunsigned : unsigned ('-' :: digitText n) = digitText n := rfl
  have hfits : Option.filter (fun n => decide (n ≤ bound)) (some n) = some n := by simp [hn]
  rw [negative?, magnitude?_digitText hunsigned, hfits]
  rfl

/-- A digit or a hyphen stands at the front of no word. -/
theorem not_word {c : Char} (hc : c.isDigit = true ∨ c = '-') (rest : List Char) :
    isNull (c :: rest) = false ∧ bool? (c :: rest) = none := by
  have hnone (words : List String)
      (hwords : (words.all fun w => w.toList.head?.all fun c => !c.isDigit && c != '-') = true) :
      words.contains (String.ofList (c :: rest)) = false := by
    rw [Bool.eq_false_iff]
    intro hmem
    have hhead := List.all_eq_true.mp hwords _ (List.contains_iff_mem.mp hmem)
    rcases hc with hdigit | hhyphen
    · simp [hdigit] at hhead
    · simp [hhyphen] at hhead
  constructor
  · exact hnone _ (by decide)
  · rw [bool?, hnone _ (by decide), hnone _ (by decide)]
    rfl

end Resolve

/-- The integers of 64 bits, with or without a sign. -/
def IsShort (n : Int) : Prop :=
  -(Decimal.twoTo 63 : Int) ≤ n ∧ n < Decimal.twoTo 64

theorem toList_intText (n : Int) :
    (toString n).toList = if 0 ≤ n then digitText n.toNat else '-' :: digitText (-n).toNat := by
  rw [Int.toString_eq_repr, Int.repr_eq_if]
  split_ifs
  · rw [Nat.toList_repr]
    rfl
  · rw [String.toList_append, Nat.toList_repr]
    rfl

theorem resolve_of_int? {c : Char} {rest : List Char} {n : Int}
    (hc : c.isDigit = true ∨ c = '-') (h : Resolve.int? (c :: rest) = some n) :
    resolve (c :: rest) = .int n := by
  obtain ⟨hnull, hbool⟩ := Resolve.not_word hc rest
  rw [resolve, if_neg (by simp [hnull]), hbool]
  simp only [h]

theorem resolve_intText {n : Int} (hn : IsShort n) : resolve (toString n).toList = .int n := by
  obtain ⟨hleast, hgreatest⟩ := hn
  rw [toList_intText]
  split_ifs with hnonneg
  · obtain ⟨k, rfl⟩ := Int.eq_ofNat_of_zero_le hnonneg
    have hread : Resolve.int? (digitText k) = some (k : Int) := by
      rw [Resolve.int?, Resolve.positive?_digitText (by exact_mod_cast hgreatest)]
    obtain ⟨c, cs, hcs, hc⟩ := Decimal.digitText_eq_cons k
    rw [Int.toNat_natCast, hcs]
    rw [hcs] at hread
    exact resolve_of_int? (.inl hc) hread
  · obtain ⟨k, hk⟩ := Int.eq_ofNat_of_zero_le (by omega : 0 ≤ -n)
    have hnat : (-n).toNat = k := by omega
    have hfits : k ≤ Decimal.twoTo 63 := by omega
    have hread : Resolve.int? ('-' :: digitText k) = some n := by
      have hvalue : n = -(k : Int) := by omega
      rw [Resolve.int?, Resolve.positive?_hyphen, Resolve.negative?_digitText hfits, hvalue]
    rw [hnat]
    exact resolve_of_int? (.inr rfl) hread

/-! ## Numbers with a point or an exponent -/

/-- A list of characters of numbers with a point or an exponent among them. -/
structure IsDecimal (cs : List Char) : Prop where
  chars : ∀ c ∈ cs, Decimal.IsNumberChar c
  mark : ∃ c ∈ cs, c = '.' ∨ c = 'e'

namespace IsDecimal

variable {cs : List Char}

theorem natural?_eq_none (h : IsDecimal cs) : Resolve.natural? 10 cs = none := by
  obtain ⟨mark, hmem, hmark⟩ := h.mark
  have hskip (n : Nat) : Resolve.addDigit 10 (some n) mark = none := by
    rcases hmark with rfl | rfl <;> rfl
  have hfold (n : Option Nat) : cs.foldl (Resolve.addDigit 10) n = none := by
    clear h
    induction cs generalizing n with
    | nil => exact absurd hmem List.not_mem_nil
    | cons c cs ih =>
      rw [List.foldl_cons]
      rcases List.mem_cons.mp hmem with rfl | hmem
      · cases n with
        | none => exact Resolve.foldl_addDigit_none 10 cs
        | some n =>
          rw [hskip n]
          exact Resolve.foldl_addDigit_none 10 cs
      · exact ih hmem _
  rw [Resolve.natural?_eq, hfold, ite_self]

theorem magnitude?_eq_none (h : IsDecimal cs) (whole : List Char) :
    Resolve.magnitude? whole cs = none := by
  have hletter {c : Char} (hc : ¬ Decimal.IsNumberChar c) (rest : List Char) :
      cs ≠ '0' :: c :: rest := by
    rintro rfl
    exact hc (h.chars c (by simp))
  unfold Resolve.magnitude?
  split
  · exact absurd rfl (hletter (by unfold Decimal.IsNumberChar; decide) _)
  · exact absurd rfl (hletter (by unfold Decimal.IsNumberChar; decide) _)
  · exact absurd rfl (hletter (by unfold Decimal.IsNumberChar; decide) _)
  · rw [h.natural?_eq_none, ite_self]

theorem cons (h : IsDecimal cs) {c : Char} (hc : Decimal.IsNumberChar c) : IsDecimal (c :: cs) := by
  obtain ⟨mark, hmem, hmark⟩ := h.mark
  refine ⟨?_, mark, List.mem_cons_of_mem c hmem, hmark⟩
  intro c' hc'
  rcases List.mem_cons.mp hc' with rfl | hc'
  · exact hc
  · exact h.chars c' hc'

theorem isPaddedNumber_eq_false (h : IsDecimal cs) {whole : List Char}
    (hwhole : Resolve.unsigned whole = cs) : Resolve.isPaddedNumber whole = false := by
  obtain ⟨mark, hmem, hmark⟩ := h.mark
  have hdigit : mark.isDigit = false := by
    rcases hmark with rfl | rfl <;> decide
  rw [Resolve.isPaddedNumber, hwhole]
  split
  · rename_i c rest
    rw [List.all_eq_false]
    rcases List.mem_cons.mp hmem with rfl | hmem
    · exact absurd hmark (by decide)
    · exact ⟨mark, hmem, by simp [hdigit]⟩
  · rfl

end IsDecimal

/-- A written number starts with a digit, and has a point or an exponent behind it. -/
theorem positive_eq_cons (l : Decimal.Layout) (d : Decimal.Digits) :
    ∃ c cs, l.positive d = c :: cs ∧ c.isDigit = true ∧ ('.' ∈ cs ∨ 'e' ∈ cs) := by
  obtain ⟨c, cs, hcs, hc⟩ := Decimal.digitText_eq_cons d.digits
  rw [Decimal.Layout.positive, hcs]
  split_ifs with hwhole hpoint hzeros
  · exact ⟨c, _, rfl, hc, .inl (by simp)⟩
  · obtain ⟨p, hp⟩ := Int.eq_ofNat_of_zero_le (by omega : 0 ≤ ((c :: cs).length : Int) + d.exponent - 1)
    have hnat : (((c :: cs).length : Int) + d.exponent).toNat = p + 1 := by omega
    rw [hnat]
    exact ⟨c, _, rfl, hc, .inl (by simp)⟩
  · exact ⟨'0', _, rfl, rfl, .inl (by simp)⟩
  · cases cs with
    | nil => exact ⟨c, _, rfl, hc, .inr (by simp)⟩
    | cons c' cs => exact ⟨c, _, rfl, hc, .inl (by simp)⟩

theorem isDecimal_positive (d : Decimal.Digits) : IsDecimal (numberLayout.positive d) := by
  obtain ⟨c, cs, hcs, -, hmark⟩ := positive_eq_cons numberLayout d
  refine ⟨?_, ?_⟩
  · intro c hc
    exact Decimal.Layout.isNumberChar_positive (by simp [numberLayout]) hc
  · rw [hcs]
    rcases hmark with hmark | hmark
    · exact ⟨'.', List.mem_cons_of_mem c hmark, .inl rfl⟩
    · exact ⟨'e', List.mem_cons_of_mem c hmark, .inr rfl⟩

def signed (negative : Bool) (cs : List Char) : List Char :=
  if negative then '-' :: cs else cs

section Signed

variable {negative : Bool} {c : Char} {cs : List Char} (hc : c.isDigit = true)
include hc

theorem signed_ne_plus (rest : List Char) : signed negative (c :: cs) ≠ '+' :: rest := by
  cases negative with
  | true => simp [signed]
  | false =>
    intro heq
    exact absurd hc (by rw [(List.cons.inj heq).1]; decide)

theorem signed_eq_hyphen {rest : List Char} (h : signed negative (c :: cs) = '-' :: rest) :
    rest = c :: cs := by
  cases negative with
  | true => exact (List.cons.inj h).2.symm
  | false => exact absurd hc (by rw [(List.cons.inj h).1]; decide)

theorem unsigned_signed : Resolve.unsigned (signed negative (c :: cs)) = c :: cs := by
  unfold Resolve.unsigned
  split
  · rename_i rest heq
    exact absurd heq (signed_ne_plus hc rest)
  · rename_i rest heq
    exact signed_eq_hyphen hc heq
  · rename_i hhyphen
    cases negative with
    | true => exact absurd rfl (hhyphen (c :: cs))
    | false => rfl

theorem literal?_signed :
    Decimal.literal? (signed negative (c :: cs)) = Decimal.unsignedLiteral negative (c :: cs) := by
  cases negative with
  | true => rfl
  | false =>
    unfold Decimal.literal?
    split
    · rename_i rest heq
      exact absurd hc (by rw [(List.cons.inj heq).1]; decide)
    · rename_i rest heq
      exact absurd heq (signed_ne_plus hc rest)
    · rfl

/-- One of the first two characters of a number is a digit. -/
theorem any_isDigit_signed : ((signed negative (c :: cs)).take 2).any Char.isDigit = true := by
  cases negative <;> simp [signed, hc]

/-- A number with a minus sign or without a sign is read as a literal. -/
theorem float?_signed {x : Decimal.Double}
    (hread : Decimal.unsignedLiteral negative (c :: cs) = some x) (hfinite : x.isFinite = true) :
    Resolve.float? (signed negative (c :: cs)) = some x := by
  have hword (words : List String)
      (hwords : ∀ w ∈ words, (w.toList.take 2).any Char.isDigit = false) :
      words.contains (String.ofList (signed negative (c :: cs))) = false := by
    rw [Bool.eq_false_iff]
    intro hmem
    have hdigit := hwords _ (List.contains_iff_mem.mp hmem)
    rw [String.toList_ofList, any_isDigit_signed hc] at hdigit
    exact nomatch hdigit
  have hliteral : (Decimal.literal? (signed negative (c :: cs))).filter (fun d => d.isFinite) =
      some x := by
    rw [literal?_signed hc, hread, Option.filter_some, if_pos hfinite]
  unfold Resolve.float?
  split
  rename_i body plus hbody
  split at hbody
  · rename_i rest heq
    exact absurd heq (signed_ne_plus hc rest)
  · obtain ⟨rfl, rfl⟩ := Prod.mk.inj hbody
    rw [hword _ (by decide), hword _ (by decide), hword _ (by decide)]
    exact hliteral

/-- A number with a point or an exponent is no integer, whatever its length. -/
theorem not_integer (h : IsDecimal (c :: cs)) (bound : Nat) :
    Resolve.positive? bound (signed negative (c :: cs)) = none ∧
      Resolve.negative? bound (signed negative (c :: cs)) = none := by
  have hsigned : IsDecimal (signed negative (c :: cs)) := by
    cases negative with
    | true => exact h.cons (.inr (by decide))
    | false => exact h
  constructor
  · simp only [Resolve.positive?]
    split
    · rename_i rest heq
      exact absurd heq (signed_ne_plus hc rest)
    · rw [hsigned.magnitude?_eq_none]
      rfl
  · unfold Resolve.negative?
    split
    · rename_i rest heq
      rw [signed_eq_hyphen hc heq, h.magnitude?_eq_none]
      rfl
    · rfl

theorem resolve_signed (h : IsDecimal (c :: cs)) {x : Decimal.Double}
    (hread : Decimal.unsignedLiteral negative (c :: cs) = some x) (hfinite : x.isFinite = true) :
    resolve (signed negative (c :: cs)) = .float x := by
  have hpadded : Resolve.isPaddedNumber (signed negative (c :: cs)) = false :=
    h.isPaddedNumber_eq_false (unsigned_signed hc)
  have hfloat := float?_signed hc hread hfinite
  have hint (bound : Nat) : Resolve.positive? bound (signed negative (c :: cs)) = none ∧
      Resolve.negative? bound (signed negative (c :: cs)) = none := not_integer hc h bound
  obtain ⟨first, rest, hfirst, hhead⟩ : ∃ first rest, signed negative (c :: cs) = first :: rest ∧
      (first.isDigit = true ∨ first = '-') := by
    cases negative with
    | true => exact ⟨'-', c :: cs, rfl, .inr rfl⟩
    | false => exact ⟨c, cs, rfl, .inl hc⟩
  obtain ⟨hnull, hbool⟩ := Resolve.not_word hhead rest
  rw [hfirst] at hpadded hfloat hint ⊢
  have hnone : Resolve.int? (first :: rest) = none := by
    rw [Resolve.int?, (hint _).1, (hint _).2]
  have hwide : Resolve.isWide (first :: rest) = false := by
    rw [Resolve.isWide, (hint _).1, (hint _).2]
    rfl
  rw [resolve, if_neg (by simp [hnull]), hbool]
  simp only [hnone, hwide, hpadded, hfloat, Bool.false_eq_true, if_false]

end Signed

/-- The text of a positive double with a sign stands for it. -/
theorem resolve_shortestDigits {m : Nat} {e : Int} (h : Decimal.Double.IsPositive m e)
    (negative : Bool) :
    resolve (signed negative (numberLayout.positive (Decimal.shortestDigits m e))) =
      .float (.finite negative m e) := by
  have hread := Decimal.Layout.unsignedLiteral_shortestDigits (l := numberLayout) (.inl rfl) h negative
  obtain ⟨c, cs, hcs, hc, -⟩ := positive_eq_cons numberLayout (Decimal.shortestDigits m e)
  have hdecimal := isDecimal_positive (Decimal.shortestDigits m e)
  rw [hcs] at hread hdecimal ⊢
  exact resolve_signed hc hdecimal hread rfl

theorem Resolve.isPositive_of_float? {cs : List Char} {negative : Bool} {m : Nat} {e : Int}
    (h : Resolve.float? cs = some (.finite negative m e)) (hm : m ≠ 0) :
    Decimal.Double.IsPositive m e := by
  rcases Resolve.float?_cases h with ⟨hinfinite, -⟩ | ⟨body, -, hread⟩
  · cases hinfinite
  · exact Decimal.isPositive_of_literal? hread hm

/-! ## Standard spellings -/

/-- The spellings that values are written in: truth values, integers of 64 bits, what is no finite
number, zero, and other numbers with their shortest digits. -/
inductive IsStandard : List Char → Prop
  | truth (b : Bool) : IsStandard (Text.boolText b).toList
  | integer {n : Int} (hn : IsShort n) : IsStandard (toString n).toList
  | infinite (negative : Bool) : IsStandard (numberLayout.text (.infinite negative)).toList
  | notANumber : IsStandard (numberLayout.text .notANumber).toList
  | zero (negative : Bool) : IsStandard (signed negative ['0', '.', '0'])
  | decimal (negative : Bool) {m : Nat} {e : Int} (h : Decimal.Double.IsPositive m e) :
    IsStandard (signed negative (numberLayout.positive (Decimal.shortestDigits m e)))

/-- A number with few digits that is laid out in the standard way is in its standard spelling. -/
theorem isStandard_of_isFew {d : Decimal.Digits} (h : d.IsFew) (negative : Bool) :
    IsStandard (signed negative (numberLayout.positive d)) := by
  obtain ⟨m, e, hpositive, hdigits⟩ := h.exists_double
  rw [← hdigits]
  exact .decimal negative hpositive

variable {cs : List Char} {v : Value}

theorem toList_finiteText (negative : Bool) (m : Nat) (e : Int) :
    (numberLayout.text (.finite negative m e)).toList = signed negative
      (if m = 0 then ['0', '.', '0'] else numberLayout.positive (Decimal.shortestDigits m e)) := by
  rw [Decimal.Layout.text, String.toList_ofList]
  rfl

/-- A scalar in its standard spelling is the text of its value. -/
theorem IsStandard.toList_plainText (h : IsStandard cs) (hv : Decode.plainValue cs = some v) :
    v.plainText.toList = cs := by
  have hvalue {v' : Value} (hv' : Decode.plainValue cs = some v') : v' = v :=
    Option.some.inj (hv'.symm.trans hv)
  cases h with
  | truth b => cases b <;> obtain rfl := hvalue rfl <;> rfl
  | integer hn =>
    rename_i n
    have hn' : Decode.plainValue (toString n).toList = some (.int n) := by
      rw [Decode.plainValue, resolve_intText hn]
    obtain rfl := hvalue hn'
    rfl
  | infinite negative => cases negative <;> obtain rfl := hvalue rfl <;> rfl
  | notANumber =>
    obtain rfl := hvalue rfl
    rfl
  | zero negative =>
    cases negative <;> obtain rfl := hvalue rfl <;> rfl
  | decimal negative h =>
    rename_i m e
    have hfloat : Decode.plainValue
        (signed negative (numberLayout.positive (Decimal.shortestDigits m e))) =
          some (.float (.finite negative m e)) := by
      rw [Decode.plainValue, resolve_shortestDigits h]
    obtain rfl := hvalue hfloat
    rw [Value.plainText, toList_finiteText, if_neg (Nat.ne_of_gt h.pos)]

theorem isShort_of_int? {n : Int} (h : Resolve.int? cs = some n) : IsShort n := by
  have hpos : 0 < Decimal.twoTo 64 := Nat.two_pow_pos 64
  unfold Resolve.int? at h
  split at h
  · rename_i k hk
    have hless : k < Decimal.twoTo 64 := by
      simpa using (Option.filter_eq_some_iff.mp hk).2
    obtain rfl := Option.some.inj h
    exact ⟨by omega, by exact_mod_cast hless⟩
  · unfold Resolve.negative? at h
    split at h
    · obtain ⟨k, hk, rfl⟩ := Option.map_eq_some_iff.mp h
      obtain ⟨a, ha, hvalue⟩ := Option.bind_eq_some_iff.mp hk
      have hless : a ≤ Decimal.twoTo 63 := by
        simpa using (Option.filter_eq_some_iff.mp ha).2
      obtain rfl : (a : Int) = k := Option.some.inj hvalue
      exact ⟨by omega, by omega⟩
    · exact nomatch h

theorem isStandard_of_toList_plainText (h : Decode.plainValue cs = some v)
    (hv : v.IsTruthOrNumber) (htext : v.plainText.toList = cs) : IsStandard cs := by
  obtain ⟨-, ⟨b, rfl, -⟩ | ⟨n, rfl, hn⟩ | ⟨d, rfl, hd⟩⟩ := resolve_cases h hv
  · exact htext ▸ .truth b
  · exact htext ▸ .integer (isShort_of_int? hn)
  · rcases d with ⟨negative, m, e⟩ | negative | _
    · rw [Value.plainText, toList_finiteText] at htext
      by_cases hm : m = 0
      · rw [if_pos hm] at htext
        exact htext ▸ .zero negative
      · rw [if_neg hm] at htext
        exact htext ▸ .decimal negative (Resolve.isPositive_of_float? hd hm)
    · exact htext ▸ .infinite negative
    · exact htext ▸ .notANumber

end PromptRunner.Yaml
