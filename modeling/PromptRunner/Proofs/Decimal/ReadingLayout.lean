import PromptRunner.Decimal.Layout
import PromptRunner.Decimal.Literal
import PromptRunner.Proofs.Decimal.RoundTrip

/-!
# Written numbers read as literals

A decimal number is written positionally or with an exponent. In every layout the literal that is
written has the value of the number; its digits may have zeros before or behind them.
-/

namespace PromptRunner.Decimal

open Text (natOfDigits)

theorem natOfDigits_eq (cs : List Char) : natOfDigits cs = Nat.ofDigitChars 10 cs 0 := by
  rw [natOfDigits, Nat.ofDigitChars_eq_foldl]

theorem natOfDigits_digitText (n : Nat) : natOfDigits (Layout.digitText n) = n := by
  rw [natOfDigits_eq, Layout.digitText, Nat.ofDigitChars_ten_toDigits]

theorem natOfDigits_append_zeros (cs : List Char) (n : Nat) :
    natOfDigits (cs ++ Layout.zeros n) = 10 ^ n * natOfDigits cs := by
  rw [natOfDigits_eq, natOfDigits_eq, Nat.ofDigitChars_append, Layout.zeros,
    Nat.ofDigitChars_replicate_zero]

theorem natOfDigits_zeros_append (n : Nat) (cs : List Char) :
    natOfDigits (Layout.zeros n ++ cs) = natOfDigits cs := by
  rw [natOfDigits_eq, natOfDigits_eq, Nat.ofDigitChars_append, Layout.zeros,
    Nat.ofDigitChars_replicate_zero, Nat.mul_zero]

def AllDigits (cs : List Char) : Prop :=
  ∀ c ∈ cs, c.isDigit = true

theorem allDigits_digitText (n : Nat) : AllDigits (Layout.digitText n) :=
  fun _ hc => Nat.isDigit_of_mem_toDigits (by decide) (by decide) hc

theorem digitText_eq_cons (n : Nat) : ∃ c cs, Layout.digitText n = c :: cs ∧ c.isDigit = true := by
  obtain ⟨c, cs, hcs⟩ : ∃ c cs, Layout.digitText n = c :: cs :=
    List.exists_cons_of_ne_nil Nat.toDigits_ne_nil
  exact ⟨c, cs, hcs, allDigits_digitText n c (by rw [hcs]; exact List.mem_cons_self)⟩

theorem allDigits_zeros (n : Nat) : AllDigits (Layout.zeros n) := by
  intro c hc
  rw [List.eq_of_mem_replicate hc]
  rfl

variable {whole fraction rest : List Char} {c : Char} {e : Int}

theorem AllDigits.takeWhile_append (h : AllDigits whole) (rest : List Char)
    (hrest : ∀ c ∈ rest.head?, c.isDigit = false) :
    (whole ++ rest).takeWhile Char.isDigit = whole ∧
      (whole ++ rest).dropWhile Char.isDigit = rest := by
  rw [List.takeWhile_append_of_pos h, List.dropWhile_append_of_pos h]
  cases rest with
  | nil => simp
  | cons c cs =>
    have hc := hrest c rfl
    simp [hc]

theorem unsignedLiteral_point (hwhole : AllDigits whole) (hne : whole ≠ [])
    (hfraction : AllDigits fraction) (rest : List Char)
    (hrest : ∀ c ∈ rest.head?, c.isDigit = false) (he : exponentPart rest = some e) (negative : Bool) :
    unsignedLiteral negative (whole ++ '.' :: (fraction ++ rest)) =
      some (.ofDecimal negative (natOfDigits (whole ++ fraction)) (e - fraction.length)) := by
  obtain ⟨htake, hdrop⟩ := hwhole.takeWhile_append ('.' :: (fraction ++ rest)) (by simp)
  obtain ⟨htake', hdrop'⟩ := hfraction.takeWhile_append rest hrest
  rw [unsignedLiteral, htake, hdrop]
  simp only [htake', hdrop', he, Option.map_some]
  have hsome : (whole.isEmpty && fraction.isEmpty) = false := by simp [hne]
  rw [hsome]
  rfl

theorem unsignedLiteral_exponent (hwhole : AllDigits whole) (hne : whole ≠ [])
    (he : exponentPart ('e' :: rest) = some e) (negative : Bool) :
    unsignedLiteral negative (whole ++ 'e' :: rest) =
      some (.ofDecimal negative (natOfDigits whole) e) := by
  obtain ⟨htake, hdrop⟩ := hwhole.takeWhile_append ('e' :: rest) (by simp)
  rw [unsignedLiteral, htake, hdrop]
  have hsome : (whole.isEmpty && ([] : List Char).isEmpty) = false := by simp [hne]
  simp [he, hne]

/-- An exponent is read with a minus sign, with a plus sign and without a sign. -/
theorem exponentPart_digits (hdigits : AllDigits (c :: rest)) :
    exponentPart ('e' :: '-' :: c :: rest) = some (-(natOfDigits (c :: rest) : Int)) ∧
      exponentPart ('e' :: '+' :: c :: rest) = some (natOfDigits (c :: rest) : Int) ∧
      exponentPart ('e' :: c :: rest) = some (natOfDigits (c :: rest) : Int) := by
  have hall : (c :: rest).all Char.isDigit = true := List.all_eq_true.mpr hdigits
  have hc := hdigits c List.mem_cons_self
  have hplus : c ≠ '+' := by
    rintro rfl
    exact absurd hc (by decide)
  have hminus : c ≠ '-' := by
    rintro rfl
    exact absurd hc (by decide)
  refine ⟨?_, ?_, ?_⟩
  · simp [exponentPart, -List.all_cons, hall]
  · simp [exponentPart, -List.all_cons, hall]
  · simp [exponentPart, -List.all_cons, hall, hplus, hminus]

/-! ## The forms of a number -/

/-- A text without a sign is read as a literal with the value of a number. -/
def IsLiteralOf (negative : Bool) (cs : List Char) (d : Digits) : Prop :=
  ∃ digits exponent, unsignedLiteral negative cs = some (.ofDecimal negative digits exponent) ∧
    (digits : ℚ) * 10 ^ exponent = d.value

/-- Digits, at least one, that are read as a number. -/
structure IsDigitText (text : List Char) (n : Nat) : Prop where
  digits : AllDigits text
  nonempty : text ≠ []
  value : natOfDigits text = n

theorem isDigitText_digitText (n : Nat) : IsDigitText (Layout.digitText n) n :=
  ⟨allDigits_digitText n, Nat.toDigits_ne_nil, natOfDigits_digitText n⟩

namespace IsDigitText

open Layout (zeros)

variable {text cs : List Char} {d : Digits} {c' : Char}

theorem isLiteralOf_whole (h : IsDigitText text d.digits) (hexponent : 0 ≤ d.exponent)
    (negative : Bool) :
    IsLiteralOf negative (text ++ zeros d.exponent.toNat ++ ['.', '0']) d := by
  obtain ⟨n, hn⟩ := Int.eq_ofNat_of_zero_le hexponent
  have hnat : d.exponent.toNat = n := by omega
  have hdigits : AllDigits (text ++ zeros n) := by
    intro c hc
    rcases List.mem_append.mp hc with hc | hc
    · exact h.digits c hc
    · exact allDigits_zeros n c hc
  have hread := unsignedLiteral_point hdigits (by simp [h.nonempty]) (allDigits_zeros 1) [] (by simp)
    rfl negative
  refine ⟨_, _, by rw [hnat]; exact hread, ?_⟩
  rw [natOfDigits_append_zeros, natOfDigits_append_zeros, h.value, Digits.value, hn]
  push_cast
  rw [zpow_natCast]
  norm_num [zeros]
  ring

theorem isLiteralOf_point (h : IsDigitText text d.digits) (hpoint : 0 < (text.length : Int) + d.exponent)
    (hexponent : d.exponent < 0) (negative : Bool) :
    IsLiteralOf negative (text.take ((text.length : Int) + d.exponent).toNat ++
      '.' :: text.drop ((text.length : Int) + d.exponent).toNat) d := by
  obtain ⟨p, hp⟩ := Int.eq_ofNat_of_zero_le hpoint.le
  have hnat : ((text.length : Int) + d.exponent).toNat = p := by omega
  have htake : AllDigits (text.take p) := fun c hc => h.digits c (List.mem_of_mem_take hc)
  have hdrop : AllDigits (text.drop p) := fun c hc => h.digits c (List.mem_of_mem_drop hc)
  have hfront : text.take p ≠ [] := by
    intro hnil
    have hlength : (text.take p).length = 0 := by rw [hnil, List.length_nil]
    rw [List.length_take] at hlength
    have hpos := List.length_pos_of_ne_nil h.nonempty
    omega
  have hread := unsignedLiteral_point htake hfront hdrop [] (by simp) rfl negative
  rw [List.append_nil, List.take_append_drop, h.value] at hread
  refine ⟨_, _, by rw [hnat]; exact hread, ?_⟩
  have hcount : (0 : Int) - (text.drop p).length = d.exponent := by
    rw [List.length_drop]
    omega
  rw [hcount, Digits.value]

theorem isLiteralOf_fraction (h : IsDigitText text d.digits) (hpoint : (text.length : Int) + d.exponent ≤ 0)
    (negative : Bool) :
    IsLiteralOf negative
      ('0' :: '.' :: (zeros (-((text.length : Int) + d.exponent)).toNat ++ text)) d := by
  obtain ⟨n, hn⟩ := Int.eq_ofNat_of_zero_le (by omega : 0 ≤ -((text.length : Int) + d.exponent))
  have hnat : (-((text.length : Int) + d.exponent)).toNat = n := by omega
  have hdigits : AllDigits (zeros n ++ text) := by
    intro c hc
    rcases List.mem_append.mp hc with hc | hc
    · exact allDigits_zeros n c hc
    · exact h.digits c hc
  have hread := unsignedLiteral_point (allDigits_zeros 1) (by simp [zeros]) hdigits [] (by simp) rfl
    negative
  rw [List.append_nil, natOfDigits_zeros_append, natOfDigits_zeros_append, h.value] at hread
  refine ⟨_, _, by rw [hnat]; exact hread, ?_⟩
  have hcount : (0 : Int) - (zeros n ++ text).length = d.exponent := by
    rw [List.length_append, zeros, List.length_replicate]
    omega
  rw [hcount, Digits.value]

theorem isLiteralOf_digit (h : IsDigitText [c] d.digits)
    (he : exponentPart ('e' :: rest) = some ((([c] : List Char).length : Int) + d.exponent - 1))
    (negative : Bool) : IsLiteralOf negative (c :: 'e' :: rest) d := by
  have hread := unsignedLiteral_exponent h.digits h.nonempty he negative
  rw [h.value] at hread
  refine ⟨_, _, hread, ?_⟩
  have hone : (([c] : List Char).length : Int) + d.exponent - 1 = d.exponent := by simp
  rw [hone, Digits.value]

theorem isLiteralOf_exponent (h : IsDigitText (c :: c' :: cs) d.digits)
    (he : exponentPart ('e' :: rest) = some (((c :: c' :: cs).length : Int) + d.exponent - 1))
    (negative : Bool) : IsLiteralOf negative (c :: '.' :: (c' :: cs ++ 'e' :: rest)) d := by
  have hfirst : AllDigits [c] := by
    intro x hx
    exact h.digits x (by simp [List.mem_singleton.mp hx])
  have hothers : AllDigits (c' :: cs) := fun x hx => h.digits x (List.mem_cons_of_mem c hx)
  have hread := unsignedLiteral_point hfirst (by simp) hothers _ (by simp) he negative
  have hboth : [c] ++ c' :: cs = c :: c' :: cs := rfl
  rw [hboth, h.value] at hread
  refine ⟨_, _, hread, ?_⟩
  have hcount : ((c :: c' :: cs).length : Int) + d.exponent - 1 - (c' :: cs).length =
      d.exponent := by
    simp only [List.length_cons]
    omega
  rw [hcount, Digits.value]

end IsDigitText

namespace Layout

variable {l : Layout} (hl : l.exponentSign = [] ∨ l.exponentSign = ['+'])
include hl

theorem exponentPart_exponentText (e : Int) : exponentPart ('e' :: l.exponentText e) = some e := by
  rw [exponentText]
  split_ifs with hneg
  · obtain ⟨c, cs, hcs, -⟩ := digitText_eq_cons (-e).toNat
    have hdigits := allDigits_digitText (-e).toNat
    have hvalue := natOfDigits_digitText (-e).toNat
    rw [hcs] at hdigits hvalue ⊢
    rw [(exponentPart_digits hdigits).1, hvalue]
    congr 1
    omega
  · obtain ⟨c, cs, hcs, -⟩ := digitText_eq_cons e.toNat
    have hdigits := allDigits_digitText e.toNat
    have hvalue := natOfDigits_digitText e.toNat
    rw [hcs] at hdigits hvalue ⊢
    obtain ⟨-, hplus, hplain⟩ := exponentPart_digits hdigits
    have hnat : ((e.toNat : Nat) : Int) = e := by omega
    rcases hl with hsign | hsign
    · rw [hsign, List.nil_append, hplain, hvalue, hnat]
    · rw [hsign, List.singleton_append, hplus, hvalue, hnat]

theorem isLiteralOf_positive (d : Digits) (negative : Bool) :
    IsLiteralOf negative (l.positive d) d := by
  have hform := isDigitText_digitText d.digits
  obtain ⟨text, htext⟩ : ∃ cs, cs = digitText d.digits := ⟨_, rfl⟩
  rw [← htext] at hform
  rw [positive, ← htext]
  split_ifs with hwhole hpoint hzeros
  · exact hform.isLiteralOf_whole hwhole.1 negative
  · exact hform.isLiteralOf_point hpoint.1 (by omega) negative
  · exact hform.isLiteralOf_fraction hzeros.2 negative
  · have hexponent := exponentPart_exponentText hl ((text.length : Int) + d.exponent - 1)
    rcases text with _ | ⟨c, _ | ⟨c', cs⟩⟩
    · exact absurd rfl hform.nonempty
    · exact hform.isLiteralOf_digit hexponent negative
    · exact hform.isLiteralOf_exponent hexponent negative

/-- What is written for a positive double is read as this double, with the sign that it had. -/
theorem unsignedLiteral_shortestDigits {m : Nat} {e : Int} (h : Double.IsPositive m e)
    (negative : Bool) :
    unsignedLiteral negative (l.positive (shortestDigits m e)) = some (.finite negative m e) := by
  obtain ⟨digits, exponent, hread, hvalue⟩ := isLiteralOf_positive hl (shortestDigits m e) negative
  rw [hread, Double.ofDecimal_shortestDigits h hvalue]

end Layout

/-! ## What is read from a literal -/

theorem unsignedLiteral_eq_ofDecimal {cs : List Char} {negative : Bool} {x : Double}
    (h : unsignedLiteral negative cs = some x) :
    ∃ digits exponent, x = .ofDecimal negative digits exponent := by
  have hexponent (rest : List Char) (digits : Nat) (shift : Int) {condition : Bool}
      (hread : (if condition then none else
        (exponentPart rest).map fun e => Double.ofDecimal negative digits (e - shift)) = some x) :
      ∃ digits exponent, x = .ofDecimal negative digits exponent := by
    split at hread
    · cases hread
    · obtain ⟨e, -, hx⟩ := Option.map_eq_some_iff.mp hread
      exact ⟨digits, e - shift, hx.symm⟩
  simp only [unsignedLiteral] at h
  split at h
  · exact hexponent _ _ _ h
  · exact hexponent _ _ _ h

/-- A finite number that is read from a literal is zero or a positive double with a sign. -/
theorem isPositive_of_literal? {cs : List Char} {negative : Bool} {m : Nat} {e : Int}
    (h : literal? cs = some (.finite negative m e)) (hm : m ≠ 0) : Double.IsPositive m e := by
  have hunsigned (negative' : Bool) (rest : List Char)
      (hread : unsignedLiteral negative' rest = some (.finite negative m e)) :
      Double.IsPositive m e := by
    obtain ⟨digits, exponent, hround⟩ := unsignedLiteral_eq_ofDecimal hread
    exact Double.isPositive_of_ofDecimal hround.symm hm
  unfold literal? at h
  split at h
  · exact hunsigned true _ h
  · exact hunsigned false _ h
  · exact hunsigned false _ h

end PromptRunner.Decimal
