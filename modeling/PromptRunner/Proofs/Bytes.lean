import Mathlib.Data.List.Basic
import Mathlib.Tactic.SplitIfs
import PromptRunner.Text.Bytes

/-!
# Texts read from bytes

Each character of a text is read from its bytes, so that a text is read from its bytes as it is. An
ASCII character is a byte that stands in no other character. Hence what is said of ASCII characters
in a text can be said of bytes, and a text that starts with one is read as it is behind all bytes.
-/

namespace PromptRunner.Text

variable {s : String} {bs : List UInt8} {b : UInt8} {c : Char} {o : Opened}

@[simp] theorem bytes_empty : bytes "" = [] := rfl

theorem bytes_append (s t : String) : bytes (s ++ t) = bytes s ++ bytes t := by
  simp [bytes, String.toList_append]

/-! ## Reading -/

theorem toNat_byte {n : Nat} (h : n < 256) : (UInt8.ofNat n).toNat = n :=
  UInt8.toNat_ofNat_of_lt' h

theorem shownBytes_ascii (h : b.toNat < 0x80) (bs : List UInt8) :
    shownBytes none (b :: bs) = Char.ofNat b.toNat :: shownBytes none bs := by
  rw [shownBytes, start, if_pos h]
  rfl

theorem shownBytes_opened (ho : opened? b = some o) (bs : List UInt8) :
    shownBytes none (b :: bs) = shownBytes (some o) bs := by
  have h : ¬ b.toNat < 0x80 := by
    intro h
    rw [opened?, if_pos (by omega)] at ho
    exact nomatch ho
  rw [shownBytes, start, if_neg h, ho]
  rfl

theorem shownBytes_more {n least greatest more bits : Nat} (hbits : bits < 64) (hleast : least ≤ bits)
    (hgreatest : bits ≤ greatest) (bs : List UInt8) :
    shownBytes (some ⟨n, least, greatest, more + 1⟩) (UInt8.ofNat (bits + 128) :: bs) =
      shownBytes (some { number := n * 64 + bits, more }) bs := by
  have hbyte : (UInt8.ofNat (bits + 128)).toNat = bits + 128 := toNat_byte (by omega)
  have hrest : (bits + 128) % 64 = bits := by omega
  rw [shownBytes, Opened.read, hbyte, hrest, if_pos ⟨by omega, hleast, hgreatest⟩]
  rfl

theorem shownBytes_last {n least greatest bits : Nat} (hbits : bits < 64) (hleast : least ≤ bits)
    (hgreatest : bits ≤ greatest) (bs : List UInt8) :
    shownBytes (some ⟨n, least, greatest, 0⟩) (UInt8.ofNat (bits + 128) :: bs) =
      Char.ofNat (n * 64 + bits) :: shownBytes none bs := by
  have hbyte : (UInt8.ofNat (bits + 128)).toNat = bits + 128 := toNat_byte (by omega)
  have hrest : (bits + 128) % 64 = bits := by omega
  rw [shownBytes, Opened.read, hbyte, hrest, if_pos ⟨by omega, hleast, hgreatest⟩]
  rfl

theorem opened?_two : ∀ n < 32, 2 ≤ n →
    opened? (UInt8.ofNat (n + 192)) = some { number := n, more := 0 } := by
  decide

theorem opened?_three : ∀ n < 16, opened? (UInt8.ofNat (n + 224)) =
    some ⟨n, if n = 0 then 32 else 0, if n = 13 then 31 else 63, 1⟩ := by
  decide

theorem opened?_four : ∀ n < 5, opened? (UInt8.ofNat (n + 240)) =
    some ⟨n, if n = 0 then 16 else 0, if n = 4 then 15 else 63, 2⟩ := by
  decide

theorem shownBytes_utf8EncodeChar (c : Char) (bs : List UInt8) :
    shownBytes none (String.utf8EncodeChar c ++ bs) = c :: shownBytes none bs := by
  obtain ⟨n, hn⟩ : ∃ n, n = c.val.toNat := ⟨_, rfl⟩
  have hc : Char.ofNat n = c := by
    rw [hn]
    exact Char.ofNat_toNat c
  have hvalid : n < 0xd800 ∨ 0xdfff < n ∧ n < 0x110000 := by
    rw [hn]
    exact c.valid
  rw [String.utf8EncodeChar, ← hn]
  split_ifs with hone htwo hthree
  · have hbyte : (UInt8.ofNat n).toNat = n := toNat_byte (by omega)
    rw [List.singleton_append, shownBytes_ascii (by omega), hbyte, hc]
  · have hnumber : n / 64 % 32 * 64 + n % 64 = n := by omega
    rw [List.cons_append, List.singleton_append,
      shownBytes_opened (opened?_two _ (by omega) (by omega)),
      shownBytes_last (by omega) (by omega) (by omega), hnumber, hc]
  · have hnumber : (n / 4096 % 16 * 64 + n / 64 % 64) * 64 + n % 64 = n := by omega
    rw [List.cons_append, List.cons_append, List.singleton_append,
      shownBytes_opened (opened?_three _ (by omega)),
      shownBytes_more (by omega) (by split_ifs <;> omega) (by split_ifs <;> omega),
      shownBytes_last (by omega) (by omega) (by omega), hnumber, hc]
  · have hnumber :
        ((n / 262144 % 8 * 64 + n / 4096 % 64) * 64 + n / 64 % 64) * 64 + n % 64 = n := by
      omega
    rw [List.cons_append, List.cons_append, List.cons_append, List.singleton_append,
      shownBytes_opened (opened?_four _ (by omega)),
      shownBytes_more (by omega) (by split_ifs <;> omega) (by split_ifs <;> omega),
      shownBytes_more (by omega) (by omega) (by omega),
      shownBytes_last (by omega) (by omega) (by omega), hnumber, hc]

theorem shownBytes_bytes (s : String) : shownBytes none (bytes s) = s.toList := by
  rw [bytes]
  induction s.toList with
  | nil => rfl
  | cons c cs ih => rw [List.flatMap_cons, shownBytes_utf8EncodeChar, ih]

@[simp] theorem ofBytes_bytes (s : String) : ofBytes (bytes s) = s := by
  rw [ofBytes, shownBytes_bytes, String.ofList_toList]

theorem bytes_injective : Function.Injective bytes :=
  Function.LeftInverse.injective ofBytes_bytes

/-! ## ASCII characters -/

theorem utf8EncodeChar_ascii (h : c.toNat < 0x80) :
    String.utf8EncodeChar c = [UInt8.ofNat c.toNat] := by
  rw [String.utf8EncodeChar]
  exact if_pos (Nat.le_of_lt_succ h)

theorem le_of_mem_utf8EncodeChar (h : ¬ c.toNat < 0x80) (hb : b ∈ String.utf8EncodeChar c) :
    0x80 ≤ b.toNat := by
  have hhigh {n : Nat} (hn : n < 256) (hle : 0x80 ≤ n) : 0x80 ≤ (UInt8.ofNat n).toNat := by
    rwa [toNat_byte hn]
  have hc : ¬ c.val.toNat ≤ 127 := fun hle => h (Nat.lt_succ_of_le hle)
  rw [String.utf8EncodeChar, if_neg hc] at hb
  split_ifs at hb
  · simp only [List.mem_cons, List.not_mem_nil, or_false] at hb
    rcases hb with rfl | rfl
    · exact hhigh (by omega) (by omega)
    · exact hhigh (by omega) (by omega)
  · simp only [List.mem_cons, List.not_mem_nil, or_false] at hb
    rcases hb with rfl | rfl | rfl
    · exact hhigh (by omega) (by omega)
    · exact hhigh (by omega) (by omega)
    · exact hhigh (by omega) (by omega)
  · simp only [List.mem_cons, List.not_mem_nil, or_false] at hb
    rcases hb with rfl | rfl | rfl | rfl
    · exact hhigh (by omega) (by omega)
    · exact hhigh (by omega) (by omega)
    · exact hhigh (by omega) (by omega)
    · exact hhigh (by omega) (by omega)

/-- An ASCII character stands in a text just if its byte is one of the bytes. -/
theorem mem_bytes_iff (h : c.toNat < 0x80) : UInt8.ofNat c.toNat ∈ bytes s ↔ c ∈ s.toList := by
  have hbyte : (UInt8.ofNat c.toNat).toNat = c.toNat := toNat_byte (by omega)
  rw [bytes, List.mem_flatMap]
  constructor
  · rintro ⟨d, hd, hmem⟩
    by_cases hascii : d.toNat < 0x80
    · rw [utf8EncodeChar_ascii hascii, List.mem_singleton] at hmem
      have hsame := congrArg UInt8.toNat hmem
      rw [hbyte, toNat_byte (by omega)] at hsame
      have hchar : c = d := Char.toNat_inj.mp hsame
      exact hchar ▸ hd
    · have hle := le_of_mem_utf8EncodeChar hascii hmem
      omega
  · intro hc
    exact ⟨c, hc, by rw [utf8EncodeChar_ascii h]; exact List.mem_singleton_self _⟩

/-- Behind any bytes an ASCII character is read, and what follows is read as if it stood alone. -/
theorem shownBytes_append_ascii (h : b.toNat < 0x80) (state : Option Opened) (bs rest : List UInt8) :
    ∃ front, shownBytes state (bs ++ b :: rest) =
      front ++ Char.ofNat b.toNat :: shownBytes none rest := by
  induction bs generalizing state with
  | nil =>
    cases state with
    | none => exact ⟨[], shownBytes_ascii h rest⟩
    | some o =>
      refine ⟨[replacement], ?_⟩
      have hread : o.read b = (replacement :: (start b).1, (start b).2) := by
        rw [Opened.read, if_neg (by omega)]
      rw [List.nil_append, shownBytes, hread, start, if_pos h]
      rfl
  | cons b' bs ih =>
    cases state with
    | none =>
      obtain ⟨front, hfront⟩ := ih (start b').2
      exact ⟨(start b').1 ++ front, by rw [List.cons_append, shownBytes, hfront, List.append_assoc]⟩
    | some o =>
      obtain ⟨front, hfront⟩ := ih (o.read b').2
      exact ⟨(o.read b').1 ++ front, by rw [List.cons_append, shownBytes, hfront, List.append_assoc]⟩

end PromptRunner.Text
