/-!
# Digits

The numbers that decimal and hexadecimal digits stand for, and hexadecimal digits of a given width.
-/

namespace PromptRunner.Text

def natOfDigits (cs : List Char) : Nat :=
  cs.foldl (fun n c => 10 * n + (c.toNat - '0'.toNat)) 0

def hexDigit? (c : Char) : Option Nat :=
  if c.isDigit then some (c.toNat - '0'.toNat)
  else if 'a' ≤ c ∧ c ≤ 'f' then some (c.toNat - 'a'.toNat + 10)
  else if 'A' ≤ c ∧ c ≤ 'F' then some (c.toNat - 'A'.toNat + 10)
  else none

/-- Read on with the next hexadecimal digit. -/
def addHexDigit (n : Option Nat) (c : Char) : Option Nat :=
  n.bind fun n => (hexDigit? c).map (16 * n + ·)

def hexNumber? (cs : List Char) : Option Nat :=
  cs.foldl addHexDigit (some 0)

/-- The hexadecimal digits of a number, filled up with zeros to a width. -/
def hexText (width n : Nat) : List Char :=
  let digits := Nat.toDigits 16 n
  List.replicate (width - digits.length) '0' ++ digits

/-- The character with a code point, if there is one. -/
def charOf? (n : Nat) : Option Char :=
  if h : n.isValidChar then some (Char.ofNatAux n h) else none

end PromptRunner.Text
