/-!
# Texts

Small functions on texts that several modules share.
-/

namespace PromptRunner.Text

/-- The number of bytes that a text takes in UTF-8. -/
def byteCount : List Char → Nat
  | [] => 0
  | c :: cs => c.utf8Size + byteCount cs

def boolText (b : Bool) : String :=
  if b then "true" else "false"

/-- A list of texts with a text between each two. -/
def separated (separator : String) : List String → String
  | [] => ""
  | [s] => s
  | s :: ss => s ++ separator ++ separated separator ss

/-- The lists between the occurrences of a separator. There is one more of them than of these. -/
def splitAt {α : Type} [DecidableEq α] (separator : α) : List α → List (List α)
  | [] => [[]]
  | c :: cs =>
    if c = separator then [] :: splitAt separator cs
    else
      match splitAt separator cs with
      | [] => [[c]]
      | p :: ps => (c :: p) :: ps

/-- A text filled up with spaces to a number of characters. -/
def padded (width : Nat) (s : String) : String :=
  s ++ String.ofList (List.replicate (width - s.length) ' ')

variable {α : Type} [DecidableEq α]

theorem splitAt_ne_nil (separator : α) (cs : List α) : splitAt separator cs ≠ [] := by
  cases cs with
  | nil => simp [splitAt]
  | cons c cs =>
    unfold splitAt
    split
    · simp
    · split <;> simp

/-- The lists with the separator between them are the list that was split. -/
theorem intercalate_splitAt (separator : α) (cs : List α) :
    [separator].intercalate (splitAt separator cs) = cs := by
  induction cs with
  | nil => rfl
  | cons c cs ih =>
    unfold splitAt
    split
    · rename_i h
      cases hs : splitAt separator cs with
      | nil => exact absurd hs (splitAt_ne_nil separator cs)
      | cons p ps =>
        rw [hs] at ih
        subst h
        simpa [List.intercalate] using ih
    · cases hs : splitAt separator cs with
      | nil => exact absurd hs (splitAt_ne_nil separator cs)
      | cons p ps =>
        rw [hs] at ih
        cases ps <;> simp_all [List.intercalate]

end PromptRunner.Text
