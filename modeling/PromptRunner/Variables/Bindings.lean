/-!
# Variable bindings

A finite map from variable names to values, kept as a list in which the newest binding of a name
stands alone.
-/

namespace PromptRunner

/-- The values bound to variable names. -/
structure Bindings where
  entries : List (String × String) := []
  deriving Repr, DecidableEq

namespace Bindings

def empty : Bindings :=
  ⟨[]⟩

def find? (b : Bindings) (name : String) : Option String :=
  b.entries.lookup name

def binds (b : Bindings) (name : String) : Bool :=
  (b.find? name).isSome

def insert (b : Bindings) (name value : String) : Bindings :=
  ⟨(name, value) :: b.entries.filter (·.1 != name)⟩

def insertAll (b : Bindings) (pairs : List (String × String)) : Bindings :=
  pairs.foldl (fun b p => b.insert p.1 p.2) b

/-- The bindings of a list of pairs, of which the last of a name counts. -/
def ofList (pairs : List (String × String)) : Bindings :=
  empty.insertAll pairs

@[simp] theorem find?_empty (k : String) : empty.find? k = none := rfl

theorem lookup_cons_ne {k a : String} (h : k ≠ a) (v : String) (es : List (String × String)) :
    ((a, v) :: es).lookup k = es.lookup k := by
  have hk : (k == a) = false := by simpa using h
  rw [List.lookup_cons, hk]

theorem lookup_filter_ne {k n : String} (h : k ≠ n) (es : List (String × String)) :
    (es.filter (·.1 != n)).lookup k = es.lookup k := by
  induction es with
  | nil => rfl
  | cons e es ih =>
    obtain ⟨a, v⟩ := e
    by_cases ha : a = n
    · subst ha
      rw [List.filter_cons_of_neg (by simp), lookup_cons_ne h, ih]
    · rw [List.filter_cons_of_pos (by simpa using ha)]
      by_cases hk : k = a
      · subst hk
        rw [List.lookup_cons_self, List.lookup_cons_self]
      · rw [lookup_cons_ne hk, lookup_cons_ne hk, ih]

/-- The newest binding of a name counts, and other names keep theirs. -/
theorem find?_insert (b : Bindings) (n v k : String) :
    (b.insert n v).find? k = if k = n then some v else b.find? k := by
  unfold find? insert
  by_cases h : k = n
  · subst h
    rw [List.lookup_cons_self, if_pos rfl]
  · rw [lookup_cons_ne h, lookup_filter_ne h, if_neg h]

end Bindings

end PromptRunner
