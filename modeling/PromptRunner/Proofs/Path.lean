import PromptRunner.Path
import PromptRunner.Proofs.Bytes

/-!
# Paths with a last part

A file name put behind a directory is the last part of the path that comes out, and bytes behind a
path only make its last part longer, unless there is a separator among them.
-/

namespace PromptRunner

namespace Text

variable {α : Type} [DecidableEq α]

theorem splitAt_of_not_mem {separator : α} {cs : List α} (h : separator ∉ cs) :
    splitAt separator cs = [cs] := by
  induction cs with
  | nil => rfl
  | cons c cs ih =>
    obtain ⟨hc, hcs⟩ := not_or.mp (mt List.mem_cons.mpr h)
    rw [splitAt, if_neg (Ne.symm hc), ih hcs]

theorem flatten_splitAt (separator : α) (cs : List α) :
    (splitAt separator cs).flatten = cs.filter (· ≠ separator) := by
  induction cs with
  | nil => rfl
  | cons c cs ih =>
    rw [splitAt]
    by_cases hc : c = separator
    · simp [hc, ih]
    · cases hparts : splitAt separator cs with
      | nil => exact absurd hparts (splitAt_ne_nil separator cs)
      | cons p ps =>
        rw [hparts] at ih
        simpa [hc] using ih

theorem mem_of_mem_splitAt {separator c : α} {cs p : List α} (hp : p ∈ splitAt separator cs)
    (hc : c ∈ p) : c ∈ cs ∧ c ≠ separator := by
  have hflat : c ∈ (splitAt separator cs).flatten := List.mem_flatten.mpr ⟨p, hp, hc⟩
  rw [flatten_splitAt] at hflat
  simpa using hflat

theorem splitAt_append_cons (separator : α) (as bs : List α) :
    splitAt separator (as ++ separator :: bs) = splitAt separator as ++ splitAt separator bs := by
  induction as with
  | nil => simp [splitAt]
  | cons a as ih =>
    rw [List.cons_append, splitAt, splitAt, ih]
    by_cases ha : a = separator
    · rw [if_pos ha, if_pos ha, List.cons_append]
    · rw [if_neg ha, if_neg ha]
      cases hparts : splitAt separator as with
      | nil => exact absurd hparts (splitAt_ne_nil separator as)
      | cons p ps => rfl

theorem splitAt_append {separator : α} (as : List α) {bs : List α} (h : separator ∉ bs) :
    ∃ ps p, splitAt separator as = ps ++ [p] ∧ splitAt separator (as ++ bs) = ps ++ [p ++ bs] := by
  induction as with
  | nil => exact ⟨[], [], rfl, splitAt_of_not_mem h⟩
  | cons a as ih =>
    obtain ⟨ps, p, hsplit, happend⟩ := ih
    rw [List.cons_append, splitAt, splitAt, hsplit, happend]
    by_cases ha : a = separator
    · rw [if_pos ha, if_pos ha]
      exact ⟨[] :: ps, p, rfl, rfl⟩
    · rw [if_neg ha, if_neg ha]
      cases ps with
      | nil => exact ⟨[], a :: p, rfl, rfl⟩
      | cons q qs => exact ⟨(a :: q) :: qs, p, rfl, rfl⟩

end Text

namespace Path

theorem isAbsolute_cons (c : UInt8) (cs : Path) : isAbsolute (c :: cs) = (c == slash) := rfl

theorem isAbsolute_of_not_mem {path : Path} (h : slash ∉ path) : isAbsolute path = false := by
  cases path with
  | nil => rfl
  | cons c cs =>
    rw [isAbsolute_cons]
    exact beq_false_of_ne fun hc => h (hc ▸ List.mem_cons_self)

theorem ne_nil_of_isAbsolute {path : Path} (h : isAbsolute path = true) : path ≠ [] := by
  rintro rfl
  exact absurd h Bool.false_ne_true

theorem isAbsolute_append {base : Path} (path : Path) (h : base ≠ []) :
    isAbsolute (base ++ path) = isAbsolute base := by
  cases base with
  | nil => exact absurd rfl h
  | cons c cs => rw [List.cons_append, isAbsolute_cons, isAbsolute_cons]

theorem join_of_absolute (base : Path) {path : Path} (h : isAbsolute path = true) :
    join base path = path :=
  if_pos h

theorem join_of_relative (base : Path) {path : Path} (h : isAbsolute path = false) :
    join base path = base ++ path ∧ (base = [] ∨ ∃ front, base = front ++ [slash]) ∨
      join base path = base ++ slash :: path := by
  rw [join, h, if_neg Bool.false_ne_true]
  by_cases hbase : (base.isEmpty || base.getLast? == some slash) = true
  · rw [if_pos hbase]
    rw [Bool.or_eq_true, List.isEmpty_iff, beq_iff_eq, List.getLast?_eq_some_iff] at hbase
    exact .inl ⟨rfl, hbase⟩
  · exact .inr (if_neg hbase)

theorem isAbsolute_join_of_relative (base : Path) {path : Path}
    (h : isAbsolute path = false) : isAbsolute (join base path) = isAbsolute base := by
  by_cases hbase : base = []
  · have hjoin : join base path = path := by simp [join, hbase]
    rw [hjoin, h, hbase]
    rfl
  · rcases join_of_relative base h with ⟨hjoin, -⟩ | hjoin
    · rw [hjoin, isAbsolute_append _ hbase]
    · rw [hjoin, isAbsolute_append _ hbase]

theorem suffix_join (base path : Path) : path <:+ join base path := by
  by_cases h : isAbsolute path = true
  · simp [join_of_absolute base h]
  · rcases join_of_relative base (Bool.eq_false_iff.mpr h) with ⟨hjoin, -⟩ | hjoin
    · exact hjoin ▸ List.suffix_append base path
    · exact hjoin ▸ ⟨base ++ [slash], by simp⟩

/-- A directory is joined with different relative paths to different paths. -/
theorem join_inj {base path path' : Path} (h : isAbsolute path = false)
    (h' : isAbsolute path' = false) : join base path = join base path' ↔ path = path' := by
  refine ⟨fun heq => ?_, fun heq => heq ▸ rfl⟩
  simp only [join, h, h', Bool.false_eq_true, if_false] at heq
  split_ifs at heq
  · exact List.append_cancel_left heq
  · exact (List.cons.inj (List.append_cancel_left heq)).2

theorem split_join (base : Path) {name : Part} (h : slash ∉ name) :
    ∃ parts, split (join base name) = parts ++ [name] := by
  have hsplit (front : Path) : split (front ++ slash :: name) = split front ++ [name] := by
    rw [split, Text.splitAt_append_cons, Text.splitAt_of_not_mem h, split]
  rcases join_of_relative base (isAbsolute_of_not_mem h) with ⟨hjoin, rfl | ⟨front, rfl⟩⟩ | hjoin
  · exact ⟨[], by rw [hjoin, split, List.nil_append, Text.splitAt_of_not_mem h, List.nil_append]⟩
  · exact ⟨split front, by rw [hjoin, List.append_assoc, List.singleton_append, hsplit]⟩
  · exact ⟨split base, by rw [hjoin, hsplit]⟩

theorem isStep_iff {p : Part} : isStep p = true ↔ p ≠ [] ∧ p ≠ selfPart := by
  simp [isStep]

/-- A part that is longer than the directory itself and the one above leads to something below. -/
theorem isStep_of_length {p : Part} (h : 2 < p.length) : isStep p = true ∧ p ≠ parentPart := by
  have hempty : p ≠ [] := fun heq => by simp [heq] at h
  have hself : p ≠ selfPart := fun heq => by simp [heq, selfPart] at h
  have hparent : p ≠ parentPart := fun heq => by simp [heq, parentPart] at h
  exact ⟨isStep_iff.mpr ⟨hempty, hself⟩, hparent⟩

/-- The file name of a path that ends in bytes without separator ends in these bytes, if they are
too long to be the directory itself or the one above. -/
theorem fileName?_of_suffix {path ending : Path} (h : ending <:+ path) (hslash : slash ∉ ending)
    (hlong : 2 < ending.length) : ∃ front, fileName? path = some (front ++ ending) := by
  obtain ⟨front, hpath⟩ := h
  obtain ⟨ps, p, -, hsplit⟩ := Text.splitAt_append front hslash
  have hlength : 2 < (p ++ ending).length := by rw [List.length_append]; omega
  obtain ⟨hstep, hparent⟩ := isStep_of_length hlength
  have hlast : (steps path).getLast? = some (p ++ ending) := by
    rw [steps, split, ← hpath, hsplit, List.filter_append, List.filter_singleton, hstep]
    simp
  exact ⟨p, by rw [fileName?, hlast]; exact if_neg hparent⟩

theorem fileName?_join (base : Path) {name : Part} (h : isStep name = true) (hparent : name ≠ parentPart)
    (hslash : slash ∉ name) : fileName? (join base name) = some name := by
  obtain ⟨parts, hparts⟩ := split_join base hslash
  have hlast : (steps (join base name)).getLast? = some name := by
    rw [steps, hparts, List.filter_append, List.filter_singleton, h]
    simp
  rw [fileName?, hlast]
  exact if_neg hparent

/-! ## Paths written as texts -/

theorem ofText_append (s t : String) : ofText (s ++ t) = ofText s ++ ofText t :=
  Text.bytes_append s t

theorem slash_mem_ofText_iff {s : String} : slash ∈ ofText s ↔ '/' ∈ s.toList :=
  Text.mem_bytes_iff (c := '/') (by decide)

theorem dot_mem_ofText_iff {s : String} : dot ∈ ofText s ↔ '.' ∈ s.toList :=
  Text.mem_bytes_iff (c := '.') (by decide)

/-- Behind any bytes, an ending of ASCII characters is shown as it is. -/
theorem suffix_shown_append (front : Path) {ending : String} (h : ∃ b rest, b.toNat < 0x80 ∧
    ofText ending = b :: rest) : ending.toList <:+ (shown (front ++ ofText ending)).toList := by
  obtain ⟨b, rest, hb, hbytes⟩ := h
  obtain ⟨before, hbefore⟩ := Text.shownBytes_append_ascii hb none front rest
  rw [shown, Text.ofBytes, String.toList_ofList, hbytes, hbefore, ← Text.shownBytes_ascii hb,
    ← hbytes, Text.shownBytes_bytes]
  exact List.suffix_append before _

end Path

end PromptRunner
