import PromptRunner.Proofs.Path.Canonical

/-!
# Paths below a directory

A relative path put behind a directory takes the steps of the directory first and then its own. If
none of these leads upwards, the joined path stays below the directory, and normalizing keeps it
there.
-/

namespace PromptRunner.Path

/-- A path leads from another one down to names below it. -/
structure IsBelow (base path : Path) : Prop where
  absolute : isAbsolute path = isAbsolute base
  descends : ∃ names, names ≠ [] ∧ (∀ name ∈ names, isFileName name = true) ∧
    steps path = steps base ++ names

variable {base path : Path}

theorem steps_nil : steps [] = [] := by decide

theorem steps_append_cons (as bs : Path) : steps (as ++ slash :: bs) = steps as ++ steps bs := by
  simp [steps, split, Text.splitAt_append_cons]

theorem steps_join (base : Path) (h : isAbsolute path = false) :
    steps (join base path) = steps base ++ steps path := by
  rcases join_of_relative base h with ⟨hjoin, rfl | ⟨front, rfl⟩⟩ | hjoin
  · rw [hjoin, steps_nil]
    rfl
  · rw [hjoin, List.append_assoc, List.singleton_append, steps_append_cons, steps_append_cons,
      steps_nil, List.append_nil]
  · rw [hjoin, steps_append_cons]

theorem isFileName_of_mem_steps (hparent : parentPart ∉ steps path) :
    ∀ p ∈ steps path, isFileName p = true := by
  intro p hp
  obtain ⟨hsplit, hstep⟩ := List.mem_filter.mp hp
  have hslash : slash ∉ p := Text.not_mem_of_mem_splitAt hsplit
  have hdown : p ≠ parentPart := fun heq => hparent (heq ▸ hp)
  simp [isFileName, hstep, hdown, hslash]

/-- A relative path that takes a step but none upwards leads below every directory. -/
theorem isBelow_join (base : Path) (h : isAbsolute path = false)
    (hparent : parentPart ∉ steps path) (hne : steps path ≠ []) :
    IsBelow base (join base path) where
  absolute := isAbsolute_join_of_relative base h
  descends := ⟨steps path, hne, isFileName_of_mem_steps hparent, steps_join base h⟩

/-! ## Normalizing -/

theorem foldl_walk_of_notMem {ps : List Part} (trail : List Part) (h : parentPart ∉ ps) :
    ps.foldl walk trail = ps.reverse ++ trail := by
  induction ps generalizing trail with
  | nil => rfl
  | cons p ps ih =>
    obtain ⟨hp, hps⟩ := not_or.mp (mt List.mem_cons.mpr h)
    rw [List.foldl_cons, walk, if_neg (Ne.symm hp), ih (p :: trail) hps]
    simp

theorem resolve_append {ps qs : List Part} (h : parentPart ∉ qs) :
    resolve (ps ++ qs) = resolve ps ++ qs := by
  rw [resolve, List.foldl_append, foldl_walk_of_notMem _ h]
  simp [resolve]

theorem steps_render (absolute : Bool) {ps : List Part} (h : ∀ p ∈ ps, isFileName p = true) :
    steps (render absolute ps) = ps := by
  have hnames : steps ([slash].intercalate ps) = ps := by
    by_cases hne : ps = []
    · subst hne
      exact steps_nil
    · have hsteps : ∀ p ∈ ps, isStep p = true := by
        intro p hp
        obtain ⟨hempty, hself, -⟩ := isFileName_iff.mp (h p hp)
        exact isStep_iff.mpr ⟨hempty, hself⟩
      rw [steps, split_intercalate hne h]
      exact List.filter_eq_self.mpr hsteps
  cases absolute with
  | false => exact hnames
  | true =>
    calc
      steps (render true ps) = steps [] ++ steps ([slash].intercalate ps) := steps_append_cons [] _
      _ = ps := by rw [steps_nil, List.nil_append, hnames]

theorem steps_normalize (path : Path) :
    steps (normalize path) = resolve (steps path) :=
  steps_render (isAbsolute path) (resolve_names path)

/-- Whether a separator is there already makes no difference to what is joined. -/
theorem normalize_join_of_relative (hbase : isAbsolute base = true) (h : isAbsolute path = false) :
    normalize (join base path) = normalize (base ++ slash :: path) := by
  rw [normalize, normalize, isAbsolute_join_of_relative base h,
    isAbsolute_append _ (ne_nil_of_isAbsolute hbase), steps_join base h, steps_append_cons]

/-- A path behind a directory stays with the directory if it takes no step upwards. -/
theorem normalize_within (hbase : isAbsolute base = true) (hparent : parentPart ∉ steps path) :
    normalize (base ++ slash :: path) = normalize base ∨
      IsBelow (normalize base) (normalize (base ++ slash :: path)) := by
  have habsolute : isAbsolute (base ++ slash :: path) = true := by
    rw [isAbsolute_append _ (ne_nil_of_isAbsolute hbase), hbase]
  have hresolve : resolve (steps (base ++ slash :: path)) = resolve (steps base) ++ steps path := by
    rw [steps_append_cons, resolve_append hparent]
  by_cases hnil : steps path = []
  · left
    rw [normalize, normalize, habsolute, hbase, hresolve, hnil, List.append_nil]
  · right
    constructor
    · rw [(isCanonical_normalize habsolute).absolute,
        (isCanonical_normalize hbase).absolute]
    · refine ⟨steps path, hnil, isFileName_of_mem_steps hparent, ?_⟩
      rw [steps_normalize, steps_normalize, hresolve]

end PromptRunner.Path
