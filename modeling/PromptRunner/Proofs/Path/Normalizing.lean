import Mathlib.Data.List.DropRight
import PromptRunner.Proofs.Path.Home

/-!
# Normal forms of paths

A normalized path is written with names, and normalizing leaves such a path as it is. A relative
path acts on every directory alike: it takes names back, as many as it climbs, and puts its own
names behind those that remain. So it makes no difference whether a directory is normalized before a
path is put behind it or after. What a path expands to is canonical, and the canonical paths are
those that expanding leaves alone, whatever the current and home directories are.
-/

namespace PromptRunner.Path

/-! ## Paths written with names -/

section Render
variable {absolute : Bool} {ps : List Part}

theorem isAbsolute_render (absolute : Bool) (h : ∀ p ∈ ps, isFileName p = true) :
    isAbsolute (render absolute ps) = absolute := by
  cases absolute with
  | true => rfl
  | false =>
    cases ps with
    | nil => rfl
    | cons p ps =>
      obtain ⟨hempty, -, -, hslash⟩ := isFileName_iff.mp (h p List.mem_cons_self)
      have hp : isAbsolute p = false := isAbsolute_of_not_mem hslash
      cases ps with
      | nil => simpa [render] using hp
      | cons q ps => simpa [render, List.intercalate_cons_cons, isAbsolute_append _ hempty] using hp

theorem mem_split_render (h : ∀ p ∈ ps, isFileName p = true) {p : Part}
    (hp : p ∈ split (render absolute ps)) : p = [] ∨ p ∈ ps := by
  have hparts : p = [] ∨ p ∈ split ([slash].intercalate ps) := by
    cases absolute with
    | false => exact .inr hp
    | true =>
      have hsplit : split (render true ps) = [] :: split ([slash].intercalate ps) :=
        Text.splitAt_append_cons slash [] _
      rw [hsplit] at hp
      exact List.mem_cons.mp hp
  refine hparts.elim .inl fun hp => ?_
  by_cases hne : ps = []
  · subst hne
    exact .inl (List.mem_singleton.mp hp)
  · rw [split_intercalate hne h] at hp
    exact .inr hp

/-- Names are not taken back. -/
theorem resolve_of_names (h : ∀ p ∈ ps, isFileName p = true) : resolve ps = ps := by
  have hparent : parentPart ∉ ps := fun hmem => (isFileName_iff.mp (h _ hmem)).2.2.1 rfl
  rw [resolve, foldl_walk_of_notMem [] hparent, List.append_nil, List.reverse_reverse]

theorem normalize_render (absolute : Bool) (h : ∀ p ∈ ps, isFileName p = true) :
    normalize (render absolute ps) = render absolute ps := by
  rw [normalize, isAbsolute_render absolute h, steps_render absolute h, resolve_of_names h]

end Render

variable {base path : Path}

theorem isAbsolute_normalize (path : Path) :
    isAbsolute (normalize path) = isAbsolute path :=
  isAbsolute_render (isAbsolute path) (resolve_names path)

theorem normalize_normalize (path : Path) :
    normalize (normalize path) = normalize path :=
  normalize_render (isAbsolute path) (resolve_names path)

theorem not_mem_split_normalize (path : Path) {p : Part}
    (hp : p = selfPart ∨ p = parentPart) : p ∉ split (normalize path) := by
  intro hmem
  rcases mem_split_render (resolve_names path) hmem with hempty | hname
  · rcases hp with rfl | rfl
    · exact absurd hempty (by decide)
    · exact absurd hempty (by decide)
  · obtain ⟨-, hself, hparent, -⟩ := isFileName_iff.mp (resolve_names path p hname)
    exact hp.elim hself hparent

theorem normalize_eq_of_steps (habsolute : isAbsolute base = isAbsolute path)
    (hsteps : steps (normalize base) = steps (normalize path)) :
    normalize base = normalize path := by
  rw [steps_normalize, steps_normalize] at hsteps
  rw [normalize, normalize, habsolute, hsteps]

/-! ## Relative paths behind a directory -/

/-- How many names of a directory are taken back by steps behind it. -/
def climbs : List Part → ℕ
  | [] => 0
  | p :: ps => if p = parentPart then climbs ps + 1 else climbs ps - 1

/-- Steps act on every trail alike: the part of it that they climb is dropped, and what they come to
from nowhere is put on top of the rest. -/
theorem foldl_walk_eq (ps trail : List Part) :
    ps.foldl walk trail = ps.foldl walk [] ++ trail.drop (climbs ps) := by
  induction ps generalizing trail with
  | nil => rfl
  | cons p ps ih =>
    rw [List.foldl_cons, List.foldl_cons, ih (walk trail p), ih (walk [] p), List.append_assoc]
    congr 1
    by_cases hp : p = parentPart
    · simp [walk, climbs, hp]
    · -- A name is on top of the trail, so it is the first to be taken back by the steps behind it.
      simp only [walk, climbs, hp, if_false]
      cases climbs ps with
      | zero => rfl
      | succ k => simp

theorem resolve_append_eq (ps qs : List Part) :
    resolve (ps ++ qs) = (resolve ps).rdrop (climbs qs) ++ resolve qs := by
  rw [List.rdrop_eq_reverse_drop_reverse, resolve, List.foldl_append, foldl_walk_eq qs,
    List.reverse_append, resolve, resolve, List.reverse_reverse]

theorem steps_normalize_join (base : Path) (h : isAbsolute path = false) :
    steps (normalize (join base path)) =
      (steps (normalize base)).rdrop (climbs (steps path)) ++ steps (normalize path) := by
  rw [steps_normalize, steps_normalize, steps_normalize, steps_join base h,
    resolve_append_eq]

/-- A directory may be normalized before a path is put behind it. -/
theorem normalize_join_normalize (base path : Path) :
    normalize (join (normalize base) path) = normalize (join base path) := by
  by_cases h : isAbsolute path = true
  · rw [join_of_absolute _ h, join_of_absolute _ h]
  · have hrelative : isAbsolute path = false := Bool.eq_false_iff.mpr h
    apply normalize_eq_of_steps
    · rw [isAbsolute_join_of_relative _ hrelative, isAbsolute_join_of_relative _ hrelative,
        isAbsolute_normalize]
    · rw [steps_normalize_join _ hrelative, steps_normalize_join _ hrelative,
        normalize_normalize]

/-- A normalized path has no part that stands for the directory itself or for the one above, is
absolute exactly if the given one is, and is not changed by normalizing it again. Normalizing a
directory before a path is put behind it changes nothing: a relative path takes back as many names
of the directory as it climbs, or all there are, and puts its own normal form behind the others. -/
theorem normal_form_respects_joining (base path : Path) :
    (selfPart ∉ split (normalize path) ∧ parentPart ∉ split (normalize path)) ∧
    isAbsolute (normalize path) = isAbsolute path ∧
    normalize (normalize path) = normalize path ∧
    normalize (join (normalize base) path) = normalize (join base path) ∧
    (isAbsolute path = false →
      steps (normalize (join base path)) =
        (steps (normalize base)).rdrop (climbs (steps path)) ++ steps (normalize path)) :=
  ⟨⟨not_mem_split_normalize _ (.inl rfl), not_mem_split_normalize _ (.inr rfl)⟩,
    isAbsolute_normalize _, normalize_normalize _, normalize_join_normalize _ _,
    fun h => steps_normalize_join _ h⟩

theorem normal_form_respects_joining_climbing :
    isAbsolute (ofText "x/../../.././/d") = false ∧
      normalize (join (ofText "/a/./b//c") (ofText "x/../../.././/d")) = ofText "/a/d" ∧
      normalize (join (ofText "/a/b/c") (ofText "x/../../.././/d")) = ofText "/a/d" ∧
      climbs (steps (ofText "x/../../.././/d")) = 2 ∧
      steps (ofText "/a/d") = (steps (ofText "/a/b/c")).rdrop 2 ++ steps (ofText "d") := by
  obtain ⟨-, -, -, hjoin, hsteps⟩ :=
    normal_form_respects_joining (ofText "/a/./b//c") (ofText "x/../../.././/d")
  have hrelative : isAbsolute (ofText "x/../../.././/d") = false := by decide
  have hpath : normalize (join (ofText "/a/./b//c") (ofText "x/../../.././/d")) = ofText "/a/d" := by
    decide
  have hbase : normalize (ofText "/a/./b//c") = ofText "/a/b/c" := by decide
  have hclimbs : climbs (steps (ofText "x/../../.././/d")) = 2 := by decide
  have hrest : normalize (ofText "x/../../.././/d") = ofText "d" := by decide
  have hsteps := hsteps hrelative
  rw [hpath, hbase, hclimbs, hrest] at hsteps
  rw [hbase, hpath] at hjoin
  exact ⟨hrelative, hpath, hjoin, hclimbs, hsteps⟩

/-! ## Expanded paths -/

theorem IsCanonical.exists_names (h : IsCanonical path) :
    ∃ names, (∀ p ∈ names, isFileName p = true) ∧ path = render true names := by
  rcases h.noEmpty with rfl | hempty
  · exact ⟨[], List.forall_mem_nil _, rfl⟩
  · cases path with
    | nil => exact absurd h.absolute Bool.false_ne_true
    | cons c cs =>
      have habsolute := h.absolute
      rw [isAbsolute_cons, beq_iff_eq] at habsolute
      subst habsolute
      have hsplit : split (slash :: cs) = [] :: split cs := rfl
      refine ⟨split cs, ?_, ?_⟩
      · intro p hp
        have hmem : p ∈ split (slash :: cs) := hsplit ▸ List.mem_cons_of_mem [] hp
        refine isFileName_iff.mpr ⟨?_, ?_, ?_, Text.not_mem_of_mem_splitAt hp⟩
        · rintro rfl
          exact hempty hp
        · rintro rfl
          exact h.noSelf hmem
        · rintro rfl
          exact h.noParent hmem
      · exact congrArg (slash :: ·) (Text.intercalate_splitAt slash cs).symm

/-- Only the path of the root ends in a separator. -/
theorem IsCanonical.eq_root_of_suffix (h : IsCanonical path) (hsuffix : [slash] <:+ path) :
    path = [slash] := by
  refine h.noEmpty.resolve_right fun hempty => hempty ?_
  obtain ⟨front, rfl⟩ := hsuffix
  have hsplit : split (front ++ [slash]) = split front ++ [[]] := Text.splitAt_append_cons slash front []
  obtain ⟨p, ps, hfront⟩ := List.exists_cons_of_ne_nil (Text.splitAt_ne_nil slash front)
  rw [hsplit, split, hfront]
  simp

/-- Nothing is completed in a canonical path, and nothing is taken back. -/
theorem IsCanonical.expand_eq (h : IsCanonical path) (currentDir : Path) (home : Option Path) :
    expand path currentDir home = path := by
  have hliteral : path ≠ [tilde] ∧ ¬ [tilde, slash] <+: path := by
    constructor
    · rintro rfl
      exact absurd h.absolute (by decide)
    · rintro ⟨rest, rfl⟩
      exact absurd h.absolute Bool.false_ne_true
  obtain ⟨names, hnames, hpath⟩ := h.exists_names
  rw [expand, completeHome_of_literal (.inr hliteral), join_of_absolute _ h.absolute, hpath,
    normalize_render true hnames]

/-- From an absolute directory every path expands to a canonical one, which ends in a separator only
if it is that of the root, and which expands to itself wherever it is expanded again. A path that is
canonical already is left as it is, and no other path is. -/
theorem expanded_path_is_final {currentDir : Path} (hcurrent : isAbsolute currentDir = true)
    (path : Path) (home : Option Path) :
    IsCanonical (expand path currentDir home) ∧
    ([slash] <:+ expand path currentDir home → expand path currentDir home = [slash]) ∧
    (∀ currentDir' home',
      expand (expand path currentDir home) currentDir' home' = expand path currentDir home) ∧
    (expand path currentDir home = path ↔ IsCanonical path) := by
  have hcanonical := isCanonical_expand path home hcurrent
  refine ⟨hcanonical, hcanonical.eq_root_of_suffix, hcanonical.expand_eq, ?_, ?_⟩
  · intro h
    exact h ▸ hcanonical
  · intro h
    exact h.expand_eq _ _

theorem expanded_path_is_final_relative_home :
    isAbsolute (ofText "/w/./sub") = true ∧
      expand (ofText "~/../..//x/") (ofText "/w/./sub") (some (ofText "h")) = ofText "/w/x" ∧
      IsCanonical (ofText "/w/x") ∧
      expand (ofText "/w/x") (ofText "elsewhere") (some (ofText "/home/dev")) = ofText "/w/x" := by
  have hcurrent : isAbsolute (ofText "/w/./sub") = true := by decide
  obtain ⟨hcanonical, -, hfinal, -⟩ :=
    expanded_path_is_final hcurrent (ofText "~/../..//x/") (some (ofText "h"))
  have hpath : expand (ofText "~/../..//x/") (ofText "/w/./sub") (some (ofText "h")) =
      ofText "/w/x" := by decide
  rw [hpath] at hcanonical hfinal
  exact ⟨hcurrent, hpath, hcanonical, hfinal (ofText "elsewhere") (some (ofText "/home/dev"))⟩

end PromptRunner.Path
