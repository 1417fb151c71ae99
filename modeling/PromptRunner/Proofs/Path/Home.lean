import PromptRunner.Proofs.Path.Below

/-!
# The home directory in paths

A tilde at the start of a path stands for the home directory if it is all of the path or if a
separator follows it, and for itself otherwise. What follows the separator is put behind the home
directory and, without a step upwards, stays there, but only if it is relative: behind a second
separator it is taken for an absolute path, and the home directory is lost.
-/

namespace PromptRunner.Path

variable {currentDir home path : Path}

/-- Only a tilde at the start that stands alone or before a separator is replaced. -/
theorem completeHome_of_literal {home : Option Path}
    (h : home = none ∨ path ≠ [tilde] ∧ ¬ [tilde, slash] <+: path) : completeHome home path = path := by
  unfold completeHome
  cases home with
  | none => rfl
  | some home =>
    obtain ⟨halone, hbefore⟩ := h.resolve_left nofun
    have hprefix : ¬ [tilde, slash].isPrefixOf path = true := mt List.isPrefixOf_iff_prefix.mp hbefore
    simp only [halone, hprefix, if_false, Bool.false_eq_true]

theorem completeHome_tilde (home : Path) : completeHome (some home) [tilde] = home := rfl

theorem completeHome_tilde_slash (home rest : Path) :
    completeHome (some home) (tilde :: slash :: rest) = join home rest := by
  simp [completeHome, List.isPrefixOf]

theorem normalize_join {base : Path} (hbase : isAbsolute base = true) (path : Path) :
    normalize (join base path) =
      normalize (if isAbsolute path then path else base ++ slash :: path) := by
  by_cases h : isAbsolute path = true
  · rw [if_pos h, join_of_absolute _ h]
  · rw [if_neg h, normalize_join_of_relative hbase (Bool.eq_false_iff.mpr h)]

theorem expand_tilde_slash (rest : Path) (hhome : isAbsolute home = true) :
    expand (tilde :: slash :: rest) currentDir (some home) =
      normalize (if isAbsolute rest then rest else home ++ slash :: rest) := by
  rw [← normalize_join hhome, expand, completeHome_tilde_slash,
    join_of_absolute _ (isAbsolute_join rest hhome)]

theorem expand_tilde (hhome : isAbsolute home = true) :
    expand [tilde] currentDir (some home) = normalize home := by
  rw [expand, completeHome_tilde, join_of_absolute _ hhome]

theorem expand_literal {home : Option Path} (hcurrent : isAbsolute currentDir = true)
    (h : home = none ∨ path ≠ [tilde] ∧ ¬ [tilde, slash] <+: path) :
    expand path currentDir home =
      normalize (if isAbsolute path then path else currentDir ++ slash :: path) := by
  rw [expand, completeHome_of_literal h, normalize_join hcurrent]

/-- A tilde before a separator is replaced by the home directory and by nothing else, if no second
separator follows, and what then follows stays in the home directory unless it leads upwards. Behind
a second separator the path is absolute and the home directory plays no part. A tilde alone is the
home directory, and every other path is taken as it is written, from the current directory unless it
is absolute. -/
theorem tilde_stands_for_home (hcurrent : isAbsolute currentDir = true)
    (hhome : isAbsolute home = true) :
    (∀ rest : Path, isAbsolute rest = false →
      expand (tilde :: slash :: rest) currentDir (some home) = normalize (home ++ slash :: rest) ∧
      (parentPart ∉ split rest →
        expand (tilde :: slash :: rest) currentDir (some home) = normalize home ∨
          IsBelow (normalize home) (expand (tilde :: slash :: rest) currentDir (some home)))) ∧
    (∀ rest : Path, isAbsolute rest = true →
      expand (tilde :: slash :: rest) currentDir (some home) = normalize rest) ∧
    expand [tilde] currentDir (some home) = normalize home ∧
    ∀ (path : Path) (home' : Option Path),
      home' = none ∨ path ≠ [tilde] ∧ ¬ [tilde, slash] <+: path →
      expand path currentDir home' =
        normalize (if isAbsolute path then path else currentDir ++ slash :: path) := by
  refine ⟨fun rest hrest => ?_, fun rest hrest => ?_, expand_tilde hhome,
    fun path home' h => expand_literal hcurrent h⟩
  · have hexpand : expand (tilde :: slash :: rest) currentDir (some home) =
        normalize (home ++ slash :: rest) := by
      rw [expand_tilde_slash rest hhome, hrest]
      rfl
    refine ⟨hexpand, fun hparent => ?_⟩
    have hsteps : parentPart ∉ steps rest := fun h => hparent (List.mem_of_mem_filter h)
    rw [hexpand]
    exact normalize_within hhome hsteps
  · rw [expand_tilde_slash rest hhome, hrest]
    rfl

theorem tilde_stands_for_home_nested :
    isAbsolute (ofText "/w") = true ∧ isAbsolute (ofText "/home/dev/") = true ∧
      parentPart ∉ split (ofText "a/./b") ∧
      expand (ofText "~/a/./b") (ofText "/w") (some (ofText "/home/dev/")) =
        ofText "/home/dev/a/b" ∧
      IsBelow (ofText "/home/dev") (ofText "/home/dev/a/b") ∧
      expand (ofText "~user/x") (ofText "/w") (some (ofText "/home/dev/")) =
        ofText "/w/~user/x" := by
  obtain ⟨hrelative, -, -, hliteral⟩ := @tilde_stands_for_home (ofText "/w") (ofText "/home/dev/")
    (by decide) (by decide)
  have hparent : parentPart ∉ split (ofText "a/./b") := by decide
  obtain ⟨hexpand, hwithin⟩ := hrelative (ofText "a/./b") (by decide)
  have hpath : expand (ofText "~/a/./b") (ofText "/w") (some (ofText "/home/dev/")) =
      ofText "/home/dev/a/b" := by decide
  have hhome : normalize (ofText "/home/dev/") = ofText "/home/dev" := by decide
  have hbelow := (hwithin hparent).resolve_left (by decide)
  rw [hhome] at hbelow
  exact ⟨by decide, by decide, hparent, hpath, hpath ▸ hbelow,
    (hliteral (ofText "~user/x") _ (.inr (by decide))).trans (by decide)⟩

/-- Behind a tilde and two separators stands an absolute path, so that the home directory is
left. -/
theorem tilde_before_two_separators :
    ¬ ∀ currentDir home rest : Path, isAbsolute currentDir = true → isAbsolute home = true →
      expand (tilde :: slash :: rest) currentDir (some home) = normalize (home ++ slash :: rest) := by
  intro h
  have hetc := h (ofText "/work") (ofText "/home/dev") (ofText "/etc") (by decide) (by decide)
  exact absurd hetc (by decide)

end PromptRunner.Path
