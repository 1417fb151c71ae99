import PromptRunner.FileSystem
import PromptRunner.Proofs.Path

/-!
# Canonical paths

A normalized path is written with names alone: taking its steps one after the other keeps a trail of
names, and splitting the written trail gives the names back. A path that is completed with an
absolute directory is absolute, so what it expands to says by itself which place is meant.
-/

namespace PromptRunner

namespace Text

variable {α : Type} [DecidableEq α]

theorem not_mem_of_mem_splitAt {separator : α} {cs p : List α} (h : p ∈ splitAt separator cs) :
    separator ∉ p :=
  fun hmem => (mem_of_mem_splitAt h hmem).2 rfl

theorem splitAt_intercalate {separator : α} {ps : List (List α)} (hne : ps ≠ [])
    (h : ∀ p ∈ ps, separator ∉ p) : splitAt separator ([separator].intercalate ps) = ps := by
  induction ps with
  | nil => exact absurd rfl hne
  | cons p ps ih =>
    have hp : separator ∉ p := h p List.mem_cons_self
    cases ps with
    | nil => rw [List.intercalate_singleton, splitAt_of_not_mem hp]
    | cons q qs =>
      have hrest := ih (List.cons_ne_nil q qs) fun r hr => h r (List.mem_cons_of_mem p hr)
      rw [List.intercalate_cons_cons, List.append_assoc, List.singleton_append,
        splitAt_append_cons, splitAt_of_not_mem hp, hrest]
      rfl

end Text

namespace Path

/-- An absolute path that takes no step to the directory itself or to the one above. No part behind
the leading separator is empty, unless the path is that of the root. -/
structure IsCanonical (path : Path) : Prop where
  absolute : isAbsolute path = true
  noSelf : selfPart ∉ split path
  noParent : parentPart ∉ split path
  noEmpty : path = [slash] ∨ [] ∉ (split path).tail

/-- A step leaves a trail of names a trail of names. -/
theorem walk_names {trail : List Part} {p : Part} (htrail : ∀ q ∈ trail, isFileName q = true)
    (hstep : isStep p = true) (hslash : slash ∉ p) : ∀ q ∈ walk trail p, isFileName q = true := by
  unfold walk
  split
  · intro q hq
    exact htrail q (List.mem_of_mem_tail hq)
  · rename_i hparent
    have hp : isFileName p = true := by simp [isFileName, hstep, hparent, hslash]
    exact List.forall_mem_cons.mpr ⟨hp, htrail⟩

theorem foldl_walk_names {ps trail : List Part} (htrail : ∀ q ∈ trail, isFileName q = true)
    (hps : ∀ p ∈ ps, isStep p = true ∧ slash ∉ p) :
    ∀ q ∈ ps.foldl walk trail, isFileName q = true := by
  induction ps generalizing trail with
  | nil => exact htrail
  | cons p ps ih =>
    obtain ⟨⟨hstep, hslash⟩, hrest⟩ := List.forall_mem_cons.mp hps
    exact ih (walk_names htrail hstep hslash) hrest

theorem resolve_names (path : Path) : ∀ p ∈ resolve (steps path), isFileName p = true := by
  have hsteps : ∀ p ∈ steps path, isStep p = true ∧ slash ∉ p := by
    intro p hp
    have hmem := List.mem_filter.mp hp
    exact ⟨hmem.2, Text.not_mem_of_mem_splitAt hmem.1⟩
  have htrail := foldl_walk_names (List.forall_mem_nil _) hsteps
  intro p hp
  exact htrail p (List.mem_reverse.mp hp)

theorem split_intercalate {ps : List Part} (hne : ps ≠ []) (h : ∀ p ∈ ps, isFileName p = true) :
    split ([slash].intercalate ps) = ps :=
  Text.splitAt_intercalate hne fun p hp => (isFileName_iff.mp (h p hp)).2.2.2

theorem split_render {ps : List Part} (hne : ps ≠ []) (h : ∀ p ∈ ps, isFileName p = true) :
    split (render true ps) = [] :: ps := by
  calc
    split (render true ps) = split [] ++ split ([slash].intercalate ps) :=
      Text.splitAt_append_cons slash [] _
    _ = [] :: ps := by rw [split_intercalate hne h]; rfl

theorem isCanonical_render {ps : List Part} (h : ∀ p ∈ ps, isFileName p = true) :
    IsCanonical (render true ps) := by
  by_cases hne : ps = []
  · subst hne
    exact ⟨rfl, by decide, by decide, .inl rfl⟩
  · have hsplit := split_render hne h
    refine ⟨rfl, ?_, ?_, .inr ?_⟩
    · intro hmem
      rw [hsplit] at hmem
      have hself : selfPart ∈ ps := (List.mem_cons.mp hmem).resolve_left (by decide)
      exact (isFileName_iff.mp (h _ hself)).2.1 rfl
    · intro hmem
      rw [hsplit] at hmem
      have hparent : parentPart ∈ ps := (List.mem_cons.mp hmem).resolve_left (by decide)
      exact (isFileName_iff.mp (h _ hparent)).2.2.1 rfl
    · intro hmem
      rw [hsplit] at hmem
      exact (isFileName_iff.mp (h [] hmem)).1 rfl

theorem isCanonical_normalize {path : Path} (h : isAbsolute path = true) :
    IsCanonical (normalize path) := by
  rw [normalize, h]
  exact isCanonical_render (resolve_names path)

theorem isAbsolute_join {base : Path} (path : Path) (h : isAbsolute base = true) :
    isAbsolute (join base path) = true := by
  by_cases hpath : isAbsolute path = true
  · rw [join_of_absolute _ hpath]
    exact hpath
  · rw [isAbsolute_join_of_relative base (Bool.eq_false_iff.mpr hpath), h]

theorem isCanonical_expand (path : Path) {currentDir : Path} (home : Option Path)
    (hcurrent : isAbsolute currentDir = true) : IsCanonical (expand path currentDir home) :=
  isCanonical_normalize (isAbsolute_join _ hcurrent)

end Path

end PromptRunner
