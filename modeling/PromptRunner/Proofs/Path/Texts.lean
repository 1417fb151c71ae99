import PromptRunner.Proofs.Bytes
import PromptRunner.Proofs.Host
import PromptRunner.Proofs.Results

/-!
# Paths that are texts

A text is cut at an ASCII character into texts. Hence the parts of a path that is a text are texts,
and a host whose directories are texts completes every path to one. Such a path is shown as it is.
-/

namespace PromptRunner

namespace Text

/-- An ASCII byte among the bytes of characters is that of a character, between the bytes of
others. -/
theorem cut_bytes {c : Char} (hc : c.toNat < 0x80) {cs : List Char} {front back : List UInt8}
    (h : cs.flatMap String.utf8EncodeChar = front ++ UInt8.ofNat c.toNat :: back) :
    ∃ before behind : List Char, before.flatMap String.utf8EncodeChar = front ∧
      behind.flatMap String.utf8EncodeChar = back := by
  induction cs generalizing front with
  | nil => exact absurd h.symm (by simp)
  | cons d cs ih =>
    rw [List.flatMap_cons] at h
    obtain ⟨rest, hfront, hrest⟩ | ⟨rest, hchar, hback⟩ := List.append_eq_append_iff.mp h
    · obtain ⟨before, behind, hbefore, hbehind⟩ := ih hrest
      exact ⟨d :: before, behind, by rw [List.flatMap_cons, hbefore, hfront], hbehind⟩
    · cases rest with
      | nil =>
        have hcs : cs.flatMap String.utf8EncodeChar = [] ++ UInt8.ofNat c.toNat :: back := hback.symm
        obtain ⟨before, behind, hbefore, hbehind⟩ := ih hcs
        refine ⟨d :: before, behind, ?_, hbehind⟩
        rw [List.flatMap_cons, hbefore, hchar, List.append_nil, List.append_nil]
      | cons b rest =>
        obtain ⟨rfl, rfl⟩ := List.cons_eq_cons.mp hback
        have hd : d.toNat < 0x80 := by
          by_contra hlarge
          have hmem : UInt8.ofNat c.toNat ∈ String.utf8EncodeChar d := by rw [hchar]; simp
          have hle := le_of_mem_utf8EncodeChar hlarge hmem
          rw [toNat_byte (by omega)] at hle
          omega
        have hlength := congrArg List.length hchar
        rw [utf8EncodeChar_ascii hd] at hlength
        simp only [List.length_append, List.length_cons, List.length_nil] at hlength
        obtain rfl : front = [] := List.length_eq_zero_iff.mp (by omega)
        obtain rfl : rest = [] := List.length_eq_zero_iff.mp (by omega)
        exact ⟨[], cs, rfl, rfl⟩

end Text

namespace Path

def IsText (path : Path) : Prop :=
  ∃ s, path = ofText s

theorem isText_ofText (s : String) : IsText (ofText s) :=
  ⟨s, rfl⟩

theorem ofText_shown_iff {path : Path} : ofText (shown path) = path ↔ IsText path := by
  constructor
  · exact fun h => ⟨shown path, h.symm⟩
  · rintro ⟨s, rfl⟩
    exact congrArg ofText (Text.ofBytes_bytes s)

theorem map_ofText_shown {paths : List Path} (h : ∀ path ∈ paths, IsText path) :
    (paths.map shown).map ofText = paths := by
  rw [List.map_map]
  exact (List.map_congr_left fun path hpath => ofText_shown_iff.mpr (h path hpath)).trans
    (List.map_id paths)

theorem IsText.append {front back : Path} (hfront : IsText front) (hback : IsText back) :
    IsText (front ++ back) := by
  obtain ⟨s, rfl⟩ := hfront
  obtain ⟨t, rfl⟩ := hback
  exact ⟨s ++ t, (ofText_append s t).symm⟩

theorem isText_slash : IsText [slash] :=
  ⟨"/", rfl⟩

theorem IsText.cut {front back : Path} (h : IsText (front ++ slash :: back)) :
    IsText front ∧ IsText back := by
  obtain ⟨s, hs⟩ := h
  obtain ⟨before, behind, rfl, rfl⟩ := Text.cut_bytes (c := '/') (by decide) hs.symm
  exact ⟨⟨String.ofList before, by simp [Text.bytes]⟩, ⟨String.ofList behind, by simp [Text.bytes]⟩⟩

theorem isText_of_mem_split {path : Path} (h : IsText path) {part : Part} (hpart : part ∈ split path) :
    IsText part := by
  obtain ⟨parts, hparts⟩ : ∃ parts, parts = split path := ⟨_, rfl⟩
  have hpath : path = [slash].intercalate parts := by
    rw [hparts]
    exact (Text.intercalate_splitAt slash path).symm
  rw [← hparts] at hpart
  subst hpath
  clear hparts
  induction parts with
  | nil => exact nomatch hpart
  | cons first rest ih =>
    cases rest with
    | nil =>
      obtain rfl := List.mem_singleton.mp hpart
      rwa [List.intercalate_singleton] at h
    | cons second rest =>
      rw [List.intercalate_cons_cons, List.append_assoc, List.singleton_append] at h
      rcases List.mem_cons.mp hpart with rfl | hrest
      · exact h.cut.1
      · exact ih hrest h.cut.2

theorem isText_intercalate {parts : List Part} (h : ∀ part ∈ parts, IsText part) :
    IsText ([slash].intercalate parts) := by
  induction parts with
  | nil => exact isText_ofText ""
  | cons first rest ih =>
    obtain ⟨hfirst, hrest⟩ := List.forall_mem_cons.mp h
    cases rest with
    | nil => rwa [List.intercalate_singleton]
    | cons second rest =>
      rw [List.intercalate_cons_cons]
      exact (hfirst.append isText_slash).append (ih hrest)

theorem mem_of_mem_foldl_walk {parts trail : List Part} {part : Part}
    (h : part ∈ parts.foldl walk trail) : part ∈ trail ∨ part ∈ parts := by
  induction parts generalizing trail with
  | nil => exact .inl h
  | cons first parts ih =>
    rcases ih h with hwalk | hparts
    · unfold walk at hwalk
      split_ifs at hwalk
      · exact .inl (List.mem_of_mem_tail hwalk)
      · rcases List.mem_cons.mp hwalk with rfl | htrail
        · exact .inr List.mem_cons_self
        · exact .inl htrail
    · exact .inr (List.mem_cons_of_mem first hparts)

theorem isText_normalize {path : Path} (h : IsText path) : IsText (normalize path) := by
  have hparts : ∀ part ∈ resolve (steps path), IsText part := by
    intro part hpart
    have hmem := (mem_of_mem_foldl_walk (List.mem_reverse.mp hpart)).resolve_left List.not_mem_nil
    exact isText_of_mem_split h (List.mem_filter.mp hmem).1
  unfold normalize render
  split_ifs
  · exact isText_slash.append (isText_intercalate hparts)
  · exact isText_intercalate hparts

theorem isText_join {base path : Path} (hbase : IsText base) (hpath : IsText path) :
    IsText (join base path) := by
  unfold join
  split_ifs
  · exact hpath
  · exact hbase.append hpath
  · exact hbase.append (isText_slash.append hpath)

/-- A relative path is a text if a directory is joined with it to a text. -/
theorem IsText.of_join {base path : Path} (hrelative : isAbsolute path = false)
    (h : IsText (join base path)) : IsText path := by
  rcases join_of_relative base hrelative with ⟨hjoin, rfl | ⟨front, rfl⟩⟩ | hjoin
  · rwa [hjoin, List.nil_append] at h
  · rw [hjoin, List.append_assoc, List.singleton_append] at h
    exact h.cut.2
  · rw [hjoin] at h
    exact h.cut.2

theorem isText_completeHome {home : Option Path} {path : Path} (hhome : ∀ dir ∈ home, IsText dir)
    (hpath : IsText path) : IsText (completeHome home path) := by
  unfold completeHome
  split
  · exact hpath
  · rename_i dir
    split_ifs with _ htilde
    · exact hhome dir rfl
    · obtain ⟨rest, rfl⟩ := List.isPrefixOf_iff_prefix.mp htilde
      have hcut : IsText ([tilde] ++ slash :: rest) := hpath
      exact isText_join (hhome dir rfl) hcut.cut.2
    · exact hpath

end Path

/-- The directories from which a host completes paths are texts. -/
structure Host.HasTexts (host : Host) : Prop where
  currentDir : ∀ dir, host.currentDir = .ok dir → Path.IsText dir
  home : ∀ dir ∈ host.home, Path.IsText dir

theorem Host.HasTexts.expand {host : Host} (h : host.HasTexts) {path : String} {result : Path}
    (hexpand : host.expand path = .ok result) : Path.IsText result := by
  obtain ⟨dir, hdir, rfl⟩ := expand_eq_ok_iff.mp hexpand
  exact Path.isText_normalize (Path.isText_join (h.currentDir dir hdir)
    (Path.isText_completeHome h.home (Path.isText_ofText path)))

theorem Host.HasTexts.isText_of_mem {host : Host} (h : host.HasTexts) {dirs : List String}
    {paths : List Path} (hpaths : List.Forall₂ (fun dir path => host.expand dir = .ok path) dirs paths) :
    ∀ path ∈ paths, Path.IsText path := by
  intro path hpath
  obtain ⟨dir, -, hexpand⟩ := List.Forall₂.exists_of_mem_right hpaths hpath
  exact h.expand hexpand

end PromptRunner
