import Mathlib.Data.List.Sort
import Mathlib.Data.String.Basic
import PromptRunner.Json.Value
/-!
# Members of JSON objects

An object may be written with several members of one name. The last of them counts, and the members
that count stand in the order of their names. This determines them: a strictly increasing list is
given by what is in it.
-/

namespace PromptRunner

/-- The last entry of a list that concerns something has a property. -/
def Last {α : Type} (concerns has : α → Prop) (xs : List α) : Prop :=
  ∃ before x after, xs = before ++ x :: after ∧ has x ∧ ∀ y ∈ after, ¬ concerns y

section

variable {α : Type} {concerns has : α → Prop} {x : α} {xs : List α}

theorem not_last_nil : ¬ Last concerns has [] := by
  rintro ⟨before, x, after, h, -, -⟩
  exact List.append_ne_nil_of_right_ne_nil before (List.cons_ne_nil x after) h.symm

theorem last_cons :
    Last concerns has (x :: xs) ↔ Last concerns has xs ∨ (∀ y ∈ xs, ¬ concerns y) ∧ has x := by
  constructor
  · rintro ⟨before, y, after, h, hy, hafter⟩
    cases before with
    | nil =>
      obtain ⟨rfl, rfl⟩ := List.cons.inj h
      exact .inr ⟨hafter, hy⟩
    | cons b before =>
      obtain ⟨rfl, rfl⟩ := List.cons.inj h
      exact .inl ⟨before, y, after, rfl, hy, hafter⟩
  · rintro (⟨before, y, after, rfl, hy, hafter⟩ | ⟨hxs, hx⟩)
    · exact ⟨x :: before, y, after, rfl, hy, hafter⟩
    · exact ⟨[], x, xs, rfl, hx, hxs⟩

end

/-- What comes from later entries, or else from one entry, or else from before it. -/
theorem later_or_earlier {later lacking here other before : Prop} :
    later ∨ lacking ∧ (here ∨ other ∧ before) ↔
      (later ∨ lacking ∧ here) ∨ (other ∧ lacking) ∧ before := by
  rw [and_or_left, ← or_assoc, and_left_comm, ← and_assoc]

namespace Json

/-- The members that count of those that are written: of each name the last, in the order of
names. -/
structure Counts (written members : List (String × Value)) : Prop where
  last : ∀ m, m ∈ members ↔ Last (fun w => w.1 = m.1) (fun w => w = m) written
  increasing : members.Pairwise fun m m' => m.1 < m'.1

variable {written members members' : List (String × Value)} {name : String} {v : Value}
  {m : String × Value}

theorem mem_insertMember (h : members.Pairwise fun m m' => m.1 < m'.1) :
    m ∈ insertMember name v members ↔ (name, v) = m ∨ ¬ name = m.1 ∧ m ∈ members := by
  induction members with
  | nil => simp [insertMember, eq_comm]
  | cons e members ih =>
    obtain ⟨hfirst, hrest⟩ := List.pairwise_cons.mp h
    have hbehind (hle : name ≤ e.1) (hm : m ∈ members) : ¬ name = m.1 := by
      rintro rfl
      exact absurd (hfirst m hm) (not_lt.mpr hle)
    rw [insertMember]
    split_ifs with hless hsame
    · have hother (hm : m = e ∨ m ∈ members) : ¬ name = m.1 :=
        hm.elim (fun hm => hm ▸ hless.ne) (hbehind hless.le)
      rw [List.mem_cons, List.mem_cons, and_iff_right_of_imp hother, eq_comm]
    · have hreplaced : ¬ (¬ name = m.1 ∧ m = e) := fun ⟨hne, hm⟩ => hne (hm ▸ hsame)
      rw [List.mem_cons, List.mem_cons, and_or_left, or_iff_right hreplaced,
        and_iff_right_of_imp (hbehind hsame.le), eq_comm]
    · have hother (hm : m = e) : ¬ name = m.1 := hm ▸ hsame
      rw [List.mem_cons, List.mem_cons, ih hrest, or_left_comm, and_or_left,
        and_iff_right_of_imp hother]

theorem pairwise_insertMember (h : members.Pairwise fun m m' => m.1 < m'.1) :
    (insertMember name v members).Pairwise fun m m' => m.1 < m'.1 := by
  induction members with
  | nil => exact List.pairwise_singleton _ _
  | cons e members ih =>
    obtain ⟨hfirst, hrest⟩ := List.pairwise_cons.mp h
    rw [insertMember]
    split_ifs with hless hsame
    · exact List.pairwise_cons.mpr
        ⟨List.forall_mem_cons.mpr ⟨hless, fun m hm => hless.trans (hfirst m hm)⟩, h⟩
    · exact List.pairwise_cons.mpr ⟨fun m hm => hsame ▸ hfirst m hm, hrest⟩
    · refine List.pairwise_cons.mpr ⟨fun m hm => ?_, ih hrest⟩
      rcases (mem_insertMember hrest).mp hm with rfl | ⟨-, hm⟩
      · exact lt_of_le_of_ne (not_lt.mp hless) fun hname => hsame hname.symm
      · exact hfirst m hm

/-- Written members one after another: what was there stays unless a later one has its name. -/
theorem mem_foldl_insertMember (h : members.Pairwise fun m m' => m.1 < m'.1) :
    (m ∈ written.foldl (fun ms w => insertMember w.1 w.2 ms) members ↔
      Last (fun w => w.1 = m.1) (fun w => w = m) written ∨
        (∀ w ∈ written, ¬ w.1 = m.1) ∧ m ∈ members) ∧
    (written.foldl (fun ms w => insertMember w.1 w.2 ms) members).Pairwise
      fun m m' => m.1 < m'.1 := by
  induction written generalizing members with
  | nil =>
    have hlast : ¬ Last (fun w => w.1 = m.1) (fun w => w = m) [] := not_last_nil
    have hnone : ∀ w ∈ ([] : List (String × Value)), ¬ w.1 = m.1 := nofun
    exact ⟨by rw [List.foldl_nil]; tauto, h⟩
  | cons w written ih =>
    obtain ⟨hmem, hincreasing⟩ := ih (pairwise_insertMember h)
    refine ⟨?_, hincreasing⟩
    rw [List.foldl_cons, hmem, mem_insertMember h, last_cons, List.forall_mem_cons]
    exact later_or_earlier

theorem counts_countedMembers (written : List (String × Value)) :
    Counts written (countedMembers written) := by
  refine ⟨fun m => ?_, (mem_foldl_insertMember (m := ("", .null)) List.Pairwise.nil).2⟩
  rw [countedMembers, (mem_foldl_insertMember List.Pairwise.nil).1]
  simp

theorem Counts.unique (h : Counts written members) (h' : Counts written members') :
    members = members' := by
  have hirrefl (m : String × Value) : ¬ m.1 < m.1 := lt_irrefl m.1
  have hnodup {ms : List (String × Value)} (hms : ms.Pairwise fun m m' => m.1 < m'.1) : ms.Nodup :=
    hms.imp fun hless => fun hsame => hless.ne (congrArg Prod.fst hsame)
  refine List.Perm.eq_of_pairwise (fun m m' _ _ hless hless' => absurd (hless.trans hless') (hirrefl m))
    h.increasing h'.increasing ?_
  refine (List.perm_ext_iff_of_nodup (hnodup h.increasing) (hnodup h'.increasing)).mpr fun m => ?_
  rw [h.last, h'.last]

theorem countedMembers_eq_iff : countedMembers written = members ↔ Counts written members :=
  ⟨fun h => h ▸ counts_countedMembers written, fun h => (counts_countedMembers written).unique h⟩

end Json

end PromptRunner
