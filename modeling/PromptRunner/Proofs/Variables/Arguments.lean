import PromptRunner.Proofs.Template.Tokens
import PromptRunner.Variables.Sources

/-!
# Arguments that bind names

The argument `name=value` binds the name to the value, unless the value refers to a file. Arguments
behind those that are already there are taken into account last, so they add their bindings to what
has been assembled and change nothing else.
-/

namespace PromptRunner

open Template (IsName)

namespace Bindings

theorem binds_insert (b : Bindings) (name value k : String) :
    (b.insert name value).binds k ↔ k = name ∨ b.binds k := by
  unfold binds
  rw [find?_insert]
  split_ifs with h
  · exact ⟨fun _ => .inl h, fun _ => rfl⟩
  · exact ⟨.inr, fun hk => hk.resolve_left h⟩

theorem binds_insertAll (b : Bindings) (pairs : List (String × String)) (k : String) :
    (b.insertAll pairs).binds k ↔ k ∈ pairs.map Prod.fst ∨ b.binds k := by
  induction pairs generalizing b with
  | nil => simp [insertAll]
  | cons e pairs ih =>
    have hstep : b.insertAll (e :: pairs) = (b.insert e.1 e.2).insertAll pairs := rfl
    rw [hstep, ih, binds_insert, List.map_cons, List.mem_cons]
    tauto

end Bindings

namespace Variables

def argumentOf (binding : String × String) : String :=
  binding.1 ++ "=" ++ binding.2

/-- The value is meant as it stands: it does not refer to a file. -/
def IsPlain (value : String) : Prop :=
  value.toList.head? ≠ some '@'

instance (value : String) : Decidable (IsPlain value) :=
  inferInstanceAs (Decidable (_ ≠ _))

/-- The sources with arguments for further bindings behind the arguments that are there. -/
def Sources.withArguments (s : Sources) (given : List (String × String)) : Sources :=
  { s with arguments := s.arguments ++ given.map argumentOf }

variable {fs : FileSystem} {host : Host} {a : Assembled}

/-- An argument is read back as the name and the value that it was made of. The first equals sign
ends the name, since no name holds one; further ones belong to the value. -/
theorem assignment?_argumentOf {name : String} (h : IsName name.toList) (value : String) :
    assignment? (argumentOf (name, value)) = some (name, value.toList) := by
  have htext : (argumentOf (name, value)).toList = name.toList ++ '=' :: value.toList := by
    simp [argumentOf]
  have htake := Template.takeWhile_name h Text.isWord_equals value.toList
  have hdrop := Template.dropWhile_name h Text.isWord_equals value.toList
  obtain ⟨w, ws, hname⟩ := List.exists_cons_of_ne_nil h.1
  simp only [assignment?, htext, htake, hdrop]
  rw [hname]
  simp only
  rw [← hname, String.ofList_toList]

theorem valueOf_of_isPlain {value : String} (h : IsPlain value) (name : String) :
    valueOf fs host name value.toList = .ok value := by
  unfold valueOf
  split
  · rename_i path hpath
    exact (h (by rw [hpath]; rfl)).elim
  · rw [String.ofList_toList]

theorem addArgument_argumentOf {binding : String × String} (hname : IsName binding.1.toList)
    (hvalue : IsPlain binding.2) :
    addArgument fs host a (argumentOf binding) =
      .ok { a with bindings := a.bindings.insert binding.1 binding.2 } := by
  unfold addArgument
  rw [assignment?_argumentOf hname]
  simp only [valueOf_of_isPlain hvalue]

theorem addArguments_append (a : Assembled) (first second : List String) :
    addArguments fs host a (first ++ second) =
      (addArguments fs host a first).bind fun a => addArguments fs host a second := by
  induction first generalizing a with
  | nil => rfl
  | cons argument first ih =>
    rw [List.cons_append, addArguments, addArguments]
    cases addArgument fs host a argument with
    | error f => rfl
    | ok a => exact ih a

theorem addArguments_argumentOf (a : Assembled) {given : List (String × String)}
    (hnames : ∀ g ∈ given, IsName g.1.toList) (hvalues : ∀ g ∈ given, IsPlain g.2) :
    addArguments fs host a (given.map argumentOf) =
      .ok { a with bindings := a.bindings.insertAll given } := by
  induction given generalizing a with
  | nil => rfl
  | cons g given ih =>
    obtain ⟨hname, hnames⟩ := List.forall_mem_cons.mp hnames
    obtain ⟨hvalue, hvalues⟩ := List.forall_mem_cons.mp hvalues
    rw [List.map_cons, addArguments, addArgument_argumentOf hname hvalue]
    exact ih _ hnames hvalues

/-- The sources are assembled up to their last argument before the further arguments are read. -/
theorem Sources.assemble_withArguments {s : Sources} (h : s.assemble fs host = .ok a)
    {given : List (String × String)} (hnames : ∀ g ∈ given, IsName g.1.toList)
    (hvalues : ∀ g ∈ given, IsPlain g.2) :
    (s.withArguments given).assemble fs host =
      .ok { a with bindings := a.bindings.insertAll given } := by
  have hfile : (s.withArguments given).filePairs fs host = s.filePairs fs host := rfl
  have hjson : (s.withArguments given).jsonPairs = s.jsonPairs := rfl
  unfold assemble at h ⊢
  rw [hfile, hjson]
  cases hf : s.filePairs fs host with
  | error f =>
    rw [hf] at h
    exact nomatch h
  | ok fromFile =>
    cases hj : s.jsonPairs with
    | error f =>
      rw [hf, hj] at h
      exact nomatch h
    | ok fromJson =>
      simp only [hf, hj] at h ⊢
      rw [withArguments, addArguments_append, h]
      exact addArguments_argumentOf a hnames hvalues

end Variables

end PromptRunner
