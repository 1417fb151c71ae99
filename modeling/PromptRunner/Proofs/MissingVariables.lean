import PromptRunner.Proofs.Preparation
import PromptRunner.Proofs.Prompt.Leaves
import PromptRunner.Proofs.Variables.Arguments

/-!
# Arguments for missing variables

A failure for missing variables names the arguments that would bind them. The names are those of
tokens, so an argument for each of them is understood, and the arguments together leave nothing
unbound. One that is left out leaves exactly its own name unbound.
-/

namespace PromptRunner.Invocation

open Template (IsName)
open Variables (Assembled IsPlain Sources argumentOf)

variable {p : Prompt} {b : Bindings} {names : List String} {given : List (String × String)}

theorem missingNames_insertAll (p : Prompt) (b : Bindings) (given : List (String × String)) :
    missingNames p (b.insertAll given) =
      (missingNames p b).filter fun name => name ∉ given.map Prod.fst := by
  unfold missingNames
  rw [List.filter_filter]
  refine List.filter_congr fun name _ => ?_
  rw [Bool.eq_iff_iff, Bool.not_eq_true', Bool.and_eq_true, Bool.not_eq_true', ← Bool.not_eq_true,
    ← Bool.not_eq_true, Bindings.binds_insertAll, decide_eq_true_iff, not_or]

theorem isName_of_missing (h : missingNames p b = names) {name : String} (hm : name ∈ names) :
    IsName name.toList := by
  rw [← h, mem_missingNames] at hm
  exact Body.isName_of_mem_names hm.1

/-- Bindings for all missing names leave none of them missing. -/
theorem missingNames_of_perm (h : missingNames p b = names)
    (hnames : (given.map Prod.fst).Perm names) : missingNames p (b.insertAll given) = [] := by
  rw [missingNames_insertAll, h, List.filter_eq_nil_iff]
  intro name hm
  rw [decide_eq_true_iff, not_not]
  exact hnames.mem_iff.mpr hm

/-- Bindings for all missing names but one leave this one missing. -/
theorem missingNames_of_perm_cons (h : missingNames p b = names) {name : String}
    (hnames : (name :: given.map Prod.fst).Perm names) :
    missingNames p (b.insertAll given) = [name] := by
  have hincreasing : names.Pairwise (· < ·) := h ▸ pairwise_missingNames p b
  have hnodup : (name :: given.map Prod.fst).Nodup :=
    hnames.nodup_iff.mpr (hincreasing.imp fun hlt => hlt.ne)
  rw [missingNames_insertAll, h]
  refine (hincreasing.filter _).eq_of_mem_iff (List.pairwise_singleton _ _) fun other => ?_
  rw [List.mem_filter, decide_eq_true_iff, List.mem_singleton, ← hnames.mem_iff, List.mem_cons]
  constructor
  · rintro ⟨hother | hother, hout⟩
    · exact hother
    · exact (hout hother).elim
  · rintro rfl
    exact ⟨.inl rfl, (List.nodup_cons.mp hnodup).1⟩

theorem message_missingVariables (names : List String) :
    ∃ opening, (Failure.missingVariables names).message = opening ++
      Text.separated "" (names.map fun name => "\n  " ++ argumentOf (name, "<value>")) := by
  have hline : ∀ name : String,
      "\n  " ++ name ++ "=<value>" = "\n  " ++ argumentOf (name, "<value>") := by
    intro name
    have hvalue : "=" ++ "<value>" = "=<value>" := by decide
    rw [argumentOf, ← hvalue]
    simp only [String.append_assoc]
  refine ⟨"missing required variables: " ++ Text.separated ", " names ++ "\n\nProvide them as:", ?_⟩
  rw [← List.map_congr_left fun name _ => hline name]
  unfold Failure.message
  with_reducible rfl

/-- The message for missing variables shows an argument for each of them. These arguments are
enough, in any order and with any values that do not refer to a file: with them the sources are
assembled without a further warning and nothing is missing. None of them is needless: without it its
own name is missing, and no other. -/
theorem arguments_for_missing_names (p : Prompt) (fs : FileSystem) (host : Host) (s : Sources)
    (a : Assembled) (names : List String) (given : List (String × String))
    (hassembled : s.assemble fs host = .ok a)
    (hcheck : checkVariables p a.bindings = .error (.missingVariables names))
    (hnames : (given.map Prod.fst).Perm names) (hvalues : ∀ g ∈ given, IsPlain g.2) :
    (∃ opening, (Failure.missingVariables names).message = opening ++
      Text.separated "" (names.map fun name => "\n  " ++ argumentOf (name, "<value>"))) ∧
    (∃ a', (s.withArguments given).assemble fs host = .ok a' ∧ a'.warnings = a.warnings ∧
      checkVariables p a'.bindings = .ok ()) ∧
    ∀ before g after, given = before ++ g :: after →
      ∃ a', (s.withArguments (before ++ after)).assemble fs host = .ok a' ∧
        a'.warnings = a.warnings ∧
        checkVariables p a'.bindings = .error (.missingVariables [g.1]) := by
  obtain ⟨-, hmissing⟩ := checkVariables_error_iff.mp hcheck
  have hwords : ∀ g ∈ given, IsName g.1.toList := fun g hg =>
    isName_of_missing hmissing (hnames.mem_iff.mp (List.mem_map_of_mem hg))
  refine ⟨message_missingVariables names, ?_, ?_⟩
  · refine ⟨_, Sources.assemble_withArguments hassembled hwords hvalues, rfl, ?_⟩
    exact checkVariables_ok_iff.mpr (missingNames_of_perm hmissing hnames)
  · rintro before g after rfl
    have hkept : ∀ e ∈ before ++ after, e ∈ before ++ g :: after := fun e he =>
      List.perm_middle.mem_iff.mpr (List.mem_cons_of_mem g he)
    refine ⟨_, Sources.assemble_withArguments hassembled (fun e he => hwords e (hkept e he))
      (fun e he => hvalues e (hkept e he)), rfl, ?_⟩
    refine checkVariables_error_iff.mpr ⟨List.cons_ne_nil _ _, ?_⟩
    have hfirst : (g.1 :: (before ++ after).map Prod.fst).Perm names :=
      ((List.perm_middle.map Prod.fst).symm.trans hnames)
    exact missingNames_of_perm_cons hmissing hfirst

/-- A text with two variables, sources that bind neither and hold an argument that is left out, and
arguments for both in another order, one of them with an equals sign and an at sign in its value. -/
theorem arguments_for_two_missing_names :
    (∃ a', (Sources.withArguments { arguments := ["c=1", "c"] } [("b", "=@"), ("a", "")]).assemble
        .empty { currentDir := .error .missing } = .ok a' ∧
      a'.warnings = [.argumentIgnored "c"] ∧
      checkVariables ⟨.empty, .flat "\x7b\x7bb\x7d\x7d\x7b\x7ba\x7d\x7d", []⟩ a'.bindings = .ok ()) ∧
    ∃ a', (Sources.withArguments { arguments := ["c=1", "c"] } [("b", "=@")]).assemble
        .empty { currentDir := .error .missing } = .ok a' ∧
      checkVariables ⟨.empty, .flat "\x7b\x7bb\x7d\x7d\x7b\x7ba\x7d\x7d", []⟩ a'.bindings =
        .error (.missingVariables ["a"]) := by
  obtain ⟨-, henough, hneeded⟩ := arguments_for_missing_names
    ⟨.empty, .flat "\x7b\x7bb\x7d\x7d\x7b\x7ba\x7d\x7d", []⟩ .empty { currentDir := .error .missing }
    { arguments := ["c=1", "c"] } ⟨.ofList [("c", "1")], [.argumentIgnored "c"]⟩ ["a", "b"]
    [("b", "=@"), ("a", "")] (by rfl) (by rfl) (List.Perm.swap _ _ _) (by decide)
  obtain ⟨a', hassembled, -, hcheck⟩ := hneeded [("b", "=@")] ("a", "") [] rfl
  exact ⟨henough, a', hassembled, hcheck⟩

end PromptRunner.Invocation
