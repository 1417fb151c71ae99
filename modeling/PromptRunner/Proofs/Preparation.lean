import PromptRunner.Invocation
import PromptRunner.Proofs.NameSet
import PromptRunner.Proofs.Requirements

/-!
# What a preparation comes to

A prompt is prepared in a fixed order: variables first, then commands, environment and directories.
The first of the four with something missing decides the failure, and it names all that is missing
of it. Otherwise the filled text stands in the command line right behind the option that carries it.
-/

namespace PromptRunner

/-- What a prompt declares of the machine. One without requirements declares nothing. -/
def Prompt.declared (p : Prompt) : Requirements :=
  p.metadata.requirements.getD .empty

namespace Invocation

def promptOption : String := "-p"

theorem pairwise_missingNames (p : Prompt) (b : Bindings) :
    (missingNames p b).Pairwise (· < ·) :=
  (Text.pairwise_nameSet p.body.tokens).filter _

theorem mem_missingNames {p : Prompt} {b : Bindings} {name : String} :
    name ∈ missingNames p b ↔ name ∈ p.names ∧ b.find? name = none := by
  unfold missingNames Bindings.binds
  rw [List.mem_filter, Bool.not_eq_true', Option.isSome_eq_false_iff, Option.isNone_iff_eq_none]

theorem checkVariables_eq (p : Prompt) (b : Bindings) :
    checkVariables p b =
      if missingNames p b ≠ [] then .error (.missingVariables (missingNames p b)) else .ok () := by
  unfold checkVariables
  cases missingNames p b <;> rfl

theorem checkVariables_ok_iff {p : Prompt} {b : Bindings} :
    checkVariables p b = .ok () ↔ missingNames p b = [] := by
  rw [checkVariables_eq]
  split_ifs with h
  · exact ⟨nofun, fun hnone => (h hnone).elim⟩
  · exact ⟨fun _ => not_not.mp h, fun _ => rfl⟩

theorem checkVariables_error_iff {p : Prompt} {b : Bindings} {names : List String} :
    checkVariables p b = .error (.missingVariables names) ↔
      names ≠ [] ∧ missingNames p b = names := by
  rw [checkVariables_eq]
  split_ifs with h
  · constructor
    · rintro ⟨⟩
      exact ⟨h, rfl⟩
    · rintro ⟨-, rfl⟩
      rfl
  · exact ⟨nofun, fun ⟨hne, hnames⟩ => (h (hnames ▸ hne)).elim⟩

theorem checkRequirements_eq (p : Prompt) (fs : FileSystem) (host : Host) :
    checkRequirements p fs host = p.declared.check fs host := by
  unfold checkRequirements Prompt.declared
  cases p.metadata.requirements with
  | none => exact (Requirements.check_empty fs host).symm
  | some r => rfl

theorem argv_of_build {text : String} {model : Option String} {requirements : Option Requirements}
    {settings : InvocationSettings} {host : Host} {argv : List String}
    (h : build text model requirements settings host = .ok argv) :
    ∃ rest, argv = settings.program ++ promptOption :: text :: rest := by
  obtain ⟨arguments, -, rfl⟩ := Except.map_eq_ok_iff.mp h
  refine ⟨(if settings.verbose then verboseOptions else []) ++ modelArguments model ++ arguments, ?_⟩
  simp only [promptOption, List.append_assoc, List.cons_append, List.nil_append]

theorem build_ok {host : Host} {dir : Path} (hdir : host.currentDir = .ok dir) (text : String)
    (model : Option String) (requirements : Option Requirements) (settings : InvocationSettings) :
    ∃ argv, build text model requirements settings host = .ok argv := by
  have harguments : ∃ arguments, requirementArguments requirements settings host = .ok arguments := by
    cases requirements with
    | none => exact ⟨[], rfl⟩
    | some r =>
      obtain ⟨paths, hpaths⟩ : ∃ paths, r.directories.mapM host.expand = .ok paths :=
        Except.mapM_ok fun entry _ => ⟨_, Host.expand_of_ok hdir entry⟩
      exact ⟨_, by rw [requirementArguments, directoryArguments, hpaths]; rfl⟩
  obtain ⟨arguments, harguments⟩ := harguments
  exact ⟨_, by rw [build, harguments]; rfl⟩

theorem prepare_ok {p : Prompt} {b : Bindings} {settings : InvocationSettings} {fs : FileSystem}
    {host : Host} {i : Invocation} (h : prepare p b settings fs host = .ok i) :
    checkVariables p b = .ok () ∧ p.declared.check fs host = .ok () ∧
      i.text = textOf p b ∧
      build (textOf p b) p.metadata.model p.metadata.requirements settings host = .ok i.argv := by
  rw [prepare] at h
  split at h
  · exact nomatch h
  · rename_i hvariables
    split at h
    · exact nomatch h
    · rename_i hrequirements
      rw [checkRequirements_eq] at hrequirements
      obtain ⟨argv, hargv, rfl⟩ := Except.map_eq_ok_iff.mp h
      exact ⟨hvariables, hrequirements, rfl, hargv⟩

/-- A preparation has one of five results. Unbound names decide first, in increasing order and each
once; then the failing entries of commands, environment and directories, as they are declared; and
if nothing is missing, the filled text is carried unchanged by the command line. -/
theorem prepare_verdict (p : Prompt) (b : Bindings) (settings : InvocationSettings)
    (fs : FileSystem) (host : Host) (dir : Path) (hdir : host.currentDir = .ok dir) :
    ∃ unbound commands environment directories rest : List String,
      (unbound.Pairwise (· < ·) ∧
        ∀ name, name ∈ unbound ↔ name ∈ p.names ∧ b.find? name = none) ∧
      Requirements.Failing (Requirements.CommandFound fs host) p.declared.commands commands ∧
      Requirements.Failing (fun name => ∃ value, host.valueOf? name = some value)
        p.declared.environment environment ∧
      Requirements.Failing (Requirements.DirectoryFound fs host) p.declared.directories
        directories ∧
      prepare p b settings fs host =
        if unbound ≠ [] then .error (.missingVariables unbound)
        else if commands ≠ [] then .error (.unsatisfied .commands commands)
        else if environment ≠ [] then .error (.unsatisfied .environment environment)
        else if directories ≠ [] then .error (.unsatisfied .directories directories)
        else .ok {
          text := (p.body.fill b.find?).toText
          argv := settings.program ++ promptOption :: (p.body.fill b.find?).toText :: rest } := by
  obtain ⟨commands, directories, hcommands, hdirectories, hcheck⟩ :=
    Requirements.check_eq hdir p.declared fs
  obtain ⟨argv, hargv⟩ := build_ok hdir (p.body.fill b.find?).toText p.metadata.model
    p.metadata.requirements settings
  obtain ⟨rest, rfl⟩ := argv_of_build hargv
  refine ⟨missingNames p b, commands, p.declared.missingEnvironment host, directories, rest,
    ⟨pairwise_missingNames p b, fun _ => mem_missingNames⟩,
    Requirements.missingCommands_failing hcommands, p.declared.missingEnvironment_failing host,
    Requirements.missingDirectories_failing hdirectories, ?_⟩
  simp only [prepare, checkVariables_eq, checkRequirements_eq, hcheck, textOf, hargv]
  split_ifs <;> rfl

/-- A prompt that wants a program twice and a directory that is not there. -/
def absentPrompt : Prompt where
  metadata := { requirements := some { commands := ["git", "./run", "git"], directories := ["~"] } }
  body := .flat ""

def absentHost : Host where
  currentDir := .ok (Path.ofText "/w")
  searchPath := [Path.ofText "/b"]

theorem verdict_of_absent :
    absentHost.currentDir = .ok (Path.ofText "/w") ∧
      prepare absentPrompt .empty ⟨["tool"], false, []⟩ .empty absentHost =
        .error (.unsatisfied .commands ["git", "./run", "git"]) := by
  obtain ⟨unbound, commands, _, _, _, ⟨-, hunbound⟩, hcommands, -, -, hverdict⟩ :=
    prepare_verdict absentPrompt .empty ⟨["tool"], false, []⟩ .empty absentHost (Path.ofText "/w") rfl
  have hnone : unbound = [] := by
    refine List.eq_nil_iff_forall_not_mem.mpr fun name hname => ?_
    exact List.not_mem_nil ((hunbound name).mp hname).1
  have hall : Requirements.Failing (Requirements.CommandFound .empty absentHost)
      absentPrompt.declared.commands ["git", "./run", "git"] :=
    Requirements.missingCommands_failing rfl
  obtain rfl := hcommands.unique hall
  refine ⟨rfl, hverdict.trans ?_⟩
  rw [hnone]
  rfl

end Invocation

end PromptRunner
