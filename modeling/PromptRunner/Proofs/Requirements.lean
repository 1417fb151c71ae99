import Mathlib.Tactic.SplitIfs
import PromptRunner.Proofs.Host
import PromptRunner.Proofs.Results
import PromptRunner.Requirements.Check

/-!
# What a check of requirements finds missing

A requirement holds or fails on its own: a command by the file it leads to, an environment variable
by its binding and a directory by what stands at its path. The check looks at the categories one
after the other, and the first with a failing entry decides. It then names every failing entry of
that category, as often and in the order in which they were declared.
-/

namespace PromptRunner.FileSystem

def HasProgram (fs : FileSystem) (path : Path) : Prop :=
  ∃ content, fs.find path = .ok (.file content true)

def HasDirectory (fs : FileSystem) (path : Path) : Prop :=
  fs.find path = .ok .directory

theorem isExecutable_iff (fs : FileSystem) (path : Path) :
    fs.isExecutable path = true ↔ fs.HasProgram path := by
  unfold isExecutable HasProgram
  split
  · rename_i content executable h
    rw [h]
    cases executable <;> simp
  · rename_i h
    constructor
    · exact fun hf => absurd hf Bool.false_ne_true
    · rintro ⟨content, hc⟩
      exact (h content true hc).elim

theorem isDirectory_iff (fs : FileSystem) (path : Path) :
    fs.isDirectory path = true ↔ fs.HasDirectory path := by
  unfold isDirectory HasDirectory
  split
  · rename_i h
    exact ⟨fun _ => h, fun _ => rfl⟩
  · rename_i h
    exact ⟨fun hf => absurd hf Bool.false_ne_true, fun hd => (h hd).elim⟩

end PromptRunner.FileSystem

namespace PromptRunner.Requirements

/-- A command is found: at its absolute path, from the current directory if it is a relative path,
or in a directory of the search path if it is a bare name. -/
inductive CommandFound (fs : FileSystem) (host : Host) (command : String) : Prop
  | absolute : Path.isAbsolute (Path.ofText command) = true →
      fs.HasProgram (Path.ofText command) → CommandFound fs host command
  | relative (dir : Path) : Path.isAbsolute (Path.ofText command) = false → '/' ∈ command.toList →
      host.currentDir = .ok dir → fs.HasProgram (Path.join dir (Path.ofText command)) →
      CommandFound fs host command
  | named (dir : Path) : '/' ∉ command.toList → dir ∈ host.searchPath →
      fs.HasProgram (Path.join dir (Path.ofText command)) → CommandFound fs host command

/-- A declared directory is found: its path can be completed and leads to a directory. -/
def DirectoryFound (fs : FileSystem) (host : Host) (dir : String) : Prop :=
  ∃ path, host.expand dir = .ok path ∧ fs.HasDirectory path

/-- The entries that fail, out of a list of entries: each as often as it is declared, in order. -/
inductive Failing (holds : String → Prop) : List String → List String → Prop
  | nil : Failing holds [] []
  | met {entry : String} {entries failing : List String} : holds entry →
      Failing holds entries failing → Failing holds (entry :: entries) failing
  | failed {entry : String} {entries failing : List String} : ¬ holds entry →
      Failing holds entries failing → Failing holds (entry :: entries) (entry :: failing)

theorem failing_filter {holds : String → Prop} {test : String → Bool}
    (h : ∀ entry, test entry = false ↔ holds entry) (entries : List String) :
    Failing holds entries (entries.filter test) := by
  induction entries with
  | nil => exact .nil
  | cons entry entries ih =>
    cases ht : test entry with
    | false =>
      rw [List.filter_cons_of_neg (by simp [ht])]
      exact .met ((h entry).mp ht) ih
    | true =>
      rw [List.filter_cons_of_pos ht]
      exact .failed (fun hh => by simp [(h entry).mpr hh] at ht) ih

theorem failing_nil_iff {holds : String → Prop} {entries : List String} :
    Failing holds entries [] ↔ ∀ entry ∈ entries, holds entry := by
  induction entries with
  | nil => exact ⟨fun _ => List.forall_mem_nil _, fun _ => .nil⟩
  | cons entry entries ih =>
    rw [List.forall_mem_cons, ← ih]
    constructor
    · intro h
      cases h with
      | met hentry hrest => exact ⟨hentry, hrest⟩
    · intro h
      exact .met h.1 h.2

/-- Which entries fail is decided by what holds. -/
theorem Failing.unique {holds : String → Prop} {entries failing failing' : List String}
    (h : Failing holds entries failing) (h' : Failing holds entries failing') :
    failing = failing' := by
  induction h generalizing failing' with
  | nil =>
    cases h' with
    | nil => rfl
  | met hentry _ ih =>
    cases h' with
    | met _ hrest => exact ih hrest
    | failed hnot _ => exact absurd hentry hnot
  | failed hnot _ ih =>
    cases h' with
    | met hentry _ => exact absurd hentry hnot
    | failed _ hrest => rw [ih hrest]

theorem failing_missing {exists? : String → Except Failure Bool} {entries failing : List String}
    (h : missing exists? entries = .ok failing) :
    Failing (fun entry => exists? entry = .ok true) entries failing := by
  induction entries generalizing failing with
  | nil =>
    obtain rfl := Except.ok.inj h
    exact .nil
  | cons entry entries ih =>
    rw [missing] at h
    split at h
    · exact nomatch h
    · rename_i found hfound
      split at h
      · exact nomatch h
      · rename_i rest hrest
        obtain rfl := Except.ok.inj h
        cases found with
        | true => exact .met hfound (ih hrest)
        | false => exact .failed (fun htrue => nomatch hfound.symm.trans htrue) (ih hrest)

/-- What can be said of each entry can be said of all. -/
theorem missing_ok {exists? : String → Except Failure Bool} {entries : List String}
    (h : ∀ entry ∈ entries, ∃ found, exists? entry = .ok found) :
    ∃ failing, missing exists? entries = .ok failing := by
  induction entries with
  | nil => exact ⟨[], rfl⟩
  | cons entry entries ih =>
    obtain ⟨⟨found, hfound⟩, hentries⟩ := List.forall_mem_cons.mp h
    obtain ⟨failing, hfailing⟩ := ih hentries
    exact ⟨if found then failing else entry :: failing, by simp only [missing, hfound, hfailing]⟩

theorem commandExists_iff (fs : FileSystem) (host : Host) (command : String) :
    commandExists fs host command = .ok true ↔ CommandFound fs host command := by
  have hrelative (hs : '/' ∉ command.toList) : ¬ Path.isAbsolute (Path.ofText command) = true :=
    Bool.eq_false_iff.mp (Path.isAbsolute_of_not_mem (mt Path.slash_mem_ofText_iff.mp hs))
  unfold commandExists commandPaths
  split_ifs with ha hs
  · simp only [Except.map, List.any_cons, List.any_nil, Bool.or_false, Except.ok.injEq,
      FileSystem.isExecutable_iff]
    refine ⟨.absolute ha, ?_⟩
    rintro (⟨_, hp⟩ | ⟨_, hn, _⟩ | ⟨_, hn, _, _⟩)
    · exact hp
    · exact nomatch ha.symm.trans hn
    · exact (hrelative hn ha).elim
  · have hs : '/' ∈ command.toList := by simpa using hs
    have hfound : ((host.workingDir.map fun dir => [Path.join dir (Path.ofText command)]).map
        fun paths => paths.any fs.isExecutable) = .ok true ↔ ∃ dir, host.currentDir = .ok dir ∧
          fs.HasProgram (Path.join dir (Path.ofText command)) := by
      unfold Host.workingDir
      cases host.currentDir with
      | ok dir => simp [Except.map, FileSystem.isExecutable_iff]
      | error e => simp [Except.map]
    rw [hfound]
    constructor
    · rintro ⟨dir, hdir, hp⟩
      exact .relative dir (eq_false_of_ne_true ha) hs hdir hp
    · rintro (⟨hn, _⟩ | ⟨dir, _, _, hdir, hp⟩ | ⟨_, hn, _, _⟩)
      · exact (ha hn).elim
      · exact ⟨dir, hdir, hp⟩
      · exact (hn hs).elim
  · have hs : '/' ∉ command.toList := by simpa using hs
    simp only [Except.map, List.any_map, Except.ok.injEq, List.any_eq_true, Function.comp_apply,
      FileSystem.isExecutable_iff]
    constructor
    · rintro ⟨dir, hd, hp⟩
      exact .named dir hs hd hp
    · rintro (⟨hn, _⟩ | ⟨_, _, hn, _⟩ | ⟨dir, _, hd, hp⟩)
      · exact (ha hn).elim
      · exact (hs hn).elim
      · exact ⟨dir, hd, hp⟩

theorem directoryExists_iff (fs : FileSystem) (host : Host) (dir : String) :
    directoryExists fs host dir = .ok true ↔ DirectoryFound fs host dir := by
  unfold directoryExists DirectoryFound
  cases host.expand dir with
  | ok path => simp [Except.map, FileSystem.isDirectory_iff]
  | error f => simp [Except.map]

section Readable
variable {fs : FileSystem} {host : Host} {dir : Path}

theorem commandExists_ok (h : host.currentDir = .ok dir) (fs : FileSystem) (command : String) :
    ∃ found, commandExists fs host command = .ok found := by
  unfold commandExists commandPaths Host.workingDir
  rw [h]
  split_ifs <;> exact ⟨_, rfl⟩

theorem directoryExists_ok (h : host.currentDir = .ok dir) (fs : FileSystem) (entry : String) :
    ∃ found, directoryExists fs host entry = .ok found := by
  rw [directoryExists, Host.expand_of_ok h]
  exact ⟨_, rfl⟩

end Readable

theorem missingCommands_failing {r : Requirements} {fs : FileSystem} {host : Host}
    {failing : List String} (h : r.missingCommands fs host = .ok failing) :
    Failing (CommandFound fs host) r.commands failing := by
  simpa only [commandExists_iff] using failing_missing h

theorem missingEnvironment_failing (r : Requirements) (host : Host) :
    Failing (fun name => ∃ value, host.valueOf? name = some value) r.environment
      (r.missingEnvironment host) :=
  failing_filter (fun name => by rw [Option.isNone_eq_false_iff, Option.isSome_iff_exists])
    r.environment

theorem missingDirectories_failing {r : Requirements} {fs : FileSystem} {host : Host}
    {failing : List String} (h : r.missingDirectories fs host = .ok failing) :
    Failing (DirectoryFound fs host) r.directories failing := by
  simpa only [directoryExists_iff] using failing_missing h

theorem demandNone_eq (kind : RequirementKind) (entries : List String) :
    demandNone kind entries =
      if entries ≠ [] then .error (.unsatisfied kind entries) else .ok () := by
  unfold demandNone
  cases entries <;> rfl

theorem demandNone_ok_iff {kind : RequirementKind} {entries : List String} :
    demandNone kind entries = .ok () ↔ entries = [] := by
  rw [demandNone_eq]
  split_ifs with h
  · exact ⟨nofun, fun hnil => (h hnil).elim⟩
  · exact ⟨fun _ => not_not.mp h, fun _ => rfl⟩

/-- Where the current directory can be reached, the first category with a failing entry decides. -/
theorem check_eq {host : Host} {dir : Path} (hdir : host.currentDir = .ok dir) (r : Requirements)
    (fs : FileSystem) :
    ∃ commands directories, r.missingCommands fs host = .ok commands ∧
      r.missingDirectories fs host = .ok directories ∧
      r.check fs host =
        if commands ≠ [] then .error (.unsatisfied .commands commands)
        else if r.missingEnvironment host ≠ [] then
          .error (.unsatisfied .environment (r.missingEnvironment host))
        else if directories ≠ [] then .error (.unsatisfied .directories directories)
        else .ok () := by
  obtain ⟨commands, hcommands⟩ : ∃ commands, r.missingCommands fs host = .ok commands :=
    missing_ok fun command _ => commandExists_ok hdir fs command
  obtain ⟨directories, hdirectories⟩ : ∃ directories, r.missingDirectories fs host = .ok directories :=
    missing_ok fun entry _ => directoryExists_ok hdir fs entry
  refine ⟨commands, directories, hcommands, hdirectories, ?_⟩
  rw [check, hcommands, hdirectories]
  simp only [demandNone_eq, bind, Except.bind]
  split_ifs <;> rfl

/-- A check that passes has found every entry of every category. -/
theorem check_ok {r : Requirements} {fs : FileSystem} {host : Host} (h : r.check fs host = .ok ()) :
    (∀ command ∈ r.commands, CommandFound fs host command) ∧
    (∀ name ∈ r.environment, ∃ value, host.valueOf? name = some value) ∧
    ∀ dir ∈ r.directories, DirectoryFound fs host dir := by
  rw [check] at h
  obtain ⟨commands, hcommands, h⟩ := Except.bind_eq_ok_iff.mp h
  obtain ⟨_, hc, h⟩ := Except.bind_eq_ok_iff.mp h
  obtain ⟨_, he, h⟩ := Except.bind_eq_ok_iff.mp h
  obtain ⟨directories, hdirectories, hd⟩ := Except.bind_eq_ok_iff.mp h
  have henvironment := missingEnvironment_failing r host
  rw [demandNone_ok_iff.mp hc] at hcommands
  rw [demandNone_ok_iff.mp he] at henvironment
  rw [demandNone_ok_iff.mp hd] at hdirectories
  exact ⟨failing_nil_iff.mp (missingCommands_failing hcommands), failing_nil_iff.mp henvironment,
    failing_nil_iff.mp (missingDirectories_failing hdirectories)⟩

theorem check_empty (fs : FileSystem) (host : Host) : Requirements.empty.check fs host = .ok () :=
  rfl

end PromptRunner.Requirements
