import PromptRunner.Proofs.ConfigText
import PromptRunner.Proofs.ExitCodes

/-!
# Contexts that can run

A configuration is checked where it is read, and nothing behind that checks it again. Wherever it
comes from, a file that was asked for, a file that is there, a blank file or none at all, it names a
program and no blank tool. So every run has a program to start, and the tool is never given a
command line without one.
-/

namespace PromptRunner

namespace Config

/-- A configuration with a program to start, and with tools that can be granted. -/
structure IsRunnable (c : Config) : Prop where
  program : ∃ word words, c.program = .ok (word :: words)
  tools : ∀ tool ∈ c.defaultTools, ∃ ch ∈ tool.toList, Text.isBlankChar ch = false

theorem isBlank_eq_false_iff {s : String} :
    Text.isBlank s = false ↔ ∃ ch ∈ s.toList, Text.isBlankChar ch = false := by
  unfold Text.isBlank
  rw [List.all_eq_false]
  simp only [Bool.not_eq_true]

theorem any_isBlank_eq_false_iff {tools : List String} :
    tools.any Text.isBlank = false ↔
      ∀ tool ∈ tools, ∃ ch ∈ tool.toList, Text.isBlankChar ch = false := by
  simp only [List.any_eq_false, Bool.not_eq_true, isBlank_eq_false_iff]

theorem program_ok {c : Config} {words : List String} (h : c.program = .ok words) :
    ∃ word rest, words = word :: rest := by
  unfold program at h
  split at h
  · exact nomatch h
  · exact nomatch h
  · rename_i found hne _
    rw [← Except.ok.inj h]
    exact List.exists_cons_of_ne_nil hne

theorem isRunnable_default : default.IsRunnable where
  program := ⟨"claude", [], by decide⟩
  tools := any_isBlank_eq_false_iff.mp (by decide)

theorem validate_ok_iff {c : Config} : c.validate = .ok () ↔ c.IsRunnable := by
  unfold validate
  cases hprogram : c.program with
  | error f =>
    refine ⟨nofun, fun h => ?_⟩
    obtain ⟨word, words, hwords⟩ := h.program
    exact nomatch hprogram.symm.trans hwords
  | ok words =>
    obtain ⟨word, rest, rfl⟩ := program_ok hprogram
    cases htools : c.defaultTools.any Text.isBlank with
    | true =>
      refine ⟨nofun, fun h => ?_⟩
      have hnone := any_isBlank_eq_false_iff.mpr h.tools
      exact nomatch htools.symm.trans hnone
    | false => exact ⟨fun _ => ⟨⟨word, rest, hprogram⟩, any_isBlank_eq_false_iff.mp htools⟩, fun _ => rfl⟩

variable {c : Config} {fs : FileSystem} {host : Host}

theorem ofText_isRunnable {text : String} (h : ofText text = .ok c) : c.IsRunnable := by
  unfold ofText at h
  split at h
  · obtain rfl := Except.ok.inj h
    exact isRunnable_default
  · split at h
    · exact nomatch h
    · split at h
      · rename_i hvalid
        obtain rfl := Except.ok.inj h
        exact validate_ok_iff.mp hvalid
      · exact nomatch h

theorem load_isRunnable {path : Path} (h : load fs path = .ok c) : c.IsRunnable := by
  unfold load at h
  split at h
  · exact nomatch h
  · split at h
    · rename_i htext
      obtain rfl := Except.ok.inj h
      exact ofText_isRunnable htext
    · exact nomatch h

theorem loadOrDefault_isRunnable {path : Path} (h : loadOrDefault fs path = .ok c) :
    c.IsRunnable := by
  unfold loadOrDefault at h
  split at h
  · exact load_isRunnable h
  · obtain rfl := Except.ok.inj h
    exact isRunnable_default

end Config

namespace Context

variable {options : GlobalOptions} {fs : FileSystem} {host : Host} {configDir : Option Path}
  {c : Context}

/-- Every place that a configuration is taken from leads to one that can run. -/
theorem loadConfig_isRunnable {config : Config}
    (h : loadConfig options fs host configDir = .ok config) : config.IsRunnable := by
  unfold loadConfig at h
  split at h
  · exact Config.load_isRunnable h
  · split at h
    · exact Config.loadOrDefault_isRunnable h
    · obtain rfl := Except.ok.inj h
      exact Config.isRunnable_default

theorem resolve_eq_ok_iff : resolve options fs host configDir = .ok c ↔
    loadConfig options fs host configDir = .ok c.config ∧
      chooseDirectory options c.config host = .ok c.promptsDir := by
  unfold resolve
  cases loadConfig options fs host configDir with
  | error f => simp
  | ok config =>
    cases hchoose : chooseDirectory options config host with
    | error f =>
      simp only [hchoose]
      refine ⟨nofun, fun ⟨hconfig, hdirectory⟩ => ?_⟩
      obtain rfl := Except.ok.inj hconfig
      exact nomatch hchoose.symm.trans hdirectory
    | ok promptsDir =>
      simp only [hchoose]
      constructor
      · intro h
        obtain rfl := Except.ok.inj h
        exact ⟨rfl, hchoose⟩
      · rintro ⟨hconfig, hdirectory⟩
        obtain rfl := Except.ok.inj hconfig
        obtain rfl := Except.ok.inj (hchoose.symm.trans hdirectory)
        rfl

theorem isCanonical_of_chooseDirectory {config : Config} {dir : Path}
    (h : chooseDirectory options config host = .ok dir)
    (hcurrent : ∀ dir, host.currentDir = .ok dir → Path.isAbsolute dir = true) :
    Path.IsCanonical dir := by
  unfold chooseDirectory Config.directory at h
  split at h
  · exact Host.isCanonical_of_expand h hcurrent
  · exact Host.isCanonical_of_expand h hcurrent

theorem settings_of_program {words : List String} (h : c.config.program = .ok words)
    (verbose : Bool) : c.settings verbose = .ok ⟨words, verbose, c.config.defaultTools⟩ := by
  unfold settings
  rw [h]

end Context

namespace Command

open CommandLine

theorem Passes.argv_eq {m : Machine} {c : Context} {o : RunOptions} {i : Invocation}
    {ws : List Warning} {words : List String} (h : Passes m c o i ws)
    (hwords : c.config.program = .ok words) : ∃ rest, i.argv = words ++ rest := by
  cases h with
  | intro _ _ hsettings _ _ hbuild =>
    rw [Context.settings_of_program hwords] at hsettings
    obtain rfl := Except.ok.inj hsettings
    obtain ⟨rest, rfl⟩ := Invocation.argv_of_build hbuild
    exact ⟨_, rfl⟩

/-- Every context can run. Its program has a word at least and none of its tools is blank, so it has
settings for both kinds of runs, and from an absolute directory its directory of prompts is a
canonical path. Hence what a request hands to the tool starts with the words of the program, and
that there is no program is never the answer to a request. -/
theorem contexts_can_run (m : Machine) (r : Request) :
    (∀ options c, Context.resolve options m.files m.host m.configDir = .ok c →
      (∃ word words, c.config.program = .ok (word :: words) ∧
        ∀ verbose, c.settings verbose = .ok ⟨word :: words, verbose, c.config.defaultTools⟩) ∧
      (∀ tool ∈ c.config.defaultTools, ∃ ch ∈ tool.toList, Text.isBlankChar ch = false) ∧
      ((∀ dir, m.host.currentDir = .ok dir → Path.isAbsolute dir = true) →
        Path.IsCanonical c.promptsDir)) ∧
    (∀ argv ∈ (carryOut m r).launched, ∃ c word words rest,
      Context.resolve r.options m.files m.host m.configDir = .ok c ∧
      c.config.program = .ok (word :: words) ∧ argv = word :: words ++ rest) ∧
    ∀ fs searchPath,
      (carryOut { m with tool := Tool.launch fs searchPath } r).outcome ≠ .error .noProgram := by
  refine ⟨?_, ?_, ?_⟩
  · intro options c hresolve
    obtain ⟨hload, hdirectory⟩ := Context.resolve_eq_ok_iff.mp hresolve
    have hrunnable := Context.loadConfig_isRunnable hload
    obtain ⟨word, words, hwords⟩ := hrunnable.program
    exact ⟨⟨word, words, hwords, Context.settings_of_program hwords⟩, hrunnable.tools,
      Context.isCanonical_of_chooseDirectory hdirectory⟩
  · intro argv hargv
    obtain ⟨c, o, i, ws, hresolve, -, hpasses, rfl⟩ :=
      (carriesOut_carryOut m r).passes_of_launched hargv
    obtain ⟨word, words, hwords⟩ :=
      (Context.loadConfig_isRunnable (Context.resolve_eq_ok_iff.mp hresolve).1).program
    obtain ⟨rest, hrest⟩ := hpasses.argv_eq hwords
    exact ⟨c, word, words, rest, hresolve, hwords, hrest⟩
  · intro fs searchPath houtcome
    have hcarries := carriesOut_carryOut { m with tool := Tool.launch fs searchPath } r
    obtain ⟨argv, hlaunched, htool⟩ := hcarries.toolFailure houtcome rfl
    have hmem : argv ∈ (carryOut { m with tool := Tool.launch fs searchPath } r).launched := by
      rw [hlaunched]
      exact List.mem_singleton_self argv
    obtain ⟨c, o, i, ws, -, -, hpasses, rfl⟩ := hcarries.passes_of_launched hmem
    exact hpasses.argv_ne_nil (Tool.eq_nil_of_noProgram htool)

/-- A machine whose environment names a file with a program and a tool of its own. -/
def tailoredMachine : Machine where
  files := {
    entries := [
      ([Path.ofText "c"], .file Config.tailoredText.toUTF8 false),
      ([Path.ofText "p.md"], .file "hi".toUTF8 false)]
    unique := by decide
    named := by decide }
  host := {
    currentDir := .ok (Path.ofText "/w")
    environment := [(Config.pathVariable, "/c")] }
  configDir := none
  tool := Tool.launch .empty []

def tailoredRequest : Request where
  options := {}
  command := .run { prompt := "/p.md" }

theorem tailored_config_can_run :
    Context.resolve {} tailoredMachine.files tailoredMachine.host tailoredMachine.configDir =
      .ok ⟨Config.tailored, Path.ofText "/w/p"⟩ ∧
    (∀ dir, tailoredMachine.host.currentDir = .ok dir → Path.isAbsolute dir = true) ∧
    Path.IsCanonical (Path.ofText "/w/p") ∧
    ["tool", "-x", "-p", "hi"] ∈ (carryOut tailoredMachine tailoredRequest).launched ∧
    (∃ word words rest, Config.tailored.program = .ok (word :: words) ∧
      ["tool", "-x", "-p", "hi"] = word :: words ++ rest) ∧
    (carryOut tailoredMachine tailoredRequest).outcome ≠ .error .noProgram := by
  obtain ⟨hcontexts, hlaunched, hprogram⟩ := contexts_can_run tailoredMachine tailoredRequest
  have hresolve : Context.resolve {} tailoredMachine.files tailoredMachine.host
      tailoredMachine.configDir = .ok ⟨Config.tailored, Path.ofText "/w/p"⟩ := by decide +kernel
  have hargv : (carryOut tailoredMachine tailoredRequest).launched =
      [["tool", "-x", "-p", "hi"]] := by decide +kernel
  have hmem : ["tool", "-x", "-p", "hi"] ∈ (carryOut tailoredMachine tailoredRequest).launched := by
    rw [hargv]
    exact List.mem_singleton_self _
  have hcurrent : ∀ dir, tailoredMachine.host.currentDir = .ok dir → Path.isAbsolute dir = true := by
    rintro _ ⟨⟩
    rfl
  obtain ⟨-, -, hcanonical⟩ := hcontexts {} _ hresolve
  obtain ⟨c, word, words, rest, hc, hwords, hrest⟩ := hlaunched _ hmem
  obtain rfl := Except.ok.inj (hresolve.symm.trans hc)
  exact ⟨hresolve, hcurrent, hcanonical hcurrent, hmem, ⟨word, words, rest, hwords, hrest⟩,
    hprogram .empty []⟩

end Command

end PromptRunner
