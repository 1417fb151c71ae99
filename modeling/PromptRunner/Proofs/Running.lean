import PromptRunner.Command
import PromptRunner.Proofs.Preparation

/-!
# Runs

Before the tool is started a run goes through seven stages, and the first that fails ends it. A run
that is only shown goes through the same stages. What is said here of the tool does not rest on the
record of command lines alone: a report depends on the tool only through what it makes of the
recorded ones.
-/

namespace PromptRunner

theorem Failure.exitCode_ne_successCode (f : Failure) : f.exitCode ≠ successCode := by
  unfold exitCode
  cases f.kind <;> decide

namespace Command

open CommandLine

inductive Stage where
  | resolve
  | read
  | parse
  | assemble
  | config
  | missing
  | requirements
  deriving DecidableEq, Repr

/-- The prompt that is asked for is found in a file whose name shows its format, and read from
it. -/
inductive Loads (m : Machine) (c : Context) (name : String) (p : Prompt) : Prop
  | intro {path : Path} {content : String} {format : Format} :
      Library.resolve m.files m.host c.promptsDir name = .ok path →
      Format.ofPath path = .ok format → Prompt.fileText m.files path = .ok content →
      Prompt.parse format (Path.shown path) content = .ok p → Loads m c name p

/-- A run ends at a stage with a failure, after warnings: all stages before it are passed. The
current directory is asked for first, since the prompt may stand at a path from there. -/
inductive Halts (m : Machine) (c : Context) (o : RunOptions) :
    Stage → Failure → List Warning → Prop
  | currentDir {e : FileError} : m.host.currentDir = .error e →
      Halts m c o .resolve (.currentDirUnknown e) []
  | resolve {dir : Path} {f : Failure} : m.host.currentDir = .ok dir →
      Library.resolve m.files m.host c.promptsDir o.prompt = .error f → Halts m c o .resolve f []
  | format {path : Path} {f : Failure} :
      Library.resolve m.files m.host c.promptsDir o.prompt = .ok path →
      Format.ofPath path = .error f → Halts m c o .read f []
  | read {path : Path} {format : Format} {f : Failure} :
      Library.resolve m.files m.host c.promptsDir o.prompt = .ok path →
      Format.ofPath path = .ok format → Prompt.fileText m.files path = .error f →
      Halts m c o .read f []
  | parse {path : Path} {content : String} {format : Format} {f : Failure} :
      Library.resolve m.files m.host c.promptsDir o.prompt = .ok path →
      Format.ofPath path = .ok format → Prompt.fileText m.files path = .ok content →
      Prompt.parse format (Path.shown path) content = .error f → Halts m c o .parse f []
  | assemble {p : Prompt} {f : Failure} : Loads m c o.prompt p →
      (sourcesOf o).assemble m.files m.host = .error f → Halts m c o .assemble f p.warnings
  | config {p : Prompt} {a : Variables.Assembled} {f : Failure} : Loads m c o.prompt p →
      (sourcesOf o).assemble m.files m.host = .ok a → c.settings o.verbose = .error f →
      Halts m c o .config f (p.warnings ++ a.warnings)
  | missing {p : Prompt} {a : Variables.Assembled} {settings : InvocationSettings} {f : Failure} :
      Loads m c o.prompt p → (sourcesOf o).assemble m.files m.host = .ok a →
      c.settings o.verbose = .ok settings → Invocation.checkVariables p a.bindings = .error f →
      Halts m c o .missing f (p.warnings ++ a.warnings)
  | requirements {p : Prompt} {a : Variables.Assembled} {settings : InvocationSettings}
      {f : Failure} : Loads m c o.prompt p → (sourcesOf o).assemble m.files m.host = .ok a →
      c.settings o.verbose = .ok settings → Invocation.checkVariables p a.bindings = .ok () →
      Invocation.checkRequirements p m.files m.host = .error f →
      Halts m c o .requirements f (p.warnings ++ a.warnings)

inductive Passes (m : Machine) (c : Context) (o : RunOptions) :
    Invocation → List Warning → Prop
  | intro {p : Prompt} {a : Variables.Assembled} {settings : InvocationSettings}
      {argv : List String} :
      Loads m c o.prompt p → (sourcesOf o).assemble m.files m.host = .ok a →
      c.settings o.verbose = .ok settings → Invocation.checkVariables p a.bindings = .ok () →
      Invocation.checkRequirements p m.files m.host = .ok () →
      Invocation.build (Invocation.textOf p a.bindings) p.metadata.model p.metadata.requirements
        settings m.host = .ok argv →
      Passes m c o ⟨Invocation.textOf p a.bindings, argv⟩ (p.warnings ++ a.warnings)

variable {m : Machine} {c : Context} {o : RunOptions} {name : String} {p : Prompt}
  {stage : Stage} {f : Failure} {i : Invocation} {ws : List Warning}

theorem resolve_of_currentDir_error {e : FileError} (h : m.host.currentDir = .error e)
    (directory : Path) (name : String) :
    Library.resolve m.files m.host directory name = .error (.currentDirUnknown e) := by
  unfold Library.resolve
  rw [Host.expand_of_error h]

theorem Loads.currentDir_ok (h : Loads m c name p) : ∃ dir, m.host.currentDir = .ok dir := by
  cases h with
  | intro hresolve _ _ _ =>
    cases hdir : m.host.currentDir with
    | ok dir => exact ⟨dir, rfl⟩
    | error e => exact nomatch (resolve_of_currentDir_error hdir _ _).symm.trans hresolve

theorem loadPrompt_of_resolve_ok {path : Path}
    (h : Library.resolve m.files m.host c.promptsDir name = .ok path) :
    loadPrompt m c name = (Prompt.load m.files path).map (path, ·) := by
  unfold loadPrompt
  simp only [h]
  cases Prompt.load m.files path <;> rfl

theorem load_of_format {path : Path} {format : Format} (h : Format.ofPath path = .ok format) :
    Prompt.load m.files path = Prompt.fileText m.files path >>= fun content =>
      Prompt.parse format (Path.shown path) content := by
  unfold Prompt.load
  rw [h]
  rfl

theorem Loads.loadPrompt_eq (h : Loads m c name p) :
    ∃ path, loadPrompt m c name = .ok (path, p) := by
  cases h with
  | @intro path content format hresolve hformat hread hparse =>
    have hload : Prompt.load m.files path = .ok p := by
      rw [load_of_format hformat, hread]
      exact hparse
    exact ⟨path, by rw [loadPrompt_of_resolve_ok hresolve, hload]; rfl⟩

theorem prepareRun_of_loadPrompt_error (h : loadPrompt m c o.prompt = .error f) :
    prepareRun m c o = ⟨.error f, []⟩ := by
  unfold prepareRun
  rw [h]

theorem prepareRun_of_resolve_error
    (h : Library.resolve m.files m.host c.promptsDir o.prompt = .error f) :
    prepareRun m c o = ⟨.error f, []⟩ := by
  apply prepareRun_of_loadPrompt_error
  unfold loadPrompt
  rw [h]

theorem prepareRun_of_load_error {path : Path}
    (hresolve : Library.resolve m.files m.host c.promptsDir o.prompt = .ok path)
    (hload : Prompt.load m.files path = .error f) : prepareRun m c o = ⟨.error f, []⟩ := by
  apply prepareRun_of_loadPrompt_error
  rw [loadPrompt_of_resolve_ok hresolve, hload]
  rfl

theorem Loads.prepareRun_of_assemble_error (h : Loads m c o.prompt p)
    (ha : (sourcesOf o).assemble m.files m.host = .error f) :
    prepareRun m c o = ⟨.error f, p.warnings⟩ := by
  obtain ⟨path, hload⟩ := h.loadPrompt_eq
  unfold prepareRun
  rw [hload]
  simp only [ha]

theorem Loads.prepareRun_of_assemble_ok (h : Loads m c o.prompt p) {a : Variables.Assembled}
    (ha : (sourcesOf o).assemble m.files m.host = .ok a) :
    prepareRun m c o = ⟨prepareWith m c o.verbose p a.bindings, p.warnings ++ a.warnings⟩ := by
  obtain ⟨path, hload⟩ := h.loadPrompt_eq
  unfold prepareRun
  rw [hload]
  simp only [ha]

theorem Loads.prepareRun_of_settings (h : Loads m c o.prompt p) {a : Variables.Assembled}
    (ha : (sourcesOf o).assemble m.files m.host = .ok a) {settings : InvocationSettings}
    (hsettings : c.settings o.verbose = .ok settings) :
    prepareRun m c o =
      ⟨Invocation.prepare p a.bindings settings m.files m.host, p.warnings ++ a.warnings⟩ := by
  rw [h.prepareRun_of_assemble_ok ha]
  unfold prepareWith
  rw [hsettings]

theorem Halts.prepareRun_eq (h : Halts m c o stage f ws) : prepareRun m c o = ⟨.error f, ws⟩ := by
  cases h with
  | currentDir hdir => exact prepareRun_of_resolve_error (resolve_of_currentDir_error hdir _ _)
  | resolve _ hresolve => exact prepareRun_of_resolve_error hresolve
  | format hresolve hformat =>
    apply prepareRun_of_load_error hresolve
    unfold Prompt.load
    rw [hformat]
    rfl
  | read hresolve hformat hread =>
    apply prepareRun_of_load_error hresolve
    rw [load_of_format hformat, hread]
    rfl
  | parse hresolve hformat hread hparse =>
    apply prepareRun_of_load_error hresolve
    rw [load_of_format hformat, hread]
    exact hparse
  | assemble hload hassemble => exact hload.prepareRun_of_assemble_error hassemble
  | config hload hassemble hsettings =>
    rw [hload.prepareRun_of_assemble_ok hassemble]
    unfold prepareWith
    rw [hsettings]
  | missing hload hassemble hsettings hmissing =>
    rw [hload.prepareRun_of_settings hassemble hsettings]
    simp only [Invocation.prepare, hmissing]
  | requirements hload hassemble hsettings hmissing hrequirements =>
    rw [hload.prepareRun_of_settings hassemble hsettings]
    simp only [Invocation.prepare, hmissing, hrequirements]

theorem Passes.prepareRun_eq (h : Passes m c o i ws) : prepareRun m c o = ⟨.ok i, ws⟩ := by
  cases h with
  | intro hload hassemble hsettings hmissing hrequirements hbuild =>
    rw [hload.prepareRun_of_settings hassemble hsettings]
    simp only [Invocation.prepare, hmissing, hrequirements, hbuild]
    rfl

theorem Passes.argv_ne_nil (h : Passes m c o i ws) : i.argv ≠ [] := by
  cases h with
  | intro _ _ _ _ _ hbuild =>
    obtain ⟨rest, rfl⟩ := Invocation.argv_of_build hbuild
    exact List.append_ne_nil_of_right_ne_nil _ (List.cons_ne_nil _ _)

/-- Either a prompt is loaded, or a run that asks for it ends before its variables are looked at. -/
theorem halts_or_loads (m : Machine) (c : Context) (o : RunOptions) :
    (∃ stage f ws, Halts m c o stage f ws) ∨ ∃ p, Loads m c o.prompt p := by
  cases hdir : m.host.currentDir with
  | error e => exact .inl ⟨_, _, _, .currentDir hdir⟩
  | ok dir => ?_
  cases hresolve : Library.resolve m.files m.host c.promptsDir o.prompt with
  | error f => exact .inl ⟨_, _, _, .resolve hdir hresolve⟩
  | ok path =>
    cases hformat : Format.ofPath path with
    | error f => exact .inl ⟨_, _, _, .format hresolve hformat⟩
    | ok format =>
      cases hread : Prompt.fileText m.files path with
      | error f => exact .inl ⟨_, _, _, .read hresolve hformat hread⟩
      | ok content =>
        cases hparse : Prompt.parse format (Path.shown path) content with
        | error f => exact .inl ⟨_, _, _, .parse hresolve hformat hread hparse⟩
        | ok p => exact .inr ⟨p, .intro hresolve hformat hread hparse⟩

theorem halts_or_passes (m : Machine) (c : Context) (o : RunOptions) :
    (∃ stage f ws, Halts m c o stage f ws) ∨ ∃ i ws, Passes m c o i ws := by
  obtain hhalts | ⟨p, hload⟩ := halts_or_loads m c o
  · exact .inl hhalts
  cases hassemble : (sourcesOf o).assemble m.files m.host with
  | error f => exact .inl ⟨_, _, _, .assemble hload hassemble⟩
  | ok a =>
    cases hsettings : c.settings o.verbose with
    | error f => exact .inl ⟨_, _, _, .config hload hassemble hsettings⟩
    | ok settings =>
      cases hmissing : Invocation.checkVariables p a.bindings with
      | error f => exact .inl ⟨_, _, _, .missing hload hassemble hsettings hmissing⟩
      | ok _ =>
        cases hrequirements : Invocation.checkRequirements p m.files m.host with
        | error f =>
          exact .inl ⟨_, _, _, .requirements hload hassemble hsettings hmissing hrequirements⟩
        | ok _ =>
          obtain ⟨dir, hdir⟩ := hload.currentDir_ok
          obtain ⟨argv, hbuild⟩ := Invocation.build_ok hdir (Invocation.textOf p a.bindings)
            p.metadata.model p.metadata.requirements settings
          exact .inr ⟨_, _, .intro hload hassemble hsettings hmissing hrequirements hbuild⟩

theorem prepareRun_dryRun (m : Machine) (c : Context) (o : RunOptions) (dryRun : Bool) :
    prepareRun m c { o with dryRun } = prepareRun m c o := by
  unfold prepareRun sourcesOf
  with_reducible rfl

theorem prepareRun_tool (m : Machine) (c : Context) (o : RunOptions)
    (tool : List String → Except Failure Tool.Output) :
    prepareRun { m with tool } c o = prepareRun m c o := by
  unfold prepareRun loadPrompt prepareWith
  with_reducible rfl

theorem runPrompt_of_error (h : prepareRun m c o = ⟨.error f, ws⟩) :
    runPrompt m c o = .failed f ws := by
  unfold runPrompt
  rw [h]

theorem runPrompt_of_ok (h : prepareRun m c o = ⟨.ok i, ws⟩) :
    runPrompt m c o =
      if o.dryRun then { outcome := .ok successCode, output := preview i, warnings := ws }
      else launch m i ws := by
  unfold runPrompt
  rw [h]

theorem launch_launched (m : Machine) (i : Invocation) (ws : List Warning) :
    (launch m i ws).launched = [i.argv] := by
  unfold launch
  cases m.tool i.argv <;> rfl

theorem launch_of_ok {output : Tool.Output} (h : m.tool i.argv = .ok output) :
    launch m i ws =
      { outcome := .ok output.ending.exitCode, output := output.text, warnings := ws,
        launched := [i.argv] } := by
  unfold launch
  rw [h]

theorem launch_of_error (h : m.tool i.argv = .error f) :
    launch m i ws = { outcome := .error f, output := "", warnings := ws, launched := [i.argv] } := by
  unfold launch
  rw [h]

/-- What the tool would make of command lines that are not handed to it does not count. -/
theorem runPrompt_congr_tool {tool : List String → Except Failure Tool.Output}
    (h : ∀ argv ∈ (runPrompt m c o).launched, tool argv = m.tool argv) :
    runPrompt { m with tool } c o = runPrompt m c o := by
  have hprepare := prepareRun_tool m c o tool
  rcases hp : prepareRun m c o with ⟨f | i, ws⟩
  · rw [runPrompt_of_error hp, runPrompt_of_error (hprepare.trans hp)]
  · rw [runPrompt_of_ok hp] at h ⊢
    rw [runPrompt_of_ok (hprepare.trans hp)]
    cases hdry : o.dryRun with
    | true => rfl
    | false =>
      rw [hdry] at h
      have hargv : tool i.argv = m.tool i.argv :=
        h i.argv (by rw [if_neg Bool.false_ne_true, launch_launched]; exact List.mem_singleton_self _)
      rw [if_neg Bool.false_ne_true, if_neg Bool.false_ne_true]
      unfold launch
      simp only [hargv]

/-- The tool is started only when every check has passed. Whether a run is only shown makes no
difference to its preparation, which either ends at one of its stages or passes all of them. In the
first case the run comes to the same whether it is only shown or not: the failure of the stage, with
its exit code, the warnings up to there, no output, and nothing handed to the tool. In the second
case a run that is only shown hands nothing to the tool either, ends well and prints the prepared
command line and text. Any other run hands exactly the prepared command line, which names a program,
to the tool, once: it prints what the tool makes of it and ends as the tool ends, or with the
failure to start it. -/
theorem tool_runs_only_after_checks (m : Machine) (c : Context) (o : RunOptions) :
    (∀ dryRun, prepareRun m c { o with dryRun } = prepareRun m c o) ∧
    ((∃ stage f ws, Halts m c o stage f ws) ∨ ∃ i ws, Passes m c o i ws) ∧
    (∀ stage f ws, Halts m c o stage f ws →
      prepareRun m c o = ⟨.error f, ws⟩ ∧ ∀ dryRun,
        runPrompt m c { o with dryRun } =
          { outcome := .error f, output := "", warnings := ws, launched := [] } ∧
        (runPrompt m c { o with dryRun }).exitCode = f.exitCode ∧ f.exitCode ≠ 0) ∧
    (∀ i ws, Passes m c o i ws →
      prepareRun m c o = ⟨.ok i, ws⟩ ∧
      runPrompt m c { o with dryRun := true } =
        { outcome := .ok 0, output := Shell.join i.argv ++ "\n\n" ++ i.text ++ "\n",
          warnings := ws, launched := [] } ∧
      (runPrompt m c { o with dryRun := true }).exitCode = 0 ∧
      i.argv ≠ [] ∧
      (∀ output, m.tool i.argv = .ok output →
        runPrompt m c { o with dryRun := false } =
          { outcome := .ok output.ending.exitCode, output := output.text, warnings := ws,
            launched := [i.argv] } ∧
        (output.ending.exitCode < 256 →
          (runPrompt m c { o with dryRun := false }).exitCode = output.ending.exitCode)) ∧
      ∀ f, m.tool i.argv = .error f →
        runPrompt m c { o with dryRun := false } =
          { outcome := .error f, output := "", warnings := ws, launched := [i.argv] } ∧
        (runPrompt m c { o with dryRun := false }).exitCode = f.exitCode) ∧
    (∀ dryRun tool,
      (∀ argv ∈ (runPrompt m c { o with dryRun }).launched, tool argv = m.tool argv) →
        runPrompt { m with tool } c { o with dryRun } = runPrompt m c { o with dryRun }) := by
  refine ⟨prepareRun_dryRun m c o, halts_or_passes m c o, ?_, ?_,
    fun dryRun tool h => runPrompt_congr_tool h⟩
  · intro stage f ws hhalts
    refine ⟨hhalts.prepareRun_eq, fun dryRun => ?_⟩
    have hreport : runPrompt m c { o with dryRun } = .failed f ws :=
      runPrompt_of_error ((prepareRun_dryRun m c o dryRun).trans hhalts.prepareRun_eq)
    exact ⟨hreport, by rw [hreport]; rfl, f.exitCode_ne_successCode⟩
  · intro i ws hpasses
    have hdry : runPrompt m c { o with dryRun := true } =
        { outcome := .ok successCode, output := preview i, warnings := ws } :=
      runPrompt_of_ok ((prepareRun_dryRun m c o true).trans hpasses.prepareRun_eq)
    have hreal : runPrompt m c { o with dryRun := false } = launch m i ws :=
      runPrompt_of_ok ((prepareRun_dryRun m c o false).trans hpasses.prepareRun_eq)
    refine ⟨hpasses.prepareRun_eq, hdry, by rw [hdry]; rfl, hpasses.argv_ne_nil, ?_, ?_⟩
    · intro output houtput
      rw [hreal, launch_of_ok houtput]
      exact ⟨rfl, fun hbyte => if_pos hbyte⟩
    · intro f hf
      rw [hreal, launch_of_error hf]
      exact ⟨rfl, rfl⟩

end Command

end PromptRunner
