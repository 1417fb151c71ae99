import PromptRunner.Proofs.Running

/-!
# Exit codes of failures

Every function before the tool fails with the exit code of its stage: that of a mistake of the user,
or, when the requirements of a prompt do not hold, one of their own. The exit code of a tool that
could not be started is not among them, so it shows that a command line was handed to the tool.
-/

namespace PromptRunner

/-- A computation fails with one exit code, if at all. -/
inductive FailsWith {α : Type} (code : Nat) : Except Failure α → Prop
  | ok (a : α) : FailsWith code (.ok a)
  | error {f : Failure} : f.exitCode = code → FailsWith code (.error f)

namespace FailsWith

variable {α β : Type} {code : Nat} {x : Except Failure α} {f : Failure}

theorem exitCode_eq (hx : FailsWith code x) (h : x = .error f) : f.exitCode = code := by
  subst h
  cases hx with
  | error hf => exact hf

/-- A failure that is handed on keeps its exit code. -/
theorem handOn (hx : FailsWith code x) (h : x = .error f) :
    FailsWith code (.error f : Except Failure β) :=
  .error (hx.exitCode_eq h)

theorem bind {k : α → Except Failure β} (hx : FailsWith code x) (hk : ∀ a, FailsWith code (k a)) :
    FailsWith code (x >>= k) := by
  cases hx with
  | ok a => exact hk a
  | error hf => exact .error hf

theorem map {k : α → β} (hx : FailsWith code x) : FailsWith code (x.map k) := by
  cases hx with
  | ok a => exact .ok (k a)
  | error hf => exact .error hf

end FailsWith

/-! ## The configuration -/

theorem Host.failsWith_expand (host : Host) (path : String) :
    FailsWith userErrorCode (host.expand path) := by
  cases hdir : host.currentDir with
  | ok dir =>
    rw [expand_of_ok hdir]
    exact .ok _
  | error e =>
    rw [expand_of_error hdir]
    exact .error rfl

theorem Config.failsWith_load (fs : FileSystem) (path : Path) :
    FailsWith userErrorCode (load fs path) := by
  unfold load
  split
  · exact .error rfl
  · split
    · exact .ok _
    · exact .error rfl

theorem Config.failsWith_loadOrDefault (fs : FileSystem) (path : Path) :
    FailsWith userErrorCode (loadOrDefault fs path) := by
  unfold loadOrDefault
  split_ifs
  · exact failsWith_load fs path
  · exact .ok _

namespace Context

theorem failsWith_loadConfig (options : GlobalOptions) (fs : FileSystem) (host : Host)
    (configDir : Option Path) : FailsWith userErrorCode (loadConfig options fs host configDir) := by
  unfold loadConfig
  split
  · exact Config.failsWith_load fs _
  · split
    · exact Config.failsWith_loadOrDefault fs _
    · exact .ok _

theorem failsWith_chooseDirectory (options : GlobalOptions) (config : Config) (host : Host) :
    FailsWith userErrorCode (chooseDirectory options config host) := by
  unfold chooseDirectory
  split
  · exact host.failsWith_expand _
  · exact host.failsWith_expand _

theorem failsWith_resolve (options : GlobalOptions) (fs : FileSystem) (host : Host)
    (configDir : Option Path) : FailsWith userErrorCode (resolve options fs host configDir) := by
  unfold resolve
  split
  · rename_i hload
    exact (failsWith_loadConfig options fs host configDir).handOn hload
  · split
    · rename_i hchoose
      exact (failsWith_chooseDirectory options _ host).handOn hchoose
    · exact .ok _

theorem failsWith_settings (c : Context) (verbose : Bool) :
    FailsWith userErrorCode (c.settings verbose) := by
  unfold settings
  split
  · exact .ok _
  · exact .error rfl

end Context

/-! ## Prompts -/

namespace Library

theorem failsWith_resolve (fs : FileSystem) (host : Host) (directory : Path) (name : String) :
    FailsWith userErrorCode (resolve fs host directory name) := by
  unfold resolve
  split
  · rename_i hexpand
    exact (host.failsWith_expand name).handOn hexpand
  · split_ifs
    · exact .ok _
    · split
      · exact .ok _
      · exact .error rfl

theorem failsWith_available (fs : FileSystem) (directory : Path) :
    FailsWith userErrorCode (available fs directory) := by
  unfold available
  split
  · exact .ok _
  · exact .ok _
  · exact .error rfl

end Library

theorem Format.failsWith_ofPath (path : Path) : FailsWith userErrorCode (ofPath path) := by
  unfold ofPath
  split_ifs
  · exact .ok _
  · exact .ok _
  · exact .error rfl

namespace Prompt

theorem failsWith_fileText (fs : FileSystem) (path : Path) :
    FailsWith userErrorCode (fileText fs path) := by
  unfold fileText
  split
  · exact .ok _
  · exact .error rfl
  · exact .error rfl
  · exact .error rfl

theorem failsWith_parse (format : Format) (path content : String) :
    FailsWith userErrorCode (parse format path content) := by
  cases format with
  | text => exact .ok _
  | structured =>
    unfold parse ofStructuredDocument
    dsimp only
    split
    · exact .ok _
    · exact .error rfl

theorem failsWith_load (fs : FileSystem) (path : Path) :
    FailsWith userErrorCode (load fs path) := by
  unfold load
  refine (Format.failsWith_ofPath path).bind fun format => ?_
  exact (failsWith_fileText fs path).bind fun content => failsWith_parse format _ content

end Prompt

/-! ## Variables -/

namespace Variables

theorem failsWith_fileText (fs : FileSystem) (role : FileRole) (path : Path) :
    FailsWith userErrorCode (fileText fs role path) := by
  unfold fileText
  split
  · exact .ok _
  · exact .error rfl
  · exact .error rfl

theorem failsWith_jsonText (file : Option String) (name : String) (v : Json.Value) :
    FailsWith userErrorCode (jsonText file name v) := by
  cases v <;> first | exact .ok _ | exact .error rfl

theorem failsWith_yamlText (name : String) (v : Yaml.Value) :
    FailsWith userErrorCode (yamlText name v) := by
  cases v <;> first | exact .ok _ | exact .error rfl

theorem failsWith_pairsOf {α : Type} {code : Nat} {pair : α → Except Failure (String × String)}
    (h : ∀ m, FailsWith code (pair m)) (ms : List α) : FailsWith code (pairsOf pair ms) := by
  induction ms with
  | nil => exact .ok _
  | cons m ms ih =>
    unfold pairsOf
    split
    · rename_i hpair
      exact (h m).handOn hpair
    · split
      · rename_i hpairs
        exact ih.handOn hpairs
      · exact .ok _

theorem failsWith_ofJson (file : Option String) (text : String) :
    FailsWith userErrorCode (ofJson file text) := by
  unfold ofJson
  split
  · exact .error rfl
  · rename_i ms _
    have hpair (m : String × Json.Value) := (failsWith_jsonText file m.1 m.2).map (k := (m.1, ·))
    exact failsWith_pairsOf hpair ms

theorem failsWith_ofYaml (path content : String) :
    FailsWith userErrorCode (ofYaml path content) := by
  unfold ofYaml
  split_ifs
  · exact .ok _
  · split
    · exact .error rfl
    · rename_i es _
      have hpair (e : Yaml.Value × Yaml.Value) :=
        (failsWith_yamlText (keyText e.1) e.2).map (k := (keyText e.1, ·))
      exact failsWith_pairsOf hpair es

theorem failsWith_ofFile (fs : FileSystem) (path : Path) :
    FailsWith userErrorCode (ofFile fs path) := by
  unfold ofFile
  split
  · exact .error rfl
  · split
    · rename_i hread
      exact (failsWith_fileText fs .variableFile path).handOn hread
    · split
      · exact failsWith_ofJson (some (Path.shown path)) _
      · exact failsWith_ofYaml (Path.shown path) _

theorem failsWith_valueOf (fs : FileSystem) (host : Host) (name : String) (written : List Char) :
    FailsWith userErrorCode (valueOf fs host name written) := by
  unfold valueOf
  split
  · exact (host.failsWith_expand _).bind fun path => failsWith_fileText fs (.value name) path
  · exact .ok _

theorem failsWith_addArgument (fs : FileSystem) (host : Host) (a : Assembled) (argument : String) :
    FailsWith userErrorCode (addArgument fs host a argument) := by
  unfold addArgument
  split
  · exact .ok _
  · split
    · exact .ok _
    · rename_i hvalue
      exact (failsWith_valueOf fs host _ _).handOn hvalue

theorem failsWith_addArguments (fs : FileSystem) (host : Host) (a : Assembled)
    (arguments : List String) : FailsWith userErrorCode (addArguments fs host a arguments) := by
  induction arguments generalizing a with
  | nil => exact .ok _
  | cons argument arguments ih =>
    unfold addArguments
    split
    · exact ih _
    · rename_i hadd
      exact (failsWith_addArgument fs host a argument).handOn hadd

theorem Sources.failsWith_assemble (s : Sources) (fs : FileSystem) (host : Host) :
    FailsWith userErrorCode (s.assemble fs host) := by
  have hfile : FailsWith userErrorCode (s.filePairs fs host) := by
    unfold filePairs
    split
    · exact (host.failsWith_expand _).bind fun path => failsWith_ofFile fs path
    · exact .ok _
  have hjson : FailsWith userErrorCode s.jsonPairs := by
    unfold jsonPairs
    split
    · exact failsWith_ofJson none _
    · exact .ok _
  unfold assemble
  split
  · rename_i h
    exact hfile.handOn h
  · split
    · rename_i h
      exact hjson.handOn h
    · exact failsWith_addArguments fs host _ s.arguments

end Variables

/-! ## Invocations -/

namespace Invocation

theorem failsWith_checkVariables (p : Prompt) (b : Bindings) :
    FailsWith userErrorCode (checkVariables p b) := by
  unfold checkVariables
  split_ifs
  · exact .ok _
  · exact .error rfl

theorem failsWith_checkRequirements {host : Host} {dir : Path} (hdir : host.currentDir = .ok dir)
    (p : Prompt) (fs : FileSystem) : FailsWith requirementCode (checkRequirements p fs host) := by
  obtain ⟨commands, directories, -, -, hcheck⟩ := Requirements.check_eq hdir p.declared fs
  rw [checkRequirements_eq, hcheck]
  split_ifs
  · exact .error rfl
  · exact .error rfl
  · exact .error rfl
  · exact .ok _

end Invocation

theorem Tool.failsWith_launch (fs : FileSystem) (searchPath : List Path) (argv : List String) :
    FailsWith toolFailureCode (launch fs searchPath argv) := by
  unfold launch
  split
  · exact .error rfl
  · split
    · exact .ok _
    · exact .error rfl

theorem Tool.eq_nil_of_noProgram {fs : FileSystem} {searchPath : List Path}
    {argv : List String} (h : launch fs searchPath argv = .error .noProgram) : argv = [] := by
  unfold launch at h
  split at h
  · rfl
  · split at h
    · exact nomatch h
    · exact nomatch h

/-! ## Commands -/

namespace Command

open CommandLine

/-- The exit code of a run that ends at a stage. -/
def Stage.exitCode : Stage → Nat
  | .requirements => requirementCode
  | _ => userErrorCode

variable {m : Machine} {c : Context} {o : RunOptions} {r : Request} {f : Failure}

theorem Halts.exitCode_eq {stage : Stage} {ws : List Warning} (h : Halts m c o stage f ws) :
    f.exitCode = stage.exitCode := by
  cases h with
  | currentDir => rfl
  | resolve _ h => exact (Library.failsWith_resolve _ _ _ _).exitCode_eq h
  | format _ h => exact (Format.failsWith_ofPath _).exitCode_eq h
  | read _ _ h => exact (Prompt.failsWith_fileText _ _).exitCode_eq h
  | parse _ _ _ h => exact (Prompt.failsWith_parse _ _ _).exitCode_eq h
  | assemble _ h => exact ((sourcesOf o).failsWith_assemble _ _).exitCode_eq h
  | config _ _ h => exact (c.failsWith_settings _).exitCode_eq h
  | missing _ _ _ h => exact (Invocation.failsWith_checkVariables _ _).exitCode_eq h
  | requirements hload _ _ _ h =>
    obtain ⟨dir, hdir⟩ := hload.currentDir_ok
    exact (Invocation.failsWith_checkRequirements hdir _ _).exitCode_eq h

theorem failsWith_loadPrompt (m : Machine) (c : Context) (name : String) :
    FailsWith userErrorCode (loadPrompt m c name) := by
  unfold loadPrompt
  split
  · rename_i hresolve
    exact (Library.failsWith_resolve m.files m.host c.promptsDir name).handOn hresolve
  · split
    · rename_i hload
      exact (Prompt.failsWith_load m.files _).handOn hload
    · exact .ok _

theorem Stage.exitCode_ne_toolFailureCode (stage : Stage) : stage.exitCode ≠ toolFailureCode := by
  cases stage <;> decide

theorem failsWith_listPrompts (m : Machine) (c : Context) :
    FailsWith userErrorCode (listPrompts m c).outcome := by
  unfold listPrompts
  split
  · rename_i hlist
    exact (Library.failsWith_available m.files c.promptsDir).handOn hlist
  · exact .ok _

theorem failsWith_showPrompt (m : Machine) (c : Context) (name : String) :
    FailsWith userErrorCode (showPrompt m c name).outcome := by
  unfold showPrompt
  split
  · rename_i hload
    exact (failsWith_loadPrompt m c name).handOn hload
  · exact .ok _

theorem listPrompts_launched (m : Machine) (c : Context) : (listPrompts m c).launched = [] := by
  unfold listPrompts
  split <;> rfl

theorem showPrompt_launched (m : Machine) (c : Context) (name : String) :
    (showPrompt m c name).launched = [] := by
  unfold showPrompt
  split <;> rfl

/-- What a request comes to: there is no context for it, or its command is carried out in one. A run
ends at a stage, or passes all of them and is shown or launched. -/
inductive CarriesOut (m : Machine) (r : Request) : Report → Prop
  | unresolved {f : Failure} :
      Context.resolve r.options m.files m.host m.configDir = .error f →
      CarriesOut m r (.failed f [])
  | halted {c : Context} {o : RunOptions} {stage : Stage} {f : Failure} {ws : List Warning} :
      Context.resolve r.options m.files m.host m.configDir = .ok c → r.command = .run o →
      Halts m c o stage f ws → CarriesOut m r (.failed f ws)
  | previewed {c : Context} {o : RunOptions} {i : Invocation} {ws : List Warning} :
      Context.resolve r.options m.files m.host m.configDir = .ok c → r.command = .run o →
      Passes m c o i ws →
      CarriesOut m r { outcome := .ok successCode, output := preview i, warnings := ws }
  | launched {c : Context} {o : RunOptions} {i : Invocation} {ws : List Warning} :
      Context.resolve r.options m.files m.host m.configDir = .ok c → r.command = .run o →
      Passes m c o i ws → CarriesOut m r (launch m i ws)
  | listed {c : Context} : Context.resolve r.options m.files m.host m.configDir = .ok c →
      CarriesOut m r (listPrompts m c)
  | shown {c : Context} {name : String} :
      Context.resolve r.options m.files m.host m.configDir = .ok c →
      CarriesOut m r (showPrompt m c name)

theorem carriesOut_carryOut (m : Machine) (r : Request) : CarriesOut m r (carryOut m r) := by
  unfold carryOut
  split
  · rename_i hresolve
    exact .unresolved hresolve
  · rename_i c hresolve
    split
    · rename_i o hcommand
      rcases halts_or_passes m c o with ⟨stage, f, ws, hhalts⟩ | ⟨i, ws, hpasses⟩
      · rw [runPrompt_of_error hhalts.prepareRun_eq]
        exact .halted hresolve hcommand hhalts
      · rw [runPrompt_of_ok hpasses.prepareRun_eq]
        split_ifs
        · exact .previewed hresolve hcommand hpasses
        · exact .launched hresolve hcommand hpasses
    · exact .listed hresolve
    · exact .shown hresolve

variable {report : Report}

/-- A failure with the exit code of a tool that could not be started comes from the tool. -/
theorem CarriesOut.toolFailure (hreport : CarriesOut m r report) (h : report.outcome = .error f)
    (hcode : f.exitCode = toolFailureCode) :
    ∃ argv, report.launched = [argv] ∧ m.tool argv = .error f := by
  -- The failures of everything but the tool are told apart from its own by their exit codes.
  have hne {α : Type} {x : Except Failure α} (hx : FailsWith userErrorCode x) : x ≠ .error f := by
    intro hf
    have huser := (hx.exitCode_eq hf).symm.trans hcode
    exact absurd huser (by decide)
  cases hreport with
  | unresolved hresolve =>
    obtain rfl := Except.error.inj h
    exact absurd hresolve (hne (Context.failsWith_resolve _ _ _ _))
  | @halted _ _ stage _ _ _ _ hhalts =>
    obtain rfl := Except.error.inj h
    exact absurd (hhalts.exitCode_eq.symm.trans hcode) stage.exitCode_ne_toolFailureCode
  | previewed => exact nomatch h
  | @launched _ _ i ws =>
    refine ⟨i.argv, launch_launched m i ws, ?_⟩
    cases htool : m.tool i.argv with
    | ok output =>
      rw [launch_of_ok htool] at h
      exact nomatch h
    | error g =>
      rw [launch_of_error htool] at h
      obtain rfl := Except.error.inj h
      rfl
  | listed => exact absurd h (hne (failsWith_listPrompts _ _))
  | shown => exact absurd h (hne (failsWith_showPrompt _ _ _))

/-- What is handed to the tool is the command line of a run that passes all stages. -/
theorem CarriesOut.passes_of_launched (hreport : CarriesOut m r report) {argv : List String}
    (h : argv ∈ report.launched) : ∃ c o i ws,
      Context.resolve r.options m.files m.host m.configDir = .ok c ∧ r.command = .run o ∧
      Passes m c o i ws ∧ i.argv = argv := by
  cases hreport with
  | unresolved => exact nomatch h
  | halted => exact nomatch h
  | previewed => exact nomatch h
  | @launched c o i ws hresolve hcommand hpasses =>
    rw [launch_launched, List.mem_singleton] at h
    exact ⟨c, o, i, ws, hresolve, hcommand, hpasses, h.symm⟩
  | listed =>
    rw [listPrompts_launched] at h
    exact nomatch h
  | shown =>
    rw [showPrompt_launched] at h
    exact nomatch h

/-- Among the failures of a request, the exit code of a tool that could not be started tells those
of the tool from all others. -/
theorem exitCode_of_tool_iff {fs : FileSystem} {searchPath : List Path}
    (htool : m.tool = Tool.launch fs searchPath) (h : (carryOut m r).outcome = .error f) :
    f.exitCode = toolFailureCode ↔
      ∃ argv, (carryOut m r).launched = [argv] ∧ m.tool argv = .error f := by
  constructor
  · exact (carriesOut_carryOut m r).toolFailure h
  · intro hlaunched
    obtain ⟨argv, -, hfails⟩ := hlaunched
    rw [htool] at hfails
    exact (Tool.failsWith_launch fs searchPath argv).exitCode_eq hfails

end Command

end PromptRunner
