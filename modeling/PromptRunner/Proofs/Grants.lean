import PromptRunner.Proofs.Path.Texts
import PromptRunner.Proofs.Preparation

/-!
# What an invocation grants

The tool reads its arguments from left to right, and the word behind an option that takes a value
belongs to the option. Read in this way, an invocation grants no more than its prompt declares: the
directories that are declared, all of them found, and grants for the commands that are declared, all
of them found, followed by tools.
-/

namespace PromptRunner.Invocation

def grantOption : String := "--allowedTools"

def directoryOption : String := "--add-dir"

/-- The options that the word behind them belongs to. -/
def valueOptions : List String :=
  [promptOption, "--output-format", "--model", grantOption, directoryOption]

/-- The values of an option among arguments. A word that is itself a value is no option, whatever it
looks like. -/
def valuesOf (option : String) : List String → List String
  | [] => []
  | [_] => []
  | word :: next :: rest =>
    if word ∈ valueOptions then
      if word = option then next :: valuesOf option rest else valuesOf option rest
    else valuesOf option (next :: rest)

/-- The grants that follow from what is declared: those of the commands, and behind them either the
tools that are declared or, for a prompt with commands that declares none, the default ones. -/
inductive Granted (r : Requirements) (defaultTools : List String) : List String → Prop
  | nothing : r.commands = [] → r.tools = none → Granted r defaultTools []
  | declared {tools : List String} : r.tools = some tools →
      Granted r defaultTools (r.commands.map (fun c => "Bash(" ++ c ++ ":*)") ++ tools)
  | standard : r.commands ≠ [] → r.tools = none →
      Granted r defaultTools (r.commands.map (fun c => "Bash(" ++ c ++ ":*)") ++ defaultTools)

variable {option : String} {r : Requirements} {tools : List String}

theorem granted_grants (r : Requirements) (defaultTools : List String) :
    Granted r defaultTools (grants r defaultTools) := by
  unfold grants Requirements.declaresGrants
  cases htools : r.tools with
  | some tools =>
    rw [Option.isSome_some, Bool.or_true, if_pos rfl]
    exact .declared htools
  | none =>
    by_cases hcommands : r.commands = []
    · simp only [hcommands, List.isEmpty_nil, Option.isSome_none, Bool.not_true, Bool.or_self,
        Bool.false_eq_true, if_false]
      exact .nothing hcommands htools
    · simp only [List.isEmpty_eq_false_iff.mpr hcommands, Bool.not_false, Bool.true_or, if_true]
      exact .standard hcommands htools

theorem Granted.origin {entries : List String} (h : Granted r tools entries) {entry : String}
    (hentry : entry ∈ entries) :
    (∃ c ∈ r.commands, entry = "Bash(" ++ c ++ ":*)") ∨
      (∃ declared, r.tools = some declared ∧ entry ∈ declared) ∨
      r.tools = none ∧ r.commands ≠ [] ∧ entry ∈ tools := by
  cases h with
  | nothing => exact nomatch hentry
  | @declared declared htools =>
    rcases List.mem_append.mp hentry with hgrant | htool
    · obtain ⟨c, hc, hgrant⟩ := List.mem_map.mp hgrant
      exact .inl ⟨c, hc, hgrant.symm⟩
    · exact .inr (.inl ⟨declared, htools, htool⟩)
  | standard hcommands htools =>
    rcases List.mem_append.mp hentry with hgrant | htool
    · obtain ⟨c, hc, hgrant⟩ := List.mem_map.mp hgrant
      exact .inl ⟨c, hc, hgrant.symm⟩
    · exact .inr (.inr ⟨htools, hcommands, htool⟩)

theorem valuesOf_pair (option : String) {word : String} (h : word ∈ valueOptions) (value : String)
    (rest : List String) :
    valuesOf option (word :: value :: rest) =
      (if word = option then [value] else []) ++ valuesOf option rest := by
  rw [valuesOf, if_pos h]
  split <;> rfl

theorem valuesOf_flag {word : String} (h : word ∉ valueOptions) (rest : List String) :
    valuesOf option (word :: rest) = valuesOf option rest := by
  cases rest with
  | nil => rfl
  | cons next rest => rw [valuesOf, if_neg h]

theorem valuesOf_optional (option : String) {word : String} (h : word ∈ valueOptions)
    (value : Option String) (rest : List String) :
    valuesOf option ((value.elim [] fun value => [word, value]) ++ rest) =
      (if word = option then value.toList else []) ++ valuesOf option rest := by
  cases value with
  | none => simp
  | some value => exact valuesOf_pair option h value rest

/-- An option that is repeated has the values of all its pairs, in order. -/
theorem valuesOf_pairs (option : String) {word : String} (h : word ∈ valueOptions)
    (values : List String) :
    valuesOf option (values.flatMap fun value => [word, value]) =
      if word = option then values else [] := by
  induction values with
  | nil => split <;> rfl
  | cons value values ih =>
    have hvalue := valuesOf_pair option h value (values.flatMap fun value => [word, value])
    rw [ih] at hvalue
    refine hvalue.trans ?_
    split <;> rfl

theorem valuesOf_verboseOptions (verbose : Bool) (rest : List String) :
    valuesOf option ((if verbose then verboseOptions else []) ++ rest) =
      (if "--output-format" = option then if verbose then ["stream-json"] else [] else []) ++
        valuesOf option rest := by
  cases verbose with
  | false => simp
  | true =>
    have hvalue : "--output-format" ∈ valueOptions := by decide
    have hformat := valuesOf_pair option hvalue "stream-json" ("--verbose" :: rest)
    have hverbose : valuesOf option ("--verbose" :: rest) = valuesOf option rest :=
      valuesOf_flag (by decide) rest
    rw [hverbose] at hformat
    exact hformat

theorem valuesOf_modelArguments (model : Option String) (rest : List String) :
    valuesOf option (modelArguments model ++ rest) =
      (if "--model" = option then model.toList else []) ++ valuesOf option rest := by
  have hpair : modelArguments model = model.elim [] fun model => ["--model", model] := by
    cases model <;> rfl
  rw [hpair]
  exact valuesOf_optional option (by decide) model rest

theorem valuesOf_grantArguments (r : Requirements) (defaultTools rest : List String) :
    valuesOf option (grantArguments r defaultTools ++ rest) =
      (if grantOption = option then
        if grants r defaultTools = [] then [] else [Text.separated "," (grants r defaultTools)]
        else []) ++ valuesOf option rest := by
  unfold grantArguments
  by_cases hnone : grants r defaultTools = []
  · simp [hnone]
  · rw [if_neg (mt List.isEmpty_iff.mp hnone), if_neg hnone]
    exact valuesOf_pair option (by decide) _ rest

theorem valuesOf_directoryPairs (paths : List Path) :
    valuesOf option (paths.flatMap fun path => [directoryOption, Path.shown path]) =
      if directoryOption = option then paths.map Path.shown else [] := by
  have hword : directoryOption ∈ valueOptions := by decide
  have hpairs := valuesOf_pairs option hword (paths.map Path.shown)
  rwa [List.flatMap_map] at hpairs

/-- A prompt without requirements is one that declares nothing. -/
theorem requirementArguments_eq (requirements : Option Requirements) (settings : InvocationSettings)
    (host : Host) : requirementArguments requirements settings host =
      (directoryArguments host (requirements.getD .empty).directories).map
        (grantArguments (requirements.getD .empty) settings.defaultTools ++ ·) := by
  cases requirements <;> rfl

/-- The arguments of an invocation behind its program, with the directories that it completes. -/
theorem build_eq_ok_iff {text : String} {model : Option String} {requirements : Option Requirements}
    {settings : InvocationSettings} {host : Host} {argv : List String} :
    build text model requirements settings host = .ok argv ↔
      ∃ paths, List.Forall₂ (fun dir path => host.expand dir = .ok path)
        (requirements.getD .empty).directories paths ∧
        argv = settings.program ++ promptOption :: text ::
          ((if settings.verbose then verboseOptions else []) ++ (modelArguments model ++
            (grantArguments (requirements.getD .empty) settings.defaultTools ++
              paths.flatMap fun path => [directoryOption, Path.shown path]))) := by
  unfold build
  rw [requirementArguments_eq, directoryArguments]
  simp only [Except.map_eq_ok_iff, ← Except.mapM_eq_ok_iff, promptOption, directoryOption]
  constructor
  · rintro ⟨_, ⟨_, ⟨paths, hpaths, rfl⟩, rfl⟩, rfl⟩
    exact ⟨paths, hpaths, by simp only [List.append_assoc, List.cons_append, List.nil_append]⟩
  · rintro ⟨paths, hpaths, rfl⟩
    refine ⟨_, ⟨_, ⟨paths, hpaths, rfl⟩, rfl⟩, ?_⟩
    simp only [List.append_assoc, List.cons_append, List.nil_append]

theorem values_of_build {text : String} {model : Option String} {requirements : Option Requirements}
    {settings : InvocationSettings} {host : Host} {argv : List String}
    (h : build text model requirements settings host = .ok argv) :
    ∃ arguments paths, argv = settings.program ++ arguments ∧
      List.Forall₂ (fun dir path => host.expand dir = .ok path)
        (requirements.getD .empty).directories paths ∧
      ∀ option, valuesOf option arguments =
        (if promptOption = option then [text] else []) ++
        (if "--output-format" = option then if settings.verbose then ["stream-json"] else []
          else []) ++
        (if "--model" = option then model.toList else []) ++
        (if grantOption = option then
          if grants (requirements.getD .empty) settings.defaultTools = [] then []
          else [Text.separated "," (grants (requirements.getD .empty) settings.defaultTools)]
          else []) ++
        if directoryOption = option then paths.map Path.shown else [] := by
  obtain ⟨paths, hpaths, hargv⟩ := build_eq_ok_iff.mp h
  refine ⟨_, paths, hargv, hpaths, fun option => ?_⟩
  rw [valuesOf_pair option (by decide), valuesOf_verboseOptions, valuesOf_modelArguments,
    valuesOf_grantArguments, valuesOf_directoryPairs]
  simp only [List.append_assoc]

/-- Behind its program an invocation grants what its prompt declares and nothing beyond it. Its
directories are those that are declared, in order and as often, each completed to an absolute path
without detours at which a directory has been found. A directory is granted as it is shown, which is
the path itself just if it is a text; and so it is wherever the current and home directories are.
The grants are those of the declared commands, all of them found, and behind them the declared tools
or else, for a prompt with commands, the default ones; they stand in one argument, or in none if
there is no grant. -/
theorem grants_only_what_is_declared (p : Prompt) (b : Bindings) (settings : InvocationSettings)
    (fs : FileSystem) (host : Host) (i : Invocation)
    (hcurrent : ∀ dir, host.currentDir = .ok dir → Path.isAbsolute dir = true)
    (h : prepare p b settings fs host = .ok i) :
    ∃ arguments entries paths, i.argv = settings.program ++ arguments ∧
      List.Forall₂ (fun dir path => host.expand dir = .ok path) p.declared.directories paths ∧
      (∀ path ∈ paths, Path.IsCanonical path ∧ fs.HasDirectory path) ∧
      valuesOf directoryOption arguments = paths.map Path.shown ∧
      (∀ path ∈ paths, Path.ofText (Path.shown path) = path ↔ Path.IsText path) ∧
      (host.HasTexts → (valuesOf directoryOption arguments).map Path.ofText = paths) ∧
      Granted p.declared settings.defaultTools entries ∧
      (∀ entry ∈ entries,
        (∃ c ∈ p.declared.commands, Requirements.CommandFound fs host c ∧
          entry = "Bash(" ++ c ++ ":*)") ∨
        (∃ tools, p.declared.tools = some tools ∧ entry ∈ tools) ∨
        p.declared.tools = none ∧ p.declared.commands ≠ [] ∧ entry ∈ settings.defaultTools) ∧
      valuesOf grantOption arguments =
        if entries = [] then [] else [Text.separated "," entries] := by
  obtain ⟨-, hcheck, -, hbuild⟩ := prepare_ok h
  obtain ⟨hcommands, -, hdirectories⟩ := Requirements.check_ok hcheck
  obtain ⟨arguments, paths, hargv, hpaths, hvalues⟩ := values_of_build hbuild
  have hdirs : valuesOf directoryOption arguments = paths.map Path.shown := hvalues directoryOption
  have hgrants : valuesOf grantOption arguments =
      if grants p.declared settings.defaultTools = [] then []
      else [Text.separated "," (grants p.declared settings.defaultTools)] :=
    (hvalues grantOption).trans (List.append_nil _)
  have hgranted := granted_grants p.declared settings.defaultTools
  refine ⟨arguments, grants p.declared settings.defaultTools, paths, hargv, hpaths, ?_, hdirs,
    fun _ _ => Path.ofText_shown_iff, ?_, hgranted, ?_, hgrants⟩
  · intro path hpath
    obtain ⟨dir, hdir, hexpand⟩ := List.Forall₂.exists_of_mem_right hpaths hpath
    obtain ⟨found, hfound, hdirectory⟩ := hdirectories dir hdir
    obtain rfl := Except.ok.inj (hexpand.symm.trans hfound)
    exact ⟨Host.isCanonical_of_expand hexpand hcurrent, hdirectory⟩
  · intro htexts
    rw [hdirs]
    exact Path.map_ofText_shown (htexts.isText_of_mem hpaths)
  · intro entry hentry
    rcases hgranted.origin hentry with ⟨c, hc, hgrant⟩ | htool
    · exact .inl ⟨c, hc, hcommands c hc, hgrant⟩
    · exact .inr htool

/-- A prompt whose text and model look like options, and which declares one directory twice. -/
def reviewPrompt : Prompt where
  metadata := {
    model := some "--allowedTools"
    requirements := some { commands := ["git"], directories := [".", "/w/../w"] } }
  body := .flat "--add-dir"

def reviewSettings : InvocationSettings where
  program := ["tool", "--add-dir"]
  defaultTools := ["Read"]

def reviewHost : Host where
  currentDir := .ok (Path.ofText "/w")
  searchPath := [Path.ofText "/b"]

def reviewFiles : FileSystem where
  entries := [
    ([Path.ofText "b"], .directory),
    ([Path.ofText "b", Path.ofText "git"], .file .empty true),
    ([Path.ofText "w"], .directory)]
  unique := by decide
  named := by decide

def reviewInvocation : Invocation where
  text := "--add-dir"
  argv := ["tool", "--add-dir", "-p", "--add-dir", "--model", "--allowedTools", "--allowedTools",
    "Bash(git:*),Read", "--add-dir", "/w", "--add-dir", "/w"]

theorem grants_of_review :
    prepare reviewPrompt .empty reviewSettings reviewFiles reviewHost = .ok reviewInvocation ∧
      (∀ dir, reviewHost.currentDir = .ok dir → Path.isAbsolute dir = true) ∧
      ∃ arguments, reviewInvocation.argv = ["tool", "--add-dir"] ++ arguments ∧
        valuesOf directoryOption arguments = ["/w", "/w"] ∧
        reviewFiles.HasDirectory (Path.ofText "/w") := by
  have hprepare : prepare reviewPrompt .empty reviewSettings reviewFiles reviewHost =
      .ok reviewInvocation := by rfl
  have hcurrent : ∀ dir, reviewHost.currentDir = .ok dir → Path.isAbsolute dir = true := by
    rintro _ ⟨⟩
    rfl
  obtain ⟨arguments, _, paths, hargv, hpaths, hfound, hvalues, -⟩ := grants_only_what_is_declared
    reviewPrompt .empty reviewSettings reviewFiles reviewHost reviewInvocation hcurrent hprepare
  obtain rfl : paths = [Path.ofText "/w", Path.ofText "/w"] :=
    (Except.ok.inj (Except.mapM_eq_ok_iff.mpr hpaths)).symm
  have hdirectory := (hfound (Path.ofText "/w") List.mem_cons_self).2
  exact ⟨hprepare, hcurrent, arguments, hargv, hvalues, hdirectory⟩

/-- All words of a command line grant just the declared directories, each by its own path. -/
def GrantsExactly (dirs : List String) (host : Host) (argv : List String) : Prop :=
  List.Forall₂ (fun dir word => host.expand dir = .ok (Path.ofText word)) dirs
    (valuesOf directoryOption argv)

def barePrompt : Prompt where
  metadata := .empty
  body := .flat ""

/-- A program that is given a directory of its own. -/
def wideSettings : InvocationSettings where
  program := ["tool", "--add-dir", "/x"]
  defaultTools := []

def herePrompt : Prompt where
  metadata := { requirements := some { directories := ["."] } }
  body := .flat ""

/-- The path of a directory whose name is no text. -/
def unspelledPath : Path :=
  [Path.slash, 0xff]

def unspelledHost : Host where
  currentDir := .ok unspelledPath

def unspelledFiles : FileSystem where
  entries := [([[0xff]], .directory)]
  unique := by decide
  named := by decide

/-- The program may be given directories by its own words, and a path that is no text cannot be an
argument: the word that shows it names another place, at which there is nothing. -/
theorem grants_beyond_declared :
    (∃ i, prepare barePrompt .empty wideSettings reviewFiles reviewHost = .ok i ∧
      ¬ GrantsExactly [] reviewHost i.argv) ∧
    ∃ i, prepare herePrompt .empty ⟨["tool"], false, []⟩ unspelledFiles unspelledHost = .ok i ∧
      unspelledHost.expand "." = .ok unspelledPath ∧
      ¬ GrantsExactly ["."] unspelledHost i.argv ∧
      ∀ word ∈ valuesOf directoryOption i.argv,
        unspelledFiles.find (Path.ofText word) = .error .missing := by
  refine ⟨⟨⟨"", ["tool", "--add-dir", "/x", "-p", ""]⟩, rfl, ?_⟩,
    ⟨"", ["tool", "-p", "", "--add-dir", "/\ufffd"]⟩, rfl, rfl, ?_, ?_⟩
  · intro h
    exact nomatch h
  · intro h
    have hword : valuesOf directoryOption ["tool", "-p", "", "--add-dir", "/\ufffd"] = ["/\ufffd"] := rfl
    rw [GrantsExactly, hword] at h
    cases h with
    | cons h _ => exact absurd (Except.ok.inj h) (by decide)
  · intro word hword
    obtain rfl : word = "/\ufffd" := List.mem_singleton.mp hword
    rfl

end PromptRunner.Invocation
