import PromptRunner.Proofs.Contexts
import PromptRunner.Proofs.Locating

/-!
# Where the configuration is looked for

The command line, the environment and the directory of configurations may each name a file for the
configuration. Only the first of them that does counts, and what a run makes of its configuration
depends on this file alone. A file that the command line names has to exist; another one may be
missing, and then the standard settings hold. A file that is found has to be read and has to make
sense. But a file that stands where it cannot be looked at is taken for a missing one. The option
for the directory of prompts takes the place of what the settings say of it, but does not save a run
whose configuration fails.
-/

namespace PromptRunner

namespace FileSystem

def unlocked (fs : FileSystem) : FileSystem :=
  { fs with closed := [] }

/-- Something stands where a path leads, whether it can be looked at or not. -/
def Stands (fs : FileSystem) (path : Path) : Prop :=
  path ≠ [] ∧ ∃ place,
    fs.unlocked.follow (if Path.isAbsolute path then [] else fs.workingPlace) (Path.split path) =
      .ok place

variable {fs : FileSystem} {path : Path}

theorem exists_readText_error (h : fs.contains path = false) : ∃ e, fs.readText path = .error e := by
  rw [contains] at h
  rw [readText, readBytes]
  cases hfind : fs.find path with
  | ok entry =>
    rw [hfind] at h
    exact absurd h.symm Bool.false_ne_true
  | error e => exact ⟨e, rfl⟩

theorem contains_of_readText {text : String} (h : fs.readText path = .ok text) :
    fs.contains path = true := by
  by_contra hcontains
  obtain ⟨e, herror⟩ := exists_readText_error (Bool.eq_false_iff.mpr hcontains)
  exact nomatch h.symm.trans herror

theorem step_unlocked {place next : Place} {part : Path.Part} (h : fs.step place part = .ok next) :
    fs.unlocked.step place part = .ok next := by
  have hdirectory := directory_of_step h
  have hat (q : Place) : fs.unlocked.at? q = fs.at? q := rfl
  rw [step, hdirectory] at h
  rw [step, hat, hdirectory]
  simp only [hat] at h ⊢
  split_ifs at h ⊢ <;> simp_all [unlocked]

theorem follow_unlocked {place next : Place} {parts : List Path.Part}
    (h : fs.follow place parts = .ok next) : fs.unlocked.follow place parts = .ok next := by
  induction parts generalizing place with
  | nil => exact h
  | cons part parts ih =>
    obtain ⟨middle, hstep, hrest⟩ := follow_cons_eq_ok.mp h
    exact follow_cons_eq_ok.mpr ⟨middle, step_unlocked hstep, ih hrest⟩

theorem exists_locate_of_contains (h : fs.contains path = true) : ∃ place, fs.locate path = .ok place := by
  rw [contains, find] at h
  cases hlocate : fs.locate path with
  | error e =>
    rw [hlocate] at h
    exact absurd h Bool.false_ne_true
  | ok place => exact ⟨place, rfl⟩

theorem stands_of_contains (h : fs.contains path = true) : fs.Stands path := by
  obtain ⟨place, hlocate⟩ := exists_locate_of_contains h
  obtain ⟨-, hne, -, hfollow⟩ := locate_eq_ok_iff.mp hlocate
  exact ⟨hne, place, follow_unlocked hfollow⟩

end FileSystem

namespace Config

/-- What a text says of the settings. A blank text says nothing, and every other text has to
describe settings that can run. -/
inductive Says (text : String) : Config → Prop
  | nothing : Text.isBlank text = true → Says text .default
  | settings {d : Yaml.Document} {c : Config} : Text.isBlank text = false →
      Yaml.Document.ofText? text = some d → Describes d c → c.IsRunnable → Says text c

theorem ofText_eq_ok_iff {text : String} {c : Config} : ofText text = .ok c ↔ Says text c := by
  constructor
  · intro h
    unfold ofText at h
    split at h
    · rename_i hblank
      obtain rfl := Except.ok.inj h
      exact .nothing hblank
    · rename_i hblank
      split at h
      · exact nomatch h
      · rename_i hread
        obtain ⟨d, hdocument, hdecode⟩ := Option.bind_eq_some_iff.mp hread
        have hdescribes := (decode_eq_some_iff (Yaml.Document.isSized_of_ofText? hdocument)).mp hdecode
        split at h
        · rename_i hvalid
          obtain rfl := Except.ok.inj h
          exact .settings (Bool.eq_false_iff.mpr hblank) hdocument hdescribes
            (validate_ok_iff.mp hvalid)
        · exact nomatch h
  · rintro (hblank | ⟨hblank, hdocument, hdescribes, hrunnable⟩)
    · exact if_pos hblank
    · have hdecode := (decode_eq_some_iff (Yaml.Document.isSized_of_ofText? hdocument)).mpr hdescribes
      have hvalid := validate_ok_iff.mpr hrunnable
      simp [ofText, hblank, hdocument, hdecode, hvalid]

section Load
variable {fs fs' : FileSystem} {path : Path}

theorem load_congr (hfind : fs.find path = fs'.find path)
    (hread : fs.mayRead path = fs'.mayRead path) : load fs path = load fs' path := by
  simp only [load, FileSystem.readText, FileSystem.readBytes, hfind, hread]

theorem loadOrDefault_congr (hfind : fs.find path = fs'.find path)
    (hread : fs.mayRead path = fs'.mayRead path) : loadOrDefault fs path = loadOrDefault fs' path := by
  rw [loadOrDefault, loadOrDefault, FileSystem.contains, FileSystem.contains, hfind,
    load_congr hfind hread]

theorem load_of_unreadable {e : FileError} (h : fs.readText path = .error e) :
    load fs path = .error (.fileUnreadable .config (Path.shown path) e) := by
  rw [load, h]

theorem load_of_says {text : String} {c : Config} (h : fs.readText path = .ok text)
    (hc : Says text c) : load fs path = .ok c := by
  rw [load, h]
  simp only [ofText_eq_ok_iff.mpr hc]

theorem load_of_invalid {text : String} (h : fs.readText path = .ok text)
    (hinvalid : ∀ c, ¬ Says text c) :
    ∃ fault, load fs path = .error (.config fault (some (Path.shown path))) := by
  rw [load, h]
  cases htext : ofText text with
  | ok c => exact absurd (ofText_eq_ok_iff.mp htext) (hinvalid c)
  | error fault => exact ⟨fault, by simp only [htext]⟩

end Load

end Config

/-- Where a run looks for its configuration: at a file that has to exist, at one that may be
missing, or nowhere. -/
inductive ConfigPlace where
  | required (path : Path)
  | optional (path : Path)
  | nowhere

namespace ConfigPlace

def path? : ConfigPlace → Option Path
  | required path => some path
  | optional path => some path
  | nowhere => none

def load (fs : FileSystem) : ConfigPlace → Except Failure Config
  | required path => Config.load fs path
  | optional path => Config.loadOrDefault fs path
  | nowhere => .ok .default

variable {fs fs' : FileSystem} {place : ConfigPlace} {path : Path}

theorem load_congr (h : ∀ path, place.path? = some path →
    fs.find path = fs'.find path ∧ fs.mayRead path = fs'.mayRead path) :
    place.load fs = place.load fs' := by
  cases place with
  | required path => exact Config.load_congr (h path rfl).1 (h path rfl).2
  | optional path => exact Config.loadOrDefault_congr (h path rfl).1 (h path rfl).2
  | nowhere => rfl

theorem load_of_absent (h : fs.contains path = false) : (optional path).load fs = .ok .default := by
  rw [load, Config.loadOrDefault, h, if_neg Bool.false_ne_true]

/-- What is there is read, whether it has to be there or not. -/
theorem load_of_present (hplace : place.path? = some path) (h : fs.contains path = true) :
    place.load fs = Config.load fs path := by
  cases place with
  | required other =>
    obtain rfl := Option.some.inj hplace
    rfl
  | optional other =>
    obtain rfl := Option.some.inj hplace
    rw [load, Config.loadOrDefault, if_pos h]
  | nowhere => exact nomatch hplace

end ConfigPlace

namespace Context

/-- Which place a run looks at: the file that the command line names, or else the one that the
environment names, unless the name is empty, or else the one in the directory of configurations, if
there is one. -/
inductive LooksAt (options : GlobalOptions) (host : Host) (configDir : Option Path) :
    ConfigPlace → Prop
  | commandLine {path : Path} : options.config = some path →
      LooksAt options host configDir (.required path)
  | environment {path : String} : options.config = none →
      host.valueOf? "PRUN_CONFIG" = some path → path ≠ "" →
      LooksAt options host configDir (.optional (Path.ofText path))
  | directory {dir : Path} : options.config = none →
      (∀ path, host.valueOf? "PRUN_CONFIG" = some path → path = "") → configDir = some dir →
      LooksAt options host configDir
        (.optional (Path.join (Path.join dir (Path.ofText "prun")) (Path.ofText "config.yaml")))
  | nowhere : options.config = none →
      (∀ path, host.valueOf? "PRUN_CONFIG" = some path → path = "") → configDir = none →
      LooksAt options host configDir .nowhere

variable {options : GlobalOptions} {host : Host} {configDir : Option Path} {place other : ConfigPlace}

theorem exists_looksAt (options : GlobalOptions) (host : Host) (configDir : Option Path) :
    ∃ place, LooksAt options host configDir place := by
  cases hoption : options.config with
  | some path => exact ⟨_, .commandLine hoption⟩
  | none =>
    by_cases hvalue : ∀ path, host.valueOf? "PRUN_CONFIG" = some path → path = ""
    · cases hdir : configDir with
      | some dir => exact ⟨_, .directory hoption hvalue rfl⟩
      | none => exact ⟨_, .nowhere hoption hvalue rfl⟩
    · push Not at hvalue
      obtain ⟨path, hvalue, hne⟩ := hvalue
      exact ⟨_, .environment hoption hvalue hne⟩

theorem LooksAt.eq (h : LooksAt options host configDir place)
    (hother : LooksAt options host configDir other) : other = place := by
  cases h with
  | commandLine hoption => cases hother <;> simp_all
  | environment hoption hvalue hne => cases hother <;> simp_all
  | directory hoption hvalue hdir => cases hother <;> simp_all
  | nowhere hoption hvalue hdir => cases hother <;> simp_all

theorem defaultPath?_of_value {path : String} (h : host.valueOf? "PRUN_CONFIG" = some path)
    (hne : path ≠ "") : Config.defaultPath? host configDir = some (Path.ofText path) := by
  have hfilter : (host.valueOf? Config.pathVariable).filter (fun p => !p.isEmpty) = some path := by
    rw [Config.pathVariable, h, Option.filter_some, if_pos]
    simpa using hne
  rw [Config.defaultPath?, hfilter]

theorem defaultPath?_of_no_value (h : ∀ path, host.valueOf? "PRUN_CONFIG" = some path → path = "") :
    Config.defaultPath? host configDir = configDir.map Config.fileIn := by
  have hfilter : (host.valueOf? Config.pathVariable).filter (fun p => !p.isEmpty) = none := by
    rw [Option.filter_eq_none_iff]
    intro path hvalue
    simp [h path hvalue]
  rw [Config.defaultPath?, hfilter]

theorem LooksAt.loadConfig_eq (h : LooksAt options host configDir place) (fs : FileSystem) :
    loadConfig options fs host configDir = place.load fs := by
  cases h with
  | commandLine hoption =>
    rw [loadConfig, hoption]
    rfl
  | environment hoption hvalue hne =>
    rw [loadConfig, hoption]
    simp only [defaultPath?_of_value hvalue hne]
    rfl
  | directory hoption hvalue hdir =>
    rw [loadConfig, hoption]
    simp only [defaultPath?_of_no_value hvalue, hdir]
    rfl
  | nowhere hoption hvalue hdir =>
    rw [loadConfig, hoption]
    simp only [defaultPath?_of_no_value hvalue, hdir]
    rfl

theorem chooseDirectory_eq_error_iff {config : Config} {f : Failure} :
    chooseDirectory options config host = .error f ↔
      ∃ e, host.currentDir = .error e ∧ f = .currentDirUnknown e := by
  unfold chooseDirectory Config.directory
  split
  · exact Host.expand_eq_error_iff
  · exact Host.expand_eq_error_iff

/-- Only its configuration keeps a run from starting, or else the current directory. -/
theorem resolve_eq_error_iff {fs : FileSystem} {f : Failure} :
    resolve options fs host configDir = .error f ↔
      loadConfig options fs host configDir = .error f ∨
        (∃ config, loadConfig options fs host configDir = .ok config) ∧
          ∃ e, host.currentDir = .error e ∧ f = .currentDirUnknown e := by
  rw [resolve]
  cases loadConfig options fs host configDir with
  | error g => simp
  | ok config =>
    simp only [reduceCtorEq, Except.ok.injEq, exists_eq', true_and, false_or]
    have hchoose : chooseDirectory options config host = .error f ↔ _ := chooseDirectory_eq_error_iff
    rw [← hchoose]
    cases chooseDirectory options config host with
    | error g => simp
    | ok dir => simp

/-- A run starts with a configuration, unless the current directory cannot be reached. -/
def StartsWith (options : GlobalOptions) (host : Host) (configDir : Option Path) (fs : FileSystem)
    (config : Config) : Prop :=
  (∀ dir, host.currentDir = .ok dir →
    ∃ c, resolve options fs host configDir = .ok c ∧ c.config = config) ∧
  ∀ e, host.currentDir = .error e →
    resolve options fs host configDir = .error (.currentDirUnknown e)

namespace LooksAt
variable {fs : FileSystem} (h : LooksAt options host configDir place)
include h

theorem resolve_of_error {f : Failure} (hload : place.load fs = .error f) :
    resolve options fs host configDir = .error f :=
  resolve_eq_error_iff.mpr (.inl ((h.loadConfig_eq fs).trans hload))

theorem startsWith_of_ok {config : Config} (hload : place.load fs = .ok config) :
    StartsWith options host configDir fs config := by
  have hconfig := (h.loadConfig_eq fs).trans hload
  constructor
  · intro dir hdir
    cases hchoose : chooseDirectory options config host with
    | ok promptsDir => exact ⟨⟨config, promptsDir⟩, resolve_eq_ok_iff.mpr ⟨hconfig, hchoose⟩, rfl⟩
    | error f =>
      obtain ⟨e, he, -⟩ := chooseDirectory_eq_error_iff.mp hchoose
      exact nomatch hdir.symm.trans he
  · exact fun e he => resolve_eq_error_iff.mpr (.inr ⟨⟨config, hconfig⟩, e, he, rfl⟩)

end LooksAt

/-- A place decides what a run starts with. Nothing else in the file system counts. A file that
cannot be read where it has to be is a failure, and where nothing is asked for or found the standard
settings hold. A file that is found is a failure as well, unless its text says what the settings
are. -/
structure Decides (options : GlobalOptions) (host : Host) (configDir : Option Path)
    (place : ConfigPlace) : Prop where
  nothingElse : ∀ {fs fs' : FileSystem},
    (∀ path, place.path? = some path →
      fs.find path = fs'.find path ∧ fs.mayRead path = fs'.mayRead path) →
    resolve options fs host configDir = resolve options fs' host configDir
  missing : ∀ {fs : FileSystem} {path : Path}, place = .required path → fs.contains path = false →
    ∃ f, resolve options fs host configDir = .error f ∧ f.kind = .io
  standard : ∀ {fs : FileSystem},
    place = .nowhere ∨ (∃ path, place = .optional path ∧ fs.contains path = false) →
    StartsWith options host configDir fs .default
  unreadable : ∀ {fs : FileSystem} {path : Path} {e : FileError}, place.path? = some path →
    place = .required path ∨ fs.contains path = true → fs.readText path = .error e →
    resolve options fs host configDir =
      .error (.fileUnreadable .config (Path.shown path) e)
  invalid : ∀ {fs : FileSystem} {path : Path} {text : String}, place.path? = some path →
    fs.readText path = .ok text → (∀ config, ¬ Config.Says text config) →
    ∃ f, resolve options fs host configDir = .error f ∧ f.kind = .malformedInput
  settings : ∀ {fs : FileSystem} {path : Path} {text : String} {config : Config},
    place.path? = some path → fs.readText path = .ok text → Config.Says text config →
    StartsWith options host configDir fs config

theorem LooksAt.decides (h : LooksAt options host configDir place) :
    Decides options host configDir place := by
  have unreadable {fs : FileSystem} {path : Path} {e : FileError} (hpath : place.path? = some path)
      (hfound : place = .required path ∨ fs.contains path = true)
      (hread : fs.readText path = .error e) :
      resolve options fs host configDir = .error (.fileUnreadable .config (Path.shown path) e) := by
    refine h.resolve_of_error ?_
    rcases hfound with rfl | hcontains
    · exact Config.load_of_unreadable hread
    · exact (ConfigPlace.load_of_present hpath hcontains).trans (Config.load_of_unreadable hread)
  refine ⟨?_, ?_, ?_, unreadable, ?_, ?_⟩
  · intro fs fs' hsame
    rw [resolve, resolve, h.loadConfig_eq, h.loadConfig_eq, ConfigPlace.load_congr hsame]
  · rintro fs path rfl hcontains
    obtain ⟨e, hread⟩ := FileSystem.exists_readText_error hcontains
    exact ⟨_, unreadable rfl (.inl rfl) hread, rfl⟩
  · rintro fs (rfl | ⟨path, rfl, hcontains⟩)
    · exact h.startsWith_of_ok rfl
    · exact h.startsWith_of_ok (ConfigPlace.load_of_absent hcontains)
  · intro fs path text hpath hread hinvalid
    have hcontains := FileSystem.contains_of_readText hread
    obtain ⟨fault, hfault⟩ := Config.load_of_invalid hread hinvalid
    have hload := (ConfigPlace.load_of_present hpath hcontains).trans hfault
    exact ⟨_, h.resolve_of_error hload, rfl⟩
  · intro fs path text config hpath hread hsays
    have hcontains := FileSystem.contains_of_readText hread
    have hload := (ConfigPlace.load_of_present hpath hcontains).trans (Config.load_of_says hread hsays)
    exact h.startsWith_of_ok hload

/-- Every run looks at one place for its configuration, and this place decides what the run starts
with. The directory of prompts is the one that the command line gives, whatever the settings say, or
else the one of the settings, or else a standard one. But what the command line says of it never
makes a run fail or keeps it from failing. A run fails by its configuration, or else because the
current directory cannot be reached. -/
theorem one_place_decides (options : GlobalOptions) (host : Host) (configDir : Option Path) :
    (∃! place, LooksAt options host configDir place) ∧
    (∀ place, LooksAt options host configDir place → Decides options host configDir place) ∧
    ∀ fs : FileSystem,
      (∀ path, fs.contains path = true → fs.Stands path) ∧
      (∀ c, resolve options fs host configDir = .ok c →
        (∀ dir, options.promptsDir = some dir → host.expand dir = .ok c.promptsDir) ∧
        (options.promptsDir = none →
          host.expand (c.config.promptsDir.getD "~/.prompts") = .ok c.promptsDir)) ∧
      ∀ promptsDir f, resolve { options with promptsDir } fs host configDir = .error f ↔
        resolve options fs host configDir = .error f := by
  obtain ⟨place, hplace⟩ := exists_looksAt options host configDir
  refine ⟨⟨place, hplace, fun other => hplace.eq⟩, fun place h => h.decides, fun fs =>
    ⟨fun _ => FileSystem.stands_of_contains, ?_, ?_⟩⟩
  · intro c h
    obtain ⟨-, hdirectory⟩ := resolve_eq_ok_iff.mp h
    unfold chooseDirectory at hdirectory
    constructor
    · intro dir hdir
      rwa [hdir] at hdirectory
    · intro hnone
      rwa [hnone] at hdirectory
  · intro promptsDir f
    rw [resolve_eq_error_iff, resolve_eq_error_iff]
    rfl

def settledFiles : FileSystem where
  entries := [
    ([Path.ofText "x"], .directory),
    ([Path.ofText "x", Path.ofText "prun"], .directory),
    ([Path.ofText "x", Path.ofText "prun", Path.ofText "config.yaml"],
      .file Config.tailoredText.toUTF8 false)]
  unique := by decide
  named := by decide

/-- A machine on which a directory stands there. -/
def blockedFiles : FileSystem where
  entries := [
    ([Path.ofText "x"], .directory),
    ([Path.ofText "x", Path.ofText "prun"], .directory),
    ([Path.ofText "x", Path.ofText "prun", Path.ofText "config.yaml"], .directory)]
  unique := by decide
  named := by decide

def namingHost (name : String) : Host where
  currentDir := .ok (Path.ofText "/w")
  environment := [("PRUN_CONFIG", name)]

theorem one_place_decides_settled :
    LooksAt {} (namingHost "") (some (Path.ofText "/x"))
        (.optional (Path.ofText "/x/prun/config.yaml")) ∧
      (∃ c, resolve {} settledFiles (namingHost "") (some (Path.ofText "/x")) = .ok c ∧
        c.config = ⟨some "p", "tool -x", ["Read"]⟩ ∧ c.promptsDir = Path.ofText "/w/p") ∧
      resolve {} blockedFiles (namingHost "") (some (Path.ofText "/x")) =
        .error (.fileUnreadable .config "/x/prun/config.yaml" .isDirectory) ∧
      ∃ f, resolve { promptsDir := some "q" } blockedFiles (namingHost "") (some (Path.ofText "/x")) =
        .error f := by
  obtain ⟨-, hdecides, hruns⟩ := one_place_decides {} (namingHost "") (some (Path.ofText "/x"))
  have hpath : Path.join (Path.join (Path.ofText "/x") (Path.ofText "prun"))
      (Path.ofText "config.yaml") = Path.ofText "/x/prun/config.yaml" := by decide
  have hplace : LooksAt {} (namingHost "") (some (Path.ofText "/x"))
      (.optional (Path.ofText "/x/prun/config.yaml")) := by
    rw [← hpath]
    exact .directory rfl (by decide) rfl
  have htext : settledFiles.readText (Path.ofText "/x/prun/config.yaml") =
      .ok Config.tailoredText := by decide +kernel
  have hsays := Config.ofText_eq_ok_iff.mp Config.ofText_tailoredText
  obtain ⟨c, hc, hconfig⟩ := ((hdecides _ hplace).settings rfl htext hsays).1 _ rfl
  have hdirectory : (namingHost "").expand (c.config.promptsDir.getD "~/.prompts") =
      .ok c.promptsDir := ((hruns settledFiles).2.1 c hc).2 rfl
  rw [hconfig] at hdirectory
  have hblocked : blockedFiles.readText (Path.ofText "/x/prun/config.yaml") = .error .isDirectory := by
    decide
  have herror := (hdecides _ hplace).unreadable rfl (.inr (by decide)) hblocked
  have hshown : Path.shown (Path.ofText "/x/prun/config.yaml") = "/x/prun/config.yaml" :=
    Text.ofBytes_bytes _
  rw [hshown] at herror
  exact ⟨hplace, ⟨c, hc, hconfig, (Except.ok.inj hdirectory).symm.trans (by decide)⟩, herror, _,
    ((hruns blockedFiles).2.2 (some "q") _).mpr herror⟩

/-! ## Files that cannot be looked at -/

/-- A machine on which the directory around the configuration may not be searched. -/
def closedFiles : FileSystem where
  entries := [
    ([Path.ofText "x"], .directory),
    ([Path.ofText "x", Path.ofText "c"], .file Config.tailoredText.toUTF8 false)]
  closed := [[Path.ofText "x"]]
  unique := by decide
  named := by decide

def openFiles : FileSystem where
  entries := [([Path.ofText "c"], .file Config.tailoredText.toUTF8 false)]
  unique := by decide
  named := by decide

/-- The name of the configuration behind steps that lead nowhere. -/
def detours : Nat → String
  | 0 => "c"
  | n + 1 => "./" ++ detours n

theorem ofText_detours (n : Nat) :
    Path.ofText (detours (n + 1)) = [Path.dot] ++ Path.slash :: Path.ofText (detours n) := by
  rw [detours, Path.ofText_append]
  rfl

theorem length_detours (n : Nat) : (Path.ofText (detours n)).length = 2 * n + 1 := by
  induction n with
  | zero => decide
  | succ n ih =>
    rw [ofText_detours, List.singleton_append, List.length_cons, List.length_cons, ih]
    omega

theorem follow_detours (n : Nat) :
    openFiles.unlocked.follow [] (Path.split (Path.ofText (detours n))) = .ok [Path.ofText "c"] := by
  induction n with
  | zero => decide
  | succ n ih =>
    have hsplit : Path.split (Path.ofText (detours (n + 1))) =
        Path.selfPart :: Path.split (Path.ofText (detours n)) := by
      rw [ofText_detours]
      exact Text.splitAt_append_cons Path.slash [Path.dot] _
    have hstep : openFiles.unlocked.step [] Path.selfPart = .ok [] := by decide
    rw [hsplit]
    exact FileSystem.follow_cons_eq_ok.mpr ⟨[], hstep, ih⟩

/-- A path that is too long leads nowhere, whatever stands at its end. -/
theorem passed_over_detours {n : Nat} (hn : FileSystem.pathLimit ≤ 2 * n) :
    openFiles.Stands (Path.ofText ("/" ++ detours n)) ∧
      ∃ c, resolve {} openFiles (namingHost ("/" ++ detours n)) none = .ok c ∧
        c.config = .default := by
  have hpath : Path.ofText ("/" ++ detours n) = [] ++ Path.slash :: Path.ofText (detours n) :=
    Path.ofText_append "/" (detours n)
  have hstands : openFiles.Stands (Path.ofText ("/" ++ detours n)) := by
    have hsplit : Path.split (Path.ofText ("/" ++ detours n)) =
        [] :: Path.split (Path.ofText (detours n)) := by
      rw [hpath]
      exact Text.splitAt_append_cons Path.slash [] _
    have hstep : openFiles.unlocked.step [] [] = .ok [] := by decide
    have habsolute : Path.isAbsolute (Path.ofText ("/" ++ detours n)) = true := by
      rw [hpath]
      rfl
    refine ⟨by rw [hpath]; exact List.cons_ne_nil _ _, [Path.ofText "c"], ?_⟩
    rw [habsolute, hsplit]
    exact FileSystem.follow_cons_eq_ok.mpr ⟨[], hstep, follow_detours n⟩
  have hcontains : openFiles.contains (Path.ofText ("/" ++ detours n)) = false := by
    refine Bool.eq_false_iff.mpr fun hcontains => ?_
    obtain ⟨place, hlocate⟩ := FileSystem.exists_locate_of_contains hcontains
    obtain ⟨-, -, hlimit, -⟩ := FileSystem.locate_eq_ok_iff.mp hlocate
    rw [hpath, List.nil_append, List.length_cons, length_detours] at hlimit
    omega
  have hplace : LooksAt {} (namingHost ("/" ++ detours n)) none
      (.optional (Path.ofText ("/" ++ detours n))) :=
    .environment rfl rfl (by simp)
  exact ⟨hstands, (hplace.decides.standard (.inr ⟨_, rfl, hcontains⟩)).1 _ rfl⟩

/-- A configuration that stands in a closed directory, or at the end of a path that is too long, is
not found, and unless the command line names it the standard settings take its place. -/
theorem hidden_config_is_passed_over :
    (closedFiles.Stands (Path.ofText "/x/c") ∧
      resolve { config := some (Path.ofText "/x/c") } closedFiles (namingHost "") none =
        .error (.fileUnreadable .config "/x/c" .permissionDenied) ∧
      ∃ c, resolve {} closedFiles (namingHost "/x/c") none = .ok c ∧ c.config = .default) ∧
    openFiles.Stands (Path.ofText ("/" ++ detours 2100)) ∧
      ∃ c, resolve {} openFiles (namingHost ("/" ++ detours 2100)) none = .ok c ∧
        c.config = .default := by
  have hstandard : resolve {} closedFiles (namingHost "/x/c") none =
      .ok ⟨.default, Path.ofText "/w/~/.prompts"⟩ := by decide
  exact ⟨⟨⟨by decide, [Path.ofText "x", Path.ofText "c"], by decide⟩, by decide, _, hstandard, rfl⟩,
    passed_over_detours (by decide)⟩

end Context

end PromptRunner
