import PromptRunner.Proofs.Preparation
import PromptRunner.Proofs.Prompt.References

/-!
# What a preparation depends on

A preparation looks up the names of its prompt among the bindings, and whether the declared
variables are bound in the environment. Two preparations that agree on these come to the same, be it
an invocation or a failure. Nothing else that is bound, and no value in the environment, can reach
the text, the command line or a message.
-/

namespace PromptRunner

/-- Two hosts have the same places. Only their environments may differ. -/
structure Host.SamePlaces (host host' : Host) : Prop where
  currentDir : host.currentDir = host'.currentDir
  home : host.home = host'.home
  searchPath : host.searchPath = host'.searchPath

/-- Two environments bind the same ones of some names, to whatever values. -/
def Host.BindAlike (host host' : Host) (names : List String) : Prop :=
  ∀ name ∈ names, (∃ value, host.valueOf? name = some value) ↔
    ∃ value, host'.valueOf? name = some value

variable {host host' : Host}

theorem Host.SamePlaces.expand_eq (h : host.SamePlaces host') (path : String) :
    host.expand path = host'.expand path := by
  rw [expand, expand, workingDir, workingDir, h.currentDir, h.home]

namespace Requirements

theorem missingCommands_congr (h : host.SamePlaces host') (r : Requirements) (fs : FileSystem) :
    r.missingCommands fs host = r.missingCommands fs host' := by
  have hpaths : ∀ command, commandPaths host command = commandPaths host' command := by
    intro command
    rw [commandPaths, commandPaths, Host.workingDir, Host.workingDir, h.currentDir, h.searchPath]
  have hexists : commandExists fs host = commandExists fs host' :=
    funext fun command => by rw [commandExists, commandExists, hpaths]
  rw [missingCommands, missingCommands, hexists]

theorem missingEnvironment_congr {r : Requirements} (h : host.BindAlike host' r.environment) :
    r.missingEnvironment host = r.missingEnvironment host' := by
  unfold missingEnvironment
  refine List.filter_congr fun name hname => ?_
  have hbound := h name hname
  rw [← Option.isSome_iff_exists, ← Option.isSome_iff_exists, ← Bool.eq_iff_iff] at hbound
  rw [← Option.not_isSome, ← Option.not_isSome, hbound]

theorem missingDirectories_congr (h : host.SamePlaces host') (r : Requirements) (fs : FileSystem) :
    r.missingDirectories fs host = r.missingDirectories fs host' := by
  have hexists : directoryExists fs host = directoryExists fs host' :=
    funext fun dir => by rw [directoryExists, directoryExists, h.expand_eq]
  rw [missingDirectories, missingDirectories, hexists]

theorem check_congr {r : Requirements} (h : host.SamePlaces host')
    (henvironment : host.BindAlike host' r.environment) (fs : FileSystem) :
    r.check fs host = r.check fs host' := by
  rw [check, check, missingCommands_congr h, missingEnvironment_congr henvironment,
    missingDirectories_congr h]

end Requirements

namespace Invocation

variable {p : Prompt} {b b' : Bindings}

theorem missingNames_congr (h : ∀ name ∈ p.names, b.find? name = b'.find? name) :
    missingNames p b = missingNames p b' := by
  unfold missingNames Bindings.binds
  refine List.filter_congr fun name hname => ?_
  rw [h name hname]

theorem textOf_congr (h : ∀ name ∈ p.names, b.find? name = b'.find? name) :
    textOf p b = textOf p b' := by
  rw [textOf, textOf, Body.fill_congr h]

theorem build_congr (h : host.SamePlaces host') (text : String) (model : Option String)
    (requirements : Option Requirements) (settings : InvocationSettings) :
    build text model requirements settings host = build text model requirements settings host' := by
  have hrequirements : requirementArguments requirements settings host =
      requirementArguments requirements settings host' := by
    unfold requirementArguments directoryArguments
    rw [funext h.expand_eq]
  rw [build, build, hrequirements]

theorem prepare_congr (hplaces : host.SamePlaces host')
    (hnames : ∀ name ∈ p.names, b.find? name = b'.find? name)
    (henvironment : host.BindAlike host' p.declared.environment) (settings : InvocationSettings)
    (fs : FileSystem) : prepare p b settings fs host = prepare p b' settings fs host' := by
  have hvariables : checkVariables p b = checkVariables p b' := by
    rw [checkVariables, checkVariables, missingNames_congr hnames]
  have hrequirements : checkRequirements p fs host = checkRequirements p fs host' := by
    rw [checkRequirements_eq, checkRequirements_eq, Requirements.check_congr hplaces henvironment]
  unfold prepare
  simp only [hvariables, hrequirements, textOf_congr hnames, build_congr hplaces]

/-- A preparation depends on the values of the names that its prompt refers to and on which of the
declared environment variables are bound. So a binding of another name makes no difference to it,
and neither do the values in the environment. A body none of whose names is bound is filled with
nothing. -/
theorem prepare_depends_on_references (p : Prompt) (settings : InvocationSettings)
    (fs : FileSystem) :
    (∀ (b b' : Bindings) (host host' : Host), host.SamePlaces host' →
      (∀ name ∈ p.names, b.find? name = b'.find? name) →
      host.BindAlike host' p.declared.environment →
      prepare p b settings fs host = prepare p b' settings fs host') ∧
    (∀ (b : Bindings) (name value : String) (host : Host) (environment : List (String × String)),
      name ∉ p.names → host.BindAlike { host with environment } p.declared.environment →
      prepare p (b.insert name value) settings fs { host with environment } =
        prepare p b settings fs host) ∧
    ∀ b : Bindings, (∀ name ∈ p.names, b.find? name = none) → p.body.fill b.find? = p.body := by
  refine ⟨fun b b' host host' hplaces hnames henvironment =>
    prepare_congr hplaces hnames henvironment settings fs, ?_, fun b => Body.fill_of_unbound⟩
  intro b name value host environment hname henvironment
  have hnames : ∀ k ∈ p.names, b.find? k = (b.insert name value).find? k := by
    intro k hk
    have hne : k ≠ name := fun heq => hname (heq ▸ hk)
    rw [Bindings.find?_insert, if_neg hne]
  have hplaces : host.SamePlaces { host with environment } := ⟨rfl, rfl, rfl⟩
  exact (prepare_congr hplaces hnames henvironment settings fs).symm

/-- A prompt with one variable that wants a key in the environment. -/
def keyPrompt : Prompt where
  metadata := { requirements := some { environment := ["KEY"] } }
  body := .flat "\x7b\x7bname\x7d\x7d"

def keyHost (key : String) : Host where
  currentDir := .ok (Path.ofText "/")
  environment := [("KEY", key)]

theorem prepare_with_other_key :
    prepare keyPrompt ⟨[("name", "a")]⟩ ⟨["tool"], false, []⟩ .empty (keyHost "one") =
        .ok ⟨"a", ["tool", "-p", "a"]⟩ ∧
      prepare keyPrompt ⟨[("other", "x"), ("name", "a")]⟩ ⟨["tool"], false, []⟩ .empty
        (keyHost "two") = .ok ⟨"a", ["tool", "-p", "a"]⟩ := by
  have hone : prepare keyPrompt ⟨[("name", "a")]⟩ ⟨["tool"], false, []⟩ .empty (keyHost "one") =
      .ok ⟨"a", ["tool", "-p", "a"]⟩ := by rfl
  have hnames : ∀ name ∈ keyPrompt.names,
      Bindings.find? ⟨[("other", "x"), ("name", "a")]⟩ name =
        Bindings.find? ⟨[("name", "a")]⟩ name := by decide
  have henvironment : (keyHost "two").BindAlike (keyHost "one") keyPrompt.declared.environment := by
    intro name hname
    obtain rfl : name = "KEY" := List.mem_singleton.mp hname
    exact ⟨fun _ => ⟨"one", rfl⟩, fun _ => ⟨"two", rfl⟩⟩
  have hsame := (prepare_depends_on_references keyPrompt ⟨["tool"], false, []⟩ .empty).1 _ _
    (keyHost "two") (keyHost "one") ⟨rfl, rfl, rfl⟩ hnames henvironment
  exact ⟨hone, hsame.trans hone⟩

end Invocation

end PromptRunner
