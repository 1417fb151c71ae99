import PromptRunner.Proofs.Variables.Arguments
import PromptRunner.Proofs.Variables.Sources

/-!
# How sources of variables are merged

An argument is left out, or it gives a value to a name, or it refers to a file that cannot be read.
What a list of arguments comes to is proved along the list: the last argument for a name counts,
each argument that is left out has its warning, and the first that refers to no readable file ends
everything. Behind the arguments stand the pairs of the JSON object, and behind these the pairs of
the file.
-/

namespace PromptRunner

namespace Bindings

/-- The pairs of a list give a value to a name: the value of the last pair with this name. -/
def Gives (pairs : List (String × String)) (name value : String) : Prop :=
  Last (fun e => e.1 = name) (fun e => e = (name, value)) pairs

def Lacks (pairs : List (String × String)) (name : String) : Prop :=
  ∀ e ∈ pairs, ¬ e.1 = name

theorem find?_insertAll_iff (b : Bindings) (pairs : List (String × String)) (name value : String) :
    (b.insertAll pairs).find? name = some value ↔
      Gives pairs name value ∨ Lacks pairs name ∧ b.find? name = some value := by
  induction pairs generalizing b with
  | nil =>
    have hnone : ¬ Gives [] name value := not_last_nil
    have hlacks : Lacks [] name := nofun
    have hnil : b.insertAll [] = b := rfl
    rw [hnil]
    tauto
  | cons e pairs ih =>
    have hstep : b.insertAll (e :: pairs) = (b.insert e.1 e.2).insertAll pairs := rfl
    have hgives : Gives (e :: pairs) name value ↔
        Gives pairs name value ∨ Lacks pairs name ∧ e = (name, value) := last_cons
    have hlacks : Lacks (e :: pairs) name ↔ ¬ e.1 = name ∧ Lacks pairs name := List.forall_mem_cons
    have hinsert : (b.insert e.1 e.2).find? name = some value ↔
        e = (name, value) ∨ ¬ e.1 = name ∧ b.find? name = some value := by
      rw [find?_insert]
      split_ifs with h
      · rw [Option.some_inj, Prod.ext_iff]
        exact ⟨fun hv => .inl ⟨h.symm, hv⟩, fun hv => hv.elim And.right fun hn => (hn.1 h.symm).elim⟩
      · refine ⟨fun hv => .inr ⟨fun hn => h hn.symm, hv⟩, ?_⟩
        rintro (rfl | ⟨-, hv⟩)
        · exact (h rfl).elim
        · exact hv
    rw [hstep, ih, hgives, hlacks, hinsert]
    exact later_or_earlier

end Bindings

namespace Variables

open Template (IsName)

/-- An argument gives a written value to a name: it is the name, an equals sign and what is
written. -/
def Assigns (argument name : String) (written : List Char) : Prop :=
  IsName name.toList ∧ argument.toList = name.toList ++ '=' :: written

def Concerns (name argument : String) : Prop :=
  ∃ written, Assigns argument name written

def Accepted (argument : String) : Prop :=
  ∃ name, Concerns name argument

/-- A written value stands for a value: for itself or, behind an at sign, for the text of a file. -/
inductive Denotes (fs : FileSystem) (host : Host) : List Char → String → Prop
  | plain {written : List Char} : written.head? ≠ some '@' →
      Denotes fs host written (String.ofList written)
  | file {written : List Char} {path : Path} {content : ByteArray} {executable : Bool}
      {value : String} : host.expand (String.ofList written) = .ok path →
      fs.find path = .ok (.file content executable) → fs.mayRead path = true →
      value.toUTF8 = content → Denotes fs host ('@' :: written) value

/-- A written value refers to a file from which no text can be read, or whose path cannot be
completed. -/
inductive Unreadable (fs : FileSystem) (host : Host) (name : String) : List Char → Failure → Prop
  | currentDir {written : List Char} {e : FileError} : host.currentDir = .error e →
      Unreadable fs host name ('@' :: written) (.currentDirUnknown e)
  | file {written : List Char} {path : Path} {f : Failure} :
      host.expand (String.ofList written) = .ok path → FileFails fs (.value name) path f →
      Unreadable fs host name ('@' :: written) f

def Binds (fs : FileSystem) (host : Host) (name value argument : String) : Prop :=
  ∃ written, Assigns argument name written ∧ Denotes fs host written value

/-- An argument fails: it is accepted, but its value cannot be read. -/
def FailsWith (fs : FileSystem) (host : Host) (f : Failure) (argument : String) : Prop :=
  ∃ name written, Assigns argument name written ∧ Unreadable fs host name written f

def Fails (fs : FileSystem) (host : Host) (argument : String) : Prop :=
  ∃ f, FailsWith fs host f argument

variable {fs : FileSystem} {host : Host} {a a' : Assembled} {argument name value : String}
  {written : List Char} {f : Failure}

theorem assignment?_eq_some_iff :
    assignment? argument = some (name, written) ↔ Assigns argument name written := by
  constructor
  · intro h
    simp only [assignment?] at h
    split at h
    · rename_i w ws rest htake hdrop
      obtain ⟨rfl, rfl⟩ := Prod.mk.inj (Option.some.inj h)
      rw [Assigns, String.toList_ofList]
      refine ⟨⟨?_, fun c hc => List.mem_takeWhile_imp hc⟩, ?_⟩
      · rw [htake]
        exact List.cons_ne_nil w ws
      · rw [← hdrop, List.takeWhile_append_dropWhile]
    · cases h
  · rintro ⟨hname, htext⟩
    have hargument : argument = argumentOf (name, String.ofList written) := by
      apply String.toList_injective
      simp [htext, argumentOf]
    rw [hargument, assignment?_argumentOf hname, String.toList_ofList]

theorem accepted_iff : Accepted argument ↔ (assignment? argument).isSome = true := by
  rw [Option.isSome_iff_exists]
  constructor
  · rintro ⟨name, written, h⟩
    exact ⟨_, assignment?_eq_some_iff.mpr h⟩
  · rintro ⟨⟨name, written⟩, h⟩
    exact ⟨name, written, assignment?_eq_some_iff.mp h⟩

instance : DecidablePred Accepted :=
  fun _ => decidable_of_iff _ accepted_iff.symm

theorem Assigns.unique (h : Assigns argument name written) {name' : String} {written' : List Char}
    (h' : Assigns argument name' written') : name = name' ∧ written = written' := by
  have hsame : some (name, written) = some (name', written') := by
    rw [← assignment?_eq_some_iff.mpr h, ← assignment?_eq_some_iff.mpr h']
  exact Prod.mk.inj (Option.some.inj hsame)

theorem readText_ok_iff {path : Path} {text : String} :
    fs.readText path = .ok text ↔
      ∃ content executable, fs.find path = .ok (.file content executable) ∧
        fs.mayRead path = true ∧ text.toUTF8 = content := by
  unfold FileSystem.readText FileSystem.readBytes String.fromUTF8?
  rcases hfind : fs.find path with e | ⟨_ | ⟨content, executable⟩⟩
  · exact ⟨nofun, fun ⟨_, _, h, _⟩ => nomatch h⟩
  · cases fs.mayRead path with
    | true => exact ⟨nofun, fun ⟨_, _, h, _⟩ => nomatch h⟩
    | false => exact ⟨nofun, fun ⟨_, _, h, _⟩ => nomatch h⟩
  · cases fs.mayRead path with
    | false => exact ⟨nofun, fun ⟨_, _, _, h, _⟩ => nomatch h⟩
    | true =>
      by_cases hvalid : content.IsValidUTF8
      · simp only [if_true, dif_pos hvalid]
        constructor
        · rintro ⟨⟩
          exact ⟨content, executable, rfl, trivial, rfl⟩
        · rintro ⟨_, _, ⟨⟩, -, rfl⟩
          rfl
      · simp only [if_true, dif_neg hvalid]
        refine ⟨nofun, ?_⟩
        rintro ⟨_, _, ⟨⟩, -, rfl⟩
        exact (hvalid text.isValidUTF8).elim

theorem valueOf_ok_iff :
    valueOf fs host name written = .ok value ↔ Denotes fs host written value := by
  unfold valueOf
  split
  · constructor
    · intro h
      obtain ⟨path, hpath, htext⟩ := Except.bind_eq_ok_iff.mp h
      obtain ⟨content, executable, hfind, hread, hvalue⟩ :=
        readText_ok_iff.mp (fileText_ok_iff.mp htext)
      exact .file hpath hfind hread hvalue
    · intro h
      cases h with
      | plain hplain => exact (hplain rfl).elim
      | file hpath hfind hread hvalue =>
        have htext := readText_ok_iff.mpr ⟨_, _, hfind, hread, hvalue⟩
        exact Except.bind_eq_ok_iff.mpr ⟨_, hpath, fileText_ok_iff.mpr htext⟩
  · rename_i hplain
    constructor
    · rintro ⟨⟩
      refine .plain fun hat => ?_
      obtain ⟨path, hpath⟩ := List.head?_eq_some_iff.mp hat
      exact hplain path hpath
    · intro h
      cases h with
      | plain => rfl
      | file => exact (hplain _ rfl).elim

theorem valueOf_error_iff :
    valueOf fs host name written = .error f ↔ Unreadable fs host name written f := by
  unfold valueOf
  split
  · constructor
    · intro h
      obtain hexpand | ⟨path, hpath, htext⟩ := Except.bind_eq_error_iff.mp h
      · obtain ⟨e, he, rfl⟩ := Host.expand_eq_error_iff.mp hexpand
        exact .currentDir he
      · exact .file hpath (fileText_error_iff.mp htext)
    · intro h
      cases h with
      | currentDir he => exact Except.bind_eq_error_iff.mpr (.inl (Host.expand_of_error he _))
      | file hpath hfails =>
        exact Except.bind_eq_error_iff.mpr (.inr ⟨_, hpath, fileText_error_iff.mpr hfails⟩)
  · rename_i hplain
    refine ⟨nofun, fun h => ?_⟩
    cases h with
    | currentDir => exact (hplain _ rfl).elim
    | file => exact (hplain _ rfl).elim

def ignored (arguments : List String) : List Warning :=
  (arguments.filter fun argument => ¬ Accepted argument).map .argumentIgnored

theorem addArgument_of_not_accepted (h : ¬ Accepted argument) :
    addArgument fs host a argument =
      .ok { a with warnings := a.warnings ++ [.argumentIgnored argument] } := by
  rw [accepted_iff, Bool.not_eq_true, Option.isSome_eq_false_iff, Option.isNone_iff_eq_none] at h
  unfold addArgument
  rw [h]

theorem Assigns.addArgument_eq (h : Assigns argument name written) :
    addArgument fs host a argument =
      (valueOf fs host name written).map fun value =>
        { a with bindings := a.bindings.insert name value } := by
  simp only [addArgument, assignment?_eq_some_iff.mpr h]
  cases valueOf fs host name written <;> rfl

theorem Assigns.concerns_iff (h : Assigns argument name written) {k : String} :
    Concerns k argument ↔ k = name := by
  constructor
  · rintro ⟨written', h'⟩
    exact (h'.unique h).1
  · rintro rfl
    exact ⟨written, h⟩

theorem Assigns.binds_iff (h : Assigns argument name written)
    (hd : Denotes fs host written value) {k v : String} :
    Binds fs host k v argument ↔ k = name ∧ v = value := by
  constructor
  · rintro ⟨written', h', hd'⟩
    obtain ⟨rfl, rfl⟩ := h'.unique h
    have hsame : valueOf fs host k written' = .ok v := valueOf_ok_iff.mpr hd'
    rw [valueOf_ok_iff.mpr hd] at hsame
    exact ⟨rfl, (Except.ok.inj hsame).symm⟩
  · rintro ⟨rfl, rfl⟩
    exact ⟨written, h, hd⟩

theorem addArgument_error_iff :
    addArgument fs host a argument = .error f ↔ FailsWith fs host f argument := by
  by_cases haccepted : Accepted argument
  · obtain ⟨name, written, h⟩ := haccepted
    rw [h.addArgument_eq, Except.map_eq_error_iff, valueOf_error_iff]
    constructor
    · intro hunreadable
      exact ⟨name, written, h, hunreadable⟩
    · rintro ⟨name', written', h', hunreadable⟩
      obtain ⟨rfl, rfl⟩ := h.unique h'
      exact hunreadable
  · rw [addArgument_of_not_accepted haccepted]
    exact ⟨nofun, fun ⟨name, written, h, _⟩ => (haccepted ⟨name, written, h⟩).elim⟩

theorem addArgument_ok (h : addArgument fs host a argument = .ok a') :
    a'.warnings = a.warnings ++ ignored [argument] ∧
    ∀ name value, a'.bindings.find? name = some value ↔
      Binds fs host name value argument ∨
        ¬ Concerns name argument ∧ a.bindings.find? name = some value := by
  by_cases haccepted : Accepted argument
  · obtain ⟨name, written, hassigns⟩ := id haccepted
    rw [hassigns.addArgument_eq] at h
    obtain ⟨value, hvalue, rfl⟩ := Except.map_eq_ok_iff.mp h
    constructor
    · simp [ignored, haccepted]
    · intro k v
      rw [Bindings.find?_insert, hassigns.concerns_iff,
        hassigns.binds_iff (valueOf_ok_iff.mp hvalue)]
      split_ifs with hk
      · rw [Option.some_inj, eq_comm]
        tauto
      · tauto
  · rw [addArgument_of_not_accepted haccepted] at h
    obtain rfl := Except.ok.inj h
    constructor
    · simp [ignored, haccepted]
    · intro k v
      have hconcerns : ¬ Concerns k argument := fun hk => haccepted ⟨k, hk⟩
      have hbinds : ¬ Binds fs host k v argument := fun ⟨written, hk, _⟩ => hconcerns ⟨written, hk⟩
      tauto

/-- What arguments add: the last one for a name counts, and each that is left out has its
warning. -/
theorem addArguments_ok {arguments : List String} (h : addArguments fs host a arguments = .ok a') :
    a'.warnings = a.warnings ++ ignored arguments ∧
    ∀ name value, a'.bindings.find? name = some value ↔
      Last (Concerns name) (Binds fs host name value) arguments ∨
        (∀ argument ∈ arguments, ¬ Concerns name argument) ∧ a.bindings.find? name = some value := by
  induction arguments generalizing a with
  | nil =>
    obtain rfl := Except.ok.inj h
    refine ⟨(List.append_nil _).symm, fun name value => ?_⟩
    have hlast : ¬ Last (Concerns name) (Binds fs host name value) [] := not_last_nil
    have hnone : ∀ argument ∈ ([] : List String), ¬ Concerns name argument := nofun
    tauto
  | cons argument arguments ih =>
    rw [addArguments] at h
    cases hfirst : addArgument fs host a argument with
    | error f =>
      rw [hfirst] at h
      cases h
    | ok a₁ =>
      rw [hfirst] at h
      obtain ⟨hwarnings, hfind⟩ := ih h
      obtain ⟨hwarnings₁, hfind₁⟩ := addArgument_ok hfirst
      have happend : ignored (argument :: arguments) = ignored [argument] ++ ignored arguments := by
        rw [ignored, ignored, ignored, ← List.map_append, ← List.filter_append, List.singleton_append]
      refine ⟨by rw [hwarnings, hwarnings₁, happend, List.append_assoc], fun name value => ?_⟩
      rw [hfind, hfind₁, last_cons, List.forall_mem_cons]
      exact later_or_earlier

theorem addArguments_error_iff {arguments : List String} :
    addArguments fs host a arguments = .error f ↔
      First (Fails fs host) (FailsWith fs host f) arguments := by
  induction arguments generalizing a with
  | nil => exact ⟨nofun, fun h => (not_first_nil h).elim⟩
  | cons argument arguments ih =>
    rw [addArguments, first_cons]
    cases hfirst : addArgument fs host a argument with
    | error g =>
      have hfails : FailsWith fs host g argument := addArgument_error_iff.mp hfirst
      have hfaulty : Fails fs host argument := ⟨g, hfails⟩
      rw [← addArgument_error_iff (a := a), hfirst]
      simp only [hfaulty, not_true_eq_false, false_and, or_false]
    | ok a₁ =>
      have hfaultless : ¬ Fails fs host argument := by
        rintro ⟨g, hg⟩
        cases hfirst.symm.trans (addArgument_error_iff.mpr hg)
      have hfails : ¬ FailsWith fs host f argument := fun h => hfaultless ⟨f, h⟩
      simp only [hfaultless, hfails, not_false_eq_true, true_and, false_or]
      exact ih

/-- What assembled sources bind and warn of, and why sources cannot be assembled. A name has the
value of the last accepted argument for it, or else its value in the JSON object, or else its value
in the file, and other names are not bound. An argument is accepted if it is a name, an equals sign
and any text; behind an at sign this text is the path of a file that holds the value. Each argument
that is not accepted has its warning, in order. The failure is that of the first that fails: the
file, then the object, then the arguments in their order. What refers to a file fails as well if the
current directory cannot be reached. -/
theorem sources_merge (s : Sources) (fs : FileSystem) (host : Host) :
    (∀ a, s.assemble fs host = .ok a →
      ∃ fromFile fromJson, s.FilePairs fs host fromFile ∧ s.JsonPairs fromJson ∧
        (∀ name value, a.bindings.find? name = some value ↔
          Last (Concerns name) (Binds fs host name value) s.arguments ∨
            (∀ argument ∈ s.arguments, ¬ Concerns name argument) ∧
              (Bindings.Gives fromJson name value ∨
                Bindings.Lacks fromJson name ∧ Bindings.Gives fromFile name value)) ∧
        a.warnings = (s.arguments.filter fun argument => ¬ Accepted argument).map .argumentIgnored) ∧
    ∀ f, s.assemble fs host = .error f ↔
      s.FileFails fs host f ∨
        ∃ fromFile, s.FilePairs fs host fromFile ∧
          ((∃ json, s.json = some json ∧ JsonFails none json f) ∨
            ∃ fromJson, s.JsonPairs fromJson ∧
              First (Fails fs host) (FailsWith fs host f) s.arguments) := by
  simp only [← Sources.filePairs_ok_iff, ← Sources.filePairs_error_iff, ← Sources.jsonPairs_ok_iff,
    ← Sources.jsonPairs_error_iff]
  unfold Sources.assemble
  cases hfile : s.filePairs fs host with
  | error g => simp
  | ok fromFile =>
    cases hjson : s.jsonPairs with
    | error g => simp
    | ok fromJson =>
      constructor
      · intro a h
        obtain ⟨hwarnings, hfind⟩ := addArguments_ok h
        refine ⟨fromFile, fromJson, rfl, rfl, fun name value => ?_, hwarnings⟩
        have hempty : ¬ Bindings.empty.find? name = some value := nofun
        rw [hfind, Bindings.find?_insertAll_iff, Bindings.ofList, Bindings.find?_insertAll_iff]
        simp only [hempty, and_false, or_false]
      · intro f
        simp [addArguments_error_iff]

end Variables

end PromptRunner
