import PromptRunner.Host
import PromptRunner.Proofs.Path.Canonical

/-!
# Hosts that complete paths

A host completes every path if its current directory can be reached, and none otherwise; the failure
then says why the directory is out of reach. From an absolute directory a path is completed to a
canonical one.
-/

namespace PromptRunner.Host

variable {host : Host} {dir result : Path} {e : FileError} {f : Failure} {path : String}

theorem expand_of_ok (h : host.currentDir = .ok dir) (path : String) :
    host.expand path = .ok (Path.expand (Path.ofText path) dir host.home) := by
  simp only [expand, workingDir, h]

theorem expand_of_error (h : host.currentDir = .error e) (path : String) :
    host.expand path = .error (.currentDirUnknown e) := by
  simp only [expand, workingDir, h]

theorem expand_eq_ok_iff : host.expand path = .ok result ↔
    ∃ dir, host.currentDir = .ok dir ∧ Path.expand (Path.ofText path) dir host.home = result := by
  cases h : host.currentDir with
  | ok dir => simp [expand_of_ok h]
  | error e => simp [expand_of_error h]

theorem expand_eq_error_iff : host.expand path = .error f ↔
    ∃ e, host.currentDir = .error e ∧ f = .currentDirUnknown e := by
  cases h : host.currentDir with
  | ok dir => simp [expand_of_ok h]
  | error e => simp [expand_of_error h, eq_comm]

/-- From an absolute directory every path is completed to a canonical one, wherever the home
directory is. -/
theorem isCanonical_of_expand (h : host.expand path = .ok result)
    (hcurrent : ∀ dir, host.currentDir = .ok dir → Path.isAbsolute dir = true) :
    Path.IsCanonical result := by
  obtain ⟨dir, hdir, rfl⟩ := expand_eq_ok_iff.mp h
  exact Path.isCanonical_expand _ _ (hcurrent dir hdir)

end PromptRunner.Host
