/-!
# File errors

The reasons for which the operating system refuses to open, read, list or start a file.
-/

namespace PromptRunner

/-- Why a file cannot be used. -/
inductive FileError where
  | missing
  | notDirectory
  | isDirectory
  | nameTooLong
  | permissionDenied
  | notExecutableFormat
  | argumentsTooLong
  | nulInName
  | nulInArgument
  | notText
  deriving DecidableEq, Repr

def FileError.message : FileError → String
  | .missing => "No such file or directory (os error 2)"
  | .notDirectory => "Not a directory (os error 20)"
  | .isDirectory => "Is a directory (os error 21)"
  | .nameTooLong => "File name too long (os error 36)"
  | .permissionDenied => "Permission denied (os error 13)"
  | .notExecutableFormat => "Exec format error (os error 8)"
  | .argumentsTooLong => "Argument list too long (os error 7)"
  | .nulInName => "file name contained an unexpected NUL byte"
  | .nulInArgument => "nul byte found in provided data"
  | .notText => "stream did not contain valid UTF-8"

end PromptRunner
