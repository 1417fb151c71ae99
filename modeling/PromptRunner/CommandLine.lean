import PromptRunner.Context
/-!
# The command line

The words of a command line are options and the arguments of one of three commands. The options of
the program may stand before or behind the name of the command, those of a command behind it, in any
order. An option with a value takes the next word or what follows an equals sign; behind `--` there
are no more options. No option may be given twice.
-/

namespace PromptRunner.CommandLine

/-- Why a command line is not carried out: it asks for help or the version, or it is mistaken. -/
inductive Usage where
  | displayHelp
  | displayVersion
  | displayHelpOnMissingArgumentOrSubcommand
  | missingSubcommand
  | invalidSubcommand
  | unknownArgument
  | missingRequiredArgument
  | argumentConflict
  | invalidValue
  | tooManyValues
  deriving DecidableEq, Repr

def Usage.exitCode : Usage → Nat
  | .displayHelp => 0
  | .displayVersion => 0
  | _ => 2

inductive Opt where
  | help
  | version
  | debug
  | promptsDir
  | config
  | file
  | json
  | verbose
  | dryRun
  deriving DecidableEq, Repr

inductive CommandName where
  | run
  | list
  | show
  deriving DecidableEq, Repr

def Opt.long : Opt → String
  | .help => "help"
  | .version => "version"
  | .debug => "debug"
  | .promptsDir => "prompts-dir"
  | .config => "config"
  | .file => "file"
  | .json => "json"
  | .verbose => "verbose"
  | .dryRun => "dry-run"

def Opt.short? : Opt → Option Char
  | .help => some 'h'
  | .version => some 'V'
  | .verbose => some 'v'
  | _ => none

def Opt.takesValue : Opt → Bool
  | .promptsDir => true
  | .config => true
  | .file => true
  | .json => true
  | _ => false

/-- Whether the value of an option is the path of a file, which may not be empty. -/
def Opt.isFile : Opt → Bool
  | .config => true
  | .file => true
  | _ => false

def globalOpts : List Opt :=
  [.help, .version, .debug, .promptsDir, .config]

/-- The options behind the name of a command, or before it if there is no name yet. -/
def optsOf : Option CommandName → List Opt
  | some .run => globalOpts ++ [.file, .json, .verbose, .dryRun]
  | _ => globalOpts

def argumentLimit : Option CommandName → Option Nat
  | some .run => none
  | some .show => some 1
  | _ => some 0

def commandName? (word : String) : Option CommandName :=
  if word = "run" then some .run
  else if word = "list" || word = "ls" then some .list
  else if word = "show" then some .show
  else none

/-- What was read of the words before or behind the name of a command. -/
structure Words where
  options : List (Opt × String) := []
  /-- The last option, as long as it is not settled, with its value if that has been read. -/
  pending : Option (Opt × Option String) := none
  /-- The arguments, newest first. -/
  arguments : List String := []
  /-- Whether `--` was read. -/
  onlyArguments : Bool := false
  deriving Repr, DecidableEq

namespace Words

def give (w : Words) (o : Opt) (value : String) : Except Usage Words :=
  if (w.options.lookup o).isSome then .error .argumentConflict
  else if o.isFile && value.isEmpty then .error .invalidValue
  else .ok { w with options := (o, value) :: w.options }

/-- Settle the pending option. It has to have its value. -/
def settle (w : Words) : Except Usage Words :=
  match w.pending with
  | none => .ok w
  | some (_, none) => .error .invalidValue
  | some (o, some value) => { w with pending := none }.give o value

def awaitsValue (w : Words) : Bool :=
  match w.pending with
  | some (_, none) => true
  | _ => false

/-- Take an option without a value into account. -/
def giveFlag (w : Words) (o : Opt) : Except Usage Words :=
  match w.settle with
  | .error u => .error u
  | .ok w =>
    if o = .help then .error .displayHelp
    else if o = .version then .error .displayVersion
    else w.give o ""

def readLong (w : Words) (command : Option CommandName) (name : String) (value : Option String) :
    Except Usage Words :=
  match (optsOf command).find? fun o => o.long == name with
  | none => .error .unknownArgument
  | some o =>
    match o.takesValue, value with
    | true, some value => w.settle.bind fun w => w.give o value
    | true, none => w.settle.map fun w => { w with pending := some (o, none) }
    | false, some _ => .error .tooManyValues
    | false, none => w.giveFlag o

def readShort (w : Words) (command : Option CommandName) : List Char → Except Usage Words
  | [] => .ok w
  | c :: cs =>
    match (optsOf command).find? fun o => o.short? == some c with
    | none => .error .unknownArgument
    | some o =>
      match w.giveFlag o with
      | .error u => .error u
      | .ok w => w.readShort command cs

def takesArgument (w : Words) (command : Option CommandName) : Bool :=
  match argumentLimit command with
  | some n => w.arguments.length < n
  | none => true

def readArgument (w : Words) (command : Option CommandName) (word : String) : Except Usage Words :=
  if takesArgument w command then
    w.settle.map fun w => { w with arguments := word :: w.arguments }
  else if command.isSome then .error .unknownArgument
  else if w.onlyArguments && ((commandName? word).isSome || word = "help") then
    .error .unknownArgument
  else .error .invalidSubcommand

def cutAtEquals (cs : List Char) : String × Option String :=
  match cs.dropWhile (· != '=') with
  | _ :: value => (String.ofList (cs.takeWhile (· != '=')), some (String.ofList value))
  | [] => (String.ofList cs, none)

def read (w : Words) (command : Option CommandName) (word : String) : Except Usage Words :=
  if w.onlyArguments then w.readArgument command word
  else
    match word.toList with
    | ['-', '-'] => .ok { w with onlyArguments := true }
    | '-' :: '-' :: cs =>
      let (name, value) := cutAtEquals cs
      w.readLong command name value
    | '-' :: c :: cs => w.readShort command (c :: cs)
    | _ =>
      match w.pending with
      | some (o, none) => .ok { w with pending := some (o, some word) }
      | _ => w.readArgument command word

def readAll (w : Words) (command : Option CommandName) : List String → Except Usage Words
  | [] => w.settle
  | word :: words =>
    match w.read command word with
    | .error u => .error u
    | .ok w => w.readAll command words

def has (w : Words) (o : Opt) : Bool :=
  (w.options.lookup o).isSome

def value? (w : Words) (o : Opt) : Option String :=
  w.options.lookup o

end Words

/-- What `run` is asked to do. -/
structure RunOptions where
  prompt : String
  arguments : List String := []
  file : Option Path := none
  json : Option String := none
  verbose : Bool := false
  dryRun : Bool := false
  deriving Repr, DecidableEq

inductive Command where
  | run (options : RunOptions)
  | list
  | show (prompt : String)
  deriving Repr, DecidableEq

/-- A command line that can be carried out. -/
structure Request where
  options : GlobalOptions
  debug : Bool := false
  command : Command
  deriving Repr, DecidableEq

def commandOf (name : CommandName) (w : Words) : Except Usage Command :=
  match name, w.arguments.reverse with
  | .list, _ => .ok .list
  | .show, prompt :: _ => .ok (.show prompt)
  | .run, prompt :: arguments =>
    .ok (.run {
      prompt, arguments
      file := (w.value? .file).map Path.ofText
      json := w.value? .json
      verbose := w.has .verbose
      dryRun := w.has .dryRun })
  | _, [] => .error .missingRequiredArgument

/-- The value of an option that stands before the name of the command or behind it, where it counts
more. -/
def globalValue? (before behind : Words) (o : Opt) : Option String :=
  (behind.value? o).or (before.value? o)

/-- Read the words behind the name of a command. -/
def readCommand (before : Words) (name : CommandName) (words : List String) :
    Except Usage Request := do
  let behind ← Words.readAll {} (some name) words
  let command ← commandOf name behind
  let before ← before.settle
  pure {
    options := ⟨globalValue? before behind .promptsDir,
      (globalValue? before behind .config).map Path.ofText⟩
    debug := before.has .debug || behind.has .debug
    command }

/-- The answer to `help` and the words behind it, which may name one command, or `help` itself. -/
def helpOn : List String → Usage
  | [] => .displayHelp
  | [word] =>
    if (commandName? word).isSome || word = "help" then .displayHelp else .invalidSubcommand
  | _ => .invalidSubcommand

/-- Read the words before the name of a command, and then all others. -/
def readFrom (before : Words) : List String → Except Usage Request
  | [] =>
    match before.settle with
    | .error u => .error u
    | .ok before =>
      if before.options.isEmpty then .error .displayHelpOnMissingArgumentOrSubcommand
      else .error .missingSubcommand
  | word :: words =>
    let command :=
      if before.onlyArguments || before.awaitsValue then none else commandName? word
    match command with
    | some name => readCommand before name words
    | none =>
      if word = "help" && !before.onlyArguments && !before.awaitsValue then .error (helpOn words)
      else
        match before.read none word with
        | .error u => .error u
        | .ok before => readFrom before words

def parse (words : List String) : Except Usage Request :=
  readFrom {} words

end PromptRunner.CommandLine
