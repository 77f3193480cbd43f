import WordSubst.Stream
import WordSubst.Text.Display

namespace WordSubst.Command

inductive Flag where
  | boundary
  | version
  | help
  deriving DecidableEq

def Flag.long : Flag → String
  | boundary => "boundary"
  | version => "version"
  | help => "help"

def Flag.short : Flag → Char
  | boundary => 'b'
  | version => 'v'
  | help => 'h'

def Flag.all : List Flag := [boundary, version, help]

inductive Misuse where
  | notText
  | emptyPath
  | repeated (flag : Flag)
  | unexpectedValue (flag : Flag) (value : Bytes)
  | unexpectedArgument (name : String)
  | missing
  deriving DecidableEq

def Misuse.message : Misuse → String
  | notText => "error: invalid UTF-8 was detected in one or more arguments"
  | emptyPath => "error: a value is required for '[FILE]...' but none was supplied"
  | repeated flag =>
    "error: the argument '--" ++ flag.long ++ "' cannot be used multiple times"
  | unexpectedValue flag value =>
    "error: unexpected value '" ++ Text.visible (Text.readLossy value) ++ "' for '--" ++
      flag.long ++ "' found; no more were expected"
  | unexpectedArgument name => "error: unexpected argument '" ++ Text.visible name ++ "' found"
  | missing => "error: the following required arguments were not provided:"

/-- What the arguments ask for, if it is a substitution. -/
structure Request where
  boundary : Bool
  source : String
  target : String
  paths : List Bytes
  deriving DecidableEq

inductive Stop where
  | help
  | version
  | misuse (misuse : Misuse)
  deriving DecidableEq

structure Taken where
  boundary : Bool
  values : List Bytes

inductive Argument where
  /-- A double hyphen alone: only values follow. -/
  | separator
  | long (name : Bytes) (value? : Option Bytes)
  | short (letters : Bytes)
  | value (bytes : Bytes)

/-- The shape of an argument.  A hyphen alone is a value. -/
def Argument.ofBytes : Bytes → Argument
  | [0x2D, 0x2D] => .separator
  | 0x2D :: 0x2D :: rest =>
    match rest.span (· != 0x3D) with
    | (name, []) => .long name none
    | (name, _ :: attached) => .long name (some attached)
  | 0x2D :: letter :: rest => .short (letter :: rest)
  | bytes => .value bytes

def firstChar? (bytes : Bytes) : Option String :=
  [1, 2, 3, 4].findSome? fun size => readUtf8? (bytes.take size)

/-- Checks values in order: two texts, then names that are not empty. -/
def checkValues : (values : List Bytes) → Except Stop Unit
  | source :: target :: paths => do
    checkText source
    checkText target
    if paths.contains [] then .error (.misuse .emptyPath)
  | values => values.forM checkText
where
  checkText (bytes : Bytes) : Except Stop Unit :=
    if (readUtf8? bytes).isSome then .ok () else .error (.misuse .notText)

namespace Taken

/-- Takes an option.  The values before it are checked first. -/
def takeFlag (taken : Taken) (flag : Flag) : Except Stop Taken := do
  checkValues taken.values
  match flag with
  | .help => .error .help
  | .version => .error .version
  | .boundary =>
    if taken.boundary then .error (.misuse (.repeated .boundary))
    else .ok { taken with boundary := true }

def takeLetters (taken : Taken) : (letters : Bytes) → Except Stop Taken
  | [] => .ok taken
  | letter :: rest =>
    match Flag.all.find? fun flag => flag.short.toNat == letter.toNat with
    | some flag => do
      let taken ← taken.takeFlag flag
      taken.takeLetters rest
    | none =>
      let shown := (firstChar? (letter :: rest)).getD (Text.readLossy (letter :: rest))
      .error (.misuse (.unexpectedArgument ("-" ++ shown)))

def takeName (taken : Taken) (name : Bytes) (value? : Option Bytes) : Except Stop Taken :=
  match Flag.all.find? fun flag => utf8 flag.long == name, value? with
  | some flag, none => taken.takeFlag flag
  | some flag, some value => .error (.misuse (.unexpectedValue flag value))
  | none, _ => .error (.misuse (.unexpectedArgument ("--" ++ Text.readLossy name)))

/-- Takes a value.  The expressions are checked as soon as the next value is
there, whereas all files are checked together. -/
def takeValue (taken : Taken) (value : Bytes) : Except Stop Taken := do
  if taken.values.length ≤ 2 then checkValues taken.values
  return { taken with values := taken.values ++ [value] }

def finish (taken : Taken) : Except Stop Request := do
  checkValues taken.values
  match taken.values with
  | source :: target :: paths =>
    match readUtf8? source, readUtf8? target with
    | some source, some target => .ok ⟨taken.boundary, source, target, paths⟩
    | _, _ => .error (.misuse .notText)
  | _ => .error (.misuse .missing)

def takeAll (taken : Taken) : List Bytes → Except Stop Taken
  | [] => .ok taken
  | argument :: later =>
    match Argument.ofBytes argument with
    | .separator => later.foldlM takeValue taken
    | .long name value? => do
      let taken ← taken.takeName name value?
      taken.takeAll later
    | .short letters => do
      let taken ← taken.takeLetters letters
      taken.takeAll later
    | .value bytes => do
      let taken ← taken.takeValue bytes
      taken.takeAll later

end Taken

def Request.ofArguments (arguments : List Bytes) : Except Stop Request := do
  let taken ← Taken.takeAll ⟨false, []⟩ arguments
  taken.finish

def versionText : String := "msub 0.2.1\n"

def helpText : String :=
  String.join ([
    "Substitute multiple words at once by FROM and TO patterns",
    "",
    "Usage: msub [OPTIONS] <FROM> <TO> [FILE]...",
    "",
    "Arguments:",
    "  <FROM>     Pattern to search for",
    "  <TO>       Pattern to substitute, aligned with FROM",
    "  [FILE]...  Files to read; standard input when none or \"-\"",
    "",
    "Options:",
    "  -b, --boundary  Use word boundary in matcher",
    "  -v, --version   Output version information and exit",
    "  -h, --help      Print help",
    "",
    "Syntax:",
    "  pattern  = position \x7b\"/\" position\x7d",
    "  position = branch \x7b\",\" branch\x7d",
    "  branch   = \x7bletter | \"\\/\" | \"\\,\"\x7d",
    "",
    "Examples:",
    "  msub true,false false,true ./file",
    "  msub dog,cat/s cat,dog/s ~/Document/questionnaire"
  ].map (· ++ "\n"))

structure Result where
  status : Nat
  stdout : Bytes
  stderr : Bytes
  deriving DecidableEq

def complaint (message : String) : Bytes :=
  utf8 ("msub: " ++ message ++ "\n")

/-- The exit status after an error: patterns and arguments are the caller's
fault, input and output are not. -/
def statusOf (error : Error) : Nat :=
  if error.isUsage then 2 else 1

def Result.ofError (stdout : Bytes) (error : Error) : Result :=
  ⟨statusOf error, stdout, complaint error.report⟩

def Result.ofOutcome (outcome : Outcome) : Result :=
  match outcome.error? with
  | none => ⟨0, outcome.sink.held.toList, []⟩
  | some error => .ofError outcome.sink.held.toList error

def Result.ofStop : Stop → Result
  | .help => ⟨0, utf8 helpText, []⟩
  | .version => ⟨0, utf8 versionText, []⟩
  | .misuse misuse => ⟨2, [], complaint misuse.message⟩

/-- Carries out a request.  The patterns are read before any input is opened. -/
def Request.run (request : Request) (directory : Directory) (stdin : List Delivery) : Result :=
  match Rule.ofExprs request.source request.target request.boundary with
  | .error error => .ofError [] error
  | .ok rule => .ofOutcome (rule.runOn directory stdin request.paths .unlimited)

def run (arguments : List Bytes) (directory : Directory) (stdin : List Delivery) : Result :=
  match Request.ofArguments arguments with
  | .error stop => .ofStop stop
  | .ok request => request.run directory stdin

end WordSubst.Command
