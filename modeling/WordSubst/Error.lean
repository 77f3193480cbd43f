import WordSubst.Text.Bytes
import WordSubst.Text.Display

namespace WordSubst

/-- What the system says when reading or writing fails. -/
inductive Fault where
  | notFound
  /-- The path goes on below something that is not a directory. -/
  | notDirectory
  | isDirectory
  | zeroInPath
  /-- The sink accepted no byte of what was left to write. -/
  | nothingWritten
  /-- Any other cause, in the words of whoever reported it. -/
  | other (text : String)
  deriving DecidableEq

def Fault.message : Fault → String
  | notFound => "No such file or directory (os error 2)"
  | notDirectory => "Not a directory (os error 20)"
  | isDirectory => "Is a directory (os error 21)"
  | zeroInPath => "file name contained an unexpected NUL byte"
  | nothingWritten => "failed to write whole buffer"
  | other text => text

/-- What a user of the library is told. -/
inductive Error where
  /-- The escape at byte `offset` of the expression is malformed. -/
  | malformedEscape (expr : String) (offset : Nat) (reason : String)
  | positionCounts (source target : Nat)
  | branchCounts (position source target : Nat)
  | duplicateBranch (position : Nat) (branch : String)
  /-- No search could be set up for the regular expression `regex`. -/
  | unusableRegex (regex cause : String)
  | openInput (path : Bytes) (fault : Fault)
  | readInput (fault : Fault)
  | writeOutput (fault : Fault)
  deriving DecidableEq

namespace Error

def message : Error → String
  | malformedEscape expr offset reason =>
    "invalid escape at byte " ++ toString offset ++ " in pattern " ++ Text.quote expr ++ ": "
      ++ reason
  | positionCounts source target =>
    "mismatch the number of sequences (FROM has " ++ toString source ++ ", TO has "
      ++ toString target ++ ")"
  | branchCounts position source target =>
    "mismatch the number of branches at position " ++ toString position ++ " (FROM has "
      ++ toString source ++ ", TO has " ++ toString target ++ ")"
  | duplicateBranch position branch =>
    "position " ++ toString position ++ " has duplicate branch " ++ Text.quote branch
  | unusableRegex regex _ => "failed to compile matcher: " ++ regex
  | openInput path _ => Text.readLossy path
  | readInput _ => "failed to read input"
  | writeOutput _ => "failed to write output"

def cause? : Error → Option String
  | unusableRegex _ cause => some cause
  | openInput _ fault | readInput fault | writeOutput fault => some fault.message
  | _ => none

def isUsage : Error → Bool
  | openInput .. | readInput _ | writeOutput _ => false
  | _ => true

/-- The full report: the wording and, after a colon, the cause. -/
def report (error : Error) : String :=
  match error.cause? with
  | some cause => error.message ++ ": " ++ cause
  | none => error.message

end Error

end WordSubst
