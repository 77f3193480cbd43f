import WordSubst.Command.Run

namespace WordSubst.Command

/-!
The command on the system's own files and streams.  Input is opened, read and
written here as it comes; what to write is decided by the rule.
-/

def Result.print (result : Result) : IO UInt32 := do
  let stdout ← IO.getStdout
  let stderr ← IO.getStderr
  stdout.write result.stdout.toByteArray
  stdout.flush
  stderr.write result.stderr.toByteArray
  return result.status.toUInt32

def faultOf : IO.Error → Fault
  | .noFileOrDirectory .. => .notFound
  | .inappropriateType _ code details =>
    if code = 20 then .notDirectory else if code = 21 then .isDirectory else .other details
  | error => .other (toString error)

def openPath (path : Bytes) : IO (Except Error IO.FS.Stream) := do
  if path = standardInput then return .ok (← IO.getStdin)
  try
    let handle ← IO.FS.Handle.mk (Text.readLossy path) .read
    return .ok (.ofHandle handle)
  catch error => return .error (.openInput path (faultOf error))

def openPaths : List Bytes → IO (Except Error (List IO.FS.Stream))
  | [] => return .ok []
  | path :: later => do
    match ← openPath path with
    | .error error => return .error error
    | .ok stream =>
      match ← openPaths later with
      | .error error => return .error error
      | .ok streams => return .ok (stream :: streams)

/-- Copies one input to the standard output through the rule.  The beginning of
a line that it leaves is given back. -/
partial def pump (rule : Rule) (pending : Bytes) (input output : IO.FS.Stream) :
    IO (Except Error Bytes) := do
  let chunk? ← try pure (Except.ok (← input.read 8192))
    catch error => pure (Except.error (Error.readInput (faultOf error)))
  match chunk? with
  | .error error => return .error error
  | .ok chunk =>
    if chunk.isEmpty then return .ok pending
    let (text, pending) := rule.feed pending chunk.data.toList
    try output.write text.toByteArray
    catch error => return .error (.writeOutput (faultOf error))
    pump rule pending input output

def pumpAll (rule : Rule) (pending : Bytes) (output : IO.FS.Stream) :
    List IO.FS.Stream → IO (Option Error)
  | [] => do
    try
      output.write (rule.finish pending).toByteArray
      output.flush
      return none
    catch error => return some (.writeOutput (faultOf error))
  | input :: later => do
    match ← pump rule pending input output with
    | .error error => return some error
    | .ok pending => pumpAll rule pending output later

def Request.perform (request : Request) : IO Result := do
  match Rule.ofExprs request.source request.target request.boundary with
  | .error error => return .ofError [] error
  | .ok rule =>
    let paths := if request.paths.isEmpty then [standardInput] else request.paths
    match ← openPaths paths with
    | .error error => return .ofError [] error
    | .ok streams =>
      match ← pumpAll rule [] (← IO.getStdout) streams with
      | none => return ⟨0, [], []⟩
      | some error => return .ofError [] error

end WordSubst.Command

open WordSubst WordSubst.Command in
def main (arguments : List String) : IO UInt32 := do
  match Request.ofArguments (arguments.map utf8) with
  | .error stop => (Result.ofStop stop).print
  | .ok request => (← request.perform).print
