import WordSubst.Rule

namespace WordSubst

structure Sink where
  held : Array UInt8
  /-- How many more bytes it takes, if there is a limit. -/
  room : Option Nat
  whenFull : Fault
  whenFlushed : Option Fault

namespace Sink

def unlimited : Sink :=
  ⟨#[], none, .nothingWritten, none⟩

/-- Writes `bytes`.  Where there is too little room, what fits is kept and the
write fails; writing nothing never fails. -/
def write (sink : Sink) (bytes : Bytes) : Sink × Option Fault :=
  match sink.room with
  | none => ({ sink with held := sink.held ++ bytes }, none)
  | some room =>
    if bytes.length ≤ room then
      ({ sink with held := sink.held ++ bytes, room := some (room - bytes.length) }, none)
    else
      ({ sink with held := sink.held ++ bytes.take room, room := some 0 }, some sink.whenFull)

end Sink

def lineFeed : UInt8 := 0x0A

def carriageReturn : UInt8 := 0x0D

/-- A line without the carriage return that may end it.  Only one is taken off. -/
def stripReturn (line : Bytes) : Bytes :=
  if line.getLast? = some carriageReturn then line.dropLast else line

namespace Rule

/-- What is written for a line, given without its line feed. -/
def line (rule : Rule) (text : Bytes) : Bytes :=
  rule.apply (stripReturn text) ++ [lineFeed]

/-- Takes in a chunk after the beginning `pending` of a line: what is written for
the lines that it ends, and the beginning of a line that it leaves. -/
def feed (rule : Rule) (pending chunk : Bytes) : Bytes × Bytes :=
  let parts := (chunk.splitOn lineFeed).modifyHead (pending ++ ·)
  (parts.dropLast.flatMap rule.line, parts.getLast?.getD [])

/-- What is written at the end of the text, where `pending` is the last line
unless it is empty. -/
def finish (rule : Rule) (pending : Bytes) : Bytes :=
  if pending.isEmpty then [] else rule.line pending

end Rule

inductive Delivery where
  | chunk (bytes : Bytes)
  | interrupted
  | failed (fault : Fault)
  deriving DecidableEq

/-- How a run ends: the sink with what was written, and what went wrong. -/
structure Outcome where
  sink : Sink
  error? : Option Error

/-- Ends a stream: writes the unended last line and flushes the sink. -/
def Rule.close (rule : Rule) (pending : Bytes) (sink : Sink) : Outcome :=
  match sink.write (rule.finish pending) with
  | (sink, some fault) => ⟨sink, some (.writeOutput fault)⟩
  | (sink, none) => ⟨sink, sink.whenFlushed.map .writeOutput⟩

/-- Runs a rule over the deliveries, where `pending` is the beginning of a line
that has been read. -/
def Rule.runFrom (rule : Rule) (pending : Bytes) : List Delivery → Sink → Outcome
  | [], sink => rule.close pending sink
  | .interrupted :: later, sink => rule.runFrom pending later sink
  | .failed fault :: _, sink => ⟨sink, some (.readInput fault)⟩
  | .chunk bytes :: later, sink =>
    let (output, pending) := rule.feed pending bytes
    match sink.write output with
    | (sink, some fault) => ⟨sink, some (.writeOutput fault)⟩
    | (sink, none) => rule.runFrom pending later sink

def Rule.run (rule : Rule) (deliveries : List Delivery) (sink : Sink) : Outcome :=
  rule.runFrom [] deliveries sink

/-- A directory, as what lies below it.  Of two files at the same path the first
counts. -/
structure Directory where
  folders : List (List Bytes)
  /-- The names that lead to each file, and its content. -/
  files : List (List Bytes × Bytes)

inductive Place where
  /-- A directory below the given one, or that one itself. -/
  | inside (names : List Bytes)
  /-- A directory above it. -/
  | outside
  | file (content : Bytes)
  deriving DecidableEq

def pathNames (path : Bytes) : List Bytes :=
  path.splitOn 0x2F

def sameName : Bytes := [0x2E]

def parentName : Bytes := [0x2E, 0x2E]

namespace Directory

def empty : Directory := ⟨[], []⟩

def follow (directory : Directory) (place : Place) (name : Bytes) : Except Fault Place :=
  match place with
  | .file _ => .error .notDirectory
  | .outside =>
    if name = [] ∨ name = sameName ∨ name = parentName then .ok .outside else .error .notFound
  | .inside names =>
    if name = [] ∨ name = sameName then .ok place
    else if name = parentName then .ok (if names.isEmpty then .outside else .inside names.dropLast)
    else
      let below := names ++ [name]
      match directory.files.lookup below with
      | some content => .ok (.file content)
      | none => if below ∈ directory.folders then .ok (.inside below) else .error .notFound

/-- Follows a path.  One that starts with a slash starts at the top. -/
def locate (directory : Directory) (path : Bytes) : Except Fault Place :=
  if path.contains 0 then .error .zeroInPath
  else if path = [] then .error .notFound
  else
    let start := if path.head? = some 0x2F then Place.outside else .inside []
    (pathNames path).foldlM directory.follow start

def enter (directory : Directory) (place : Place) (name : Bytes) :
    Except Fault (Directory × Place) :=
  match place, directory.follow place name with
  | .inside names, .error .notFound =>
    let below := names ++ [name]
    .ok ({ directory with folders := below :: directory.folders }, .inside below)
  | _, .ok next => .ok (directory, next)
  | _, .error fault => .error fault

/-- Writes a file, and makes the directories on the way to it.  They are made
also where the path goes up again.  A file that is there already is replaced. -/
def write (directory : Directory) (path content : Bytes) : Except Fault Directory := do
  let names := pathNames path
  let name := names.getLastD []
  let (directory, place) ←
    names.dropLast.foldlM (fun (directory, place) name => directory.enter place name)
      (directory, .inside [])
  match place, directory.follow place name with
  | .inside here, .error .notFound | .inside here, .ok (.file _) =>
    return { directory with files := (here ++ [name], content) :: directory.files }
  | _, .ok _ => throw .isDirectory
  | _, .error fault => throw fault

def ofFiles (files : List (Bytes × Bytes)) : Except Fault Directory :=
  files.foldlM (fun directory (path, content) => directory.write path content) empty

end Directory

def standardInput : Bytes := [0x2D]

/-- A text as a stream that comes all at once. -/
instance : Coe Bytes (List Delivery) := ⟨fun text => [.chunk text]⟩

/-- What reading from a place brings.  A directory can be opened but not read. -/
def Place.delivery : Place → Delivery
  | file content => .chunk content
  | inside _ | outside => .failed .isDirectory

/-- Opens the inputs in order.  The standard input is used up by the first that
names it. -/
def Directory.openAll (directory : Directory) (stdin : List Delivery) :
    (paths : List Bytes) → Except Error (List Delivery)
  | [] => .ok []
  | path :: later =>
    if path = standardInput then do
      let deliveries ← directory.openAll [] later
      return stdin ++ deliveries
    else
      match directory.locate path with
      | .error fault => .error (.openInput path fault)
      | .ok place => do
        let deliveries ← directory.openAll stdin later
        return place.delivery :: deliveries

/-- The input that the paths name.  No path means the standard input. -/
def Directory.input (directory : Directory) (stdin : List Delivery) (paths : List Bytes) :
    Except Error (List Delivery) :=
  if paths.isEmpty then .ok stdin else directory.openAll stdin paths

def Rule.runOn (rule : Rule) (directory : Directory) (stdin : List Delivery)
    (paths : List Bytes) (sink : Sink) : Outcome :=
  match directory.input stdin paths with
  | .error error => ⟨sink, some error⟩
  | .ok deliveries => rule.run deliveries sink

end WordSubst
