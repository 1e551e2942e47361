import ProtoSchema.CommandLine.Session

set_option autoImplicit false

/-! # The program

The program answers a generator request on standard input if it is called by the name of a compiler
plugin, and follows its command line otherwise. Everything it decides is decided by
`Wire.plugin` and `CommandLine.Arguments.plan`; what is here reads, writes and prints. The program
has the definitions of the validation rules built in, and it starts no other program, so schema
files have to be compiled beforehand. -/

namespace ProtoSchema.Main

/-! ## Reading -/

/-- Read a stream to its end. -/
partial def readToEnd (stream : IO.FS.Stream) (read : ByteArray) : IO ByteArray := do
  let chunk ← stream.read 65536
  if chunk.isEmpty then return read else readToEnd stream (read ++ chunk)

/-- Whether a system error code is that of a fault. Some calls negate their codes. -/
def isCode (number : UInt32) (fault : FileFault) : Bool :=
  number.toNat = fault.number || (0 - number).toNat = fault.number

/-- The fault behind a failure to open a file, if it is one that the user is told about in full. -/
def fileFault? : IO.Error → Option FileFault
  | .noFileOrDirectory .. => some .notFound
  | .alreadyExists .. => some .alreadyThere
  | .inappropriateType _ number _ => [.notDirectory, .isDirectory].find? (isCode number)
  | .invalidArgument _ number _ => [.nameTooLong].find? (isCode number)
  | _ => none

/-- Do something at a path, and tell the faults that the user is told about from all others. -/
def attempt {α : Type} (path : String) (action : IO α) : IO (Except Error α) := do
  match CommandLine.Path.requireNoNull path with
  | .error e => return .error e
  | .ok () =>
    try
      return .ok (← action)
    catch e =>
      match fileFault? e with
      | some fault => return .error (.file fault path)
      | none => throw e

/-- The contents of the input files that are read as they are. -/
def readInputs (files : List String) : IO (List (String × Except Error (List UInt8))) :=
  (files.filter fun path => !CommandLine.isSchemaFile path).mapM fun (path : String) => do
    return (path, (← attempt path (IO.FS.readBinFile path)).map fun bytes => bytes.data.toList)

/-- The surroundings of a run in which the given files have been read. -/
def surroundings (directory : String) (inputs : List (String × Except Error (List UInt8))) :
    CommandLine.Surroundings where
  directory
  read path := (inputs.lookup path).getD (.error (.file .notFound path))
  compiler := {
    output := "descriptor.pb"
    extra := []
    run := fun _ => .error (.compilerMissing (Error.file .notFound "protoc").message) }

/-! ## Writing -/

/-- Write notices to standard error. -/
def tell (notices : List Notice) : IO Unit :=
  notices.forM fun notice => do (← IO.getStderr).putStr notice.text

/-- Make one directory, unless it is there. -/
def makeDirectory (path : String) : IO (Except Error Unit) := do
  match ← attempt path (IO.FS.createDir path) with
  | .error (.file .alreadyThere _) => return .ok ()
  | made => return made

/-- Make the first of the given directories, where each is inside the next. If that fails, the outer
    ones are made first. -/
def makeDirectories : List String → IO (Except Error Unit)
  | [] => return .ok ()
  | path :: outer => do
    match ← makeDirectory path with
    | .ok () => return .ok ()
    | .error e =>
      if outer.isEmpty then return .error e
      match ← makeDirectories outer with
      | .error e => return .error e
      | .ok () => makeDirectory path

/-- Write a generated file, after the directories that it needs. -/
def write (quiet : Bool) (file : OutputFile) : IO (Except Error Unit) := do
  let directory := CommandLine.Path.parent file.path
  let made ←
    if directory = "" then pure (.ok ())
    else makeDirectories (CommandLine.Path.lineage directory)
  match made with
  | .error e => return .error e
  | .ok () =>
    unless quiet do
      IO.println (CommandLine.announcement file)
    attempt file.path (IO.FS.writeFile file.path file.content)

/-- Write generated files one after the other, up to the first that fails. -/
def writeAll (quiet : Bool) : List OutputFile → IO (Except Error Unit)
  | [] => return .ok ()
  | file :: files => do
    match ← write quiet file with
    | .error e => return .error e
    | .ok () => writeAll quiet files

/-! ## Running -/

/-- Answer the request on standard input. -/
def runPlugin : IO UInt32 := do
  let input ← readToEnd (← IO.getStdin) .empty
  let report := Wire.plugin input.data.toList (.idle true)
  tell report.notices
  match report.outcome with
  | .error e =>
    tell [.details e]
    return 1
  | .ok (_, output) =>
    let stdout ← IO.getStdout
    stdout.write ⟨output.toArray⟩
    stdout.flush
    return 0

/-- Follow a command line. -/
def runCommand (program : String) (words : List String) : IO UInt32 := do
  match CommandLine.Arguments.parse words with
  | .error exit =>
    let stream ← if exit = .help then IO.getStdout else IO.getStderr
    stream.putStrLn (CommandLine.usage program)
    return exit.status.toUInt32
  | .ok arguments =>
    let inputs ← readInputs arguments.files
    let plan := arguments.plan (surroundings (← IO.currentDir).toString inputs)
    tell plan.notices
    let written ← match plan.writes with
      | .error e => pure (.error e)
      | .ok files => writeAll arguments.quiet files
    match written with
    | .error e =>
      tell [.details e]
      return 1
    | .ok () => return plan.status.toUInt32

end ProtoSchema.Main

/-- The program. -/
def main (words : List String) : IO UInt32 := do
  let program := ProtoSchema.CommandLine.Path.last (← IO.appPath).toString
  if ProtoSchema.CommandLine.isPluginName program then ProtoSchema.Main.runPlugin
  else ProtoSchema.Main.runCommand program words
