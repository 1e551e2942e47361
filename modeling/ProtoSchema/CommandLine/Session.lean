import ProtoSchema.CommandLine.Arguments
import ProtoSchema.CommandLine.Workspace
import ProtoSchema.Wire.Response

set_option autoImplicit false

/-! # A run from the command line

A run loads the input files, generates all modules, and only then has files to write: if anything
fails before, nothing is written. What the run needs from its surroundings is handed in: the current
directory, how to read a file, and the compiler of schema files. -/

namespace ProtoSchema.CommandLine

/-! ## Surroundings -/

/-- The compiler of schema files. -/
structure Compiler where
  /-- The file that it writes descriptors to. -/
  output : String
  /-- Arguments that it gets in addition. -/
  extra : List String
  /-- The descriptors that it writes for some arguments. -/
  run : List String → Except Error (List UInt8)

/-- What a run needs from its surroundings. -/
structure Surroundings where
  directory : String
  read : String → Except Error (List UInt8)
  compiler : Compiler

/-! ## Loading -/

/-- The files to work with: their descriptors, and the names of those to generate. -/
structure Inputs where
  files : List FileDescriptor
  names : List RawText

namespace Inputs

/-- Keep the first file of each name. -/
def addFiles (known files : List FileDescriptor) : List FileDescriptor :=
  files.foldl (fun known file =>
    if known.any fun k => k.name = file.name then known else known ++ [file]) known

/-- Add a set of descriptors, all of which are to be generated. -/
def addSet (inputs : Inputs) (files : List FileDescriptor) : Inputs :=
  ⟨addFiles inputs.files files, inputs.names ++ files.map FileDescriptor.name⟩

end Inputs

/-- Read the sets of descriptors in order. The definitions of the rules have to be there before
    descriptors are read. -/
def readSets (read : String → Except Error (List UInt8)) (inputs : Inputs) :
    List String → Run Inputs
  | [] => pure inputs
  | path :: paths => do
    let _ ← .load
    let bytes ← .ofExcept (read path)
    let files ← .ofExcept (Wire.decodeFileSet bytes)
    readSets read (inputs.addSet files) paths

/-- Whether an input file is a schema file, which has to be compiled. -/
def isSchemaFile (path : String) : Bool :=
  Text.endsWith ".proto" path

/-- The command that compiles schema files. -/
def compileCommand (compiler : Compiler) (includePaths schemas : List String) : List String :=
  ["protoc", "--descriptor_set_out=" ++ compiler.output, "--include_imports"] ++
    includePaths.map ("-I" ++ ·) ++ schemas

/-- What loading has told and done, and how it ended. -/
structure Loading extends Report Inputs where
  commands : List (List String)

/-- The include paths, if all of them have a value. -/
def namedPaths (includePaths : List (Option String)) : Except Error (List String) :=
  includePaths.mapM fun path => match path with
    | some path => .ok path
    | none => .error .valuelessIncludePath

/-- Compile schema files and add them to the inputs. The compiler alone needs the include paths. -/
def compileSchemas (s : Surroundings) (includePaths : List (Option String)) (schemas : List String)
    (inputs : Inputs) (loader : Loader) : Loading :=
  let asked := Run.load loader
  match namedPaths includePaths with
  | .error e => ⟨⟨asked.notices, asked.loader, .error e⟩, []⟩
  | .ok includePaths =>
    let command := compileCommand s.compiler includePaths schemas
    let called := command ++ s.compiler.extra
    match s.compiler.run called with
    | .error e =>
      let told := match e with
        | .compilerMissing _ => [.compilerNotRun command, .details e]
        | _ => []
      ⟨⟨asked.notices ++ told, asked.loader, .error e⟩, [called]⟩
    | .ok bytes =>
      let outcome := do
        let files ← Wire.decodeFileSet bytes
        let names ← schemas.mapM (Path.schemaName s.directory includePaths)
        return Inputs.mk (Inputs.addFiles inputs.files files) (inputs.names ++ names.map .text)
      ⟨⟨asked.notices, asked.loader, outcome⟩, [called]⟩

/-- Load the input files: sets of descriptors first, then schema files through the compiler. No name
    is generated twice. -/
def load (s : Surroundings) (includePaths : List (Option String)) (files : List String)
    (loader : Loader := .idle true) : Loading :=
  let schemas := files.filter isSchemaFile
  let sets := readSets s.read ⟨[], []⟩ (files.filter fun path => !isSchemaFile path) loader
  let loading : Loading :=
    match sets.outcome with
    | .error _ => ⟨sets, []⟩
    | .ok inputs =>
      if schemas.isEmpty then ⟨sets, []⟩
      else
        let compiled := compileSchemas s includePaths schemas inputs sets.loader
        { compiled with notices := sets.notices ++ compiled.notices }
  { loading with outcome := loading.outcome.map fun i => ⟨i.files, i.names.eraseDups⟩ }

/-! ## Running -/

/-- The result of a run: the exit status, what it tells the user, the commands it ran, and the files
    to write. -/
structure Plan where
  status : Nat
  notices : List Notice
  commands : List (List String)
  /-- The files, or why they have no place. -/
  writes : Except Error (List OutputFile)
  /-- The lines to print when the files are written. -/
  announcements : List String

/-- The line that is printed when a file is written. -/
def announcement (file : OutputFile) : String :=
  "Writing to " ++ file.path

namespace Arguments

/-- The options of generation. -/
def options (a : Arguments) : Options :=
  ⟨a.includeResponses, a.verbose && !a.quiet⟩

/-- The directories to look for schema files in. -/
def searchPaths (a : Arguments) : List (Option String) :=
  if a.includePaths.isEmpty then [some "."] else a.includePaths

/-- Generate the modules of the loaded files. -/
def generation (a : Arguments) (inputs : Inputs) (loader : Loader) : Generation :=
  match Model.build inputs.files with
  | .error e => ⟨[], [], loader, some e⟩
  | .ok model => ({ model, options := a.options } : Generator).run inputs.names loader

/-- The plan of a run that failed. -/
def failedPlan (a : Arguments) (notices : List Notice) (commands : List (List String)) (e : Error) :
    Plan :=
  ⟨1, notices ++ .failed e :: (if a.verbose then [.details e] else []), commands,
    .ok [], []⟩

/-- Where an output goes. -/
def place (a : Arguments) (output : OutputFile) : Except Error OutputFile :=
  match a.outputDirectory with
  | some directory => .ok { output with path := Path.join directory output.path }
  | none => .error .valuelessDirectory

/-- Do everything that comes before writing. -/
def plan (a : Arguments) (s : Surroundings) (loader : Loader := .idle true) : Plan :=
  let loading := load s a.searchPaths a.files loader
  match loading.outcome with
  | .error e => a.failedPlan loading.notices loading.commands e
  | .ok inputs =>
    let generation := a.generation inputs loading.loader
    let notices := loading.notices ++ generation.notices
    match generation.outcome with
    | .error e => a.failedPlan notices loading.commands e
    | .ok outputs =>
      let writes := outputs.mapM a.place
      ⟨0, notices, loading.commands, writes,
        if a.quiet then [] else (writes.toOption.getD []).map announcement⟩

end Arguments

/-! ## The name of the program -/

/-- Whether the program was called by a name under which it answers generator requests. -/
def isPluginName (program : String) : Bool :=
  Text.startsWith "protoc-gen-" (Path.last program)

end ProtoSchema.CommandLine
