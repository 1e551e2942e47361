import ProtoSchema.Model.Build
import ProtoSchema.Module.Render

set_option autoImplicit false

/-! # Generating the modules of a model

A run goes through the names of the files to generate. It stops at the first failure; the modules
generated before it are kept, and it is for the caller to decide what they are worth. -/

namespace ProtoSchema

/-- A generated file. -/
structure OutputFile where
  path : String
  content : String
deriving DecidableEq

/-- What a run over files has generated and told, the loader as it leaves it, and whether it
    failed. -/
structure Generation where
  outputs : List OutputFile
  notices : List Notice
  loader : Loader
  failure : Option Error

/-- The answer of a run that has to succeed as a whole. -/
def Generation.outcome (g : Generation) : Except Error (List OutputFile) :=
  match g.failure with
  | none => .ok g.outputs
  | some e => .error e

/-- A generator: a model and the options. -/
structure Generator where
  model : Model
  options : Options := {}

/-- The output of a file, given what building its module has come to. A file without content has
    none. -/
def SchemaFile.emit (options : Options) (file : SchemaFile Field) :
    Option SchemaModule → Run (Option OutputFile)
  | none => do
    .tellIf options.verbose (.skippedEmpty file.sourceName)
    return none
  | some m => do
    .tellIf options.verbose (.generating m.output file.package)
    .ofExcept m.checkNames
    return some ⟨m.output, m.text⟩

namespace Generator

/-- Generate one file. Files of dependencies are skipped. -/
def generateFile (g : Generator) (name : RawText) : Run (Option OutputFile) := do
  let file ← .ofExcept (g.model.file name)
  if ModulePath.isThirdParty file.sourceName then
    .tellIf g.options.verbose (.skippedThirdParty file.sourceName)
    return none
  file.emit g.options (← file.schemaModule g.options)

/-- Generate the named files in order, up to the first failure. A process that has just started has
    the definitions of the rules, unless it is said that it has not. -/
def run (g : Generator) (names : List RawText) (loader : Loader := .idle true) : Generation :=
  match names with
  | [] => ⟨[], [], loader, none⟩
  | name :: names =>
    let report := g.generateFile name loader
    match report.outcome with
    | .error e => ⟨[], report.notices, report.loader, some e⟩
    | .ok output =>
      let rest := g.run names report.loader
      ⟨output.toList ++ rest.outputs, report.notices ++ rest.notices, rest.loader, rest.failure⟩

end Generator

end ProtoSchema
