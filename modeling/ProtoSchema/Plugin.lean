import ProtoSchema.Generator

set_option autoImplicit false

/-! # Answering a generator request

A compiler of schema files asks for the modules of some files and gets an answer that holds either
all of them or an error. -/

namespace ProtoSchema

/-- A request to generate the modules of some of the given files. -/
structure GeneratorRequest where
  /-- The names of the files to generate. -/
  names : List RawText := []
  parameter : RawText := ""
  files : List FileDescriptor := []

/-- The answer to a request. -/
structure GeneratorResponse where
  error : Option String
  /-- The features that the generator supports, as a bit set. -/
  features : Nat
  files : List OutputFile
deriving DecidableEq

/-- What a process does about a request: the response, what it tells the user, and the loader as it
    leaves it. -/
structure Service where
  response : GeneratorResponse
  notices : List Notice
  loader : Loader

namespace GeneratorRequest

/-- The options that the parameter of a request sets. -/
def options (request : GeneratorRequest) : Except Error Options :=
  match request.parameter with
  | .text parameter => .ok (.ofParameter parameter)
  | .undecodable _ => .error (.undecodableText .cut)

/-- The generator of a request. -/
def generator (request : GeneratorRequest) : Except Error Generator := do
  let options ← request.options
  let model ← Model.build request.files
  return { model, options }

/-- Generate what the request asks for. -/
def generation (loader : Loader) (request : GeneratorRequest) : Generation :=
  match request.generator with
  | .error e => ⟨[], [], loader, some e⟩
  | .ok generator => generator.run request.names loader

/-- Serve the request: respond with all outputs, or with the failure and no outputs. The single
    feature announced is the support of fields marked optional. -/
def serve (loader : Loader) (request : GeneratorRequest) : Service :=
  let generation := request.generation loader
  match generation.outcome with
  | .ok files => ⟨⟨none, 1, files⟩, generation.notices, generation.loader⟩
  | .error e =>
    ⟨⟨some e.report, 1, []⟩, generation.notices ++ [.details e], generation.loader⟩

/-- Serving a request as a part of a run. It never fails. -/
def process (request : GeneratorRequest) : Run GeneratorResponse := fun loader =>
  let service := request.serve loader
  ⟨service.notices, service.loader, .ok service.response⟩

/-- The answer to the request, and what is told on the way. -/
def answer (loader : Loader) (request : GeneratorRequest) : GeneratorResponse × List Notice :=
  let service := request.serve loader
  (service.response, service.notices)

end GeneratorRequest

end ProtoSchema
