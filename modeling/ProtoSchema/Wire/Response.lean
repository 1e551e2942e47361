import ProtoSchema.Plugin
import ProtoSchema.Wire.Descriptor

set_option autoImplicit false

/-! # Writing the answer to a request

The answer is written field by field in ascending order, with numbers as short as possible. A text
that is there is written even if it is empty. `readResponse` reads an answer back. -/

namespace ProtoSchema.Wire

/-! ## Writing -/

/-- The bytes of a text. -/
def textBytes (s : String) : List UInt8 :=
  s.toUTF8.data.toList

/-- A record that holds a number. -/
def writeNumber (field n : Nat) : List UInt8 :=
  writeVarint (8 * field) ++ writeVarint n

/-- A record that holds a byte string. -/
def writeBytes (field : Nat) (content : List UInt8) : List UInt8 :=
  writeVarint (8 * field + 2) ++ writeVarint content.length ++ content

/-- A record that holds a text. -/
def writeText (field : Nat) (s : String) : List UInt8 :=
  writeBytes field (textBytes s)

/-- A generated file. -/
def writeOutput (file : OutputFile) : List UInt8 :=
  writeText 1 file.path ++ writeText 15 file.content

/-- The answer to a request. -/
def writeResponse (response : GeneratorResponse) : List UInt8 :=
  (response.error.map (writeText 1)).getD [] ++ writeNumber 2 response.features ++
    response.files.flatMap fun file => writeBytes 15 (writeOutput file)

/-! ## Reading -/

/-- Read a text that has to be decoded. -/
def decodedText (text : String) : WireValue → Except WireFault String
  | .bytes content => readText content
  | _ => .ok text

/-- Read one record of a generated file. -/
def outputStep (file : OutputFile) (record : Record) : Except WireFault OutputFile :=
  match record.field with
  | 1 => do return { file with path := ← decodedText file.path record.value }
  | 15 => do return { file with content := ← decodedText file.content record.value }
  | _ => .ok file

/-- Read a generated file. -/
def readOutput (depth : Nat) (bytes : List UInt8) : Except WireFault OutputFile :=
  readFields depth outputStep bytes ⟨"", ""⟩

/-- Read one record of an answer. -/
def responseStep (response : GeneratorResponse) (record : Record) :
    Except WireFault GeneratorResponse :=
  match record.field with
  | 1 =>
    match record.value with
    | .bytes content => do return { response with error := some (← readText content) }
    | _ => .ok response
  | 2 => .ok { response with
      features := (natFormat.read? record.value).getD response.features }
  | 15 => do
    let files ← appendNested maxDepth response.files readOutput record.value
    return { response with files }
  | _ => .ok response

/-- Read the answer to a request. -/
def readResponse (bytes : List UInt8) : Except WireFault GeneratorResponse :=
  readFields maxDepth responseStep bytes ⟨none, 0, []⟩

/-! ## The plugin -/

/-- Serve the request that some bytes hold. The definitions of the rules have to be there before
    requests are read. -/
def plugin (bytes : List UInt8) : Run (GeneratorResponse × List UInt8) := do
  let _ ← .load
  let request ← .ofExcept (decodeRequest bytes)
  let response ← request.process
  return (response, writeResponse response)

/-- Answer the bytes of a request with the bytes of an answer, where the definitions of the rules
    are installed. -/
def answerBytes (bytes : List UInt8) :
    Except Error (GeneratorResponse × List Notice × List UInt8) :=
  let report := plugin bytes (.idle true)
  report.outcome.map fun (response, output) => (response, report.notices, output)

end ProtoSchema.Wire
