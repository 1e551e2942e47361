import ProtoSchema.Descriptor
import ProtoSchema.Plugin
import ProtoSchema.Wire.Rules

set_option autoImplicit false

/-! # Reading schema files and requests

Readers for descriptors, sets of descriptors and generator requests. Members that have no bearing on
schemas are skipped as their layouts say. -/

namespace ProtoSchema.Wire

/-- The number of levels that messages and groups may be nested inside a document. -/
def maxDepth : Nat := 100

/-- Read a nested message into a default value and add it to a list. -/
def appendNested {α : Type} (depth : Nat) (values : List α)
    (read : Nat → List UInt8 → Except WireFault α) : WireValue → Except WireFault (List α)
  | .bytes content => (enter depth fun depth => read depth content).map fun a => values ++ [a]
  | _ => .ok values

/-- Read a text. -/
def replaceText (text : RawText) : WireValue → RawText
  | .bytes content => .ofBytes content
  | _ => text

/-- Add a text to a list. -/
def appendText (texts : List RawText) : WireValue → List RawText
  | .bytes content => texts ++ [.ofBytes content]
  | _ => texts

/-- Read a nested message that is not needed. -/
def skipNested {α : Type} (depth : Nat) (read : Nat → List UInt8 → Except WireFault α)
    (value : WireValue) : Except WireFault Unit :=
  (appendNested depth [] read value).map fun _ => ()

/-! ## Enums -/

/-- Read one record of an enum value. -/
def enumValueStep (depth : Nat) (v : EnumValue) (record : Record) : Except WireFault EnumValue :=
  match record.field with
  | 1 => .ok { v with name := replaceText v.name record.value }
  | 2 => .ok { v with number := (int32Format.read? record.value).getD v.number }
  | _ => (Members.enumValue.skip depth record).map fun _ => v

/-- Read an enum value. -/
def readEnumValue (depth : Nat) (bytes : List UInt8) : Except WireFault EnumValue :=
  readFields depth (enumValueStep depth) bytes ⟨"", 0⟩

/-- Read one record of the options of an enum: the deprecation mark. -/
def enumOptionsStep (depth : Nat) (deprecated : Bool) (record : Record) : Except WireFault Bool :=
  match record.field with
  | 3 => .ok ((boolFormat.read? record.value).getD deprecated)
  | _ => (Members.enumOptions.skip depth record).map fun _ => deprecated

/-- Read one record of an enum. -/
def enumDescriptorStep (depth : Nat) (e : EnumDescriptor) (record : Record) :
    Except WireFault EnumDescriptor :=
  match record.field with
  | 1 => .ok { e with name := replaceText e.name record.value }
  | 2 => do return { e with values := ← appendNested depth e.values readEnumValue record.value }
  | 3 =>
    match record.value with
    | .bytes content => do
      let deprecated ← enter depth fun depth =>
        readFields depth (enumOptionsStep depth) content e.deprecated
      return { e with deprecated }
    | _ => .ok e
  | _ => (Members.enum.skip depth record).map fun _ => e

/-- Read an enum. -/
def readEnum (depth : Nat) (bytes : List UInt8) : Except WireFault EnumDescriptor :=
  readFields depth (enumDescriptorStep depth) bytes {}

/-! ## Fields -/

/-- The label with a given number. -/
def label? (n : Int) : Option Label :=
  if n = 1 then some .optional
  else if n = 2 then some .required
  else if n = 3 then some .repeated
  else none

/-- Read one record of the options of a field. -/
def fieldOptionsStep (depth : Nat) (options : FieldOptions) (record : Record) :
    Except WireFault FieldOptions :=
  match record.field with
  | 3 => .ok { options with
      deprecated := (boolFormat.read? record.value).getD options.deprecated }
  | 1159 =>
    match record.value with
    | .bytes content => do
      let rules ← enter depth fun depth => readFieldRules depth content (options.rules.getD {})
      return { options with rules := some rules }
    | _ => .ok options
  | _ => (Members.fieldOptions.skip depth record).map fun _ => options

/-- Read one record of a field. Labels and kinds that do not exist count as not given. -/
def fieldStep (depth : Nat) (f : FieldDescriptor) (record : Record) :
    Except WireFault FieldDescriptor :=
  let number := int32Format.read? record.value
  match record.field with
  | 1 => .ok { f with name := replaceText f.name record.value }
  | 3 => .ok { f with number := number.getD f.number }
  | 4 => .ok { f with label := (number.bind label?).getD f.label }
  | 5 => .ok { f with kind := (number.bind FieldKind.ofNumber?).getD f.kind }
  | 6 => .ok { f with typeName := replaceText f.typeName record.value }
  | 8 =>
    match record.value with
    | .bytes content => do
      let options ← enter depth fun depth =>
        readFields depth (fieldOptionsStep depth) content (f.options.getD {})
      return { f with options := some options }
    | _ => .ok f
  | 17 => .ok { f with markedOptional := (boolFormat.read? record.value).getD f.markedOptional }
  | _ => .ok f

/-- Read a field. -/
def readField (depth : Nat) (bytes : List UInt8) : Except WireFault FieldDescriptor :=
  readFields depth (fieldStep depth) bytes {}

/-! ## Messages and files -/

/-- Read one record of the options of a message: the deprecation mark and the map mark. -/
def messageOptionsStep (depth : Nat) (m : MessageDescriptor) (record : Record) :
    Except WireFault MessageDescriptor :=
  match record.field with
  | 3 => .ok { m with deprecated := (boolFormat.read? record.value).getD m.deprecated }
  | 7 => .ok { m with mapEntry := (boolFormat.read? record.value).getD m.mapEntry }
  | _ => (Members.messageOptions.skip depth record).map fun _ => m

/-- Read one record of a message; `nested` reads a message nested in it. -/
def messageStep (depth : Nat) (nested : List UInt8 → Except WireFault MessageDescriptor)
    (m : MessageDescriptor) (record : Record) : Except WireFault MessageDescriptor :=
  match record.field with
  | 1 => .ok { m with name := replaceText m.name record.value }
  | 2 => do return { m with fields := ← appendNested depth m.fields readField record.value }
  | 3 =>
    match record.value with
    | .bytes content => do return { m with messages := m.messages ++ [← nested content] }
    | _ => .ok m
  | 4 => do return { m with enums := ← appendNested depth m.enums readEnum record.value }
  | 6 => (skipNested depth readField record.value).map fun _ => m
  | 7 =>
    match record.value with
    | .bytes content =>
      enter depth fun depth => readFields depth (messageOptionsStep depth) content m
    | _ => .ok m
  | _ => (Members.message.skip depth record).map fun _ => m

/-- Read a message. -/
def readMessage : (depth : Nat) → List UInt8 → Except WireFault MessageDescriptor
  | 0, bytes => readFields 0 (messageStep 0 fun _ => .error .tooDeep) bytes {}
  | depth + 1, bytes =>
    readFields (depth + 1) (messageStep (depth + 1) (readMessage depth)) bytes {}

/-- Read one record of a file. -/
def fileStep (depth : Nat) (f : FileDescriptor) (record : Record) :
    Except WireFault FileDescriptor :=
  match record.field with
  | 1 => .ok { f with name := replaceText f.name record.value }
  | 2 => .ok { f with package := replaceText f.package record.value }
  | 4 => do return { f with messages := ← appendNested depth f.messages readMessage record.value }
  | 5 => do return { f with enums := ← appendNested depth f.enums readEnum record.value }
  | 7 => (skipNested depth readField record.value).map fun _ => f
  | _ => (Members.file.skip depth record).map fun _ => f

/-- Read a file. -/
def readFile (depth : Nat) (bytes : List UInt8) : Except WireFault FileDescriptor :=
  readFields depth (fileStep depth) bytes {}

/-! ## Documents -/

/-- Read one record of a set of files. -/
def fileSetStep (files : List FileDescriptor) (record : Record) :
    Except WireFault (List FileDescriptor) :=
  match record.field with
  | 1 => appendNested maxDepth files readFile record.value
  | _ => .ok files

/-- Read one record of a generator request. -/
def requestStep (request : GeneratorRequest) (record : Record) :
    Except WireFault GeneratorRequest :=
  match record.field with
  | 1 => .ok { request with names := appendText request.names record.value }
  | 2 => .ok { request with parameter := replaceText request.parameter record.value }
  | 15 => do
    let files ← appendNested maxDepth request.files readFile record.value
    return { request with files }
  | 17 => (skipNested maxDepth readFile record.value).map fun _ => request
  | _ => (Members.request.skip maxDepth record).map fun _ => request

/-- Read a set of files. -/
def decodeFileSet (bytes : List UInt8) : Except Error (List FileDescriptor) :=
  (readFields maxDepth fileSetStep bytes []).mapError (.undecodable .fileSet)

/-- Read a generator request. -/
def decodeRequest (bytes : List UInt8) : Except Error GeneratorRequest :=
  (readFields maxDepth requestStep bytes {}).mapError (.undecodable .generatorRequest)

end ProtoSchema.Wire
