import ProtoSchema.Decimal.Layout
import ProtoSchema.Text.Raw

set_option autoImplicit false

/-! # What can go wrong

Every failure of a run, by its cause. `Error.message` says it in words and `Error.label` names its
class, which the plugin's answer shows in front of the message. -/

namespace ProtoSchema

/-- Why a byte string is not a message in wire format. -/
inductive WireFault where
  /-- The bytes break the rules of the format. -/
  | corrupt
  /-- Messages or groups are nested too deeply. -/
  | tooDeep
deriving DecidableEq

/-- The message that a byte string should have held. -/
inductive Document where
  | generatorRequest
  | fileSet
deriving DecidableEq

/-- The full name of the message. -/
def Document.typeName : Document → String
  | generatorRequest => "google.protobuf.compiler.CodeGeneratorRequest"
  | fileSet => "google.protobuf.FileDescriptorSet"

/-- What was tried on a text that cannot be decoded. -/
inductive TextUse where
  /-- To cut it or to replace a part of it. -/
  | cut
  /-- To look at its beginning. -/
  | beginning
  /-- To look at its end. -/
  | ending
  /-- To look for word boundaries. -/
  | boundaries
  /-- To write it into a list of names. -/
  | listing
  /-- To sort it among decoded texts. -/
  | sorting
deriving DecidableEq

/-- The failure of such a use in words. -/
def TextUse.refusal : TextUse → String
  | cut => "a bytes-like object is required, not 'str'"
  | beginning => "startswith first arg must be bytes or a tuple of bytes, not str"
  | ending => "endswith first arg must be bytes or a tuple of bytes, not str"
  | boundaries => "cannot use a string pattern on a bytes-like object"
  | listing => "sequence item 0: expected str instance, bytes found"
  | sorting => "'<' not supported between instances of 'bytes' and 'str'"

/-- Why the operating system refuses to open or make a file. -/
inductive FileFault where
  | notFound | alreadyThere | notDirectory | isDirectory | nameTooLong
deriving DecidableEq

namespace FileFault

/-- The number of the fault. -/
def number : FileFault → Nat
  | notFound => 2
  | alreadyThere => 17
  | notDirectory => 20
  | isDirectory => 21
  | nameTooLong => 36

/-- The fault in words. -/
def text : FileFault → String
  | notFound => "No such file or directory"
  | alreadyThere => "File exists"
  | notDirectory => "Not a directory"
  | isDirectory => "Is a directory"
  | nameTooLong => "File name too long"

/-- The class of the fault. -/
def label : FileFault → String
  | notFound => "FileNotFoundError"
  | alreadyThere => "FileExistsError"
  | notDirectory => "NotADirectoryError"
  | isDirectory => "IsADirectoryError"
  | nameTooLong => "OSError"

end FileFault

/-- A failure. -/
inductive Error where
  /-- The type that a field names is not declared, or is not of the kind the field says. -/
  | unresolvedType (typeName owner field : String)
  /-- No file has the given name. -/
  | unknownFile (name : String)
  /-- The message of a map's entries lacks a key or a value. -/
  | shortMapEntry
  /-- A dependency that the graph does not know. -/
  | unknownDependency (name : RawText)
  /-- A text that cannot be decoded, where one is needed that can. -/
  | undecodableText (use : TextUse)
  /-- A number that names no scalar type. -/
  | notScalar (number : Int)
  /-- An empty path where a path is needed. -/
  | emptyPath
  /-- Bytes that do not hold the message they should. -/
  | undecodable (document : Document) (fault : WireFault)
  /-- A file that cannot be opened or made. -/
  | file (fault : FileFault) (path : String)
  /-- A path with a null character in it. -/
  | nullInPath
  /-- An output directory that was named without a value. -/
  | valuelessDirectory
  /-- An include path that was named without a value. -/
  | valuelessIncludePath
  /-- The compiler of schema files ran and failed. -/
  | compilerFailed (status : Int)
  /-- The compiler of schema files could not be run. -/
  | compilerMissing (reason : String)
deriving DecidableEq

/-- The fault in words. -/
def WireFault.text : WireFault → String
  | corrupt => "Wire format was corrupt"
  | tooDeep => "Exceeded upb_DecodeOptions_MaxDepth"

namespace Error

/-- The failure in words. -/
def message : Error → String
  | unresolvedType typeName owner field =>
    "Could not resolve type " ++ typeName ++ " of field " ++ owner ++ "." ++ field
  | unknownFile name => "Could not find descriptor for " ++ name
  | shortMapEntry => "list index out of range"
  | unknownDependency name => name.quoted
  | undecodableText use => use.refusal
  | notScalar number => Decimal.intText number ++ " is not a valid ScalarType"
  | emptyPath => "no path specified"
  | undecodable document fault =>
    "Error parsing message with type '" ++ document.typeName ++ "': " ++ fault.text
  | file fault path =>
    "[Errno " ++ Decimal.natText fault.number ++ "] " ++ fault.text ++ ": " ++ Text.quoted path
  | nullInPath => "embedded null byte"
  | valuelessDirectory => "expected str, bytes or os.PathLike object, not list"
  | valuelessIncludePath => "can only concatenate str (not \"list\") to str"
  | compilerFailed status => "protoc failed with status " ++ Decimal.intText status
  | compilerMissing reason => reason

/-- The class of the failure. -/
def label : Error → String
  | unresolvedType .. => "ValueError"
  | unknownFile _ => "ValueError"
  | shortMapEntry => "IndexError"
  | unknownDependency _ => "KeyError"
  | undecodableText _ => "TypeError"
  | notScalar _ => "ValueError"
  | emptyPath => "ValueError"
  | undecodable .. => "DecodeError"
  | file fault _ => fault.label
  | nullInPath => "ValueError"
  | valuelessDirectory => "TypeError"
  | valuelessIncludePath => "TypeError"
  | compilerFailed _ => "RuntimeError"
  | compilerMissing _ => "OSError"

/-- The class and the words together. -/
def report (e : Error) : String :=
  e.label ++ ": " ++ e.message

end Error

/-- Fail if a use meets a text that cannot be decoded. -/
def TextUse.refuseIf (use : TextUse) (condition : Bool) : Except Error Unit :=
  if condition then .error (.undecodableText use) else .ok ()

end ProtoSchema
