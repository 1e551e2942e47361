import ProtoSchema.Error
import ProtoSchema.ModulePath

set_option autoImplicit false

/-! # Paths on the command line

Paths are slash separated. They are compared by components, after they have been made absolute
against the current directory: empty components and `.` do not count, and `..` takes back the
component before it. The parent of the root is the root. -/

namespace ProtoSchema.CommandLine.Path

/-! ## Components -/

/-- Whether a path starts at the root. -/
def isAbsolute (path : String) : Bool :=
  Text.startsWith "/" path

/-- The components of a path that count. -/
def components (path : String) : List String :=
  (Text.split '/' path).filter fun c => c ≠ "" && c ≠ "."

/-- Follow one component. -/
def follow (place : List String) (component : String) : List String :=
  if component = ".." then place.dropLast else place ++ [component]

/-- The components of a path seen from the directory `cwd`. -/
def absolute (cwd path : String) : List String :=
  (components (if isAbsolute path then path else cwd ++ "/" ++ path)).foldl follow []

/-- The way from one place to another. -/
def wayParts (source target : List String) : List String :=
  let rest := ModulePath.dropShared source target
  List.replicate rest.1.length ".." ++ rest.2

/-- The path of `path` relative to the directory `start`. -/
def relative (cwd start path : String) : String :=
  let parts := wayParts (absolute cwd start) (absolute cwd path)
  if parts.isEmpty then "." else "/".intercalate parts

/-! ## Names of schema files -/

/-- The name of a schema file below the first of the include paths that holds it; a file below none
    of them keeps its path. -/
def schemaName (cwd : String) (includePaths : List String) (path : String) : Except Error String :=
  if path = "" && !includePaths.isEmpty then .error .emptyPath
  else .ok <| ((includePaths.map fun start => relative cwd start path).find? fun name =>
    !Text.startsWith ".." name).getD path

/-! ## What may be a path -/

/-- Make sure that a path has no null character in it. -/
def requireNoNull (path : String) : Except Error Unit :=
  if path.toList.contains '\x00' then .error .nullInPath else .ok ()

/-- The number of bytes that the length of a path has to stay below. -/
def lengthLimit : Nat := 4096

/-- The number of bytes that a component may have. -/
def componentLimit : Nat := 255

/-! ## Joining and splitting -/

/-- A path inside a directory; an absolute path stays as it is. -/
def join (directory path : String) : String :=
  if isAbsolute path then path
  else if directory = "" || Text.endsWith "/" directory then directory ++ path
  else directory ++ "/" ++ path

/-- The part of a path before its last component, without the slashes between them. A part that
    holds nothing but slashes is kept. -/
def parentChars (path : List Char) : List Char :=
  let head := path.reverse.dropWhile (· ≠ '/')
  let bare := head.dropWhile (· = '/')
  if bare.isEmpty then head.reverse else bare.reverse

/-- The last component of a path. -/
def lastChars (path : List Char) : List Char :=
  (path.reverse.takeWhile (· ≠ '/')).reverse

/-- The part of a path before its last component. -/
def parent (path : String) : String :=
  String.ofList (parentChars path.toList)

/-- The last component of a path. -/
def last (path : String) : String :=
  String.ofList (lastChars path.toList)

/-- Together, the two parts of a path are not longer than the path. -/
theorem length_parentChars_add_length_lastChars_le (path : List Char) :
    (parentChars path).length + (lastChars path).length ≤ path.length := by
  have hsplit := congrArg List.length (List.takeWhile_append_dropWhile
    (p := fun c => decide (c ≠ '/')) (l := path.reverse))
  have hbare := (List.dropWhile_sublist (fun c => decide (c = '/'))
    (l := path.reverse.dropWhile fun c => decide (c ≠ '/'))).length_le
  simp only [List.length_append, List.length_reverse] at hsplit
  simp only [parentChars, lastChars, List.length_reverse]
  split <;> simp only [List.length_reverse] <;> omega

/-- A path and the directories around it, from the inside out, up to the first component. -/
def lineageChars (path : List Char) : List (List Char) :=
  if _h : lastChars path = [] ∨ parentChars path = [] then [path]
  else path :: lineageChars (parentChars path)
termination_by path.length
decreasing_by
  have := length_parentChars_add_length_lastChars_le path
  have : 0 < (lastChars path).length := List.length_pos_iff.mpr fun h => _h (.inl h)
  omega

/-- A path and the directories around it, from the inside out. -/
def lineage (path : String) : List String :=
  (lineageChars path.toList).map String.ofList

end ProtoSchema.CommandLine.Path
