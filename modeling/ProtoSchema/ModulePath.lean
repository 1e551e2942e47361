import ProtoSchema.Text.Affix
import ProtoSchema.Text.Split

set_option autoImplicit false

/-! # Paths of schema files and of the modules generated from them

A schema file is known by its logical path: slash separated and without the `.proto` ending. The
module generated from it stands beside it, and modules import each other by specifiers relative to
the importing module's directory. -/

namespace ProtoSchema.ModulePath

/-! ## Logical paths -/

/-- The logical path of a schema file. -/
def logical (fileName : String) : String :=
  (Text.before? ".proto" fileName).getD fileName

/-- The last component of a logical path. -/
def baseName (path : String) : String :=
  (Text.split '/' path).getLastD ""

/-- The directory components of a logical path; empty ones do not count. -/
def directory (path : String) : List String :=
  (Text.split '/' path).dropLast.filter (· ≠ "")

/-- Whether a schema file belongs to a dependency: nothing is generated for those. -/
def isThirdParty (fileName : String) : Bool :=
  Text.startsWith "buf/" fileName || Text.startsWith "google/" fileName

/-! ## Module names and specifiers -/

/-- Ending of the modules that define the enums and message types. -/
def typesEnding : String := ".js"

/-- Ending of the generated schema modules, as import statements see it. -/
def schemaEnding : String := "_zod.js"

/-- The file that holds the module generated from a schema file. -/
def output (path : String) : String :=
  path ++ "_zod.ts"

/-- Drop the components that two directories share at their root. -/
def dropShared : List String → List String → List String × List String
  | a :: as, b :: bs => if a = b then dropShared as bs else (a :: as, b :: bs)
  | as, bs => (as, bs)

/-- The components of a specifier: climb out of what is left of the importing directory, then go
    down to the target. A specifier that does not climb starts at the directory itself. -/
def specifierParts (source target : List String) (file : String) : List String :=
  let rest := dropShared source target
  let down := rest.2 ++ [file]
  if rest.1.isEmpty then "." :: down else List.replicate rest.1.length ".." ++ down

/-- The specifier by which the module of `source` imports the module of `target` with the given
    ending. -/
def specifier (source target ending : String) : String :=
  "/".intercalate
    (specifierParts (directory source) (directory target) (baseName target ++ ending))

end ProtoSchema.ModulePath
