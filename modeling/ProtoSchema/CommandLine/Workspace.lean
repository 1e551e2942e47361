import ProtoSchema.CommandLine.Path
import ProtoSchema.Generator

set_option autoImplicit false

/-! # Files and directories

A tree of files and directories with a current directory, as far as reading input files and writing
generated ones depends on it. A path is followed component by component, and every component but the
last has to be a directory. Paths and components must not be too long. -/

namespace ProtoSchema.CommandLine

/-- What stands at a place of the tree. -/
inductive Node where
  | directory
  | file (content : List UInt8)
deriving DecidableEq

/-- A tree of files and directories: the places that are taken, by their components from the root,
    and the current directory. The root is always there. -/
structure Workspace where
  nodes : List (List String × Node)
  current : List String

namespace Workspace

/-! ## Looking -/

/-- The node at a place. -/
def node? (w : Workspace) (place : List String) : Option Node :=
  if place.isEmpty then some .directory else w.nodes.lookup place

/-- Make sure that a place is a directory. -/
def requireDirectory (w : Workspace) (place : List String) : Except FileFault Unit :=
  match w.node? place with
  | some .directory => .ok ()
  | some (.file _) => .error .notDirectory
  | none => .error .notFound

/-- Follow components from a place. Every place that is left again has to be a directory. -/
def walk (w : Workspace) : List String → List String → Except FileFault (List String)
  | place, [] => .ok place
  | place, component :: rest => do
    w.requireDirectory place
    if Path.componentLimit < component.utf8ByteSize then
      .error .nameTooLong
    w.walk (Path.follow place component) rest

/-- The place that a path leads to; the place itself need not be taken. A path that ends in a dot
    leads to a directory. -/
def reach (w : Workspace) (path : String) : Except FileFault (List String) := do
  if Path.lengthLimit ≤ path.utf8ByteSize then
    .error .nameTooLong
  let start := if Path.isAbsolute path then [] else w.current
  let place ← w.walk start (Path.components path)
  if Path.last path = "." then
    w.requireDirectory place
  return place

/-- The place of a file or directory that is to be opened. A path that ends in a slash leads to a
    directory, and the empty path leads nowhere. -/
def locate (w : Workspace) (path : String) : Except FileFault (List String) := do
  if path = "" then
    .error .notFound
  let place ← w.reach path
  if Path.last path = "" then
    w.requireDirectory place
  return place

/-- Do something at a path, and say which path it was if that fails. -/
def attempt {α : Type} (path : String) (action : Except FileFault α) : Except Error α := do
  Path.requireNoNull path
  action.mapError fun fault => .file fault path

/-- Whether there is something at a path. -/
def contains (w : Workspace) (path : String) : Bool :=
  match attempt path (w.locate path) with
  | .ok place => (w.node? place).isSome
  | .error _ => false

/-- The content of the file at a path. -/
def read (w : Workspace) (path : String) : Except Error (List UInt8) :=
  attempt path do
    let place ← w.locate path
    match w.node? place with
    | some (.file content) => return content
    | some .directory => .error .isDirectory
    | none => .error .notFound

/-! ## Changing -/

/-- Put a node at a place, over what stands there. -/
def put (w : Workspace) (place : List String) (node : Node) : Workspace :=
  { w with nodes := (place, node) :: w.nodes.filter fun entry => entry.1 ≠ place }

/-- Make one directory. -/
def makeDirectory (w : Workspace) (path : String) : Except FileFault Workspace := do
  let place ← w.reach path
  match w.node? place with
  | some _ => .error .alreadyThere
  | none => do
    w.requireDirectory place.dropLast
    return w.put place .directory

/-- A tree after a change that may have failed half way. -/
abbrev Changed := Workspace × Option Error

/-- Make one directory; if that fails, nothing changes. -/
def tryDirectory (w : Workspace) (path : String) : Changed :=
  match attempt path (w.makeDirectory path) with
  | .ok w => (w, none)
  | .error e => (w, some e)

/-- Make the first of the given directories, where each is inside the next. The outer ones are made
    first if they are missing; one of those that turns out to be there already is no failure. -/
def makeDirectories (w : Workspace) : List String → Changed
  | [] => (w, none)
  | path :: outer =>
    if outer.head?.all w.contains then w.tryDirectory path
    else match w.makeDirectories outer with
      | (w, none) => if Path.last path = "." then (w, none) else w.tryDirectory path
      | (w, some (.file .alreadyThere _)) =>
        if Path.last path = "." then (w, none) else w.tryDirectory path
      | failed => failed

/-- Write a file into a directory that is there. -/
def writeFile (w : Workspace) (path : String) (content : List UInt8) :
    Except FileFault Workspace := do
  let place ← w.locate path
  match w.node? place with
  | some .directory => .error .isDirectory
  | some (.file _) => return w.put place (.file content)
  | none => do
    w.requireDirectory place.dropLast
    return w.put place (.file content)

/-- Write a file, after the directories that it needs. -/
def write (w : Workspace) (path : String) (content : List UInt8) : Except Error Workspace :=
  let directory := Path.parent path
  let (w, failure) : Changed :=
    if directory = "" || w.contains directory then (w, none)
    else w.makeDirectories (Path.lineage directory)
  match failure with
  | some e => .error e
  | none => attempt path (w.writeFile path content)

/-- Write generated files one after the other. -/
def writeAll (w : Workspace) (outputs : List OutputFile) : Except Error Workspace :=
  outputs.foldlM (fun w output => w.write output.path output.content.toUTF8.data.toList) w

end Workspace

end ProtoSchema.CommandLine
