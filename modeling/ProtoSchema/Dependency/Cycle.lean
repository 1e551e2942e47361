import ProtoSchema.Dependency.Graph
import ProtoSchema.Error

set_option autoImplicit false

/-! # Names on cycles

A name is recursive if its dependencies lead back to it. For each name that is not yet known to be
recursive, a depth-first search looks for a way back; all names on the way it finds are recursive.
The search visits no name twice, and fails if it meets a name that the graph does not know. -/

namespace ProtoSchema.DependencyGraph

/-! ## Searching for a way back -/

/-- A name on the current path of the search, with its dependencies still to be tried. -/
abbrev Frame := RawText × List RawText

/-- How much is left to try on a path. -/
def stackSize : List Frame → Nat
  | [] => 0
  | frame :: stack => frame.2.length + 1 + stackSize stack

/-- Depth-first search for a way to `root`. The stack is the current path, its end first, and
    `unvisited` holds the entries of the names not visited so far. -/
def search (graph : DependencyGraph) (root : RawText) :
    (unvisited : DependencyGraph) → (stack : List Frame) → Except Error (Option (List RawText))
  | _, [] => .ok none
  | unvisited, (_, []) :: stack => search graph root unvisited stack
  | unvisited, (name, d :: deps) :: stack =>
    if d = root then .ok (some (((name, deps) :: stack).map Prod.fst).reverse)
    else match _h : unvisited.lookup d with
      | some next =>
        search graph root (unvisited.without d) ((d, next) :: (name, deps) :: stack)
      | none =>
        if graph.names.contains d then search graph root unvisited ((name, deps) :: stack)
        else .error (.unknownDependency d)
termination_by unvisited stack => (unvisited.length, stackSize stack)
decreasing_by
  · apply Prod.Lex.right
    simp [stackSize]
  · apply Prod.Lex.left
    exact length_without_lt _ _ _ _h
  · apply Prod.Lex.right
    simp [stackSize]

/-- The names on a way from `root` back to `root`, if there is one. -/
def cycleThrough? (graph : DependencyGraph) (root : RawText) :
    Except Error (Option (List RawText)) :=
  match graph.lookup root with
  | none => .error (.unknownDependency root)
  | some deps => graph.search root (graph.without root) [(root, deps)]

/-! ## Recursive names -/

/-- The names that depend on themselves directly. -/
def selfDependent (graph : DependencyGraph) : List RawText :=
  names (graph.filter fun entry => entry.2.contains entry.1)

/-- Add the names on a cycle through `name`, unless `name` is known to be recursive. -/
def addCycle (graph : DependencyGraph) (found : List RawText) (name : RawText) :
    Except Error (List RawText) :=
  if found.contains name then .ok found
  else do
    match ← graph.cycleThrough? name with
    | none => return found
    | some path => return found ++ path.filter (!found.contains ·)

/-- The recursive names of a graph. -/
def recursiveNames (graph : DependencyGraph) : Except Error (List RawText) :=
  graph.names.foldlM graph.addCycle graph.selfDependent

end ProtoSchema.DependencyGraph
