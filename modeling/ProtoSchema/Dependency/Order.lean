import ProtoSchema.Dependency.Cycle

set_option autoImplicit false

/-! # The order of emission

A schema has to be defined before the schemas that refer to it directly. References to recursive
messages are deferred and do not count, so the others can always be put in order: a message is
released when the last message it waits for has been emitted, and messages released together keep
the order of declaration. -/

namespace ProtoSchema

namespace DependencyGraph

/-- The names that have to come before `name`. -/
def blockers (graph : DependencyGraph) (recursive : List RawText) (name : RawText) : List RawText :=
  ((graph.lookup name).getD []).filter fun d => d ≠ name && !recursive.contains d

/-- The names that emitting `name` releases: those that wait, depend on it, and now have all their
    blockers emitted. -/
def released (graph : DependencyGraph) (recursive pending emitted : List RawText) (name : RawText) :
    List RawText :=
  names (graph.filter fun entry => pending.contains entry.1 && entry.2.contains name &&
    (graph.blockers recursive entry.1).all emitted.contains)

/-- Emit the names of the queue one after the other; `pending` are the names not emitted so far.
    The answer continues `emitted`. -/
def schedule (graph : DependencyGraph) (recursive : List RawText) :
    (pending emitted queue : List RawText) → List RawText
  | _, emitted, [] => emitted
  | pending, emitted, name :: queue =>
    if _h : name ∈ pending then
      let pending' := pending.erase name
      let emitted' := emitted ++ [name]
      schedule graph recursive pending' emitted'
        (queue ++ graph.released recursive pending' emitted' name)
    else schedule graph recursive pending emitted queue
termination_by pending _ queue => (pending.length, queue.length)
decreasing_by
  · apply Prod.Lex.left
    have := List.length_pos_of_mem _h
    rw [List.length_erase_of_mem _h]
    omega
  · apply Prod.Lex.right
    simp

/-- The order in which the given names are emitted: first those that wait for nothing. -/
def emissionOrder (graph : DependencyGraph) (recursive names : List RawText) : List RawText :=
  graph.schedule recursive graph.names []
    (names.filter fun name => (graph.blockers recursive name).isEmpty)

end DependencyGraph

/-! ## Messages -/

/-- The messages of a file in the order of emission, and the names that are recursive. -/
structure Arrangement where
  messages : List (Message Field)
  recursive : List RawText

namespace Arrangement

/-- The first message of each name that does not occur in `emitted`. -/
def leftovers : (emitted : List RawText) → List (Message Field) → List (Message Field)
  | _, [] => []
  | emitted, m :: ms =>
    if emitted.contains m.name then leftovers emitted ms
    else m :: leftovers (m.name :: emitted) ms

/-- Arrange messages of the file with the given path. Of several messages with one name the last
    one is emitted. -/
def ofMessages (messages : List (Message Field)) (path : String) : Except Error Arrangement := do
  let graph := DependencyGraph.ofMessages messages path
  let recursive ← graph.recursiveNames
  let order := graph.emissionOrder recursive (messages.map Message.name)
  let emitted := order.filterMap fun name => messages.reverse.find? fun m => m.name = name
  return ⟨emitted ++ leftovers order messages, recursive⟩

end Arrangement

end ProtoSchema
