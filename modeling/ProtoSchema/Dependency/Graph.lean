import ProtoSchema.Model.Basic

set_option autoImplicit false

/-! # Which messages refer to which

The dependency graph of some messages of one file: for each name the names it refers to. References
to other files, and to messages that are not among those given, do not count. -/

namespace ProtoSchema

/-- Names with the names each depends on. -/
abbrev DependencyGraph := List (RawText × List RawText)

namespace DependencyGraph

/-- The names that have an entry. -/
def names (graph : DependencyGraph) : List RawText :=
  graph.map Prod.fst

/-- The graph without the entry of one name. -/
def without (graph : DependencyGraph) (name : RawText) : DependencyGraph :=
  graph.filter fun entry => entry.1 ≠ name

/-- Leaving out an entry makes a graph shorter. -/
theorem length_without_lt (graph : DependencyGraph) (name : RawText) (deps : List RawText)
    (h : graph.lookup name = some deps) : (graph.without name).length < graph.length := by
  obtain ⟨front, back, rfl, _⟩ := List.lookup_eq_some_iff.mp h
  have h₁ := List.length_filter_le (fun entry : RawText × List RawText => entry.1 ≠ name) front
  have h₂ := List.length_filter_le (fun entry : RawText × List RawText => entry.1 ≠ name) back
  simp only [without, List.filter_append, List.filter_cons, ne_eq, not_true_eq_false, decide_false,
    List.length_append, List.length_cons] at h₁ h₂ ⊢
  simp only [Bool.false_eq_true, if_false]
  omega

/-- The message among those given that a reference is to, if the file with the given path declares
    it. Messages are told apart by their places. -/
def member? (messages : List (Message Field)) (path : String) (ref : MessageRef) :
    Option (Message Field) :=
  (messages.find? fun m => m.place = ref.place).filter fun m => m.file = path

/-- The names that a message depends on, field by field. -/
def dependencies (messages : List (Message Field)) (path : String) (m : Message Field) :
    List RawText :=
  (m.fields.filterMap fun field => field.type.message?.bind (member? messages path)).map
    Message.name

/-- The names that the messages of one name depend on, each once. -/
def dependenciesOf (messages : List (Message Field)) (path : String) (name : RawText) :
    List RawText :=
  ((messages.filter fun m => m.name = name).flatMap (dependencies messages path)).eraseDups

/-- The dependency graph of the given messages of the file with the given path. Messages of one name
    share an entry; no name is listed twice in it. -/
def ofMessages (messages : List (Message Field)) (path : String) : DependencyGraph :=
  (messages.map Message.name).eraseDups.map fun name =>
    (name, dependenciesOf messages path name)

end DependencyGraph

end ProtoSchema
