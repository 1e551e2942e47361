import Mathlib.Data.List.Nodup
import Mathlib.Logic.Relation
import ProtoSchema.Dependency.Graph

set_option autoImplicit false

/-! # Paths in a dependency graph

The specification side of the dependency analysis: edges, closed graphs and names on cycles are
described by the entries of the graph alone, without any search. A graph in which every dependency
has an entry is *closed*; the graphs of messages are (`ofMessages_closed`). -/

namespace ProtoSchema

/-! ## Dropping repetitions -/

theorem nodup_eraseDups {α : Type} [BEq α] [LawfulBEq α] (l : List α) : l.eraseDups.Nodup := by
  match l with
  | [] => simp
  | a :: as =>
    rw [List.eraseDups_cons, List.nodup_cons]
    refine ⟨by simp [List.mem_eraseDups], nodup_eraseDups _⟩
termination_by l.length
decreasing_by
  have := List.length_filter_le (fun b => !b == a) as
  simp only [List.length_cons]
  omega

theorem eraseDups_of_nodup {α : Type} [BEq α] [LawfulBEq α] {l : List α} (h : l.Nodup) :
    l.eraseDups = l := by
  induction l with
  | nil => rfl
  | cons a as ih =>
    rw [List.nodup_cons] at h
    have hkeep : as.filter (fun b => !b == a) = as := by
      rw [List.filter_eq_self]
      intro b hb
      have hne : b ≠ a := fun heq => h.1 (heq ▸ hb)
      simpa using hne
    rw [List.eraseDups_cons, hkeep, ih h.2]

namespace DependencyGraph

/-! ## Edges and cycles -/

/-- The entry of `name` lists `dep`. -/
def Edge (graph : DependencyGraph) (name dep : RawText) : Prop :=
  ∃ deps, (name, deps) ∈ graph ∧ dep ∈ deps

/-- A path of at least one edge leads from `name` back to it. -/
def OnCycle (graph : DependencyGraph) (name : RawText) : Prop :=
  Relation.TransGen graph.Edge name name

/-- Every dependency has an entry of its own. -/
def Closed (graph : DependencyGraph) : Prop :=
  ∀ name dep, graph.Edge name dep → dep ∈ graph.names

theorem mem_names_iff (graph : DependencyGraph) (name : RawText) :
    name ∈ graph.names ↔ ∃ deps, (name, deps) ∈ graph := by
  simp [names]

theorem Edge.mem_names {graph : DependencyGraph} {name dep : RawText} (h : graph.Edge name dep) :
    name ∈ graph.names := by
  obtain ⟨deps, hmem, _⟩ := h
  exact (mem_names_iff graph name).2 ⟨deps, hmem⟩

/-- A name on a cycle has an entry. -/
theorem OnCycle.mem_names {graph : DependencyGraph} {name : RawText} (h : graph.OnCycle name) :
    name ∈ graph.names := by
  obtain ⟨_, hedge, _⟩ := Relation.TransGen.head'_iff.1 h
  exact hedge.mem_names

/-! ## Entries -/

/-- In a graph of distinct names a name has only one entry. -/
theorem eq_of_mem_of_mem {graph : DependencyGraph} (hnodup : graph.names.Nodup) {name : RawText}
    {deps deps' : List RawText} (h : (name, deps) ∈ graph) (h' : (name, deps') ∈ graph) :
    deps = deps' := by
  have heq := List.inj_on_of_nodup_map hnodup h h' rfl
  exact congrArg Prod.snd heq

theorem mem_of_lookup {graph : DependencyGraph} {name : RawText} {deps : List RawText}
    (h : graph.lookup name = some deps) : (name, deps) ∈ graph := by
  obtain ⟨front, back, rfl, _⟩ := List.lookup_eq_some_iff.1 h
  simp

theorem lookup_eq_none_iff (graph : DependencyGraph) (name : RawText) :
    graph.lookup name = none ↔ name ∉ graph.names := by
  rw [List.lookup_eq_none_iff, mem_names_iff]
  constructor
  · rintro h ⟨deps, hmem⟩
    have := h _ hmem
    simp at this
  · rintro h ⟨name', deps⟩ hmem
    have hne : name ≠ name' := fun heq => h ⟨deps, heq ▸ hmem⟩
    simpa using hne

/-- The entry found for a name lists exactly the ends of its edges. -/
theorem mem_lookup_iff_edge {graph : DependencyGraph} (hnodup : graph.names.Nodup)
    (name dep : RawText) : dep ∈ (graph.lookup name).getD [] ↔ graph.Edge name dep := by
  constructor
  · intro h
    cases hl : graph.lookup name with
    | none => simp [hl] at h
    | some deps => exact ⟨deps, mem_of_lookup hl, by simpa [hl] using h⟩
  · rintro ⟨deps, hmem, hdep⟩
    cases hl : graph.lookup name with
    | none =>
      have hnot := (lookup_eq_none_iff graph name).1 hl
      exact absurd ((mem_names_iff graph name).2 ⟨deps, hmem⟩) hnot
    | some deps' =>
      rw [eq_of_mem_of_mem hnodup hmem (mem_of_lookup hl)] at hdep
      simpa using hdep

/-! ## Leaving out an entry -/

theorem without_subset (graph : DependencyGraph) (name : RawText) :
    graph.without name ⊆ graph :=
  List.filter_subset_self graph

theorem mem_names_without (graph : DependencyGraph) (name x : RawText) :
    x ∈ (graph.without name).names ↔ x ∈ graph.names ∧ x ≠ name := by
  simp only [mem_names_iff, without, List.mem_filter, decide_eq_true_eq]
  constructor
  · rintro ⟨deps, hmem, hne⟩
    exact ⟨⟨deps, hmem⟩, hne⟩
  · rintro ⟨⟨deps, hmem⟩, hne⟩
    exact ⟨deps, hmem, hne⟩

/-! ## The graph of messages -/

/-- The entries of the graph are the names of the messages, each once. -/
theorem names_ofMessages (messages : List (Message Field)) (path : String) :
    (ofMessages messages path).names = (messages.map Message.name).eraseDups := by
  simp [names, ofMessages, Function.comp_def]

/-- An entry lists the names of the members that the messages of its name refer to. -/
theorem edge_ofMessages_iff (messages : List (Message Field)) (path : String)
    (name dep : RawText) :
    (ofMessages messages path).Edge name dep ↔
      ∃ m ∈ messages, m.name = name ∧ ∃ field ∈ m.fields, ∃ ref,
        field.type.message? = some ref ∧
          ∃ t, member? messages path ref = some t ∧ t.name = dep := by
  simp only [Edge, ofMessages, List.mem_map, List.mem_eraseDups, Prod.mk.injEq]
  constructor
  · rintro ⟨deps, ⟨_, _, rfl, rfl⟩, hdep⟩
    simp only [dependenciesOf, List.mem_eraseDups, List.mem_flatMap, List.mem_filter,
      decide_eq_true_eq, dependencies, List.mem_map, List.mem_filterMap,
      Option.bind_eq_some_iff] at hdep
    obtain ⟨m, ⟨hm, hname⟩, t, ⟨field, hfield, ref, href, ht⟩, htname⟩ := hdep
    exact ⟨m, hm, hname, field, hfield, ref, href, t, ht, htname⟩
  · rintro ⟨m, hm, rfl, field, hfield, ref, href, t, ht, rfl⟩
    refine ⟨_, ⟨m.name, ⟨m, hm, rfl⟩, rfl, rfl⟩, ?_⟩
    simp only [dependenciesOf, List.mem_eraseDups, List.mem_flatMap, List.mem_filter,
      decide_eq_true_eq, dependencies, List.mem_map, List.mem_filterMap,
      Option.bind_eq_some_iff]
    exact ⟨m, ⟨hm, rfl⟩, t, ⟨field, hfield, ref, href, ht⟩, rfl⟩

theorem mem_of_member? {messages : List (Message Field)} {path : String} {ref : MessageRef}
    {t : Message Field} (h : member? messages path ref = some t) :
    t ∈ messages ∧ t.place = ref.place ∧ t.file = path := by
  simp only [member?, Option.filter_eq_some_iff, decide_eq_true_eq] at h
  exact ⟨List.mem_of_find?_eq_some h.1, by simpa using List.find?_some h.1, h.2⟩

/-- References count only if they are to one of the messages, so every dependency has an entry. -/
theorem ofMessages_closed (messages : List (Message Field)) (path : String) :
    (ofMessages messages path).Closed := by
  intro name dep h
  obtain ⟨_, _, _, _, _, _, _, t, ht, rfl⟩ := (edge_ofMessages_iff messages path name dep).1 h
  rw [names_ofMessages, List.mem_eraseDups]
  exact List.mem_map_of_mem (mem_of_member? ht).1

theorem nodup_names_ofMessages (messages : List (Message Field)) (path : String) :
    (ofMessages messages path).names.Nodup := by
  rw [names_ofMessages]
  exact nodup_eraseDups _

end DependencyGraph

end ProtoSchema
