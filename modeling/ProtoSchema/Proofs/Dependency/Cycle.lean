import Mathlib.Data.List.Chain
import ProtoSchema.Dependency.Cycle
import ProtoSchema.Proofs.Dependency.Path

set_option autoImplicit false

/-! # Recursive names are the names on cycles

The depth-first search keeps one invariant (`Searching`): the stack is a path that starts at the
root, and every edge of a visited name is either still to be tried by a frame of the stack or leads
to another visited name. So a search that ends with an empty stack has closed off the visited names
without coming back to the root, and one that meets the root has a cycle on its stack. The names
found over all roots are therefore exactly the names on cycles (`recursiveNames_exact`). -/

namespace ProtoSchema.DependencyGraph

/-! ## The steps of the search -/

@[simp]
theorem search_nil (graph : DependencyGraph) (root : RawText) (unvisited : DependencyGraph) :
    graph.search root unvisited [] = .ok none := by
  rw [search]

@[simp]
theorem search_exhausted (graph : DependencyGraph) (root : RawText)
    (unvisited : DependencyGraph) (name : RawText) (stack : List Frame) :
    graph.search root unvisited ((name, []) :: stack) = graph.search root unvisited stack := by
  rw [search]

theorem search_try (graph : DependencyGraph) (root : RawText) (unvisited : DependencyGraph)
    (name d : RawText) (deps : List RawText) (stack : List Frame) :
    graph.search root unvisited ((name, d :: deps) :: stack) =
      if d = root then .ok (some (((name, deps) :: stack).map Prod.fst).reverse)
      else match unvisited.lookup d with
        | some next =>
          graph.search root (unvisited.without d) ((d, next) :: (name, deps) :: stack)
        | none =>
          if graph.names.contains d then graph.search root unvisited ((name, deps) :: stack)
          else .error (.unknownDependency d) := by
  rw [search]
  split
  · rfl
  · split <;> simp only [*]

/-! ## Graphs of one or two names -/

/-- A name without other names around it is recursive if it has a dependency at all. -/
theorem recursiveNames_single (name : RawText) (deps : List RawText) (h : ∀ d ∈ deps, d = name) :
    recursiveNames [(name, deps)] = .ok (if deps = [] then [] else [name]) := by
  cases deps with
  | nil =>
    simp [recursiveNames, selfDependent, names, addCycle, cycleThrough?, bind, Except.bind,
      pure, Except.pure]
  | cons d deps =>
    obtain rfl := h d List.mem_cons_self
    simp [recursiveNames, selfDependent, names, addCycle]

/-- Two names of which the first depends on itself and on the second, and the second on nothing. -/
theorem recursiveNames_before_leaf {name leaf : RawText} (h : name ≠ leaf) :
    recursiveNames [(name, [name, leaf]), (leaf, [])] = .ok [name] := by
  simp [recursiveNames, selfDependent, names, addCycle, cycleThrough?, without, List.lookup_cons,
    beq_eq_decide, h, h.symm, bind, Except.bind, pure, Except.pure]

/-- Two names of which the second depends on the first, and the first on nothing. -/
theorem recursiveNames_after_leaf {name leaf : RawText} (h : name ≠ leaf) :
    recursiveNames [(leaf, []), (name, [leaf])] = .ok [] := by
  simp [recursiveNames, selfDependent, names, addCycle, cycleThrough?, search_try, without,
    List.lookup_cons, beq_eq_decide, h, h.symm, bind, Except.bind, pure, Except.pure]

/-! ## The invariant of the search -/

/-- What holds at every step of the search for a way back to `root`. -/
structure Searching (graph : DependencyGraph) (root : RawText) (unvisited : DependencyGraph)
    (stack : List Frame) : Prop where
  /-- Each name on the stack depends on the one that was visited after it. -/
  linked : (stack.map Prod.fst).IsChain fun after before => graph.Edge before after
  /-- The path starts at the root. -/
  start : ∀ name, (stack.map Prod.fst).getLast? = some name → name = root
  /-- What a frame has still to try are dependencies of its name. -/
  offered : ∀ frame ∈ stack, ∀ d ∈ frame.2, graph.Edge frame.1 d
  /-- The path visits no name twice. -/
  simple : (stack.map Prod.fst).Nodup
  visited : ∀ frame ∈ stack, frame.1 ∉ unvisited.names
  root_visited : root ∉ unvisited.names
  sub : unvisited ⊆ graph
  /-- No edge of a visited name is lost. -/
  tried : ∀ name d, graph.Edge name d → name ∉ unvisited.names →
    (∃ frame ∈ stack, frame.1 = name ∧ d ∈ frame.2) ∨ (d ≠ root ∧ d ∉ unvisited.names)

section Steps

variable {graph unvisited : DependencyGraph} {root name d : RawText} {deps : List RawText}
  {stack : List Frame}

/-- A frame with nothing left to try can be dropped. -/
theorem Searching.pop (h : Searching graph root unvisited ((name, []) :: stack)) :
    Searching graph root unvisited stack := by
  refine ⟨h.linked.tail, ?_, ?_, (List.nodup_cons.1 h.simple).2, ?_, h.root_visited, h.sub, ?_⟩
  · intro x hx
    apply h.start x
    rw [List.map_cons, List.getLast?_cons, hx]
    rfl
  · exact fun frame hf => h.offered frame (List.mem_cons_of_mem _ hf)
  · exact fun frame hf => h.visited frame (List.mem_cons_of_mem _ hf)
  · intro x d hedge hx
    rcases h.tried x d hedge hx with ⟨frame, hf, heq, hd⟩ | hdone
    · rcases List.mem_cons.1 hf with rfl | hf
      · simp at hd
      · exact Or.inl ⟨frame, hf, heq, hd⟩
    · exact Or.inr hdone

/-- A dependency that has been visited needs no further step. -/
theorem Searching.pass (h : Searching graph root unvisited ((name, d :: deps) :: stack))
    (hroot : d ≠ root) (hd : d ∉ unvisited.names) :
    Searching graph root unvisited ((name, deps) :: stack) := by
  refine ⟨h.linked, h.start, ?_, h.simple, ?_, h.root_visited, h.sub, ?_⟩
  · intro frame hf e he
    rcases List.mem_cons.1 hf with rfl | hf
    · exact h.offered (name, d :: deps) List.mem_cons_self e (List.mem_cons_of_mem _ he)
    · exact h.offered frame (List.mem_cons_of_mem _ hf) e he
  · intro frame hf
    rcases List.mem_cons.1 hf with rfl | hf
    · exact h.visited (name, d :: deps) List.mem_cons_self
    · exact h.visited frame (List.mem_cons_of_mem _ hf)
  · intro x e hedge hx
    rcases h.tried x e hedge hx with ⟨frame, hf, heq, he⟩ | hdone
    · rcases List.mem_cons.1 hf with rfl | hf
      · rcases List.mem_cons.1 he with rfl | he
        · exact Or.inr ⟨hroot, hd⟩
        · exact Or.inl ⟨(name, deps), List.mem_cons_self, heq, he⟩
      · exact Or.inl ⟨frame, List.mem_cons_of_mem _ hf, heq, he⟩
    · exact Or.inr hdone

/-- Visiting a dependency puts it at the end of the path. -/
theorem Searching.push {next : List RawText} (hnodup : graph.names.Nodup)
    (h : Searching graph root unvisited ((name, d :: deps) :: stack)) (hroot : d ≠ root)
    (hd : unvisited.lookup d = some next) :
    Searching graph root (unvisited.without d) ((d, next) :: (name, deps) :: stack) := by
  have hentry : (d, next) ∈ unvisited := mem_of_lookup hd
  have hunvisited : d ∈ unvisited.names := (mem_names_iff unvisited d).2 ⟨next, hentry⟩
  -- what was visited stays visited, and so does everything the old frames need
  have hstay : ∀ x, x ∉ unvisited.names → x ∉ (unvisited.without d).names := by
    intro x hx hmem
    exact hx ((mem_names_without unvisited d x).1 hmem).1
  have hnew : d ∉ (unvisited.without d).names := by
    intro hmem
    exact ((mem_names_without unvisited d d).1 hmem).2 rfl
  have hfresh : ∀ frame ∈ (name, d :: deps) :: stack, frame.1 ≠ d := by
    intro frame hf heq
    exact h.visited frame hf (heq ▸ hunvisited)
  refine ⟨?_, ?_, ?_, ?_, ?_, hstay root h.root_visited, ?_, ?_⟩
  · exact h.linked.cons_cons (h.offered (name, d :: deps) List.mem_cons_self d List.mem_cons_self)
  · intro x hx
    exact h.start x (by simpa [List.getLast?_cons_cons] using hx)
  · intro frame hf e he
    rcases List.mem_cons.1 hf with rfl | hf
    · exact ⟨next, h.sub hentry, he⟩
    · rcases List.mem_cons.1 hf with rfl | hf
      · exact h.offered (name, d :: deps) List.mem_cons_self e (List.mem_cons_of_mem _ he)
      · exact h.offered frame (List.mem_cons_of_mem _ hf) e he
  · refine List.nodup_cons.2 ⟨?_, h.simple⟩
    intro hmem
    obtain ⟨frame, hf, heq⟩ := List.mem_map.1 (show d ∈ ((name, d :: deps) :: stack).map Prod.fst
      from hmem)
    exact hfresh frame hf heq
  · intro frame hf
    rcases List.mem_cons.1 hf with rfl | hf
    · exact hnew
    · rcases List.mem_cons.1 hf with rfl | hf
      · exact hstay name (h.visited (name, d :: deps) List.mem_cons_self)
      · exact hstay frame.1 (h.visited frame (List.mem_cons_of_mem _ hf))
  · exact fun entry he => h.sub (without_subset unvisited d he)
  · intro x e hedge hx
    by_cases hxd : x = d
    · -- all edges of the new name stand in its frame, because its entry is the only one
      subst hxd
      obtain ⟨deps', hmem, he⟩ := hedge
      rw [eq_of_mem_of_mem hnodup hmem (h.sub hentry)] at he
      exact Or.inl ⟨(x, next), List.mem_cons_self, rfl, he⟩
    · have hx' : x ∉ unvisited.names := fun hmem =>
        hx ((mem_names_without unvisited d x).2 ⟨hmem, hxd⟩)
      rcases h.tried x e hedge hx' with ⟨frame, hf, heq, he⟩ | ⟨hne, hdone⟩
      · rcases List.mem_cons.1 hf with rfl | hf
        · rcases List.mem_cons.1 he with rfl | he
          · exact Or.inr ⟨hroot, hnew⟩
          · exact Or.inl ⟨(name, deps), List.mem_cons_of_mem _ List.mem_cons_self, heq, he⟩
        · exact Or.inl ⟨frame, List.mem_cons_of_mem _ (List.mem_cons_of_mem _ hf), heq, he⟩
      · exact Or.inr ⟨hne, hstay e hdone⟩

/-- The search starts at the root, with all its dependencies to try. -/
theorem Searching.init (hnodup : graph.names.Nodup) (h : graph.lookup root = some deps) :
    Searching graph root (graph.without root) [(root, deps)] := by
  have hentry : (root, deps) ∈ graph := mem_of_lookup h
  have hroot : root ∉ (graph.without root).names := by
    intro hmem
    exact ((mem_names_without graph root root).1 hmem).2 rfl
  refine ⟨by simp, by simp, ?_, by simp, by simpa using hroot, hroot, without_subset graph root, ?_⟩
  · intro frame hf d hd
    rw [List.mem_singleton] at hf
    subst hf
    exact ⟨deps, hentry, hd⟩
  · intro x d hedge hx
    have hxr : x = root := by
      by_contra hne
      exact hx ((mem_names_without graph root x).2 ⟨hedge.mem_names, hne⟩)
    subst hxr
    obtain ⟨deps', hmem, hd⟩ := hedge
    rw [eq_of_mem_of_mem hnodup hmem hentry] at hd
    exact Or.inl ⟨(x, deps), List.mem_singleton_self _, rfl, hd⟩

/-! ## What the search answers -/

/-- If nothing is left to try, the visited names are closed under dependencies and the root is not
    among those that a path from the root reaches. -/
theorem Searching.not_onCycle (h : Searching graph root unvisited []) : ¬ graph.OnCycle root := by
  have hstep : ∀ x d, x ∉ unvisited.names → graph.Edge x d → d ≠ root ∧ d ∉ unvisited.names := by
    intro x d hx hedge
    rcases h.tried x d hedge hx with ⟨frame, hf, _⟩ | hdone
    · simp at hf
    · exact hdone
  have hreach : ∀ x, Relation.TransGen graph.Edge root x → x ≠ root ∧ x ∉ unvisited.names := by
    intro x hx
    induction hx with
    | single hedge => exact hstep root _ h.root_visited hedge
    | tail _ hedge ih => exact hstep _ _ ih.2 hedge
  intro hcycle
  exact (hreach root hcycle).1 rfl

/-- On a chain of edges every name leads to those that were visited after it. -/
theorem transGen_of_isChain {path : List RawText}
    (h : path.IsChain fun after before => graph.Edge before after) :
    path.Pairwise fun after before => Relation.TransGen graph.Edge before after := by
  have htrans : path.IsChain fun after before => Relation.TransGen graph.Edge before after :=
    h.imp fun _ _ hedge => .single hedge
  have : IsTrans RawText fun after before => Relation.TransGen graph.Edge before after :=
    ⟨fun _ _ _ hab hbc => hbc.trans hab⟩
  exact htrans.pairwise

/-- The path starts at the root. -/
theorem Searching.path_eq (h : Searching graph root unvisited ((name, deps) :: stack)) :
    ∃ front, name :: stack.map Prod.fst = front ++ [root] := by
  have hne : name :: stack.map Prod.fst ≠ [] := List.cons_ne_nil _ _
  have hlast : (name :: stack.map Prod.fst).getLast hne = root :=
    h.start _ (List.getLast?_eq_some_getLast hne)
  refine ⟨(name :: stack.map Prod.fst).dropLast, ?_⟩
  rw [← hlast, List.dropLast_append_getLast hne]

/-- If the end of the path depends on the root, the path is a cycle. -/
theorem Searching.onCycle (h : Searching graph root unvisited ((name, root :: deps) :: stack))
    (x : RawText) (hx : x ∈ name :: stack.map Prod.fst) : graph.OnCycle x := by
  have hpairs := transGen_of_isChain h.linked
  have hback : graph.Edge name root :=
    h.offered (name, root :: deps) List.mem_cons_self root List.mem_cons_self
  -- the name leads to the end of the path, the end to the root, and the root to the name
  have hdown : Relation.ReflTransGen graph.Edge x name := by
    rw [List.map_cons, List.pairwise_cons] at hpairs
    rcases List.mem_cons.1 hx with rfl | hx
    · exact .refl
    · exact (hpairs.1 x hx).to_reflTransGen
  have hup : Relation.ReflTransGen graph.Edge root x := by
    obtain ⟨front, hfront⟩ := h.path_eq
    rw [List.map_cons, hfront, List.pairwise_append] at hpairs
    rw [hfront] at hx
    rcases List.mem_append.1 hx with hx | hx
    · exact (hpairs.2.2 x hx root (List.mem_singleton_self _)).to_reflTransGen
    · rw [List.mem_singleton.1 hx]
  exact Relation.TransGen.trans_right hdown (Relation.TransGen.head' hback hup)

end Steps

/-- A failure that names a dependency without an entry. -/
def Dangling (graph : DependencyGraph) (e : Error) : Prop :=
  ∃ d, e = .unknownDependency d ∧ (∃ name, graph.Edge name d) ∧ d ∉ graph.names

/-- What an answer of the search for a way back to `root` has to say. -/
def Answers (graph : DependencyGraph) (root : RawText) :
    Except Error (Option (List RawText)) → Prop
  | .ok none => ¬ graph.OnCycle root
  | .ok (some path) => root ∈ path ∧ path.Nodup ∧ ∀ name ∈ path, graph.OnCycle name
  | .error e => graph.Dangling e

/-- Every run of the search answers rightly. -/
theorem search_answers (graph : DependencyGraph) (hnodup : graph.names.Nodup) (root : RawText)
    (unvisited : DependencyGraph) (stack : List Frame)
    (h : Searching graph root unvisited stack) :
    graph.Answers root (graph.search root unvisited stack) := by
  -- the invariant is kept by every step, and each way to end can be read off it
  fun_induction search graph root unvisited stack with
  | case1 unvisited => exact h.not_onCycle
  | case2 unvisited name stack ih => exact ih h.pop
  | case3 unvisited name deps stack =>
    refine ⟨?_, ?_, ?_⟩
    · obtain ⟨front, hfront⟩ := h.path_eq
      rw [List.mem_reverse, List.map_cons, hfront]
      simp
    · exact List.nodup_reverse.2 h.simple
    · intro x hx
      exact h.onCycle x (List.mem_reverse.1 hx)
  | case4 unvisited name d deps stack hroot next hd ih => exact ih (h.push hnodup hroot hd)
  | case5 unvisited name d deps stack hroot hd hknown ih =>
    exact ih (h.pass hroot ((lookup_eq_none_iff unvisited d).1 hd))
  | case6 unvisited name d deps stack hroot hd hknown =>
    refine ⟨d, rfl, ⟨name, ?_⟩, by simpa using hknown⟩
    exact h.offered (name, d :: deps) List.mem_cons_self d List.mem_cons_self

theorem cycleThrough?_answers (graph : DependencyGraph) (hnodup : graph.names.Nodup)
    (root : RawText) (hroot : root ∈ graph.names) :
    graph.Answers root (graph.cycleThrough? root) := by
  unfold cycleThrough?
  split
  · next h => exact absurd hroot ((lookup_eq_none_iff graph root).1 h)
  · next deps h => exact search_answers graph hnodup root _ _ (Searching.init hnodup h)

/-! ## Collecting the cycles -/

/-- The names found so far are on cycles, and no cycle through a name of `seen` is missing. -/
structure Collected (graph : DependencyGraph) (seen found : List RawText) : Prop where
  sound : ∀ name ∈ found, graph.OnCycle name
  complete : ∀ name ∈ seen, graph.OnCycle name → name ∈ found
  nodup : found.Nodup

theorem Collected.selfDependent (graph : DependencyGraph) (hnodup : graph.names.Nodup) :
    Collected graph [] graph.selfDependent := by
  refine ⟨?_, by simp, ?_⟩
  · intro name hname
    obtain ⟨deps, hmem⟩ := (mem_names_iff _ name).1 hname
    rw [List.mem_filter] at hmem
    exact .single ⟨deps, hmem.1, by simpa using hmem.2⟩
  · exact hnodup.sublist (List.filter_sublist.map Prod.fst)

/-- One root more: what its search finds is added, and nothing else. -/
theorem addCycle_collected (graph : DependencyGraph) (hnodup : graph.names.Nodup)
    (seen found : List RawText) (name : RawText) (hname : name ∈ graph.names)
    (h : Collected graph seen found) :
    match graph.addCycle found name with
    | .ok found' => Collected graph (name :: seen) found'
    | .error e => graph.Dangling e := by
  unfold addCycle
  -- a name found through another root needs no search of its own
  by_cases hfound : found.contains name = true
  · rw [if_pos hfound]
    refine ⟨h.sound, ?_, h.nodup⟩
    intro x hx hcycle
    rcases List.mem_cons.1 hx with rfl | hx
    · exact List.contains_iff_mem.1 hfound
    · exact h.complete x hx hcycle
  rw [if_neg hfound]
  have hans := cycleThrough?_answers graph hnodup name hname
  cases hc : graph.cycleThrough? name with
  | error e =>
    rw [hc] at hans
    exact hans
  | ok answer =>
    rw [hc] at hans
    cases answer with
    | none =>
      refine ⟨h.sound, ?_, h.nodup⟩
      intro x hx hcycle
      rcases List.mem_cons.1 hx with rfl | hx
      · exact absurd hcycle hans
      · exact h.complete x hx hcycle
    | some path =>
      obtain ⟨hroot, hpath, hcycles⟩ := hans
      refine ⟨?_, ?_, ?_⟩
      · intro x hx
        rcases List.mem_append.1 hx with hx | hx
        · exact h.sound x hx
        · exact hcycles x (List.mem_of_mem_filter hx)
      · intro x hx hcycle
        rcases List.mem_cons.1 hx with rfl | hx
        · refine List.mem_append_right _ (List.mem_filter.2 ⟨hroot, ?_⟩)
          simpa using hfound
        · exact List.mem_append_left _ (h.complete x hx hcycle)
      · refine h.nodup.append (hpath.filter _) ?_
        intro x hx hx'
        have hnot := (List.mem_filter.1 hx').2
        simp [hx] at hnot

/-- Going through the remaining roots keeps the names found exact, up to the first failure. -/
theorem foldlM_addCycle_collected (graph : DependencyGraph) (hnodup : graph.names.Nodup)
    (rest seen found : List RawText) (hrest : rest ⊆ graph.names)
    (h : Collected graph seen found) :
    match rest.foldlM graph.addCycle found with
    | .ok found' => Collected graph (rest.reverse ++ seen) found'
    | .error e => graph.Dangling e := by
  induction rest generalizing seen found with
  | nil => exact h
  | cons name rest ih =>
    have hstep := addCycle_collected graph hnodup seen found name
      (hrest List.mem_cons_self) h
    rw [List.foldlM_cons]
    cases hadd : graph.addCycle found name with
    | error e =>
      rw [hadd] at hstep
      exact hstep
    | ok found' =>
      rw [hadd] at hstep
      have hgoal := ih (name :: seen) found' (List.subset_of_cons_subset hrest) hstep
      rw [List.reverse_cons, List.append_assoc]
      exact hgoal

/-- The answer for a whole graph: the names on cycles, or a dependency without an entry. -/
theorem recursiveNames_collected (graph : DependencyGraph) (hnodup : graph.names.Nodup) :
    match graph.recursiveNames with
    | .ok found => Collected graph graph.names.reverse found
    | .error e => graph.Dangling e := by
  have h := foldlM_addCycle_collected graph hnodup graph.names [] graph.selfDependent
    (List.Subset.refl _) (Collected.selfDependent graph hnodup)
  rw [List.append_nil] at h
  exact h

/-- The recursive names are the names on cycles. -/
theorem mem_recursiveNames_iff {graph : DependencyGraph} (hnodup : graph.names.Nodup)
    {found : List RawText} (h : graph.recursiveNames = .ok found) (name : RawText) :
    name ∈ found ↔ graph.OnCycle name := by
  have hall := recursiveNames_collected graph hnodup
  rw [h] at hall
  refine ⟨hall.sound name, fun hcycle => hall.complete name ?_ hcycle⟩
  rw [List.mem_reverse]
  exact hcycle.mem_names

/-- If every dependency has an entry, the recursive names can be told. -/
theorem recursiveNames_of_closed {graph : DependencyGraph} (hnodup : graph.names.Nodup)
    (hclosed : graph.Closed) : ∃ found, graph.recursiveNames = .ok found := by
  have hall := recursiveNames_collected graph hnodup
  cases h : graph.recursiveNames with
  | ok found => exact ⟨found, rfl⟩
  | error e =>
    rw [h] at hall
    obtain ⟨d, _, ⟨name, hedge⟩, hmissing⟩ := hall
    exact absurd (hclosed name d hedge) hmissing

/-- **Recursive names are exactly the names on cycles.** Whenever the search comes to an end, it has
    found the names with a path of at least one edge back to themselves, each once. It always comes
    to an end if every dependency has an entry, and it fails only at a dependency without one. -/
theorem recursiveNames_exact (graph : DependencyGraph) (hnodup : graph.names.Nodup) :
    (∀ found, graph.recursiveNames = .ok found →
      found.Nodup ∧ ∀ name, name ∈ found ↔ name ∈ graph.names ∧ graph.OnCycle name) ∧
    ((∀ name dep, graph.Edge name dep → dep ∈ graph.names) →
      ∃ found, graph.recursiveNames = .ok found) ∧
    (∀ e, graph.recursiveNames = .error e →
      ∃ dep, e = .unknownDependency dep ∧ (∃ name, graph.Edge name dep) ∧ dep ∉ graph.names) := by
  have hall := recursiveNames_collected graph hnodup
  refine ⟨?_, recursiveNames_of_closed hnodup, ?_⟩
  · intro found h
    have hmem := mem_recursiveNames_iff hnodup h
    rw [h] at hall
    refine ⟨hall.nodup, fun name => ⟨fun hname => ?_, fun hcycle => (hmem name).2 hcycle.2⟩⟩
    have hcycle := (hmem name).1 hname
    exact ⟨hcycle.mem_names, hcycle⟩
  · intro e h
    rw [h] at hall
    exact hall

/-- A name between two cycles is on neither. -/
theorem recursiveNames_between_cycles :
    let graph : DependencyGraph :=
      [("A", ["A", "M"]), ("M", ["B", "B"]), ("B", ["C"]), ("C", ["B"])]
    graph.names.Nodup ∧ graph.recursiveNames = .ok ["A", "B", "C"] ∧
      graph.OnCycle "C" ∧ ¬ graph.OnCycle "M" := by
  intro graph
  have hnodup : graph.names.Nodup := by decide
  have hfound : graph.recursiveNames = .ok ["A", "B", "C"] := by
    simp [graph, recursiveNames, selfDependent, names, addCycle, cycleThrough?, search_try, without,
      List.lookup_cons, beq_eq_decide, bind, Except.bind, pure, Except.pure]
  obtain ⟨_, hmem⟩ := (recursiveNames_exact graph hnodup).1 _ hfound
  refine ⟨hnodup, hfound, ((hmem "C").1 (by decide)).2, fun hcycle => ?_⟩
  exact absurd ((hmem "M").2 ⟨hcycle.mem_names, hcycle⟩) (by decide)

end ProtoSchema.DependencyGraph
