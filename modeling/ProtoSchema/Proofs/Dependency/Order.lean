import Mathlib.Data.Fintype.Card
import Mathlib.Data.Set.Finite.Basic
import ProtoSchema.Dependency.Order
import ProtoSchema.Proofs.Dependency.Cycle
import ProtoSchema.Proofs.Dependency.Release
import ProtoSchema.Proofs.Outcome

set_option autoImplicit false

/-! # The emission order is in release order

Emission keeps a queue that may hold a name several times. What counts is `waiting`: the names of
the queue that are still pending, each at its first place. The names emitted so far followed by the
waiting ones are sorted by release (`Scheduling.sorted`), a name joins the waiting ones exactly when
its last blocker is emitted, and since every cycle consists of recursive names, which block nothing,
emission never gets stuck (`pending_eq_nil`). -/

namespace ProtoSchema

namespace DependencyGraph

/-! ## The steps of the emission -/

@[simp]
theorem schedule_nil (graph : DependencyGraph) (recursive pending emitted : List RawText) :
    graph.schedule recursive pending emitted [] = emitted := by
  rw [schedule]

theorem schedule_cons (graph : DependencyGraph) (recursive pending emitted queue : List RawText)
    (name : RawText) :
    graph.schedule recursive pending emitted (name :: queue) =
      if name ∈ pending then
        graph.schedule recursive (pending.erase name) (emitted ++ [name])
          (queue ++ graph.released recursive (pending.erase name) (emitted ++ [name]) name)
      else graph.schedule recursive pending emitted queue := by
  rw [schedule]
  rfl

/-- A name that waits for one declared after it is emitted after it. -/
theorem emissionOrder_before_leaf {name leaf : RawText} (h : name ≠ leaf) :
    emissionOrder [(name, [name, leaf]), (leaf, [])] [name] [name, leaf] = [leaf, name] := by
  simp [emissionOrder, schedule_cons, released, blockers, names, List.lookup_cons, beq_eq_decide,
    h, h.symm]

/-- A name that is declared twice is emitted once. -/
theorem emissionOrder_after_leaf {name leaf : RawText} (h : name ≠ leaf) :
    emissionOrder [(leaf, []), (name, [leaf])] [] [leaf, leaf, name] = [leaf, name] := by
  simp [emissionOrder, schedule_cons, released, blockers, names, List.lookup_cons, beq_eq_decide,
    h, h.symm]

/-! ## Blockers -/

section Blockers

variable {graph : DependencyGraph} {recursive : List RawText}

theorem mem_blockers_iff (hnodup : graph.names.Nodup) (name b : RawText) :
    b ∈ graph.blockers recursive name ↔ graph.Edge name b ∧ b ≠ name ∧ b ∉ recursive := by
  rw [blockers, List.mem_filter, mem_lookup_iff_edge hnodup]
  simp

theorem notMem_blockers_self (name : RawText) : name ∉ graph.blockers recursive name := by
  simp [blockers]

theorem blockers_subset_names (hnodup : graph.names.Nodup) (hclosed : graph.Closed)
    (name : RawText) : graph.blockers recursive name ⊆ graph.names := by
  intro b hb
  exact hclosed name b ((mem_blockers_iff hnodup name b).1 hb).1

end Blockers

/-- Names off all cycles cannot wait for each other without end: if each of some names has an edge
    to one of them that is on no cycle, there are none. -/
theorem eq_nil_of_edges (graph : DependencyGraph) (pending : List RawText)
    (h : ∀ a ∈ pending, ∃ b ∈ pending, graph.Edge a b ∧ ¬ graph.OnCycle b) : pending = [] := by
  -- on the names off cycles, "leads to" is a strict order of a finite set
  let Plain := { a // a ∈ pending ∧ ¬ graph.OnCycle a }
  have : Finite Plain := (pending.finite_toSet.subset fun a ha => ha.1 :
    { a | a ∈ pending ∧ ¬ graph.OnCycle a }.Finite).to_subtype
  let leadsTo : Plain → Plain → Prop := fun b a => Relation.TransGen graph.Edge a.1 b.1
  have : IsTrans Plain leadsTo := ⟨fun _ _ _ hab hbc => hbc.trans hab⟩
  have : Std.Irrefl leadsTo := ⟨fun a hcycle => a.2.2 hcycle⟩
  have hwf : WellFounded leadsTo := Finite.wellFounded_of_trans_of_irrefl leadsTo
  have hplain : ∀ a : Plain, False := by
    intro a
    induction a using hwf.induction with
    | _ a ih =>
      obtain ⟨b, hb, hedge, hcycle⟩ := h a.1 a.2.1
      exact ih ⟨b, hb, hcycle⟩ (.single hedge)
  rw [List.eq_nil_iff_forall_not_mem]
  intro a ha
  obtain ⟨b, hb, _, hcycle⟩ := h a ha
  exact hplain ⟨b, hb, hcycle⟩

/-! ## Waiting names -/

/-- The names of the queue that are still pending, each at its first place. -/
def waiting (pending queue : List RawText) : List RawText :=
  (queue.filter pending.contains).eraseDups

theorem mem_waiting_iff (pending queue : List RawText) (x : RawText) :
    x ∈ waiting pending queue ↔ x ∈ queue ∧ x ∈ pending := by
  simp [waiting, List.mem_eraseDups]

theorem waiting_cons_of_notMem {pending : List RawText} {name : RawText} (queue : List RawText)
    (h : name ∉ pending) : waiting pending (name :: queue) = waiting pending queue := by
  simp [waiting, h]

/-- The head of the queue, if it is pending, is the first of the waiting names; when it is gone, so
    are its repetitions. -/
theorem waiting_cons_of_mem {pending : List RawText} {name : RawText} (queue : List RawText)
    (hnodup : pending.Nodup) (h : name ∈ pending) :
    waiting pending (name :: queue) = name :: waiting (pending.erase name) queue := by
  have hhead : (name :: queue).filter pending.contains = name :: queue.filter pending.contains :=
    List.filter_cons_of_pos (by simpa using h)
  have htail : (queue.filter pending.contains).filter (fun x => !x == name) =
      queue.filter (pending.erase name).contains := by
    rw [List.filter_filter]
    apply List.filter_congr
    intro x _
    rw [Bool.eq_iff_iff]
    simp [hnodup.mem_erase_iff]
  rw [waiting, hhead, List.eraseDups_cons, htail, waiting]

/-- Names put at the end of the queue come behind the waiting ones, except for those that are
    waiting already. -/
theorem waiting_append (pending queue : List RawText) {extra : List RawText}
    (hnodup : extra.Nodup) :
    ∃ fresh, waiting pending (queue ++ extra) = waiting pending queue ++ fresh ∧
      fresh.Sublist extra ∧ ∀ x ∈ fresh, x ∈ pending ∧ x ∉ queue := by
  have hfilter : ((extra.filter pending.contains).removeAll
      (queue.filter pending.contains)).Sublist extra :=
    List.filter_sublist.trans List.filter_sublist
  refine ⟨_, ?_, hfilter, ?_⟩
  · rw [waiting, List.filter_append, List.eraseDups_append,
      eraseDups_of_nodup (hnodup.sublist hfilter), waiting]
  · intro x hx
    simp only [List.removeAll, List.mem_filter, Bool.not_eq_true', List.elem_eq_mem,
      decide_eq_true_eq, decide_eq_false_iff_not] at hx
    exact ⟨hx.1.2, fun hqueue => hx.2 ⟨hqueue, hx.1.2⟩⟩

/-! ## The invariant of the emission -/

/-- What holds whenever the queue is looked at. -/
structure Scheduling (graph : DependencyGraph) (recursive pending emitted queue : List RawText) :
    Prop where
  /-- Every name is either emitted or pending. -/
  split : (emitted ++ pending).Perm graph.names
  /-- Names are emitted after their blockers. -/
  emitted_ready : ∀ x ∈ emitted, graph.blockers recursive x ⊆ emitted
  queue_ready : ∀ x ∈ queue, graph.blockers recursive x ⊆ emitted
  /-- A pending name that nothing blocks any more is not forgotten. -/
  queued : ∀ x ∈ pending, graph.blockers recursive x ⊆ emitted → x ∈ queue
  /-- The emitted and the waiting names are sorted by release. -/
  sorted : (emitted ++ waiting pending queue).Pairwise
    (ReleasedBefore (graph.blockers recursive) graph.names emitted)

section Steps

variable {graph : DependencyGraph} {recursive pending emitted queue : List RawText}
  {name : RawText}

/-- The names of a sublist of the declared ones stand in the order of declaration. -/
theorem pairwise_idxOf_lt {declared l : List RawText} (hnodup : declared.Nodup)
    (h : l.Sublist declared) : l.Pairwise fun a b => declared.idxOf a < declared.idxOf b := by
  apply List.Pairwise.sublist h
  rw [List.pairwise_iff_getElem]
  intro i j hi hj hij
  rwa [hnodup.idxOf_getElem, hnodup.idxOf_getElem]

/-- At the start the names that wait for nothing are queued in the order of declaration. -/
theorem Scheduling.init (hnodup : graph.names.Nodup) :
    Scheduling graph recursive graph.names []
      (graph.names.filter fun name => (graph.blockers recursive name).isEmpty) := by
  have hready : ∀ x ∈ graph.names.filter (fun name => (graph.blockers recursive name).isEmpty),
      graph.blockers recursive x = [] := by
    intro x hx
    exact List.isEmpty_iff.1 (List.mem_filter.1 hx).2
  refine ⟨by simp, by simp, ?_, ?_, ?_⟩
  · intro x hx
    simp [hready x hx]
  · intro x hx hblockers
    exact List.mem_filter.2 ⟨hx, List.isEmpty_iff.2 (List.subset_nil.1 hblockers)⟩
  · have hwaiting : (waiting graph.names
        (graph.names.filter fun name => (graph.blockers recursive name).isEmpty)).Sublist
        (graph.names.filter fun name => (graph.blockers recursive name).isEmpty) := by
      rw [waiting, eraseDups_of_nodup ((hnodup.filter _).filter _)]
      exact List.filter_sublist
    have hpairs := pairwise_idxOf_lt hnodup (hwaiting.trans List.filter_sublist)
    rw [List.nil_append]
    refine hpairs.imp_of_mem ?_
    intro a b ha hb hlt
    refine Or.inr ⟨?_, hlt⟩
    rw [releaseTime, releaseTime, hready a (hwaiting.subset ha), hready b (hwaiting.subset hb)]

/-- A name that is not pending any more can be passed over. -/
theorem Scheduling.skip (h : Scheduling graph recursive pending emitted (name :: queue))
    (hname : name ∉ pending) : Scheduling graph recursive pending emitted queue := by
  refine ⟨h.split, h.emitted_ready, ?_, ?_, ?_⟩
  · exact fun x hx => h.queue_ready x (List.mem_cons_of_mem _ hx)
  · intro x hx hblockers
    rcases List.mem_cons.1 (h.queued x hx hblockers) with rfl | hmem
    · exact absurd hx hname
    · exact hmem
  · rw [← waiting_cons_of_notMem queue hname]
    exact h.sorted

theorem mem_released_iff (x : RawText) :
    x ∈ graph.released recursive pending emitted name ↔
      x ∈ pending ∧ graph.Edge x name ∧ graph.blockers recursive x ⊆ emitted := by
  simp only [released, mem_names_iff, List.mem_filter, Bool.and_eq_true, List.contains_iff_mem,
    List.all_eq_true]
  constructor
  · rintro ⟨deps, hmem, ⟨hpending, hdep⟩, hblockers⟩
    exact ⟨hpending, ⟨deps, hmem, hdep⟩, hblockers⟩
  · rintro ⟨hpending, ⟨deps, hmem, hdep⟩, hblockers⟩
    exact ⟨deps, hmem, ⟨hpending, hdep⟩, hblockers⟩

theorem released_sublist (graph : DependencyGraph) (recursive pending emitted : List RawText)
    (name : RawText) : (graph.released recursive pending emitted name).Sublist graph.names :=
  List.filter_sublist.map Prod.fst

/-- A name whose last blocker has just been emitted is released at that point. -/
theorem releaseTime_of_last {x : RawText} (hname : name ∉ emitted)
    (hblocker : name ∈ graph.blockers recursive x)
    (hblockers : graph.blockers recursive x ⊆ emitted ++ [name]) :
    releaseTime (graph.blockers recursive) (emitted ++ [name]) x = emitted.length + 1 := by
  have hle := releaseTime_le_length hblockers []
  have hlt := lt_releaseTime_of_mem (emitted ++ [name]) hblocker
  rw [List.append_nil, List.length_append, List.length_singleton] at hle
  rw [List.idxOf_append_of_notMem hname, List.idxOf_cons_self] at hlt
  omega

/-- If only the newly emitted name has completed the blockers of `x`, it is one of them. -/
theorem last_blocker {x : RawText} (hafter : graph.blockers recursive x ⊆ emitted ++ [name])
    (hbefore : ¬ graph.blockers recursive x ⊆ emitted) : name ∈ graph.blockers recursive x := by
  by_contra hnot
  apply hbefore
  intro b hb
  rcases List.mem_append.1 (hafter hb) with hmem | hmem
  · exact hmem
  · rw [List.mem_singleton.1 hmem] at hb
    exact absurd hb hnot

/-- Names released by the newly emitted one come behind all names that were known to be ready. -/
theorem pairwise_append_fresh {known fresh : List RawText} (hnodup : graph.names.Nodup)
    (hsorted : known.Pairwise
      (ReleasedBefore (graph.blockers recursive) graph.names emitted))
    (hknown : ∀ x ∈ known, graph.blockers recursive x ⊆ emitted)
    (hsub : fresh.Sublist graph.names)
    (hfresh : ∀ x ∈ fresh,
      releaseTime (graph.blockers recursive) (emitted ++ [name]) x = emitted.length + 1) :
    (known ++ fresh).Pairwise
      (ReleasedBefore (graph.blockers recursive) graph.names (emitted ++ [name])) := by
  rw [List.pairwise_append]
  refine ⟨?_, ?_, ?_⟩
  · refine hsorted.imp_of_mem ?_
    intro a b ha hb hbefore
    exact (releasedBefore_append_iff [name] (hknown a ha) (hknown b hb)).2 hbefore
  · refine (pairwise_idxOf_lt hnodup hsub).imp_of_mem ?_
    intro a b ha hb hlt
    exact Or.inr ⟨by rw [hfresh a ha, hfresh b hb], hlt⟩
  · intro a ha b hb
    have hle := releaseTime_le_length (hknown a ha) [name]
    rw [ReleasedBefore, hfresh b hb]
    exact Or.inl (by omega)

/-- Emitting the head of the queue: the waiting names keep their places, and behind them come the
    names for which the emitted one was the last blocker. -/
theorem Scheduling.emit (hnodup : graph.names.Nodup)
    (h : Scheduling graph recursive pending emitted (name :: queue)) (hname : name ∈ pending) :
    Scheduling graph recursive (pending.erase name) (emitted ++ [name])
      (queue ++ graph.released recursive (pending.erase name) (emitted ++ [name]) name) := by
  have hall : (emitted ++ pending).Nodup := h.split.nodup_iff.2 hnodup
  obtain ⟨_, hpending, hdisjoint⟩ := List.nodup_append.1 hall
  have hemitted : name ∉ emitted := fun hmem => hdisjoint name hmem name hname rfl
  have hgrow : ∀ x, graph.blockers recursive x ⊆ emitted →
      graph.blockers recursive x ⊆ emitted ++ [name] :=
    fun x hx b hb => List.mem_append_left _ (hx hb)
  refine ⟨?_, ?_, ?_, ?_, ?_⟩
  · have hmove : (emitted ++ [name] ++ pending.erase name).Perm (emitted ++ pending) := by
      rw [List.append_assoc]
      exact (List.perm_cons_erase hname).symm.append_left emitted
    exact hmove.trans h.split
  · intro x hx
    rcases List.mem_append.1 hx with hx | hx
    · exact hgrow x (h.emitted_ready x hx)
    · rw [List.mem_singleton.1 hx]
      exact hgrow name (h.queue_ready name List.mem_cons_self)
  · intro x hx
    rcases List.mem_append.1 hx with hx | hx
    · exact hgrow x (h.queue_ready x (List.mem_cons_of_mem _ hx))
    · exact ((mem_released_iff x).1 hx).2.2
  · -- a name that nothing blocks now was queued before, or is released in this step
    intro x hx hblockers
    have hx' := (hpending.mem_erase_iff).1 hx
    by_cases hbefore : graph.blockers recursive x ⊆ emitted
    · rcases List.mem_cons.1 (h.queued x hx'.2 hbefore) with heq | hmem
      · exact absurd heq hx'.1
      · exact List.mem_append_left _ hmem
    · have hlast := last_blocker hblockers hbefore
      refine List.mem_append_right _ ((mem_released_iff x).2 ⟨hx, ?_, hblockers⟩)
      exact ((mem_blockers_iff hnodup x name).1 hlast).1
  · have hreleased := released_sublist graph recursive (pending.erase name) (emitted ++ [name]) name
    obtain ⟨fresh, hwaiting, hsub, hfresh⟩ :=
      waiting_append (pending.erase name) queue (hnodup.sublist hreleased)
    -- emitting the first waiting name only moves the border between the two lists
    rw [hwaiting, List.append_assoc, ← List.append_assoc [name], ← List.append_assoc emitted]
    have hsorted := h.sorted
    rw [waiting_cons_of_mem queue hpending hname] at hsorted
    refine pairwise_append_fresh hnodup hsorted ?_ (hsub.trans hreleased) ?_
    · intro x hx
      rcases List.mem_append.1 hx with hx | hx
      · exact h.emitted_ready x hx
      · rcases List.mem_cons.1 hx with rfl | hx
        · exact h.queue_ready x List.mem_cons_self
        · exact h.queue_ready x (List.mem_cons_of_mem _ ((mem_waiting_iff _ _ x).1 hx).1)
    · -- a fresh name was not queued, so something blocked it until now
      intro x hx
      have hblockers := ((mem_released_iff x).1 (hsub.subset hx)).2.2
      refine releaseTime_of_last hemitted (last_blocker hblockers fun hbefore => ?_) hblockers
      have hx' := (hpending.mem_erase_iff).1 (hfresh x hx).1
      rcases List.mem_cons.1 (h.queued x hx'.2 hbefore) with heq | hmem
      · exact hx'.1 heq
      · exact (hfresh x hx).2 hmem

/-- Emission does not get stuck: when the queue is empty, nothing is pending. -/
theorem Scheduling.pending_eq_nil (hnodup : graph.names.Nodup) (hclosed : graph.Closed)
    (hrecursive : ∀ x, x ∈ recursive ↔ graph.OnCycle x)
    (h : Scheduling graph recursive pending emitted []) : pending = [] := by
  -- a pending name waits for another pending one, which is off all cycles because it blocks
  apply eq_nil_of_edges graph
  intro x hx
  obtain ⟨b, hb, hwaits⟩ : ∃ b ∈ graph.blockers recursive x, b ∉ emitted := by
    by_contra hnone
    push Not at hnone
    exact List.not_mem_nil (h.queued x hx hnone)
  obtain ⟨hedge, _, hplain⟩ := (mem_blockers_iff hnodup x b).1 hb
  have hb' : b ∈ emitted ++ pending := h.split.mem_iff.2 (hclosed x b hedge)
  refine ⟨b, (List.mem_append.1 hb').resolve_left hwaits, hedge, ?_⟩
  exact fun hcycle => hplain ((hrecursive b).2 hcycle)

end Steps

/-- Every run of the emission ends with all names in release order. -/
theorem schedule_inReleaseOrder (graph : DependencyGraph) (hnodup : graph.names.Nodup)
    (hclosed : graph.Closed) (recursive : List RawText)
    (hrecursive : ∀ x, x ∈ recursive ↔ graph.OnCycle x) (pending emitted queue : List RawText)
    (h : Scheduling graph recursive pending emitted queue) :
    (graph.schedule recursive pending emitted queue).Perm graph.names ∧
      InReleaseOrder (graph.blockers recursive) graph.names
        (graph.schedule recursive pending emitted queue) := by
  fun_induction schedule graph recursive pending emitted queue with
  | case1 pending emitted =>
    have hperm := h.split
    rw [h.pending_eq_nil hnodup hclosed hrecursive, List.append_nil] at hperm
    refine ⟨hperm, InReleaseOrder.of_pairwise hperm ?_⟩
    exact (List.pairwise_append.1 h.sorted).1
  | case2 pending emitted name queue hname pending' emitted' ih => exact ih (h.emit hnodup hname)
  | case3 pending emitted name queue hname ih => exact ih (h.skip hname)

/-- The emission order is a permutation of the names, in release order. -/
theorem emissionOrder_inReleaseOrder (graph : DependencyGraph) (hnodup : graph.names.Nodup)
    (hclosed : graph.Closed) (recursive : List RawText)
    (hrecursive : ∀ x, x ∈ recursive ↔ graph.OnCycle x) :
    (graph.emissionOrder recursive graph.names).Perm graph.names ∧
      InReleaseOrder (graph.blockers recursive) graph.names
        (graph.emissionOrder recursive graph.names) :=
  schedule_inReleaseOrder graph hnodup hclosed recursive hrecursive _ _ _ (Scheduling.init hnodup)

end DependencyGraph

/-! ## Messages -/

namespace Arrangement

/-- Every name of a message is found again, at the last message that has it. -/
theorem exists_find?_name {messages : List (Message Field)} {m : Message Field}
    (hm : m ∈ messages) :
    ∃ x ∈ messages, (messages.reverse.find? fun x => x.name = m.name) = some x ∧
      x.name = m.name := by
  cases hfind : messages.reverse.find? fun x => x.name = m.name with
  | none =>
    have hnone := List.find?_eq_none.1 hfind m (List.mem_reverse.2 hm)
    simp at hnone
  | some x =>
    refine ⟨x, List.mem_reverse.1 (List.mem_of_find?_eq_some hfind), rfl, ?_⟩
    simpa using List.find?_some hfind

section Names

variable {messages : List (Message Field)} (hnodup : (messages.map Message.name).Nodup)

include hnodup

theorem find?_reverse_name {m : Message Field} (hm : m ∈ messages) :
    (messages.reverse.find? fun x => x.name = m.name) = some m :=
  find?_reverse_of_nodup hnodup hm (decide_eq_true rfl) fun _ => of_decide_eq_true

/-- Messages of distinct names are found again by their names. -/
theorem filterMap_find?_names {order : List (Message Field)} (h : order ⊆ messages) :
    ((order.map Message.name).filterMap fun name =>
      messages.reverse.find? fun m => m.name = name) = order := by
  induction order with
  | nil => rfl
  | cons m order ih =>
    rw [List.cons_subset] at h
    simp only [List.map_cons, List.filterMap_cons, find?_reverse_name hnodup h.1]
    rw [ih h.2]

/-- An order of the names is the order of some arrangement of the messages. -/
theorem exists_map_name_eq {order : List RawText} (h : order.Perm (messages.map Message.name)) :
    ((order.filterMap fun name => messages.reverse.find? fun m => m.name = name).map
        Message.name = order) ∧
      (order.filterMap fun name => messages.reverse.find? fun m => m.name = name).Perm
        messages := by
  have hfound : ∀ name ∈ order, ∃ m ∈ messages, m.name = name := by
    intro name hname
    exact List.mem_map.1 (h.mem_iff.1 hname)
  constructor
  · clear h
    induction order with
    | nil => rfl
    | cons name order ih =>
      obtain ⟨m, hm, rfl⟩ := hfound name List.mem_cons_self
      simp only [List.filterMap_cons, find?_reverse_name hnodup hm, List.map_cons]
      rw [ih fun x hx => hfound x (List.mem_cons_of_mem _ hx)]
  · have hperm := h.filterMap fun name => messages.reverse.find? fun m => m.name = name
    rwa [filterMap_find?_names hnodup (List.Subset.refl _)] at hperm

end Names

/-- Nothing is left over if every name has been emitted. -/
theorem leftovers_eq_nil {emitted : List RawText} {messages : List (Message Field)}
    (h : ∀ m ∈ messages, m.name ∈ emitted) : leftovers emitted messages = [] := by
  induction messages with
  | nil => rfl
  | cons m messages ih =>
    have hm : emitted.contains m.name = true := by simpa using h m List.mem_cons_self
    rw [leftovers, if_pos hm]
    exact ih fun x hx => h x (List.mem_cons_of_mem _ hx)

theorem mem_of_mem_leftovers {emitted : List RawText} {messages : List (Message Field)}
    {m : Message Field} (h : m ∈ leftovers emitted messages) : m ∈ messages := by
  induction messages generalizing emitted with
  | nil => simp [leftovers] at h
  | cons m' messages ih =>
    rw [leftovers] at h
    split at h
    · exact List.mem_cons_of_mem _ (ih h)
    · rcases List.mem_cons.1 h with rfl | h
      · exact List.mem_cons_self
      · exact List.mem_cons_of_mem _ (ih h)

/-- A name that has not been emitted is made up for. -/
theorem exists_mem_leftovers {emitted : List RawText} {messages : List (Message Field)}
    {m : Message Field} (hm : m ∈ messages) (hname : m.name ∉ emitted) :
    ∃ m' ∈ leftovers emitted messages, m'.name = m.name := by
  induction messages generalizing emitted with
  | nil => simp at hm
  | cons x messages ih =>
    rw [leftovers]
    by_cases hx : x.name = m.name
    · refine ⟨x, ?_, hx⟩
      rw [if_neg (by simpa [hx] using hname)]
      exact List.mem_cons_self
    · have hm' : m ∈ messages := by
        rcases List.mem_cons.1 hm with rfl | hm
        · exact absurd rfl hx
        · exact hm
      split
      · exact ih hm' hname
      · have hname' : m.name ∉ x.name :: emitted := by
          rw [List.mem_cons, not_or]
          exact ⟨fun h => hx h.symm, hname⟩
        obtain ⟨m', hmem, heq⟩ := ih hm' hname'
        exact ⟨m', List.mem_cons_of_mem _ hmem, heq⟩

/-- Messages can always be arranged, also if names are repeated. The arrangement holds only the
    given messages, and at least one of every name. -/
theorem ofMessages_total (messages : List (Message Field)) (path : String) :
    ∃ arrangement, Arrangement.ofMessages messages path = .ok arrangement ∧
      arrangement.messages ⊆ messages ∧
      ∀ m ∈ messages, ∃ m' ∈ arrangement.messages, m'.name = m.name := by
  obtain ⟨recursive, hrecursive⟩ := DependencyGraph.recursiveNames_of_closed
    (DependencyGraph.nodup_names_ofMessages messages path)
    (DependencyGraph.ofMessages_closed messages path)
  refine ⟨_, by rw [Arrangement.ofMessages, hrecursive]; rfl, ?_, ?_⟩
  · intro m hm
    rcases List.mem_append.1 hm with hm | hm
    · obtain ⟨name, _, hfind⟩ := List.mem_filterMap.1 hm
      exact List.mem_reverse.1 (List.mem_of_find?_eq_some hfind)
    · exact mem_of_mem_leftovers hm
  · intro m hm
    by_cases hname : m.name ∈ (DependencyGraph.ofMessages messages path).emissionOrder recursive
        (messages.map Message.name)
    · obtain ⟨x, _, hfind, heq⟩ := exists_find?_name hm
      exact ⟨x, List.mem_append_left _ (List.mem_filterMap.2 ⟨m.name, hname, hfind⟩), heq⟩
    · obtain ⟨m', hm', heq⟩ := exists_mem_leftovers hm hname
      exact ⟨m', List.mem_append_right _ hm', heq⟩

theorem subset_of_ofMessages {messages : List (Message Field)} {path : String}
    {arrangement : Arrangement} (h : Arrangement.ofMessages messages path = .ok arrangement) :
    arrangement.messages ⊆ messages := by
  obtain ⟨arrangement', htotal, hsub, _⟩ := ofMessages_total messages path
  obtain rfl := Except.ok.inj (h.symm.trans htotal)
  exact hsub

/-- The arrangement of messages with distinct names: all of them, in the emission order of their
    names, and nothing from the leftovers. -/
theorem ofMessages_eq (messages : List (Message Field)) (path : String)
    (hnodup : (messages.map Message.name).Nodup) :
    ∃ recursive arranged,
      (DependencyGraph.ofMessages messages path).recursiveNames = .ok recursive ∧
      Arrangement.ofMessages messages path = .ok ⟨arranged, recursive⟩ ∧
      arranged.Perm messages ∧
      InReleaseOrder ((DependencyGraph.ofMessages messages path).blockers recursive)
        (messages.map Message.name) (arranged.map Message.name) ∧
      leftovers ((DependencyGraph.ofMessages messages path).emissionOrder recursive
        (messages.map Message.name)) messages = [] := by
  have hnames : (DependencyGraph.ofMessages messages path).names = messages.map Message.name := by
    rw [DependencyGraph.names_ofMessages, eraseDups_of_nodup hnodup]
  have hgraph := DependencyGraph.nodup_names_ofMessages messages path
  have hclosed := DependencyGraph.ofMessages_closed messages path
  obtain ⟨recursive, hrecursive⟩ := DependencyGraph.recursiveNames_of_closed hgraph hclosed
  obtain ⟨hperm, hrelease⟩ := DependencyGraph.emissionOrder_inReleaseOrder _ hgraph hclosed
    recursive (DependencyGraph.mem_recursiveNames_iff hgraph hrecursive)
  rw [hnames] at hperm hrelease
  obtain ⟨hmap, harranged⟩ := exists_map_name_eq hnodup hperm
  have hleft : leftovers ((DependencyGraph.ofMessages messages path).emissionOrder recursive
      (messages.map Message.name)) messages = [] :=
    leftovers_eq_nil fun m hm => hperm.mem_iff.2 (List.mem_map_of_mem hm)
  refine ⟨recursive, _, hrecursive, ?_, harranged, ?_, hleft⟩
  · rw [Arrangement.ofMessages, hrecursive]
    show Except.ok _ = Except.ok _
    rw [hleft, List.append_nil]
  · rw [hmap]
    exact hrelease

/-- A single message is recursive if it refers to any message among those given. -/
theorem ofMessages_single (m : Message Field) (path : String) :
    Arrangement.ofMessages [m] path =
      .ok ⟨[m], if DependencyGraph.dependencies [m] path m = [] then [] else [m.name]⟩ := by
  obtain ⟨recursive, arranged, hrecursive, heq, hperm, -⟩ := ofMessages_eq [m] path (by simp)
  obtain rfl := List.perm_singleton.1 hperm
  have hself : ∀ d ∈ (DependencyGraph.dependencies [m] path m).eraseDups, d = m.name := by
    intro d hd
    obtain ⟨target, htarget, rfl⟩ := List.mem_map.1 (List.mem_eraseDups.1 hd)
    obtain ⟨field, -, hfield⟩ := List.mem_filterMap.1 htarget
    obtain ⟨ref, -, hmember⟩ := Option.bind_eq_some_iff.1 hfield
    rw [List.mem_singleton.1 (DependencyGraph.mem_of_member? hmember).1]
  have hgraph : DependencyGraph.ofMessages [m] path =
      [(m.name, (DependencyGraph.dependencies [m] path m).eraseDups)] := by
    simp [DependencyGraph.ofMessages, DependencyGraph.dependenciesOf, List.eraseDups_cons]
  have hnil : (DependencyGraph.dependencies [m] path m).eraseDups = [] ↔
      DependencyGraph.dependencies [m] path m = [] := by
    simp only [List.eq_nil_iff_forall_not_mem, List.mem_eraseDups]
  rw [hgraph, DependencyGraph.recursiveNames_single _ _ hself] at hrecursive
  rw [heq, ← Except.ok.inj hrecursive]
  simp only [hnil]

/-- Two messages of which the first refers to itself and to the second, which refers to none. -/
theorem ofMessages_before_leaf {m leaf : Message Field} {path : String}
    (hname : m.name ≠ leaf.name)
    (hgraph : DependencyGraph.ofMessages [m, leaf] path =
      [(m.name, [m.name, leaf.name]), (leaf.name, [])]) :
    Arrangement.ofMessages [m, leaf] path = .ok ⟨[leaf, m], [m.name]⟩ := by
  simp only [Arrangement.ofMessages, hgraph, DependencyGraph.recursiveNames_before_leaf hname,
    DependencyGraph.emissionOrder_before_leaf hname, List.map_cons, List.map_nil, bind, Except.bind]
  simp [leftovers, hname, hname.symm, pure, Except.pure]

/-- Of two messages of one name the last is emitted, and before a message that refers to it. -/
theorem ofMessages_after_leaf {first last m : Message Field} {path : String}
    (hsame : last.name = first.name) (hname : m.name ≠ first.name)
    (hgraph : DependencyGraph.ofMessages [first, last, m] path =
      [(first.name, []), (m.name, [first.name])]) :
    Arrangement.ofMessages [first, last, m] path = .ok ⟨[last, m], []⟩ := by
  simp only [Arrangement.ofMessages, hgraph, DependencyGraph.recursiveNames_after_leaf hname, hsame,
    DependencyGraph.emissionOrder_after_leaf hname, List.map_cons, List.map_nil, bind, Except.bind]
  simp [leftovers, hsame, hname, hname.symm, pure, Except.pure]

/-- What messages with distinct names wait for is declared among them. -/
theorem blockers_subset_declared {messages : List (Message Field)} (path : String)
    (hnodup : (messages.map Message.name).Nodup) (recursive : List RawText) (name : RawText) :
    (DependencyGraph.ofMessages messages path).blockers recursive name ⊆
      messages.map Message.name := by
  have hsub : (DependencyGraph.ofMessages messages path).blockers recursive name ⊆ _ :=
    DependencyGraph.blockers_subset_names
      (DependencyGraph.nodup_names_ofMessages messages path)
      (DependencyGraph.ofMessages_closed messages path) name
  rwa [DependencyGraph.names_ofMessages, eraseDups_of_nodup hnodup] at hsub

/-- **The emission order is a stable topological order.** Messages with distinct names are always
    arranged: all of them, each behind its blockers, without leftovers. The arrangement is the one
    order of the messages in which one stands before another exactly if it is released before it. -/
theorem ofMessages_stable (messages : List (Message Field)) (path : String)
    (hnodup : (messages.map Message.name).Nodup) :
    let graph := DependencyGraph.ofMessages messages path
    let declared := messages.map Message.name
    ∃ arrangement, Arrangement.ofMessages messages path = .ok arrangement ∧
      graph.recursiveNames = .ok arrangement.recursive ∧
      arrangement.messages.Perm messages ∧
      (∀ m ∈ messages, ∀ b ∈ graph.blockers arrangement.recursive m.name,
        (arrangement.messages.map Message.name).idxOf b <
          (arrangement.messages.map Message.name).idxOf m.name) ∧
      leftovers (graph.emissionOrder arrangement.recursive declared) messages = [] ∧
      ∀ order : List (Message Field), order.Perm messages →
        (InReleaseOrder (graph.blockers arrangement.recursive) declared
          (order.map Message.name) ↔ order = arrangement.messages) := by
  intro graph declared
  obtain ⟨recursive, arranged, hrecursive, heq, hperm, hrelease, hleft⟩ :=
    ofMessages_eq messages path hnodup
  have hknown : ∀ a ∈ declared, graph.blockers recursive a ⊆ declared := by
    intro a _
    exact blockers_subset_declared path hnodup recursive a
  have hself : ∀ a, a ∉ graph.blockers recursive a := DependencyGraph.notMem_blockers_self
  have hpermNames : (arranged.map Message.name).Perm declared := hperm.map Message.name
  refine ⟨⟨arranged, recursive⟩, heq, hrecursive, hperm, ?_, hleft, ?_⟩
  · intro m hm b hb
    exact hrelease.idxOf_lt hpermNames hknown hself (List.mem_map_of_mem hm) hb
  · intro order horder
    constructor
    · intro h
      have hsame : order.map Message.name = arranged.map Message.name :=
        h.unique hnodup hknown hself (horder.map Message.name) hpermNames hrelease
      calc order = _ := (filterMap_find?_names hnodup horder.subset).symm
        _ = arranged := by rw [hsame, filterMap_find?_names hnodup hperm.subset]
    · rintro rfl
      exact hrelease

/-- A message that refers to itself and to one declared after it. -/
theorem ofMessages_stable_order :
    let item : Message Field :=
      ⟨"Item", "shop.Item", "shop", ⟨0, [1]⟩, [], [], [], false, false⟩
    let order : Message Field :=
      ⟨"Order", "shop.Order", "shop", ⟨0, [0]⟩,
        [⟨"parent", 1, .single (.message ⟨"Order", "shop.Order", "shop", ⟨0, [0]⟩, false⟩),
          false, none⟩, ⟨"items", 2, .list (.message item.ref), false, none⟩],
        [], [], false, false⟩
    ([order, item].map Message.name).Nodup ∧
      Arrangement.ofMessages [order, item] "shop" = .ok ⟨[item, order], ["Order"]⟩ ∧
      InReleaseOrder ((DependencyGraph.ofMessages [order, item] "shop").blockers ["Order"])
        ["Order", "Item"] ["Item", "Order"] := by
  intro item order
  have hnodup : ([order, item].map Message.name).Nodup := by decide
  have hvalue : Arrangement.ofMessages [order, item] "shop" = .ok ⟨[item, order], ["Order"]⟩ :=
    ofMessages_before_leaf (by decide) (by decide)
  obtain ⟨arrangement, heq, _, hperm, _, _, hunique⟩ :=
    ofMessages_stable [order, item] "shop" hnodup
  rw [hvalue] at heq
  obtain rfl := Except.ok.inj heq
  exact ⟨hnodup, hvalue, (hunique [item, order] hperm).2 rfl⟩

end Arrangement

end ProtoSchema
