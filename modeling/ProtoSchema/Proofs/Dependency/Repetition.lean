import ProtoSchema.Proofs.Dependency.Order
import ProtoSchema.Proofs.Outcome

set_option autoImplicit false

/-! # Messages that share a name

If some messages share a name, the queue of the emission holds that name several times from the
start. That changes nothing: what counts is the first place of each name (`Scheduling.of_waiting`),
so all names are emitted (`emissionOrder_perm`). Each name brings the last of its messages into the
arrangement (`Arrangement.mem_of_last`). -/

namespace ProtoSchema

theorem eraseDups_filter {α : Type} [BEq α] [LawfulBEq α] (p : α → Bool) (l : List α) :
    (l.filter p).eraseDups = l.eraseDups.filter p := by
  match l with
  | [] => rfl
  | a :: l =>
    rw [List.eraseDups_cons]
    by_cases ha : p a
    · rw [List.filter_cons_of_pos ha, List.filter_cons_of_pos ha, List.eraseDups_cons,
        ← eraseDups_filter p, List.filter_filter, List.filter_filter]
      simp only [Bool.and_comm]
    · rw [List.filter_cons_of_neg ha, List.filter_cons_of_neg ha, ← eraseDups_filter p,
        List.filter_filter]
      congr 1
      refine List.filter_congr fun b _ => ?_
      by_cases hb : b = a
      · simp [hb, ha]
      · simp [hb]
termination_by l.length
decreasing_by
  all_goals exact Nat.lt_succ_of_le (List.length_filter_le _ _)

namespace DependencyGraph

variable {graph : DependencyGraph} {recursive pending emitted queue queue' : List RawText}

/-- Of the queue only the first places of the pending names count. -/
theorem Scheduling.of_waiting (h : Scheduling graph recursive pending emitted queue)
    (hmem : ∀ x, x ∈ queue' ↔ x ∈ queue)
    (hwaiting : waiting pending queue' = waiting pending queue) :
    Scheduling graph recursive pending emitted queue' := by
  refine ⟨h.split, h.emitted_ready, ?_, ?_, ?_⟩
  · exact fun x hx => h.queue_ready x ((hmem x).1 hx)
  · exact fun x hx hblockers => (hmem x).2 (h.queued x hx hblockers)
  · rw [hwaiting]
    exact h.sorted

/-- All names are emitted, also if some are declared several times. -/
theorem emissionOrder_perm (hnodup : graph.names.Nodup) (hclosed : graph.Closed)
    (hrecursive : ∀ x, x ∈ recursive ↔ graph.OnCycle x) {declared : List RawText}
    (hdeclared : declared.eraseDups = graph.names) :
    (graph.emissionOrder recursive declared).Perm graph.names := by
  let ready : RawText → Bool := fun name => (graph.blockers recursive name).isEmpty
  have hmem : ∀ x, x ∈ declared.filter ready ↔ x ∈ graph.names.filter ready := by
    intro x
    simp only [← hdeclared, List.mem_filter, List.mem_eraseDups]
  have hwaiting : waiting graph.names (declared.filter ready) =
      waiting graph.names (graph.names.filter ready) := by
    rw [waiting, waiting, eraseDups_filter, eraseDups_filter, hdeclared, eraseDups_filter,
      eraseDups_filter, eraseDups_of_nodup hnodup]
  exact (schedule_inReleaseOrder graph hnodup hclosed recursive hrecursive _ _ _
    ((Scheduling.init hnodup).of_waiting hmem hwaiting)).1

end DependencyGraph

/-- The last message of its name is arranged. -/
theorem Arrangement.mem_of_last {messages front back : List (Message Field)} {t : Message Field}
    (hsplit : messages = front ++ t :: back) (hback : ∀ m ∈ back, m.name ≠ t.name)
    {path : String} {arrangement : Arrangement}
    (h : Arrangement.ofMessages messages path = .ok arrangement) : t ∈ arrangement.messages := by
  have hgraph := DependencyGraph.nodup_names_ofMessages messages path
  have hclosed := DependencyGraph.ofMessages_closed messages path
  obtain ⟨recursive, hrecursive, h⟩ := bind_eq_ok_iff.1 h
  obtain rfl := Except.ok.inj h
  have hperm := DependencyGraph.emissionOrder_perm hgraph hclosed
    (DependencyGraph.mem_recursiveNames_iff hgraph hrecursive)
    (DependencyGraph.names_ofMessages messages path).symm
  have hname : t.name ∈ (DependencyGraph.ofMessages messages path).emissionOrder recursive
      (messages.map Message.name) := by
    rw [hperm.mem_iff, DependencyGraph.names_ofMessages, List.mem_eraseDups, hsplit]
    simp
  have hlater : (back.reverse.find? fun m => m.name = t.name) = none := by
    rw [List.find?_eq_none]
    intro m hm
    simpa using hback m (List.mem_reverse.1 hm)
  have hfind : (messages.reverse.find? fun m => m.name = t.name) = some t := by
    rw [hsplit, List.reverse_append, List.reverse_cons, List.append_assoc, List.find?_append,
      hlater]
    simp
  exact List.mem_append_left _ (List.mem_filterMap.2 ⟨t.name, hname, hfind⟩)

end ProtoSchema
