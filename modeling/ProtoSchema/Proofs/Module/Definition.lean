import ProtoSchema.Proofs.Model.Coherence
import ProtoSchema.Proofs.Module.Building

set_option autoImplicit false

/-! # Nothing is used before it is defined

A generated module is run from top to bottom, so a schema that mentions another one by its bare name
has to stand below it. Three parts of the generator have to agree for that: the search for
recursive names, the emission order, and the deferral of references. They only know names, so the
first step is to carry reachability between messages over to the names of the dependency graph
(`onCycle_iff_reachesItself`); what remains is that a message stands below all it waits for
(`exists_before`) and that deferral happens exactly at the recursive names (`refersAs_of_type`). -/

namespace ProtoSchema

/-! ## References among messages -/

namespace Message

/-- Both messages are among the given ones, and a field of the first refers to the second. -/
def RefersTo (among : List (Message Field)) (m t : Message Field) : Prop :=
  m ∈ among ∧ t ∈ among ∧
    ∃ field ∈ m.fields, ∃ ref, field.type.message? = some ref ∧ ref.place = t.place

/-- References among the given messages lead from a message back to it. -/
def ReachesItself (among : List (Message Field)) (t : Message Field) : Prop :=
  Relation.TransGen (RefersTo among) t t

section Names

variable {model : Model} {file : SchemaFile Field} {among : List (Message Field)}
variable (hmodel : model.Coherent) (hfile : file ∈ model.files) (hamong : among ⊆ file.messages)
variable (hnodup : (among.map Message.name).Nodup)

include hmodel hfile hamong

/-- A reference by place is a reference to a member. -/
theorem member?_eq_some {t : Message Field} (ht : t ∈ among) {ref : MessageRef}
    (hplace : ref.place = t.place) :
    DependencyGraph.member? among file.path ref = some t := by
  have hmessages : ∀ m ∈ among, m ∈ model.messages := fun m hm =>
    Model.mem_messages hfile (hamong hm)
  have hfind : (among.find? fun m => m.place = ref.place) = some t := by
    cases hfound : among.find? fun m => m.place = ref.place with
    | none =>
      have hnone := List.find?_eq_none.1 hfound t ht
      simp [hplace] at hnone
    | some m =>
      have hm : m.place = ref.place := by simpa using List.find?_some hfound
      have heq : m = t := hmodel.place_inj m (hmessages m (List.mem_of_find?_eq_some hfound)) t
        (hmessages t ht) (hm.trans hplace)
      rw [heq]
  have howner : t.file = file.path :=
    hmodel.file_eq file hfile t (Message.mem_withNestedAll_of_mem (hamong ht))
  rw [DependencyGraph.member?, hfind, Option.filter_some, howner]
  simp

include hnodup

/-- Names depend on each other exactly if the messages refer to each other. -/
theorem edge_iff_refersTo {m t : Message Field} (hm : m ∈ among) (ht : t ∈ among) :
    (DependencyGraph.ofMessages among file.path).Edge m.name t.name ↔ RefersTo among m t := by
  rw [DependencyGraph.edge_ofMessages_iff]
  constructor
  · rintro ⟨m', hm', hname, field, hfield, ref, href, t', hmember, htname⟩
    obtain ⟨ht', hplace, _⟩ := DependencyGraph.mem_of_member? hmember
    obtain rfl := List.inj_on_of_nodup_map hnodup hm' hm hname
    obtain rfl := List.inj_on_of_nodup_map hnodup ht' ht htname
    exact ⟨hm, ht, field, hfield, ref, href, hplace.symm⟩
  · rintro ⟨_, _, field, hfield, ref, href, hplace⟩
    exact ⟨m, hm, rfl, field, hfield, ref, href, t,
      member?_eq_some hmodel hfile hamong ht hplace, rfl⟩

/-- A path between names is a path between messages. -/
theorem exists_transGen_refersTo {t : Message Field} (ht : t ∈ among) {name : RawText}
    (h : Relation.TransGen (DependencyGraph.ofMessages among file.path).Edge t.name name) :
    ∃ x ∈ among, x.name = name ∧ Relation.TransGen (RefersTo among) t x := by
  -- one edge of the graph is one reference, since every dependency is the name of a member
  have hstep : ∀ {y : Message Field} {dep : RawText}, y ∈ among →
      (DependencyGraph.ofMessages among file.path).Edge y.name dep →
      ∃ x ∈ among, x.name = dep ∧ RefersTo among y x := by
    intro y dep hy hedge
    have hdep := DependencyGraph.ofMessages_closed among file.path _ _ hedge
    rw [DependencyGraph.names_ofMessages, List.mem_eraseDups] at hdep
    obtain ⟨x, hx, rfl⟩ := List.mem_map.1 hdep
    exact ⟨x, hx, rfl, (edge_iff_refersTo hmodel hfile hamong hnodup hy hx).1 hedge⟩
  induction h with
  | single hedge =>
    obtain ⟨x, hx, hname, hrefers⟩ := hstep ht hedge
    exact ⟨x, hx, hname, .single hrefers⟩
  | tail _ hedge ih =>
    obtain ⟨y, hy, rfl, hpath⟩ := ih
    obtain ⟨x, hx, hname, hrefers⟩ := hstep hy hedge
    exact ⟨x, hx, hname, hpath.tail hrefers⟩

/-- A name is on a cycle exactly if its message reaches itself. -/
theorem onCycle_iff_reachesItself {t : Message Field} (ht : t ∈ among) :
    (DependencyGraph.ofMessages among file.path).OnCycle t.name ↔ ReachesItself among t := by
  constructor
  · intro h
    obtain ⟨x, hx, hname, hpath⟩ :=
      exists_transGen_refersTo hmodel hfile hamong hnodup ht h
    obtain rfl := List.inj_on_of_nodup_map hnodup hx ht hname
    exact hpath
  · intro h
    refine Relation.TransGen.lift Message.name ?_ t t h
    intro m m' hrefers
    exact (edge_iff_refersTo hmodel hfile hamong hnodup hrefers.1 hrefers.2.1).2 hrefers

end Names

end Message

/-! ## How an expression refers to a message -/

/-- A reference inside the list or map that a field is, with the checks on the items of a list. -/
def FieldType.around (itemChecks : List Check) (reference : String) : FieldType → String
  | list _ => "z.array(" ++ reference ++ Check.textAll itemChecks ++ ")"
  | map key _ => "z.record(" ++ SchemaType.keySchema key ++ ", " ++ reference ++ ")"
  | _ => reference

/-- The expression of a field of the given type is made of a reference to a message and checks. -/
def Expression.RefersAs (e : Expression) (type : FieldType) (reference : String) : Prop :=
  e.text = type.around e.itemChecks reference ++ Check.textAll e.checks ++
    (if e.optional then ".optional()" else "")

/-- The reference to a message of the same module that is looked up only when it is used. -/
def Message.lazySchema (t : Message Field) : String :=
  "z.lazy(() => " ++ Name.schema t.name.shown ++ ")"

theorem SchemaType.schema_defer_own (names : List RawText) (t : Message Field) :
    ((SchemaType.own t.name).defer names).schema =
      if t.name ∈ names then t.lazySchema else Name.schema t.name.shown := by
  show (if names.contains t.name then SchemaType.deferred t.name else .own t.name).schema = _
  by_cases h : t.name ∈ names
  · rw [if_pos (List.contains_iff_mem.2 h), if_pos h]
    rfl
  · rw [if_neg (mt List.contains_iff_mem.1 h), if_neg h]
    rfl

/-- A field that refers to a message of its own file refers to it lazily if the name is one of
    those to defer, and by its bare name otherwise. This holds for all shapes of fields. -/
theorem Expression.refersAs_of_type {e : Expression} {type : FieldType} {path : String}
    {names : List RawText} (he : e.type = (type.schemaType path).defer names) {t : Message Field}
    (href : type.message? = some t.ref) (hfile : t.file = path)
    (hplain : SchemaType.wellKnown? t.fullName = none) :
    e.RefersAs type (if t.name ∈ names then t.lazySchema else Name.schema t.name.shown) := by
  have htarget := FieldType.target?_of_message? href
  have hown : (Target.message t.ref).schemaType path = .own t.name := by
    unfold Target.schemaType
    simp only [Message.ref, hplain, hfile, if_true]
  rw [Expression.RefersAs, Expression.text, ← SchemaType.schema_defer_own, he]
  cases type with
  | unknown => cases htarget
  | single target =>
    cases htarget
    rw [FieldType.schemaType, hown]
    -- a message is neither a list nor a map, whether deferred or not
    have hbase : Expression.base ((SchemaType.own t.name).defer names) e.itemChecks =
        ((SchemaType.own t.name).defer names).schema := by
      show Expression.base (if names.contains t.name then .deferred t.name else .own t.name) _ =
        (if names.contains t.name then SchemaType.deferred t.name else .own t.name).schema
      split <;> rfl
    rw [hbase]
    rfl
  | list target =>
    cases htarget
    rw [FieldType.schemaType, hown]
    rfl
  | map key value =>
    cases htarget
    rw [FieldType.schemaType, Option.map_some, Option.getD_some, hown]
    rfl

/-! ## Positions in the emission order -/

/-- An export declares a message: it has the names of the message and a property for each of its
    fields, in order. -/
def MessageExport.Declares (e : MessageExport) (m : Message Field) : Prop :=
  e.name = m.name.shown ∧ e.fullName = m.fullName.shown ∧
    e.properties.map Property.name = m.fields.map fun field => Name.camelCase field.name.shown

theorem MessageExport.declares_of_exported {loader : Loader} {path : String}
    {recursive : List RawText} {m : Message Field} {e : MessageExport}
    (h : (m.exported path recursive loader).outcome = .ok e) : e.Declares m := by
  obtain ⟨hname, hfull, _, hproperties⟩ := Message.exported_eq_ok h
  refine ⟨hname, hfull, ?_⟩
  clear hname hfull h
  generalize m.fields = fields at hproperties ⊢
  generalize e.properties = properties at hproperties ⊢
  induction hproperties with
  | nil => rfl
  | cons hproperty _ ih =>
    obtain ⟨_, _, _, hcamel, _⟩ := Field.property_eq_ok hproperty
    rw [List.map_cons, List.map_cons, hcamel, ih]

/-- A message stands behind every message that it refers to and that does not reach itself. -/
theorem Arrangement.exists_before {model : Model} (hmodel : model.Coherent)
    {file : SchemaFile Field} (hfile : file ∈ model.files) {among : List (Message Field)}
    (hamong : among ⊆ file.messages) (hnodup : (among.map Message.name).Nodup)
    {recursive : List RawText} {arranged : List (Message Field)}
    (hrecursive :
      (DependencyGraph.ofMessages among file.path).recursiveNames = .ok recursive)
    (hperm : arranged.Perm among)
    (hrelease : InReleaseOrder ((DependencyGraph.ofMessages among file.path).blockers recursive)
      (among.map Message.name) (arranged.map Message.name))
    {i : Nat} {m t : Message Field} (hi : arranged[i]? = some m)
    (hrefers : Message.RefersTo among m t) (ht : ¬ t.ReachesItself among) :
    ∃ j < i, arranged[j]? = some t := by
  have hm := hrefers.1
  have htmem := hrefers.2.1
  have hgraph := DependencyGraph.nodup_names_ofMessages among file.path
  have hcycle : ¬ (DependencyGraph.ofMessages among file.path).OnCycle t.name := fun h =>
    ht ((Message.onCycle_iff_reachesItself hmodel hfile hamong hnodup htmem).1 h)
  have hblocker :
      t.name ∈ (DependencyGraph.ofMessages among file.path).blockers recursive m.name := by
    rw [DependencyGraph.mem_blockers_iff hgraph]
    refine ⟨(Message.edge_iff_refersTo hmodel hfile hamong hnodup hm htmem).2 hrefers, ?_, ?_⟩
    · -- a message that refers to itself reaches itself
      intro hname
      obtain rfl := List.inj_on_of_nodup_map hnodup htmem hm hname
      exact ht (.single hrefers)
    · intro hmem
      exact hcycle ((DependencyGraph.mem_recursiveNames_iff hgraph hrecursive t.name).1 hmem)
  have hlt := hrelease.idxOf_lt (hperm.map Message.name)
    (fun a _ => blockers_subset_declared file.path hnodup recursive a)
    DependencyGraph.notMem_blockers_self (List.mem_map_of_mem hm) hblocker
  have hnames : (arranged.map Message.name).Nodup := ((hperm.map Message.name).nodup_iff).2 hnodup
  obtain ⟨hlen, rfl⟩ := List.getElem?_eq_some_iff.1 hi
  obtain ⟨j, hj, htj⟩ := List.getElem_of_mem (hperm.mem_iff.2 htmem)
  refine ⟨j, ?_, List.getElem?_eq_some_iff.2 ⟨hj, htj⟩⟩
  have hidx : ∀ k (hk : k < arranged.length),
      (arranged.map Message.name).idxOf arranged[k].name = k := by
    intro k hk
    have hget := hnames.idxOf_getElem k (by rwa [List.length_map])
    rwa [List.getElem_map] at hget
  rwa [← htj, hidx j hj, hidx i hlen] at hlt

/-! ## The main result -/

namespace SchemaModule

/-- **Nothing is used before it is defined.** Let the selected messages of a file have distinct
    names. Its module, if there is one, declares each of them once and no others. Wherever a field
    has one of them as its target, it refers to it lazily if that message reaches itself; otherwise
    it refers to it by its bare name, and the message is declared before. There is no module only if
    there is nothing to declare, or if a text cannot be decoded. -/
theorem ofFile_defines_before_use {files : List FileDescriptor} {model : Model}
    (hmodel : Model.build files = .ok model) {file : SchemaFile Field} (hfile : file ∈ model.files)
    (loader : Loader) (options : Options)
    (hnodup : ((file.selected options).map Message.name).Nodup) :
    match (ofFile loader options file).outcome with
    | .error e => ∃ use, e = .undecodableText use
    | .ok none => file.selected options = [] ∧ file.enums = []
    | .ok (some built) =>
      ∃ order : List (Message Field), order.Perm (file.selected options) ∧
        List.Forall₂ (fun m e => e.Declares m) order built.messages ∧
        ∀ (i : Nat) (m : Message Field) (e : MessageExport),
          order[i]? = some m → built.messages[i]? = some e →
          ∀ (k : Nat) (field : Field) (p : Property),
            m.fields[k]? = some field → e.properties[k]? = some p →
            ∀ ref : MessageRef, ∀ t ∈ file.selected options, field.type.message? = some ref →
              ref.place = t.place → SchemaType.wellKnown? t.fullName = none →
              (t.ReachesItself (file.selected options) →
                p.expression.RefersAs field.type t.lazySchema) ∧
              (¬ t.ReachesItself (file.selected options) →
                p.expression.RefersAs field.type (Name.schema t.name.shown) ∧
                  ∃ j < i, order[j]? = some t) := by
  have hcoherent := Model.build_coherent hmodel
  have hsub := file.selected_subset options
  split
  · next e h => exact (ofFile_eq_error h).1
  · next h => exact ofFile_eq_none h
  · next built h =>
    obtain ⟨_, _, arrangement, harrangement, hexports⟩ := ofFile_eq_some h
    obtain ⟨recursive, order, hrecursive, heq, hperm, hrelease, _⟩ :=
      Arrangement.ofMessages_eq (file.selected options) file.path hnodup
    obtain rfl : arrangement = ⟨order, recursive⟩ := Except.ok.inj (harrangement.symm.trans heq)
    refine ⟨order, hperm, hexports.imp fun _ _ => MessageExport.declares_of_exported, ?_⟩
    intro i m e hi he k field p hk hp ref t ht href hplace hplain
    obtain ⟨_, _, _, hproperties⟩ := Message.exported_eq_ok (forall₂_getElem? hexports hi he)
    obtain ⟨chain, _, hexpression, _, _⟩ :=
      Field.property_eq_ok (forall₂_getElem? hproperties hk hp)
    have hm : m ∈ file.selected options := hperm.mem_iff.1 (List.mem_of_getElem? hi)
    have hfield : field ∈ m.fields := List.mem_of_getElem? hk
    have hrefers : Message.RefersTo (file.selected options) m t :=
      ⟨hm, ht, field, hfield, ref, href, hplace⟩
    obtain rfl := hcoherent.ref_eq (Model.mem_messages hfile (hsub hm))
      (Model.mem_messages hfile (hsub ht)) hfield href hplace.symm
    have howner := hcoherent.file_eq file hfile t (Message.mem_withNestedAll_of_mem (hsub ht))
    have htext := Expression.refersAs_of_type (Field.expression_eq_ok hexpression).1 href howner
      hplain
    -- the names to defer are those of the messages that reach themselves
    have hdefer : t.name ∈ recursive ↔ t.ReachesItself (file.selected options) := by
      rw [DependencyGraph.mem_recursiveNames_iff
        (DependencyGraph.nodup_names_ofMessages _ file.path) hrecursive]
      exact Message.onCycle_iff_reachesItself hcoherent hfile hsub hnodup ht
    constructor
    · intro hreaches
      rwa [if_pos (hdefer.2 hreaches)] at htext
    · intro hreaches
      rw [if_neg (mt hdefer.1 hreaches)] at htext
      exact ⟨htext, Arrangement.exists_before hcoherent hfile hsub hnodup hrecursive hperm hrelease
        hi hrefers hreaches⟩

/-- An order may have a parent order, so it reaches itself, while its items are declared before. -/
theorem ofFile_defines_items_before_orders :
    let order : Message Field :=
      ⟨"Order", "shop.Order", "shop", ⟨0, [0]⟩,
        [⟨"parent", 1, .single (.message ⟨"Order", "shop.Order", "shop", ⟨0, [0]⟩, false⟩),
          false, none⟩,
         ⟨"items", 2, .list (.message ⟨"Item", "shop.Item", "shop", ⟨0, [1]⟩, false⟩),
          false, none⟩],
        [], [], false, false⟩
    let item : Message Field :=
      ⟨"Item", "shop.Item", "shop", ⟨0, [1]⟩, [], [], [], false, false⟩
    let file : SchemaFile Field := ⟨"shop.proto", "shop", "shop", [], [order, item]⟩
    let files : List FileDescriptor :=
      [{ name := "shop.proto", package := "shop", messages :=
        [{ name := "Order", fields :=
          [{ name := "parent", number := 1, kind := .message, typeName := ".shop.Order" },
           { name := "items", number := 2, kind := .message, label := .repeated,
             typeName := "Item" }] },
         { name := "Item" }] }]
    Model.build files = .ok ⟨[file]⟩ ∧ ((file.selected {}).map Message.name).Nodup ∧
      ∃ built, (ofFile true {} file).outcome = .ok (some built) ∧
        (built.messages.map fun e => (e.name, e.properties.map fun p => p.expression.text)) =
          [("Item", []),
           ("Order", ["z.lazy(() => OrderSchema).optional()",
             "z.array(ItemSchema).optional()"])] ∧
        ∃ emitted : List (Message Field), emitted.Perm [order, item] ∧
          List.Forall₂ (fun m e => e.Declares m) emitted built.messages := by
  intro order item file files
  have hmodel : Model.build files = .ok ⟨[file]⟩ := by rfl
  have hselected : file.selected {} = [order, item] := by cbv
  have hnodup : ((file.selected {}).map Message.name).Nodup := by decide
  have h := ofFile_defines_before_use hmodel List.mem_cons_self true {} hnodup
  have harranged : Arrangement.ofMessages [order, item] "shop" = .ok ⟨[item, order], ["Order"]⟩ :=
    Arrangement.ofMessages_before_leaf (by decide) (by decide)
  have himports : file.importLines [order, item] = [] := ImportLine.ofImports_nil
  have htexts : ((ofFile true {} file).outcome.map fun built? => built?.map fun built =>
      built.messages.map fun e => (e.name, e.properties.map fun p => p.expression.text)) =
        .ok (some [("Item", []), ("Order", ["z.lazy(() => OrderSchema).optional()",
          "z.array(ItemSchema).optional()"])]) := by
    rw [ofFile_outcome, hselected, himports, harranged]
    rfl
  obtain ⟨built?, hout, hread⟩ := map_eq_ok_iff.1 htexts
  obtain ⟨built, rfl, hbuilt⟩ := Option.map_eq_some_iff.1 hread
  rw [hout, hselected] at h
  obtain ⟨emitted, hperm, hdeclares, _⟩ := h
  exact ⟨hmodel, hnodup, built, hout, hbuilt, emitted, hperm, hdeclares⟩

end SchemaModule

end ProtoSchema
