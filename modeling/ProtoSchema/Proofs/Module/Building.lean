import ProtoSchema.Module.Basic
import ProtoSchema.Proofs.Dependency.Order
import ProtoSchema.Proofs.Report

set_option autoImplicit false

/-! # What building a module does

One statement for each function on the way from a file to its module, so that nothing later has to
look into them: what the answer consists of if there is one (`ofFile_eq_some`), when there is
nothing to generate, and that the only reason for a failure is a text that cannot be decoded
(`ofFile_eq_error_cases`). -/

namespace ProtoSchema

theorem refuseIf_eq_error_iff (use : TextUse) (condition : Bool) (e : Error) :
    use.refuseIf condition = .error e ↔ condition = true ∧ e = .undecodableText use := by
  cases condition <;> simp [TextUse.refuseIf, eq_comm]

/-! ## Fields -/

/-- The rules of a field, if it has any. -/
def Field.rules? (field : Field) : Option FieldRules :=
  field.options.bind FieldOptions.rules

/-- The chain that rules have the effect of: that of their checks, or none. -/
def FieldRules.chain (bindings : Bool) (rules : FieldRules) : Chain :=
  if bindings then (Chain.ofRules? rules).getD .empty else .empty

/-- The chain of the rules that a field may have. -/
def chainOf (bindings : Bool) (rules : Option FieldRules) : Chain :=
  (rules.map (FieldRules.chain bindings)).getD .empty

theorem Field.steady_chain (field : Field) : field.chain.Steady := by
  unfold Field.chain
  split
  · exact Run.steady_pure _
  refine Run.steady_load.bind fun found => ?_
  split
  · split
    · exact Run.steady_pure _
    · split
      · exact Run.steady_pure _
      · have hnotice : Notice.unreadableRules field.name ≠ .missingBindings := nofun
        exact (Run.steady_tell hnotice).bind fun _ => Run.steady_pure _
  · exact Run.steady_pure _

/-- Rules never stop a field: they give checks or are ignored. -/
theorem Field.chain_eq (loader : Loader) (field : Field) :
    (field.chain loader).outcome = .ok (chainOf loader.found field.rules?) := by
  unfold Field.chain chainOf Field.rules? FieldRules.chain
  cases field.options with
  | none => rfl
  | some options =>
    show ((Run.load >>= _) loader).outcome = _
    rw [Run.bind_eq_of_ok (Run.outcome_load loader), Option.bind_some]
    cases loader.found with
    | false => cases options.rules <;> rfl
    | true =>
      cases options.rules with
      | none => rfl
      | some rules =>
        dsimp only [↓reduceIte, Option.map_some, Option.getD_some]
        cases Chain.ofRules? rules <;> rfl

/-- A text that the property of a field is made from cannot be decoded: its name, or a pattern of
    its rules. -/
def Field.Undecodable (loader : Loader) (field : Field) : Prop :=
  field.name.isUndecodable = true ∨
    ∃ chain, (field.chain loader).outcome = .ok chain ∧
      ∃ pattern, (chain.pattern = some pattern ∨ chain.itemPattern = some pattern) ∧
        pattern.isUndecodable = true

theorem patternCheck_eq_error {make : String → Check} {pattern : Option RawText} {e : Error}
    (h : patternCheck make pattern = .error e) :
    e = .undecodableText .cut ∧ ∃ t, pattern = some t ∧ t.isUndecodable = true := by
  unfold patternCheck at h
  split at h
  · cases h
  · cases h
  · next bytes =>
    cases h
    exact ⟨rfl, _, rfl, rfl⟩

/-- An expression is composed in three steps: checks on the items, checks on the whole, assembly. -/
theorem Field.expression_def (field : Field) (path : String) (recursive : List RawText)
    (chain : Chain) :
    field.expression path recursive chain =
      (if field.type.isList then chain.listItemChecks else pure []) >>= fun itemChecks =>
        chain.fieldChecks field.type >>= fun checks =>
          pure ⟨(field.type.schemaType path).defer recursive, itemChecks, checks,
            field.mayBeAbsent && !chain.required⟩ := by
  unfold Field.expression
  split <;> rfl

/-- The type of an expression is the type of the field with the recursive references deferred. -/
theorem Field.expression_eq_ok {field : Field} {path : String} {recursive : List RawText}
    {chain : Chain} {e : Expression} (h : field.expression path recursive chain = .ok e) :
    e.type = (field.type.schemaType path).defer recursive ∧
      e.optional = (field.mayBeAbsent && !chain.required) := by
  rw [Field.expression_def] at h
  obtain ⟨itemChecks, _, h⟩ := bind_eq_ok_iff.1 h
  obtain ⟨checks, _, h⟩ := bind_eq_ok_iff.1 h
  cases h
  exact ⟨rfl, rfl⟩

theorem Field.expression_eq_error {field : Field} {path : String} {recursive : List RawText}
    {chain : Chain} {e : Error} (h : field.expression path recursive chain = .error e) :
    e = .undecodableText .cut ∧
      ∃ pattern, (chain.pattern = some pattern ∨ chain.itemPattern = some pattern) ∧
        pattern.isUndecodable = true := by
  rw [Field.expression_def] at h
  rcases bind_eq_error_iff.1 h with h | ⟨itemChecks, _, h⟩
  · split at h
    · rcases bind_eq_error_iff.1 h with h | ⟨_, _, h⟩
      · obtain ⟨he, pattern, hpattern, hbad⟩ := patternCheck_eq_error h
        exact ⟨he, pattern, Or.inr hpattern, hbad⟩
      · cases h
    · cases h
  · rcases bind_eq_error_iff.1 h with h | ⟨_, _, h⟩
    · rcases bind_eq_error_iff.1 h with h | ⟨_, _, h⟩
      · obtain ⟨he, pattern, hpattern, hbad⟩ := patternCheck_eq_error h
        exact ⟨he, pattern, Or.inl hpattern, hbad⟩
      · cases h
    · cases h

theorem Field.steady_property (path : String) (recursive : List RawText) (field : Field) :
    (field.property path recursive).Steady :=
  field.steady_chain.bind fun _ => (Run.steady_ofExcept _).bind fun _ =>
    (Run.steady_ofExcept _).bind fun _ => Run.steady_pure _

/-- The steps to the property of a field: its chain, its expression, its name. -/
theorem Field.property_outcome (loader : Loader) (path : String) (recursive : List RawText)
    (field : Field) :
    (field.property path recursive loader).outcome =
      (field.chain loader).outcome >>= fun chain =>
        field.expression path recursive chain >>= fun expression =>
          TextUse.boundaries.refuseIf field.name.isUndecodable >>= fun _ =>
            pure ⟨Name.camelCase field.name.shown, expression, field.deprecated⟩ := by
  unfold Field.property
  rw [field.steady_chain.outcome_bind fun chain => (Run.steady_ofExcept _).bind fun _ =>
    (Run.steady_ofExcept _).bind fun _ => Run.steady_pure _]
  simp only [Run.outcome_ofExcept_bind]
  rfl

theorem Field.property_eq_ok {loader : Loader} {path : String} {recursive : List RawText}
    {field : Field} {p : Property}
    (h : (field.property path recursive loader).outcome = .ok p) :
    ∃ chain, (field.chain loader).outcome = .ok chain ∧
      field.expression path recursive chain = .ok p.expression ∧
      p.name = Name.camelCase field.name.shown ∧ p.deprecated = field.deprecated := by
  rw [Field.property_outcome] at h
  obtain ⟨chain, hchain, h⟩ := bind_eq_ok_iff.1 h
  obtain ⟨expression, hexpression, h⟩ := bind_eq_ok_iff.1 h
  obtain ⟨_, _, h⟩ := bind_eq_ok_iff.1 h
  cases h
  exact ⟨chain, hchain, hexpression, rfl, rfl⟩

theorem Field.property_eq_error {loader : Loader} {path : String} {recursive : List RawText}
    {field : Field} {e : Error}
    (h : (field.property path recursive loader).outcome = .error e) :
    (∃ use, e = .undecodableText use) ∧ field.Undecodable loader := by
  rw [Field.property_outcome] at h
  have hchain := field.chain_eq loader
  rcases bind_eq_error_iff.1 h with h | ⟨_, hchain', h⟩
  · rw [hchain] at h
    cases h
  obtain rfl := Except.ok.inj (hchain.symm.trans hchain')
  rcases bind_eq_error_iff.1 h with h | ⟨_, _, h⟩
  · obtain ⟨rfl, hbad⟩ := Field.expression_eq_error h
    exact ⟨⟨_, rfl⟩, Or.inr ⟨_, hchain, hbad⟩⟩
  rcases bind_eq_error_iff.1 h with h | ⟨_, _, h⟩
  · obtain ⟨hbad, rfl⟩ := (refuseIf_eq_error_iff _ _ _).1 h
    exact ⟨⟨_, rfl⟩, Or.inl hbad⟩
  · cases h

/-! ## Messages -/

theorem Message.steady_exported (path : String) (recursive : List RawText) (m : Message Field) :
    (m.exported path recursive).Steady :=
  (Run.Steady.mapM (Field.steady_property path recursive) m.fields).bind fun _ => Run.steady_pure _

theorem Message.exported_outcome (loader : Loader) (path : String) (recursive : List RawText)
    (m : Message Field) :
    (m.exported path recursive loader).outcome =
      (m.fields.mapM fun field => (field.property path recursive loader).outcome) >>=
        fun properties => pure ⟨m.name.shown, m.fullName.shown, properties,
          recursive.contains m.name, m.deprecated⟩ := by
  have hfields := Field.steady_property path recursive
  unfold Message.exported
  rw [(Run.Steady.mapM hfields m.fields).outcome_bind fun _ => Run.steady_pure _,
    Run.Steady.outcome_mapM hfields]
  rfl

/-- The export of a message has a property for each of its fields, in order. -/
theorem Message.exported_eq_ok {loader : Loader} {path : String} {recursive : List RawText}
    {m : Message Field} {e : MessageExport}
    (h : (m.exported path recursive loader).outcome = .ok e) :
    e.name = m.name.shown ∧ e.fullName = m.fullName.shown ∧
      e.recursive = recursive.contains m.name ∧
      List.Forall₂ (fun field p => (field.property path recursive loader).outcome = .ok p)
        m.fields e.properties := by
  rw [Message.exported_outcome] at h
  obtain ⟨properties, hproperties, h⟩ := bind_eq_ok_iff.1 h
  cases h
  exact ⟨rfl, rfl, rfl, (mapM_eq_ok_iff _ _ _).1 hproperties⟩

theorem Message.exported_eq_error {loader : Loader} {path : String} {recursive : List RawText}
    {m : Message Field} {e : Error}
    (h : (m.exported path recursive loader).outcome = .error e) :
    ∃ field ∈ m.fields, (field.property path recursive loader).outcome = .error e := by
  rw [Message.exported_outcome] at h
  rcases bind_eq_error_iff.1 h with h | ⟨_, _, h⟩
  · exact exists_of_mapM_eq_error h
  · cases h

/-! ## Imports -/

theorem Target.import?_message (path : String) (ref : MessageRef) :
    (Target.message ref).import? path =
      if (SchemaType.wellKnown? ref.fullName).isSome || ref.file = path then none
      else some ⟨Name.schema ref.name.shown,
        ModulePath.specifier path ref.file ModulePath.schemaEnding⟩ :=
  rfl

namespace ImportLine

@[simp]
theorem ofImports_nil : ofImports [] = [] := by
  simp [ofImports, sortedTexts]

@[simp]
theorem ofImports_singleton (i : Import) : ofImports [i] = [⟨i.path, [i.name]⟩] := by
  simp [ofImports, sortedTexts, sortedNames, List.eraseDups_cons]

theorem mem_paths_iff (imports : List Import) (path : String) :
    (∃ line ∈ ofImports imports, line.path = path) ↔ ∃ i ∈ imports, i.path = path := by
  simp [ofImports, sortedTexts, List.mem_eraseDups]

/-- The names on a line are those imported from its path. -/
theorem mem_names_iff {imports : List Import} {line : ImportLine} (h : line ∈ ofImports imports)
    (name : RawText) : name ∈ line.names ↔ ⟨name, line.path⟩ ∈ imports := by
  obtain ⟨path, _, rfl⟩ := List.mem_map.1 h
  simp only [sortedNames, List.mem_mergeSort, List.mem_eraseDups, List.mem_map, List.mem_filter,
    decide_eq_true_eq]
  constructor
  · rintro ⟨i, ⟨hi, rfl⟩, rfl⟩
    exact hi
  · intro hi
    exact ⟨_, ⟨hi, rfl⟩, rfl⟩

/-- Every import stands on a line. -/
theorem exists_of_mem {imports : List Import} {i : Import} (h : i ∈ imports) :
    ∃ line ∈ ofImports imports, line.path = i.path ∧ i.name ∈ line.names := by
  obtain ⟨line, hline, hpath⟩ := (mem_paths_iff imports i.path).2 ⟨i, h, rfl⟩
  refine ⟨line, hline, hpath, ?_⟩
  rw [mem_names_iff hline, hpath]
  exact h

end ImportLine

/-- What a module imports is needed by a field, at any depth, or is one of the file's enums. -/
theorem SchemaFile.mem_imports_iff (file : SchemaFile Field) (messages : List (Message Field))
    (i : Import) :
    i ∈ messages.flatMap (Message.imports file.path) ++ file.enumImports ↔
      (∃ m ∈ messages, ∃ nested ∈ m.withNested, ∃ field ∈ nested.fields,
        field.type.import? file.path = some i) ∨
      ∃ e ∈ file.enums,
        ⟨e.name, ModulePath.specifier file.path file.path ModulePath.typesEnding⟩ = i := by
  simp only [List.mem_append, List.mem_flatMap, Message.imports, List.mem_filterMap,
    SchemaFile.enumImports, List.mem_map]

/-! ## Files -/

theorem SchemaFile.selected_subset (options : Options) (file : SchemaFile Field) :
    file.selected options ⊆ file.messages := by
  unfold SchemaFile.selected
  split
  · exact List.Subset.refl _
  · exact List.filter_subset_self _

theorem SchemaFile.steady_schemaModule (options : Options) (file : SchemaFile Field) :
    (file.schemaModule options).Steady := by
  unfold SchemaFile.schemaModule
  refine (Run.steady_ofExcept _).bind fun _ => ?_
  dsimp only
  split
  · exact Run.steady_pure _
  · exact (Run.steady_ofExcept _).bind fun _ => (Run.steady_ofExcept _).bind fun arrangement =>
      (Run.Steady.mapM (Message.steady_exported file.path arrangement.recursive) _).bind fun _ =>
        Run.steady_pure _

namespace SchemaModule

variable {loader : Loader} {options : Options} {file : SchemaFile Field}

/-- The steps of building: select, sort the imports, arrange, export. -/
theorem ofFile_outcome (loader : Loader) (options : Options) (file : SchemaFile Field) :
    (ofFile loader options file).outcome =
      file.checkSelection options >>= fun _ =>
        if (file.selected options).isEmpty && file.enums.isEmpty then pure none
        else ImportLine.checkOrder (file.importLines (file.selected options)) >>= fun _ =>
          Arrangement.ofMessages (file.selected options) file.path >>= fun arrangement =>
            (arrangement.messages.mapM fun m =>
              (m.exported file.path arrangement.recursive loader).outcome) >>= fun exports =>
                pure (some {
                  source := file.sourceName
                  output := ModulePath.output file.path
                  imports := file.importLines (file.selected options)
                  enums := file.enums.map fun e =>
                    ⟨e.name.shown, e.fullName.shown, e.values, e.deprecated⟩
                  messages := exports }) := by
  unfold ofFile SchemaFile.schemaModule
  rw [Run.outcome_ofExcept_bind]
  congr 1
  funext _
  dsimp only
  by_cases hempty : (file.selected options).isEmpty && file.enums.isEmpty
  · rw [if_pos hempty, if_pos hempty]
    rfl
  · rw [if_neg hempty, if_neg hempty, Run.outcome_ofExcept_bind]
    congr 1
    funext _
    rw [Run.outcome_ofExcept_bind]
    congr 1
    funext arrangement
    have hexported := Message.steady_exported file.path arrangement.recursive
    rw [(Run.Steady.mapM hexported _).outcome_bind fun _ => Run.steady_pure _,
      Run.Steady.outcome_mapM hexported]
    rfl

/-- The parts of a module that has been built. -/
theorem ofFile_eq_some {m : SchemaModule}
    (h : (ofFile loader options file).outcome = .ok (some m)) :
    m.output = ModulePath.output file.path ∧
      m.imports = file.importLines (file.selected options) ∧
      ∃ arrangement,
        Arrangement.ofMessages (file.selected options) file.path = .ok arrangement ∧
        List.Forall₂
          (fun x e => (Message.exported file.path arrangement.recursive x loader).outcome = .ok e)
          arrangement.messages m.messages := by
  rw [ofFile_outcome] at h
  obtain ⟨_, _, h⟩ := bind_eq_ok_iff.1 h
  split at h
  · cases h
  · obtain ⟨_, _, h⟩ := bind_eq_ok_iff.1 h
    obtain ⟨arrangement, harrangement, h⟩ := bind_eq_ok_iff.1 h
    obtain ⟨exports, hexports, h⟩ := bind_eq_ok_iff.1 h
    cases h
    exact ⟨rfl, rfl, arrangement, harrangement, (mapM_eq_ok_iff _ _ _).1 hexports⟩

/-- Every export of a message in a module is that of a selected message. -/
theorem exists_exported_of_mem {built : SchemaModule}
    (h : (ofFile loader options file).outcome = .ok (some built)) {e : MessageExport}
    (he : e ∈ built.messages) :
    ∃ m ∈ file.selected options, ∃ recursive,
      (m.exported file.path recursive loader).outcome = .ok e := by
  obtain ⟨_, _, arrangement, harrangement, hexports⟩ := ofFile_eq_some h
  obtain ⟨m, hm, hexport⟩ := exists_of_mem_forall₂ hexports.flip he
  exact ⟨m, Arrangement.subset_of_ofMessages harrangement hm, arrangement.recursive, hexport⟩

/-- There is no module only if there is nothing to generate. -/
theorem ofFile_eq_none (h : (ofFile loader options file).outcome = .ok none) :
    file.selected options = [] ∧ file.enums = [] := by
  rw [ofFile_outcome] at h
  obtain ⟨_, _, h⟩ := bind_eq_ok_iff.1 h
  split at h
  · next hempty => simpa using hempty
  · obtain ⟨_, _, h⟩ := bind_eq_ok_iff.1 h
    obtain ⟨_, _, h⟩ := bind_eq_ok_iff.1 h
    obtain ⟨_, _, h⟩ := bind_eq_ok_iff.1 h
    cases h

/-- Building fails at the name of a message that might be a response, at imported names of which
    only some can be sorted, or at the property of a selected field. -/
theorem ofFile_eq_error_cases {e : Error} (h : (ofFile loader options file).outcome = .error e) :
    (e = .undecodableText .ending ∧ options.includeResponses = false ∧
      ∃ m ∈ file.messages, m.name.isUndecodable = true) ∨
    (e = .undecodableText .sorting ∧
      ∃ line ∈ file.importLines (file.selected options), RawText.mixed line.names = true) ∨
    ∃ recursive, ∃ m ∈ file.selected options, ∃ field ∈ m.fields,
      (field.property file.path recursive loader).outcome = .error e := by
  rw [ofFile_outcome] at h
  rcases bind_eq_error_iff.1 h with h | ⟨_, _, h⟩
  · obtain ⟨hbad, rfl⟩ := (refuseIf_eq_error_iff _ _ _).1 h
    refine Or.inl ⟨rfl, ?_⟩
    simpa using hbad
  split at h
  · cases h
  rcases bind_eq_error_iff.1 h with h | ⟨_, _, h⟩
  · obtain ⟨hbad, rfl⟩ := (refuseIf_eq_error_iff _ _ _).1 h
    exact Or.inr (Or.inl ⟨rfl, List.any_eq_true.1 hbad⟩)
  -- the arrangement never fails, so only the exports are left
  obtain ⟨arrangement, harrangement, hsub, _⟩ :=
    Arrangement.ofMessages_total (file.selected options) file.path
  rw [harrangement] at h
  rcases bind_eq_error_iff.1 h with h | ⟨arrangement', heq, h⟩
  · cases h
  obtain rfl := Except.ok.inj heq
  rcases bind_eq_error_iff.1 h with h | ⟨_, _, h⟩
  · obtain ⟨m, hm, h⟩ := exists_of_mapM_eq_error h
    obtain ⟨field, hfield, h⟩ := Message.exported_eq_error h
    exact Or.inr (Or.inr ⟨arrangement.recursive, m, hsub hm, field, hfield, h⟩)
  · cases h

/-- Building fails only at a text that cannot be decoded: the name of a message that might be a
    response, imported names of which only some can be sorted, or a text of a selected field. -/
theorem ofFile_eq_error {e : Error} (h : (ofFile loader options file).outcome = .error e) :
    (∃ use, e = .undecodableText use) ∧
      ((options.includeResponses = false ∧ ∃ m ∈ file.messages, m.name.isUndecodable = true) ∨
        (∃ line ∈ file.importLines (file.selected options), RawText.mixed line.names = true) ∨
        ∃ m ∈ file.selected options, ∃ field ∈ m.fields, field.Undecodable loader) := by
  rcases ofFile_eq_error_cases h with
    ⟨rfl, hbad⟩ | ⟨rfl, hbad⟩ | ⟨_, m, hm, field, hfield, hproperty⟩
  · exact ⟨⟨_, rfl⟩, Or.inl hbad⟩
  · exact ⟨⟨_, rfl⟩, Or.inr (Or.inl hbad)⟩
  · obtain ⟨huse, hbad⟩ := Field.property_eq_error hproperty
    exact ⟨huse, Or.inr (Or.inr ⟨m, hm, field, hfield, hbad⟩)⟩

end SchemaModule

end ProtoSchema
