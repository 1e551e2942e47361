import ProtoSchema.Proofs.CommandLine.Session
import ProtoSchema.Proofs.Module.Structure
import ProtoSchema.Wire.Response

set_option autoImplicit false

/-! # Runs without the definitions of rules

Where the definitions of the validation rules are missing, no field has rules. So a request has the
response of the request whose fields have lost their rules (`GeneratorRequest.response_dropRules`),
failures included.

The user is told that the definitions are missing when somebody asks for them for the first time,
and asking is what building a field with options does (`Field.warns_chain`). That nobody is told
again is a matter of the state of the loader: each step of a run, be it a field or a whole request,
writes the notice only where it has yet to be written (`Run.Steady.balance`), and so does a process
that serves one request after the other. Which fields a request gets to is said by
`GeneratorRequest.Builds`: those that come before the end, in the order of files, arranged messages
and fields. -/

namespace ProtoSchema

/-! ## Fields without rules -/

/-- Options from which the rules have been removed. Whether there are options at all stays. -/
def dropRules (options : Option FieldOptions) : Option FieldOptions :=
  options.map fun o => { o with rules := none }

theorem Field.outcome_chain_missing (field : Field) :
    (field.chain false).outcome = .ok .empty := by
  rw [field.chain_eq false]
  cases field.rules? <;> rfl

theorem Field.outcome_chain_dropRules (field : Field) :
    ((field.editOptions dropRules).chain true).outcome = .ok .empty := by
  have hrules : (field.editOptions dropRules).rules? = none := by
    unfold Field.rules? Field.editOptions dropRules
    cases field.options <;> rfl
  rw [(field.editOptions dropRules).chain_eq true, hrules]
  rfl

theorem Field.deprecated_dropRules (field : Field) :
    (field.editOptions dropRules).deprecated = field.deprecated := by
  unfold Field.deprecated Field.editOptions dropRules
  cases field.options <;> rfl

theorem Field.property_dropRules (field : Field) (path : String) (recursive : List RawText) :
    ((field.editOptions dropRules).property path recursive true).outcome =
      (field.property path recursive false).outcome := by
  rw [Field.property_outcome, Field.property_outcome, Field.outcome_chain_dropRules,
    Field.outcome_chain_missing, Field.deprecated_dropRules]
  rfl

theorem SchemaModule.eachProperty_id (m : SchemaModule) : m.eachProperty id = m := by
  have hmessage : MessageExport.eachProperty id = id := by
    funext e
    simp [MessageExport.eachProperty]
  simp [SchemaModule.eachProperty, hmessage]

theorem SchemaModule.ofFile_dropRules (options : Options) (file : SchemaFile Field) :
    (ofFile true options (file.eachField (Field.editOptions dropRules))).outcome =
      (ofFile false options file).outcome := by
  have hview : ∀ x : Except Error (Option SchemaModule),
      x.map (Option.map (eachProperty id)) = x := by
    intro x
    have hid : eachProperty id = id := funext eachProperty_id
    cases x <;> simp [Except.map, hid]
  have hsame : (ofFile true options
        (file.eachField (Field.editOptions dropRules))).outcome.map (Option.map (eachProperty id)) =
      (ofFile false options file).outcome.map (Option.map (eachProperty id)) :=
    ofFile_eachField options (fun _ => rfl)
      fun m _ field _ recursive => by rw [field.property_dropRules]
  rwa [hview, hview] at hsame

/-! ## Models without rules -/

namespace Model

variable (f : Field → Field)

/-- Replace the fields of a file of a catalogue. -/
def eachEntry (entry : String × SchemaFile Field) : String × SchemaFile Field :=
  (entry.1, entry.2.eachField f)

theorem catalogInsert_eachField (file : SchemaFile Field)
    (entries : List (String × SchemaFile Field)) :
    catalogInsert (file.eachField f) (entries.map (eachEntry f)) =
      (catalogInsert file entries).map (eachEntry f) := by
  induction entries with
  | nil => rfl
  | cons entry entries ih =>
    rw [List.map_cons, catalogInsert, catalogInsert, ih]
    show (if entry.1 = file.sourceName then _ else _) = _
    split <;> rfl

theorem foldl_catalogInsert_eachField (files : List (SchemaFile Field))
    (entries : List (String × SchemaFile Field)) :
    (files.map (SchemaFile.eachField f)).foldl (fun entries file => catalogInsert file entries)
        (entries.map (eachEntry f)) =
      (files.foldl (fun entries file => catalogInsert file entries) entries).map
        (eachEntry f) := by
  induction files generalizing entries with
  | nil => rfl
  | cons file files ih =>
    rw [List.map_cons, List.foldl_cons, List.foldl_cons, catalogInsert_eachField, ih]

theorem lookup_eachEntry (entries : List (String × SchemaFile Field)) (name : String) :
    (entries.map (eachEntry f)).lookup name =
      (entries.lookup name).map (SchemaFile.eachField f) := by
  induction entries with
  | nil => rfl
  | cons entry entries ih =>
    rw [List.map_cons, eachEntry, List.lookup_cons, List.lookup_cons, ih]
    split <;> rfl

/-- Files are found regardless of options. -/
theorem file_editOptions (edit : Option FieldOptions → Option FieldOptions) (model : Model)
    (name : RawText) :
    (model.editOptions edit).file name =
      (model.file name).map (SchemaFile.eachField (Field.editOptions edit)) := by
  have hcatalog : (model.editOptions edit).catalog =
      model.catalog.map (eachEntry (Field.editOptions edit)) :=
    foldl_catalogInsert_eachField (Field.editOptions edit) model.files []
  have hfile? : ∀ s, (model.editOptions edit).file? s =
      (model.file? s).map (SchemaFile.eachField (Field.editOptions edit)) := by
    intro s
    unfold file?
    rw [hcatalog, lookup_eachEntry, List.find?_map]
    cases model.catalog.lookup s with
    | some file => rfl
    | none =>
      show Option.map Prod.snd (Option.map _ (model.catalog.find? fun entry => _)) =
        Option.map _ (Option.map Prod.snd (model.catalog.find? fun entry => _))
      rw [Option.map_map, Option.map_map]
      rfl
  unfold file
  cases name with
  | undecodable bytes => rfl
  | text s =>
    have hbind : ∀ m : Model, (RawText.text s).decoded?.bind m.file? = m.file? s := fun _ => rfl
    rw [hbind, hbind, hfile?]
    cases model.file? s <;> rfl

end Model

/-! ## Responses -/

theorem Generator.generateFile_dropRules (model : Model) (options : Options) (name : RawText) :
    (generateFile ⟨model.editOptions dropRules, options⟩ name true).outcome =
      (generateFile ⟨model, options⟩ name false).outcome := by
  have hsource : ∀ file : SchemaFile Field,
      (file.eachField (Field.editOptions dropRules)).sourceName = file.sourceName := fun _ => rfl
  rw [generateFile_outcome, generateFile_outcome]
  dsimp only
  rw [Model.file_editOptions]
  change (SchemaFile.eachField (Field.editOptions dropRules) <$> model.file name >>= _) = _
  rw [bind_map_left]
  simp only [hsource, SchemaModule.ofFile_dropRules]

theorem Generator.outcome_run_dropRules (model : Model) (options : Options)
    (names : List RawText) :
    (run ⟨model.editOptions dropRules, options⟩ names true).outcome =
      (run ⟨model, options⟩ names false).outcome := by
  rw [outcome_run, outcome_run]
  simp only [generateFile_dropRules]

namespace GeneratorRequest

/-- The request without the rules of any field. -/
def dropRules (request : GeneratorRequest) : GeneratorRequest :=
  { request with files := request.files.map (FileDescriptor.editOptions ProtoSchema.dropRules) }

theorem generator_dropRules (request : GeneratorRequest) :
    request.dropRules.generator = request.generator.map fun g =>
      ⟨g.model.editOptions ProtoSchema.dropRules, g.options⟩ := by
  have hoptions : request.dropRules.options = request.options := rfl
  have hfiles : request.dropRules.files =
      request.files.map (FileDescriptor.editOptions ProtoSchema.dropRules) := rfl
  unfold generator
  rw [hoptions, hfiles, Model.build_editOptions]
  cases request.options with
  | error e => rfl
  | ok options => cases Model.build request.files <;> rfl

theorem outcome_generation_dropRules (request : GeneratorRequest) :
    (request.dropRules.generation true).outcome = (request.generation false).outcome := by
  unfold generation
  rw [generator_dropRules]
  cases request.generator with
  | error e => rfl
  | ok g => exact Generator.outcome_run_dropRules g.model g.options request.names

/-- Missing definitions are the same as no rules. -/
theorem response_dropRules (request : GeneratorRequest) :
    (request.answer false).1 = (request.dropRules.answer true).1 := by
  rw [answer_fst, answer_fst, outcome_generation_dropRules]

end GeneratorRequest

/-! ## Fields that are built -/

/-- Building the module of a file gets to a field: nothing stops it before, neither at the names of
    the messages, nor at the imports, nor at a field of the messages that come first. -/
def SchemaModule.Builds (loader : Loader) (options : Options) (file : SchemaFile Field)
    (field : Field) : Prop :=
  file.checkSelection options = .ok () ∧
    ImportLine.checkOrder (file.importLines (file.selected options)) = .ok () ∧
    ∃ arrangement, Arrangement.ofMessages (file.selected options) file.path = .ok arrangement ∧
      ∃ m, Reaches (fun m => (Message.exported file.path arrangement.recursive m loader).outcome)
          arrangement.messages m ∧
        Reaches (fun field => (Field.property file.path arrangement.recursive field loader).outcome)
          m.fields field

/-- A run over the named files gets to a field. Files of dependencies are passed over. -/
def Generator.Builds (g : Generator) (loader : Loader) (names : List RawText) (field : Field) :
    Prop :=
  ∃ name file, Reaches (fun name => (g.generateFile name loader).outcome) names name ∧
    g.model.file name = .ok file ∧ ModulePath.isThirdParty file.sourceName = false ∧
    SchemaModule.Builds loader g.options file field

/-- The generation that a request asks for gets to a field. -/
def GeneratorRequest.Builds (loader : Loader) (request : GeneratorRequest) (field : Field) : Prop :=
  ∃ g, request.generator = .ok g ∧ g.Builds loader request.names field

/-! ## Who is told -/

/-- A field with options asks for the definitions of the rules, whatever the options hold. -/
theorem Field.warns_chain (field : Field) : field.chain.Warns ↔ field.options.isSome = true := by
  unfold Field.chain
  cases field.options with
  | none => simp [Run.not_warns_pure]
  | some options => simp [Run.steady_load.warns_bind, Run.warns_load]

theorem Field.warns_property (path : String) (recursive : List RawText) (field : Field) :
    (field.property path recursive).Warns ↔ field.options.isSome = true := by
  unfold Field.property
  rw [field.steady_chain.warns_bind, field.warns_chain, or_iff_left]
  simp only [Run.warns_ofExcept_bind, Run.not_warns_pure, and_false, exists_false,
    not_false_eq_true]

theorem Message.warns_exported (path : String) (recursive : List RawText) (m : Message Field) :
    (m.exported path recursive).Warns ↔
      ∃ field, Reaches (fun field => (Field.property path recursive field false).outcome) m.fields
        field ∧ field.options.isSome = true := by
  have hfields := Field.steady_property path recursive
  unfold Message.exported
  rw [(Run.Steady.mapM hfields m.fields).warns_bind_pure, Run.Steady.warns_mapM hfields]
  simp only [Field.warns_property]

/-- Building a module tells the user if it gets to a field with options. -/
theorem SchemaFile.warns_schemaModule (options : Options) (file : SchemaFile Field) :
    (file.schemaModule options).Warns ↔
      ∃ field, SchemaModule.Builds false options file field ∧ field.options.isSome = true := by
  unfold SchemaFile.schemaModule
  rw [Run.warns_ofExcept_bind]
  dsimp only
  by_cases hempty : (file.selected options).isEmpty && file.enums.isEmpty
  · simp only [if_pos hempty, Run.not_warns_pure, and_false, exists_false, false_iff]
    -- without messages there is no field to get to
    rintro ⟨field, ⟨_, _, arrangement, harrangement, m, hm, _⟩, _⟩
    obtain ⟨arrangement', htotal, hsub, _⟩ :=
      Arrangement.ofMessages_total (file.selected options) file.path
    obtain rfl := Except.ok.inj (harrangement.symm.trans htotal)
    have hselected := hsub hm.mem
    rw [List.isEmpty_iff.1 (Bool.and_eq_true_iff.1 hempty).1] at hselected
    cases hselected
  · have hexported := Message.steady_exported file.path
    simp only [if_neg hempty, Run.warns_ofExcept_bind,
      (Run.Steady.mapM (hexported _) _).warns_bind_pure, Run.Steady.warns_mapM (hexported _),
      Message.warns_exported]
    constructor
    · rintro ⟨_, hselection, _, horder, arrangement, harrangement, m, hm, field, hfield, hoptions⟩
      exact ⟨field, ⟨hselection, horder, arrangement, harrangement, m, hm, hfield⟩, hoptions⟩
    · rintro ⟨field, ⟨hselection, horder, arrangement, harrangement, m, hm, hfield⟩, hoptions⟩
      exact ⟨(), hselection, (), horder, arrangement, harrangement, m, hm, field, hfield, hoptions⟩

theorem SchemaFile.not_warns_emit (options : Options) (file : SchemaFile Field)
    (built : Option SchemaModule) : ¬ (file.emit options built).Warns := by
  cases built with
  | none =>
    have hnotice : Notice.skippedEmpty file.sourceName ≠ .missingBindings := nofun
    unfold emit
    rw [(Run.steady_tellIf hnotice _).warns_bind_pure]
    exact Run.not_warns_tellIf hnotice _
  | some m =>
    have hnotice : Notice.generating m.output file.package ≠ .missingBindings := nofun
    unfold emit
    simp only [(Run.steady_tellIf hnotice _).warns_bind, Run.not_warns_tellIf hnotice,
      Run.warns_ofExcept_bind, Run.not_warns_pure, and_false, exists_false, or_false,
      not_false_eq_true]

namespace Generator

variable (g : Generator)

theorem warns_generateFile (name : RawText) :
    (g.generateFile name).Warns ↔
      ∃ file, g.model.file name = .ok file ∧ ModulePath.isThirdParty file.sourceName = false ∧
        (file.schemaModule g.options).Warns := by
  unfold generateFile
  rw [Run.warns_ofExcept_bind]
  refine exists_congr fun file => and_congr_right fun _ => ?_
  have hnotice : Notice.skippedThirdParty file.sourceName ≠ .missingBindings := nofun
  by_cases hthird : ModulePath.isThirdParty file.sourceName
  · rw [if_pos hthird, (Run.steady_tellIf hnotice _).warns_bind_pure]
    simp [hthird, Run.not_warns_tellIf hnotice]
  · rw [if_neg hthird, (file.steady_schemaModule g.options).warns_bind]
    simp [hthird, file.not_warns_emit]

/-- A run tells the user if it gets to a field with options. -/
theorem warns_whole (names : List RawText) :
    (g.whole names).Warns ↔ ∃ field, g.Builds false names field ∧ field.options.isSome = true := by
  rw [whole_eq, (Run.Steady.mapM g.steady_generateFile names).warns_bind_pure,
    Run.Steady.warns_mapM g.steady_generateFile]
  simp only [g.warns_generateFile, SchemaFile.warns_schemaModule]
  constructor
  · rintro ⟨name, hname, file, hfile, hthird, field, hfield, hoptions⟩
    exact ⟨field, ⟨name, file, hname, hfile, hthird, hfield⟩, hoptions⟩
  · rintro ⟨field, ⟨name, file, hname, hfile, hthird, hfield⟩, hoptions⟩
    exact ⟨name, hname, file, hfile, hthird, field, hfield, hoptions⟩

end Generator

namespace GeneratorResponse

theorem not_warns_respond (outcome : Except Error (List OutputFile)) :
    ¬ (respond outcome).Warns := by
  cases outcome with
  | ok files => exact Run.not_warns_pure _
  | error e =>
    have hnotice : Notice.details e ≠ .missingBindings := nofun
    show ¬ (Run.tell (.details e) >>= fun _ => pure (ofOutcome (.error e))).Warns
    rw [(Run.steady_tell hnotice).warns_bind_pure]
    exact Run.not_warns_tell hnotice

end GeneratorResponse

namespace GeneratorRequest

theorem warns_process (request : GeneratorRequest) :
    request.process.Warns ↔
      ∃ field, request.Builds false field ∧ field.options.isSome = true := by
  rw [process_eq, request.steady_whole.attempt.warns_bind, or_iff_left]
  · show request.whole.Warns ↔ _
    unfold whole
    rw [Run.warns_ofExcept_bind]
    simp only [Generator.warns_whole]
    constructor
    · rintro ⟨g, hg, field, hfield, hoptions⟩
      exact ⟨field, ⟨g, hg, hfield⟩, hoptions⟩
    · rintro ⟨field, ⟨g, hg, hfield⟩, hoptions⟩
      exact ⟨g, hg, field, hfield, hoptions⟩
  · rintro ⟨outcome, _, h⟩
    exact GeneratorResponse.not_warns_respond outcome h

end GeneratorRequest

/-! ## Processes -/

theorem Wire.steady_plugin (bytes : List UInt8) : (Wire.plugin bytes).Steady :=
  Run.steady_load.bind fun _ => (Run.steady_ofExcept _).bind fun request =>
    request.steady_process.bind fun _ => Run.steady_pure _

namespace GeneratorRequest

/-- Serve requests one after the other. -/
def processAll (requests : List GeneratorRequest) : Run (List GeneratorResponse) :=
  requests.mapM process

/-- A process that serves requests is steady, since serving one of them is. -/
theorem steady_processAll (requests : List GeneratorRequest) : (processAll requests).Steady :=
  Run.Steady.mapM steady_process requests

/-- Every request gets the response that it would get by itself. -/
theorem outcome_processAll (requests : List GeneratorRequest) (loader : Loader) :
    (processAll requests loader).outcome =
      .ok (requests.map fun request => (request.answer loader).1) := by
  unfold processAll
  rw [Run.Steady.outcome_mapM steady_process, mapM_eq_ok_iff, List.forall₂_map_right_iff,
    List.forall₂_same]
  exact fun request _ => rfl

theorem warns_processAll (requests : List GeneratorRequest) :
    (processAll requests).Warns ↔ ∃ request ∈ requests, request.process.Warns := by
  have hanswers : ∀ request : GeneratorRequest, (request.process (.idle false)).outcome =
      .ok (request.answer false).1 := fun _ => rfl
  unfold processAll
  rw [Run.Steady.warns_mapM steady_process]
  simp only [reaches_iff_mem hanswers]

/-- **Missing definitions of rules.** A fresh process without the definitions gives a request the
    response that one with them gives to the request without the rules of any field, and so it does
    with requests one after the other. It says at most once that they are missing, whatever it is
    asked, and it says so if and only if it builds a field with options. A process that runs as a
    plugin or from the command line says it at most once, too. -/
theorem missing_bindings_are_no_rules :
    (∀ request : GeneratorRequest, (request.answer false).1 = (request.dropRules.answer true).1) ∧
    (∀ requests : List GeneratorRequest,
      let report := processAll requests (.idle false)
      report.outcome = .ok (requests.map fun request => (request.dropRules.answer true).1) ∧
        report.notices.count .missingBindings ≤ 1 ∧
        (.missingBindings ∈ report.notices ↔ ∃ request ∈ requests, ∃ field,
          request.Builds false field ∧ field.options.isSome = true)) ∧
    (∀ bytes : List UInt8, (Wire.plugin bytes (.idle false)).notices.count .missingBindings ≤ 1) ∧
    ∀ (a : CommandLine.Arguments) (s : CommandLine.Surroundings),
      (a.plan s false).notices.count .missingBindings ≤ 1 := by
  refine ⟨response_dropRules, fun requests => ⟨?_, ?_, ?_⟩, fun bytes => ?_, fun a s => ?_⟩
  · rw [outcome_processAll]
    simp only [response_dropRules]
  · exact (steady_processAll requests).count_le (.idle false)
  · show (processAll requests).Warns ↔ _
    simp only [warns_processAll, warns_process]
  · exact (Wire.steady_plugin bytes).count_le (.idle false)
  · exact a.count_plan s false

/-- Two requests to build a file of which two fields have options. The second one asks for a file
    that is not there as well. Each would tell by itself that the definitions are missing; together
    they tell it once. -/
theorem missing_bindings_are_no_rules_of_two_requests :
    let deprecated : FieldOptions := { deprecated := true }
    let bounded : FieldOptions := { rules := some { kind := some (.string { minLen := some 3 }) } }
    let files : List FileDescriptor :=
      [{ name := "user.proto", messages := [{ name := "User", fields :=
        [{ name := "age", number := 1, kind := .scalar .int32 },
         { name := "login", number := 2, kind := .scalar .string, options := some deprecated },
         { name := "email", number := 3, kind := .scalar .string, options := some bounded }] }] }]
    let good : GeneratorRequest := { names := ["user.proto"], files }
    let bad : GeneratorRequest := { names := ["user.proto", "order.proto"], files }
    let built : SchemaModule :=
      ⟨"user.proto", "user_zod.ts", [], [], [⟨"User", "User",
        [⟨"age", ⟨.scalar .int32, [], [], true⟩, false⟩,
         ⟨"login", ⟨.scalar .string, [], [], true⟩, true⟩,
         ⟨"email", ⟨.scalar .string, [], [], true⟩, false⟩], false, false⟩]⟩
    let report := processAll [good, bad] (.idle false)
    .missingBindings ∈ (good.answer false).2 ∧ .missingBindings ∈ (bad.answer false).2 ∧
      report.outcome = .ok [⟨none, 1, [⟨"user_zod.ts", built.text⟩]⟩,
        ⟨some "ValueError: Could not find descriptor for order.proto", 1, []⟩] ∧
      report.notices.count .missingBindings = 1 := by
  intro deprecated bounded files good bad built report
  let login : Field := ⟨"login", 2, .single (.scalar .string), false, some deprecated⟩
  let user : Message Field := ⟨"User", "User", "user", ⟨0, [0]⟩,
    [⟨"age", 1, .single (.scalar .int32), false, none⟩, login,
     ⟨"email", 3, .single (.scalar .string), false, some bounded⟩], [], [], false, false⟩
  let schema : SchemaFile Field := ⟨"user.proto", "user", "", [], [user]⟩
  have hmodel : Model.build files = .ok ⟨[schema]⟩ := by rfl
  have hgood : good.generator = .ok ⟨⟨[schema]⟩, {}⟩ := by rfl
  have hbad : bad.generator = .ok ⟨⟨[schema]⟩, {}⟩ := by rfl
  have hselected : schema.selected {} = [user] := by cbv
  have himports : schema.importLines [user] = [] := ImportLine.ofImports_nil
  have hbuilt : (SchemaModule.ofFile false {} schema).outcome = .ok (some built) := by
    rw [SchemaModule.ofFile_outcome, hselected, himports, Arrangement.ofMessages_single]
    dsimp only [built, schema, user, login, deprecated, bounded]
    rfl
  have hfile : (Model.mk [schema]).file "user.proto" = .ok schema := by rfl
  have hthird : ModulePath.isThirdParty "user.proto" = false := by decide
  have hfirst : (Generator.generateFile ⟨⟨[schema]⟩, {}⟩ "user.proto" false).outcome =
      .ok (some ⟨"user_zod.ts", built.text⟩) :=
    (Generator.generateFile_eq_some_iff _).2 ⟨schema, built, hfile, hthird, hbuilt, rfl, rfl⟩
  have hsecond : (Generator.generateFile ⟨⟨[schema]⟩, {}⟩ "order.proto" false).outcome =
      .error (.unknownFile "order.proto") := by
    rw [Generator.generateFile_outcome]
    decide
  have hgoodRun : (good.generation false).outcome = .ok [⟨"user_zod.ts", built.text⟩] := by
    unfold generation
    rw [hgood]
    exact (Generator.outcome_run_eq_ok_iff _).2 ⟨[some _], .cons hfirst .nil, rfl⟩
  have hbadRun : (bad.generation false).outcome = .error (.unknownFile "order.proto") := by
    unfold generation
    rw [hbad]
    exact (Generator.outcome_run_eq_error_iff _).2
      ⟨["user.proto"], "order.proto", [], rfl, ⟨_, [some _], .cons hfirst .nil, rfl⟩, hsecond⟩
  have herror : (Error.unknownFile "order.proto").report =
      "ValueError: Could not find descriptor for order.proto" := by decide
  -- both requests get to the first field with options
  have harrangement : Arrangement.ofMessages (schema.selected {}) "user" = .ok ⟨[user], []⟩ := by
    rw [hselected, Arrangement.ofMessages_single]
    rfl
  have hlogin : SchemaModule.Builds false {} schema login :=
    ⟨by decide, by cbv, _, harrangement, user, ⟨[], [], rfl, [], rfl⟩,
      ⟨[_], _, rfl, [_], by rfl⟩⟩
  have hreached : good.Builds false login ∧ bad.Builds false login :=
    ⟨⟨_, hgood, "user.proto", schema, ⟨[], [], rfl, [], rfl⟩, hfile, hthird, hlogin⟩,
      ⟨_, hbad, "user.proto", schema, ⟨[], ["order.proto"], rfl, [], rfl⟩, hfile, hthird, hlogin⟩⟩
  obtain ⟨hresponse, hrequests, _⟩ := missing_bindings_are_no_rules
  obtain ⟨houtcome, hcount, htold⟩ := hrequests [good, bad]
  have hone := htold.2 ⟨good, List.mem_cons_self, login, hreached.1, rfl⟩
  refine ⟨(warns_process good).2 ⟨login, hreached.1, rfl⟩,
    (warns_process bad).2 ⟨login, hreached.2, rfl⟩, ?_, ?_⟩
  · rw [houtcome, List.map_cons, List.map_cons, List.map_nil, ← hresponse, ← hresponse,
      answer_fst, answer_fst, hgoodRun, hbadRun, GeneratorResponse.ofOutcome,
      GeneratorResponse.ofOutcome, herror]
  · exact Nat.le_antisymm hcount (List.count_pos_iff.2 hone)

end GeneratorRequest

end ProtoSchema
