import ProtoSchema.Proofs.CommandLine.Session

set_option autoImplicit false

/-! # The plugin and the command line agree

Sets of descriptors can be handed to the program in two ways: on the command line, or in a generator
request. Both ways lead to the same generation (`Inputs.answer_request`,
`Arguments.outcome_session`), and both make all of it or nothing. On the command line the files come
first from several sets, where the first file of each name counts (`load_of_sets`). -/

namespace ProtoSchema

/-- Dropping the members with a repeated key leaves each key once, in order of first occurrence. -/
theorem map_eraseDupsBy {α β : Type} [DecidableEq β] (key : α → β) (l : List α) :
    (l.eraseDupsBy fun a b => key a = key b).map key = (l.map key).eraseDups := by
  match l with
  | [] => rfl
  | a :: l =>
    rw [List.eraseDupsBy_cons, List.map_cons, List.map_cons, List.eraseDups_cons,
      map_eraseDupsBy key, List.filter_map]
    congr 3
    exact List.filter_congr fun b _ => by simp [Bool.beq_eq_decide_eq]
termination_by l.length
decreasing_by exact Nat.lt_succ_of_le (List.length_filter_le _ _)

namespace CommandLine

/-! ## Loading sets of descriptors -/

/-- The files of some sets: the first file of each name, and all names. -/
def Inputs.ofSets (sets : List (List FileDescriptor)) : Inputs :=
  ⟨sets.flatten.eraseDupsBy fun a b => a.name = b.name,
    (sets.flatten.map FileDescriptor.name).eraseDups⟩

/-- A path leads to a set of descriptors. -/
def Surroundings.Holds (s : Surroundings) (path : String) (set : List FileDescriptor) : Prop :=
  isSchemaFile path = false ∧
    ∃ bytes, s.read path = .ok bytes ∧ Wire.decodeFileSet bytes = .ok set

theorem Inputs.names_ofSets (sets : List (List FileDescriptor)) :
    (Inputs.ofSets sets).names = (Inputs.ofSets sets).files.map FileDescriptor.name :=
  (map_eraseDupsBy FileDescriptor.name sets.flatten).symm

/-- Adding files appends those with a new name, the first of each name. -/
theorem Inputs.addFiles_eq (known files : List FileDescriptor) :
    Inputs.addFiles known files =
      known ++ (files.filter fun file => !known.any fun k => k.name = file.name).eraseDupsBy
        fun a b => a.name = b.name := by
  induction files generalizing known with
  | nil => simp [Inputs.addFiles]
  | cons file files ih =>
    rw [Inputs.addFiles, List.foldl_cons, ← Inputs.addFiles, ih]
    by_cases hknown : known.any fun k => k.name = file.name
    · rw [if_pos hknown, List.filter_cons_of_neg (by simpa using hknown)]
    · rw [if_neg hknown, List.filter_cons_of_pos (by simpa using hknown), List.eraseDupsBy_cons,
        List.filter_filter, List.append_assoc, List.singleton_append]
      congr 3
      refine List.filter_congr fun b _ => ?_
      simp [eq_comm, Bool.and_comm]

theorem outcome_readSets {s : Surroundings} {paths : List String}
    {sets : List (List FileDescriptor)} (h : List.Forall₂ s.Holds paths sets) (inputs : Inputs)
    (loader : Loader) :
    (readSets s.read inputs paths loader).outcome =
      .ok ⟨Inputs.addFiles inputs.files sets.flatten,
        inputs.names ++ sets.flatten.map FileDescriptor.name⟩ := by
  induction h generalizing inputs loader with
  | nil => simp [readSets, Inputs.addFiles, pure, Run.ofExcept]
  | cons hset _ ih =>
    obtain ⟨_, bytes, hread, hdecode⟩ := hset
    rw [readSets, Run.bind_eq_of_ok (Run.outcome_load loader)]
    dsimp only
    rw [Run.outcome_ofExcept_bind, hread]
    show ((Run.ofExcept (Wire.decodeFileSet bytes) >>= fun files => _) _).outcome = _
    rw [Run.outcome_ofExcept_bind, hdecode]
    show (readSets s.read _ _ _).outcome = _
    rw [ih]
    simp [Inputs.addSet, Inputs.addFiles]

/-- Sets of descriptors are loaded without the compiler. -/
theorem load_of_sets {s : Surroundings} {paths : List String} {sets : List (List FileDescriptor)}
    (h : List.Forall₂ s.Holds paths sets) (includePaths : List (Option String))
    (loader : Loader) :
    (load s includePaths paths loader).outcome = .ok (.ofSets sets) := by
  have hplain : ∀ path ∈ paths, isSchemaFile path = false := by
    intro path hpath
    obtain ⟨_, _, hset⟩ := exists_of_mem_forall₂ h hpath
    exact hset.1
  have hschemas : paths.filter isSchemaFile = [] := by
    simpa using hplain
  have hsets : (paths.filter fun path => !isSchemaFile path) = paths := by
    simpa using hplain
  unfold load
  dsimp only
  rw [hschemas, hsets, outcome_readSets h, Inputs.addFiles_eq]
  dsimp only [List.isEmpty_nil]
  rw [if_pos rfl, outcome_readSets h, Inputs.addFiles_eq]
  simp only [List.any_nil, Bool.not_false, List.filter_true, List.nil_append]
  rfl

/-! ## Generation -/

/-- Generation of all named files succeeds, with the given outputs in order. -/
def Inputs.Yields (inputs : Inputs) (loader : Loader) (responses : Bool)
    (outputs : List OutputFile) : Prop :=
  ∃ model, Model.build inputs.files = .ok model ∧
    Generator.Yields { model, options := { includeResponses := responses } } loader inputs.names
      outputs

/-- Generation fails: there is no model, or one of the named files cannot be generated although
    those before it can. -/
def Inputs.FailsWith (inputs : Inputs) (loader : Loader) (responses : Bool) (e : Error) : Prop :=
  Model.build inputs.files = .error e ∨
    ∃ model, Model.build inputs.files = .ok model ∧
      Generator.FailsWith { model, options := { includeResponses := responses } } loader
        inputs.names e

/-- The outcome of generation. -/
def Inputs.generated (inputs : Inputs) (loader : Loader) (responses : Bool) :
    Except Error (List OutputFile) := do
  let model ← Model.build inputs.files
  (Generator.run { model, options := { includeResponses := responses } } inputs.names
    loader).outcome

theorem Inputs.generated_eq_ok_iff {inputs : Inputs} {loader : Loader} {responses : Bool}
    {outputs : List OutputFile} :
    inputs.generated loader responses = .ok outputs ↔ inputs.Yields loader responses outputs := by
  unfold Inputs.generated Inputs.Yields
  simp only [bind_eq_ok_iff, Generator.outcome_run_eq_ok_iff]

theorem Inputs.generated_eq_error_iff {inputs : Inputs} {loader : Loader} {responses : Bool}
    {e : Error} :
    inputs.generated loader responses = .error e ↔ inputs.FailsWith loader responses e := by
  unfold Inputs.generated Inputs.FailsWith
  simp only [bind_eq_error_iff, Generator.outcome_run_eq_error_iff]

/-- The request for the same files with the same options. -/
def Inputs.request (inputs : Inputs) (responses : Bool) : GeneratorRequest :=
  { names := inputs.names
    parameter := .text (if responses then "include_responses=true" else "include_responses=false")
    files := inputs.files }

theorem Inputs.options_request (inputs : Inputs) (responses : Bool) :
    (inputs.request responses).options = .ok { includeResponses := responses } := by
  cases responses <;> rfl

theorem Inputs.outcome_request (inputs : Inputs) (responses : Bool) (loader : Loader) :
    ((inputs.request responses).generation loader).outcome =
      inputs.generated loader responses := by
  have hfiles : (inputs.request responses).files = inputs.files := rfl
  unfold GeneratorRequest.generation GeneratorRequest.generator Inputs.generated
  rw [inputs.options_request responses, hfiles]
  cases Model.build inputs.files <;> rfl

theorem Inputs.answer_request (inputs : Inputs) (responses : Bool) (loader : Loader) :
    ((inputs.request responses).answer loader).1 =
      .ofOutcome (inputs.generated loader responses) := by
  rw [GeneratorRequest.answer_fst, inputs.outcome_request]

theorem Arguments.outcome_generation (a : Arguments) (inputs : Inputs) (loader : Loader) :
    (a.generation inputs loader).outcome = inputs.generated loader a.includeResponses := by
  unfold Arguments.generation Inputs.generated
  cases Model.build inputs.files with
  | error e => rfl
  | ok model =>
    show (Generator.run ⟨model, ⟨a.includeResponses, _⟩⟩ inputs.names loader).outcome =
      (Generator.run ⟨model, ⟨a.includeResponses, false⟩⟩ inputs.names loader).outcome
    rw [Generator.outcome_run, Generator.outcome_run]
    simp only [Generator.generateFile_outcome_verbose]

/-! ## The two answers -/

namespace Arguments

variable {a : Arguments} {s : Surroundings} {inputs : Inputs} {loader : Loader}

/-- What loading has asked for has no bearing on generation. -/
theorem outcome_session (hload : (load s a.searchPaths a.files loader).outcome = .ok inputs) :
    (a.session s loader).outcome = inputs.generated loader a.includeResponses := by
  have hloading : (loading s a.searchPaths a.files loader).outcome = .ok inputs := hload
  unfold session
  rw [(steady_loading s a.searchPaths a.files).outcome_bind a.steady_whole, hloading]
  show (a.whole inputs loader).outcome = _
  rw [whole_eq, outcome_generation]

/-- If all outputs have been generated, they are written below the output directory. -/
theorem plan_of_ok {directory : String} {outputs : List OutputFile}
    (hdirectory : a.outputDirectory = some directory)
    (hload : (load s a.searchPaths a.files loader).outcome = .ok inputs)
    (h : inputs.generated loader a.includeResponses = .ok outputs) :
    (a.plan s loader).status = 0 ∧ (a.plan s loader).writes =
      .ok (outputs.map fun output => { output with path := Path.join directory output.path }) := by
  have hplace : ∀ output : OutputFile,
      a.place output = .ok { output with path := Path.join directory output.path } := by
    intro output
    rw [place, hdirectory]
  have hplaces : outputs.mapM a.place =
      .ok (outputs.map fun output => { output with path := Path.join directory output.path }) := by
    rw [mapM_eq_ok_iff, List.forall₂_map_right_iff, List.forall₂_same]
    exact fun output _ => hplace output
  rw [plan_eq]
  dsimp only
  rw [outcome_session hload, h]
  exact ⟨rfl, hplaces⟩

/-- If anything has failed, nothing is written. -/
theorem plan_of_error {e : Error}
    (hload : (load s a.searchPaths a.files loader).outcome = .ok inputs)
    (h : inputs.generated loader a.includeResponses = .error e) :
    (a.plan s loader).status = 1 ∧ (a.plan s loader).writes = .ok [] := by
  rw [plan_eq]
  dsimp only
  rw [outcome_session hload, h]
  exact ⟨rfl, rfl⟩

/-- **The plugin and the command line agree, and both are all or nothing.** Let the input files be
    sets of descriptors that can be read. The command line loads the first file of each name and
    the names in order, and every name has a file. If all named files can be generated, then the
    plugin, asked for the same files with the same option, answers with the outputs and without an
    error, and the command line ends with status 0 and writes these outputs below its directory. If
    the model or any of the files fails, then the plugin answers with an error and no files, and the
    command line ends with status 1 and writes nothing. One of the two always happens. All this
    holds with the definitions of the rules and without them. -/
theorem plan_agrees_with_answer (a : Arguments) (s : Surroundings) (loader : Loader)
    {directory : String} (hdirectory : a.outputDirectory = some directory)
    {sets : List (List FileDescriptor)} (hsets : List.Forall₂ s.Holds a.files sets) :
    let inputs := Inputs.ofSets sets
    let response := ((inputs.request a.includeResponses).answer loader).1
    let plan := a.plan s loader
    (load s a.searchPaths a.files loader).outcome = .ok inputs ∧
    (∀ name ∈ inputs.names, ∃ file ∈ inputs.files, file.name = name) ∧
    (∀ outputs, inputs.Yields loader a.includeResponses outputs →
      response.error = none ∧ response.files = outputs ∧ plan.status = 0 ∧ plan.writes =
        .ok (outputs.map fun output => { output with path := Path.join directory output.path })) ∧
    (∀ e, inputs.FailsWith loader a.includeResponses e →
      response.error = some e.report ∧ response.files = [] ∧
        plan.status = 1 ∧ plan.writes = .ok []) ∧
    ((∃ outputs, inputs.Yields loader a.includeResponses outputs) ∨
      ∃ e, inputs.FailsWith loader a.includeResponses e) := by
  intro inputs response plan
  have hload : (load s a.searchPaths a.files loader).outcome = .ok inputs :=
    load_of_sets hsets a.searchPaths loader
  refine ⟨hload, ?_, ?_, ?_, ?_⟩
  · intro name hname
    rw [Inputs.names_ofSets] at hname
    exact List.mem_map.1 hname
  · intro outputs hyields
    have h := Inputs.generated_eq_ok_iff.2 hyields
    obtain ⟨hstatus, hwrites⟩ := plan_of_ok hdirectory hload h
    have hresponse : response = ⟨none, 1, outputs⟩ :=
      (inputs.answer_request _ loader).trans (congrArg _ h)
    rw [hresponse]
    exact ⟨rfl, rfl, hstatus, hwrites⟩
  · intro e hfails
    have h := Inputs.generated_eq_error_iff.2 hfails
    obtain ⟨hstatus, hwrites⟩ := plan_of_error hload h
    have hresponse : response = ⟨some e.report, 1, []⟩ :=
      (inputs.answer_request _ loader).trans (congrArg _ h)
    rw [hresponse]
    exact ⟨rfl, rfl, hstatus, hwrites⟩
  · cases h : inputs.generated loader a.includeResponses with
    | ok outputs => exact Or.inl ⟨outputs, Inputs.generated_eq_ok_iff.1 h⟩
    | error e => exact Or.inr ⟨e, Inputs.generated_eq_error_iff.1 h⟩

/-- Two sets hold a file of the same name, of which the first counts. A third set has a message
    whose name cannot be decoded, which stops the run after the first file has been generated. -/
theorem plan_agrees_with_answer_on_sets :
    let bytesA : List UInt8 := [10, 14, 10, 7, 97, 46, 112, 114, 111, 116, 111, 34, 3, 10, 1, 65]
    let bytesB : List UInt8 :=
      [10, 14, 10, 7, 97, 46, 112, 114, 111, 116, 111, 34, 3, 10, 1, 90,
       10, 14, 10, 7, 98, 46, 112, 114, 111, 116, 111, 34, 3, 10, 1, 66]
    let bytesC : List UInt8 := [10, 14, 10, 7, 99, 46, 112, 114, 111, 116, 111, 34, 3, 10, 1, 255]
    let s : Surroundings :=
      { directory := "/"
        read := fun path => .ok (if path = "a.pb" then bytesA else
          if path = "b.pb" then bytesB else bytesC)
        compiler := ⟨"", [], fun _ => .ok []⟩ }
    let fileA : FileDescriptor := { name := "a.proto", messages := [{ name := "A" }] }
    let otherA : FileDescriptor := { name := "a.proto", messages := [{ name := "Z" }] }
    let fileB : FileDescriptor := { name := "b.proto", messages := [{ name := "B" }] }
    let fileC : FileDescriptor :=
      { name := "c.proto", messages := [{ name := .undecodable [255] }] }
    let moduleA : SchemaModule := ⟨"a.proto", "a_zod.ts", [], [], [⟨"A", "A", [], false, false⟩]⟩
    let moduleB : SchemaModule := ⟨"b.proto", "b_zod.ts", [], [], [⟨"B", "B", [], false, false⟩]⟩
    let good : Arguments := { files := ["a.pb", "b.pb"], outputDirectory := some "out" }
    let bad : Arguments := { files := ["a.pb", "c.pb"], outputDirectory := some "out" }
    List.Forall₂ s.Holds good.files [[fileA], [otherA, fileB]] ∧
      List.Forall₂ s.Holds bad.files [[fileA], [fileC]] ∧
      (load s good.searchPaths good.files).outcome =
        .ok ⟨[fileA, fileB], ["a.proto", "b.proto"]⟩ ∧
      (good.plan s).status = 0 ∧
      (good.plan s).writes =
        .ok [⟨"out/a_zod.ts", moduleA.text⟩, ⟨"out/b_zod.ts", moduleB.text⟩] ∧
      (bad.plan s).status = 1 ∧ (bad.plan s).writes = .ok [] := by
  intro bytesA bytesB bytesC s fileA otherA fileB fileC moduleA moduleB good bad
  have hA : Wire.decodeFileSet bytesA = .ok [fileA] := by
    with_unfolding_all rfl
  have hB : Wire.decodeFileSet bytesB = .ok [otherA, fileB] := by
    with_unfolding_all rfl
  have hC : Wire.decodeFileSet bytesC = .ok [fileC] := by
    with_unfolding_all rfl
  have hgood : List.Forall₂ s.Holds good.files [[fileA], [otherA, fileB]] :=
    .cons ⟨by decide, bytesA, rfl, hA⟩ (.cons ⟨by decide, bytesB, rfl, hB⟩ .nil)
  have hbad : List.Forall₂ s.Holds bad.files [[fileA], [fileC]] :=
    .cons ⟨by decide, bytesA, rfl, hA⟩ (.cons ⟨by decide, bytesC, rfl, hC⟩ .nil)
  obtain ⟨hload, _, hyields, _, _⟩ := plan_agrees_with_answer good s true rfl hgood
  obtain ⟨_, _, _, hfails, _⟩ := plan_agrees_with_answer bad s true rfl hbad
  let messageA : Message Field := ⟨"A", "A", "a", ⟨0, [0]⟩, [], [], [], false, false⟩
  let messageB : Message Field := ⟨"B", "B", "b", ⟨1, [0]⟩, [], [], [], false, false⟩
  let messageC : Message Field :=
    ⟨.undecodable [255], .undecodable [255], "c", ⟨1, [0]⟩, [], [], [], false, false⟩
  let schemaA : SchemaFile Field := ⟨"a.proto", "a", "", [], [messageA]⟩
  let schemaB : SchemaFile Field := ⟨"b.proto", "b", "", [], [messageB]⟩
  let schemaC : SchemaFile Field := ⟨"c.proto", "c", "", [], [messageC]⟩
  have hselectedA : schemaA.selected {} = [messageA] := by cbv
  have hselectedB : schemaB.selected {} = [messageB] := by cbv
  have himportsA : schemaA.importLines [messageA] = [] := ImportLine.ofImports_nil
  have himportsB : schemaB.importLines [messageB] = [] := ImportLine.ofImports_nil
  have hmoduleA : (SchemaModule.ofFile true {} schemaA).outcome = .ok (some moduleA) := by
    rw [SchemaModule.ofFile_outcome, hselectedA, himportsA, Arrangement.ofMessages_single]
    rfl
  have hmoduleB : (SchemaModule.ofFile true {} schemaB).outcome = .ok (some moduleB) := by
    rw [SchemaModule.ofFile_outcome, hselectedB, himportsB, Arrangement.ofMessages_single]
    rfl
  have hgoodModel : Model.build [fileA, fileB] = .ok ⟨[schemaA, schemaB]⟩ := by rfl
  have hbadModel : Model.build [fileA, fileC] = .ok ⟨[schemaA, schemaC]⟩ := by rfl
  have hgoodOutputs : Inputs.Yields (.ofSets [[fileA], [otherA, fileB]]) true false
      [⟨"a_zod.ts", moduleA.text⟩, ⟨"b_zod.ts", moduleB.text⟩] := by
    refine ⟨_, hgoodModel, [some _, some _], .cons ?_ (.cons ?_ .nil), rfl⟩
    · exact (Generator.generateFile_eq_some_iff _).2
        ⟨schemaA, moduleA, by rfl, by decide, hmoduleA, rfl, rfl⟩
    · exact (Generator.generateFile_eq_some_iff _).2
        ⟨schemaB, moduleB, by rfl, by decide, hmoduleB, rfl, rfl⟩
  have hbadOutputs : Inputs.FailsWith (.ofSets [[fileA], [fileC]]) true false
      (.undecodableText .ending) := by
    refine Or.inr ⟨_, hbadModel, ["a.proto"], "c.proto", [], rfl,
      ⟨_, [some ⟨"a_zod.ts", moduleA.text⟩], .cons ?_ .nil, rfl⟩, ?_⟩
    · exact (Generator.generateFile_eq_some_iff _).2
        ⟨schemaA, moduleA, by rfl, by decide, hmoduleA, rfl, rfl⟩
    · rw [Generator.generateFile_outcome]
      decide
  obtain ⟨_, _, hstatus, hwrites⟩ := hyields _ hgoodOutputs
  obtain ⟨_, _, hstatus', hwrites'⟩ := hfails _ hbadOutputs
  have hjoin : Path.join "out" "a_zod.ts" = "out/a_zod.ts" ∧
      Path.join "out" "b_zod.ts" = "out/b_zod.ts" := by decide
  simp only [List.map_cons, List.map_nil, hjoin] at hwrites
  exact ⟨hgood, hbad, hload, hstatus, hwrites, hstatus', hwrites'⟩

end Arguments

end CommandLine

end ProtoSchema
