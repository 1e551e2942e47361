import ProtoSchema.Plugin
import ProtoSchema.Proofs.Module.Building

set_option autoImplicit false

/-! # What a run yields

A run over the names of files is seen from outside through its outcome: all outputs in order, or the
first failure. It runs one file after the other (`Generator.whole_eq`), so it is steady, and its
outcome is made of the outcomes of the single files (`Generator.outcome_run`). From it come the two
sides of every run, `Generator.Yields` and `Generator.FailsWith`. The notices, and whether the user
wants them, have no bearing on either. -/

namespace ProtoSchema

/-! ## One file -/

theorem SchemaFile.steady_emit (options : Options) (file : SchemaFile Field)
    (built : Option SchemaModule) : (file.emit options built).Steady := by
  cases built with
  | none =>
    have hnotice : Notice.skippedEmpty file.sourceName ≠ .missingBindings := nofun
    exact (Run.steady_tellIf hnotice _).bind fun _ => Run.steady_pure _
  | some m =>
    have hnotice : Notice.generating m.output file.package ≠ .missingBindings := nofun
    exact (Run.steady_tellIf hnotice _).bind fun _ =>
      (Run.steady_ofExcept _).bind fun _ => Run.steady_pure _

namespace Generator

variable (g : Generator)

theorem steady_generateFile (name : RawText) : (g.generateFile name).Steady := by
  unfold generateFile
  refine (Run.steady_ofExcept _).bind fun file => ?_
  have hnotice : Notice.skippedThirdParty file.sourceName ≠ .missingBindings := nofun
  split
  · exact (Run.steady_tellIf hnotice _).bind fun _ => Run.steady_pure _
  · exact (file.steady_schemaModule g.options).bind (file.steady_emit g.options)

/-- The steps of generating a file: find it, build its module, check the names, write it. -/
theorem generateFile_outcome (loader : Loader) (name : RawText) :
    (g.generateFile name loader).outcome =
      g.model.file name >>= fun file =>
        if ModulePath.isThirdParty file.sourceName then pure none
        else (SchemaModule.ofFile loader g.options file).outcome >>= fun built =>
          match built with
          | none => pure none
          | some m => m.checkNames >>= fun _ => pure (some ⟨m.output, m.text⟩) := by
  unfold generateFile
  rw [Run.outcome_ofExcept_bind]
  congr 1
  funext file
  by_cases hthird : ModulePath.isThirdParty file.sourceName
  · rw [if_pos hthird, if_pos hthird]
    rfl
  · rw [if_neg hthird, if_neg hthird,
      (file.steady_schemaModule g.options).outcome_bind (file.steady_emit g.options)]
    congr 1
    funext built
    cases built with
    | none => rfl
    | some m =>
      show ((Run.tellIf _ _ >>= fun _ => Run.ofExcept m.checkNames >>= _) loader).outcome = _
      rw [Run.outcome_tellIf_bind, Run.outcome_ofExcept_bind]
      rfl

/-- A file has an output if it is no file of a dependency, has a module, and its names can be
    written. -/
theorem generateFile_eq_some_iff {loader : Loader} {name : RawText} {output : OutputFile} :
    (g.generateFile name loader).outcome = .ok (some output) ↔
      ∃ file m, g.model.file name = .ok file ∧ ModulePath.isThirdParty file.sourceName = false ∧
        (SchemaModule.ofFile loader g.options file).outcome = .ok (some m) ∧
        m.checkNames = .ok () ∧ output = ⟨m.output, m.text⟩ := by
  rw [generateFile_outcome]
  constructor
  · intro h
    obtain ⟨file, hfile, h⟩ := bind_eq_ok_iff.1 h
    split at h
    · cases h
    · next hthird =>
      obtain ⟨built, hbuilt, h⟩ := bind_eq_ok_iff.1 h
      cases built with
      | none => cases h
      | some m =>
        obtain ⟨_, hnames, h⟩ := bind_eq_ok_iff.1 h
        cases h
        exact ⟨file, m, hfile, Bool.eq_false_iff.2 hthird, hbuilt, hnames, rfl⟩
  · rintro ⟨file, m, hfile, hthird, hbuilt, hnames, rfl⟩
    rw [hfile]
    show (if ModulePath.isThirdParty file.sourceName then _ else _) = _
    rw [hthird, if_neg Bool.false_ne_true, hbuilt]
    show (m.checkNames >>= fun _ => _) = _
    rw [hnames]
    rfl

/-- Telling the user more changes nothing. -/
theorem generateFile_outcome_verbose (model : Model) (responses verbose : Bool) (loader : Loader)
    (name : RawText) :
    (generateFile ⟨model, ⟨responses, verbose⟩⟩ name loader).outcome =
      (generateFile ⟨model, ⟨responses, false⟩⟩ name loader).outcome := by
  rw [generateFile_outcome, generateFile_outcome]
  rfl

/-! ## Many files -/

/-- All named files can be generated, and these are the outputs in order. A file of a dependency and
    a file without content have none. -/
def Yields (loader : Loader) (names : List RawText) (outputs : List OutputFile) : Prop :=
  ∃ answers, List.Forall₂ (fun name answer => (g.generateFile name loader).outcome = .ok answer)
    names answers ∧ outputs = answers.reduceOption

/-- One of the named files cannot be generated, while all before it can. -/
def FailsWith (loader : Loader) (names : List RawText) (e : Error) : Prop :=
  ∃ front name back, names = front ++ name :: back ∧ (∃ outputs, g.Yields loader front outputs) ∧
    (g.generateFile name loader).outcome = .error e

/-- A run over files that counts as a whole: it answers with all outputs or fails. -/
def whole (names : List RawText) : Run (List OutputFile) := fun loader =>
  let generation := g.run names loader
  ⟨generation.notices, generation.loader, generation.outcome⟩

/-- One step of a run: generate the first file, then the others. -/
theorem whole_cons (name : RawText) (names : List RawText) :
    g.whole (name :: names) = g.generateFile name >>= fun output =>
      g.whole names >>= fun outputs => pure (output.toList ++ outputs) := by
  funext loader
  cases h : (g.generateFile name loader).outcome with
  | error e =>
    rw [Run.bind_eq_of_error h]
    simp only [whole, run, h, Generation.outcome]
  | ok output =>
    rw [Run.bind_eq_of_ok h]
    cases hfailure : (g.run names (g.generateFile name loader).loader).failure with
    | some e =>
      have hrest : (g.whole names (g.generateFile name loader).loader).outcome = .error e := by
        simp only [whole, Generation.outcome, hfailure]
      rw [Run.bind_eq_of_error hrest]
      simp only [whole, run, h, Generation.outcome, hfailure]
    | none =>
      have hrest : (g.whole names (g.generateFile name loader).loader).outcome =
          .ok (g.run names (g.generateFile name loader).loader).outputs := by
        simp only [whole, Generation.outcome, hfailure]
      rw [Run.bind_eq_of_ok hrest]
      simp [whole, run, h, Generation.outcome, hfailure, pure, Run.ofExcept]

/-- A run goes from file to file, and leaves out those without an output. -/
theorem whole_eq (names : List RawText) :
    g.whole names = names.mapM g.generateFile >>= fun answers => pure answers.reduceOption := by
  induction names with
  | nil => rfl
  | cons name names ih =>
    rw [whole_cons, List.mapM_cons, ih, bind_assoc]
    congr 1
    funext output
    rw [bind_assoc, bind_assoc]
    congr 1
    funext answers
    cases output <;> rfl

theorem steady_whole (names : List RawText) : (g.whole names).Steady := by
  rw [whole_eq]
  exact (Run.Steady.mapM g.steady_generateFile names).bind fun _ => Run.steady_pure _

/-- A run has the outcomes of its files, in order and up to the first failure. -/
theorem outcome_run (loader : Loader) (names : List RawText) :
    (g.run names loader).outcome =
      (names.mapM fun name => (g.generateFile name loader).outcome) >>= fun answers =>
        pure answers.reduceOption := by
  show (g.whole names loader).outcome = _
  rw [whole_eq, (Run.Steady.mapM g.steady_generateFile names).outcome_bind fun _ =>
    Run.steady_pure _, Run.Steady.outcome_mapM g.steady_generateFile]
  rfl

theorem outcome_run_eq_ok_iff {loader : Loader} {names : List RawText}
    {outputs : List OutputFile} :
    (g.run names loader).outcome = .ok outputs ↔ g.Yields loader names outputs := by
  rw [outcome_run, bind_eq_ok_iff]
  constructor
  · rintro ⟨answers, hanswers, h⟩
    exact ⟨answers, (mapM_eq_ok_iff _ _ _).1 hanswers, (Except.ok.inj h).symm⟩
  · rintro ⟨answers, hanswers, rfl⟩
    exact ⟨answers, (mapM_eq_ok_iff _ _ _).2 hanswers, rfl⟩

theorem outcome_run_eq_error_iff {loader : Loader} {names : List RawText} {e : Error} :
    (g.run names loader).outcome = .error e ↔ g.FailsWith loader names e := by
  rw [outcome_run, bind_eq_error_iff, mapM_eq_error_iff]
  constructor
  · rintro (⟨front, name, back, hnames, ⟨answers, hfront⟩, hname⟩ | ⟨_, _, h⟩)
    · exact ⟨front, name, back, hnames,
        ⟨_, answers, (mapM_eq_ok_iff _ _ _).1 hfront, rfl⟩, hname⟩
    · cases h
  · rintro ⟨front, name, back, hnames, ⟨_, answers, hfront, _⟩, hname⟩
    exact Or.inl ⟨front, name, back, hnames, ⟨answers, (mapM_eq_ok_iff _ _ _).2 hfront⟩, hname⟩

end Generator

/-! ## Requests -/

namespace GeneratorResponse

/-- The response that says how a run has ended. -/
def ofOutcome : Except Error (List OutputFile) → GeneratorResponse
  | .ok files => ⟨none, 1, files⟩
  | .error e => ⟨some e.report, 1, []⟩

/-- Respond to a run that has ended. The user is told the details of a failure. -/
def respond (outcome : Except Error (List OutputFile)) : Run GeneratorResponse := do
  match outcome with
  | .ok _ => pure ()
  | .error e => .tell (.details e)
  return ofOutcome outcome

theorem steady_respond (outcome : Except Error (List OutputFile)) : (respond outcome).Steady := by
  cases outcome with
  | ok files => exact Run.steady_pure _
  | error e =>
    have hnotice : Notice.details e ≠ .missingBindings := nofun
    exact (Run.steady_tell hnotice).bind fun _ => Run.steady_pure _

end GeneratorResponse

namespace GeneratorRequest

/-- What a request asks for, as a run that counts as a whole. -/
def whole (request : GeneratorRequest) : Run (List OutputFile) := do
  let g ← .ofExcept request.generator
  g.whole request.names

theorem steady_whole (request : GeneratorRequest) : request.whole.Steady :=
  (Run.steady_ofExcept _).bind fun g => g.steady_whole request.names

/-- Serving a request is responding to what it asks for. -/
theorem process_eq (request : GeneratorRequest) :
    request.process = request.whole.attempt >>= GeneratorResponse.respond := by
  have hwhole : ∀ loader, request.whole loader = ⟨(request.generation loader).notices,
      (request.generation loader).loader, (request.generation loader).outcome⟩ := by
    intro loader
    unfold whole generation
    cases request.generator <;> rfl
  funext loader
  show _ = Run.bind request.whole.attempt GeneratorResponse.respond loader
  simp only [Run.bind, Run.attempt, hwhole, process, serve]
  cases (request.generation loader).outcome with
  | ok files => simp [GeneratorResponse.respond, GeneratorResponse.ofOutcome, pure, Run.ofExcept]
  | error e => rfl

theorem steady_process (request : GeneratorRequest) : request.process.Steady := by
  rw [process_eq]
  exact request.steady_whole.attempt.bind GeneratorResponse.steady_respond

theorem answer_fst (loader : Loader) (request : GeneratorRequest) :
    (request.answer loader).1 = .ofOutcome (request.generation loader).outcome := by
  unfold answer serve
  dsimp only
  cases (request.generation loader).outcome <;> rfl

/-- Where the definitions are installed, the answer is the same whoever has asked for them. -/
theorem answer_of_found (request : GeneratorRequest) {loader loader' : Loader}
    (h : loader.found = true) (h' : loader'.found = true) :
    request.answer loader = request.answer loader' := by
  have hsteady := request.steady_process
  have hresponse : Except.ok (request.answer loader).1 = .ok (request.answer loader').1 :=
    hsteady.outcome (h.trans h'.symm)
  exact Prod.ext (Except.ok.inj hresponse) (hsteady.notices_of_found h h')

end GeneratorRequest

end ProtoSchema
