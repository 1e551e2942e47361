import ProtoSchema.CommandLine.Session
import ProtoSchema.Proofs.Generator.Run

set_option autoImplicit false

/-! # The run behind the command line

Loading and generation make one run, `Arguments.session`, which is steady as all runs are. A plan
says what has been told by the session and what is to be written if it succeeds
(`Arguments.plan_eq`). So the command line tells at most once that the definitions of the rules are
missing (`Arguments.count_plan`). -/

namespace ProtoSchema.CommandLine

/-! ## Loading -/

theorem steady_readSets (read : String → Except Error (List UInt8)) (paths : List String)
    (inputs : Inputs) : (readSets read inputs paths).Steady := by
  induction paths generalizing inputs with
  | nil => exact Run.steady_pure inputs
  | cons path paths ih =>
    exact Run.steady_load.bind fun _ => (Run.steady_ofExcept _).bind fun _ =>
      (Run.steady_ofExcept _).bind fun _ => ih _

/-- Compiling schema files as a run. -/
def compiling (s : Surroundings) (includePaths : List (Option String)) (schemas : List String)
    (inputs : Inputs) : Run Inputs := fun loader =>
  (compileSchemas s includePaths schemas inputs loader).toReport

/-- Loading as a run. -/
def loading (s : Surroundings) (includePaths : List (Option String)) (files : List String) :
    Run Inputs := fun loader =>
  (load s includePaths files loader).toReport

theorem steady_compiling (s : Surroundings) (includePaths : List (Option String))
    (schemas : List String) (inputs : Inputs) :
    (compiling s includePaths schemas inputs).Steady := by
  -- the definitions are asked for whatever becomes of the compiler
  have hasked : ∀ {told : List Notice} (outcome : Except Error Inputs), .missingBindings ∉ told →
      Run.Steady fun loader =>
        ⟨(Run.load loader).notices ++ told, (Run.load loader).loader, outcome⟩ := by
    intro told outcome htold
    have hload : (Run.load >>= fun _ loader => ⟨told, loader, outcome⟩) = fun loader =>
        Report.mk ((Run.load loader).notices ++ told) (Run.load loader).loader outcome :=
      funext fun loader => Run.bind_eq_of_ok (Run.outcome_load loader) _
    rw [← hload]
    exact Run.steady_load.bind fun _ => Run.steady_fixed htold outcome
  unfold compiling compileSchemas
  cases namedPaths includePaths with
  | error e => simpa using hasked (.error e) List.not_mem_nil
  | ok includePaths =>
    dsimp only
    cases s.compiler.run
        (compileCommand s.compiler includePaths schemas ++ s.compiler.extra) with
    | error e => cases e <;> exact hasked _ (by simp)
    | ok bytes => simpa using hasked _ List.not_mem_nil

/-- The sets are read, and then the schema files are compiled if there are any. -/
theorem loading_eq (s : Surroundings) (includePaths : List (Option String))
    (files : List String) :
    loading s includePaths files =
      readSets s.read ⟨[], []⟩ (files.filter fun path => !isSchemaFile path) >>= fun inputs =>
        (if (files.filter isSchemaFile).isEmpty then pure inputs
          else compiling s includePaths (files.filter isSchemaFile) inputs) >>= fun inputs =>
            pure ⟨inputs.files, inputs.names.eraseDups⟩ := by
  funext loader
  rw [← bind_assoc, Run.bind_pure_apply]
  unfold loading load
  dsimp only
  cases hsets : (readSets s.read ⟨[], []⟩ (files.filter fun path => !isSchemaFile path)
      loader).outcome with
  | error e =>
    rw [Run.bind_eq_of_error hsets]
    simp only [hsets]
  | ok inputs =>
    rw [Run.bind_eq_of_ok hsets]
    cases (files.filter isSchemaFile).isEmpty with
    | true => simp [hsets, pure, Run.ofExcept]
    | false => rfl

theorem steady_loading (s : Surroundings) (includePaths : List (Option String))
    (files : List String) : (loading s includePaths files).Steady := by
  rw [loading_eq]
  refine (steady_readSets _ _ _).bind fun inputs => Run.Steady.bind ?_ fun _ => Run.steady_pure _
  split
  · exact Run.steady_pure inputs
  · exact steady_compiling s includePaths _ inputs

/-! ## Sessions -/

namespace Arguments

/-- Generation as a run. -/
def whole (a : Arguments) (inputs : Inputs) : Run (List OutputFile) := do
  let model ← .ofExcept (Model.build inputs.files)
  ({ model, options := a.options } : Generator).whole inputs.names

/-- The run from the arguments to the outputs. -/
def session (a : Arguments) (s : Surroundings) : Run (List OutputFile) := do
  let inputs ← loading s a.searchPaths a.files
  a.whole inputs

theorem whole_eq (a : Arguments) (inputs : Inputs) (loader : Loader) :
    a.whole inputs loader = ⟨(a.generation inputs loader).notices,
      (a.generation inputs loader).loader, (a.generation inputs loader).outcome⟩ := by
  unfold whole generation
  cases Model.build inputs.files <;> rfl

theorem steady_whole (a : Arguments) (inputs : Inputs) : (a.whole inputs).Steady :=
  (Run.steady_ofExcept _).bind fun _ => Generator.steady_whole _ inputs.names

theorem steady_session (a : Arguments) (s : Surroundings) : (a.session s).Steady :=
  (steady_loading s a.searchPaths a.files).bind a.steady_whole

/-- A plan is made from the session, and from the commands that have been run. -/
theorem plan_eq (a : Arguments) (s : Surroundings) (loader : Loader) :
    a.plan s loader =
      let report := a.session s loader
      let commands := (load s a.searchPaths a.files loader).commands
      match report.outcome with
      | .error e => a.failedPlan report.notices commands e
      | .ok outputs =>
        let writes := outputs.mapM a.place
        ⟨0, report.notices, commands, writes,
          if a.quiet then [] else (writes.toOption.getD []).map announcement⟩ := by
  unfold plan session
  dsimp only
  cases hload : (load s a.searchPaths a.files loader).outcome with
  | error e =>
    have hloading : (loading s a.searchPaths a.files loader).outcome = .error e := hload
    rw [Run.bind_eq_of_error hloading]
    rfl
  | ok inputs =>
    have hloading : (loading s a.searchPaths a.files loader).outcome = .ok inputs := hload
    rw [Run.bind_eq_of_ok hloading, whole_eq]
    rfl

theorem notices_plan (a : Arguments) (s : Surroundings) (loader : Loader) :
    ∃ rest, .missingBindings ∉ rest ∧
      (a.plan s loader).notices = (a.session s loader).notices ++ rest := by
  rw [plan_eq]
  dsimp only
  cases (a.session s loader).outcome with
  | ok outputs => exact ⟨[], List.not_mem_nil, (List.append_nil _).symm⟩
  | error e => exact ⟨_, by cases a.verbose <;> simp, rfl⟩

/-- The command line tells at most once that the definitions of the rules are missing. -/
theorem count_plan (a : Arguments) (s : Surroundings) (loader : Loader) :
    (a.plan s loader).notices.count .missingBindings ≤ 1 := by
  obtain ⟨rest, hrest, hnotices⟩ := a.notices_plan s loader
  rw [hnotices, List.count_append, List.count_eq_zero.2 hrest]
  exact (a.steady_session s).count_le loader

end Arguments

end ProtoSchema.CommandLine
