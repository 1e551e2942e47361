import ProtoSchema.Error

set_option autoImplicit false

/-! # Runs that report

A run writes notices for the user while it goes on, and ends with an answer or a failure. The
notices written before a failure stay.

A run may need the definitions of the validation rules. They are looked for when they are first
needed, and what has come of that is kept for the rest of the process. So a run takes the state of
the loader as it finds it, and passes it on whether it fails or not. -/

namespace ProtoSchema

/-! ## Notices -/

/-- Something the user is told about. -/
inductive Notice where
  /-- The definitions of the validation rules are missing. -/
  | missingBindings
  /-- The rules of a field cannot be read and are ignored. -/
  | unreadableRules (field : RawText)
  /-- A file of a dependency is left out. -/
  | skippedThirdParty (file : String)
  /-- A file without anything to generate is left out. -/
  | skippedEmpty (file : String)
  /-- A module is generated. -/
  | generating (output package : String)
  /-- The run failed. -/
  | failed (error : Error)
  /-- The failure with its class, for those who look into it. -/
  | details (error : Error)
  /-- The compiler of schema files could not be run. -/
  | compilerNotRun (command : List String)
deriving DecidableEq

/-- A notice as it is written, with its line ends. -/
def Notice.text : Notice → String
  | missingBindings =>
    "Warning: buf.validate bindings are not available, validation rules will be ignored.\n" ++
      "Install them with: pip install protovalidate\n"
  | unreadableRules field =>
    "Warning: Could not read validation constraints for field " ++ field.shown ++ ": " ++
      TextUse.cut.refusal ++ "\n"
  | skippedThirdParty file => "Skipping third-party file " ++ file ++ "\n"
  | skippedEmpty file => "Skipping " ++ file ++ ": nothing to generate\n"
  | generating output package =>
    "Generating " ++ output ++ " (package " ++ (if package = "" then "<none>" else package) ++ ")\n"
  | failed error => "Error: " ++ error.message ++ "\n"
  | details error => error.report ++ "\n\n"
  | compilerNotRun command => "Failed to run protoc: " ++ " ".intercalate command ++ "\n"

/-! ## The loader -/

/-- What a process knows of the definitions of the validation rules. -/
inductive Loader where
  /-- Nobody has needed them yet. They are installed or not. -/
  | idle (installed : Bool)
  /-- They have been looked for, and found or not. They are not looked for again. -/
  | done (found : Bool)
deriving DecidableEq

/-- Whether those who need the definitions get them. -/
def Loader.found : Loader → Bool
  | idle installed => installed
  | done found => found

/-- All there is to a loader when its process starts is whether the definitions are installed. -/
instance : Coe Bool Loader := ⟨.idle⟩

/-! ## Runs -/

/-- What a run has written, the loader as the run leaves it, and the outcome. -/
structure Report (α : Type) where
  notices : List Notice
  loader : Loader
  outcome : Except Error α

/-- A run, from the loader as it finds it. -/
def Run (α : Type) : Type :=
  Loader → Report α

namespace Run

variable {α β : Type}

/-- A run that writes nothing. -/
def ofExcept (outcome : Except Error α) : Run α :=
  fun loader => ⟨[], loader, outcome⟩

/-- Write one notice. -/
def tell (notice : Notice) : Run Unit :=
  fun loader => ⟨[notice], loader, .ok ()⟩

/-- Write a notice if a condition holds. -/
def tellIf (condition : Bool) (notice : Notice) : Run Unit :=
  fun loader => ⟨if condition then [notice] else [], loader, .ok ()⟩

/-- Ask for the definitions of the rules. Whoever asks first looks for them, and tells the user if
    they are missing. -/
def load : Run Bool
  | .idle installed =>
    ⟨if installed then [] else [.missingBindings], .done installed, .ok installed⟩
  | .done found => ⟨[], .done found, .ok found⟩

/-- Go on with the answer of a run. -/
def bind (r : Run α) (f : α → Run β) : Run β := fun loader =>
  let first := r loader
  match first.outcome with
  | .error e => ⟨first.notices, first.loader, .error e⟩
  | .ok a =>
    let second := f a first.loader
    ⟨first.notices ++ second.notices, second.loader, second.outcome⟩

instance : Monad Run where
  pure a := ofExcept (.ok a)
  bind := bind

instance : LawfulMonad Run := LawfulMonad.mk' Run
  (by
    intro α r
    funext loader
    simp only [Functor.map, bind]
    rcases r loader with ⟨notices, loader, _ | a⟩ <;> simp [ofExcept])
  (by
    intro α β a f
    funext loader
    simp [Bind.bind, pure, bind, ofExcept])
  (by
    intro α β γ r f g
    funext loader
    simp only [Bind.bind, bind]
    rcases r loader with ⟨notices, loader, _ | a⟩
    · rfl
    · dsimp only
      rcases f a loader with ⟨notices', loader', _ | b⟩
      · rfl
      · simp)

end Run

end ProtoSchema
