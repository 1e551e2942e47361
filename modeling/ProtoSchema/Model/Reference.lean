import ProtoSchema.Model.Outline

set_option autoImplicit false

/-! # Resolving references

A field names the enum or message it refers to. A name with a leading dot is absolute; any other is
tried as it stands and then inside the scopes around the field, from the innermost outwards. Of
several declarations with one full name the last one counts. A name that cannot be decoded refers to
nothing, and nothing can be looked for outside a message whose full name cannot be decoded. -/

namespace ProtoSchema

variable {φ : Type}

/-! ## The declared types -/

/-- A type that fields can refer to. -/
inductive Declaration (φ : Type) where
  | enum (e : Enum)
  | message (m : Message φ)

/-- The full name of a declared type. -/
def Declaration.fullName : Declaration φ → RawText
  | enum e => e.fullName
  | message m => m.fullName

mutual

/-- The types that a message declares: itself, its enums, and what its nested messages declare. -/
def Message.declarations {φ : Type} : Message φ → List (Declaration φ)
  | m@⟨_, _, _, _, _, enums, messages, _, _⟩ =>
    .message m :: enums.map .enum ++ Message.declarationsAll messages

/-- The types that several messages declare. -/
def Message.declarationsAll {φ : Type} : List (Message φ) → List (Declaration φ)
  | [] => []
  | m :: ms => m.declarations ++ Message.declarationsAll ms

end

/-- The types that a file declares, its enums first. -/
def SchemaFile.declarations (file : SchemaFile φ) : List (Declaration φ) :=
  file.enums.map .enum ++ Message.declarationsAll file.messages

/-- The types declared in a set of files, in order. -/
abbrev Declarations (φ : Type) := List (Declaration φ)

/-- A type by its full name; leading dots do not count. -/
def Declarations.find? (types : Declarations φ) (name : String) : Option (Declaration φ) :=
  let plain := String.ofList (name.toList.dropWhile (· = '.'))
  types.reverse.find? fun d => d.fullName = .text plain

/-! ## Scopes -/

/-- A list and its tails, without the empty one. -/
def nonemptyTails {α : Type} : List α → List (List α)
  | [] => []
  | a :: as => (a :: as) :: nonemptyTails as

/-- The scopes around a declaration, from its own full name outwards, without the root. -/
def enclosingScopes (fullName : String) : List String :=
  ((nonemptyTails (Text.split '.' fullName).reverse).map fun parts =>
    ".".intercalate parts.reverse).filter (· ≠ "")

/-- The type that a name refers to in the innermost of the scopes around a full name. -/
def Declarations.findAround? (types : Declarations φ) (fullName typeName : String) :
    Option (Declaration φ) :=
  (enclosingScopes fullName).findSome? fun scope => types.find? (scope ++ "." ++ typeName)

/-- The type that a name refers to from inside the message with the given full name. -/
def Declarations.lookup? (types : Declarations φ) (owner : RawText) (typeName : String) :
    Except Error (Option (Declaration φ)) :=
  match types.find? typeName with
  | some found => .ok (some found)
  | none =>
    if Text.startsWith "." typeName then .ok none
    else match owner with
      | .text fullName => .ok (types.findAround? fullName typeName)
      | .undecodable _ => .error (.undecodableText .cut)

/-! ## Slots -/

/-- The position of a field: the place of its message and its number there. -/
structure SlotId where
  place : Place
  index : Nat
deriving DecidableEq

/-- A declared field with its position and the full name of its message. -/
structure Slot where
  id : SlotId
  owner : RawText
  field : FieldDescriptor

/-- The slots of the fields of one message. -/
def Message.ownSlots (m : Message FieldDescriptor) : List Slot :=
  m.fields.mapIdx fun index field => ⟨⟨m.place, index⟩, m.fullName, field⟩

mutual

/-- The slots of a message: those of its nested messages first, then its own. -/
def Message.slots : Message FieldDescriptor → List Slot
  | m@⟨_, _, _, _, _, _, messages, _, _⟩ => Message.slotsAll messages ++ m.ownSlots

/-- The slots of several messages. -/
def Message.slotsAll : List (Message FieldDescriptor) → List Slot
  | [] => []
  | m :: ms => m.slots ++ Message.slotsAll ms

end

/-! ## References -/

/-- A slot with the type it refers to. A group refers to nothing. -/
structure Reference where
  id : SlotId
  repeated : Bool
  target : Option Target

/-- The type that a slot names. -/
def Slot.named? (types : Declarations FieldDescriptor) (slot : Slot) :
    Except Error (Option (Declaration FieldDescriptor)) :=
  match slot.field.typeName with
  | .text typeName => types.lookup? slot.owner typeName
  | .undecodable _ => .error (.undecodableText .cut)

/-- What a slot refers to; the declared type has to be of the kind that the field says. -/
def Slot.target? (types : Declarations FieldDescriptor) (slot : Slot) :
    Except Error (Option Target) :=
  let failure := Error.unresolvedType slot.field.typeName.shown slot.owner.shown
    slot.field.name.shown
  match slot.field.kind with
  | .scalar type => .ok (some (.scalar type))
  | .group => .ok none
  | .enum => do
    match ← slot.named? types with
    | some (.enum e) => return some (.enum e.ref)
    | _ => .error failure
  | .message => do
    match ← slot.named? types with
    | some (.message m) => return some (.message m.ref)
    | _ => .error failure

/-- Resolve one slot. -/
def Slot.resolve (types : Declarations FieldDescriptor) (slot : Slot) : Except Error Reference := do
  let target ← slot.target? types
  return ⟨slot.id, slot.field.label = .repeated, target⟩

/-- Resolve all slots; the first that cannot be resolved decides. -/
def resolveAll (types : Declarations FieldDescriptor) (slots : List Slot) :
    Except Error (List Reference) :=
  slots.mapM (Slot.resolve types)

end ProtoSchema
