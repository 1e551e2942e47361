import ProtoSchema.Proofs.Module.Export
import ProtoSchema.Proofs.Module.Marking

set_option autoImplicit false

/-! # Static types of recursive messages

A recursive schema cannot infer its own type, so the type is spelled out beside it and has to agree
with what the schema would infer. A type tree (`TypeTree`) has two renderings, the schema and the
type that is inferred from it; every field has a tree whose renderings are its schema and its
declared type (`FieldType.exists_tree`).

The members of the spelled-out type and those of the schema are read off the lines of a message
(`declaredMembers`, `checkedMembers`). The two lists agree in names, order, and in what may be
absent, which the type says by a question mark and the schema by the end of an expression. -/

namespace ProtoSchema

open Name (isIdentifier isWord Word)

/-! ## Type trees -/

/-- The type of a value, with the file of every message in it. -/
inductive TypeTree where
  | string | boolean | number | integer | natural | bytes | date | any | unknown | emptyObject
  | enum (name : RawText)
  | message (name : RawText) (file : String)
  | array (item : TypeTree)
  | record (key value : TypeTree)

namespace TypeTree

/-- The schema of a type. -/
def schema : TypeTree → String
  | string => "z.string()"
  | boolean => "z.boolean()"
  | number => "z.number()"
  | integer => "z.number().int()"
  | natural => "z.number().int().nonnegative()"
  | bytes => "z.instanceof(Uint8Array)"
  | date => "z.coerce.date()"
  | any => "z.any()"
  | unknown => "z.unknown()"
  | emptyObject => "z.object(\x7b\x7d)"
  | enum name => "z.enum(" ++ name.shown ++ ")"
  | message name _ => Name.schema name.shown
  | array item => "z.array(" ++ item.schema ++ ")"
  | record key value => "z.record(" ++ key.schema ++ ", " ++ value.schema ++ ")"

/-- The static type that the schema of a type infers in the module of the file with the given path.
    Messages of that file have a name of their own there. -/
def inferred (path : String) : TypeTree → String
  | string => "string"
  | boolean => "boolean"
  | number | integer | natural => "number"
  | bytes => "Uint8Array"
  | date => "Date"
  | any => "any"
  | unknown => "unknown"
  | emptyObject => "Record<string, never>"
  | enum name => name.shown
  | message name file =>
    if file = path then name.shown else "z.infer<typeof " ++ Name.schema name.shown ++ ">"
  | array item => item.inferred path ++ "[]"
  | record key value => "Record<" ++ key.inferred path ++ ", " ++ value.inferred path ++ ">"

/-- In every module, the renderings of a tree are the schema and the declared type of a type that
    may depend on the module. -/
def Renders (tree : TypeTree) (type : String → SchemaType) : Prop :=
  ∀ path, tree.schema = (type path).schema ∧ tree.inferred path = (type path).declared

theorem Renders.array {tree : TypeTree} {type : String → SchemaType} (h : tree.Renders type) :
    tree.array.Renders fun path => (type path).array := by
  intro path
  obtain ⟨hschema, hdeclared⟩ := h path
  exact ⟨congrArg (fun s => "z.array(" ++ s ++ ")") hschema, congrArg (· ++ "[]") hdeclared⟩

end TypeTree

/-- The tree of a scalar type. 64-bit integers are held in strings. -/
def Scalar.tree : Scalar → TypeTree
  | string => .string
  | bool => .boolean
  | int32 | sint32 | sfixed32 => .integer
  | uint32 | fixed32 => .natural
  | int64 | sint64 | sfixed64 | uint64 | fixed64 => .string
  | float | double => .number
  | bytes => .bytes

/-- In both tables, the row of a scalar type holds a rendering of its tree. -/
theorem Scalar.tree_renders (s : Scalar) : s.tree.Renders fun _ => s.schemaType := by
  intro path
  cases s <;> exact ⟨rfl, rfl⟩

/-- The tree of a well-known message. -/
def WellKnown.tree : WellKnown → TypeTree
  | timestamp => .date
  | duration | stringValue => .string
  | any => .unknown
  | struct => .record .string .any
  | value => .any
  | listValue => .array .any
  | empty => .emptyObject
  | int32Value | int64Value => .integer
  | uint32Value | uint64Value => .natural
  | floatValue | doubleValue => .number
  | boolValue => .boolean
  | bytesValue => .bytes

/-- In both tables, the row of a well-known message holds a rendering of its tree. -/
theorem WellKnown.tree_renders (message : WellKnown) :
    message.tree.Renders fun _ => .wellKnown message := by
  intro path
  cases message <;> exact ⟨rfl, rfl⟩

theorem TypeTree.Renders.record {tree : TypeTree} {type : String → SchemaType}
    (h : tree.Renders type) (key : Scalar) :
    (TypeTree.record key.tree tree).Renders fun path => .record (some key) (type path) := by
  intro path
  obtain ⟨hschema, hdeclared⟩ := h path
  have hkey : key.tree.schema = SchemaType.keySchema (some key) ∧
      key.tree.inferred path = SchemaType.keyDeclared (some key) := by
    cases key <;> exact ⟨rfl, rfl⟩
  exact ⟨congrArg₂ (fun k v => "z.record(" ++ k ++ ", " ++ v ++ ")") hkey.1 hschema,
    congrArg₂ (fun k v => "Record<" ++ k ++ ", " ++ v ++ ">") hkey.2 hdeclared⟩

theorem Target.exists_tree (target : Target) :
    ∃ tree : TypeTree, tree.Renders fun path => target.schemaType path := by
  cases target with
  | scalar type => exact ⟨type.tree, type.tree_renders⟩
  | enum ref => exact ⟨.enum ref.name, fun _ => ⟨rfl, rfl⟩⟩
  | message ref =>
    cases hknown : SchemaType.wellKnown? ref.fullName with
    | some type =>
      obtain ⟨message, _, rfl⟩ := Option.map_eq_some_iff.1 hknown
      refine ⟨message.tree, fun path => ?_⟩
      simpa [schemaType, hknown] using message.tree_renders path
    | none =>
      refine ⟨.message ref.name ref.file, fun path => ?_⟩
      simp only [schemaType, hknown]
      by_cases hfile : ref.file = path
      · rw [if_pos hfile]
        exact ⟨rfl, if_pos hfile⟩
      · rw [if_neg hfile]
        exact ⟨rfl, if_neg hfile⟩

/-- Every type has a tree, unless it is a map that lacks its key. -/
theorem FieldType.exists_tree (type : FieldType) (hkey : ∀ value, type ≠ .map none value) :
    ∃ tree : TypeTree, tree.Renders fun path => type.schemaType path := by
  have hunknown : TypeTree.unknown.Renders fun _ => .unknown := fun _ => ⟨rfl, rfl⟩
  cases type with
  | unknown => exact ⟨.unknown, hunknown⟩
  | single target => exact target.exists_tree
  | list target =>
    obtain ⟨tree, htree⟩ := target.exists_tree
    exact ⟨tree.array, htree.array⟩
  | map key value =>
    cases key with
    | none => exact absurd rfl (hkey value)
    | some key =>
      cases value with
      | none => exact ⟨_, hunknown.record key⟩
      | some target =>
        obtain ⟨tree, htree⟩ := target.exists_tree
        exact ⟨_, htree.record key⟩

/-! ## Reading members -/

/-- A member of an object: its name, and whether it may be absent. -/
structure Member where
  name : String
  optional : Bool
deriving DecidableEq

/-- The parts of a line `  head: body` with something that closes it. -/
def memberParts? (close line : String) : Option (String × String) := do
  let inner ← Text.after? "  " line
  let (head, rest) := Text.cut ':' inner
  let rest ← Text.after? " " rest
  let body ← Text.before? close rest
  return (head, body)

/-- The member of a static type that a line declares, with its type. A question mark stands behind
    the name of a member that may be absent. -/
def declaredMember? (line : String) : Option (Member × String) :=
  (memberParts? ";" line).map fun (head, body) =>
    match Text.before? "?" head with
    | some name => (⟨name, true⟩, body)
    | none => (⟨head, false⟩, body)

/-- The member of an object schema that a line describes. The expression of one that may be absent
    ends in the mark. -/
def checkedMember? (line : String) : Option Member :=
  (memberParts? "," line).map fun (head, body) => ⟨head, Text.endsWith optionalMark body⟩

/-- The lines of the block that opens with the first export of a kind. -/
def exportedBlock (kind : ExportKind) (close : String) (lines : List String) : List String :=
  ((lines.dropWhile fun line => (exportedName? kind line).isNone).drop 1).takeWhile (· ≠ close)

/-- The members of the static type that some lines spell out. -/
def declaredMembers (lines : List String) : List (Member × String) :=
  (exportedBlock .type (closeBrace ++ ";") lines).filterMap declaredMember?

/-- The members of the lazy object schema that some lines export. -/
def checkedMembers (lines : List String) : List Member :=
  (exportedBlock .const (closeBrace ++ "));") lines).filterMap checkedMember?

/-! ### Lines -/

theorem Name.Word.colon_notMem {s : String} (h : Word s) : ':' ∉ s.toList :=
  fun hmem => absurd (h _ hmem) (by decide)

/-- A name without a colon is read up to the colon behind it. -/
theorem memberParts?_eq_some {head : String} (hhead : ':' ∉ head.toList) (body close : String) :
    memberParts? close ("  " ++ head ++ ": " ++ body ++ close) = some (head, body) := by
  have hafter : Text.after? "  " ("  " ++ head ++ ": " ++ body ++ close) =
      some (head ++ (":" ++ (" " ++ (body ++ close)))) := by
    rw [Text.after?_eq_some_iff]
    apply String.toList_injective
    simp
  have hcut : Text.cut ':' (head ++ (":" ++ (" " ++ (body ++ close)))) =
      (head, " " ++ (body ++ close)) := by
    have hne : ∀ c ∈ head.toList, decide (c ≠ ':') = true := by
      intro c hc
      rw [decide_eq_true_eq]
      rintro rfl
      exact hhead hc
    simp only [Text.cut, String.toList_append]
    rw [List.takeWhile_append_of_pos hne, List.dropWhile_append_of_pos hne]
    simp [String.ofList_append]
  have hrest : Text.after? " " (" " ++ (body ++ close)) = some (body ++ close) :=
    (Text.after?_eq_some_iff _ _ _).2 rfl
  have hbody : Text.before? close (body ++ close) = some body :=
    (Text.before?_eq_some_iff _ _ _).2 rfl
  simp [memberParts?, hafter, hcut, hrest, hbody]

namespace Property

variable {p : Property} (hname : Word p.name)

include hname

theorem declaredMember?_typeLine :
    declaredMember? p.typeLine = some (⟨p.name, p.optional⟩, p.declaredType) := by
  cases hoptional : p.optional with
  | true =>
    have hline : p.typeLine = "  " ++ (p.name ++ "?") ++ ": " ++ p.declaredType ++ ";" := by
      simp [typeLine, hoptional, String.append_assoc]
    have hmark : Text.before? "?" (p.name ++ "?") = some p.name :=
      (Text.before?_eq_some_iff _ _ _).2 rfl
    rw [declaredMember?, hline, memberParts?_eq_some (by simpa using hname.colon_notMem)]
    simp [hmark]
  | false =>
    have hline : p.typeLine = "  " ++ p.name ++ ": " ++ p.declaredType ++ ";" := by
      simp [typeLine, hoptional]
    have hmark : Text.before? "?" p.name = none := by
      rw [Option.eq_none_iff_forall_ne_some]
      intro front hfront
      have hmem : '?' ∈ p.name.toList := by
        rw [(Text.before?_eq_some_iff _ _ _).1 hfront]
        simp
      exact absurd (hname _ hmem) (by decide)
    rw [declaredMember?, hline, memberParts?_eq_some hname.colon_notMem]
    simp [hmark]

theorem checkedMember?_lines
    (h : ∀ name, p.expression.type.name? = some name → Text.PlainText name.shown) :
    p.lines.filterMap checkedMember? = [⟨p.name, p.optional⟩] := by
  have hline : checkedMember? ("  " ++ p.name ++ ": " ++ p.expression.text ++ ",") =
      some ⟨p.name, p.optional⟩ := by
    rw [checkedMember?, memberParts?_eq_some hname.colon_notMem]
    simp [p.expression.endsWith_text h, Property.optional]
  have hmark : checkedMember? "  /** @deprecated */" = none := by decide
  unfold Property.lines
  cases p.deprecated <;> simp [hline, hmark]

end Property

/-! ### Blocks -/

/-- A block is what stands between its opening line and the line that closes it. -/
theorem exportedBlock_eq {kind : ExportKind} {close opening name : String}
    {front body : List String} (hfront : exportedNames kind front = [])
    (hopening : exportedName? kind opening = some name) (hbody : ∀ line ∈ body, line ≠ close)
    (rest : List String) :
    exportedBlock kind close (front ++ opening :: (body ++ close :: rest)) = body := by
  have hskip : ∀ line ∈ front, (exportedName? kind line).isNone = true := by
    intro line hline
    rw [List.filterMap_eq_nil_iff.1 hfront line hline, Option.isNone_none]
  have hkeep : ∀ line ∈ body, decide (line ≠ close) = true := by
    intro line hline
    exact decide_eq_true (hbody line hline)
  rw [exportedBlock, List.dropWhile_append_of_pos hskip,
    List.dropWhile_cons_of_neg (by simp [hopening]), List.drop_one, List.tail_cons,
    List.takeWhile_append_of_pos hkeep, List.takeWhile_cons_of_neg (by simp), List.append_nil]

theorem exportedName?_head (kind : ExportKind) (rest : String) :
    ∃ name, exportedName? kind (kind.head ++ rest) = some name := by
  rw [exportedName?, (Text.after?_eq_some_iff _ _ _).2 rfl]
  exact ⟨_, rfl⟩

/-- The line that closes the object schema of a message. -/
def MessageExport.objectClose (e : MessageExport) : String :=
  closeBrace ++ if e.recursive then "));" else ");"

/-- Properties are indented, so none of their lines closes the schema. -/
theorem MessageExport.ne_objectClose (e : MessageExport) {line : String}
    (hline : line ∈ e.properties.flatMap Property.lines) : line ≠ e.objectClose := by
  obtain ⟨p, _, hline⟩ := List.mem_flatMap.1 hline
  have hhead : line.toList.head? = some ' ' := by
    rcases List.mem_append.1 hline with hline | hline
    · split at hline <;> simp_all
    · obtain rfl := List.mem_singleton.1 hline
      simp
  rintro rfl
  simp [objectClose, closeBrace] at hhead

namespace MessageExport

variable {e : MessageExport} (hrecursive : e.recursive = true)

include hrecursive

/-- The two blocks of a recursive message: first its type, then its schema. -/
theorem lines_of_recursive :
    e.lines = docLines ("Zod schema for " ++ e.name) e.deprecated ("message " ++ e.fullName) ++
      (ExportKind.type.head ++ (e.name ++ " = " ++ openBrace)) ::
        (e.properties.map Property.typeLine ++ (closeBrace ++ ";") :: "" ::
          (ExportKind.const.head ++ (Name.schema e.name ++ ": z.ZodType<" ++ e.name ++
            "> = z.lazy(() => z.object(" ++ openBrace)) ::
              (e.properties.flatMap Property.lines ++ [closeBrace ++ "));"])) := by
  simp only [MessageExport.lines, hrecursive, if_true, ExportKind.head, String.append_assoc,
    List.append_assoc, List.cons_append, List.nil_append]

/-- The type that is spelled out has a member for each property. -/
theorem declaredMembers_lines (hnames : ∀ p ∈ e.properties, Word p.name) :
    declaredMembers e.lines =
      e.properties.map fun p => (⟨p.name, p.optional⟩, p.declaredType) := by
  have hindented : ∀ line ∈ e.properties.map Property.typeLine, line ≠ closeBrace ++ ";" := by
    intro line hline hclose
    obtain ⟨p, _, rfl⟩ := List.mem_map.1 hline
    have hhead := congrArg (fun s => s.toList.head?) hclose
    simp [Property.typeLine, closeBrace] at hhead
  obtain ⟨name, hopening⟩ := exportedName?_head .type (e.name ++ " = " ++ openBrace)
  rw [declaredMembers, lines_of_recursive hrecursive,
    exportedBlock_eq (exportedNames_docLines ..) hopening hindented, List.filterMap_map,
    ← List.filterMap_eq_map]
  refine List.filterMap_congr fun p hp => ?_
  exact Property.declaredMember?_typeLine (hnames p hp)

end MessageExport

/-- Between the first constant and the line that closes it there are the properties. -/
theorem MessageExport.exportedBlock_lines (e : MessageExport) :
    exportedBlock .const e.objectClose e.lines = e.properties.flatMap Property.lines := by
  cases hrecursive : e.recursive with
  | true =>
    -- what stands before the schema exports a type, but no constant
    have hfront : exportedNames .const
        (docLines ("Zod schema for " ++ e.name) e.deprecated ("message " ++ e.fullName) ++
          (ExportKind.type.head ++ (e.name ++ " = " ++ openBrace)) ::
            (e.properties.map Property.typeLine ++ [closeBrace ++ ";", ""])) = [] := by
      have hend : exportedNames .const [closeBrace ++ ";", ""] = [] := rfl
      rw [exportedNames_append, exportedNames_docLines, exportedNames_cons,
        exportedName?_other .type (by decide), exportedNames_append,
        (exportedNames_properties .const e.properties).2, hend]
      rfl
    obtain ⟨name, hopening⟩ := exportedName?_head .const (Name.schema e.name ++ ": z.ZodType<" ++
      e.name ++ "> = z.lazy(() => z.object(" ++ openBrace)
    have hblock := exportedBlock_eq hfront hopening (fun _ => e.ne_objectClose) []
    rw [objectClose, hrecursive, if_pos rfl] at hblock ⊢
    simp only [List.append_assoc, List.cons_append, List.nil_append] at hblock
    rw [lines_of_recursive hrecursive, hblock]
  | false =>
    have hfront := exportedNames_docLines .const ("Zod schema for " ++ e.name) e.deprecated
      ("message " ++ e.fullName)
    obtain ⟨name, hopening⟩ := exportedName?_head .const
      (Name.schema e.name ++ " = z.object(" ++ openBrace)
    have hblock := exportedBlock_eq hfront hopening (fun _ => e.ne_objectClose)
      ["", "export type " ++ e.name ++ " = z.infer<typeof " ++ Name.schema e.name ++ ">;"]
    rw [objectClose, hrecursive, if_neg Bool.false_ne_true] at hblock ⊢
    rw [← hblock]
    simp only [MessageExport.lines, hrecursive, Bool.false_eq_true, if_false, ExportKind.head,
      String.append_assoc, List.append_assoc, List.cons_append, List.nil_append]

/-- The schema has a member for each property. -/
theorem MessageExport.checkedMembers_lines {e : MessageExport} (hrecursive : e.recursive = true)
    (hnames : ∀ p ∈ e.properties, Word p.name)
    (htypes : ∀ p ∈ e.properties, ∀ name, p.expression.type.name? = some name →
      Text.PlainText name.shown) :
    checkedMembers e.lines = e.properties.map fun p => ⟨p.name, p.optional⟩ := by
  have hblock := e.exportedBlock_lines
  rw [objectClose, hrecursive, if_pos rfl] at hblock
  rw [checkedMembers, hblock, List.filterMap_flatMap,
    List.flatMap_congr fun p hp => Property.checkedMember?_lines (hnames p hp) (htypes p hp),
    ← List.map_eq_flatMap]

/-! ## Recursive messages of a module -/

theorem Name.word_camelChars {s : List Char} (h : ∀ c ∈ s, isWord c = true) :
    ∀ c ∈ camelChars s, isWord c = true := by
  fun_induction camelChars s with
  | case1 => exact h
  | case2 c => exact h
  | case3 c d rest hfold ih =>
    simp only [List.forall_mem_cons] at h ⊢
    exact ⟨(isWord_toUpper h.2.1).1, ih h.2.2⟩
  | case4 c d rest hfold ih =>
    simp only [List.forall_mem_cons] at h ih ⊢
    exact ⟨h.1, ih h.2⟩

theorem Name.word_camelCase {name : String} (h : isIdentifier name = true) :
    Word (camelCase name) := by
  intro c hc
  rw [camelCase, String.toList_ofList] at hc
  exact word_camelChars (word_of_isIdentifier h) c hc

/-- A field with an identifier for its name and for the name of what it refers to. -/
structure Field.Named (field : Field) : Prop where
  name : isIdentifier field.name.shown = true
  typeName : ∀ name, field.type.typeName? = some name → isIdentifier name.shown = true

namespace Field

variable {loader : Loader} {path : String} {recursive : List RawText} {field : Field} {p : Property}

theorem name_property (h : (field.property path recursive loader).outcome = .ok p) :
    p.name = Name.camelCase field.name.shown := by
  obtain ⟨_, _, _, hname, _⟩ := Field.property_eq_ok h
  exact hname

theorem declaredType_property (h : (field.property path recursive loader).outcome = .ok p) :
    p.declaredType = (field.type.schemaType path).declared := by
  obtain ⟨chain, _, hexpression, _, _⟩ := Field.property_eq_ok h
  rw [Property.declaredType, (Field.expression_eq_ok hexpression).1, SchemaType.declared_defer]

theorem Named.plain_typeName (hnamed : field.Named)
    (h : (field.property path recursive loader).outcome = .ok p) (name : RawText)
    (hname : p.expression.type.name? = some name) : Text.PlainText name.shown := by
  obtain ⟨chain, _, hexpression, _, _⟩ := Field.property_eq_ok h
  rw [(Field.expression_eq_ok hexpression).1, SchemaType.name?_defer] at hname
  exact Name.plain_of_isIdentifier (hnamed.typeName name (FieldType.name?_schemaType path _ hname))

end Field

/-- The members of the two blocks of a recursive message are its fields. -/
structure MessageExport.Agrees (e : MessageExport) (path : String) (m : Message Field) : Prop where
  name : e.name = m.name.shown
  /-- The two blocks have the same members in the same order, and the same ones may be absent. -/
  members : (declaredMembers e.lines).map Prod.fst = checkedMembers e.lines
  /-- They are the fields of the message. -/
  names : (checkedMembers e.lines).map Member.name =
    m.fields.map fun field => Name.camelCase field.name.shown
  /-- The declared types are those of the fields. -/
  types : (declaredMembers e.lines).map Prod.snd =
    m.fields.map fun field => (field.type.schemaType path).declared

theorem Message.exported_agrees {loader : Loader} {path : String} {recursive : List RawText}
    {m : Message Field} {e : MessageExport}
    (h : (m.exported path recursive loader).outcome = .ok e) (hrecursive : e.recursive = true)
    (hnamed : ∀ field ∈ m.fields, field.Named) : e.Agrees path m := by
  obtain ⟨hname, _, _, hproperties⟩ := Message.exported_eq_ok h
  have hfields : ∀ p ∈ e.properties, ∃ field ∈ m.fields,
      (field.property path recursive loader).outcome = .ok p :=
    fun p hp => exists_of_mem_forall₂ (List.Forall₂.flip hproperties) hp
  have hwords : ∀ p ∈ e.properties, Word p.name := by
    intro p hp
    obtain ⟨field, hfield, hproperty⟩ := hfields p hp
    rw [Field.name_property hproperty]
    exact Name.word_camelCase (hnamed field hfield).name
  have htypes : ∀ p ∈ e.properties, ∀ name, p.expression.type.name? = some name →
      Text.PlainText name.shown := by
    intro p hp
    obtain ⟨field, hfield, hproperty⟩ := hfields p hp
    exact (hnamed field hfield).plain_typeName hproperty
  have hdeclared := MessageExport.declaredMembers_lines hrecursive hwords
  have hchecked := MessageExport.checkedMembers_lines hrecursive hwords htypes
  refine ⟨hname, ?_, ?_, ?_⟩
  · rw [hdeclared, hchecked, List.map_map]
    rfl
  · rw [hchecked, List.map_map]
    exact map_eq_map_of_forall₂ hproperties fun field p => Field.name_property
  · rw [hdeclared, List.map_map]
    exact map_eq_map_of_forall₂ hproperties fun field p => Field.declaredType_property

namespace SchemaModule

/-- **Explicit types agree with their schemas.** Every type, a map without a key apart, has a tree
    whose renderings are its schema and its declared type in every module. In the module of a file
    whose fields, and the types they refer to, are named by identifiers, the type that is spelled
    out for a recursive message and its schema have the same members in the same order, namely the
    fields of the message. A member has a question mark if and only if its expression ends in
    `.optional()`, and its declared type is that of the field. -/
theorem explicit_types_agree :
    (∀ type : FieldType, (∀ value, type ≠ .map none value) →
      ∃ tree : TypeTree, ∀ path : String, tree.schema = (type.schemaType path).schema ∧
        tree.inferred path = (type.schemaType path).declared) ∧
    ∀ (loader : Loader) (options : Options) (file : SchemaFile Field) (built : SchemaModule),
      (ofFile loader options file).outcome = .ok (some built) →
      (∀ m ∈ file.selected options, ∀ field ∈ m.fields, field.Named) →
      ∀ e ∈ built.messages, e.recursive = true →
        ∃ m ∈ file.selected options, e.Agrees file.path m := by
  refine ⟨FieldType.exists_tree, ?_⟩
  intro loader options file built hbuilt hnamed e he hrecursive
  obtain ⟨_, _, arrangement, harrangement, hexports⟩ := ofFile_eq_some hbuilt
  obtain ⟨m, hm, hexport⟩ := exists_of_mem_forall₂ (List.Forall₂.flip hexports) he
  obtain ⟨arrangement', htotal, hsub, _⟩ :=
    Arrangement.ofMessages_total (file.selected options) file.path
  obtain rfl := Except.ok.inj (harrangement.symm.trans htotal)
  exact ⟨m, hsub hm, Message.exported_agrees hexport hrecursive (hnamed m (hsub hm))⟩

/-- The nodes of a tree: a required label, the node above, the nodes below by name, and kinds that
    another file declares. -/
theorem explicit_types_agree_of_nodes :
    let node : MessageRef := ⟨"Node", "doc.Node", "doc", ⟨0, [0]⟩, false⟩
    let rules : FieldRules := ⟨true, some (.string { pattern := some ".optional()" })⟩
    let file : SchemaFile Field := ⟨"doc.proto", "doc", "doc", [],
      [⟨"Node", "doc.Node", "doc", ⟨0, [0]⟩,
        [⟨"label", 1, .single (.scalar .string), false, some ⟨true, some rules⟩⟩,
         ⟨"parent_node", 2, .single (.message node), false, none⟩,
         ⟨"by_name", 3, .map (some .string) (some (.message node)), false, none⟩,
         ⟨"kinds", 4, .list (.enum ⟨"Kind", "lib.Kind", "lib"⟩), false, none⟩],
        [], [], false, false⟩]⟩
    (∀ m ∈ file.selected {}, ∀ field ∈ m.fields, field.Named) ∧
      (∃ tree : TypeTree, tree.schema = "z.record(z.string(), NodeSchema)" ∧
        tree.inferred "doc" = "Record<string, Node>" ∧
        tree.inferred "lib" = "Record<string, z.infer<typeof NodeSchema>>") ∧
      ∃ built e, (ofFile true {} file).outcome = .ok (some built) ∧ e ∈ built.messages ∧
        e.recursive = true ∧
        (declaredMembers e.lines).map Prod.fst = checkedMembers e.lines ∧
        (checkedMembers e.lines).map Member.name = ["label", "parentNode", "byName", "kinds"] ∧
        (declaredMembers e.lines).map Prod.snd =
          ["string", "Node", "Record<string, Node>", "Kind[]"] := by
  intro node rules file
  have hselected : file.selected {} = file.messages := by cbv
  have hnamed : ∀ m ∈ file.selected {}, ∀ field ∈ m.fields, field.Named := by
    rw [hselected]
    intro m hm field hfield
    obtain rfl := List.mem_singleton.1 hm
    simp only [List.mem_cons, List.not_mem_nil, or_false] at hfield
    rcases hfield with rfl | rfl | rfl | rfl
    · exact ⟨by decide, by rintro name ⟨⟩⟩
    · exact ⟨by decide, by rintro name ⟨⟩; decide⟩
    · exact ⟨by decide, by rintro name ⟨⟩; decide⟩
    · exact ⟨by decide, by rintro name ⟨⟩; decide⟩
  obtain ⟨htrees, hmodules⟩ := explicit_types_agree
  obtain ⟨tree, htree⟩ := htrees (.map (some .string) (some (.message node))) (by simp)
  refine ⟨hnamed, ⟨tree, (htree "doc").1, (htree "doc").2, (htree "lib").2⟩, ?_⟩
  have himports : file.importLines file.messages = [⟨"./lib.js", ["Kind"]⟩] := by
    have hkinds : file.messages.flatMap (Message.imports file.path) = [⟨"Kind", "./lib.js"⟩] := by
      decide
    rw [SchemaFile.importLines, hkinds]
    exact ImportLine.ofImports_singleton ⟨"Kind", "./lib.js"⟩
  have hread : ((ofFile true {} file).outcome.map fun built? => built?.map fun built =>
      built.messages.map MessageExport.recursive) = .ok (some [true]) := by
    rw [ofFile_outcome, hselected, himports, Arrangement.ofMessages_single]
    rfl
  obtain ⟨built?, hout, hread⟩ := map_eq_ok_iff.1 hread
  obtain ⟨built, rfl, hmessages⟩ := Option.map_eq_some_iff.1 hread
  obtain ⟨e, hexports, hrecursive⟩ := List.map_eq_singleton_iff.1 hmessages
  have hmem : e ∈ built.messages := by
    rw [hexports]
    exact List.mem_singleton_self e
  obtain ⟨m, hm, hagrees⟩ := hmodules true {} file built hout hnamed e hmem hrecursive
  rw [hselected] at hm
  obtain rfl := List.mem_singleton.1 hm
  exact ⟨built, e, hout, hmem, hrecursive, hagrees.members, hagrees.names.trans (by decide),
    hagrees.types⟩

end SchemaModule

end ProtoSchema
