import ProtoSchema.Proofs.Module.Building
import ProtoSchema.Proofs.Name

set_option autoImplicit false

/-! # What the text of a module exports

The names that a module exports are read off its lines: what stands after `export const` or
`export type`, up to the end of the word. For a module whose exports are named by identifiers the
constants are the schema and the two tables of each enum and the schema of each message
(`SchemaModule.exported_const`), and there is one type for each of them
(`SchemaModule.exported_type`). -/

namespace ProtoSchema

open Name (isIdentifier isWord Word numberTable nameTable)

/-! ## Lines -/

/-- What can be exported. -/
inductive ExportKind where
  | const | type
deriving DecidableEq

/-- How the line of an export starts. -/
def ExportKind.head : ExportKind → String
  | const => "export const "
  | type => "export type "

/-- The name that a line exports. -/
def exportedName? (kind : ExportKind) (line : String) : Option String :=
  (Text.after? kind.head line).map fun rest => String.ofList (rest.toList.takeWhile isWord)

/-- The names that some lines export. -/
def exportedNames (kind : ExportKind) (lines : List String) : List String :=
  lines.filterMap (exportedName? kind)

/-- An export ends where its name does. -/
theorem exportedName?_eq_some {kind : ExportKind} {line name : String} (rest : String)
    (hline : line.toList = kind.head.toList ++ name.toList ++ rest.toList) (hname : Word name)
    (hrest : (rest.toList.head?.map isWord) = some false) :
    exportedName? kind line = some name := by
  obtain ⟨c, hhead, hc⟩ := Option.map_eq_some_iff.1 hrest
  obtain ⟨tail, htail⟩ := List.head?_eq_some_iff.1 hhead
  have hafter : Text.after? kind.head line = some (name ++ rest) := by
    rw [Text.after?_eq_some_iff]
    apply String.toList_injective
    simp [hline]
  rw [exportedName?, hafter, Option.map_some, String.toList_append, htail,
    List.takeWhile_append_of_pos hname, List.takeWhile_cons_of_neg (by simp [hc]), List.append_nil,
    String.ofList_toList]

theorem exportedName?_other {kind : ExportKind} (other : ExportKind) (h : kind ≠ other)
    (s : String) : exportedName? kind (other.head ++ s) = none := by
  cases kind <;> cases other <;>
    simp [exportedName?, Text.after?, Text.dropHead?, ExportKind.head] at h ⊢

/-- Lines that do not start like an export export nothing. -/
theorem exportedNames_eq_nil {lines : List String}
    (h : ∀ line ∈ lines, line.toList.head? ≠ some 'e') (kind : ExportKind) :
    exportedNames kind lines = [] := by
  rw [exportedNames, List.filterMap_eq_nil_iff]
  intro line hline
  rw [exportedName?, Option.map_eq_none_iff, Option.eq_none_iff_forall_ne_some]
  intro rest hrest
  have hstart := h line hline
  rw [(Text.after?_eq_some_iff _ _ _).1 hrest] at hstart
  cases kind <;> simp [ExportKind.head] at hstart

theorem exportedNames_cons (kind : ExportKind) (line : String) (lines : List String) :
    exportedNames kind (line :: lines) =
      (exportedName? kind line).toList ++ exportedNames kind lines := by
  rw [exportedNames, List.filterMap_cons]
  cases exportedName? kind line <;> rfl

theorem exportedNames_append (kind : ExportKind) (lines lines' : List String) :
    exportedNames kind (lines ++ lines') = exportedNames kind lines ++ exportedNames kind lines' :=
  List.filterMap_append

theorem exportedNames_docLines (kind : ExportKind) (title : String) (deprecated : Bool)
    (origin : String) : exportedNames kind (docLines title deprecated origin) = [] := by
  apply exportedNames_eq_nil
  cases deprecated <;> simp [docLines]

/-! ## Enums -/

/-- The line that opens the table from numbers to names. -/
def EnumExport.numberOpening (e : EnumExport) : String :=
  "export const " ++ Name.screamingSnake e.name ++ "_MAP: Record<number, string> = " ++ openBrace

/-- The line that opens the table from names to members. -/
def EnumExport.nameOpening (e : EnumExport) : String :=
  "export const STRING_TO_" ++ Name.screamingSnake e.name ++ ": Record<string, " ++ e.name ++
    "> = " ++ openBrace

theorem EnumExport.exportedName?_numberOpening {e : EnumExport} (h : isIdentifier e.name = true) :
    exportedName? .const e.numberOpening = some (numberTable e.name) := by
  unfold numberOpening
  exact exportedName?_eq_some (": Record<number, string> = " ++ openBrace)
    (by simp [ExportKind.head, numberTable]) (Name.screaming_numberTable h).word
    (by simp [isWord])

theorem EnumExport.exportedName?_nameOpening {e : EnumExport} (h : isIdentifier e.name = true) :
    exportedName? .const e.nameOpening = some (nameTable e.name) := by
  unfold nameOpening
  exact exportedName?_eq_some (": Record<string, " ++ e.name ++ "> = " ++ openBrace)
    (by simp [ExportKind.head, nameTable]) (Name.screaming_nameTable h).word (by simp [isWord])

/-- Four lines of an enum are exports. -/
theorem EnumExport.exportedNames_lines (kind : ExportKind) (e : EnumExport) :
    exportedNames kind e.lines = exportedNames kind
      ["export const " ++ Name.schema e.name ++ " = z.enum(" ++ e.name ++ ");",
       "export type " ++ e.name ++ "Type = z.infer<typeof " ++ Name.schema e.name ++ ">;",
       e.numberOpening, e.nameOpening] := by
  have hnil : exportedNames kind [] = [] := rfl
  have hblank : exportedName? kind "" = none := by cases kind <;> rfl
  have hend : exportedNames kind [closeBrace ++ ";", ""] = [] := by cases kind <;> rfl
  have hnumbers : exportedNames kind (e.values.map (numberLine e.name)) = [] :=
    exportedNames_eq_nil (by simp [numberLine]) kind
  have hnames : exportedNames kind ((definedValues e.values).map (nameLine e.name)) = [] :=
    exportedNames_eq_nil (by simp [nameLine]) kind
  unfold EnumExport.lines numberOpening nameOpening
  simp only [exportedNames_append, exportedNames_cons, exportedNames_docLines, hnil, hblank, hend,
    hnumbers, hnames, Option.toList_none, List.append_nil, List.nil_append, List.append_assoc]

theorem EnumExport.exported_const {e : EnumExport} (h : isIdentifier e.name = true) :
    exportedNames .const e.lines = [Name.schema e.name, numberTable e.name, nameTable e.name] := by
  have hschema : exportedName? .const
      ("export const " ++ Name.schema e.name ++ " = z.enum(" ++ e.name ++ ");") =
        some (Name.schema e.name) :=
    exportedName?_eq_some (" = z.enum(" ++ e.name ++ ");") (by simp [ExportKind.head])
      (Name.word_schema h) (by simp [isWord])
  have htype : exportedName? .const
      ("export type " ++ e.name ++ "Type = z.infer<typeof " ++ Name.schema e.name ++ ">;") =
        none := by
    simp only [String.append_assoc]
    exact exportedName?_other .type (by decide) _
  rw [EnumExport.exportedNames_lines, exportedNames]
  simp only [List.filterMap_cons, hschema, htype, exportedName?_numberOpening h,
    exportedName?_nameOpening h, List.filterMap_nil]

theorem EnumExport.exported_type {e : EnumExport} (h : isIdentifier e.name = true) :
    exportedNames .type e.lines = [e.name ++ "Type"] := by
  have hconst : ∀ s : String, exportedName? .type ("export const " ++ s) = none :=
    exportedName?_other .const (by decide)
  have hnames : ∀ s : String, exportedName? .type ("export const STRING_TO_" ++ s) = none := by
    intro s
    have hline : "export const STRING_TO_" ++ s = "export const " ++ ("STRING_TO_" ++ s) := by
      apply String.toList_injective
      simp
    rw [hline, hconst]
  have htype : exportedName? .type
      ("export type " ++ e.name ++ "Type = z.infer<typeof " ++ Name.schema e.name ++ ">;") =
        some (e.name ++ "Type") :=
    exportedName?_eq_some (" = z.infer<typeof " ++ Name.schema e.name ++ ">;")
      (by simp [ExportKind.head])
      ((Name.word_of_isIdentifier h).append (by simp [Word, isWord])) (by simp [isWord])
  rw [EnumExport.exportedNames_lines, exportedNames]
  unfold numberOpening nameOpening
  simp only [List.filterMap_cons, htype, List.filterMap_nil]
  simp only [String.append_assoc, hconst, hnames]

/-! ## Messages -/

theorem exportedNames_properties (kind : ExportKind) (properties : List Property) :
    exportedNames kind (properties.flatMap Property.lines) = [] ∧
      exportedNames kind (properties.map Property.typeLine) = [] := by
  refine ⟨exportedNames_eq_nil (fun line hline => ?_) kind,
    exportedNames_eq_nil (by simp [Property.typeLine]) kind⟩
  obtain ⟨p, _, hline⟩ := List.mem_flatMap.1 hline
  rcases List.mem_append.1 hline with hline | hline
  · split at hline
    · obtain rfl := List.mem_singleton.1 hline
      simp
    · cases hline
  · obtain rfl := List.mem_singleton.1 hline
    simp

/-- Two lines of a message are exports; a recursive one has its type first. -/
theorem MessageExport.exportedNames_lines (kind : ExportKind) (e : MessageExport) :
    exportedNames kind e.lines = exportedNames kind
      (if e.recursive then
        ["export type " ++ e.name ++ " = " ++ openBrace,
         "export const " ++ Name.schema e.name ++ ": z.ZodType<" ++ e.name ++
           "> = z.lazy(() => z.object(" ++ openBrace]
      else
        ["export const " ++ Name.schema e.name ++ " = z.object(" ++ openBrace,
         "export type " ++ e.name ++ " = z.infer<typeof " ++ Name.schema e.name ++ ">;"]) := by
  have hnil : exportedNames kind [] = [] := rfl
  have hblank : exportedName? kind "" = none := by cases kind <;> rfl
  have hend : exportedName? kind (closeBrace ++ ";") = none := by cases kind <;> rfl
  have hobject : exportedName? kind (closeBrace ++ ");") = none := by cases kind <;> rfl
  have hlazy : exportedName? kind (closeBrace ++ "));") = none := by cases kind <;> rfl
  obtain ⟨hproperties, htypes⟩ := exportedNames_properties kind e.properties
  unfold MessageExport.lines
  rw [exportedNames_append, exportedNames_docLines, List.nil_append]
  cases e.recursive <;>
    simp only [if_true, if_false, Bool.false_eq_true, exportedNames_append, exportedNames_cons,
      hproperties, htypes, hnil, hblank, hend, hobject, hlazy, Option.toList_none, List.append_nil,
      List.nil_append]

theorem MessageExport.exported_const {e : MessageExport} (h : isIdentifier e.name = true) :
    exportedNames .const e.lines = [Name.schema e.name] := by
  have htype : ∀ s : String, exportedName? .const ("export type " ++ s) = none :=
    exportedName?_other .type (by decide)
  have hconst : ∀ {rest : String}, rest.toList.head?.map isWord = some false →
      exportedName? .const ("export const " ++ (Name.schema e.name ++ rest)) =
        some (Name.schema e.name) :=
    exportedName?_eq_some _ (by simp [ExportKind.head]) (Name.word_schema h)
  rw [MessageExport.exportedNames_lines, exportedNames]
  cases e.recursive <;>
    simp (disch := simp [isWord]) [List.filterMap_cons, String.append_assoc, htype, hconst]

theorem MessageExport.exported_type {e : MessageExport} (h : isIdentifier e.name = true) :
    exportedNames .type e.lines = [e.name] := by
  have hconst : ∀ s : String, exportedName? .type ("export const " ++ s) = none :=
    exportedName?_other .const (by decide)
  have htype : ∀ {rest : String}, rest.toList.head?.map isWord = some false →
      exportedName? .type ("export type " ++ (e.name ++ rest)) = some e.name :=
    exportedName?_eq_some _ (by simp [ExportKind.head]) (Name.word_of_isIdentifier h)
  rw [MessageExport.exportedNames_lines, exportedNames]
  cases e.recursive <;>
    simp (disch := simp [isWord]) [List.filterMap_cons, String.append_assoc, htype, hconst]

/-! ## Modules -/

namespace SchemaModule

/-- The names that a module exports. -/
def exported (kind : ExportKind) (m : SchemaModule) : List String :=
  exportedNames kind m.lines

/-- The lines above the enums are no exports. -/
theorem exported_eq (kind : ExportKind) (m : SchemaModule) :
    m.exported kind = (m.enums.flatMap fun e => exportedNames kind e.lines) ++
      m.messages.flatMap fun e => exportedNames kind e.lines := by
  have hheader : exportedNames kind ["// @generated from file " ++ m.source, "/* eslint-disable */",
      "", "import " ++ openBrace ++ " z " ++ closeBrace ++ " from \"zod\";"] = [] :=
    exportedNames_eq_nil (by simp) kind
  have himports : exportedNames kind (m.imports.map ImportLine.text) = [] := by
    refine exportedNames_eq_nil (fun text htext => ?_) kind
    obtain ⟨line, _, rfl⟩ := List.mem_map.1 htext
    show ("import " ++ openBrace ++ " " ++ _ ++ " " ++ closeBrace ++ " from \"" ++ _ ++
      "\";").toList.head? ≠ some 'e'
    simp
  have hblank : exportedNames kind [""] = [] := exportedNames_eq_nil (by simp) kind
  have hflat : ∀ {α : Type} (l : List α) (f : α → List String),
      exportedNames kind (l.flatMap f) = l.flatMap fun a => exportedNames kind (f a) :=
    fun l f => List.filterMap_flatMap ..
  unfold exported SchemaModule.lines
  simp only [exportedNames_append, hheader, himports, hblank, hflat, List.nil_append,
    List.append_nil]

/-- The constants of a module are the schema and the tables of each enum and the schema of each
    message. -/
theorem exported_const {m : SchemaModule} (henums : ∀ e ∈ m.enums, isIdentifier e.name = true)
    (hmessages : ∀ e ∈ m.messages, isIdentifier e.name = true) :
    m.exported .const =
      (m.enums.flatMap fun e => [Name.schema e.name, numberTable e.name, nameTable e.name]) ++
        m.messages.map fun e => Name.schema e.name := by
  rw [exported_eq, List.flatMap_congr fun e he => EnumExport.exported_const (henums e he),
    List.flatMap_congr fun e he => MessageExport.exported_const (hmessages e he),
    List.map_eq_flatMap]

/-- The types of a module. -/
theorem exported_type {m : SchemaModule} (henums : ∀ e ∈ m.enums, isIdentifier e.name = true)
    (hmessages : ∀ e ∈ m.messages, isIdentifier e.name = true) :
    m.exported .type = (m.enums.map fun e => e.name ++ "Type") ++
      m.messages.map MessageExport.name := by
  rw [exported_eq, List.flatMap_congr fun e he => EnumExport.exported_type (henums e he),
    List.flatMap_congr fun e he => MessageExport.exported_type (hmessages e he),
    List.map_eq_flatMap, List.map_eq_flatMap]

end SchemaModule

end ProtoSchema
