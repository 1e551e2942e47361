import Mathlib.Data.List.Pairwise
import ProtoSchema.Proofs.Model.Settling

set_option autoImplicit false

/-! # The last one counts

Of several files with one name a model shows the last one (`Model.file_text`), and of several
declarations with one full name a reference takes the last one. If files and their types can be told
apart by their names, up to repetitions of a whole file, the two agree: references to what the shown
file declares are to the shown file (`Construction.Latest.find?_eq_some`). So the full name of a
reference says which message of the file it is to (`Construction.Latest.placesByName`). -/

namespace ProtoSchema

/-! ## Files by name -/

namespace Model

theorem lookup_catalogInsert (file : SchemaFile Field) (entries : List (String × SchemaFile Field))
    (name : String) :
    (catalogInsert file entries).lookup name =
      if file.sourceName = name then some file else entries.lookup name := by
  induction entries with
  | nil =>
    by_cases hname : name = file.sourceName
    · simp [catalogInsert, hname]
    · have hother : (name == file.sourceName) = false := by simpa using hname
      simp [catalogInsert, List.lookup_cons, hother, Ne.symm hname]
  | cons entry rest ih =>
    unfold catalogInsert
    by_cases hentry : entry.1 = file.sourceName
    · rw [if_pos hentry]
      by_cases hname : name = file.sourceName
      · simp [hname]
      · have hother : (name == file.sourceName) = false := by simpa using hname
        obtain ⟨key, value⟩ := entry
        obtain rfl : key = file.sourceName := hentry
        simp [List.lookup_cons, hother, Ne.symm hname]
    · rw [if_neg hentry]
      obtain ⟨key, value⟩ := entry
      rw [List.lookup_cons, List.lookup_cons, ih]
      by_cases hkey : name = key
      · subst hkey
        simp [Ne.symm hentry]
      · have hother : (name == key) = false := by simpa using hkey
        simp [hother]

theorem lookup_foldl_catalogInsert (files : List (SchemaFile Field))
    (entries : List (String × SchemaFile Field)) (name : String) :
    (files.foldl (fun entries file => catalogInsert file entries) entries).lookup name =
      (files.reverse.find? fun file => file.sourceName = name).or (entries.lookup name) := by
  induction files generalizing entries with
  | nil => rfl
  | cons file files ih =>
    rw [List.foldl_cons, ih, lookup_catalogInsert, List.reverse_cons, List.find?_append]
    by_cases hname : file.sourceName = name
    · simp [hname]
    · simp [hname]

/-- A file is found by its name, and of several files with that name the last one. -/
theorem file_text {model : Model} {front back : List (SchemaFile Field)} {file : SchemaFile Field}
    (hfiles : model.files = front ++ file :: back)
    (hback : ∀ other ∈ back, other.sourceName ≠ file.sourceName) :
    model.file (.text file.sourceName) = .ok file := by
  have hlookup : model.catalog.lookup file.sourceName = some file := by
    have hnone : back.reverse.find? (fun other => other.sourceName = file.sourceName) = none := by
      rw [List.find?_eq_none]
      intro other hother
      simpa using hback other (List.mem_reverse.1 hother)
    unfold catalog
    rw [lookup_foldl_catalogInsert, hfiles, List.reverse_append, List.reverse_cons,
      List.append_assoc, List.find?_append, hnone]
    simp
  unfold Model.file Model.file?
  simp [RawText.decoded?, hlookup]

end Model

/-! ## Declarations by full name -/

theorem Message.fullName_mapFields {φ ψ : Type} (f : Place → Nat → φ → ψ) (m : Message φ) :
    (m.mapFields f).fullName = m.fullName :=
  congrArg MessageRef.fullName (m.ref_mapFields f)

theorem Message.mapFieldsAll_eq_map {φ ψ : Type} (f : Place → Nat → φ → ψ)
    (ms : List (Message φ)) : Message.mapFieldsAll f ms = ms.map (Message.mapFields f) := by
  induction ms with
  | nil => rfl
  | cons m ms ih => rw [Message.mapFieldsAll, ih, List.map_cons]

theorem Declarations.find?_eq {φ : Type} (types : Declarations φ) (name : String) :
    types.find? name = types.reverse.find? fun d =>
      d.fullName = .text (String.ofList (name.toList.dropWhile (· = '.'))) :=
  rfl

/-- A name without the dots in front of it. -/
def RawText.withoutDots : RawText → RawText
  | text s => text (String.ofList (s.toList.dropWhile (· = '.')))
  | undecodable bytes => undecodable (bytes.dropWhile (· = 46))

theorem Declarations.fullName_of_find? {φ : Type} {types : Declarations φ} {name : String}
    {d : Declaration φ} (h : types.find? name = some d) :
    d.fullName = .text (String.ofList (name.toList.dropWhile (· = '.'))) := by
  rw [Declarations.find?_eq] at h
  have hname := List.find?_some h
  exact of_decide_eq_true hname

/-- Where full names are distinct, a name finds the one declaration that has it. -/
theorem Declarations.find?_eq_some_iff {φ : Type} {types : Declarations φ}
    (hnodup : (types.map Declaration.fullName).Nodup) (name : String) (d : Declaration φ) :
    types.find? name = some d ↔ d ∈ types ∧ d.fullName = RawText.withoutDots (.text name) := by
  constructor
  · intro h
    exact ⟨Declarations.mem_of_find? h, Declarations.fullName_of_find? h⟩
  · rintro ⟨hd, hname⟩
    rw [Declarations.find?_eq]
    exact find?_reverse_of_nodup hnodup hd (decide_eq_true hname) fun _ hsame =>
      (of_decide_eq_true hsame).trans hname.symm

/-- Every way to look for a name ends in finding a full name. -/
theorem Declarations.exists_find?_of_lookup? {φ : Type} {types : Declarations φ} {owner : RawText}
    {name : String} {d : Declaration φ} (h : types.lookup? owner name = .ok (some d)) :
    ∃ full, types.find? full = some d := by
  unfold Declarations.lookup? at h
  split at h
  · next found hfound =>
    obtain rfl := Option.some.inj (Except.ok.inj h)
    exact ⟨name, hfound⟩
  · split at h
    · cases h
    · split at h
      · obtain ⟨scope, _, hscope⟩ := List.exists_of_findSome?_eq_some (Except.ok.inj h)
        exact ⟨_, hscope⟩
      · cases h

theorem Slot.exists_find?_of_target? {types : Declarations FieldDescriptor} {slot : Slot}
    {ref : MessageRef} (h : slot.target? types = .ok (some (.message ref))) :
    ∃ full m, types.find? full = some (.message m) ∧ ref = m.ref := by
  unfold Slot.target? at h
  split at h
  · cases h
  · cases h
  · obtain ⟨found, _, h⟩ := bind_eq_ok_iff.1 h
    split at h <;> cases h
  · obtain ⟨found, hfound, h⟩ := bind_eq_ok_iff.1 h
    split at h
    · next m =>
      cases h
      unfold Slot.named? at hfound
      split at hfound
      · obtain ⟨full, hfind⟩ := Declarations.exists_find?_of_lookup? hfound
        exact ⟨full, m, hfind, rfl⟩
      · cases hfound
    · cases h

/-! ## Full names of descriptors -/

mutual

/-- The full names of a message in a scope, of its enums, and of what is nested in it. -/
def MessageDescriptor.typeNames (scope : RawText) : MessageDescriptor → List RawText
  | ⟨name, _, messages, enums, _, _⟩ =>
    let fullName := qualify scope name
    fullName :: enums.map (fun e => qualify fullName e.name) ++
      MessageDescriptor.typeNamesAll fullName messages

def MessageDescriptor.typeNamesAll (scope : RawText) : List MessageDescriptor → List RawText
  | [] => []
  | m :: ms => m.typeNames scope ++ MessageDescriptor.typeNamesAll scope ms

end

/-- The full names of the types that a file declares. -/
def FileDescriptor.typeNames (d : FileDescriptor) : List RawText :=
  d.enums.map (fun e => qualify d.package e.name) ++
    MessageDescriptor.typeNamesAll d.package d.messages

theorem EnumDescriptor.fullNames_outline (scope : RawText) (file : String)
    (enums : List EnumDescriptor) :
    ((enums.map (EnumDescriptor.outline scope file)).map Declaration.enum).map
        (@Declaration.fullName FieldDescriptor) =
      enums.map fun e => qualify scope e.name := by
  simp only [List.map_map]
  rfl

mutual

theorem MessageDescriptor.fullNames_outline (scope : RawText) (file : String) (place : Place) :
    (d : MessageDescriptor) →
      (d.outline scope file place).declarations.map Declaration.fullName = d.typeNames scope
  | ⟨name, fields, messages, enums, deprecated, mapEntry⟩ => by
    simp only [MessageDescriptor.outline, Message.declarations, MessageDescriptor.typeNames,
      List.cons_append, List.map_cons, List.map_append, EnumDescriptor.fullNames_outline,
      MessageDescriptor.fullNames_outlineAll (qualify scope name) file place 0 messages]
    rfl

theorem MessageDescriptor.fullNames_outlineAll (scope : RawText) (file : String) (place : Place)
    (index : Nat) : (ds : List MessageDescriptor) →
      (Message.declarationsAll (MessageDescriptor.outlineAll scope file place index ds)).map
        Declaration.fullName = MessageDescriptor.typeNamesAll scope ds
  | [] => rfl
  | d :: ds => by
    rw [MessageDescriptor.outlineAll, Message.declarationsAll, MessageDescriptor.typeNamesAll,
      List.map_append, MessageDescriptor.fullNames_outline scope file _ d,
      MessageDescriptor.fullNames_outlineAll scope file place (index + 1) ds]

end

/-- Neither the number of a file nor its name is in the full names of its types. -/
theorem FileDescriptor.fullNames_outlineAs (d : FileDescriptor) (i : Nat) (name : String) :
    (d.outlineAs i name).declarations.map Declaration.fullName = d.typeNames := by
  simp only [SchemaFile.declarations, FileDescriptor.outlineAs, FileDescriptor.typeNames,
    List.map_append, EnumDescriptor.fullNames_outline, MessageDescriptor.fullNames_outlineAll]

/-- What an outline shows of its files, if their numbers and names have no part in it. -/
theorem Model.map_outlined {β : Type} {files : List FileDescriptor}
    {outlined : List (SchemaFile FieldDescriptor)} (h : Model.outline files = .ok outlined)
    {f : SchemaFile FieldDescriptor → β} {g : FileDescriptor → β}
    (hfg : ∀ d i name, f (d.outlineAs i name) = g d) : outlined.map f = files.map g := by
  apply List.ext_getElem?
  intro i
  rw [List.getElem?_map, List.getElem?_map]
  cases hfile : outlined[i]? with
  | some file =>
    obtain ⟨d, name, hd, _, rfl⟩ := Model.outline_getElem? h hfile
    rw [hd]
    exact congrArg some (hfg d i name)
  | none =>
    have hlength := congrArg List.length (Model.mapIdx_outline h)
    rw [List.length_mapIdx, List.length_map] at hlength
    rw [List.getElem?_eq_none_iff, ← hlength, ← List.getElem?_eq_none_iff] at hfile
    rw [hfile]
    rfl

/-- The full names of the types that an outline declares are those of the input files. -/
theorem Model.fullNames_declarations {files : List FileDescriptor}
    {outlined : List (SchemaFile FieldDescriptor)} (h : Model.outline files = .ok outlined) :
    (outlined.flatMap SchemaFile.declarations).map Declaration.fullName =
      files.flatMap FileDescriptor.typeNames := by
  rw [List.map_flatMap, List.flatMap_def, List.flatMap_def]
  exact congrArg List.flatten (Model.map_outlined h FileDescriptor.fullNames_outlineAs)

/-- Files with names of their own that declare types with full names of their own. -/
structure Distinct (files : List FileDescriptor) : Prop where
  names : (files.map FileDescriptor.name).Nodup
  typeNames : (files.flatMap FileDescriptor.typeNames).Nodup

theorem Distinct.disjoint {files : List FileDescriptor} (h : Distinct files) {d e : FileDescriptor}
    (hd : d ∈ files) (he : e ∈ files) (hne : d ≠ e) : d.typeNames.Disjoint e.typeNames := by
  have hsymm : Std.Symm (Function.onFun List.Disjoint FileDescriptor.typeNames) :=
    ⟨fun _ _ hdisjoint _ hx hy => hdisjoint hy hx⟩
  exact (List.nodup_flatMap.1 h.typeNames).2.forall hd he hne

/-! ## The latest file of a name -/

/-- Full names tell which of the given messages their fields refer to. -/
def PlacesByName (messages : List (Message Field)) : Prop :=
  ∀ m ∈ messages, ∀ field ∈ m.fields, ∀ ref, field.type.message? = some ref →
    ∀ t ∈ messages, t.place = ref.place ↔ t.fullName = ref.fullName

namespace Construction

variable {files : List FileDescriptor} (c : Construction files)

theorem build_eq : Model.build files = .ok c.model :=
  bind_eq_ok_iff.2 ⟨_, c.outline_eq, bind_eq_ok_iff.2 ⟨_, c.resolveAll_eq,
    bind_eq_ok_iff.2 ⟨_, c.settleAll_eq, rfl⟩⟩⟩

theorem exists_descriptor {file : SchemaFile FieldDescriptor} (hfile : file ∈ c.outlined) :
    ∃ d ∈ files, ∃ i name, d.name = .text name ∧ file = d.outlineAs i name :=
  Model.exists_descriptor c.outline_eq hfile

theorem exists_outlined {d : FileDescriptor} (hd : d ∈ files) :
    ∃ i name, d.name = .text name ∧ d.outlineAs i name ∈ c.outlined :=
  Model.exists_outlined c.outline_eq hd

theorem fullNames_types :
    c.types.map Declaration.fullName = files.flatMap FileDescriptor.typeNames :=
  Model.fullNames_declarations c.outline_eq

/-- What a field of the model refers to has been found by its full name. -/
theorem exists_find?_of_message? {m : Message Field} (hm : m ∈ c.model.messages) {field : Field}
    (hfield : field ∈ m.fields) {ref : MessageRef} (href : field.type.message? = some ref) :
    ∃ full t, c.types.find? full = some (.message t) ∧ ref = t.ref := by
  obtain ⟨_, _, x, _, rfl⟩ := (Model.mem_messages_mapFields_iff c.outlined _ m).1 hm
  rw [Message.fields_mapFields] at hfield
  obtain ⟨index, hindex, rfl⟩ := List.mem_mapIdx.1 hfield
  have hsourced : Settled.Sourced c.references c.settled :=
    settle_sourced c.references (List.Subset.refl _) (by simp [Settled.Sourced]) c.settleAll_eq
  obtain ⟨r, hr, htarget⟩ := Model.typedField_sourced hsourced (FieldType.target?_of_message? href)
  obtain ⟨_, _, _, _, _, hresolves⟩ := c.exists_field hr
  have hslot := hresolves.spec.2.2
  rw [htarget] at hslot
  exact Slot.exists_find?_of_target? hslot

/-- The last file of its name, with declarations whose full names are its own: neither one of its
    other declarations nor a later file has them. -/
structure Latest (file : SchemaFile FieldDescriptor) : Prop where
  exists_split : ∃ front back, c.outlined = front ++ file :: back ∧ ∀ other ∈ back,
    other.sourceName ≠ file.sourceName ∧
      ∀ d ∈ file.declarations, ∀ d' ∈ other.declarations, d'.fullName ≠ d.fullName
  nodup : (file.declarations.map Declaration.fullName).Nodup

variable {c} {file : SchemaFile FieldDescriptor}

theorem Latest.mem (h : c.Latest file) : file ∈ c.outlined := by
  obtain ⟨front, back, hsplit, _⟩ := h.exists_split
  rw [hsplit]
  simp

theorem Latest.model_file (h : c.Latest file) :
    c.model.file (.text file.sourceName) =
      .ok (file.mapFields (Model.typedField c.settled)) := by
  obtain ⟨front, back, hsplit, hback⟩ := h.exists_split
  have hfiles : c.model.files = front.map (·.mapFields (Model.typedField c.settled)) ++
      file.mapFields (Model.typedField c.settled) ::
        back.map (·.mapFields (Model.typedField c.settled)) := by
    show c.outlined.map _ = _
    rw [hsplit, List.map_append, List.map_cons]
  refine Model.file_text hfiles fun other hother => ?_
  obtain ⟨outlined, houtlined, rfl⟩ := List.mem_map.1 hother
  exact (hback outlined houtlined).1

theorem Latest.find?_eq_some (h : c.Latest file) {full : String} {d : Declaration FieldDescriptor}
    (hd : d ∈ file.declarations)
    (hname : d.fullName = .text (String.ofList (full.toList.dropWhile (· = '.')))) :
    c.types.find? full = some d := by
  obtain ⟨front, back, hsplit, hback⟩ := h.exists_split
  have hlater : (back.flatMap SchemaFile.declarations).reverse.find? (fun d =>
      d.fullName = .text (String.ofList (full.toList.dropWhile (· = '.')))) = none := by
    rw [List.find?_eq_none]
    intro d' hd'
    obtain ⟨other, hother, hd'⟩ := List.mem_flatMap.1 (List.mem_reverse.1 hd')
    rw [← hname]
    simpa using (hback other hother).2 d hd d' hd'
  have hown : file.declarations.reverse.find? (fun d =>
      d.fullName = .text (String.ofList (full.toList.dropWhile (· = '.')))) = some d :=
    find?_reverse_of_nodup h.nodup hd (decide_eq_true hname) fun _ hname' =>
      (of_decide_eq_true hname').trans hname.symm
  rw [Declarations.find?_eq, types, hsplit, List.flatMap_append, List.flatMap_cons,
    List.reverse_append, List.reverse_append, List.append_assoc, List.find?_append, hlater,
    List.find?_append, hown]
  rfl

theorem exists_last {α : Type} {p : α → Prop} {l : List α} (h : ∃ a ∈ l, p a) :
    ∃ front a back, l = front ++ a :: back ∧ p a ∧ ∀ b ∈ back, ¬ p b := by
  induction l with
  | nil => simp at h
  | cons x xs ih =>
    by_cases hrest : ∃ a ∈ xs, p a
    · obtain ⟨front, a, back, rfl, ha, hback⟩ := ih hrest
      exact ⟨x :: front, a, back, rfl, ha, hback⟩
    · obtain ⟨a, ha, hp⟩ := h
      rcases List.mem_cons.1 ha with rfl | ha
      · exact ⟨[], a, xs, rfl, hp, fun b hb hpb => hrest ⟨b, hb, hpb⟩⟩
      · exact absurd ⟨a, ha, hp⟩ hrest

/-- Each of the files has a latest outline, if they are among files that can be told apart. -/
theorem exists_latest (c : Construction files) {all : List FileDescriptor} (hsub : files ⊆ all)
    (hdistinct : Distinct all) {d : FileDescriptor} (hd : d ∈ files) :
    ∃ i name, d.name = .text name ∧ c.Latest (d.outlineAs i name) := by
  obtain ⟨i, name, hname, hmem⟩ := c.exists_outlined hd
  obtain ⟨front, latest, back, hsplit, hlatest, hback⟩ :=
    exists_last (p := fun file => file.sourceName = name) ⟨_, hmem, rfl⟩
  have hmem : latest ∈ c.outlined := by
    rw [hsplit]
    simp
  obtain ⟨d', hd', j, name', hname', rfl⟩ := c.exists_descriptor hmem
  obtain rfl : name' = name := hlatest
  -- the last file of that name may stand elsewhere, but it is the same file again
  obtain rfl : d' = d :=
    List.inj_on_of_nodup_map hdistinct.names (hsub hd') (hsub hd) (hname'.trans hname.symm)
  refine ⟨j, name', hname, ⟨front, back, hsplit, fun other hother => ⟨hback other hother, ?_⟩⟩, ?_⟩
  · -- a file of another name declares other types
    have hmem : other ∈ c.outlined := by
      rw [hsplit]
      simp [hother]
    obtain ⟨e, he, k, name, hename, rfl⟩ := c.exists_descriptor hmem
    have hne : d' ≠ e := by
      rintro rfl
      exact hback _ hother (RawText.text.inj (hename.symm.trans hname))
    intro x hx y hy hxy
    have hdisjoint := hdistinct.disjoint (hsub hd) (hsub he) hne
    rw [← d'.fullNames_outlineAs j name', ← e.fullNames_outlineAs k name] at hdisjoint
    exact hdisjoint (List.mem_map_of_mem hx) (hxy ▸ List.mem_map_of_mem hy)
  · rw [FileDescriptor.fullNames_outlineAs]
    exact (List.nodup_flatMap.1 hdistinct.typeNames).1 d' (hsub hd)

/-- In the last file of its name, full names tell the messages that are referred to. -/
theorem Latest.placesByName (h : c.Latest file) :
    PlacesByName (file.mapFields (Model.typedField c.settled)).messages := by
  have hfile : file.mapFields (Model.typedField c.settled) ∈ c.model.files :=
    List.mem_map_of_mem h.mem
  intro m hm field hfield ref href t ht
  have hmessage := Model.mem_messages hfile hm
  constructor
  · intro hplace
    have hcoherent := Model.build_coherent c.build_eq
    rw [hcoherent.ref_eq hmessage (Model.mem_messages hfile ht) hfield href hplace]
    rfl
  · intro hname
    -- the name that found the reference finds the message of the file
    obtain ⟨full, x, hfind, rfl⟩ := c.exists_find?_of_message? hmessage hfield href
    rw [SchemaFile.mapFields, Message.mapFieldsAll_eq_map] at ht
    obtain ⟨y, hy, rfl⟩ := List.mem_map.1 ht
    have hdeclared : Declaration.message y ∈ file.declarations :=
      (SchemaFile.message_mem_declarations y file).2 (Message.mem_withNestedAll_of_mem hy)
    rw [Message.fullName_mapFields] at hname
    have hfound := h.find?_eq_some hdeclared (hname.trans (Declarations.fullName_of_find? hfind))
    obtain rfl := Declaration.message.inj (Option.some.inj (hfind.symm.trans hfound))
    exact Message.place_mapFields _ _

end Construction

end ProtoSchema
