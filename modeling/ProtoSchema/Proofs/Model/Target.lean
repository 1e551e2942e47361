import ProtoSchema.Proofs.Model.Catalog

set_option autoImplicit false

/-! # Targets of references

A reference takes the last declaration of a full name. Every message is declared at one point only,
because places are distinct (`Construction.nodup_places`), so behind a message that is referred to
its file declares no other of the same name (`Construction.exists_split_of_ref`). A file is shown by
the catalogue under its own name, which leads back to it (`Model.file_of_mem_catalog`). -/

namespace ProtoSchema

/-! ## The catalogue -/

namespace Model

/-- Putting in a file adds its name, unless it is there. -/
theorem keys_catalogInsert (file : SchemaFile Field) (entries : List (String × SchemaFile Field)) :
    (catalogInsert file entries).map Prod.fst =
      if file.sourceName ∈ entries.map Prod.fst then entries.map Prod.fst
      else entries.map Prod.fst ++ [file.sourceName] := by
  induction entries with
  | nil => simp [catalogInsert]
  | cons entry rest ih =>
    unfold catalogInsert
    by_cases hentry : entry.1 = file.sourceName
    · simp [hentry]
    · rw [if_neg hentry, List.map_cons, ih]
      by_cases hrest : file.sourceName ∈ rest.map Prod.fst
      · simp [hrest]
      · simp [hrest, Ne.symm hentry]

/-- The names of a catalogue are distinct. -/
theorem nodup_keys_catalog (model : Model) : (model.catalog.map Prod.fst).Nodup := by
  unfold catalog
  generalize hentries : ([] : List (String × SchemaFile Field)) = entries
  have hnodup : (entries.map Prod.fst).Nodup := by simp [← hentries]
  clear hentries
  induction model.files generalizing entries with
  | nil => exact hnodup
  | cons file files ih =>
    rw [List.foldl_cons]
    refine ih _ ?_
    rw [keys_catalogInsert]
    split
    · exact hnodup
    · next hfresh => exact hnodup.append (List.nodup_singleton _) (by simpa using hfresh)

/-- Every file of the catalogue is a file of the model and is found by its name. -/
theorem file_of_mem_catalog {model : Model} {entry : String × SchemaFile Field}
    (h : entry ∈ model.catalog) :
    entry.2 ∈ model.files ∧ entry.2.sourceName = entry.1 ∧
      model.file (.text entry.1) = .ok entry.2 := by
  have hlookup : model.catalog.lookup entry.1 = some entry.2 := by
    obtain ⟨front, back, hsplit⟩ := List.append_of_mem h
    have hnodup := model.nodup_keys_catalog
    rw [hsplit, List.map_append, List.map_cons, List.nodup_middle, List.nodup_cons] at hnodup
    refine List.lookup_eq_some_iff.2 ⟨front, back, hsplit, fun other hother => ?_⟩
    have hne : entry.1 ≠ other.1 := by
      intro heq
      exact hnodup.1 (List.mem_append_left _ (heq ▸ List.mem_map_of_mem hother))
    simpa using hne
  have hfound := hlookup
  unfold catalog at hfound
  rw [lookup_foldl_catalogInsert, List.lookup_nil, Option.or_none] at hfound
  refine ⟨List.mem_reverse.1 (List.mem_of_find?_eq_some hfound), ?_, ?_⟩
  · simpa using List.find?_some hfound
  · unfold Model.file Model.file?
    simp [RawText.decoded?, hlookup]

end Model

/-! ## One point of declaration -/

/-- The messages among some declarations. -/
def Declaration.message? {φ : Type} : Declaration φ → Option (Message φ)
  | enum _ => none
  | message m => some m

theorem filterMap_message?_enums {φ : Type} (enums : List Enum) :
    (enums.map (@Declaration.enum φ)).filterMap Declaration.message? = [] := by
  simp [Declaration.message?]

mutual

theorem Message.filterMap_declarations {φ : Type} :
    (m : Message φ) → m.declarations.filterMap Declaration.message? = m.withNested
  | ⟨name, fullName, file, place, fields, enums, messages, deprecated, mapEntry⟩ => by
    rw [Message.declarations, Message.withNested, List.cons_append, List.filterMap_cons,
      List.filterMap_append, filterMap_message?_enums, Message.filterMap_declarationsAll messages]
    rfl

theorem Message.filterMap_declarationsAll {φ : Type} :
    (ms : List (Message φ)) →
      (Message.declarationsAll ms).filterMap Declaration.message? = Message.withNestedAll ms
  | [] => rfl
  | m :: ms => by
    rw [Message.declarationsAll, Message.withNestedAll, List.filterMap_append,
      Message.filterMap_declarations m, Message.filterMap_declarationsAll ms]

end

theorem Message.declarationsAll_eq_flatMap {φ : Type} (ms : List (Message φ)) :
    Message.declarationsAll ms = ms.flatMap Message.declarations := by
  induction ms with
  | nil => rfl
  | cons m ms ih => rw [Message.declarationsAll, ih, List.flatMap_cons]

theorem Message.name_mapFields {φ ψ : Type} (f : Place → Nat → φ → ψ) (m : Message φ) :
    (m.mapFields f).name = m.name :=
  congrArg MessageRef.name (m.ref_mapFields f)

/-- A message is the first of its own declarations. -/
theorem Message.exists_declarations_eq {φ : Type} (m : Message φ) :
    ∃ rest, m.declarations = .message m :: rest := by
  cases m
  exact ⟨_, rfl⟩

/-- The full name of a message of a scope is made from its name. -/
theorem MessageDescriptor.fullName_of_mem_outlineAll {scope : RawText} {file : String}
    {place : Place} {index : Nat} {ds : List MessageDescriptor} {m : Message FieldDescriptor}
    (h : m ∈ MessageDescriptor.outlineAll scope file place index ds) :
    m.fullName = qualify scope m.name := by
  induction ds generalizing index with
  | nil => simp [MessageDescriptor.outlineAll] at h
  | cons d ds ih =>
    rw [MessageDescriptor.outlineAll, List.mem_cons] at h
    rcases h with rfl | h
    · cases d
      rfl
    · exact ih h

namespace Construction

variable {files : List FileDescriptor} (c : Construction files)

theorem filterMap_types : c.types.filterMap Declaration.message? = c.messages := by
  rw [types, messages, List.filterMap_flatMap]
  congr 1
  funext file
  rw [SchemaFile.declarations, List.filterMap_append, filterMap_message?_enums,
    Message.filterMap_declarationsAll, List.nil_append]

/-- No place is taken twice. -/
theorem nodup_places : (c.messages.map Message.place).Nodup := by
  rw [messages, List.map_flatMap, List.nodup_flatMap]
  constructor
  · intro file hfile
    obtain ⟨d, _, i, name, _, rfl⟩ := c.exists_descriptor hfile
    exact MessageDescriptor.outlineAll_nodup _ _ _ _ _
  · -- messages of different files have places with different numbers
    rw [List.pairwise_iff_getElem]
    intro i j hi hj hij place hplace hplace'
    have hnumber : ∀ (k : Nat) (hk : k < c.outlined.length),
        place ∈ (Message.withNestedAll c.outlined[k].messages).map Message.place →
          place.file = k := by
      intro k hk hmem
      obtain ⟨d, name, _, _, hd⟩ := Model.outline_getElem? c.outline_eq
        (List.getElem?_eq_getElem hk)
      rw [hd] at hmem
      obtain ⟨m, hm, rfl⟩ := List.mem_map.1 hmem
      exact (MessageDescriptor.outlineAll_place _ _ _ _ _ m hm).2.1
    have hi' := hnumber i hi hplace
    have hj' := hnumber j hj hplace'
    omega

/-- A message is declared at one point only. -/
theorem types_split_unique {front back front' back' : Declarations FieldDescriptor}
    {m : Message FieldDescriptor} (h : c.types = front ++ .message m :: back)
    (h' : c.types = front' ++ .message m :: back') : back = back' := by
  have hmessages := c.filterMap_types
  rw [h, List.filterMap_append, List.filterMap_cons] at hmessages
  have hnodup := c.nodup_places
  rw [← hmessages] at hnodup
  simp only [Declaration.message?, List.map_append, List.map_cons] at hnodup
  rw [List.nodup_middle, List.nodup_cons] at hnodup
  have hfresh : ∀ l : Declarations FieldDescriptor, Declaration.message m ∈ l →
      m.place ∈ (l.filterMap Declaration.message?).map Message.place := fun l hl =>
    List.mem_map_of_mem (List.mem_filterMap.2 ⟨_, hl, rfl⟩)
  have hfront : Declaration.message m ∉ front := fun hmem =>
    hnodup.1 (List.mem_append_left _ (hfresh front hmem))
  have hback : Declaration.message m ∉ back := fun hmem =>
    hnodup.1 (List.mem_append_right _ (hfresh back hmem))
  exact ((List.append_cons_inj_of_notMem hfront hback).1 (h.symm.trans h')).2.2

/-- Behind a message that is found by its full name, its file has none of the same name. -/
theorem exists_split_of_find? {file : SchemaFile FieldDescriptor} (hfile : file ∈ c.outlined)
    {full : String} {m : Message FieldDescriptor} (hm : m ∈ file.messages)
    (hfind : c.types.find? full = some (.message m)) :
    ∃ front back, file.messages = front ++ m :: back ∧ ∀ x ∈ back, x.name ≠ m.name := by
  obtain ⟨front, back, hsplit⟩ := List.append_of_mem hm
  refine ⟨front, back, hsplit, fun x hx hname => ?_⟩
  -- all that is declared behind the message has another full name
  obtain ⟨_, later, earlier, htypes, hlater⟩ := List.find?_eq_some_iff_append.1 hfind
  have htypes : c.types = earlier.reverse ++ .message m :: later.reverse := by
    simpa using congrArg List.reverse htypes
  obtain ⟨files₁, files₂, houtlined⟩ := List.append_of_mem hfile
  obtain ⟨rest, hrest⟩ := m.exists_declarations_eq
  have htypes' : c.types = (files₁.flatMap SchemaFile.declarations ++ file.enums.map .enum ++
      front.flatMap Message.declarations) ++ .message m ::
        (rest ++ back.flatMap Message.declarations ++ files₂.flatMap SchemaFile.declarations) := by
    simp [types, houtlined, SchemaFile.declarations, hsplit, Message.declarationsAll_eq_flatMap,
      hrest]
  have hbehind : Declaration.message x ∈ later := by
    rw [← List.mem_reverse, c.types_split_unique htypes htypes']
    obtain ⟨rest', hrest'⟩ := x.exists_declarations_eq
    have hdeclared : Declaration.message x ∈ back.flatMap Message.declarations :=
      List.mem_flatMap.2 ⟨x, hx, by rw [hrest']; exact List.mem_cons_self⟩
    exact List.mem_append_left _ (List.mem_append_right _ hdeclared)
  have hsame : x.fullName = m.fullName := by
    obtain ⟨d, _, i, name, _, rfl⟩ := c.exists_descriptor hfile
    have hx' : x ∈ (d.outlineAs i name).messages := by
      rw [hsplit]
      simp [hx]
    rw [MessageDescriptor.fullName_of_mem_outlineAll hx',
      MessageDescriptor.fullName_of_mem_outlineAll hm, hname]
  have hother : x.fullName ≠ .text (String.ofList (full.toList.dropWhile (· = '.'))) :=
    of_decide_eq_false ((Bool.not_eq_true' _).mp (hlater _ hbehind))
  exact hother (hsame.trans (Declarations.fullName_of_find? hfind))

/-- Behind a message that is referred to, its file has none of the same name. -/
theorem exists_split_of_ref {m : Message Field} (hm : m ∈ c.model.messages) {field : Field}
    (hfield : field ∈ m.fields) {ref : MessageRef} (href : field.type.message? = some ref)
    {target : SchemaFile Field} (htarget : target ∈ c.model.files) {t : Message Field}
    (ht : t ∈ target.messages) (hplace : ref.place = t.place) :
    ∃ front back, target.messages = front ++ t :: back ∧ ∀ x ∈ back, x.name ≠ t.name := by
  obtain ⟨full, x, hfind, rfl⟩ := c.exists_find?_of_message? hm hfield href
  obtain ⟨file, hfile, rfl⟩ := List.mem_map.1 htarget
  rw [SchemaFile.mapFields, Message.mapFieldsAll_eq_map] at ht ⊢
  obtain ⟨y, hy, rfl⟩ := List.mem_map.1 ht
  have hx : x ∈ c.messages :=
    (c.message_mem_types_iff x).1 (Declarations.mem_of_find? hfind)
  have hy' : y ∈ c.messages :=
    List.mem_flatMap.2 ⟨file, hfile, Message.mem_withNestedAll_of_mem hy⟩
  rw [Message.place_mapFields] at hplace
  obtain rfl := c.place_inj hx hy' hplace
  obtain ⟨front, back, hsplit, hback⟩ := c.exists_split_of_find? hfile hy hfind
  refine ⟨_, _, by rw [hsplit, List.map_append, List.map_cons], fun z hz => ?_⟩
  obtain ⟨other, hother, rfl⟩ := List.mem_map.1 hz
  rw [Message.name_mapFields, Message.name_mapFields]
  exact hback other hother

end Construction

end ProtoSchema
