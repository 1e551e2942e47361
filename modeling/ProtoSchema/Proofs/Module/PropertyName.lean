import ProtoSchema.Proofs.Module.StaticType

set_option autoImplicit false

/-! # Property names

A compiler of schema files gives every field a name for JSON: all underscores are dropped, and a
letter behind one is in upper case (`Name.jsonName`). Camel case drops only some of the underscores,
but never so that two names fall together which are apart in JSON, because the JSON name can still
be read off a name in camel case (`Name.jsonName_camelCase`). So the fields of a message keep
properties of their own (`Message.nodup_exported`). -/

namespace ProtoSchema

open Name (Word)

namespace Name

/-! ## JSON names -/

/-- Drop every underscore, and put a letter that stands directly behind one into upper case;
    `after` says whether the text itself stands behind one. -/
def jsonChars (after : Bool) : List Char → List Char
  | [] => []
  | c :: rest =>
    if c = '_' then jsonChars true rest
    else (if after then c.toUpper else c) :: jsonChars false rest

/-- The JSON name of a field. -/
def jsonName (name : String) : String :=
  String.ofList (jsonChars false name.toList)

theorem jsonChars_underscore (after : Bool) (rest : List Char) :
    jsonChars after ('_' :: rest) = jsonChars true rest :=
  rfl

theorem jsonChars_cons (after : Bool) {c : Char} (hc : c ≠ '_') (rest : List Char) :
    jsonChars after (c :: rest) = (if after then c.toUpper else c) :: jsonChars false rest :=
  if_neg hc

/-- The upper case of a lower-case letter is a letter in upper case. -/
theorem toUpper_of_isLower {c : Char} (h : c.isLower = true) :
    c.toUpper ≠ '_' ∧ c.toUpper.isLower = false ∧ c.toUpper.toUpper = c.toUpper := by
  have hword : isWord c = true := by simp [isWord, Char.isAlphanum, isAlpha_iff, h]
  exact of_isWord (P := fun c => c.isLower = true →
    c.toUpper ≠ '_' ∧ c.toUpper.isLower = false ∧ c.toUpper.toUpper = c.toUpper)
    hword (by decide) h

/-! ## Camel case -/

/-- The JSON name can be read off the name in camel case. -/
theorem jsonChars_camelChars (after : Bool) (s : List Char) :
    jsonChars after (camelChars s) = jsonChars after s := by
  fun_induction camelChars s generalizing after with
  | case1 => rfl
  | case2 c => rfl
  | case3 c d rest hfold ih =>
    obtain ⟨rfl, hlower⟩ := hfold
    obtain ⟨hne, _, htwice⟩ := toUpper_of_isLower hlower
    have hd : d ≠ '_' := by
      rintro rfl
      cases hlower
    rw [jsonChars_cons after hne, jsonChars_underscore, jsonChars_cons true hd, ih, htwice,
      ite_self, if_pos rfl]
  | case4 c d rest _ ih =>
    by_cases hc : c = '_'
    · subst hc
      rw [jsonChars_underscore, jsonChars_underscore, ih]
    · rw [jsonChars_cons after hc, jsonChars_cons after hc, ih]

theorem jsonName_camelCase (name : String) : jsonName (camelCase name) = jsonName name := by
  rw [jsonName, camelCase, String.toList_ofList, jsonChars_camelChars, jsonName]

/-- No underscore stands directly before a lower-case letter. -/
def Folded (s : List Char) : Prop :=
  s.IsChain fun c d => c = '_' → d.isLower = false

/-- The first character stays what it is, unless it is an underscore that is folded away. -/
theorem head?_camelChars (s : List Char) :
    (camelChars s).head? = s.head? ∨
      ∀ c ∈ (camelChars s).head?, c.isLower = false := by
  fun_cases camelChars s with
  | case1 => exact .inl rfl
  | case2 c => exact .inl rfl
  | case3 c d rest hfold =>
    right
    rintro _ ⟨⟩
    exact (toUpper_of_isLower hfold.2).2.1
  | case4 c d rest _ => exact .inl rfl

theorem folded_camelChars (s : List Char) : Folded (camelChars s) := by
  unfold Folded
  fun_induction camelChars s with
  | case1 => exact .nil
  | case2 c => exact .singleton c
  | case3 c d rest hfold ih =>
    refine List.isChain_cons.2 ⟨fun next _ hunderscore => ?_, ih⟩
    exact absurd hunderscore (toUpper_of_isLower hfold.2).1
  | case4 c d rest hkeep ih =>
    refine List.isChain_cons.2 ⟨fun next hnext hunderscore => ?_, ih⟩
    -- what comes next is `d`, which cannot be folded here, or a letter that was put in upper case
    rcases head?_camelChars (d :: rest) with hhead | hhead
    · rw [hhead] at hnext
      cases hnext
      exact Bool.eq_false_iff.2 fun hlower => hkeep ⟨hunderscore, hlower⟩
    · exact hhead next hnext

theorem Folded.camelChars_eq {s : List Char} (h : Folded s) : camelChars s = s := by
  unfold Folded at h
  fun_induction camelChars s with
  | case1 => rfl
  | case2 c => rfl
  | case3 c d rest hfold ih =>
    have hlower := (List.isChain_cons_cons.1 h).1 hfold.1
    rw [hfold.2] at hlower
    cases hlower
  | case4 c d rest _ ih => rw [ih (List.isChain_cons_cons.1 h).2]

theorem camelCase_camelCase (name : String) : camelCase (camelCase name) = camelCase name := by
  rw [camelCase, camelCase, String.toList_ofList, (folded_camelChars name.toList).camelChars_eq]

end Name

/-! ## Messages -/

/-- The keys of the object schema of a message, read off the text. -/
def MessageExport.objectKeys (e : MessageExport) : List String :=
  (exportedBlock .const e.objectClose e.lines).filterMap fun line =>
    (memberParts? "," line).map Prod.fst

theorem Property.filterMap_lines {p : Property} (hname : Word p.name) :
    (p.lines.filterMap fun line => (memberParts? "," line).map Prod.fst) = [p.name] := by
  have hmark : memberParts? "," "  /** @deprecated */" = none := by decide
  unfold Property.lines
  cases p.deprecated <;> simp [memberParts?_eq_some hname.colon_notMem, hmark]

/-- The keys are the names of the properties. -/
theorem MessageExport.objectKeys_eq {e : MessageExport} (hnames : ∀ p ∈ e.properties, Word p.name) :
    e.objectKeys = e.properties.map Property.name := by
  rw [objectKeys, exportedBlock_lines, List.filterMap_flatMap,
    List.flatMap_congr fun p hp => Property.filterMap_lines (hnames p hp), ← List.map_eq_flatMap]

/-- The fields of a message have distinct JSON names. -/
def Message.JsonDistinct (m : Message Field) : Prop :=
  (m.fields.map fun field => Name.jsonName field.name.shown).Nodup

section

variable {loader : Loader} {path : String} {recursive : List RawText} {m : Message Field}
  {e : MessageExport}

/-- The properties of a schema are the fields in camel case. -/
theorem Message.names_exported (h : (m.exported path recursive loader).outcome = .ok e) :
    e.properties.map Property.name = m.fields.map fun field => Name.camelCase field.name.shown := by
  obtain ⟨_, _, _, hproperties⟩ := Message.exported_eq_ok h
  exact map_eq_map_of_forall₂ hproperties fun field p => Field.name_property

/-- In the text of a schema, the keys are the fields in camel case. -/
theorem Message.objectKeys_exported (h : (m.exported path recursive loader).outcome = .ok e)
    (hnames : ∀ field ∈ m.fields, Name.isIdentifier field.name.shown = true) :
    e.objectKeys = m.fields.map fun field => Name.camelCase field.name.shown := by
  rw [MessageExport.objectKeys_eq, names_exported h]
  intro p hp
  have hmem : p.name ∈ m.fields.map fun field => Name.camelCase field.name.shown := by
    rw [← names_exported h]
    exact List.mem_map_of_mem hp
  obtain ⟨field, hfield, hname⟩ := List.mem_map.1 hmem
  rw [← hname]
  exact Name.word_camelCase (hnames field hfield)

/-- Fields that are apart in JSON keep properties of their own. -/
theorem Message.nodup_exported (h : (m.exported path recursive loader).outcome = .ok e)
    (hdistinct : m.JsonDistinct) : (e.properties.map Property.name).Nodup := by
  have hjson : (e.properties.map Property.name).map Name.jsonName =
      m.fields.map fun field => Name.jsonName field.name.shown := by
    rw [names_exported h, List.map_map]
    exact List.map_congr_left fun field _ => Name.jsonName_camelCase field.name.shown
  refine List.Nodup.of_map Name.jsonName ?_
  rw [hjson]
  exact hdistinct

end

namespace SchemaModule

/-- **Camel case keeps apart what JSON keeps apart.** A name and its camel case have one JSON name;
    in camel case no underscore stands directly before a lower-case letter, and doing it again
    changes nothing. The properties of every schema in a module are the fields of a message of the
    file in camel case, and they are distinct if the fields have distinct JSON names. If the fields
    are named by identifiers, this is what the text of the schema has for its keys. -/
theorem properties_kept_apart :
    (∀ name : String, Name.jsonName (Name.camelCase name) = Name.jsonName name) ∧
    (∀ name : String, (Name.camelCase name).toList.IsChain fun c d =>
      c = '_' → d.isLower = false) ∧
    (∀ name : String, Name.camelCase (Name.camelCase name) = Name.camelCase name) ∧
    ∀ (loader : Loader) (options : Options) (file : SchemaFile Field) (built : SchemaModule),
      (ofFile loader options file).outcome = .ok (some built) →
      ∀ e ∈ built.messages, ∃ m ∈ file.selected options,
        e.name = m.name.shown ∧ e.fullName = m.fullName.shown ∧
        (e.properties.map Property.name =
          m.fields.map fun field => Name.camelCase field.name.shown) ∧
        (m.JsonDistinct → (e.properties.map Property.name).Nodup) ∧
        ((∀ field ∈ m.fields, Name.isIdentifier field.name.shown = true) →
          e.objectKeys = e.properties.map Property.name) := by
  refine ⟨Name.jsonName_camelCase, fun name => ?_, Name.camelCase_camelCase, ?_⟩
  · rw [Name.camelCase, String.toList_ofList]
    exact Name.folded_camelChars name.toList
  · intro loader options file built hbuilt e he
    obtain ⟨m, hm, recursive, hexport⟩ := exists_exported_of_mem hbuilt he
    obtain ⟨hname, hfullName, _, _⟩ := Message.exported_eq_ok hexport
    refine ⟨m, hm, hname, hfullName, Message.names_exported hexport,
      Message.nodup_exported hexport, fun hnames => ?_⟩
    rw [Message.objectKeys_exported hexport hnames, Message.names_exported hexport]

/-- Two identifiers that differ in an underscore only, and one whose underscore is kept. -/
theorem properties_of_account_kept_apart :
    let account : Message Field := ⟨"Account", "Account", "bank", ⟨0, [0]⟩,
      [⟨"user_id", 1, .single (.scalar .string), false, none⟩,
       ⟨"_user_id", 2, .single (.scalar .string), false, none⟩,
       ⟨"user_2_id", 3, .single (.scalar .string), false, none⟩], [], [], false, false⟩
    let file : SchemaFile Field := ⟨"bank.proto", "bank", "", [], [account]⟩
    account.JsonDistinct ∧
      Name.jsonName "user_2_id" = "user2Id" ∧ Name.jsonName "user_2Id" = "user2Id" ∧
      ∃ built e, (ofFile true {} file).outcome = .ok (some built) ∧ e ∈ built.messages ∧
        e.objectKeys = ["userId", "UserId", "user_2Id"] ∧
        (e.properties.map Property.name).Nodup := by
  intro account file
  have hdistinct : account.JsonDistinct := by
    unfold Message.JsonDistinct
    decide
  have hselected : file.selected {} = [account] := by cbv
  obtain ⟨hjson, _, _, hmodules⟩ := properties_kept_apart
  refine ⟨hdistinct, by decide, (hjson "user_2_id").trans (by decide), ?_⟩
  have himports : file.importLines [account] = [] := ImportLine.ofImports_nil
  have hread : ((ofFile true {} file).outcome.map fun built? => built?.map fun built =>
      built.messages.map MessageExport.name) = .ok (some ["Account"]) := by
    rw [ofFile_outcome, hselected, himports, Arrangement.ofMessages_single]
    rfl
  obtain ⟨built?, hout, hread⟩ := map_eq_ok_iff.1 hread
  obtain ⟨built, rfl, hmessages⟩ := Option.map_eq_some_iff.1 hread
  obtain ⟨e, hexports, _⟩ := List.map_eq_singleton_iff.1 hmessages
  have hmem : e ∈ built.messages := by
    rw [hexports]
    exact List.mem_singleton_self e
  obtain ⟨m, hm, _, _, hnames, hnodup, hkeys⟩ := hmodules true {} file built hout e hmem
  rw [hselected] at hm
  obtain rfl := List.mem_singleton.1 hm
  exact ⟨built, e, hout, hmem, (hkeys (by decide)).trans (hnames.trans (by decide)),
    hnodup hdistinct⟩

end SchemaModule

end ProtoSchema
