import ProtoSchema.Proofs.Module.Decoding

set_option autoImplicit false

/-! # What bad rules do to a module

Texts in rules that cannot be decoded are met at two points. Most of them are looked at while the
rules are read; one of these makes the rules of the field as a whole unreadable, which costs a
notice and nothing else (`Field.chain_cases`). Patterns are looked at when the expression is
composed, and there a bad one is a failure (`Field.property_eq_error_iff`): it stops the module of
the whole file. With all names decoded nothing else does
(`SchemaModule.hasBadPattern_of_ofFile_eq_error`). -/

namespace ProtoSchema

/-! ## Reading rules -/

/-- The texts of string rules that are looked at while the rules are read. -/
def StringRules.readTexts (rules : StringRules) : List RawText :=
  rules.startsWith.toList ++ rules.endsWith.toList ++ rules.contains.toList ++
    rules.const.toList ++ rules.oneOf ++ rules.noneOf

def KindRules.readTexts {ρ : Type} : KindRules ρ → List RawText
  | string rules => rules.readTexts
  | _ => []

/-- The texts that are looked at while the rules of a field are read: its own, or those of its
    items. -/
def FieldRules.readTexts (rules : FieldRules) : List RawText :=
  match rules.kind with
  | some (.list list) => ((list.items.bind FieldRules.kind).map KindRules.readTexts).getD []
  | some kind => kind.readTexts
  | none => []

theorem textCheck?_isSome (make : String → Check) (t : Option RawText) :
    (textCheck? make t).isSome = t.toList.all fun x => !x.isUndecodable := by
  cases t with
  | none => rfl
  | some x => simp [textCheck?, RawText.isUndecodable]

theorem mapM_decoded?_isSome (ts : List RawText) :
    (ts.mapM RawText.decoded?).isSome = ts.all fun x => !x.isUndecodable := by
  induction ts with
  | nil => rfl
  | cons t ts ih =>
    rw [List.mapM_cons, List.all_cons, ← ih, RawText.isUndecodable]
    cases t.decoded? with
    | none => rfl
    | some s => cases ts.mapM RawText.decoded? <;> rfl

theorem isSome_bind_of_const {α β : Type} {x : Option α} {f : α → Option β} {b : Bool}
    (h : ∀ a, (f a).isSome = b) : (x >>= f).isSome = (x.isSome && b) := by
  cases x with
  | none => rfl
  | some a => simpa using h a

/-- The checks of a string can be read if all the texts looked at are decoded. -/
theorem StringRules.checks?_isSome (rules : StringRules) :
    rules.checks?.isSome = rules.readTexts.all fun t => !t.isUndecodable := by
  have hsteps := isSome_bind_of_const (x := textCheck? .startsWith rules.startsWith) fun head =>
    isSome_bind_of_const (x := textCheck? .endsWith rules.endsWith) fun tail =>
    isSome_bind_of_const (x := textCheck? .includes rules.contains) fun part =>
    isSome_bind_of_const (x := textCheck? (fun s => .equals (.text s)) rules.const) fun const =>
    isSome_bind_of_const (x := rules.oneOf.mapM RawText.decoded?) fun allowed =>
    isSome_bind_of_const (x := rules.noneOf.mapM RawText.decoded?) fun forbidden =>
    (rfl : (some (rules.sizeChecks ++ head ++ tail ++ part ++ const ++
      listCheck (fun ss => .oneOf (.texts ss)) allowed ++
      listCheck (fun ss => .noneOf (.texts ss)) forbidden ++
      (rules.format.bind FormatRule.check?).toList)).isSome = true)
  refine hsteps.trans ?_
  simp only [textCheck?_isSome, mapM_decoded?_isSome, StringRules.readTexts, List.all_append,
    Bool.and_true, Bool.and_assoc]

theorem Chain.withItems?_isSome (chain : Chain) (items : Option (KindRules FieldRules)) :
    (chain.withItems? items).isSome =
      ((items.map KindRules.readTexts).getD []).all fun t => !t.isUndecodable := by
  cases items with
  | none => rfl
  | some kind =>
    cases kind with
    | string rules =>
      refine (isSome_bind_of_const (x := rules.checks?) (b := true) fun _ => rfl).trans ?_
      rw [Bool.and_true]
      exact rules.checks?_isSome
    | _ => rfl

/-- Rules can be read if all the texts looked at are decoded. -/
theorem Chain.ofRules?_isSome (rules : FieldRules) :
    (Chain.ofRules? rules).isSome = rules.readTexts.all fun t => !t.isUndecodable := by
  obtain ⟨required, kind⟩ := rules
  cases kind with
  | none => rfl
  | some kind =>
    refine (isSome_bind_of_const (x := ofKind? kind) (b := true) fun _ => rfl).trans ?_
    rw [Bool.and_true]
    cases kind with
    | string rules =>
      refine (isSome_bind_of_const (x := rules.checks?) (b := true) fun _ => rfl).trans ?_
      rw [Bool.and_true]
      exact rules.checks?_isSome
    | list rules => exact Chain.withItems?_isSome _ _
    | _ => rfl

namespace Field

variable {field : Field} {rules : FieldRules} {loader : Loader}

/-- The rules of a field give all of their checks, or, with a notice on the field, none. -/
theorem chain_of_rules (h : field.rules? = some rules) (hloader : loader.found = true) :
    field.chain loader = match Chain.ofRules? rules with
      | some chain => ⟨[], .done true, .ok chain⟩
      | none => ⟨[.unreadableRules field.name], .done true, .ok .empty⟩ := by
  obtain ⟨options, hoptions, hrules⟩ := Option.bind_eq_some_iff.1 h
  have hload : (Run.load loader).outcome = .ok true := by rw [Run.load_of_found hloader]
  unfold Field.chain
  rw [hoptions]
  show (Run.load >>= _) loader = _
  rw [Run.bind_eq_of_ok hload, Run.load_of_found hloader]
  simp only [hrules, if_true]
  cases Chain.ofRules? rules <;> rfl

/-- The patterns that the expression of a field is made with. -/
def usedPatterns (field : Field) (chain : Chain) : List RawText :=
  (if field.type.isList then chain.itemPattern.toList else []) ++ chain.pattern.toList

end Field

/-! ## Patterns -/

theorem bind_pure_eq_error_iff {ε α β : Type} {x : Except ε α} {g : α → β} {e : ε} :
    (x >>= fun a => pure (g a)) = .error e ↔ x = .error e := by
  cases x <;> simp [bind, Except.bind, pure, Except.pure]

theorem patternCheck_eq_error_iff (make : String → Check) (pattern : Option RawText) (e : Error) :
    patternCheck make pattern = .error e ↔
      e = .undecodableText .cut ∧ ∃ t ∈ pattern.toList, t.isUndecodable = true := by
  constructor
  · intro h
    obtain ⟨he, t, rfl, hbad⟩ := patternCheck_eq_error h
    exact ⟨he, t, by simp, hbad⟩
  · rintro ⟨rfl, t, ht, hbad⟩
    obtain rfl := Option.mem_toList.1 ht
    cases t with
    | text s => cases hbad
    | undecodable bytes => rfl

theorem Chain.listItemChecks_eq_error_iff (chain : Chain) (e : Error) :
    chain.listItemChecks = .error e ↔
      e = .undecodableText .cut ∧ ∃ t ∈ chain.itemPattern.toList, t.isUndecodable = true :=
  bind_pure_eq_error_iff.trans (patternCheck_eq_error_iff _ _ e)

theorem Chain.fieldChecks_eq_error_iff (chain : Chain) (type : FieldType) (e : Error) :
    chain.fieldChecks type = .error e ↔
      e = .undecodableText .cut ∧ ∃ t ∈ chain.pattern.toList, t.isUndecodable = true :=
  bind_pure_eq_error_iff.trans (patternCheck_eq_error_iff _ _ e)

/-- Composing an expression fails if, and only if, a pattern in it cannot be decoded. -/
theorem Field.expression_eq_error_iff (field : Field) (path : String) (recursive : List RawText)
    (chain : Chain) (e : Error) :
    field.expression path recursive chain = .error e ↔
      e = .undecodableText .cut ∧ ∃ t ∈ field.usedPatterns chain, t.isUndecodable = true := by
  have hitems : ∀ e, (if field.type.isList then chain.listItemChecks else pure []) = .error e ↔
      e = .undecodableText .cut ∧
        ∃ t ∈ (if field.type.isList then chain.itemPattern.toList else []),
          t.isUndecodable = true := by
    intro e
    split
    · exact chain.listItemChecks_eq_error_iff e
    · constructor
      · rintro ⟨⟩
      · rintro ⟨_, _, ⟨⟩, _⟩
  rw [Field.expression_def, bind_eq_error_iff]
  simp only [bind_pure_eq_error_iff, chain.fieldChecks_eq_error_iff, hitems, Field.usedPatterns,
    List.mem_append]
  constructor
  · rintro (⟨he, t, ht, hbad⟩ | ⟨_, _, he, t, ht, hbad⟩)
    · exact ⟨he, t, .inl ht, hbad⟩
    · exact ⟨he, t, .inr ht, hbad⟩
  · rintro ⟨rfl, t, ht | ht, hbad⟩
    · exact .inl ⟨rfl, t, ht, hbad⟩
    · -- if the items do not fail already, the whole does, and in the same way
      cases hcase : (if field.type.isList then chain.listItemChecks else pure []) with
      | error e' => exact .inl ⟨rfl, ((hitems e').1 hcase).2⟩
      | ok itemChecks => exact .inr ⟨itemChecks, rfl, rfl, t, ht, hbad⟩

/-- A pattern that the expression of a field needs cannot be decoded. -/
def Field.HasBadPattern (field : Field) : Prop :=
  ∃ rules chain, field.rules? = some rules ∧ Chain.ofRules? rules = some chain ∧
    ∃ t ∈ field.usedPatterns chain, t.isUndecodable = true

/-- The chain that a field ends up with has a bad pattern only if the field's rules have it. -/
theorem Field.hasBadPattern_iff (field : Field) :
    field.HasBadPattern ↔
      ∃ t ∈ field.usedPatterns (chainOf true field.rules?), t.isUndecodable = true := by
  have hempty : ¬∃ t ∈ field.usedPatterns .empty, t.isUndecodable = true := by
    simp [Field.usedPatterns, Chain.empty]
  unfold Field.HasBadPattern chainOf FieldRules.chain
  cases field.rules? with
  | none => exact iff_of_false (by rintro ⟨_, _, ⟨⟩, _⟩) hempty
  | some rules =>
    cases hchain : Chain.ofRules? rules with
    | none =>
      simp only [Option.map_some, Option.getD_some, hchain, if_true, Option.getD_none]
      refine iff_of_false ?_ hempty
      rintro ⟨rules', _, hsome, hread, _⟩
      obtain rfl := Option.some.inj hsome
      rw [hchain] at hread
      cases hread
    | some chain =>
      simp only [Option.map_some, Option.getD_some, hchain, if_true]
      constructor
      · rintro ⟨rules', chain', hsome, hread, hbad⟩
        obtain rfl := Option.some.inj hsome
        obtain rfl := Option.some.inj (hchain.symm.trans hread)
        exact hbad
      · exact fun hbad => ⟨rules, chain, rfl, hchain, hbad⟩

/-- Rules are read completely, without a notice, or ignored as a whole, with one. -/
theorem Field.chain_cases {field : Field} {rules : FieldRules}
    (hrules : field.rules? = some rules) {loader : Loader} (hloader : loader.found = true) :
    ((∀ t ∈ rules.readTexts, t.isUndecodable = false) ∧
      ∃ chain, Chain.ofRules? rules = some chain ∧
        field.chain loader = ⟨[], .done true, .ok chain⟩) ∨
    ((∃ t ∈ rules.readTexts, t.isUndecodable = true) ∧
      field.chain loader = ⟨[.unreadableRules field.name], .done true, .ok .empty⟩) := by
  have hread := Chain.ofRules?_isSome rules
  rw [Field.chain_of_rules hrules hloader]
  cases hchain : Chain.ofRules? rules with
  | some chain =>
    rw [hchain, Option.isSome_some, eq_comm, List.all_eq_true] at hread
    exact .inl ⟨fun t ht => by simpa using hread t ht, chain, rfl, rfl⟩
  | none =>
    rw [hchain, Option.isSome_none, eq_comm, List.all_eq_false] at hread
    obtain ⟨t, ht, hbad⟩ := hread
    exact .inr ⟨⟨t, ht, by simpa using hbad⟩, rfl⟩

/-- A field with a decoded name has a property unless a pattern stops it. -/
theorem Field.property_eq_error_iff {field : Field} (hname : field.name.isUndecodable = false)
    {loader : Loader} (hloader : loader.found = true) (path : String) (recursive : List RawText)
    (e : Error) :
    (field.property path recursive loader).outcome = .error e ↔
      e = .undecodableText .cut ∧ field.HasBadPattern := by
  rw [Field.property_outcome, field.chain_eq loader, hloader, hname, field.hasBadPattern_iff,
    ← field.expression_eq_error_iff path recursive]
  exact bind_pure_eq_error_iff

/-! ## Files -/

namespace SchemaModule

/-- With all names decoded, the module of a file is stopped by patterns only. -/
theorem hasBadPattern_of_ofFile_eq_error {model : Model} (hmodel : model.Coherent)
    (hnames : model.NamesDecoded) {file : SchemaFile Field} (hfile : file ∈ model.files)
    {loader : Loader} (hloader : loader.found = true) {options : Options} {e : Error}
    (h : (ofFile loader options file).outcome = .error e) :
    e = .undecodableText .cut ∧
      ∃ m ∈ file.selected options, ∃ field ∈ m.fields, field.HasBadPattern := by
  obtain ⟨recursive, m, hm, field, hfield, herror⟩ :=
    exists_property_error loader hmodel hfile hnames h
  have hmem := Model.mem_messages hfile (file.selected_subset options hm)
  have hname := hnames.fields m hmem field hfield
  obtain ⟨he, hbad⟩ := (Field.property_eq_error_iff hname hloader _ _ _).1 herror
  exact ⟨he, m, hm, field, hfield, hbad⟩

/-- And a bad pattern always stops it, if the messages have distinct names, so that all of them are
    emitted. -/
theorem ofFile_eq_error_of_hasBadPattern {model : Model} (hmodel : model.Coherent)
    (hnames : model.NamesDecoded) {file : SchemaFile Field} (hfile : file ∈ model.files)
    {loader : Loader} (hloader : loader.found = true) {options : Options}
    (hnodup : ((file.selected options).map Message.name).Nodup)
    {m : Message Field} (hm : m ∈ file.selected options) {field : Field} (hfield : field ∈ m.fields)
    (hbad : field.HasBadPattern) :
    (ofFile loader options file).outcome = .error (.undecodableText .cut) := by
  rcases hout : (ofFile loader options file).outcome with e | _ | built
  · rw [(hasBadPattern_of_ofFile_eq_error hmodel hnames hfile hloader hout).1]
  · rw [(ofFile_eq_none hout).1] at hm
    cases hm
  · -- the module would hold a property of the field
    obtain ⟨_, _, arrangement, harrangement, hexports⟩ := ofFile_eq_some hout
    obtain ⟨recursive, arranged, _, heq, hperm, _⟩ :=
      Arrangement.ofMessages_eq (file.selected options) file.path hnodup
    obtain rfl := Except.ok.inj (harrangement.symm.trans heq)
    obtain ⟨_, _, hexport⟩ := exists_of_mem_forall₂ hexports (hperm.mem_iff.2 hm)
    obtain ⟨_, _, _, hproperties⟩ := Message.exported_eq_ok hexport
    obtain ⟨p, _, hproperty⟩ := exists_of_mem_forall₂ hproperties hfield
    have hmem := Model.mem_messages hfile (file.selected_subset options hm)
    have herror := (Field.property_eq_error_iff (hnames.fields m hmem field hfield) hloader
      file.path recursive _).2 ⟨rfl, hbad⟩
    rw [herror] at hproperty
    cases hproperty

/-- **Bad rules.** Rules with a bad text among those looked at while they are read are ignored as a
    whole, with one notice on the field; all other rules give their complete chain and no notice.
    The field then has a property, unless its name is bad or one of the patterns it uses. With all
    names decoded, such a pattern is what stops the module of a file, and nothing else does. -/
theorem ofFile_stopped_only_by_patterns {files : List FileDescriptor} {model : Model}
    (hbuild : Model.build files = .ok model) (hnames : model.NamesDecoded)
    {file : SchemaFile Field} (hfile : file ∈ model.files) (options : Options) (loader : Loader)
    (hloader : loader.found = true) :
    (∀ (field : Field) (rules : FieldRules), field.rules? = some rules →
      (((∀ t ∈ rules.readTexts, t.isUndecodable = false) ∧
          ∃ chain, Chain.ofRules? rules = some chain ∧
            field.chain loader = ⟨[], .done true, .ok chain⟩) ∨
        ((∃ t ∈ rules.readTexts, t.isUndecodable = true) ∧
          field.chain loader = ⟨[.unreadableRules field.name], .done true, .ok .empty⟩)) ∧
      (field.name.isUndecodable = false → ∀ path recursive e,
        (field.property path recursive loader).outcome = .error e ↔
          e = .undecodableText .cut ∧ field.HasBadPattern)) ∧
    (∀ e, (ofFile loader options file).outcome = .error e → e = .undecodableText .cut ∧
      ∃ m ∈ file.selected options, ∃ field ∈ m.fields, field.HasBadPattern) ∧
    (((file.selected options).map Message.name).Nodup →
      (∃ m ∈ file.selected options, ∃ field ∈ m.fields, field.HasBadPattern) →
        (ofFile loader options file).outcome = .error (.undecodableText .cut)) := by
  have hmodel := Model.build_coherent hbuild
  refine ⟨?_, fun e => hasBadPattern_of_ofFile_eq_error hmodel hnames hfile hloader, ?_⟩
  · intro field rules hrules
    exact ⟨Field.chain_cases hrules hloader, fun hname => Field.property_eq_error_iff hname hloader⟩
  · rintro hnodup ⟨m, hm, field, hfield, hbad⟩
    exact ofFile_eq_error_of_hasBadPattern hmodel hnames hfile hloader hnodup hm hfield hbad

/-- A required value that cannot be decoded costs the field its rules, and no more. -/
theorem ofFile_not_stopped_by_const :
    let rules : FieldRules :=
      { required := true, kind := some (.string { const := some (.undecodable [255]) }) }
    let email : Field :=
      ⟨"email", 1, .single (.scalar .string), false, some { rules := some rules }⟩
    let user : Message Field := ⟨"User", "User", "user", ⟨0, [0]⟩, [email], [], [], false, false⟩
    let users : SchemaFile Field := ⟨"user.proto", "user", "", [], [user]⟩
    let files : List FileDescriptor :=
      [{ name := "user.proto", messages := [{ name := "User", fields :=
        [{ name := "email", number := 1, kind := .scalar .string,
           options := some { rules := some rules } }] }] }]
    Model.build files = .ok ⟨[users]⟩ ∧
      email.chain true = ⟨[.unreadableRules "email"], .done true, .ok .empty⟩ ∧
      ∃ built, (ofFile true {} users).outcome = .ok built := by
  intro rules email user users files
  have hmodel : Model.build files = .ok ⟨[users]⟩ := by rfl
  have hmessages : (Model.mk [users]).messages = [user] := by rfl
  have hnames : (Model.mk [users]).NamesDecoded := by
    refine ⟨?_, ?_, ?_⟩
    · rw [hmessages]
      decide
    · rw [hmessages]
      simp [user, email, RawText.isUndecodable, RawText.decoded?]
    · intro e he
      cases he
  obtain ⟨hfields, hstopped, _⟩ :=
    ofFile_stopped_only_by_patterns hmodel hnames (List.mem_singleton.2 rfl) {} true rfl
  refine ⟨hmodel, ?_, ?_⟩
  · rcases (hfields email rules rfl).1 with ⟨hgood, _⟩ | ⟨_, hchain⟩
    · cases hgood (.undecodable [255]) List.mem_cons_self
    · exact hchain
  · cases hout : (ofFile true {} users).outcome with
    | ok built => exact ⟨built, rfl⟩
    | error e =>
      -- the only field has no chain, so it uses no pattern
      obtain ⟨_, m, hm, field, hfield, rules', chain, hrules, hread, _⟩ :=
        hstopped e hout
      obtain rfl := List.mem_singleton.1 (users.selected_subset {} hm)
      obtain rfl := List.mem_singleton.1 hfield
      obtain rfl := Option.some.inj hrules
      cases hread

/-- One bad pattern stops the module of a file, without a notice, although its rules can be read. -/
theorem ofFile_stopped_by_one_pattern :
    let rules : FieldRules := { kind := some (.string { pattern := some (.undecodable [255]) }) }
    let email : Field :=
      ⟨"email", 1, .single (.scalar .string), false, some { rules := some rules }⟩
    let user : Message Field := ⟨"User", "User", "user", ⟨0, [0]⟩, [email], [], [], false, false⟩
    let users : SchemaFile Field := ⟨"user.proto", "user", "", [], [user]⟩
    let files : List FileDescriptor :=
      [{ name := "user.proto", messages := [{ name := "User", fields :=
        [{ name := "email", number := 1, kind := .scalar .string,
           options := some { rules := some rules } }] }] }]
    Model.build files = .ok ⟨[users]⟩ ∧ (Model.mk [users]).NamesDecoded ∧
      (email.chain true).notices = [] ∧
      (ofFile true {} users).outcome = .error (.undecodableText .cut) := by
  intro rules email user users files
  have hmodel : Model.build files = .ok ⟨[users]⟩ := by rfl
  have hmessages : (Model.mk [users]).messages = [user] := by rfl
  have hnames : (Model.mk [users]).NamesDecoded := by
    refine ⟨?_, ?_, ?_⟩
    · rw [hmessages]
      decide
    · rw [hmessages]
      simp [user, email, RawText.isUndecodable, RawText.decoded?]
    · intro e he
      cases he
  have hselected : user ∈ users.selected {} := List.mem_filter.2 ⟨List.mem_cons_self, by decide⟩
  have hbad : email.HasBadPattern :=
    ⟨rules, _, rfl, rfl, .undecodable [255], List.mem_singleton.2 rfl, rfl⟩
  refine ⟨hmodel, hnames, rfl, ?_⟩
  exact ofFile_eq_error_of_hasBadPattern (Model.build_coherent hmodel) hnames List.mem_cons_self
    rfl (by decide) hselected List.mem_cons_self hbad

end SchemaModule

end ProtoSchema
