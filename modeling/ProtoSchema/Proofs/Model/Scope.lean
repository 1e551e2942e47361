import ProtoSchema.Proofs.Model.Resolution
import ProtoSchema.Proofs.Name
import ProtoSchema.Proofs.Text.Split

set_option autoImplicit false

/-! # Names that do not start at the root

A name without a leading dot is looked for in the scopes around the field: in its message, in the
parts of the full name of the message that come before a dot, and at the root. Of the scopes that
declare the name the innermost counts (`Declarations.Innermost`), as long as the root does not
declare it too: the root is tried before all other scopes
(`Slot.relative_name_leads_to_innermost`), so its types hide those of the same name further in. -/

namespace ProtoSchema

/-! ## Leading dots -/

theorem Text.startsWith_dot_iff (s : String) :
    Text.startsWith "." s = true ↔ s.toList.head? = some '.' := by
  rw [Text.startsWith_iff]
  cases s.toList with
  | nil => simp
  | cons c rest => simp [eq_comm]

theorem RawText.withoutDots_of_relative {s : String} (h : Text.startsWith "." s = false) :
    RawText.withoutDots (.text s) = .text s := by
  have hhead : s.toList.head? ≠ some '.' := by
    rw [Ne, ← Text.startsWith_dot_iff, h]
    simp
  have hkept : s.toList.dropWhile (· = '.') = s.toList := by
    cases hs : s.toList with
    | nil => rfl
    | cons c rest =>
      have hc : c ≠ '.' := fun hc => hhead (by rw [hs, hc]; rfl)
      simp [hc]
  rw [RawText.withoutDots, hkept, String.ofList_toList]

/-- What is in front of a text decides whether it starts with a dot. -/
theorem Text.startsWith_dot_append {s : String} (h : s ≠ "") (t : String) :
    Text.startsWith "." (s ++ t) = Text.startsWith "." s := by
  rw [Bool.eq_iff_iff, Text.startsWith_dot_iff, Text.startsWith_dot_iff, String.toList_append]
  cases hs : s.toList with
  | nil => exact absurd (String.toList_eq_nil_iff.1 hs) h
  | cons c rest => rfl

theorem Name.relative_of_isIdentifier {name : String} (h : Name.isIdentifier name = true) :
    name ≠ "" ∧ Text.startsWith "." name = false := by
  constructor
  · rintro rfl
    cases h
  · rw [Bool.eq_false_iff, Ne, Text.startsWith_dot_iff]
    intro hdot
    have hword := Name.word_of_isIdentifier h '.' (List.mem_of_head? hdot)
    cases hword

/-! ## Scopes -/

/-- A scope around a message: the root, the message itself, or a part of its full name that comes
    before a dot. -/
def IsScope (fullName scope : String) : Prop :=
  scope = "" ∨ scope = fullName ∨ ∃ rest, fullName = scope ++ "." ++ rest

theorem mem_nonemptyTails_iff {α : Type} (l tail : List α) :
    tail ∈ nonemptyTails l ↔ tail ≠ [] ∧ tail <:+ l := by
  induction l with
  | nil => simp [nonemptyTails]
  | cons a l ih =>
    rw [nonemptyTails, List.mem_cons, ih, List.suffix_cons_iff]
    constructor
    · rintro (rfl | ⟨hne, hsuffix⟩)
      · exact ⟨List.cons_ne_nil _ _, .inl rfl⟩
      · exact ⟨hne, .inr hsuffix⟩
    · rintro ⟨hne, rfl | hsuffix⟩
      · exact .inl rfl
      · exact .inr ⟨hne, hsuffix⟩

/-- The scopes that are searched are those around the full name, without the root. -/
theorem mem_enclosingScopes_iff (fullName scope : String) :
    scope ∈ enclosingScopes fullName ↔ scope ≠ "" ∧ IsScope fullName scope := by
  have hmem : scope ∈ enclosingScopes fullName ↔ scope ≠ "" ∧
      ∃ front, front ≠ [] ∧ front <+: Text.split '.' fullName ∧ ".".intercalate front = scope := by
    simp only [enclosingScopes, List.mem_filter, List.mem_map, mem_nonemptyTails_iff,
      decide_eq_true_eq]
    constructor
    · rintro ⟨⟨tail, ⟨hne, hsuffix⟩, rfl⟩, hscope⟩
      exact ⟨hscope, tail.reverse, by simpa using hne, by
        simpa using List.reverse_prefix.2 hsuffix, rfl⟩
    · rintro ⟨hscope, front, hne, hprefix, rfl⟩
      exact ⟨⟨front.reverse, ⟨by simpa using hne, by simpa using hprefix⟩, by simp⟩, hscope⟩
  rw [hmem]
  refine and_congr_right fun hscope => ?_
  constructor
  · rintro ⟨front, hne, ⟨back, hsplit⟩, rfl⟩
    have hfull := Text.intercalate_split '.' fullName
    rw [← hsplit] at hfull
    by_cases hback : back = []
    · subst hback
      rw [List.append_nil] at hfull
      exact .inr (.inl hfull)
    · have hjoin := Text.intercalate_append "." hne hback
      exact .inr (.inr ⟨_, hfull.symm.trans hjoin⟩)
  · rintro (rfl | rfl | ⟨rest, rfl⟩)
    · exact absurd rfl hscope
    · exact ⟨_, Text.split_ne_nil '.' scope, List.prefix_rfl, Text.intercalate_split '.' scope⟩
    · refine ⟨_, Text.split_ne_nil '.' scope, ?_, Text.intercalate_split '.' scope⟩
      exact ⟨_, (Text.split_append_singleton '.' scope rest).symm⟩

/-- Scopes are searched from the innermost outwards. -/
theorem pairwise_enclosingScopes (fullName : String) :
    (enclosingScopes fullName).Pairwise fun inner outer => outer.length < inner.length := by
  refine List.Pairwise.filter _ (List.pairwise_map.2 ?_)
  generalize (Text.split '.' fullName).reverse = parts
  induction parts with
  | nil => exact .nil
  | cons part parts ih =>
    refine .cons (fun tail htail => ?_) ih
    obtain ⟨hne, front, rfl⟩ := (mem_nonemptyTails_iff _ _).1 htail
    have hjoin := Text.intercalate_append "." (List.reverse_ne_nil_iff.2 hne)
      (List.reverse_ne_nil_iff.2 (List.cons_ne_nil part front))
    rw [← List.reverse_append, List.cons_append] at hjoin
    rw [hjoin]
    simp only [String.length_append]
    have hdot : ".".length = 1 := rfl
    omega

theorem IsScope.relative {fullName scope : String} (h : IsScope fullName scope) (hne : scope ≠ "")
    (hrelative : Text.startsWith "." fullName = false) : Text.startsWith "." scope = false := by
  rcases h with rfl | rfl | ⟨rest, rfl⟩
  · exact absurd rfl hne
  · exact hrelative
  · rwa [String.append_assoc, Text.startsWith_dot_append hne] at hrelative

theorem IsScope.length_le {fullName scope : String} (h : IsScope fullName scope) :
    scope.length ≤ fullName.length := by
  rcases h with rfl | rfl | ⟨rest, rfl⟩
  · exact Nat.zero_le _
  · exact Nat.le_refl _
  · simp only [String.length_append]
    omega

/-! ## Owners -/

/-- Whether a text is decoded and an identifier. -/
def RawText.isIdentifier (t : RawText) : Bool :=
  t.decoded?.any Name.isIdentifier

/-- A decoded text that does not start with a dot; it may be empty. -/
def RawText.Relative (t : RawText) : Prop :=
  ∃ s, t = .text s ∧ Text.startsWith "." s = false

/-- The parts of a package and the names of messages are identifiers. -/
structure FileDescriptor.Identified (d : FileDescriptor) : Prop where
  package_eq : ∃ parts : List String, (∀ part ∈ parts, Name.isIdentifier part = true) ∧
    d.package = .text (".".intercalate parts)
  isIdentifier_name : ∀ entry ∈ d.registered, entry.2.name.isIdentifier = true

theorem qualify_relative {scope : RawText} (hscope : scope.Relative) {name : RawText}
    (hname : name.isIdentifier = true) : (qualify scope name).Relative := by
  obtain ⟨s, rfl, hs⟩ := hscope
  unfold qualify
  split
  · cases name with
    | text name => exact ⟨name, rfl, (Name.relative_of_isIdentifier hname).2⟩
    | undecodable bytes => cases hname
  · next hne =>
    have hne : s ≠ "" := by simpa [RawText.isEmpty] using hne
    refine ⟨_, rfl, ?_⟩
    simp only [RawText.shown]
    rw [String.append_assoc, Text.startsWith_dot_append hne, hs]

mutual

theorem MessageDescriptor.relative_of_registered {scope : RawText} (hscope : scope.Relative) :
    (m : MessageDescriptor) →
      (∀ entry ∈ m.registered scope, entry.2.name.isIdentifier = true) →
      ∀ entry ∈ m.registered scope, entry.1.Relative
  | ⟨name, fields, messages, enums, deprecated, mapEntry⟩, hnames, entry, hentry => by
    rw [MessageDescriptor.registered] at hnames hentry
    have hfull : (qualify scope name).Relative :=
      qualify_relative hscope (hnames _ (List.mem_append_right _ List.mem_cons_self))
    rcases List.mem_append.1 hentry with hentry | hentry
    · exact MessageDescriptor.relative_of_registeredAll hfull messages
        (fun entry hentry => hnames entry (List.mem_append_left _ hentry)) entry hentry
    · rw [List.mem_singleton.1 hentry]
      exact hfull

theorem MessageDescriptor.relative_of_registeredAll {scope : RawText} (hscope : scope.Relative) :
    (ms : List MessageDescriptor) →
      (∀ entry ∈ MessageDescriptor.registeredAll scope ms, entry.2.name.isIdentifier = true) →
      ∀ entry ∈ MessageDescriptor.registeredAll scope ms, entry.1.Relative
  | [], _, entry, hentry => by simp [MessageDescriptor.registeredAll] at hentry
  | m :: ms, hnames, entry, hentry => by
    rw [MessageDescriptor.registeredAll] at hnames hentry
    rcases List.mem_append.1 hentry with hentry | hentry
    · exact MessageDescriptor.relative_of_registered hscope m
        (fun entry hentry => hnames entry (List.mem_append_left _ hentry)) entry hentry
    · exact MessageDescriptor.relative_of_registeredAll hscope ms
        (fun entry hentry => hnames entry (List.mem_append_right _ hentry)) entry hentry

end

theorem FileDescriptor.Identified.relative_package {d : FileDescriptor} (h : d.Identified) :
    d.package.Relative := by
  obtain ⟨parts, hparts, hpackage⟩ := h.package_eq
  refine ⟨_, hpackage, ?_⟩
  cases parts with
  | nil => rfl
  | cons part parts =>
    obtain ⟨hne, hrelative⟩ := Name.relative_of_isIdentifier (hparts part List.mem_cons_self)
    cases parts with
    | nil => simpa using hrelative
    | cons next parts =>
      rw [String.intercalate_cons_of_ne_nil (List.cons_ne_nil _ _), String.append_assoc,
        Text.startsWith_dot_append hne, hrelative]

/-- The owner of a field has a full name that does not start with a dot. -/
theorem Slot.relative_owner {files : List FileDescriptor}
    {outlined : List (SchemaFile FieldDescriptor)} (houtline : Model.outline files = .ok outlined)
    (hfiles : ∀ d ∈ files, d.Identified) {slot : Slot}
    (hslot : slot ∈ outlined.flatMap fun file => Message.slotsAll file.messages) :
    slot.owner.Relative := by
  have hmem := Model.registered_mem houtline hslot
  obtain ⟨d, hd, m, hm, _⟩ := (mem_registeredFields_iff files slot.owner slot.field).1 hmem
  exact MessageDescriptor.relative_of_registeredAll (hfiles d hd).relative_package d.messages
    (hfiles d hd).isIdentifier_name _ hm

/-! ## Lookup -/

namespace Declarations

variable {φ : Type}

/-- A type is declared under a name in a scope. -/
structure Declares (types : Declarations φ) (scope typeName : String) (d : Declaration φ) :
    Prop where
  mem : d ∈ types
  fullName_eq : d.fullName = qualify (.text scope) (.text typeName)

/-- A type is declared under a name in the innermost scope around a message that declares the
    name. -/
structure Innermost (types : Declarations φ) (fullName typeName scope : String)
    (d : Declaration φ) : Prop where
  isScope : IsScope fullName scope
  declares : types.Declares scope typeName d
  length_le : ∀ scope' d', IsScope fullName scope' → types.Declares scope' typeName d' →
    scope'.length ≤ scope.length

variable {types : Declarations φ} (hnodup : (types.map Declaration.fullName).Nodup)

include hnodup

theorem find?_root_iff {typeName : String} (hrelative : Text.startsWith "." typeName = false)
    (d : Declaration φ) : types.find? typeName = some d ↔ types.Declares "" typeName d := by
  rw [find?_eq_some_iff hnodup, RawText.withoutDots_of_relative hrelative]
  exact ⟨fun h => ⟨h.1, h.2⟩, fun h => ⟨h.mem, h.fullName_eq⟩⟩

theorem find?_scope_iff {scope : String} (hne : scope ≠ "")
    (hscope : Text.startsWith "." scope = false) (typeName : String) (d : Declaration φ) :
    types.find? (scope ++ "." ++ typeName) = some d ↔ types.Declares scope typeName d := by
  have hrelative : Text.startsWith "." (scope ++ "." ++ typeName) = false := by
    rw [String.append_assoc, Text.startsWith_dot_append hne, hscope]
  have hqualify : qualify (.text scope) (.text typeName) = .text (scope ++ "." ++ typeName) := by
    simp [qualify, RawText.isEmpty, hne, RawText.shown]
  rw [find?_eq_some_iff hnodup, RawText.withoutDots_of_relative hrelative, ← hqualify]
  exact ⟨fun h => ⟨h.1, h.2⟩, fun h => ⟨h.mem, h.fullName_eq⟩⟩

variable {fullName : String} (hfull : Text.startsWith "." fullName = false)

include hfull

/-- Around a message the innermost scope that declares a name is found, if it is not the root. -/
theorem findAround?_innermost {typeName scope : String} {d : Declaration φ} (hne : scope ≠ "")
    (h : types.Innermost fullName typeName scope d) :
    types.findAround? fullName typeName = some d := by
  have hfind := fun scope' (hscope' : scope' ∈ enclosingScopes fullName) =>
    have hmem := (mem_enclosingScopes_iff fullName scope').1 hscope'
    find?_scope_iff hnodup hmem.1 (hmem.2.relative hmem.1 hfull) typeName
  have hscope := (mem_enclosingScopes_iff fullName scope).2 ⟨hne, h.isScope⟩
  obtain ⟨inner, outer, hsplit⟩ := List.append_of_mem hscope
  refine List.findSome?_eq_some_iff.2
    ⟨inner, scope, outer, hsplit, (hfind scope hscope d).2 h.declares, fun scope' hscope' => ?_⟩
  -- a scope that is tried before is further in, so it does not declare the name
  have hmem : scope' ∈ enclosingScopes fullName := hsplit ▸ List.mem_append_left _ hscope'
  refine Option.eq_none_iff_forall_ne_some.2 fun d' hd' => ?_
  have hle := h.length_le scope' d' ((mem_enclosingScopes_iff _ _).1 hmem).2
    ((hfind scope' hmem d').1 hd')
  have hlt : scope.length < scope'.length := by
    have hpairwise := pairwise_enclosingScopes fullName
    rw [hsplit] at hpairwise
    exact (List.pairwise_append.1 hpairwise).2.2 _ hscope' _ List.mem_cons_self
  omega

theorem findAround?_eq_none {typeName : String}
    (h : ∀ scope d, IsScope fullName scope → ¬types.Declares scope typeName d) :
    types.findAround? fullName typeName = none := by
  refine List.findSome?_eq_none_iff.2 fun scope hscope => ?_
  obtain ⟨hne, hscope⟩ := (mem_enclosingScopes_iff _ _).1 hscope
  refine Option.eq_none_iff_forall_ne_some.2 fun d hd => ?_
  exact h scope d hscope
    ((find?_scope_iff hnodup hne (hscope.relative hne hfull) typeName d).1 hd)

end Declarations

/-- **Relative names.** A field names an enum or a message without a leading dot. If the root
    declares that name, the field refers to the type at the root. If it does not, the field refers
    to the type in the innermost scope around its message that declares the name. If no scope does,
    the field does not resolve. In each case the type has to be of the kind that the field says. -/
theorem Slot.relative_name_leads_to_innermost {files : List FileDescriptor}
    {outlined : List (SchemaFile FieldDescriptor)} (houtline : Model.outline files = .ok outlined)
    (hfiles : ∀ d ∈ files, d.Identified) (hnodup : (files.flatMap FileDescriptor.typeNames).Nodup)
    {slot : Slot} (hslot : slot ∈ outlined.flatMap fun file => Message.slotsAll file.messages)
    (hkind : slot.field.kind = .enum ∨ slot.field.kind = .message) {typeName : String}
    (hname : slot.field.typeName = .text typeName)
    (hrelative : Text.startsWith "." typeName = false) :
    let types : Declarations FieldDescriptor := outlined.flatMap SchemaFile.declarations
    (∀ scope d, types.Innermost slot.owner.shown typeName scope d →
      (scope = "" ∨ ∀ d', ¬types.Declares "" typeName d') →
        slot.target? types = slot.answer (some d)) ∧
    (∀ d, types.Declares "" typeName d → slot.target? types = slot.answer (some d)) ∧
    ((∀ scope d, IsScope slot.owner.shown scope → ¬types.Declares scope typeName d) →
      slot.target? types = .error slot.failure) := by
  intro types
  have hnodup : (types.map Declaration.fullName).Nodup := by
    rw [Model.fullNames_declarations houtline]
    exact hnodup
  obtain ⟨fullName, howner, hfull⟩ := slot.relative_owner houtline hfiles hslot
  rw [howner, RawText.shown]
  have htarget : ∀ found, types.lookup? (.text fullName) typeName = .ok found →
      slot.target? types = slot.answer found := by
    intro found hfound
    have hnamed : slot.named? types = .ok found := by
      unfold Slot.named?
      rw [hname, howner]
      exact hfound
    rw [Slot.target?_eq types hkind, hnamed]
    rfl
  have hroot : ∀ d, types.Declares "" typeName d → slot.target? types = slot.answer (some d) := by
    intro d hd
    refine htarget _ ?_
    rw [Declarations.lookup?, (Declarations.find?_root_iff hnodup hrelative d).2 hd]
  have haround : (∀ d, ¬types.Declares "" typeName d) →
      slot.target? types = slot.answer (types.findAround? fullName typeName) := by
    intro hnone
    have hfind : types.find? typeName = none := Option.eq_none_iff_forall_ne_some.2 fun d hd =>
      hnone d ((Declarations.find?_root_iff hnodup hrelative d).1 hd)
    refine htarget _ ?_
    simp only [Declarations.lookup?, hfind, hrelative]
    rfl
  refine ⟨fun scope d hd hscope => ?_, hroot, fun hnone => ?_⟩
  · by_cases hne : scope = ""
    · subst hne
      exact hroot d hd.declares
    · rw [haround (hscope.resolve_left hne),
        Declarations.findAround?_innermost hnodup hfull hne hd]
  · rw [haround fun d => hnone "" d (.inl rfl), Declarations.findAround?_eq_none hnodup hfull hnone]
    rfl

/-- The item of a cart is one of the cart, not one of its package. -/
theorem Slot.relative_name_leads_to_own_item :
    let item : FieldDescriptor := { name := "item", kind := .message, typeName := "Item" }
    let shop : FileDescriptor :=
      { name := "shop.proto", package := "shop", messages :=
        [{ name := "Item" },
         { name := "Cart", fields := [item], messages := [{ name := "Item" }] }] }
    let types := (shop.outlineAs 0 "shop.proto").declarations
    let own : Message FieldDescriptor :=
      ⟨"Item", "shop.Cart.Item", "shop", ⟨0, [1, 0]⟩, [], [], [], false, false⟩
    Declarations.Innermost types "shop.Cart" "Item" "shop.Cart" (.message own) ∧
      Slot.target? types ⟨⟨⟨0, [1]⟩, 0⟩, "shop.Cart", item⟩ = .ok (some (.message own.ref)) := by
  intro item shop types own
  have hfiles : ∀ d ∈ [shop], d.Identified := by
    intro d hd
    obtain rfl := List.mem_singleton.1 hd
    exact ⟨⟨["shop"], by decide, rfl⟩, by decide⟩
  have htypes : types =
      [.message ⟨"Item", "shop.Item", "shop", ⟨0, [0]⟩, [], [], [], false, false⟩,
       .message ⟨"Cart", "shop.Cart", "shop", ⟨0, [1]⟩, [item], [], [own], false, false⟩,
       .message own] := rfl
  have hinnermost : Declarations.Innermost types "shop.Cart" "Item" "shop.Cart" (.message own) :=
    ⟨.inr (.inl rfl), ⟨by simp [htypes], rfl⟩, fun _ _ hscope _ => hscope.length_le⟩
  have hroot : ∀ d, ¬Declarations.Declares types "" "Item" d := by
    rintro d ⟨hd, hname⟩
    have hnames : ∀ full ∈ types.map Declaration.fullName, full ≠ .text "Item" := by decide
    exact hnames _ (List.mem_map_of_mem hd) hname
  refine ⟨hinnermost, ?_⟩
  exact (@Slot.relative_name_leads_to_innermost [shop] [shop.outlineAs 0 "shop.proto"] rfl hfiles
    (by decide) ⟨⟨⟨0, [1]⟩, 0⟩, "shop.Cart", item⟩ List.mem_cons_self (.inr rfl) "Item" rfl
    (by decide)).1 "shop.Cart" _ hinnermost (.inr hroot)

/-- The item of a cart is not the one of the cart, because a file without a package has one too. -/
theorem Slot.relative_name_hidden_by_root :
    let item : FieldDescriptor := { name := "item", kind := .message, typeName := "Item" }
    let shop : FileDescriptor :=
      { name := "shop.proto", package := "shop", messages :=
        [{ name := "Cart", fields := [item], messages := [{ name := "Item" }] }] }
    let stock : FileDescriptor := { name := "stock.proto", messages := [{ name := "Item" }] }
    let outlined := [shop.outlineAs 0 "shop.proto", stock.outlineAs 1 "stock.proto"]
    let types := outlined.flatMap SchemaFile.declarations
    let slot : Slot := ⟨⟨⟨0, [0]⟩, 0⟩, "shop.Cart", item⟩
    let own : Message FieldDescriptor :=
      ⟨"Item", "shop.Cart.Item", "shop", ⟨0, [0, 0]⟩, [], [], [], false, false⟩
    Model.outline [shop, stock] = .ok outlined ∧
      (∀ d ∈ [shop, stock], d.Identified) ∧
      ([shop, stock].flatMap FileDescriptor.typeNames).Nodup ∧
      slot ∈ outlined.flatMap (fun file => Message.slotsAll file.messages) ∧
      Declarations.Innermost types "shop.Cart" "Item" "shop.Cart" (.message own) ∧
      slot.target? types = .ok (some (.message ⟨"Item", "Item", "stock", ⟨1, [0]⟩, false⟩)) ∧
      slot.target? types ≠ slot.answer (some (.message own)) := by
  intro item shop stock outlined types slot own
  have hfiles : ∀ d ∈ [shop, stock], d.Identified := by
    simp only [List.forall_mem_cons, List.not_mem_nil, false_imp_iff, implies_true, and_true]
    exact ⟨⟨⟨["shop"], by decide, rfl⟩, by decide⟩, ⟨[], by simp, rfl⟩, by decide⟩
  have htypes : types =
      [.message ⟨"Cart", "shop.Cart", "shop", ⟨0, [0]⟩, [item], [], [own], false, false⟩,
       .message own,
       .message ⟨"Item", "Item", "stock", ⟨1, [0]⟩, [], [], [], false, false⟩] := rfl
  have hinnermost : Declarations.Innermost types "shop.Cart" "Item" "shop.Cart" (.message own) :=
    ⟨.inr (.inl rfl), ⟨by simp [htypes], rfl⟩, fun _ _ hscope _ => hscope.length_le⟩
  have htarget : slot.target? types =
      .ok (some (.message ⟨"Item", "Item", "stock", ⟨1, [0]⟩, false⟩)) := by cbv
  have hanswer : slot.answer (some (.message own)) = .ok (some (.message own.ref)) := rfl
  refine ⟨rfl, hfiles, by decide, List.mem_cons_self, hinnermost, htarget, ?_⟩
  rw [htarget, hanswer]
  exact fun hsame => absurd (Except.ok.inj hsame) (by decide)

end ProtoSchema
