import Mathlib.Algebra.Group.Int.Defs
import Mathlib.Algebra.Group.Nat.Defs
import ProtoSchema.Proofs.Module.StaticType
import ProtoSchema.Proofs.Rules.Writing

set_option autoImplicit false

/-! # The tables of an enum

An enum is exported with two tables, from the numbers of its values to their short names and from
the short names back to its members. Both are written as object literals, with keys that are not
quoted. Whether such a text is an object literal at all depends on the keys (`ObjectLiteral.Legal`):
a key has to be an identifier or a decimal number. So no number may be negative, and what is left of
the name of a value has to be an identifier or a number again; and no two values may be left with
one name. Under exactly these conditions the tables lead from the number of every value to its
member (`EnumExport.tables_legal_iff`). -/

namespace ProtoSchema

open Name (isIdentifier isWord Word numberTable nameTable)

/-! ## Object literals -/

/-- The entries of an object literal, as they are written: keys and values. -/
abbrev ObjectLiteral := List (String × String)

namespace ObjectLiteral

/-- A decimal number without a sign and without leading zeros. -/
def isDecimal (key : String) : Bool :=
  key = Decimal.natText (Nat.ofDigitChars 10 key.toList 0)

/-- What may stand as a key without quotes. -/
def isLegalKey (key : String) : Bool :=
  isIdentifier key || isDecimal key

/-- Whether a key makes a property of that name. The key `__proto__` sets the prototype instead, and
    numbers are properties by their floating-point value, which is exact below `2 ^ 53`. -/
def makesProperty (key : String) : Bool :=
  (isIdentifier key && key ≠ "__proto__") ||
    (isDecimal key && Nat.ofDigitChars 10 key.toList 0 < 2 ^ 53)

def keys (entries : ObjectLiteral) : List String :=
  entries.map Prod.fst

/-- The keys of an object literal can be read. -/
def Legal (entries : ObjectLiteral) : Prop :=
  ∀ key ∈ entries.keys, isLegalKey key = true

instance (entries : ObjectLiteral) : Decidable entries.Legal :=
  inferInstanceAs (Decidable (∀ key ∈ entries.keys, _))

/-- The value of a property, as it is written. Nothing can be looked up where a key cannot be read;
    of several entries with one key the last one counts. -/
def property? (entries : ObjectLiteral) (name : String) : Option String :=
  if entries.Legal then
    (entries.reverse.find? fun entry => entry.1 = name ∧ makesProperty entry.1).map Prod.snd
  else none

/-! ### Keys -/

theorem ofDigitChars_natText (n : Nat) : Nat.ofDigitChars 10 (Decimal.natText n).toList 0 = n := by
  simp [Decimal.natText]

theorem isDecimal_natText (n : Nat) : isDecimal (Decimal.natText n) = true := by
  rw [isDecimal, ofDigitChars_natText, decide_eq_true rfl]

theorem isDecimal_iff {key : String} : isDecimal key = true ↔ ∃ n, key = Decimal.natText n := by
  constructor
  · intro h
    exact ⟨_, of_decide_eq_true h⟩
  · rintro ⟨n, rfl⟩
    exact isDecimal_natText n

theorem makesProperty_natText {n : Nat} (h : n < 2 ^ 53) :
    makesProperty (Decimal.natText n) = true := by
  rw [makesProperty, isDecimal_natText, ofDigitChars_natText, Bool.true_and, decide_eq_true h,
    Bool.or_true]

/-- A number that has a sign is no key. -/
theorem isLegalKey_intText_iff {n : Int} : isLegalKey (Decimal.intText n) = true ↔ 0 ≤ n := by
  cases n with
  | ofNat n => simp [isLegalKey, Decimal.intText, isDecimal_natText]
  | negSucc n =>
    have hidentifier : isIdentifier ("-" ++ Decimal.natText (n + 1)) = false := by
      simp [isIdentifier]
    have hdecimal : isDecimal ("-" ++ Decimal.natText (n + 1)) = false := by
      rw [Bool.eq_false_iff, Ne, isDecimal_iff]
      rintro ⟨m, hm⟩
      exact Decimal.natText_ne_negative m _ hm.symm
    rw [isLegalKey, Decimal.intText, hidentifier, hdecimal]
    simp

/-- A legal key makes a property of its name, with two kinds of exceptions. -/
theorem makesProperty_of_isLegalKey {key : String} (h : isLegalKey key = true)
    (hproto : key ≠ "__proto__") (hexact : ∀ n, key = Decimal.natText n → n < 2 ^ 53) :
    makesProperty key = true := by
  rcases Bool.or_eq_true_iff.1 h with h | h
  · simp [makesProperty, h, hproto]
  · obtain ⟨n, rfl⟩ := isDecimal_iff.1 h
    exact makesProperty_natText (hexact n rfl)

theorem not_makesProperty_proto : makesProperty "__proto__" = false := by decide

/-! ### Looking up -/

variable {entries : ObjectLiteral} {key value : String}

theorem property?_eq_some (hlegal : entries.Legal) (hdistinct : entries.keys.Nodup)
    (hmem : (key, value) ∈ entries) (hkey : makesProperty key = true) :
    entries.property? key = some value := by
  have hfind : (entries.reverse.find? fun entry => entry.1 = key ∧ makesProperty entry.1) =
      some (key, value) :=
    find?_reverse_of_nodup hdistinct hmem (decide_eq_true ⟨rfl, hkey⟩) fun _ hfound =>
      (of_decide_eq_true hfound).1
  rw [property?, if_pos hlegal, hfind, Option.map_some]

theorem of_property?_eq_some (h : entries.property? key = some value) :
    entries.Legal ∧ (key, value) ∈ entries ∧ makesProperty key = true := by
  rw [property?] at h
  split at h
  · next hlegal =>
    obtain ⟨found, hfind, rfl⟩ := Option.map_eq_some_iff.1 h
    have hfound : found.1 = key ∧ makesProperty found.1 = true := by
      simpa only [decide_eq_true_eq] using List.find?_some hfind
    obtain ⟨rfl, hkey⟩ := hfound
    exact ⟨hlegal, List.mem_reverse.1 (List.mem_of_find?_eq_some hfind), hkey⟩
  · cases h

end ObjectLiteral

/-! ## Exported tables -/

/-- The entries of the table that some lines export under a name. -/
def exportedTable (name : String) (lines : List String) : ObjectLiteral :=
  let fromOpening := lines.dropWhile fun line => exportedName? .const line ≠ some name
  (exportedBlock .const (closeBrace ++ ";") fromOpening).filterMap (memberParts? ",")

/-- A constant that is exported once is found where it is exported. -/
theorem exportedTable_eq {name opening : String} {front body rest lines : List String}
    (hlines : lines = front ++ opening :: (body ++ (closeBrace ++ ";") :: rest))
    (hdistinct : (exportedNames .const lines).Nodup)
    (hopening : exportedName? .const opening = some name)
    (hbody : ∀ line ∈ body, line ≠ closeBrace ++ ";") :
    exportedTable name lines = body.filterMap (memberParts? ",") := by
  have hfront : ∀ line ∈ front, decide (exportedName? .const line ≠ some name) = true := by
    intro line hline
    rw [decide_eq_true_eq]
    intro hexport
    rw [hlines, exportedNames_append, exportedNames_cons, hopening] at hdistinct
    refine List.disjoint_of_nodup_append hdistinct (List.mem_filterMap.2 ⟨line, hline, hexport⟩) ?_
    exact List.mem_append_left _ (List.mem_singleton_self name)
  have hnone : exportedNames .const [] = [] := rfl
  have hblock := exportedBlock_eq hnone hopening hbody rest
  rw [List.nil_append] at hblock
  rw [exportedTable, hlines, List.dropWhile_append_of_pos hfront,
    List.dropWhile_cons_of_neg (by simp [hopening]), hblock]

/-! ## Short names -/

namespace Name

/-- Either the name of the enum is cut off a value, or the value does not start with it. -/
theorem shortValue_cases (value enum : String) :
    value = screamingSnake enum ++ "_" ++ shortValue value enum ∨
      (∀ rest, value ≠ screamingSnake enum ++ "_" ++ rest) ∧ shortValue value enum = value := by
  unfold shortValue
  cases hafter : Text.after? (screamingSnake enum ++ "_") value with
  | some rest => exact .inl ((Text.after?_eq_some_iff _ _ _).1 hafter)
  | none =>
    refine .inr ⟨fun rest heq => ?_, rfl⟩
    rw [(Text.after?_eq_some_iff _ _ _).2 heq] at hafter
    cases hafter

theorem shortValue_append (enum rest : String) :
    shortValue (screamingSnake enum ++ "_" ++ rest) enum = rest := by
  rw [shortValue, (Text.after?_eq_some_iff _ _ _).2 rfl, Option.getD_some]

theorem shortValue_eq_self {value enum : String}
    (h : ¬ ∃ rest, value = screamingSnake enum ++ "_" ++ rest) : shortValue value enum = value := by
  rcases shortValue_cases value enum with hcut | ⟨_, hself⟩
  · exact absurd ⟨_, hcut⟩ h
  · exact hself

theorem word_shortValue {value : String} (h : Word value) (enum : String) :
    Word (shortValue value enum) := by
  rcases shortValue_cases value enum with hcut | ⟨_, hself⟩
  · intro c hc
    refine h c ?_
    rw [hcut, String.toList_append]
    exact List.mem_append_right _ hc
  · rwa [hself]

end Name

/-! ## The two tables -/

namespace EnumExport

/-- The short name of a value. -/
def short (e : EnumExport) (v : EnumValue) : String :=
  Name.shortValue v.name.shown e.name

/-- The member of a value, as it is written. -/
def member (e : EnumExport) (v : EnumValue) : String :=
  e.name ++ "." ++ v.name.shown

/-- The table from numbers to short names, read off the text. -/
def numberEntries (e : EnumExport) : ObjectLiteral :=
  exportedTable (numberTable e.name) e.lines

/-- The table from short names to members, read off the text. -/
def nameEntries (e : EnumExport) : ObjectLiteral :=
  exportedTable (nameTable e.name) e.lines

/-- The word that a string literal without escapes holds. -/
def unquoted? (literal : String) : Option String :=
  (Text.after? "\"" literal).bind (Text.before? "\"")

/-- The member that the two tables, one after the other, give for a number. -/
def memberOf? (e : EnumExport) (n : Int) : Option String := do
  let literal ← e.numberEntries.property? (Decimal.intText n)
  let word ← unquoted? literal
  e.nameEntries.property? word

/-- An enum as a schema compiler accepts it. -/
structure Regular (e : EnumExport) : Prop where
  name : isIdentifier e.name = true
  valueNames : ∀ v ∈ e.values, isIdentifier v.name.shown = true
  distinctNames : (e.values.map fun v => v.name.shown).Nodup
  distinctNumbers : (e.values.map EnumValue.number).Nodup
  bounded : ∀ v ∈ e.values, -2 ^ 31 ≤ v.number ∧ v.number < 2 ^ 31

/-! ### Reading the text -/

theorem unquoted?_quoted (word : String) : unquoted? ("\"" ++ word ++ "\"") = some word := by
  have hafter : Text.after? "\"" ("\"" ++ word ++ "\"") = some (word ++ "\"") := by
    rw [Text.after?_eq_some_iff, String.append_assoc]
  rw [unquoted?, hafter, Option.bind_some, Text.before?_eq_some_iff]

/-- The two tables among the lines of an enum. -/
theorem lines_eq (e : EnumExport) : ∃ front middle,
    e.lines = front ++ e.numberOpening :: (e.values.map (numberLine e.name) ++
      (closeBrace ++ ";") :: (middle ++ e.nameOpening ::
        ((definedValues e.values).map (nameLine e.name) ++ (closeBrace ++ ";") :: [""]))) := by
  refine ⟨docLines ("Zod schema for " ++ e.name ++ " enum") e.deprecated ("enum " ++ e.fullName) ++
      ["export const " ++ Name.schema e.name ++ " = z.enum(" ++ e.name ++ ");",
       "export type " ++ e.name ++ "Type = z.infer<typeof " ++ Name.schema e.name ++ ">;", ""] ++
      docLines ("Map of " ++ e.name ++ " enum values to string representations") false
        ("enum " ++ e.fullName),
    "" :: docLines ("Map of string representations to " ++ e.name ++ " enum values") false
        ("enum " ++ e.fullName), ?_⟩
  unfold EnumExport.lines numberOpening nameOpening
  simp only [List.append_assoc, List.cons_append, List.nil_append]

theorem mem_values {e : EnumExport} {v : EnumValue} (h : v ∈ definedValues e.values) :
    v ∈ e.values :=
  List.mem_of_mem_filter h

namespace Regular

variable {e : EnumExport} (h : e.Regular)

include h

/-- The three constants of an enum have names of their own. -/
theorem nodup_constants : (exportedNames .const e.lines).Nodup := by
  have htables : numberTable e.name ≠ nameTable e.name := by
    intro heq
    have hlength := congrArg (fun s => s.toList.length) heq
    simp [numberTable, nameTable] at hlength
  rw [exported_const h.name]
  simp [htables, Name.schema_ne_of_screaming (Name.screaming_numberTable h.name),
    Name.schema_ne_of_screaming (Name.screaming_nameTable h.name)]

theorem word_short {v : EnumValue} (hv : v ∈ e.values) : Word (e.short v) :=
  Name.word_shortValue (Name.word_of_isIdentifier (h.valueNames v hv)) e.name

theorem numberEntries_eq : e.numberEntries =
    e.values.map fun v => (Decimal.intText v.number, "\"" ++ e.short v ++ "\"") := by
  obtain ⟨front, middle, hlines⟩ := e.lines_eq
  have hindented : ∀ line ∈ e.values.map (numberLine e.name), line ≠ closeBrace ++ ";" := by
    intro line hline hclose
    obtain ⟨v, _, rfl⟩ := List.mem_map.1 hline
    have hhead := congrArg (fun s => s.toList.head?) hclose
    simp [numberLine, closeBrace] at hhead
  rw [numberEntries, exportedTable_eq hlines h.nodup_constants
    (exportedName?_numberOpening h.name) hindented, List.filterMap_map, ← List.filterMap_eq_map]
  refine List.filterMap_congr fun v _ => ?_
  have hcolon : ':' ∉ (Decimal.intText v.number).toList :=
    fun hmem => absurd (Decimal.isNumberChar_intText hmem) (by decide)
  have hline : numberLine e.name v =
      "  " ++ Decimal.intText v.number ++ ": " ++ ("\"" ++ e.short v ++ "\"") ++ "," := by
    apply String.toList_injective
    simp [numberLine, short]
  rw [Function.comp_apply, hline, memberParts?_eq_some hcolon, Function.comp_apply]

theorem nameEntries_eq :
    e.nameEntries = (definedValues e.values).map fun v => (e.short v, e.member v) := by
  obtain ⟨front, middle, hlines⟩ := e.lines_eq
  have hindented : ∀ line ∈ (definedValues e.values).map (nameLine e.name),
      line ≠ closeBrace ++ ";" := by
    intro line hline hclose
    obtain ⟨v, _, rfl⟩ := List.mem_map.1 hline
    have hhead := congrArg (fun s => s.toList.head?) hclose
    simp [nameLine, closeBrace] at hhead
  have hlines' : e.lines = (front ++ e.numberOpening :: (e.values.map (numberLine e.name) ++
      (closeBrace ++ ";") :: middle)) ++ e.nameOpening ::
        ((definedValues e.values).map (nameLine e.name) ++ (closeBrace ++ ";") :: [""]) := by
    rw [hlines]
    simp only [List.append_assoc, List.cons_append]
  rw [nameEntries, exportedTable_eq hlines' h.nodup_constants
    (exportedName?_nameOpening h.name) hindented, List.filterMap_map, ← List.filterMap_eq_map]
  refine List.filterMap_congr fun v hv => ?_
  have hline : nameLine e.name v = "  " ++ e.short v ++ ": " ++ e.member v ++ "," := by
    apply String.toList_injective
    simp [nameLine, short, member]
  rw [Function.comp_apply, hline, memberParts?_eq_some (h.word_short (mem_values hv)).colon_notMem,
    Function.comp_apply]


/-! ### Keys -/

theorem keys_numberEntries :
    e.numberEntries.keys = e.values.map fun v => Decimal.intText v.number := by
  rw [h.numberEntries_eq, ObjectLiteral.keys, List.map_map, Function.comp_def]

theorem keys_nameEntries : e.nameEntries.keys = (definedValues e.values).map e.short := by
  rw [h.nameEntries_eq, ObjectLiteral.keys, List.map_map, Function.comp_def]

theorem numberEntries_legal_iff : e.numberEntries.Legal ↔ ∀ v ∈ e.values, 0 ≤ v.number := by
  rw [ObjectLiteral.Legal, h.keys_numberEntries, List.forall_mem_map]
  exact forall₂_congr fun v _ => ObjectLiteral.isLegalKey_intText_iff

theorem nodup_numberEntries : e.numberEntries.keys.Nodup := by
  have htexts : ((e.values.map EnumValue.number).map Decimal.intText).Nodup :=
    h.distinctNumbers.map fun _ _ => Decimal.intText_inj
  rw [List.map_map] at htexts
  rwa [h.keys_numberEntries]

theorem nameEntries_legal_iff : e.nameEntries.Legal ↔
    ∀ v ∈ definedValues e.values, ∀ rest,
      v.name.shown = Name.screamingSnake e.name ++ "_" ++ rest →
        ObjectLiteral.isLegalKey rest = true := by
  rw [ObjectLiteral.Legal, h.keys_nameEntries, List.forall_mem_map]
  refine forall₂_congr fun v hv => ⟨fun hlegal rest heq => ?_, fun hrest => ?_⟩
  · rwa [short, heq, Name.shortValue_append] at hlegal
  · rcases Name.shortValue_cases v.name.shown e.name with hcut | ⟨_, hself⟩
    · exact hrest _ hcut
    · rw [short, hself, ObjectLiteral.isLegalKey, h.valueNames v (mem_values hv), Bool.true_or]

/-- Two short names are the same only where one value is left with the full name of the other. -/
theorem nodup_nameEntries_iff : e.nameEntries.keys.Nodup ↔
    ∀ v ∈ definedValues e.values, ∀ w ∈ definedValues e.values,
      v.name.shown = Name.screamingSnake e.name ++ "_" ++ w.name.shown →
        ∃ rest, w.name.shown = Name.screamingSnake e.name ++ "_" ++ rest := by
  have hname : ∀ v ∈ definedValues e.values, ∀ w ∈ definedValues e.values,
      v.name.shown = w.name.shown → v = w := fun v hv w hw =>
    List.inj_on_of_nodup_map h.distinctNames (mem_values hv) (mem_values hw)
  have hvalues : (definedValues e.values).Nodup := h.distinctNames.of_map.filter _
  rw [h.keys_nameEntries, List.nodup_map_iff_inj_on hvalues]
  constructor
  · intro hinj v hv w hw heq
    by_contra hfull
    have hshort : e.short v = e.short w := by
      rw [short, short, heq, Name.shortValue_append, Name.shortValue_eq_self hfull]
    obtain rfl := hinj v hv w hw hshort
    exact hfull ⟨_, heq⟩
  · intro hcut v hv w hw hshort
    unfold short at hshort
    refine hname v hv w hw ?_
    rcases Name.shortValue_cases v.name.shown e.name with hv' | ⟨hv', hself⟩ <;>
      rcases Name.shortValue_cases w.name.shown e.name with hw' | ⟨hw', hself'⟩
    · rw [hv', hw', hshort]
    · rw [hshort, hself'] at hv'
      obtain ⟨rest, hrest⟩ := hcut v hv w hw hv'
      exact absurd hrest (hw' rest)
    · rw [← hshort, hself] at hw'
      obtain ⟨rest, hrest⟩ := hcut w hw v hv hw'
      exact absurd hrest (hv' rest)
    · rw [← hself, ← hself', hshort]

/-! ### Looking up -/

theorem memberOf?_eq_some (hnumbers : e.numberEntries.Legal) (hnames : e.nameEntries.Legal)
    (hdistinct : e.nameEntries.keys.Nodup) {v : EnumValue} (hv : v ∈ definedValues e.values)
    (hshort : ObjectLiteral.makesProperty (e.short v) = true) :
    e.memberOf? v.number = some (e.member v) := by
  have hnumber : e.numberEntries.property? (Decimal.intText v.number) =
      some ("\"" ++ e.short v ++ "\"") := by
    refine ObjectLiteral.property?_eq_some hnumbers h.nodup_numberEntries ?_ ?_
    · rw [h.numberEntries_eq]
      exact List.mem_map.2 ⟨v, mem_values hv, rfl⟩
    · have hpositive := h.numberEntries_legal_iff.1 hnumbers v (mem_values hv)
      obtain ⟨n, hn⟩ := Int.eq_ofNat_of_zero_le hpositive
      have hbound := (h.bounded v (mem_values hv)).2
      rw [hn]
      exact ObjectLiteral.makesProperty_natText (by omega)
  have hname : e.nameEntries.property? (e.short v) = some (e.member v) := by
    refine ObjectLiteral.property?_eq_some hnames hdistinct ?_ hshort
    rw [h.nameEntries_eq]
    exact List.mem_map.2 ⟨v, hv, rfl⟩
  simp [memberOf?, hnumber, unquoted?_quoted, hname]

theorem of_memberOf?_eq_some {v : EnumValue} (hv : v ∈ definedValues e.values) {member : String}
    (hmember : e.memberOf? v.number = some member) :
    e.numberEntries.Legal ∧ e.nameEntries.property? (e.short v) = some member := by
  unfold memberOf? at hmember
  obtain ⟨literal, hliteral, hmember⟩ := Option.bind_eq_some_iff.1 hmember
  obtain ⟨word, hword, hmember⟩ := Option.bind_eq_some_iff.1 hmember
  obtain ⟨hlegal, hmem, _⟩ := ObjectLiteral.of_property?_eq_some hliteral
  rw [h.numberEntries_eq] at hmem
  obtain ⟨w, hw, hentry⟩ := List.mem_map.1 hmem
  obtain ⟨hnumber, rfl⟩ := Prod.mk.inj hentry
  obtain rfl := List.inj_on_of_nodup_map h.distinctNumbers hw (mem_values hv)
    (Decimal.intText_inj hnumber)
  rw [unquoted?_quoted] at hword
  obtain rfl := Option.some.inj hword
  exact ⟨hlegal, hmember⟩

end Regular

/-- What the text of an enum says about its two tables. -/
structure Tabulated (e : EnumExport) : Prop where
  /-- The first table gives every number its short name. -/
  numbers : e.numberEntries =
    e.values.map fun v => (Decimal.intText v.number, "\"" ++ e.short v ++ "\"")
  /-- The second table gives every short name its member, the zero value apart. -/
  names : e.nameEntries = (definedValues e.values).map fun v => (e.short v, e.member v)
  /-- The numbers can be read unless one of them is negative. -/
  numbers_legal : e.numberEntries.Legal ↔ ∀ v ∈ e.values, 0 ≤ v.number
  numbers_distinct : e.numberEntries.keys.Nodup
  /-- The names can be read if what is left of those that are cut can be read. -/
  names_legal : e.nameEntries.Legal ↔ ∀ v ∈ definedValues e.values, ∀ rest,
    v.name.shown = Name.screamingSnake e.name ++ "_" ++ rest →
      ObjectLiteral.isLegalKey rest = true
  /-- They are distinct unless one value is left with the full name of another. -/
  names_distinct : e.nameEntries.keys.Nodup ↔
    ∀ v ∈ definedValues e.values, ∀ w ∈ definedValues e.values,
      v.name.shown = Name.screamingSnake e.name ++ "_" ++ w.name.shown →
        ∃ rest, w.name.shown = Name.screamingSnake e.name ++ "_" ++ rest
  /-- Just then the tables lead back to every value, unless one is left with the name `__proto__`.
      Names that are very large numbers are not considered. -/
  members : (∀ v ∈ definedValues e.values, ∀ n, e.short v = Decimal.natText n → n < 2 ^ 53) →
    ((∀ v ∈ definedValues e.values, e.memberOf? v.number = some (e.member v)) ↔
      e.numberEntries.Legal ∧ e.nameEntries.Legal ∧ e.nameEntries.keys.Nodup ∧
        ∀ v ∈ definedValues e.values, e.short v ≠ "__proto__")

namespace Regular

variable {e : EnumExport} (h : e.Regular)

include h

theorem legal_of_members
    (hmembers : ∀ v ∈ definedValues e.values, e.memberOf? v.number = some (e.member v)) :
    e.numberEntries.Legal ∧ e.nameEntries.Legal ∧ e.nameEntries.keys.Nodup ∧
      ∀ v ∈ definedValues e.values, e.short v ≠ "__proto__" := by
  have hread : ∀ v ∈ definedValues e.values, e.numberEntries.Legal ∧
      e.nameEntries.property? (e.short v) = some (e.member v) :=
    fun v hv => h.of_memberOf?_eq_some hv (hmembers v hv)
  refine ⟨h.numberEntries_legal_iff.2 fun v hv => ?_, fun key hkey => ?_, ?_, fun v hv hproto => ?_⟩
  · by_cases hzero : v.number = 0
    · rw [hzero]
    · have hdefined : v ∈ definedValues e.values := List.mem_filter.2 ⟨hv, decide_eq_true hzero⟩
      exact h.numberEntries_legal_iff.1 (hread v hdefined).1 v hv
  · have hkey' := hkey
    rw [h.keys_nameEntries] at hkey'
    obtain ⟨v, hv, rfl⟩ := List.mem_map.1 hkey'
    exact (ObjectLiteral.of_property?_eq_some (hread v hv).2).1 _ hkey
  · -- equal short names would lead to equal members
    rw [h.keys_nameEntries]
    refine List.Nodup.map_on (fun v hv w hw hshort => ?_) (h.distinctNames.of_map.filter _)
    have hsame := (hread v hv).2
    rw [hshort, (hread w hw).2, Option.some.injEq, member, member,
      String.append_right_inj] at hsame
    exact List.inj_on_of_nodup_map h.distinctNames (mem_values hv) (mem_values hw) hsame.symm
  · have hkey := (ObjectLiteral.of_property?_eq_some (hread v hv).2).2.2
    rw [hproto, ObjectLiteral.not_makesProperty_proto] at hkey
    cases hkey

end Regular

/-- **The tables of an enum are legal and lead back to its values if its names allow for it.** The
    entries of both tables are read off the text of the enum. The first table is legal exactly if no
    number is negative. The second one is legal exactly if all that is left of cut names is, and its
    keys are distinct exactly if nothing is left that is the full name of another value. -/
theorem tables_legal_iff (e : EnumExport) (h : e.Regular) : e.Tabulated where
  numbers := h.numberEntries_eq
  names := h.nameEntries_eq
  numbers_legal := h.numberEntries_legal_iff
  numbers_distinct := h.nodup_numberEntries
  names_legal := h.nameEntries_legal_iff
  names_distinct := h.nodup_nameEntries_iff
  members := by
    intro hexact
    refine ⟨h.legal_of_members, ?_⟩
    rintro ⟨hnumbers, hnames, hdistinct, hproto⟩ v hv
    refine h.memberOf?_eq_some hnumbers hnames hdistinct hv ?_
    have hkey : ObjectLiteral.isLegalKey (e.short v) = true := by
      refine hnames _ ?_
      rw [h.keys_nameEntries]
      exact List.mem_map_of_mem hv
    exact ObjectLiteral.makesProperty_of_isLegalKey hkey (hproto v hv) (hexact v hv)

/-- Names with and without the name of the enum, one of them cut down to a number. -/
theorem tables_of_planTier :
    let tier : EnumExport := ⟨"PlanTier", "shop.PlanTier",
      [⟨"PLAN_TIER_NONE", 0⟩, ⟨"PLAN_TIER_FREE", 1⟩, ⟨"PLAN_TIER_2", 2⟩, ⟨"LEGACY", 7⟩], false⟩
    tier.Regular ∧ tier.numberEntries.Legal ∧ tier.nameEntries.Legal ∧
      tier.nameEntries.keys = ["FREE", "2", "LEGACY"] ∧ tier.nameEntries.keys.Nodup ∧
      tier.memberOf? 2 = some "PlanTier.PLAN_TIER_2" := by
  intro tier
  have hregular : tier.Regular := ⟨by decide, by decide, by decide, by decide, by decide⟩
  have htables := tables_legal_iff tier hregular
  have hentries : tier.nameEntries = [("FREE", "PlanTier.PLAN_TIER_FREE"),
      ("2", "PlanTier.PLAN_TIER_2"), ("LEGACY", "PlanTier.LEGACY")] :=
    htables.names.trans (by decide)
  have hkeys : tier.nameEntries.keys = ["FREE", "2", "LEGACY"] := by rw [hentries]; rfl
  have hnumbers : tier.numberEntries.Legal := htables.numbers_legal.2 (by decide)
  have hnames : tier.nameEntries.Legal := by
    rw [hentries]
    decide
  have hdistinct : tier.nameEntries.keys.Nodup := by
    rw [hkeys]
    decide
  have hexact : ∀ v ∈ definedValues tier.values, ∀ n,
      tier.short v = Decimal.natText n → n < 2 ^ 53 := by
    intro v hv n hn
    have hsmall : ∀ v ∈ definedValues tier.values,
        Nat.ofDigitChars 10 (tier.short v).toList 0 < 2 ^ 53 := by decide
    have hvalue := hsmall v hv
    rwa [hn, ObjectLiteral.ofDigitChars_natText] at hvalue
  have hmembers := (htables.members hexact).2 ⟨hnumbers, hnames, hdistinct, by decide⟩
  exact ⟨hregular, hnumbers, hnames, hkeys, hdistinct, hmembers ⟨"PLAN_TIER_2", 2⟩ (by decide)⟩

/-- A negative number, a name of which nothing is left, one of which `2D` is left, and one of which
    the full name of another is left. -/
theorem tables_of_format_illegal :
    let format : EnumExport := ⟨"Format", "shop.Format",
      [⟨"FORMAT_NONE", 0⟩, ⟨"FORMAT_GONE", -1⟩, ⟨"FORMAT_", 1⟩, ⟨"FORMAT_2D", 2⟩,
       ⟨"FORMAT_JSON", 3⟩, ⟨"JSON", 4⟩], false⟩
    format.Regular ∧
      format.numberEntries.keys = ["0", "-1", "1", "2", "3", "4"] ∧
      ObjectLiteral.isLegalKey "-1" = false ∧
      format.nameEntries.keys = ["GONE", "", "2D", "JSON", "JSON"] ∧
      ObjectLiteral.isLegalKey "" = false ∧ ObjectLiteral.isLegalKey "2D" = false ∧
      ¬ format.nameEntries.keys.Nodup ∧ format.memberOf? 2 = none := by
  intro format
  have hregular : format.Regular := ⟨by decide, by decide, by decide, by decide, by decide⟩
  have hnumbers : format.numberEntries.keys = ["0", "-1", "1", "2", "3", "4"] := by
    rw [hregular.keys_numberEntries]
    decide
  have hnames : format.nameEntries.keys = ["GONE", "", "2D", "JSON", "JSON"] := by
    rw [hregular.keys_nameEntries]
    decide
  have hillegal : ¬ format.numberEntries.Legal := by
    rw [ObjectLiteral.Legal, hnumbers]
    decide
  refine ⟨hregular, hnumbers, by decide, hnames, by decide, by decide, ?_, ?_⟩
  · rw [hnames]
    decide
  · rw [memberOf?, ObjectLiteral.property?, if_neg hillegal]
    rfl

end EnumExport

end ProtoSchema
