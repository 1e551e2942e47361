import ProtoSchema.Proofs.Module.Confinement

set_option autoImplicit false

/-! # Derived names

A schema constant ends in lower-case letters, while the tables of an enum are named in screaming
snake case and have none at all. So constants of the two kinds never meet
(`Name.schema_ne_of_screaming`). Schema constants tell their types apart; tables tell enums apart
only up to the letter case and the word boundaries that screaming snake case loses. -/

namespace ProtoSchema

namespace Name

/-! ## Identifiers -/

/-- Whether a character may stand in an identifier. -/
def isWord (c : Char) : Bool :=
  c.isAlphanum || c = '_'

/-- A text of such characters. -/
def Word (s : String) : Prop :=
  ∀ c ∈ s.toList, isWord c = true

theorem Word.append {s t : String} (hs : Word s) (ht : Word t) : Word (s ++ t) := by
  intro c hc
  rw [String.toList_append, List.mem_append] at hc
  exact hc.elim (hs c) (ht c)

theorem word_of_isIdentifier {name : String} (h : isIdentifier name = true) : Word name := by
  intro c hc
  unfold isIdentifier at h
  split at h
  · cases h
  · next first rest hcons =>
    rw [hcons] at hc
    rw [Bool.and_eq_true, List.all_eq_true] at h
    rcases List.mem_cons.1 hc with rfl | hc
    · have hfirst := h.1
      rw [isWord, Char.isAlphanum]
      grind
    · exact h.2 c hc

theorem isUpper_iff {c : Char} : c.isUpper = true ↔ 'A'.toNat ≤ c.toNat ∧ c.toNat ≤ 'Z'.toNat :=
  decide_eq_true_iff

theorem isLower_iff {c : Char} : c.isLower = true ↔ 'a'.toNat ≤ c.toNat ∧ c.toNat ≤ 'z'.toNat :=
  Bool.and_eq_true_iff.trans (and_congr decide_eq_true_iff decide_eq_true_iff)

theorem isAlpha_iff {c : Char} : c.isAlpha = true ↔ c.isUpper = true ∨ c.isLower = true :=
  Bool.or_eq_true_iff

theorem toNat_lt_of_isWord {c : Char} (h : isWord c = true) : c.toNat < 128 := by
  rw [isWord, Char.isAlphanum, Bool.or_eq_true, Bool.or_eq_true, isAlpha_iff] at h
  rcases h with ((hupper | hlower) | hdigit) | hunderscore
  · exact Nat.lt_of_le_of_lt (isUpper_iff.1 hupper).2 (by decide)
  · exact Nat.lt_of_le_of_lt (isLower_iff.1 hlower).2 (by decide)
  · exact Nat.lt_of_le_of_lt (of_decide_eq_true (Bool.and_eq_true_iff.1 hdigit).2 : c.val ≤ '9'.val)
      (by decide)
  · obtain rfl := of_decide_eq_true hunderscore
    decide

/-- There are few word characters, so they can be checked one by one. -/
theorem of_isWord {P : Char → Prop} {c : Char} (h : isWord c = true)
    (hall : ∀ n < 128, isWord (Char.ofNat n) = true → P (Char.ofNat n)) : P c := by
  have hc := hall c.toNat (toNat_lt_of_isWord h)
  rw [Char.ofNat_toNat] at hc
  exact hc h

theorem isWord_toUpper {c : Char} (h : isWord c = true) :
    isWord c.toUpper = true ∧ c.toUpper.isLower = false :=
  of_isWord (P := fun c => isWord c.toUpper = true ∧ c.toUpper.isLower = false) h (by decide)

/-! ## Screaming snake case -/

theorem mem_splitHumps {c : Char} (l : List Char) (h : c ∈ splitHumps l) : c ∈ l ∨ c = '_' := by
  fun_induction splitHumps l with
  | case1 a b rest hhump ih => grind
  | case2 a b rest hhump ih => grind
  | case3 rest => exact Or.inl h

theorem mem_splitAcronyms {c : Char} (l : List Char) (h : c ∈ splitAcronyms l) :
    c ∈ l ∨ c = '_' := by
  fun_induction splitAcronyms l with
  | case1 a b d rest hacronym ih => grind
  | case2 a b d rest hacronym ih => grind
  | case3 rest => exact Or.inl h

/-- A word without lower-case letters. -/
structure Screaming (s : String) : Prop where
  word : Word s
  noLower : ∀ c ∈ s.toList, c.isLower = false

theorem Screaming.append {s t : String} (hs : Screaming s) (ht : Screaming t) :
    Screaming (s ++ t) := by
  refine ⟨hs.word.append ht.word, fun c hc => ?_⟩
  rw [String.toList_append, List.mem_append] at hc
  exact hc.elim (hs.noLower c) (ht.noLower c)

theorem screaming_screamingSnake {name : String} (h : isIdentifier name = true) :
    Screaming (screamingSnake name) := by
  have hchars : ∀ c ∈ (screamingSnake name).toList, isWord c = true ∧ c.isLower = false := by
    intro c hc
    rw [screamingSnake, String.toList_ofList, Text.upperChars, List.mem_flatMap] at hc
    obtain ⟨d, hd, hc⟩ := hc
    have hword : isWord d = true := by
      rcases mem_splitAcronyms _ hd with hd | rfl
      · rcases mem_splitHumps _ hd with hd | rfl
        · exact word_of_isIdentifier h d hd
        · rfl
      · rfl
    rw [Text.upperChar_of_ascii d (toNat_lt_of_isWord hword), List.mem_singleton] at hc
    subst hc
    exact isWord_toUpper hword
  exact ⟨fun c hc => (hchars c hc).1, fun c hc => (hchars c hc).2⟩

/-! ## Constants -/

/-- The table of an enum from numbers to names. -/
def numberTable (name : String) : String :=
  screamingSnake name ++ "_MAP"

/-- The table of an enum from names to members. -/
def nameTable (name : String) : String :=
  "STRING_TO_" ++ screamingSnake name

theorem word_schema {name : String} (h : isIdentifier name = true) : Word (schema name) :=
  (word_of_isIdentifier h).append (by simp [Word, isWord])

theorem screaming_numberTable {name : String} (h : isIdentifier name = true) :
    Screaming (numberTable name) :=
  (screaming_screamingSnake h).append ⟨by simp [Word, isWord], by simp⟩

theorem screaming_nameTable {name : String} (h : isIdentifier name = true) :
    Screaming (nameTable name) :=
  .append ⟨by simp [Word, isWord], by simp⟩ (screaming_screamingSnake h)

theorem numberTable_inj {a b : String} :
    numberTable a = numberTable b ↔ screamingSnake a = screamingSnake b :=
  String.append_left_inj _

theorem nameTable_inj {a b : String} :
    nameTable a = nameTable b ↔ screamingSnake a = screamingSnake b :=
  String.append_right_inj _

theorem schema_inj {a b : String} : schema a = schema b ↔ a = b :=
  String.append_left_inj _

/-- A schema constant is never in screaming snake case. -/
theorem schema_ne_of_screaming {s : String} (h : Screaming s) (name : String) :
    schema name ≠ s := by
  rintro rfl
  have hlast : 'a' ∈ (schema name).toList := by simp [schema]
  have hlower := h.noLower 'a' hlast
  revert hlower
  decide

end Name

end ProtoSchema
