import ProtoSchema.Proofs.Module.Confinement

set_option autoImplicit false

/-! # How expressions end

An expression ends in `.optional()` only if its property may be absent
(`Expression.endsWith_text`), so the mark can be read off the text. Every other end comes from a
type or from a check, and what a rule says never stands at the very end: texts are behind a quote,
and numbers in front of a closing parenthesis. -/

namespace ProtoSchema

/-! ## Ends of texts -/

/-- The end of the expression of a property that may be absent. -/
def optionalMark : String := ".optional()"

/-- A text that does not end like the expression of a property that may be absent, whatever stands
    in front of it. -/
def Unmarked (s : String) : Prop :=
  ∀ front : String, Text.endsWith optionalMark (front ++ s) = false

theorem Unmarked.append {s : String} (h : Unmarked s) (front : String) : Unmarked (front ++ s) := by
  intro before
  rw [← String.append_assoc]
  exact h _

/-- Of two ends of a text one is an end of the other. -/
theorem unmarked_of_not_suffix {s : String} (hs : ¬ s.toList <:+ optionalMark.toList)
    (hmark : ¬ optionalMark.toList <:+ s.toList) : Unmarked s := by
  intro front
  rw [Text.endsWith, Option.isSome_eq_false_iff, Option.isNone_iff_eq_none,
    Option.eq_none_iff_forall_ne_some]
  intro before hbefore
  have hsame := congrArg String.toList ((Text.before?_eq_some_iff _ _ _).1 hbefore)
  rw [String.toList_append, String.toList_append] at hsame
  have hleft : s.toList <:+ front.toList ++ s.toList := List.suffix_append _ _
  have hright : optionalMark.toList <:+ front.toList ++ s.toList := hsame ▸ List.suffix_append _ _
  exact (List.suffix_or_suffix_of_suffix hleft hright).elim hs hmark

/-- The parenthesis of the mark closes right behind the opening one. -/
theorem unmarked_applied {opening argument : String} (hopening : Unmarked (opening ++ ")"))
    (hargument : argument.toList.getLast? ≠ some '(') : Unmarked (opening ++ argument ++ ")") := by
  cases hlast : argument.toList.getLast? with
  | none =>
    obtain rfl : argument = "" := by simpa using hlast
    simpa using hopening
  | some c =>
    obtain ⟨front, hfront⟩ := List.getLast?_eq_some_iff.1 hlast
    have hends : opening ++ argument ++ ")" =
        opening ++ String.ofList front ++ String.ofList [c, ')'] := by
      apply String.toList_injective
      simp [hfront]
    have hc : c ≠ '(' := by
      rintro rfl
      exact hargument hlast
    rw [hends]
    refine .append (unmarked_of_not_suffix ?_ ?_) _
    · rw [String.toList_ofList, ← List.reverse_prefix]
      simp [optionalMark, List.cons_prefix_cons, hc]
    · intro hmark
      have hlength := hmark.length_le
      simp [optionalMark] at hlength

theorem getLast?_append {s : String} {c : Char} (h : s.toList.getLast? = some c) (front : String) :
    (front ++ s).toList.getLast? = some c := by
  simp [h]

theorem Text.PlainText.getLast?_ne {s : String} (h : PlainText s) :
    s.toList.getLast? ≠ some '(' := by
  intro hlast
  exact absurd (h '(' (List.mem_of_getLast? hlast)) (by decide)

/-! ## Checks -/

namespace Check

theorem getLast?_text (check : Check) : check.text.toList.getLast? = some ')' := by
  cases check with
  | truth value => cases value <;> exact getLast?_append (s := "\" \x7d)") rfl _
  | format f => cases f <;> rfl
  | finite | nonzero => rfl
  | bound | minSize | maxSize | exactSize | startsWith | endsWith | includes | pattern =>
    exact getLast?_append (s := ")") rfl _
  | _ => exact getLast?_append (s := "\" \x7d)") rfl _

theorem unmarked_call {method argument : String} (hmethod : Unmarked (method ++ "()"))
    (hargument : argument.toList.getLast? ≠ some '(') : Unmarked (call method argument) := by
  have hempty : "." ++ method ++ "(" ++ ")" = "." ++ (method ++ "()") := by
    apply String.toList_injective
    simp
  have hopening : Unmarked ("." ++ method ++ "(" ++ ")") := by
    rw [hempty]
    exact hmethod.append _
  exact unmarked_applied hopening hargument

theorem unmarked_refine (binder predicate message : String) :
    Unmarked (refine binder predicate message) :=
  .append (s := "\" \x7d)") (unmarked_of_not_suffix (by decide) (by decide)) _

theorem unmarked_text (check : Check) : Unmarked check.text := by
  have hfixed : ∀ {s : String}, ¬ s.toList <:+ optionalMark.toList →
      ¬ optionalMark.toList <:+ s.toList → Unmarked s := unmarked_of_not_suffix
  have hliteral : ∀ s : String, (Text.literal s).toList.getLast? ≠ some '(' := by
    intro s
    rw [Text.literal, getLast?_append (s := "\"") rfl]
    decide
  cases check with
  | bound c n =>
    refine unmarked_call ?_ n.plain_text.getLast?_ne
    cases c <;> exact hfixed (by decide) (by decide)
  | finite => exact hfixed (by decide) (by decide)
  | minSize n | maxSize n | exactSize n =>
    exact unmarked_call (hfixed (by decide) (by decide)) (Decimal.plain_natText n).getLast?_ne
  | startsWith s | endsWith s | includes s =>
    exact unmarked_call (hfixed (by decide) (by decide)) (hliteral s)
  | format f => cases f <;> exact hfixed (by decide) (by decide)
  | pattern source =>
    refine unmarked_call (hfixed (by decide) (by decide)) ?_
    rw [getLast?_append (s := "\")") rfl]
    decide
  | nonzero => exact hfixed (by decide) (by decide)
  | truth value => cases value <;> exact unmarked_refine _ _ _
  | _ => exact unmarked_refine _ _ _

/-- Either there are no calls, or the last one is that of a check. -/
theorem textAll_eq_or (checks : List Check) :
    textAll checks = "" ∨ ∃ front check, textAll checks = front ++ text check := by
  rcases List.eq_nil_or_concat checks with rfl | ⟨front, check, rfl⟩
  · exact .inl rfl
  · refine .inr ⟨textAll front, check, ?_⟩
    apply String.toList_injective
    simp [textAll, String.toList_join]

end Check

/-! ## Types and expressions -/

namespace SchemaType

theorem getLast?_schema_ne (t : SchemaType) : t.schema.toList.getLast? ≠ some '(' := by
  have hparen : ∀ front : String, (front ++ ")").toList.getLast? ≠ some '(' := by simp
  have hname : ∀ name : String, (Name.schema name).toList.getLast? ≠ some '(' := by
    simp [Name.schema]
  cases t with
  | unknown => decide
  | scalar type => cases type <;> decide
  | wellKnown message => cases message <;> decide
  | enum name => exact hparen _
  | own name => exact hname _
  | deferred name => exact hparen _
  | foreign name => exact hname _
  | array item => exact hparen _
  | record key value => exact hparen _

/-- The schema of a type is not marked if the name in it does not end in a parenthesis. -/
theorem unmarked_schema (t : SchemaType)
    (h : ∀ name, t.name? = some name → Text.PlainText name.shown) : Unmarked t.schema := by
  have hfixed : ∀ {s : String}, ¬ s.toList <:+ optionalMark.toList →
      ¬ optionalMark.toList <:+ s.toList → Unmarked s := unmarked_of_not_suffix
  have hname : ∀ name : String, Unmarked (Name.schema name) := by
    intro name
    exact .append (hfixed (by decide) (by decide)) name
  cases t with
  | unknown => exact hfixed (by decide) (by decide)
  | scalar type => cases type <;> exact hfixed (by decide) (by decide)
  | wellKnown message => cases message <;> exact hfixed (by decide) (by decide)
  | enum name =>
    exact unmarked_applied (hfixed (by decide) (by decide)) (h name rfl).getLast?_ne
  | own name => exact hname _
  | deferred name =>
    exact unmarked_applied (hfixed (by decide) (by decide)) (getLast?_schema_ne (.own name))
  | foreign name => exact hname _
  | array item => exact unmarked_applied (hfixed (by decide) (by decide)) item.getLast?_schema_ne
  | record key value =>
    refine unmarked_applied ?_ value.getLast?_schema_ne
    rw [String.append_assoc]
    exact .append (hfixed (by decide) (by decide)) _

end SchemaType

namespace Expression

theorem unmarked_base {type : SchemaType} (itemChecks : List Check)
    (h : ∀ name, type.name? = some name → Text.PlainText name.shown) :
    Unmarked (base type itemChecks) := by
  cases type with
  | array item =>
    have hargument : (item.schema ++ Check.textAll itemChecks).toList.getLast? ≠ some '(' := by
      rcases Check.textAll_eq_or itemChecks with hnone | ⟨front, check, hsome⟩
      · simpa [hnone] using item.getLast?_schema_ne
      · rw [hsome, ← String.append_assoc, getLast?_append check.getLast?_text]
        decide
    have hunmarked : Unmarked ("z.array(" ++ (item.schema ++ Check.textAll itemChecks) ++ ")") :=
      unmarked_applied (unmarked_of_not_suffix (by decide) (by decide)) hargument
    rwa [← String.append_assoc] at hunmarked
  | _ => exact SchemaType.unmarked_schema _ h

/-- An expression ends in the mark only if it is marked. -/
theorem endsWith_text (e : Expression)
    (h : ∀ name, e.type.name? = some name → Text.PlainText name.shown) :
    Text.endsWith optionalMark e.text = e.optional := by
  unfold text
  cases e.optional with
  | true =>
    rw [Text.endsWith, Option.isSome_iff_exists]
    exact ⟨_, (Text.before?_eq_some_iff _ _ _).2 rfl⟩
  | false =>
    simp only [Bool.false_eq_true, if_false, String.append_empty]
    rcases Check.textAll_eq_or e.checks with hnone | ⟨front, check, hsome⟩
    · rw [hnone, String.append_empty]
      simpa using unmarked_base e.itemChecks h ""
    · rw [hsome, ← String.append_assoc]
      exact check.unmarked_text _

end Expression

end ProtoSchema
