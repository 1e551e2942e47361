import Mathlib.Data.List.Nodup
import ProtoSchema.Proofs.Text.Literal

set_option autoImplicit false

/-! # Telling written values apart

A value that is written into code can be read back if one can tell where it ends. `Separated` says
so of a way to write values in front of a comma or a closing bracket. Values are separated if they
are written without these two characters, as numbers are (`separated_of_class`), or as string
literals (`separated_literal`), and then lists of them can be told apart as well
(`Separated.of_joined`). -/

namespace ProtoSchema.Text

/-- What may follow a value: a comma, or the bracket that closes a list. -/
def Stops (r : List Char) : Prop :=
  r.head? = some ',' ∨ r.head? = some ']'

/-- A way to write values that tells them apart wherever they stop. -/
def Separated {α : Type} (code : α → String) : Prop :=
  ∀ {a a' : α} {r r' : List Char}, Stops r → Stops r' →
    (code a).toList ++ r = (code a').toList ++ r' → a = a'

/-- Values are told apart if the characters they are written with do not stop them. -/
theorem separated_of_class {α : Type} {code : α → String} (p : Char → Bool)
    (hcomma : p ',' = false) (hbracket : p ']' = false)
    (hcode : ∀ a, ∀ c ∈ (code a).toList, p c = true) (hinj : ∀ {a a'}, code a = code a' → a = a') :
    Separated code := by
  have hread : ∀ a r, Stops r → ((code a).toList ++ r).takeWhile p = (code a).toList := by
    intro a r hstops
    rw [List.takeWhile_append_of_pos (hcode a)]
    cases r with
    | nil => simp [Stops] at hstops
    | cons c r =>
      have hc : p c = false := by
        rcases hstops with h | h <;> simp at h <;> simp [h, hcomma, hbracket]
      rw [List.takeWhile_cons_of_neg (by simp [hc]), List.append_nil]
  intro a a' r r' hr hr' heq
  have htaken := congrArg (List.takeWhile p) heq
  rw [hread a r hr, hread a' r' hr'] at htaken
  exact hinj (String.toList_injective htaken)

/-! ## String literals -/

section Escapes

variable {table : EscapeTable} (hconfining : Confining table)
  (hcodes : (table.map Prod.snd).Nodup)

include hconfining hcodes

/-- An escaped character is a backslash with a code of its own, or no special character at all. -/
theorem escapeChar_append_inj {c c' : Char} {r r' : List Char}
    (h : escapeChar table c ++ r = escapeChar table c' ++ r') : c = c' ∧ r = r' := by
  have hplain : ∀ d, table.lookup d = none → d ≠ '\\' := by
    rintro d hd rfl
    have hsome := hconfining.complete '\\' (by decide)
    rw [hd] at hsome
    cases hsome
  unfold escapeChar at h
  cases hc : table.lookup c with
  | none =>
    cases hc' : table.lookup c' with
    | none => simpa [hc, hc'] using h
    | some code =>
      simp only [hc, hc', List.cons_append, List.cons.injEq] at h
      exact absurd h.1 (hplain c hc)
  | some code =>
    cases hc' : table.lookup c' with
    | none =>
      simp only [hc, hc', List.cons_append, List.cons.injEq] at h
      exact absurd h.1.symm (hplain c' hc')
    | some code' =>
      simp only [hc, hc', List.cons_append, List.nil_append, List.cons.injEq, true_and] at h
      have hmem : ∀ {d : Char} {e : Char}, table.lookup d = some e → (d, e) ∈ table := by
        intro d e hlookup
        obtain ⟨front, back, htable, _⟩ := List.lookup_eq_some_iff.1 hlookup
        rw [htable]
        simp
      have hsame := List.inj_on_of_nodup_map hcodes (hmem hc) (hmem hc') h.1
      exact ⟨(Prod.mk.inj hsame).1, h.2⟩

/-- A quote ends an escaped text, because the quotes in the text are escaped. -/
theorem escapeChars_append_inj {s s' r r' : List Char}
    (h : escapeChars table s ++ '"' :: r = escapeChars table s' ++ '"' :: r') : s = s' := by
  have hquote : ∀ (c : Char) (t u : List Char), '"' :: t ≠ escapeChar table c ++ u := by
    intro c t u heq
    unfold escapeChar at heq
    cases hc : table.lookup c with
    | none =>
      simp only [hc, List.cons_append, List.cons.injEq] at heq
      have hsome := hconfining.complete '"' (by decide)
      rw [heq.1, hc] at hsome
      cases hsome
    | some code =>
      simp only [hc, List.cons_append, List.cons.injEq] at heq
      exact absurd heq.1 (by decide)
  rw [escapeChars_eq_flatMap hconfining.independent,
    escapeChars_eq_flatMap hconfining.independent] at h
  induction s generalizing s' with
  | nil =>
    cases s' with
    | nil => rfl
    | cons c s' =>
      rw [List.flatMap_cons, List.append_assoc] at h
      exact absurd h (hquote c _ _)
  | cons c s ih =>
    cases s' with
    | nil =>
      rw [List.flatMap_cons, List.append_assoc] at h
      exact absurd h.symm (hquote c _ _)
    | cons c' s' =>
      rw [List.flatMap_cons, List.flatMap_cons, List.append_assoc, List.append_assoc] at h
      obtain ⟨rfl, hrest⟩ := escapeChar_append_inj hconfining hcodes h
      rw [ih hrest]

end Escapes

theorem literal_append_inj {s s' : String} {r r' : List Char}
    (h : (literal s).toList ++ r = (literal s').toList ++ r') : s = s' := by
  have hchars : ∀ (t : String) (u : List Char),
      (literal t).toList ++ u = '"' :: (escapeChars literalEscapes t.toList ++ '"' :: u) := by
    intro t u
    simp [literal, escapeLiteral]
  rw [hchars, hchars, List.cons.injEq] at h
  exact String.toList_injective
    (escapeChars_append_inj literalEscapes_confining (by decide) h.2)

theorem separated_literal : Separated literal :=
  fun _ _ => literal_append_inj

/-! ## Lists -/

/-- Lists of separated values that are joined by commas and closed by a bracket can be told
    apart. -/
theorem Separated.of_joined {α : Type} {code : α → String} (hcode : Separated code)
    {as as' : List α} {r r' : List Char} (hne : as ≠ []) (hne' : as' ≠ [])
    (h : (", ".intercalate (as.map code)).toList ++ ']' :: r =
      (", ".intercalate (as'.map code)).toList ++ ']' :: r') : as = as' := by
  have hone : ∀ (a : α) (u : List Char), (", ".intercalate [code a]).toList ++ ']' :: u =
      (code a).toList ++ ']' :: u := by
    intro a u
    simp
  have hmore : ∀ (a b : α) (bs : List α) (u : List Char),
      (", ".intercalate ((a :: b :: bs).map code)).toList ++ ']' :: u =
        (code a).toList ++ ',' :: ' ' ::
          ((", ".intercalate ((b :: bs).map code)).toList ++ ']' :: u) := by
    intro a b bs u
    rw [List.map_cons, List.map_cons, intercalate_cons_cons]
    simp
  induction as generalizing as' with
  | nil => exact absurd rfl hne
  | cons a as ih =>
    cases as' with
    | nil => exact absurd rfl hne'
    | cons a' as' =>
      -- the first value ends with a comma or with the closing bracket
      cases as with
      | nil =>
        cases as' with
        | nil =>
          rw [List.map_singleton, List.map_singleton, hone, hone] at h
          rw [hcode (.inr rfl) (.inr rfl) h]
        | cons b bs =>
          rw [List.map_singleton, hone, hmore] at h
          obtain rfl := hcode (.inr rfl) (.inl rfl) h
          simp at h
      | cons b bs =>
        cases as' with
        | nil =>
          rw [List.map_singleton, hone, hmore] at h
          obtain rfl := hcode (.inl rfl) (.inr rfl) h
          simp at h
        | cons b' bs' =>
          rw [hmore, hmore] at h
          obtain rfl := hcode (.inl rfl) (.inl rfl) h
          rw [List.append_cancel_left_eq, List.cons.injEq, List.cons.injEq] at h
          rw [ih (List.cons_ne_nil _ _) (List.cons_ne_nil _ _) h.2.2]

end ProtoSchema.Text
