import ProtoSchema.Text.Split

set_option autoImplicit false

/-! # Splitting and joining

Splitting at a separator and joining with it undo each other, as long as the separator occurs in
none of the joined pieces. Text without the separator that is put behind another text ends up in
the last piece (`split_append`). -/

namespace ProtoSchema.Text

/-! ## Characters -/

theorem splitChars_eq_splitOn (sep : Char) (s : List Char) : splitChars sep s = s.splitOn sep := by
  induction s with
  | nil => simp [splitChars]
  | cons c s ih =>
    rw [List.splitOn_cons_eq_if_modifyHead, splitChars, ih]
    by_cases h : c = sep
    · rw [if_pos h, if_pos (beq_iff_eq.2 h)]
    · rw [if_neg h, if_neg (mt beq_iff_eq.1 h)]
      cases hs : s.splitOn sep with
      | nil => exact absurd hs (List.splitOn_ne_nil sep s)
      | cons piece rest => rfl

theorem notMem_of_mem_splitChars {sep : Char} {s piece : List Char}
    (h : piece ∈ splitChars sep s) : sep ∉ piece := by
  induction s generalizing piece with
  | nil =>
    simp only [splitChars, List.mem_singleton] at h
    simp [h]
  | cons c s ih =>
    rw [splitChars] at h
    split at h
    · rcases List.mem_cons.1 h with rfl | h
      · simp
      · exact ih h
    · next hne =>
      cases hs : splitChars sep s with
      | nil => exact absurd hs (splitChars_ne_nil sep s)
      | cons first rest =>
        rw [hs] at h ih
        -- only the first piece grows, by a character other than the separator
        rcases List.mem_cons.1 h with rfl | h
        · have hfirst := ih List.mem_cons_self
          simp [Ne.symm hne, hfirst]
        · exact ih (List.mem_cons_of_mem _ h)

theorem splitChars_append {sep : Char} (s : List Char) {t : List Char} (ht : sep ∉ t) :
    ∃ front last, splitChars sep s = front ++ [last] ∧
      splitChars sep (s ++ t) = front ++ [last ++ t] := by
  induction s with
  | nil =>
    refine ⟨[], [], rfl, ?_⟩
    rw [List.nil_append, splitChars_eq_splitOn, List.splitOn_eq_singleton ht]
    rfl
  | cons c s ih =>
    obtain ⟨front, last, hs, hst⟩ := ih
    rw [List.cons_append, splitChars, splitChars, hs, hst]
    by_cases h : c = sep
    · exact ⟨[] :: front, last, by rw [if_pos h]; rfl, by rw [if_pos h]; rfl⟩
    · rw [if_neg h, if_neg h]
      cases front with
      | nil => exact ⟨[], c :: last, rfl, rfl⟩
      | cons first front => exact ⟨(c :: first) :: front, last, rfl, rfl⟩

/-! ## Texts -/

theorem split_ne_nil (sep : Char) (s : String) : split sep s ≠ [] := by
  simp [split, splitChars_ne_nil]

theorem notMem_of_mem_split {sep : Char} {s piece : String} (h : piece ∈ split sep s) :
    sep ∉ piece.toList := by
  obtain ⟨chars, hchars, rfl⟩ := List.mem_map.1 h
  rw [String.toList_ofList]
  exact notMem_of_mem_splitChars hchars

theorem intercalate_split (sep : Char) (s : String) :
    (String.singleton sep).intercalate (split sep s) = s := by
  apply String.toList_injective
  rw [String.toList_intercalate, split, List.map_map]
  have hid : String.toList ∘ String.ofList = id := by
    funext chars
    simp
  rw [hid, List.map_id, String.toList_singleton, intercalate_splitChars]

theorem split_intercalate {sep : Char} {parts : List String} (hne : parts ≠ [])
    (h : ∀ part ∈ parts, sep ∉ part.toList) :
    split sep ((String.singleton sep).intercalate parts) = parts := by
  have hchars : ∀ part ∈ parts.map String.toList, sep ∉ part := by
    intro part hpart
    obtain ⟨text, htext, rfl⟩ := List.mem_map.1 hpart
    exact h text htext
  rw [split, String.toList_intercalate, String.toList_singleton, splitChars_eq_splitOn,
    List.splitOn_intercalate sep hchars (by simpa using hne), List.map_map]
  have hid : String.ofList ∘ String.toList = id := by
    funext text
    simp
  rw [hid, List.map_id]

theorem intercalate_append (sep : String) {front back : List String} (hfront : front ≠ [])
    (hback : back ≠ []) :
    sep.intercalate (front ++ back) = sep.intercalate front ++ sep ++ sep.intercalate back := by
  induction front with
  | nil => exact absurd rfl hfront
  | cons part front ih =>
    rw [List.cons_append, String.intercalate_cons_of_ne_nil (by simp [hback])]
    cases front with
    | nil => simp
    | cons next front =>
      rw [ih (List.cons_ne_nil _ _), String.intercalate_cons_of_ne_nil (List.cons_ne_nil _ _)]
      simp only [String.append_assoc]

/-- A separator ends a piece. -/
theorem split_append_singleton (sep : Char) (s t : String) :
    split sep (s ++ String.singleton sep ++ t) = split sep s ++ split sep t := by
  have hjoin := intercalate_append (String.singleton sep) (split_ne_nil sep s) (split_ne_nil sep t)
  rw [intercalate_split, intercalate_split] at hjoin
  rw [← hjoin]
  refine split_intercalate (by simp [split_ne_nil]) fun part hpart => ?_
  rcases List.mem_append.1 hpart with hpart | hpart
  · exact notMem_of_mem_split hpart
  · exact notMem_of_mem_split hpart

/-- Text without the separator lengthens the last piece. -/
theorem split_append {sep : Char} (s : String) {t : String} (ht : sep ∉ t.toList) :
    split sep (s ++ t) = (split sep s).dropLast ++ [(split sep s).getLastD "" ++ t] := by
  obtain ⟨front, last, hs, hst⟩ := splitChars_append s.toList ht
  rw [split, split, String.toList_append, hs, hst]
  simp

end ProtoSchema.Text
