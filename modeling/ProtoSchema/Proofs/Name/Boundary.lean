import ProtoSchema.Proofs.Name

set_option autoImplicit false

/-! # Word boundaries in screaming snake case

Screaming snake case is written in two passes, and the second one goes over what the first has
written. Here the underscores are placed by position instead: `separate` decides for each character
of the name by its neighbours in the name as it is given. The passes do the same
(`splitAcronyms_splitHumps`), because a character behind an underscore of the first pass starts no
match that the second one would lose, and the last character of a match never starts the next. -/

namespace ProtoSchema.Name

/-! ## Boundaries by position -/

/-- Whether a word starts at a position behind the first one: at a capital behind a lower-case
    letter, or at the last capital of a run, if a lower-case letter follows. -/
def startsWord (s : List Char) (i : Nat) : Bool :=
  0 < i && s[i]?.any Char.isUpper &&
    (s[i - 1]?.any Char.isLower || (s[i - 1]?.any Char.isUpper && s[i + 1]?.any Char.isLower))

/-- Put an underscore in front of every character at which a word starts. -/
def separate (s : List Char) : List Char :=
  (s.mapIdx fun i c => if startsWord s i then ['_', c] else [c]).flatten

/-- The same, with the character in front of the text given. -/
def separateAfter : Char → List Char → List Char
  | _, [] => []
  | a, b :: rest =>
    if b.isUpper && (a.isLower || (a.isUpper && rest.head?.any Char.isLower)) then
      '_' :: b :: separateAfter b rest
    else b :: separateAfter b rest

theorem startsWord_append (front : List Char) (a b : Char) (rest : List Char) :
    startsWord (front ++ a :: b :: rest) (front.length + 1) =
      (b.isUpper && (a.isLower || (a.isUpper && rest.head?.any Char.isLower))) := by
  have hthis : (front ++ a :: b :: rest)[front.length + 1]? = some b := by
    simp
  have hnext : (front ++ a :: b :: rest)[front.length + 1 + 1]? = rest.head? := by
    rw [List.getElem?_append_right (by omega)]
    simp [List.head?_eq_getElem?, show front.length + 1 + 1 - front.length = 2 by omega]
  rw [startsWord, hthis, hnext]
  simp

theorem separate_append (front : List Char) (a : Char) (rest : List Char) :
    (rest.mapIdx fun j c => if startsWord (front ++ a :: rest) (front.length + 1 + j)
      then ['_', c] else [c]).flatten = separateAfter a rest := by
  induction rest generalizing front a with
  | nil => rfl
  | cons b rest ih =>
    have htail := ih (front ++ [a]) b
    rw [List.append_assoc, List.singleton_append, List.length_append, List.length_singleton]
      at htail
    rw [List.mapIdx_cons, List.flatten_cons, separateAfter, Nat.add_zero, startsWord_append]
    simp only [Nat.add_assoc, Nat.add_comm 1] at htail ⊢
    rw [htail]
    split <;> rfl

theorem separate_cons (a : Char) (rest : List Char) :
    separate (a :: rest) = a :: separateAfter a rest := by
  have htail := separate_append [] a rest
  rw [List.nil_append, List.length_nil, Nat.zero_add] at htail
  rw [separate, List.mapIdx_cons, List.flatten_cons]
  simp only [Nat.add_comm 1] at htail
  rw [htail]
  rfl

/-! ## The two passes -/

theorem isLower_eq_false_of_isUpper {c : Char} (h : c.isUpper = true) : c.isLower = false := by
  rw [← Bool.not_eq_true]
  intro hlower
  have hle : c.toNat ≤ 90 := (isUpper_iff.1 h).2
  have hge : 97 ≤ c.toNat := (isLower_iff.1 hlower).1
  omega

theorem isUpper_eq_false_of_isLower {c : Char} (h : c.isLower = true) : c.isUpper = false := by
  cases hupper : c.isUpper with
  | false => rfl
  | true =>
    rw [isLower_eq_false_of_isUpper hupper] at h
    cases h

/-- The first pass at one place: the capital of a hump starts no hump itself. -/
theorem splitHumps_cons_cons (a b : Char) (rest : List Char) :
    splitHumps (a :: b :: rest) =
      if a.isLower && b.isUpper then a :: '_' :: splitHumps (b :: rest)
      else a :: splitHumps (b :: rest) := by
  rw [splitHumps]
  split
  · next h =>
    rw [Bool.and_eq_true] at h
    have hb := isLower_eq_false_of_isUpper h.2
    cases rest with
    | nil => rfl
    | cons c rest => simp [splitHumps, hb]
  · rfl

theorem head?_splitHumps (s : List Char) : (splitHumps s).head? = s.head? := by
  cases s with
  | nil => rfl
  | cons a rest =>
    cases rest with
    | nil => rfl
    | cons b rest =>
      rw [splitHumps_cons_cons]
      split <;> rfl

/-- Whether a text starts with a capital that a lower-case letter follows. -/
def capitalized : List Char → Bool
  | b :: rest => b.isUpper && rest.head?.any Char.isLower
  | [] => false

/-- The second pass at one place: the two characters behind an acronym start no acronym with what
    follows, the first because a lower-case letter is next, the second because it is one. -/
theorem splitAcronyms_cons (a : Char) (s : List Char) :
    splitAcronyms (a :: s) =
      if a.isUpper && capitalized s then a :: '_' :: splitAcronyms s
      else a :: splitAcronyms s := by
  match s with
  | [] => simp [splitAcronyms, capitalized]
  | [b] => simp [splitAcronyms, capitalized]
  | b :: c :: rest =>
    have hcond : (a.isUpper && b.isUpper && c.isLower) =
        (a.isUpper && capitalized (b :: c :: rest)) := by
      simp [capitalized, Bool.and_assoc]
    rw [splitAcronyms, hcond]
    split
    · next h =>
      simp only [capitalized, List.head?_cons, Option.any_some, Bool.and_eq_true] at h
      have hc := isUpper_eq_false_of_isLower h.2.2
      match rest with
      | [] => rfl
      | [d] => simp [splitAcronyms, hc]
      | d :: e :: rest => simp [splitAcronyms, hc]
    · rfl

theorem capitalized_splitHumps (s : List Char) : capitalized (splitHumps s) = capitalized s := by
  match s with
  | [] => rfl
  | [b] => rfl
  | b :: c :: rest =>
    rw [splitHumps_cons_cons]
    split
    · next h =>
      -- a hump starts with a lower-case letter
      rw [Bool.and_eq_true] at h
      have hb := isUpper_eq_false_of_isLower h.1
      simp [capitalized, hb]
    · simp [capitalized, head?_splitHumps]

theorem splitAcronyms_splitHumps_cons (a : Char) (s : List Char) :
    splitAcronyms (splitHumps (a :: s)) = a :: separateAfter a s := by
  induction s generalizing a with
  | nil => rfl
  | cons b rest ih =>
    have hunderscore : splitAcronyms ('_' :: splitHumps (b :: rest)) =
        '_' :: splitAcronyms (splitHumps (b :: rest)) := by
      rw [splitAcronyms_cons]
      rfl
    rw [splitHumps_cons_cons, separateAfter]
    by_cases hhump : (a.isLower && b.isUpper) = true
    · rw [Bool.and_eq_true] at hhump
      have ha := isUpper_eq_false_of_isLower hhump.1
      rw [if_pos (by simp [hhump]), splitAcronyms_cons, hunderscore, ih]
      simp [ha, hhump]
    · have hboundary : (b.isUpper && (a.isLower || (a.isUpper && rest.head?.any Char.isLower))) =
          (a.isUpper && capitalized (b :: rest)) := by
        simp only [capitalized]
        cases ha : a.isLower <;> cases hb : b.isUpper <;> simp_all
      rw [if_neg hhump, splitAcronyms_cons, capitalized_splitHumps, ih, hboundary]
      split <;> rfl

/-- Both passes together put the underscores where they belong by position. -/
theorem splitAcronyms_splitHumps (s : List Char) :
    splitAcronyms (splitHumps s) = separate s := by
  cases s with
  | nil => rfl
  | cons a rest => rw [splitAcronyms_splitHumps_cons, separate_cons]

/-! ## Names that are in screaming snake case already -/

theorem splitHumps_of_noLower {s : List Char} (h : ∀ c ∈ s, c.isLower = false) :
    splitHumps s = s := by
  fun_induction splitHumps s with
  | case1 a b rest hhump ih => simp [h a] at hhump
  | case2 a b rest hhump ih => rw [ih fun c hc => h c (List.mem_cons_of_mem _ hc)]
  | case3 rest => rfl

theorem splitAcronyms_of_noLower {s : List Char} (h : ∀ c ∈ s, c.isLower = false) :
    splitAcronyms s = s := by
  fun_induction splitAcronyms s with
  | case1 a b c rest hacronym ih => simp [h c] at hacronym
  | case2 a b c rest hacronym ih => rw [ih fun d hd => h d (List.mem_cons_of_mem _ hd)]
  | case3 rest => rfl

/-- A text of ASCII characters. -/
def Ascii (s : List Char) : Prop :=
  ∀ c ∈ s, c.toNat < 128

/-- There are few ASCII characters, so they can be checked one by one. -/
theorem toUpper_of_ascii {c : Char} (h : c.toNat < 128) :
    c.toUpper.toNat < 128 ∧ c.toUpper.isLower = false ∧ c.toUpper.toUpper = c.toUpper := by
  have hall : ∀ n < 128, (Char.ofNat n).toUpper.toNat < 128 ∧
      (Char.ofNat n).toUpper.isLower = false ∧
      (Char.ofNat n).toUpper.toUpper = (Char.ofNat n).toUpper := by decide
  have hc := hall c.toNat h
  rwa [Char.ofNat_toNat] at hc

theorem upperChars_of_ascii {s : List Char} (h : Ascii s) :
    Text.upperChars s = s.map Char.toUpper := by
  induction s with
  | nil => rfl
  | cons c s ih =>
    have htail := ih fun d hd => h d (List.mem_cons_of_mem _ hd)
    rw [Text.upperChars] at htail
    rw [Text.upperChars, List.flatMap_cons, htail,
      Text.upperChar_of_ascii c (h c List.mem_cons_self)]
    rfl

theorem Ascii.separate {s : List Char} (h : Ascii s) : Ascii (separate s) := by
  intro c hc
  rw [← splitAcronyms_splitHumps] at hc
  rcases mem_splitAcronyms _ hc with hc | rfl
  · rcases mem_splitHumps _ hc with hc | rfl
    · exact h c hc
    · decide
  · decide

/-- **Underscores stand exactly at the word boundaries.** The screaming snake case of a name is the
    upper case of the name with an underscore in front of each character at which a word starts, as
    the name itself has it; and a name of ASCII characters in screaming snake case stays as it
    is. -/
theorem screamingSnake_separates (name : String) :
    screamingSnake name = String.ofList (Text.upperChars (separate name.toList)) ∧
      (Ascii name.toList → screamingSnake (screamingSnake name) = screamingSnake name) := by
  have hpasses : ∀ s : String,
      screamingSnake s = String.ofList (Text.upperChars (separate s.toList)) := by
    intro s
    rw [screamingSnake, splitAcronyms_splitHumps]
  refine ⟨hpasses name, fun hascii => ?_⟩
  have hupper : (screamingSnake name).toList = (separate name.toList).map Char.toUpper := by
    rw [hpasses, String.toList_ofList, upperChars_of_ascii hascii.separate]
  have hchars : ∀ c ∈ (screamingSnake name).toList,
      c.toNat < 128 ∧ c.isLower = false ∧ c.toUpper = c := by
    intro c hc
    rw [hupper] at hc
    obtain ⟨d, hd, rfl⟩ := List.mem_map.1 hc
    exact toUpper_of_ascii (hascii.separate d hd)
  have hkept : (screamingSnake name).toList.map Char.toUpper = (screamingSnake name).toList := by
    rw [List.map_congr_left fun c hc => (hchars c hc).2.2, List.map_id']
  apply String.toList_injective
  conv_lhs => rw [screamingSnake]
  rw [String.toList_ofList, splitHumps_of_noLower fun c hc => (hchars c hc).2.1,
    splitAcronyms_of_noLower fun c hc => (hchars c hc).2.1,
    upperChars_of_ascii fun c hc => (hchars c hc).1, hkept]

/-- Boundaries of both kinds side by side, next to digits and underscores. -/
theorem screamingSnake_separates_mixed :
    Ascii "aBCdHTTPServer2Go_MapXYz".toList ∧
      screamingSnake "aBCdHTTPServer2Go_MapXYz" = "A_B_CD_HTTP_SERVER2GO_MAP_X_YZ" ∧
      screamingSnake "A_B_CD_HTTP_SERVER2GO_MAP_X_YZ" = "A_B_CD_HTTP_SERVER2GO_MAP_X_YZ" := by
  have hascii : Ascii "aBCdHTTPServer2Go_MapXYz".toList := by simp [Ascii]
  obtain ⟨hwritten, hkept⟩ := screamingSnake_separates "aBCdHTTPServer2Go_MapXYz"
  have hname : screamingSnake "aBCdHTTPServer2Go_MapXYz" = "A_B_CD_HTTP_SERVER2GO_MAP_X_YZ" := by
    rw [hwritten]
    rfl
  have hagain := hkept hascii
  rw [hname] at hagain
  exact ⟨hascii, hname, hagain⟩

end ProtoSchema.Name
