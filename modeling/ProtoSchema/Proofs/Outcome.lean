import Mathlib.Data.List.Forall2
import Mathlib.Data.List.Nodup

set_option autoImplicit false

/-! # Outcomes

How the outcome of a composed computation follows from the outcomes of its parts, and which members
of a list a computation over the list gets to (`Reaches`). -/

namespace ProtoSchema

/-! ## Lists -/

theorem find?_eq_some_of_unique {α : Type} {l : List α} {p : α → Bool} {a : α} (ha : a ∈ l)
    (hp : p a = true) (hunique : ∀ b ∈ l, p b = true → b = a) : l.find? p = some a := by
  obtain ⟨b, hb⟩ := Option.isSome_iff_exists.1 (List.find?_isSome.2 ⟨a, ha, hp⟩)
  rw [hb, hunique b (List.mem_of_find?_eq_some hb) (List.find?_some hb)]

/-- Where keys are distinct, the entry of a key is found from the end as well. -/
theorem find?_reverse_of_nodup {α β : Type} {key : α → β} {l : List α} {p : α → Bool} {a : α}
    (hnodup : (l.map key).Nodup) (ha : a ∈ l) (hp : p a = true)
    (hkey : ∀ b, p b = true → key b = key a) : l.reverse.find? p = some a :=
  find?_eq_some_of_unique (List.mem_reverse.2 ha) hp fun b hb hpb =>
    List.inj_on_of_nodup_map hnodup (List.mem_reverse.1 hb) ha (hkey b hpb)

theorem forall₂_getElem? {α β : Type} {R : α → β → Prop} {l : List α} {l' : List β}
    (h : List.Forall₂ R l l') {i : Nat} {a : α} {b : β} (ha : l[i]? = some a)
    (hb : l'[i]? = some b) : R a b := by
  obtain ⟨hi, rfl⟩ := List.getElem?_eq_some_iff.1 ha
  obtain ⟨hi', rfl⟩ := List.getElem?_eq_some_iff.1 hb
  exact h.get hi hi'

theorem exists_of_mem_forall₂ {α β : Type} {R : α → β → Prop} {l : List α} {l' : List β}
    (h : List.Forall₂ R l l') {a : α} (ha : a ∈ l) : ∃ b ∈ l', R a b := by
  induction h with
  | nil => simp at ha
  | cons hab _ ih =>
    rcases List.mem_cons.1 ha with rfl | ha
    · exact ⟨_, List.mem_cons_self, hab⟩
    · obtain ⟨b, hb, hr⟩ := ih ha
      exact ⟨b, List.mem_cons_of_mem _ hb, hr⟩

theorem map_eq_map_of_forall₂ {α β γ : Type} {R : α → β → Prop} {l : List α} {l' : List β}
    {f : α → γ} {g : β → γ} (h : List.Forall₂ R l l') (hfg : ∀ a b, R a b → g b = f a) :
    l'.map g = l.map f := by
  induction h with
  | nil => rfl
  | cons hab _ ih => rw [List.map_cons, List.map_cons, hfg _ _ hab, ih]

theorem forall₂_of_map_eq {α β : Type} {R : α → α → Prop} {view : α → β} {l l' : List α}
    (h : l.map view = l'.map view) (hR : ∀ a ∈ l, ∀ b ∈ l', view a = view b → R a b) :
    List.Forall₂ R l l' := by
  induction l generalizing l' with
  | nil =>
    obtain rfl : l' = [] := List.map_eq_nil_iff.1 h.symm
    exact .nil
  | cons a l ih =>
    obtain ⟨b, rest, rfl, hview, hrest⟩ := List.map_eq_cons_iff.1 h.symm
    refine .cons (hR a List.mem_cons_self b List.mem_cons_self hview.symm) (ih hrest.symm ?_)
    exact fun x hx y hy => hR x (List.mem_cons_of_mem _ hx) y (List.mem_cons_of_mem _ hy)

/-! ## Answers -/

section Answers

variable {ε α β : Type}

theorem bind_eq_ok_iff {x : Except ε α} {f : α → Except ε β} {b : β} :
    (x >>= f) = .ok b ↔ ∃ a, x = .ok a ∧ f a = .ok b := by
  cases x with
  | error e => simp [bind, Except.bind]
  | ok a => simp [bind, Except.bind]

theorem bind_eq_error_iff {x : Except ε α} {f : α → Except ε β} {e : ε} :
    (x >>= f) = .error e ↔ x = .error e ∨ ∃ a, x = .ok a ∧ f a = .error e := by
  cases x with
  | error e => simp [bind, Except.bind]
  | ok a => simp [bind, Except.bind]

/-- A list of runs succeeds if all of them do, with their answers in order. -/
theorem mapM_eq_ok_iff (f : α → Except ε β) (l : List α) (answers : List β) :
    l.mapM f = .ok answers ↔ List.Forall₂ (fun a b => f a = .ok b) l answers := by
  induction l generalizing answers with
  | nil =>
    rw [List.mapM_nil, List.forall₂_nil_left_iff]
    exact ⟨fun h => (Except.ok.inj h).symm, fun h => congrArg Except.ok h.symm⟩
  | cons a l ih =>
    rw [List.mapM_cons, bind_eq_ok_iff, List.forall₂_cons_left_iff]
    constructor
    · rintro ⟨b, hb, h⟩
      obtain ⟨bs, hbs, h⟩ := bind_eq_ok_iff.1 h
      exact ⟨b, bs, hb, (ih bs).1 hbs, (Except.ok.inj h).symm⟩
    · rintro ⟨b, bs, hb, hbs, rfl⟩
      exact ⟨b, hb, bind_eq_ok_iff.2 ⟨bs, (ih bs).2 hbs, rfl⟩⟩

/-- Every answer of a list of runs is the answer of one of them. -/
theorem exists_of_mem_mapM {f : α → Except ε β} {l : List α} {answers : List β}
    (h : l.mapM f = .ok answers) {b : β} (hb : b ∈ answers) : ∃ a ∈ l, f a = .ok b := by
  have hall := (mapM_eq_ok_iff f l answers).1 h
  have hflip : List.Forall₂ (fun b a => f a = .ok b) answers l := List.Forall₂.flip hall
  exact exists_of_mem_forall₂ hflip hb

theorem exists_answer_of_mem {f : α → Except ε β} {l : List α} {answers : List β}
    (h : l.mapM f = .ok answers) {a : α} (ha : a ∈ l) : ∃ b ∈ answers, f a = .ok b :=
  exists_of_mem_forall₂ ((mapM_eq_ok_iff f l answers).1 h) ha

/-- A list of runs fails as the first of them that fails. -/
theorem mapM_eq_error_iff {f : α → Except ε β} {l : List α} {e : ε} :
    l.mapM f = .error e ↔
      ∃ front a back, l = front ++ a :: back ∧ (∃ answers, front.mapM f = .ok answers) ∧
        f a = .error e := by
  constructor
  · intro h
    induction l with
    | nil => cases h
    | cons x l ih =>
      rw [List.mapM_cons] at h
      rcases bind_eq_error_iff.1 h with h | ⟨b, hb, h⟩
      · exact ⟨[], x, l, rfl, ⟨[], rfl⟩, h⟩
      · rcases bind_eq_error_iff.1 h with h | ⟨_, _, h⟩
        · obtain ⟨front, a, back, rfl, ⟨answers, hfront⟩, ha⟩ := ih h
          refine ⟨x :: front, a, back, rfl, ⟨b :: answers, ?_⟩, ha⟩
          rw [List.mapM_cons, hb, hfront]
          rfl
        · cases h
  · rintro ⟨front, a, back, rfl, ⟨answers, hfront⟩, ha⟩
    rw [List.mapM_append, hfront, List.mapM_cons, ha]
    rfl

/-- A list of runs fails only if one of them does. -/
theorem exists_of_mapM_eq_error {f : α → Except ε β} {l : List α} {e : ε}
    (h : l.mapM f = .error e) : ∃ a ∈ l, f a = .error e := by
  obtain ⟨front, a, back, rfl, _, ha⟩ := mapM_eq_error_iff.1 h
  exact ⟨a, by simp, ha⟩

/-- A list of runs gets to one of them: all before it succeed. -/
def Reaches (f : α → Except ε β) (l : List α) (a : α) : Prop :=
  ∃ front back, l = front ++ a :: back ∧ ∃ answers, front.mapM f = .ok answers

theorem not_reaches_nil (f : α → Except ε β) (a : α) : ¬Reaches f [] a := by
  rintro ⟨front, back, h, _⟩
  simp at h

theorem reaches_cons_iff (f : α → Except ε β) (x : α) (l : List α) (a : α) :
    Reaches f (x :: l) a ↔ a = x ∨ ∃ b, f x = .ok b ∧ Reaches f l a := by
  constructor
  · rintro ⟨front, back, hl, answers, hanswers⟩
    cases front with
    | nil => exact .inl (List.cons.inj hl).1.symm
    | cons y front =>
      obtain ⟨rfl, rfl⟩ := List.cons.inj hl
      rw [List.mapM_cons] at hanswers
      obtain ⟨b, hb, hanswers⟩ := bind_eq_ok_iff.1 hanswers
      obtain ⟨bs, hbs, _⟩ := bind_eq_ok_iff.1 hanswers
      exact .inr ⟨b, hb, front, back, rfl, bs, hbs⟩
  · rintro (rfl | ⟨b, hb, front, back, rfl, answers, hanswers⟩)
    · exact ⟨[], l, rfl, [], rfl⟩
    · refine ⟨x :: front, back, rfl, b :: answers, ?_⟩
      rw [List.mapM_cons, hb, hanswers]
      rfl

theorem Reaches.mem {f : α → Except ε β} {l : List α} {a : α} (h : Reaches f l a) : a ∈ l := by
  obtain ⟨front, back, rfl, _⟩ := h
  simp

/-- Runs that never fail are all gotten to. -/
theorem reaches_iff_mem {f : α → Except ε β} {g : α → β} (h : ∀ a, f a = .ok (g a)) (l : List α)
    (a : α) : Reaches f l a ↔ a ∈ l := by
  induction l with
  | nil => simp [not_reaches_nil]
  | cons x l ih => simp [reaches_cons_iff, h, ih]

end Answers

/-! ## Views of answers -/

section Views

variable {ε α β γ δ : Type}

theorem map_eq_ok_iff {x : Except ε α} {view : α → β} {b : β} :
    x.map view = .ok b ↔ ∃ a, x = .ok a ∧ view a = b := by
  cases x <;> simp [Except.map]

/-- Runs that go on alike from answers that are alike end alike. -/
theorem map_bind_congr {x y : Except ε α} (view : α → γ)
    (h : x.map view = y.map view) {f g : α → Except ε β} {view' : β → δ}
    (hgo : ∀ a b, view a = view b → (f a).map view' = (g b).map view') :
    (x >>= f).map view' = (y >>= g).map view' := by
  cases x with
  | error e =>
    cases y with
    | error e' =>
      obtain rfl := Except.error.inj h
      rfl
    | ok b => cases h
  | ok a =>
    cases y with
    | error e => cases h
    | ok b => exact hgo a b (Except.ok.inj h)

/-- Changing every answer of a list of runs changes the list of the answers. -/
theorem mapM_map_answer (f : α → Except ε β) (g : β → γ) (l : List α) :
    (l.mapM fun a => (f a).map g) = (l.mapM f).map (List.map g) := by
  induction l with
  | nil => rfl
  | cons a l ih =>
    rw [List.mapM_cons, List.mapM_cons, ih]
    cases f a with
    | error e => rfl
    | ok b => cases l.mapM f <;> rfl

/-- Runs that end alike one by one end alike together. -/
theorem map_mapM_congr {f : α → Except ε γ} {f' : β → Except ε γ} {g : α → β}
    {view : γ → δ} {l : List α} (h : ∀ a ∈ l, (f' (g a)).map view = (f a).map view) :
    ((l.map g).mapM f').map (List.map view) = (l.mapM f).map (List.map view) := by
  rw [← mapM_map_answer, ← mapM_map_answer, List.mapM_map]
  induction l with
  | nil => rfl
  | cons a l ih =>
    rw [List.mapM_cons, List.mapM_cons, ih fun x hx => h x (List.mem_cons_of_mem _ hx),
      Function.comp_apply, h a List.mem_cons_self]

end Views

end ProtoSchema
