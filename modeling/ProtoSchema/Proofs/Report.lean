import ProtoSchema.Proofs.Outcome
import ProtoSchema.Report

set_option autoImplicit false

/-! # Runs and the loader

A run finds the loader in some state and leaves it in another one, so a part of it might fare
otherwise than by itself. It does not, because all runs are steady (`Run.Steady`): the parts of a
run are, and what is composed of steady runs is steady. So the outcome of a run follows from the
outcomes of its parts (`Run.Steady.outcome_bind`, `Run.Steady.outcome_mapM`).

Steadiness keeps account of the notice that the definitions of the rules are missing. What a run
writes of it and what is left to be written make up what was to be written before
(`Run.Steady.balance`), which is one notice at most (`Run.Steady.count_le`). Whether it is written
hangs on outcomes: a list of runs tells the user if one of its runs does that it gets to
(`Run.Steady.warns_mapM`). -/

namespace ProtoSchema

/-! ## Loaders -/

/-- How many notices on missing definitions a process has yet to write, at most. -/
def Loader.pending : Loader → Nat
  | idle false => 1
  | _ => 0

theorem Loader.pending_le (loader : Loader) : loader.pending ≤ 1 := by
  rcases loader with (_ | _) | _
  · exact Nat.le_refl 1
  · exact Nat.zero_le 1
  · exact Nat.zero_le 1

theorem Loader.eq_idle_of_pending {loader : Loader} (h : loader.pending = 1) :
    loader = .idle false := by
  rcases loader with (_ | _) | _
  · rfl
  · cases h
  · cases h

theorem Loader.pending_of_found {loader : Loader} (h : loader.found = true) :
    loader.pending = 0 := by
  cases loader <;> cases h <;> rfl

/-! ## Steady runs -/

namespace Run

variable {α β : Type}

/-- A run that hands its outcome on, so that it never fails. -/
def attempt (r : Run α) : Run (Except Error α) := fun loader =>
  let report := r loader
  ⟨report.notices, report.loader, .ok report.outcome⟩

/-- How a run deals with the loader. What the loader finds stays the same. Whether it has been asked
    before makes no difference to the outcome, nor to the notices apart from the one on missing
    definitions. And this notice is only written where it has yet to be, which it then has not any
    more. -/
structure Steady (r : Run α) : Prop where
  found : ∀ loader, (r loader).loader.found = loader.found
  outcome : ∀ {loader loader' : Loader}, loader.found = loader'.found →
    (r loader).outcome = (r loader').outcome
  others : ∀ {loader loader' : Loader}, loader.found = loader'.found →
    (r loader).notices.filter (· ≠ .missingBindings) =
      (r loader').notices.filter (· ≠ .missingBindings)
  balance : ∀ loader,
    (r loader).notices.count .missingBindings + (r loader).loader.pending = loader.pending

/-! ### The parts of a run -/

/-- What does not look at the loader, and says nothing about missing definitions. -/
theorem steady_fixed {notices : List Notice} (h : .missingBindings ∉ notices)
    (outcome : Except Error α) : Steady fun loader => ⟨notices, loader, outcome⟩ where
  found _ := rfl
  outcome _ := rfl
  others _ := rfl
  balance _ := by rw [List.count_eq_zero.2 h, Nat.zero_add]

theorem steady_ofExcept (x : Except Error α) : Steady (ofExcept x) :=
  steady_fixed List.not_mem_nil x

theorem steady_pure (a : α) : Steady (pure a) :=
  steady_ofExcept (.ok a)

theorem steady_tell {notice : Notice} (h : notice ≠ .missingBindings) : Steady (tell notice) :=
  steady_fixed (by simpa using h.symm) (.ok ())

theorem steady_tellIf {notice : Notice} (h : notice ≠ .missingBindings) (condition : Bool) :
    Steady (tellIf condition notice) :=
  steady_fixed (by cases condition <;> simp [h.symm]) (.ok ())

/-- Only the first who asks is told that the definitions are missing. -/
theorem steady_load : Steady load where
  found loader := by cases loader <;> rfl
  outcome {loader loader'} h := by
    cases loader <;> cases loader' <;> exact congrArg Except.ok h
  others {loader loader'} h := by
    rcases loader with (_ | _) | _ <;> rcases loader' with (_ | _) | _ <;> rfl
  balance loader := by rcases loader with (_ | _) | _ <;> rfl

theorem outcome_load (loader : Loader) : (load loader).outcome = .ok loader.found := by
  cases loader <;> rfl

/-- Those who ask for installed definitions get them without a notice. -/
theorem load_of_found {loader : Loader} (h : loader.found = true) :
    load loader = ⟨[], .done true, .ok true⟩ := by
  cases loader <;> cases h <;> rfl

/-! ### Composed runs -/

theorem bind_eq_of_error {r : Run α} {loader : Loader} {e : Error}
    (h : (r loader).outcome = .error e) (f : α → Run β) :
    (r >>= f) loader = ⟨(r loader).notices, (r loader).loader, .error e⟩ := by
  show Run.bind r f loader = _
  simp only [Run.bind, h]

theorem bind_eq_of_ok {r : Run α} {loader : Loader} {a : α} (h : (r loader).outcome = .ok a)
    (f : α → Run β) :
    (r >>= f) loader = ⟨(r loader).notices ++ (f a (r loader).loader).notices,
      (f a (r loader).loader).loader, (f a (r loader).loader).outcome⟩ := by
  show Run.bind r f loader = _
  simp only [Run.bind, h]

/-- Changing the answer of a run changes nothing else. -/
theorem bind_pure_apply (r : Run α) (g : α → β) (loader : Loader) :
    (r >>= fun a => pure (g a)) loader =
      ⟨(r loader).notices, (r loader).loader, (r loader).outcome.map g⟩ := by
  cases h : (r loader).outcome with
  | error e => exact bind_eq_of_error h _
  | ok a => rw [bind_eq_of_ok h]; simp [pure, ofExcept, Except.map]

/-- What does not ask for the definitions leaves the loader to what follows. -/
theorem outcome_ofExcept_bind (x : Except Error α) (f : α → Run β) (loader : Loader) :
    ((ofExcept x >>= f) loader).outcome = x >>= fun a => (f a loader).outcome := by
  cases x with
  | error e => rfl
  | ok a => rfl

theorem outcome_tellIf_bind (condition : Bool) (notice : Notice) (f : Unit → Run β)
    (loader : Loader) :
    ((tellIf condition notice >>= f) loader).outcome = (f () loader).outcome :=
  rfl

section Composed

variable {r : Run α} {f : α → Run β} (hr : Steady r) (hf : ∀ a, Steady (f a))

include hr hf

theorem Steady.outcome_bind (loader : Loader) :
    ((r >>= f) loader).outcome = (r loader).outcome >>= fun a => (f a loader).outcome := by
  cases h : (r loader).outcome with
  | error e => rw [bind_eq_of_error h]; rfl
  | ok a =>
    rw [bind_eq_of_ok h]
    exact (hf a).outcome (hr.found loader)

/-- Steady runs one after the other are steady. -/
theorem Steady.bind : Steady (r >>= f) where
  found loader := by
    cases h : (r loader).outcome with
    | error e => rw [bind_eq_of_error h]; exact hr.found loader
    | ok a => rw [bind_eq_of_ok h]; exact ((hf a).found _).trans (hr.found loader)
  outcome {loader loader'} h := by
    rw [hr.outcome_bind hf, hr.outcome_bind hf, hr.outcome h]
    exact congrArg _ (funext fun a => (hf a).outcome h)
  others {loader loader'} h := by
    have hfirst := hr.others h
    have houtcome := hr.outcome h
    cases hout : (r loader).outcome with
    | error e => rw [bind_eq_of_error hout, bind_eq_of_error (houtcome.symm.trans hout), hfirst]
    | ok a =>
      have hfound : (r loader).loader.found = (r loader').loader.found := by
        rw [hr.found, hr.found, h]
      rw [bind_eq_of_ok hout, bind_eq_of_ok (houtcome.symm.trans hout), List.filter_append,
        List.filter_append, hfirst, (hf a).others hfound]
  balance loader := by
    have hfirst := hr.balance loader
    cases h : (r loader).outcome with
    | error e => rw [bind_eq_of_error h, hfirst]
    | ok a =>
      have hsecond := (hf a).balance (r loader).loader
      rw [bind_eq_of_ok h, List.count_append, Nat.add_assoc, hsecond, hfirst]

end Composed

theorem Steady.attempt {r : Run α} (hr : Steady r) : Steady r.attempt where
  found := hr.found
  outcome h := congrArg Except.ok (hr.outcome h)
  others := hr.others
  balance := hr.balance

section Lists

variable {f : α → Run β} (hf : ∀ a, Steady (f a))

include hf

theorem Steady.mapM (l : List α) : Steady (l.mapM f) := by
  induction l with
  | nil => exact steady_pure []
  | cons a l ih =>
    rw [List.mapM_cons]
    exact (hf a).bind fun b => ih.bind fun bs => steady_pure _

theorem Steady.outcome_mapM (l : List α) (loader : Loader) :
    ((l.mapM f) loader).outcome = l.mapM fun a => (f a loader).outcome := by
  induction l with
  | nil => rfl
  | cons a l ih =>
    rw [List.mapM_cons, List.mapM_cons,
      (hf a).outcome_bind fun b => (Steady.mapM hf l).bind fun bs => steady_pure _]
    congr 1
    funext b
    rw [(Steady.mapM hf l).outcome_bind fun bs => steady_pure _, ih]
    rfl

end Lists

/-! ## Who is told -/

/-- A steady run writes the notice at most once. -/
theorem Steady.count_le {r : Run α} (hr : Steady r) (loader : Loader) :
    (r loader).notices.count .missingBindings ≤ 1 := by
  have hbalance := hr.balance loader
  have hpending := loader.pending_le
  omega

/-- Where the definitions are installed, the notice is not written. -/
theorem Steady.notMem_of_found {r : Run α} (hr : Steady r) {loader : Loader}
    (h : loader.found = true) : .missingBindings ∉ (r loader).notices := by
  have hbalance := hr.balance loader
  have hpending := Loader.pending_of_found h
  exact List.count_eq_zero.1 (by omega)

/-- Where the definitions are installed, a run writes the same whoever has asked for them. -/
theorem Steady.notices_of_found {r : Run α} (hr : Steady r) {loader loader' : Loader}
    (h : loader.found = true) (h' : loader'.found = true) :
    (r loader).notices = (r loader').notices := by
  have hkeep : ∀ {loader : Loader}, loader.found = true →
      (r loader).notices.filter (· ≠ .missingBindings) = (r loader).notices := by
    intro loader h
    refine List.filter_eq_self.2 fun notice hnotice => decide_eq_true ?_
    rintro rfl
    exact hr.notMem_of_found h hnotice
  rw [← hkeep h, ← hkeep h', hr.others (h.trans h'.symm)]

/-- In a process that has just started and lacks the definitions, a run tells the user so. -/
def Warns (r : Run α) : Prop :=
  .missingBindings ∈ (r (.idle false)).notices

/-- As long as the user has not been told, nobody has asked for the definitions. -/
theorem Steady.loader_of_not_warns {r : Run α} (hr : Steady r) (h : ¬ Warns r) :
    (r (.idle false)).loader = .idle false := by
  have hbalance := hr.balance (.idle false)
  rw [List.count_eq_zero.2 h, Nat.zero_add] at hbalance
  exact Loader.eq_idle_of_pending hbalance

theorem warns_load : Warns load :=
  List.mem_singleton_self _

theorem not_warns_ofExcept (x : Except Error α) : ¬ Warns (ofExcept x) :=
  List.not_mem_nil

theorem not_warns_pure (a : α) : ¬ Warns (pure a : Run α) :=
  List.not_mem_nil

theorem not_warns_tell {notice : Notice} (h : notice ≠ .missingBindings) :
    ¬ Warns (tell notice) :=
  fun hmem => h (List.mem_singleton.1 hmem).symm

theorem not_warns_tellIf {notice : Notice} (h : notice ≠ .missingBindings) (condition : Bool) :
    ¬ Warns (tellIf condition notice) := by
  cases condition with
  | false => exact List.not_mem_nil
  | true => exact not_warns_tell h

/-- The first part of a run tells the user, or the second if it comes to that. -/
theorem Steady.warns_bind {r : Run α} {f : α → Run β} (hr : Steady r) :
    Warns (r >>= f) ↔ Warns r ∨ ∃ a, (r (.idle false)).outcome = .ok a ∧ Warns (f a) := by
  unfold Warns
  by_cases hwarns : .missingBindings ∈ (r (.idle false)).notices
  · cases h : (r (.idle false)).outcome with
    | error e => simp [bind_eq_of_error h, hwarns]
    | ok a => simp [bind_eq_of_ok h, hwarns]
  · have hloader := hr.loader_of_not_warns hwarns
    cases h : (r (.idle false)).outcome with
    | error e => simp [bind_eq_of_error h, hwarns]
    | ok a => simp [bind_eq_of_ok h, hwarns, hloader]

theorem warns_ofExcept_bind (x : Except Error α) (f : α → Run β) :
    Warns (ofExcept x >>= f) ↔ ∃ a, x = .ok a ∧ Warns (f a) := by
  rw [(steady_ofExcept x).warns_bind, or_iff_right (not_warns_ofExcept x)]
  rfl

theorem Steady.warns_bind_pure {r : Run α} (hr : Steady r) (g : α → β) :
    Warns (r >>= fun a => pure (g a)) ↔ Warns r := by
  rw [hr.warns_bind, or_iff_left]
  rintro ⟨a, _, h⟩
  exact not_warns_pure _ h

/-- A list of runs tells the user if one of them does that it gets to. -/
theorem Steady.warns_mapM {f : α → Run β} (hf : ∀ a, Steady (f a)) (l : List α) :
    Warns (l.mapM f) ↔
      ∃ a, Reaches (fun a => (f a (.idle false)).outcome) l a ∧ Warns (f a) := by
  induction l with
  | nil => simp [not_reaches_nil, not_warns_pure]
  | cons x l ih =>
    rw [List.mapM_cons, (hf x).warns_bind]
    simp only [(Steady.mapM hf l).warns_bind, ih, reaches_cons_iff, not_warns_pure, and_false,
      exists_false, or_false]
    constructor
    · rintro (hn | ⟨b, hb, a, ha, hn⟩)
      · exact ⟨x, .inl rfl, hn⟩
      · exact ⟨a, .inr ⟨b, hb, ha⟩, hn⟩
    · rintro ⟨a, rfl | ⟨b, hb, ha⟩, hn⟩
      · exact .inl hn
      · exact .inr ⟨b, hb, a, ha, hn⟩

end Run

end ProtoSchema
