import Mathlib.Data.List.Nodup
import Mathlib.Data.List.Perm.Basic
import ProtoSchema.Text.Raw

set_option autoImplicit false

/-! # Release order

Names wait for other names. A name is released when the last of the names it waits for has been
placed, and names that are released together are placed in the order of declaration. An order that
follows this rule is in *release order*. The rule refers to the order itself, because the time of a
release is a position in it; still it determines the order (`InReleaseOrder.unique`), and it puts
every name behind the names it waits for (`InReleaseOrder.idxOf_lt`). -/

namespace ProtoSchema

/-! ## The rule -/

/-- When a name is released: at 0 if it waits for nothing, and otherwise at one more than the
    position of the last of the names it waits for. -/
def releaseTime (waits : RawText → List RawText) (order : List RawText) (name : RawText) : Nat :=
  ((waits name).map fun b => order.idxOf b + 1).foldr Nat.max 0

/-- The first name is released before the second, or at the same time and declared before it. -/
def ReleasedBefore (waits : RawText → List RawText) (declared order : List RawText)
    (a b : RawText) : Prop :=
  releaseTime waits order a < releaseTime waits order b ∨
    (releaseTime waits order a = releaseTime waits order b ∧
      declared.idxOf a < declared.idxOf b)

/-- One name is placed before another exactly if it is released before it. -/
def InReleaseOrder (waits : RawText → List RawText) (declared order : List RawText) : Prop :=
  ∀ a ∈ declared, ∀ b ∈ declared,
    order.idxOf a < order.idxOf b ↔ ReleasedBefore waits declared order a b

variable {waits : RawText → List RawText} {declared order : List RawText}

/-! ## Release times -/

theorem foldr_max_le_iff (times : List Nat) (n : Nat) :
    times.foldr Nat.max 0 ≤ n ↔ ∀ t ∈ times, t ≤ n := by
  induction times with
  | nil => simp
  | cons t times ih => rw [List.foldr_cons, Nat.max_le, ih, List.forall_mem_cons]

theorem releaseTime_le_iff (waits : RawText → List RawText) (order : List RawText)
    (name : RawText) (n : Nat) :
    releaseTime waits order name ≤ n ↔ ∀ b ∈ waits name, order.idxOf b < n := by
  rw [releaseTime, foldr_max_le_iff, List.forall_mem_map]
  exact Iff.rfl

theorem lt_releaseTime_of_mem (order : List RawText) {name b : RawText} (h : b ∈ waits name) :
    order.idxOf b < releaseTime waits order name :=
  (releaseTime_le_iff waits order name _).1 (Nat.le_refl _) b h

/-- A name that is not released at 0 is released right after some name it waits for. -/
theorem exists_releaseTime_eq {name : RawText} (h : 0 < releaseTime waits order name) :
    ∃ b ∈ waits name, releaseTime waits order name = order.idxOf b + 1 := by
  by_contra hnone
  have hle : releaseTime waits order name ≤ releaseTime waits order name - 1 := by
    rw [releaseTime_le_iff]
    intro b hb
    have hlt := lt_releaseTime_of_mem order hb
    have hne : releaseTime waits order name ≠ order.idxOf b + 1 := fun heq =>
      hnone ⟨b, hb, heq⟩
    omega
  omega

/-- Once all it waits for is placed, the release time of a name does not change any more. -/
theorem releaseTime_append (later : List RawText) {name : RawText} (h : waits name ⊆ order) :
    releaseTime waits (order ++ later) name = releaseTime waits order name := by
  have hsame : ((waits name).map fun b => (order ++ later).idxOf b + 1) =
      (waits name).map fun b => order.idxOf b + 1 := by
    apply List.map_congr_left
    intro b hb
    rw [List.idxOf_append_of_mem (h hb)]
  rw [releaseTime, hsame, releaseTime]

theorem releaseTime_le_length {name : RawText} (h : waits name ⊆ order) (later : List RawText) :
    releaseTime waits (order ++ later) name ≤ order.length := by
  rw [releaseTime_le_iff]
  intro b hb
  rw [List.idxOf_append_of_mem (h hb)]
  exact List.idxOf_lt_length_of_mem (h hb)

theorem ReleasedBefore.irrefl (a : RawText) : ¬ ReleasedBefore waits declared order a a := by
  rintro (h | ⟨_, h⟩) <;> omega

theorem ReleasedBefore.asymm {a b : RawText} (h : ReleasedBefore waits declared order a b) :
    ¬ ReleasedBefore waits declared order b a := by
  rcases h with h | ⟨h, h'⟩ <;> rintro (k | ⟨k, k'⟩) <;> omega

/-- Names whose waits are all placed compare as they did when the last of those was placed. -/
theorem releasedBefore_append_iff (later : List RawText) {a b : RawText} (ha : waits a ⊆ order)
    (hb : waits b ⊆ order) :
    ReleasedBefore waits declared (order ++ later) a b ↔
      ReleasedBefore waits declared order a b := by
  rw [ReleasedBefore, ReleasedBefore, releaseTime_append later ha, releaseTime_append later hb]

/-! ## Orders that follow the rule -/

/-- A list in which every name is released before all that follow is in release order. -/
theorem InReleaseOrder.of_pairwise (hperm : order.Perm declared)
    (h : order.Pairwise (ReleasedBefore waits declared order)) :
    InReleaseOrder waits declared order := by
  have hforward : ∀ a ∈ order, ∀ b ∈ order, order.idxOf a < order.idxOf b →
      ReleasedBefore waits declared order a b := by
    intro a ha b hb hlt
    have hpair := List.pairwise_iff_getElem.1 h _ _ (List.idxOf_lt_length_of_mem ha)
      (List.idxOf_lt_length_of_mem hb) hlt
    rwa [List.getElem_idxOf, List.getElem_idxOf] at hpair
  intro a ha b hb
  have ha' : a ∈ order := hperm.mem_iff.2 ha
  have hb' : b ∈ order := hperm.mem_iff.2 hb
  refine ⟨hforward a ha' b hb', fun hbefore => ?_⟩
  rcases Nat.lt_trichotomy (order.idxOf a) (order.idxOf b) with hlt | heq | hgt
  · exact hlt
  · rw [(List.idxOf_inj ha').1 heq] at hbefore
    exact absurd hbefore (ReleasedBefore.irrefl b)
  · exact absurd (hforward b hb' a ha' hgt) hbefore.asymm

section Waiting

variable (hperm : order.Perm declared) (hknown : ∀ a ∈ declared, waits a ⊆ declared)
  (hself : ∀ a, a ∉ waits a)

include hperm hknown hself

/-- No name is placed before its release. If one were, the last name it waits for would stand
    behind it, so it would be released at least as late and be placed too early as well, and so on
    beyond the end of the order. -/
theorem InReleaseOrder.releaseTime_le (h : InReleaseOrder waits declared order) :
    ∀ a ∈ declared, releaseTime waits order a ≤ order.idxOf a := by
  have hrest : ∀ n, ∀ a ∈ declared, order.length - order.idxOf a ≤ n →
      releaseTime waits order a ≤ order.idxOf a := by
    intro n
    induction n with
    | zero =>
      intro a ha hn
      have := List.idxOf_lt_length_of_mem (hperm.mem_iff.2 ha)
      omega
    | succ n ih =>
      intro a ha hn
      by_contra hearly
      obtain ⟨b, hb, htime⟩ := exists_releaseTime_eq (by omega : 0 < releaseTime waits order a)
      have hb' : b ∈ declared := hknown a ha hb
      have hne : order.idxOf a ≠ order.idxOf b := by
        intro heq
        rw [(List.idxOf_inj (hperm.mem_iff.2 ha)).1 heq] at hb
        exact hself b hb
      have hbefore : ReleasedBefore waits declared order a b := (h a ha b hb').1 (by omega)
      have hlater := ih b hb' (by omega)
      rcases hbefore with hlt | ⟨heq, _⟩ <;> omega
  exact fun a ha => hrest _ a ha (Nat.le_refl _)

/-- Every name is placed behind the names it waits for. -/
theorem InReleaseOrder.idxOf_lt (h : InReleaseOrder waits declared order) {a b : RawText}
    (ha : a ∈ declared) (hb : b ∈ waits a) : order.idxOf b < order.idxOf a :=
  Nat.lt_of_lt_of_le (lt_releaseTime_of_mem order hb) (h.releaseTime_le hperm hknown hself a ha)

/-- What stands in front of a name holds all that it waits for. -/
theorem InReleaseOrder.waits_subset_front (hnodup : declared.Nodup)
    (h : InReleaseOrder waits declared order) {front rest : List RawText} {x : RawText}
    (horder : order = front ++ x :: rest) : waits x ⊆ front := by
  have hx : x ∉ front := by
    have hall := hperm.nodup_iff.2 hnodup
    rw [horder, List.nodup_middle] at hall
    exact fun hmem => (List.nodup_cons.1 hall).1 (List.mem_append_left _ hmem)
  have hmem : x ∈ declared := hperm.mem_iff.1 (by simp [horder])
  intro b hb
  by_contra hfront
  have hlt := h.idxOf_lt hperm hknown hself hmem hb
  rw [horder, List.idxOf_append_of_notMem hfront, List.idxOf_append_of_notMem hx,
    List.idxOf_cons_self] at hlt
  omega

/-- A name is released before all that stand behind it, as far as those in front of both decide. -/
theorem InReleaseOrder.releasedBefore_front (hnodup : declared.Nodup)
    (h : InReleaseOrder waits declared order) {front rest : List RawText} {x y : RawText}
    (horder : order = front ++ x :: rest) (hy : y ∈ rest) (hwaits : waits y ⊆ front) :
    ReleasedBefore waits declared front x y := by
  have hall := hperm.nodup_iff.2 hnodup
  rw [horder, List.nodup_append] at hall
  obtain ⟨_, hrest, hdisjoint⟩ := hall
  have hx : x ∉ front := fun hmem => hdisjoint x hmem x List.mem_cons_self rfl
  have hy' : y ∉ front := fun hmem => hdisjoint y hmem y (List.mem_cons_of_mem _ hy) rfl
  have hne : x ≠ y := fun heq => (List.nodup_cons.1 hrest).1 (heq ▸ hy)
  have hpos : order.idxOf x < order.idxOf y := by
    rw [horder, List.idxOf_append_of_notMem hx, List.idxOf_append_of_notMem hy',
      List.idxOf_cons_self, List.idxOf_cons_ne rest hne]
    omega
  have hbefore := (h x (hperm.mem_iff.1 (by simp [horder])) y
    (hperm.mem_iff.1 (by simp [horder, hy]))).1 hpos
  have hfront := h.waits_subset_front hperm hknown hself hnodup horder
  rw [horder] at hbefore
  exact (releasedBefore_append_iff _ hfront hwaits).1 hbefore

end Waiting

section Unique

variable {order' : List RawText} (hnodup : declared.Nodup)
  (hknown : ∀ a ∈ declared, waits a ⊆ declared) (hself : ∀ a, a ∉ waits a)
  (hperm : order.Perm declared) (hperm' : order'.Perm declared)

include hnodup hknown hself hperm hperm'

/-- Two orders that agree on a front agree on the next name: each of the two candidates would be
    released before the other. -/
theorem InReleaseOrder.next_eq (h : InReleaseOrder waits declared order)
    (h' : InReleaseOrder waits declared order') {front rest rest' : List RawText} {x y : RawText}
    (horder : order = front ++ x :: rest) (horder' : order' = front ++ y :: rest') : x = y := by
  by_contra hne
  have hfront := h.waits_subset_front hperm hknown hself hnodup horder
  have hfront' := h'.waits_subset_front hperm' hknown hself hnodup horder'
  have hsame : (x :: rest).Perm (y :: rest') := by
    have hboth := hperm.trans hperm'.symm
    rw [horder, horder'] at hboth
    exact (List.perm_append_left_iff front).1 hboth
  have hy : y ∈ rest := by
    rcases List.mem_cons.1 (hsame.mem_iff.2 List.mem_cons_self) with heq | hmem
    · exact absurd heq.symm hne
    · exact hmem
  have hx : x ∈ rest' := by
    rcases List.mem_cons.1 (hsame.mem_iff.1 List.mem_cons_self) with heq | hmem
    · exact absurd heq hne
    · exact hmem
  have hxy := h.releasedBefore_front hperm hknown hself hnodup horder hy hfront'
  have hyx := h'.releasedBefore_front hperm' hknown hself hnodup horder' hx hfront
  exact hxy.asymm hyx

/-- The rule determines the order: two orders of the same names that follow it are equal. -/
theorem InReleaseOrder.unique (h : InReleaseOrder waits declared order)
    (h' : InReleaseOrder waits declared order') : order = order' := by
  have hlen := (hperm.trans hperm'.symm).length_eq
  -- the two orders are compared name by name, behind a front on which they agree
  have hrest : ∀ rest front rest', order = front ++ rest → order' = front ++ rest' →
      rest = rest' := by
    intro rest
    induction rest with
    | nil =>
      intro front rest' hfront hfront'
      rw [hfront, hfront', List.length_append, List.length_append] at hlen
      exact (List.eq_nil_of_length_eq_zero (by simpa using hlen)).symm
    | cons x rest ih =>
      intro front rest' hfront hfront'
      cases rest' with
      | nil =>
        rw [hfront, hfront', List.length_append, List.length_append] at hlen
        simp at hlen
      | cons y rest' =>
        have hxy : x = y :=
          h.next_eq hnodup hknown hself hperm hperm' h' hfront hfront'
        subst hxy
        rw [ih (front ++ [x]) rest' (by simp [hfront]) (by simp [hfront'])]
  exact hrest order [] order' rfl rfl

end Unique

end ProtoSchema
