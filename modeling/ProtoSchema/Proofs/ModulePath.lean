import Mathlib.Data.List.Induction
import ProtoSchema.ModulePath
import ProtoSchema.Proofs.Text.Split

set_option autoImplicit false

/-! # Specifiers lead to the modules they name

A specifier is followed segment by segment from the directory of the importing module. The
directories that both sides share are neither climbed out of nor entered again, so what is left to
climb never goes above the root (`resolve_climb`), and what is left to descend ends at the target
(`resolve_specifierParts`). A specifier therefore tells its target (`specifier_inj`). -/

namespace ProtoSchema.ModulePath

/-! ## Following segments -/

/-- Follow segments from a directory: `.` stays, `..` goes up, which cannot be done at the root, and
    any other segment goes down. -/
def resolve : List String → List String → Option (List String)
  | here, [] => some here
  | here, segment :: rest =>
    if segment = "." then resolve here rest
    else if segment = ".." then
      if here.isEmpty then none else resolve here.dropLast rest
    else resolve (here ++ [segment]) rest

/-- A segment that goes down. -/
def Descends (segment : String) : Prop :=
  segment ≠ "." ∧ segment ≠ ".."

theorem resolve_descends (here : List String) {down : List String}
    (h : ∀ segment ∈ down, Descends segment) : resolve here down = some (here ++ down) := by
  induction down generalizing here with
  | nil => simp [resolve]
  | cons segment down ih =>
    obtain ⟨hdot, hdots⟩ := h segment List.mem_cons_self
    rw [resolve, if_neg hdot, if_neg hdots, ih _ fun s hs => h s (List.mem_cons_of_mem _ hs),
      List.append_assoc, List.singleton_append]

/-- Directories that have been entered can be left again. -/
theorem resolve_climb (here gone rest : List String) :
    resolve (here ++ gone) (List.replicate gone.length ".." ++ rest) = resolve here rest := by
  induction gone using List.reverseRecOn with
  | nil => simp
  | append_singleton gone last ih =>
    rw [List.length_append, List.length_singleton, List.replicate_succ, List.cons_append, resolve,
      if_neg (by decide), if_pos rfl, if_neg (by simp), ← List.append_assoc, List.dropLast_concat,
      ih]

/-! ## Specifiers by their segments -/

theorem specifierParts_def (source target : List String) (file : String) :
    specifierParts source target file =
      if (dropShared source target).1.isEmpty then "." :: ((dropShared source target).2 ++ [file])
      else List.replicate (dropShared source target).1.length ".." ++
        ((dropShared source target).2 ++ [file]) :=
  rfl

theorem exists_shared (source target : List String) :
    ∃ shared, source = shared ++ (dropShared source target).1 ∧
      target = shared ++ (dropShared source target).2 := by
  fun_induction dropShared source target with
  | case1 as a bs ih =>
    obtain ⟨shared, hsource, htarget⟩ := ih
    exact ⟨a :: shared, congrArg (a :: ·) hsource, congrArg (a :: ·) htarget⟩
  | case2 => exact ⟨[], rfl, rfl⟩
  | case3 => exact ⟨[], rfl, rfl⟩

/-- The segments of a specifier lead from the one directory to a file in the other. -/
theorem resolve_specifierParts (source target : List String) {file : String}
    (htarget : ∀ segment ∈ target, Descends segment) (hfile : Descends file) :
    resolve source (specifierParts source target file) = some (target ++ [file]) := by
  obtain ⟨shared, hsource, hshared⟩ := exists_shared source target
  have hdown : ∀ segment ∈ (dropShared source target).2 ++ [file], Descends segment := by
    intro segment hsegment
    rcases List.mem_append.1 hsegment with hmem | hmem
    · exact htarget segment (by rw [hshared]; exact List.mem_append_right _ hmem)
    · rw [List.mem_singleton.1 hmem]
      exact hfile
  have hend : resolve shared ((dropShared source target).2 ++ [file]) =
      some (target ++ [file]) := by
    rw [resolve_descends shared hdown, ← List.append_assoc, ← hshared]
  rw [specifierParts_def]
  -- without anything to climb out of, the one `.` in front changes nothing
  by_cases hnone : (dropShared source target).1.isEmpty
  · rw [if_pos hnone, resolve, if_pos rfl]
    rw [List.isEmpty_iff.1 hnone, List.append_nil] at hsource
    rw [← hend, ← hsource]
  · rw [if_neg hnone, ← hend]
    generalize dropShared source target = rest at hsource ⊢
    rw [hsource, resolve_climb]

theorem mem_specifierParts {source target : List String} {file segment : String}
    (h : segment ∈ specifierParts source target file) :
    segment = "." ∨ segment = ".." ∨ segment ∈ target ∨ segment = file := by
  obtain ⟨shared, _, hshared⟩ := exists_shared source target
  have hdown : segment ∈ (dropShared source target).2 ++ [file] →
      segment ∈ target ∨ segment = file := by
    intro hmem
    rcases List.mem_append.1 hmem with hmem | hmem
    · left
      rw [hshared]
      exact List.mem_append_right _ hmem
    · exact Or.inr (List.mem_singleton.1 hmem)
  rw [specifierParts_def] at h
  split at h
  · rcases List.mem_cons.1 h with h | h
    · exact Or.inl h
    · exact Or.inr (Or.inr (hdown h))
  · rcases List.mem_append.1 h with h | h
    · exact Or.inr (Or.inl (List.eq_of_mem_replicate h))
    · exact Or.inr (Or.inr (hdown h))

theorem specifierParts_ne_nil (source target : List String) (file : String) :
    specifierParts source target file ≠ [] := by
  rw [specifierParts_def]
  split <;> simp

/-! ## Specifiers as texts -/

theorem split_specifier (source target : String) {ending : String} (h : '/' ∉ ending.toList) :
    Text.split '/' (specifier source target ending) =
      specifierParts (directory source) (directory target) (baseName target ++ ending) := by
  refine Text.split_intercalate (specifierParts_ne_nil _ _ _) ?_
  intro part hpart
  rcases mem_specifierParts hpart with rfl | rfl | hdirectory | rfl
  · decide
  · decide
  · exact Text.notMem_of_mem_split (List.dropLast_subset _ (List.mem_filter.1 hdirectory).1)
  · have hbase : baseName target ∈ Text.split '/' target := by
      rw [baseName, List.getLastD_eq_getLast?,
        List.getLast?_eq_some_getLast (Text.split_ne_nil '/' target), Option.getD_some]
      exact List.getLast_mem _
    rw [String.toList_append, List.mem_append, not_or]
    exact ⟨Text.notMem_of_mem_split hbase, h⟩

/-- A specifier leads from the directory of the one path to the file beside the other. -/
theorem resolve_specifier (source target : String) {ending : String} (h : '/' ∉ ending.toList)
    (htarget : ∀ segment ∈ directory target, Descends segment)
    (hfile : Descends (baseName target ++ ending)) :
    resolve (directory source) (Text.split '/' (specifier source target ending)) =
      some (directory target ++ [baseName target ++ ending]) := by
  rw [split_specifier source target h]
  exact resolve_specifierParts (directory source) (directory target) htarget hfile

/-- A path whose modules with the given ending a specifier can lead to: neither its directories nor
    the file are segments that stay or go up. -/
structure Reachable (path ending : String) : Prop where
  directory : ∀ segment ∈ directory path, Descends segment
  file : Descends (baseName path ++ ending)

/-- From one place, one specifier leads to one target. -/
theorem specifier_inj (source : String) {ending target target' : String}
    (hending : '/' ∉ ending.toList) (h : Reachable target ending) (h' : Reachable target' ending)
    (heq : specifier source target ending = specifier source target' ending) :
    directory target = directory target' ∧ baseName target = baseName target' := by
  have hleads := resolve_specifier source target hending h.directory h.file
  have hleads' := resolve_specifier source target' hending h'.directory h'.file
  rw [heq, hleads'] at hleads
  obtain ⟨hdirectory, hfile⟩ := List.append_inj' (Option.some.inj hleads) rfl
  exact ⟨hdirectory.symm, ((String.append_left_inj ending).1 (List.singleton_inj.1 hfile)).symm⟩

/-- A specifier never starts with the name of a module or with the root. -/
theorem specifier_relative (source target ending : String) :
    Text.startsWith "./" (specifier source target ending) = true ∨
      Text.startsWith "../" (specifier source target ending) = true := by
  have hjoined : ∀ (first : String) {rest : List String}, rest ≠ [] →
      Text.startsWith (first ++ "/") ("/".intercalate (first :: rest)) = true := by
    intro first rest hrest
    obtain ⟨second, others, rfl⟩ := List.exists_cons_of_ne_nil hrest
    refine Option.isSome_iff_exists.2 ⟨"/".intercalate (second :: others), ?_⟩
    rw [Text.after?_eq_some_iff]
    exact String.intercalate_cons_cons ..
  rw [specifier, specifierParts_def]
  split
  · exact .inl (hjoined "." (by simp))
  · next hclimb =>
    -- there is something to climb out of, so the first segment goes up
    obtain ⟨first, others, hleft⟩ := List.exists_cons_of_ne_nil (mt List.isEmpty_iff.2 hclimb)
    rw [hleft, List.length_cons, List.replicate_succ, List.cons_append]
    exact .inr (hjoined ".." (by simp))

/-- **Specifiers lead to their targets.** Followed from the directory of `source`, the specifier of
    `target` never goes above the root and ends at the file beside `target`, so that from one place
    and with one ending two targets have the same specifier only if directory and base name are the
    same. Whatever the paths and the ending, a specifier is relative. -/
theorem specifier_leads :
    (∀ source target ending : String, '/' ∉ ending.toList → Reachable target ending →
      resolve (directory source) (Text.split '/' (specifier source target ending)) =
        some (directory target ++ [baseName target ++ ending])) ∧
    (∀ source target target' ending : String, '/' ∉ ending.toList → Reachable target ending →
      Reachable target' ending →
      specifier source target ending = specifier source target' ending →
        directory target = directory target' ∧ baseName target = baseName target') ∧
    ∀ source target ending : String,
      Text.startsWith "./" (specifier source target ending) = true ∨
        Text.startsWith "../" (specifier source target ending) = true := by
  refine ⟨?_, ?_, specifier_relative⟩
  · intro source target ending hending htarget
    exact resolve_specifier source target hending htarget.directory htarget.file
  · intro source target target' ending hending htarget htarget' heq
    exact specifier_inj source hending htarget htarget' heq

/-- Out of two directories, past an empty one, and into a directory named like one that was left. -/
theorem specifier_leads_beside :
    Reachable "shop//v2/v1/order" "_zod.js" ∧ Reachable "shop/v2/v1/order" "_zod.js" ∧
      specifier "shop/v1/v2/user" "shop//v2/v1/order" "_zod.js" =
        "../../v2/v1/order_zod.js" ∧
      resolve ["shop", "v1", "v2"] (Text.split '/' "../../v2/v1/order_zod.js") =
        some ["shop", "v2", "v1", "order_zod.js"] ∧
      directory "shop//v2/v1/order" = directory "shop/v2/v1/order" := by
  have hreachable : Reachable "shop//v2/v1/order" "_zod.js" ∧
      Reachable "shop/v2/v1/order" "_zod.js" := by
    refine ⟨⟨?_, ?_⟩, ⟨?_, ?_⟩⟩ <;> unfold Descends <;> decide
  obtain ⟨hleads, hinj, _⟩ := specifier_leads
  have hspecifier : specifier "shop/v1/v2/user" "shop//v2/v1/order" "_zod.js" =
      "../../v2/v1/order_zod.js" := by decide
  have hplace := hleads "shop/v1/v2/user" "shop//v2/v1/order" "_zod.js" (by decide) hreachable.1
  rw [hspecifier] at hplace
  exact ⟨hreachable.1, hreachable.2, hspecifier, hplace,
    (hinj "shop/v1/v2/user" _ _ "_zod.js" (by decide) hreachable.1 hreachable.2 (by decide)).1⟩

/-! ## Regular file names -/

/-- The name of a schema file that ends in `.proto` and stands in named directories. -/
def RegularName (name : String) : Prop :=
  Text.endsWith ".proto" name = true ∧
    ∀ part ∈ (Text.split '/' name).dropLast, part ≠ "" ∧ Descends part

/-- The logical path of a regular name is the name without its ending. -/
theorem RegularName.eq_logical {name : String} (h : RegularName name) :
    name = logical name ++ ".proto" := by
  obtain ⟨front, hfront⟩ := Option.isSome_iff_exists.1 h.1
  rw [logical, hfront, Option.getD_some]
  exact (Text.before?_eq_some_iff ".proto" name front).1 hfront

theorem RegularName.dropLast_split {name : String} (h : RegularName name) :
    (Text.split '/' name).dropLast = (Text.split '/' (logical name)).dropLast := by
  have hsplit := Text.split_append (logical name) (by decide : '/' ∉ ".proto".toList)
  rw [← h.eq_logical] at hsplit
  rw [hsplit, List.dropLast_concat]

/-- All directories of a regular name count. -/
theorem RegularName.directory_eq {name : String} (h : RegularName name) :
    directory (logical name) = (Text.split '/' (logical name)).dropLast := by
  rw [directory, List.filter_eq_self, ← h.dropLast_split]
  intro part hpart
  exact decide_eq_true (h.2 part hpart).1

theorem RegularName.descends {name : String} (h : RegularName name) :
    ∀ segment ∈ directory (logical name), Descends segment := by
  intro segment hsegment
  rw [h.directory_eq, ← h.dropLast_split] at hsegment
  exact (h.2 segment hsegment).2

/-- Regular names with one logical path are the same. -/
theorem RegularName.logical_inj {name name' : String} (h : RegularName name)
    (h' : RegularName name') (heq : logical name = logical name') : name = name' := by
  rw [h.eq_logical, h'.eq_logical, heq]

/-! ## Modules -/

/-- Followed from the directory of the module `source`, a specifier leads to the module `target`,
    whose ending `.ts` reads `.js` there. -/
def LeadsTo (specifier source target : String) : Prop :=
  ∃ segments stem,
    resolve (Text.split '/' source).dropLast (Text.split '/' specifier) = some segments ∧
      target = stem ++ ".ts" ∧ "/".intercalate segments = stem ++ ".js"

theorem descends_schemaFile (base : String) : Descends (base ++ schemaEnding) := by
  -- the ending alone is longer than both special segments
  have hlength : 7 ≤ (base ++ schemaEnding).length := by
    rw [String.length_append]
    exact Nat.le_add_left 7 base.length
  constructor
  · intro heq
    rw [heq] at hlength
    exact absurd hlength (by decide)
  · intro heq
    rw [heq] at hlength
    exact absurd hlength (by decide)

/-- The specifier of a schema module leads to that module. -/
theorem specifier_leadsTo {source target : String} (hsource : RegularName source)
    (htarget : RegularName target) :
    LeadsTo (specifier (logical source) (logical target) schemaEnding) (output (logical source))
      (output (logical target)) := by
  have hslash : '/' ∉ schemaEnding.toList := by decide
  have hparent : (Text.split '/' (output (logical source))).dropLast =
      directory (logical source) := by
    rw [output, Text.split_append _ (by decide), List.dropLast_concat, hsource.directory_eq]
  refine ⟨directory (logical target) ++ [baseName (logical target) ++ schemaEnding],
    logical target ++ "_zod", ?_, ?_, ?_⟩
  · rw [hparent]
    exact resolve_specifier _ _ hslash htarget.descends (descends_schemaFile _)
  · rw [output, String.append_assoc]
    rfl
  · -- joining gives back the logical path with the ending behind it
    have hjoin := Text.intercalate_split '/' (logical target ++ schemaEnding)
    rw [Text.split_append _ hslash, ← htarget.directory_eq] at hjoin
    rw [String.append_assoc]
    exact hjoin

end ProtoSchema.ModulePath
