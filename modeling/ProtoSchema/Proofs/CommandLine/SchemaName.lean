import ProtoSchema.CommandLine.Path
import ProtoSchema.Proofs.ModulePath

set_option autoImplicit false

/-! # Names of schema files below include paths

Every path leads to a place, and the way from a directory to a place below it is what the place adds
to the directory (`relative_of_below`); the way to any other place climbs first
(`relative_of_not_below`). A way that starts with two dots is taken for one that climbs, though,
also if the two dots start the name of a directory. So a schema file gets its name from the first
include path that it is below, those apart from which the name would start with two dots
(`schemaName_below_first`). -/

namespace ProtoSchema.CommandLine.Path

/-! ## Ways -/

theorem dropShared_append (place rest : List String) :
    ModulePath.dropShared place (place ++ rest) = ([], rest) := by
  induction place with
  | nil => cases rest <;> rfl
  | cons component place ih => rw [List.cons_append, ModulePath.dropShared, if_pos rfl, ih]

/-- The way to a place further down is what that place adds. -/
theorem wayParts_append (place rest : List String) : wayParts place (place ++ rest) = rest := by
  rw [wayParts, dropShared_append]
  rfl

/-- The way to any other place goes up first. -/
theorem exists_wayParts_eq {source target : List String} (h : ∀ rest, target ≠ source ++ rest) :
    ∃ others, wayParts source target = ".." :: others := by
  obtain ⟨shared, hsource, htarget⟩ := ModulePath.exists_shared source target
  have hclimb : (ModulePath.dropShared source target).1 ≠ [] := by
    intro hnil
    rw [hnil, List.append_nil] at hsource
    exact h (ModulePath.dropShared source target).2 (hsource ▸ htarget)
  obtain ⟨first, gone, hgone⟩ := List.exists_cons_of_ne_nil hclimb
  rw [wayParts, hgone, List.length_cons, List.replicate_succ, List.cons_append]
  exact ⟨_, rfl⟩

/-! ## Places below a directory -/

section

variable {cwd directory path : String} {rest : List String}

/-- A path leads to a place below a directory, by the given components. -/
def Below (cwd directory path : String) (rest : List String) : Prop :=
  absolute cwd path = absolute cwd directory ++ rest

theorem Below.unique {rest' : List String} (h : Below cwd directory path rest)
    (h' : Below cwd directory path rest') : rest = rest' :=
  List.append_cancel_left (h.symm.trans h')

/-- The components of a place as a text; the directory itself is a dot. -/
def joined (rest : List String) : String :=
  if rest.isEmpty then "." else "/".intercalate rest

theorem relative_of_below (h : Below cwd directory path rest) :
    relative cwd directory path = joined rest := by
  rw [relative, h, wayParts_append, joined]

/-- The first of the components starts with two dots. -/
def Dotted (rest : List String) : Prop :=
  ∃ first ∈ rest.head?, Text.startsWith ".." first = true

/-- Two dots in front of a slash can only come from the component before it. -/
theorem startsWith_dots_joined (first : String) (others : List String) :
    Text.startsWith ".." (joined (first :: others)) = Text.startsWith ".." first := by
  rw [Bool.eq_iff_iff, Text.startsWith_iff, Text.startsWith_iff, joined, if_neg (by simp)]
  cases others with
  | nil => rw [String.intercalate_singleton]
  | cons second others =>
    rw [String.intercalate_cons_cons, String.toList_append, String.toList_append]
    cases first.toList with
    | nil => simp
    | cons c chars =>
      cases chars with
      | nil => simp
      | cons d chars => simp

theorem startsWith_dots_relative (h : Below cwd directory path rest) :
    Text.startsWith ".." (relative cwd directory path) = true ↔ Dotted rest := by
  rw [relative_of_below h]
  cases rest with
  | nil => simp [Dotted, joined]; decide
  | cons first others => simp [Dotted, startsWith_dots_joined]

/-- The way to a place that is not below the directory starts with two dots. -/
theorem relative_of_not_below (h : ∀ rest, ¬ Below cwd directory path rest) :
    Text.startsWith ".." (relative cwd directory path) = true := by
  obtain ⟨others, hway⟩ := exists_wayParts_eq h
  have hdots := startsWith_dots_joined ".." others
  rw [joined, if_neg (by simp)] at hdots
  rw [relative, hway, if_neg (by simp), hdots]
  decide

/-- A directory gives a name to what is below it, unless the name would start with two dots. -/
theorem names_iff :
    (!Text.startsWith ".." (relative cwd directory path)) = true ↔
      ∃ rest, Below cwd directory path rest ∧ ¬ Dotted rest := by
  rw [Bool.not_eq_true', Bool.eq_false_iff]
  constructor
  · intro h
    obtain ⟨rest, hrest⟩ := not_forall.1 (mt relative_of_not_below h)
    exact ⟨rest, not_not.1 hrest, mt (startsWith_dots_relative (not_not.1 hrest)).2 h⟩
  · rintro ⟨rest, hrest, hdotted⟩
    exact mt (startsWith_dots_relative hrest).1 hdotted

end

/-! ## Normal paths -/

/-- A relative path without detours: the current directory, or components that all go down. -/
def Normal (path : String) : Prop :=
  path = "." ∨ ∀ component ∈ Text.split '/' path,
    component ≠ "" ∧ component ≠ "." ∧ component ≠ ".."

theorem Normal.not_absolute {path : String} (h : Normal path) : isAbsolute path = false := by
  rcases h with rfl | h
  · decide
  · rw [isAbsolute, Bool.eq_false_iff, Ne, Text.startsWith_iff]
    rintro ⟨rest, hpath⟩
    -- before a slash at the start there is an empty component
    have hsplit : Text.split '/' path = "" :: Text.split '/' (String.ofList rest) := by
      simp [Text.split, ← hpath, Text.splitChars]
    exact (h "" (by rw [hsplit]; exact List.mem_cons_self)).1 rfl

theorem Normal.descends {path : String} (h : Normal path) :
    ∀ component ∈ components path, component ≠ ".." := by
  intro component hcomponent
  rcases h with rfl | h
  · have hnone : components "." = [] := by decide
    rw [hnone] at hcomponent
    cases hcomponent
  · exact (h component (List.mem_filter.1 hcomponent).1).2.2

theorem foldl_follow {down : List String} (h : ∀ component ∈ down, component ≠ "..")
    (place : List String) : down.foldl follow place = place ++ down := by
  induction down generalizing place with
  | nil => rw [List.foldl_nil, List.append_nil]
  | cons component down ih =>
    rw [List.forall_mem_cons] at h
    rw [List.foldl_cons, follow, if_neg h.1, ih h.2, List.append_assoc, List.singleton_append]

/-- A normal path leads down from the current directory. -/
theorem Normal.absolute_eq {path : String} (h : Normal path) (cwd : String) :
    absolute cwd path = (components cwd).foldl follow [] ++ components path := by
  have hcomponents : components (cwd ++ "/" ++ path) = components cwd ++ components path := by
    rw [components, show "/" = String.singleton '/' from rfl, Text.split_append_singleton,
      List.filter_append]
    rfl
  rw [absolute, h.not_absolute, if_neg Bool.false_ne_true, hcomponents, List.foldl_append,
    foldl_follow h.descends]

/-- Between normal paths it does not matter where the current directory is. -/
theorem below_iff_of_normal {directory path : String} (hdirectory : Normal directory)
    (hpath : Normal path) (cwd : String) (rest : List String) :
    Below cwd directory path rest ↔ components path = components directory ++ rest := by
  rw [Below, hdirectory.absolute_eq, hpath.absolute_eq, List.append_assoc, List.append_right_inj]

/-! ## The first include path -/

/-- **A schema file is named from the first include path that it is below.** The name is made of the
    components below that path; without such a path, the file keeps the path it has. An include path
    does not count if a name from there would start with two dots. Between normal relative paths,
    being below is a matter of components alone. -/
theorem schemaName_below_first (cwd path : String) (includePaths : List String)
    (hpath : path ≠ "") :
    (∀ front directory back rest, includePaths = front ++ directory :: back →
      Below cwd directory path rest → ¬ Dotted rest →
      (∀ other ∈ front, ∀ rest', Below cwd other path rest' → Dotted rest') →
        schemaName cwd includePaths path = .ok (joined rest)) ∧
    ((∀ directory ∈ includePaths, ∀ rest, Below cwd directory path rest → Dotted rest) →
      schemaName cwd includePaths path = .ok path) ∧
    ∀ directory rest, Normal directory → Normal path →
      (Below cwd directory path rest ↔ components path = components directory ++ rest) := by
  refine ⟨?_, ?_, fun directory rest hdirectory hnormal =>
    below_iff_of_normal hdirectory hnormal cwd rest⟩
  · intro front directory back rest hsplit hbelow hdotted hfront
    have hnone : ∀ name ∈ front.map fun start => relative cwd start path,
        (!Text.startsWith ".." name) = false := by
      intro name hname
      obtain ⟨other, hother, rfl⟩ := List.mem_map.1 hname
      rw [Bool.eq_false_iff, Ne, names_iff]
      rintro ⟨rest', hbelow', hdotted'⟩
      exact hdotted' (hfront other hother rest' hbelow')
    have hfirst : (!Text.startsWith ".." (relative cwd directory path)) = true :=
      names_iff.2 ⟨rest, hbelow, hdotted⟩
    rw [schemaName, if_neg (by simp [hpath]), hsplit, List.map_append, List.map_cons,
      List.find?_append, List.find?_eq_none.2 (by simpa using hnone), Option.none_or,
      List.find?_cons_of_pos (by exact hfirst), Option.getD_some, relative_of_below hbelow]
  · intro hnone
    have hfind : (includePaths.map fun start => relative cwd start path).find?
        (fun name => !Text.startsWith ".." name) = none := by
      rw [List.find?_eq_none]
      intro name hname
      obtain ⟨directory, hdirectory, rfl⟩ := List.mem_map.1 hname
      rw [names_iff]
      rintro ⟨rest, hbelow, hdotted⟩
      exact hdotted (hnone directory hdirectory rest hbelow)
    rw [schemaName, if_neg (by simp [hpath]), hfind, Option.getD_none]

/-- Of nested include paths the first one counts, and an include path beside the file does not. -/
theorem schemaName_below_protos :
    Normal "gen" ∧ Normal "protos" ∧ Normal "protos/v1/user.proto" ∧
      schemaName "/work" ["gen", "protos", ".", "protos/v1"] "protos/v1/user.proto" =
        .ok "v1/user.proto" ∧
      schemaName "/work" ["gen"] "protos/v1/user.proto" = .ok "protos/v1/user.proto" := by
  have hgen : Normal "gen" := .inr (by decide)
  have hprotos : Normal "protos" := .inr (by decide)
  have hfile : Normal "protos/v1/user.proto" := .inr (by decide)
  obtain ⟨hfirst, _, hnormal⟩ := schemaName_below_first "/work" "protos/v1/user.proto"
    ["gen", "protos", ".", "protos/v1"] (by decide)
  obtain ⟨_, hnone, _⟩ := schemaName_below_first "/work" "protos/v1/user.proto" ["gen"] (by decide)
  have hbelow : Below "/work" "protos" "protos/v1/user.proto" ["v1", "user.proto"] :=
    (hnormal _ _ hprotos hfile).2 (by decide)
  have hbeside : ∀ directory ∈ ["gen"], ∀ rest,
      Below "/work" directory "protos/v1/user.proto" rest → Dotted rest := by
    intro directory hdirectory rest hrest
    obtain rfl := List.mem_singleton.1 hdirectory
    have hhead := congrArg List.head? ((hnormal _ rest hgen hfile).1 hrest)
    have hgens : components "gen" = ["gen"] := by decide
    have hfiles : components "protos/v1/user.proto" = ["protos", "v1", "user.proto"] := by decide
    rw [hgens, hfiles] at hhead
    simp at hhead
  have hdotted : ¬ Dotted ["v1", "user.proto"] := by
    rintro ⟨first, hfirst, hdots⟩
    obtain rfl := Option.some.inj hfirst
    revert hdots
    decide
  refine ⟨hgen, hprotos, hfile, ?_, hnone hbeside⟩
  exact hfirst ["gen"] "protos" [".", "protos/v1"] _ rfl hbelow hdotted hbeside

/-- A directory whose name starts with two dots is taken for a way out of the include path. -/
theorem schemaName_misses_dotted_directory :
    Normal "protos" ∧ Normal "protos/..old/user.proto" ∧
      components "protos/..old/user.proto" = components "protos" ++ ["..old", "user.proto"] ∧
      joined ["..old", "user.proto"] = "..old/user.proto" ∧
      schemaName "/work" ["protos"] "protos/..old/user.proto" = .ok "protos/..old/user.proto" :=
  ⟨.inr (by decide), .inr (by decide), by decide, by decide, by decide⟩

end ProtoSchema.CommandLine.Path
