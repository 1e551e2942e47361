import ProtoSchema.Wire.Varint

set_option autoImplicit false

/-! # Records

A message in wire format is a sequence of records. Each starts with a tag, which holds the number of
a field and the wire type of the value that follows. Groups, which hold further records up to an end
tag, belong to no field that is read here; they are skipped, but they have to end. -/

namespace ProtoSchema.Wire

/-! ## Tags -/

/-- The wire types of values that stand for themselves. -/
inductive PlainType where
  | varint | fixed64 | bytes | fixed32
deriving DecidableEq

/-- The wire types. -/
inductive WireType where
  | plain (type : PlainType)
  | startGroup
  | endGroup
deriving DecidableEq

/-- The wire type with a given number. -/
def WireType.ofNumber? : Nat → Option WireType
  | 0 => some (.plain .varint)
  | 1 => some (.plain .fixed64)
  | 2 => some (.plain .bytes)
  | 3 => some .startGroup
  | 4 => some .endGroup
  | 5 => some (.plain .fixed32)
  | _ => none

/-- The start of a record. -/
structure Tag where
  field : Nat
  type : WireType
deriving DecidableEq

/-- Read a tag: a number of at most five bytes and 32 bits. -/
def readTag (bytes : List UInt8) : Except WireFault (Tag × List UInt8) :=
  match readBase128 5 bytes with
  | .error e => .error e
  | .ok (n, rest) =>
    match WireType.ofNumber? (n % 8) with
    | none => .error .corrupt
    | some type =>
      if n < Nat.pow 2 32 then .ok (⟨n / 8, type⟩, rest) else .error .corrupt

/-! ## Values -/

/-- The value of a record. The content of a group is not kept. -/
inductive WireValue where
  | varint (n : Nat)
  | fixed64 (n : Nat)
  | bytes (content : List UInt8)
  | fixed32 (n : Nat)
  | group
deriving DecidableEq

/-- A field number with a value. -/
structure Record where
  field : Nat
  value : WireValue
deriving DecidableEq

/-- The number that some bytes stand for, lowest byte first. -/
def littleEndian (bytes : List UInt8) : Nat :=
  bytes.foldr (fun b n => b.toNat + 256 * n) 0

/-- Split off exactly `count` bytes. -/
def takeBytes (count : Nat) (bytes : List UInt8) : Except WireFault (List UInt8 × List UInt8) :=
  if count ≤ bytes.length then .ok (bytes.take count, bytes.drop count) else .error .corrupt

/-- Read a value that stands for itself. -/
def readPlain (type : PlainType) (bytes : List UInt8) : Except WireFault (WireValue × List UInt8) :=
  match type with
  | .varint => (readVarint bytes).map fun r => (.varint r.1, r.2)
  | .fixed64 => (takeBytes 8 bytes).map fun r => (.fixed64 (littleEndian r.1), r.2)
  | .fixed32 => (takeBytes 4 bytes).map fun r => (.fixed32 (littleEndian r.1), r.2)
  | .bytes =>
    match readLength bytes with
    | .error e => .error e
    | .ok (length, rest) => (takeBytes length rest).map fun r => (.bytes r.1, r.2)

/-! ## Reading shortens the input -/

theorem length_of_readTag {bytes rest : List UInt8} {tag : Tag}
    (h : readTag bytes = .ok (tag, rest)) : rest.length < bytes.length := by
  simp only [readTag] at h
  split at h
  · simp at h
  · rename_i hread
    split at h
    · simp at h
    · split at h
      · simp only [Except.ok.injEq, Prod.mk.injEq] at h
        exact length_of_readBase128 (h.2 ▸ hread)
      · simp at h

private theorem eq_ok_of_map_eq_ok {α β : Type} {x : Except WireFault α} {f : α → β} {b : β}
    (h : x.map f = .ok b) : ∃ a, x = .ok a ∧ f a = b := by
  cases x with
  | error e => simp [Except.map] at h
  | ok a => exact ⟨a, rfl, by simpa [Except.map] using h⟩

private theorem length_of_takeBytes {count : Nat} {bytes : List UInt8}
    {r : List UInt8 × List UInt8} (h : takeBytes count bytes = .ok r) :
    r.2.length + count = bytes.length := by
  simp only [takeBytes] at h
  split at h
  · simp only [Except.ok.injEq] at h
    simp only [← h, List.length_drop]
    omega
  · simp at h

theorem length_of_readPlain {type : PlainType} {bytes rest : List UInt8} {value : WireValue}
    (h : readPlain type bytes = .ok (value, rest)) : rest.length < bytes.length := by
  cases type with
  | varint =>
    obtain ⟨r, hr, he⟩ := eq_ok_of_map_eq_ok h
    simp only [Prod.mk.injEq] at he
    exact he.2 ▸ length_of_readVarint hr
  | fixed64 =>
    obtain ⟨r, hr, he⟩ := eq_ok_of_map_eq_ok h
    simp only [Prod.mk.injEq] at he
    have := length_of_takeBytes hr
    rw [← he.2]
    omega
  | fixed32 =>
    obtain ⟨r, hr, he⟩ := eq_ok_of_map_eq_ok h
    simp only [Prod.mk.injEq] at he
    have := length_of_takeBytes hr
    rw [← he.2]
    omega
  | bytes =>
    simp only [readPlain] at h
    split at h
    · simp at h
    · rename_i hread
      obtain ⟨r, hr, he⟩ := eq_ok_of_map_eq_ok h
      simp only [Prod.mk.injEq] at he
      have := length_of_takeBytes hr
      have := length_of_readBase128 hread
      rw [← he.2]
      omega

/-! ## Groups and records -/

/-- Skip to the end of the given open groups, the innermost first. There have to be less than
    `depth` of them. Inside a group the field number zero is a number like any other. -/
def skipGroups (depth : Nat) : (opened : List Nat) → List UInt8 → Except WireFault (List UInt8)
  | [], bytes => .ok bytes
  | number :: opened, bytes =>
    match _h : readTag bytes with
    | .error e => .error e
    | .ok (⟨field, .endGroup⟩, rest) =>
      if field = number then skipGroups depth opened rest else .error .corrupt
    | .ok (⟨field, .startGroup⟩, rest) =>
      if opened.length + 2 < depth then skipGroups depth (field :: number :: opened) rest
      else .error .corrupt
    | .ok (⟨_, .plain type⟩, rest) =>
      match _hp : readPlain type rest with
      | .error e => .error e
      | .ok (_, rest) => skipGroups depth (number :: opened) rest
termination_by _ bytes => bytes.length
decreasing_by
  · exact length_of_readTag _h
  · exact length_of_readTag _h
  · exact Nat.lt_trans (length_of_readPlain _hp) (length_of_readTag _h)

theorem length_of_skipGroups {depth : Nat} {opened : List Nat} {bytes rest : List UInt8}
    (h : skipGroups depth opened bytes = .ok rest) : rest.length ≤ bytes.length := by
  fun_induction skipGroups depth opened bytes with
  | case1 bytes => simp_all
  | case2 => simp_all
  | case3 number opened bytes rest' hread ih =>
    exact Nat.le_trans (ih h) (Nat.le_of_lt (length_of_readTag hread))
  | case4 => simp_all
  | case5 number opened bytes field rest' hread _ ih =>
    exact Nat.le_trans (ih h) (Nat.le_of_lt (length_of_readTag hread))
  | case6 => simp_all
  | case7 => simp_all
  | case8 number opened bytes field type rest' hread value rest'' hplain ih =>
    exact Nat.le_trans (ih h) (Nat.le_of_lt
      (Nat.lt_trans (length_of_readPlain hplain) (length_of_readTag hread)))

/-- Read the value behind a tag. An end tag without its group has none. -/
def readValue (depth : Nat) (tag : Tag) (bytes : List UInt8) :
    Except WireFault (WireValue × List UInt8) :=
  match tag.type with
  | .endGroup => .error .corrupt
  | .startGroup =>
    if 1 < depth then (skipGroups depth [tag.field] bytes).map fun rest => (.group, rest)
    else .error .corrupt
  | .plain type => readPlain type bytes

/-- Read one record. Its field number is not zero. -/
def readRecord (depth : Nat) (bytes : List UInt8) : Except WireFault (Record × List UInt8) :=
  match readTag bytes with
  | .error e => .error e
  | .ok (tag, rest) =>
    if tag.field = 0 then .error .corrupt
    else (readValue depth tag rest).map fun r => (⟨tag.field, r.1⟩, r.2)

theorem length_of_readValue {depth : Nat} {tag : Tag} {bytes rest : List UInt8} {value : WireValue}
    (h : readValue depth tag bytes = .ok (value, rest)) : rest.length ≤ bytes.length := by
  simp only [readValue] at h
  split at h
  · simp at h
  · split at h
    · obtain ⟨r, hr, he⟩ := eq_ok_of_map_eq_ok h
      simp only [Prod.mk.injEq] at he
      exact he.2 ▸ length_of_skipGroups hr
    · simp at h
  · exact Nat.le_of_lt (length_of_readPlain h)

theorem length_of_readRecord {depth : Nat} {bytes rest : List UInt8} {record : Record}
    (h : readRecord depth bytes = .ok (record, rest)) : rest.length < bytes.length := by
  simp only [readRecord] at h
  split at h
  · simp at h
  · rename_i hread
    split at h
    · simp at h
    · obtain ⟨r, hr, he⟩ := eq_ok_of_map_eq_ok h
      simp only [Prod.mk.injEq] at he
      exact he.2 ▸ Nat.lt_of_le_of_lt (length_of_readValue hr) (length_of_readTag hread)

/-- Read the records of a message one after the other, each into what has been read so far. The
    first fault in reading order decides. -/
def readFields {α : Type} (depth : Nat) (step : α → Record → Except WireFault α)
    (bytes : List UInt8) (a : α) : Except WireFault α :=
  if bytes.isEmpty then .ok a
  else match _h : readRecord depth bytes with
    | .error e => .error e
    | .ok (record, rest) =>
      match step a record with
      | .error e => .error e
      | .ok a => readFields depth step rest a
termination_by bytes.length
decreasing_by exact length_of_readRecord _h

end ProtoSchema.Wire
