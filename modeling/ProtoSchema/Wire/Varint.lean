import ProtoSchema.Error

set_option autoImplicit false

/-! # Numbers in base 128

The wire format writes a natural number seven bits to a byte, lowest bits first; every byte but the
last has its top bit set. Reading takes the bytes it needs and returns the rest. -/

namespace ProtoSchema.Wire

/-- Read a number of at most `limit` bytes. -/
def readBase128 : (limit : Nat) → List UInt8 → Except WireFault (Nat × List UInt8)
  | 0, _ => .error .corrupt
  | _ + 1, [] => .error .corrupt
  | limit + 1, b :: bytes =>
    if b.toNat < 128 then .ok (b.toNat, bytes)
    else match readBase128 limit bytes with
      | .error e => .error e
      | .ok (n, rest) => .ok (b.toNat - 128 + 128 * n, rest)

/-- Read a number of at most ten bytes, of which 64 bits count. -/
def readVarint (bytes : List UInt8) : Except WireFault (Nat × List UInt8) :=
  match readBase128 10 bytes with
  | .error e => .error e
  | .ok (n, rest) => .ok (n % Nat.pow 2 64, rest)

/-- Read the length of a byte string, a number of at most five bytes. -/
def readLength (bytes : List UInt8) : Except WireFault (Nat × List UInt8) :=
  readBase128 5 bytes

/-- Write a number with as few bytes as possible. -/
def writeVarint (n : Nat) : List UInt8 :=
  if n < 128 then [UInt8.ofNat n]
  else UInt8.ofNat (n % 128 + 128) :: writeVarint (n / 128)

/-! ## Reading shortens the input -/

theorem length_of_readBase128 {limit : Nat} {bytes rest : List UInt8} {n : Nat}
    (h : readBase128 limit bytes = .ok (n, rest)) : rest.length < bytes.length := by
  induction limit generalizing bytes n with
  | zero => simp [readBase128] at h
  | succ limit ih =>
    cases bytes with
    | nil => simp [readBase128] at h
    | cons b bytes =>
      simp only [readBase128] at h
      split at h
      · simp only [Except.ok.injEq, Prod.mk.injEq] at h
        simp [h.2]
      · split at h
        · simp at h
        · rename_i hread
          simp only [Except.ok.injEq, Prod.mk.injEq] at h
          have := ih (h.2 ▸ hread)
          simp only [List.length_cons]
          omega

theorem length_of_readVarint {bytes rest : List UInt8} {n : Nat}
    (h : readVarint bytes = .ok (n, rest)) : rest.length < bytes.length := by
  simp only [readVarint] at h
  split at h
  · simp at h
  · rename_i hread
    simp only [Except.ok.injEq, Prod.mk.injEq] at h
    exact length_of_readBase128 (h.2 ▸ hread)

end ProtoSchema.Wire
