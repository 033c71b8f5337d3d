import Mathlib.Data.List.GetD

/-!
# ByteFields — fixed-width fields in byte lists

Little- and big-endian integer fields as natural numbers, written to and read from
`UInt8`s. Reading uses plain arithmetic (`lo + 256 * hi`), so a fact about a field is a fact
for `omega` once the bytes are turned into numbers.
-/

namespace ByteFields

/-- `u16::from_le_bytes`. -/
def u16OfLe (lo hi : UInt8) : Nat := lo.toNat + 256 * hi.toNat

/-- `u16::from_be_bytes`. -/
def u16OfBe (hi lo : UInt8) : Nat := lo.toNat + 256 * hi.toNat

/-- The big-endian field at positions `i..i + 2` of a buffer. -/
def u16At (buf : List UInt8) (i : Nat) : Nat := u16OfBe (buf.getD i 0) (buf.getD (i + 1) 0)

/-- `u32::from_le_bytes`. -/
def u32OfLe (b0 b1 b2 b3 : UInt8) : Nat :=
  b0.toNat + 256 * b1.toNat + 65536 * b2.toNat + 16777216 * b3.toNat

/-- The low byte of `n`. -/
def lowByte (n : Nat) : UInt8 := UInt8.ofNat n

/-- The second byte of `n`. -/
def highByte (n : Nat) : UInt8 := UInt8.ofNat (n / 256)

/-- `(n as u16).to_be_bytes()`. -/
def u16ToBe (n : Nat) : List UInt8 := [highByte n, lowByte n]

@[simp] theorem length_u16ToBe (n : Nat) : (u16ToBe n).length = 2 := rfl

@[simp] theorem toNat_lowByte (n : Nat) : (lowByte n).toNat = n % 256 := by
  simp [lowByte]

@[simp] theorem toNat_highByte (n : Nat) : (highByte n).toNat = n / 256 % 256 := by
  simp [highByte]

/-- A number that fits sixteen bits survives its two bytes, little-endian. -/
theorem u16OfLe_low_high {n : Nat} (h : n < 65536) : u16OfLe (lowByte n) (highByte n) = n := by
  rw [u16OfLe, toNat_lowByte, toNat_highByte]
  omega

/-- A number that fits sixteen bits survives its two bytes, big-endian. -/
theorem u16OfBe_high_low {n : Nat} (h : n < 65536) : u16OfBe (highByte n) (lowByte n) = n := by
  rw [u16OfBe, toNat_lowByte, toNat_highByte]
  omega

/-- A field lies in the front of a buffer that is long enough. -/
theorem u16At_append {front : List UInt8} {i : Nat} (h : i + 2 ≤ front.length)
    (rest : List UInt8) : u16At (front ++ rest) i = u16At front i := by
  rw [u16At, u16At, List.getD_append _ _ _ _ (by omega), List.getD_append _ _ _ _ (by omega)]

@[simp] theorem u32OfLe_zero_upper (b : UInt8) : u32OfLe b 0 0 0 = b.toNat := by
  simp [u32OfLe]

end ByteFields
