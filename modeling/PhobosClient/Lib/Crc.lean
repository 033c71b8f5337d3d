import Mathlib.Data.List.Basic

/-!
# Crc — reflected cyclic redundancy checks, bit by bit

The register of a reflected CRC moves right by one place for every bit of the message, which is
read from the lowest bit of each word on; when the bit differs from the one that falls out, the
polynomial is added. `register` is that definition over any register width.

A table takes a whole word at once: with words as wide as the register, only the sum of register
and word counts (`foldl_wordBits`), so one word of the message is one look at a table of the
registers after each single word.
-/

namespace Crc

variable {w : Nat}

/-- The register after one more bit of the message. -/
def bitStep (poly crc : BitVec w) (bit : Bool) : BitVec w :=
  let shifted := crc >>> 1
  if crc.getLsbD 0 ^^ bit then shifted ^^^ poly else shifted

/-- The lowest `n` bits of a word, the lowest first. -/
def lowBits (word : BitVec w) (n : Nat) : List Bool := (List.range n).map word.getLsbD

def wordBits (word : BitVec w) : List Bool := lowBits word w

/-- The register after a message, from an initial value. -/
def register (poly init : BitVec w) (message : List (BitVec w)) : BitVec w :=
  (message.flatMap wordBits).foldl (bitStep poly) init

variable (poly : BitVec w)

theorem lowBits_succ (word : BitVec w) (n : Nat) :
    lowBits word (n + 1) = word.getLsbD 0 :: lowBits (word >>> 1) n := by
  have hshift : ∀ i, (word >>> 1).getLsbD i = word.getLsbD (i + 1) := by
    intro i
    rw [BitVec.getLsbD_ushiftRight, Nat.add_comm]
  simp [lowBits, List.range_succ_eq_map, Function.comp_def, hshift]

/-- A bit pattern may be added to the register or to the word that comes in. -/
theorem bitStep_xor (crc d : BitVec w) (bit : Bool) :
    bitStep poly (crc ^^^ d) bit = bitStep poly crc (d.getLsbD 0 ^^ bit) ^^^ (d >>> 1) := by
  unfold bitStep
  simp only [BitVec.getLsbD_xor, BitVec.ushiftRight_xor_distrib, Bool.xor_assoc]
  split
  · rw [BitVec.xor_assoc, BitVec.xor_comm (d >>> 1), ← BitVec.xor_assoc]
  · rfl

/-- The same over the low bits of a word. What is left of the pattern stays in the register.
Induction on the number of bits, for every register, word and pattern. -/
theorem foldl_lowBits_xor (crc d word : BitVec w) (n : Nat) :
    (lowBits word n).foldl (bitStep poly) (crc ^^^ d)
      = (lowBits (d ^^^ word) n).foldl (bitStep poly) crc ^^^ (d >>> n) := by
  induction n generalizing crc d word with
  | zero => simp [lowBits]
  | succ n ih =>
    rw [lowBits_succ, lowBits_succ, List.foldl_cons, List.foldl_cons, bitStep_xor, ih,
      BitVec.ushiftRight_xor_distrib, BitVec.getLsbD_xor, ← BitVec.shiftRight_add,
      Nat.add_comm 1 n]

/-- **One word at a time**: register and word count by their sum only. -/
theorem foldl_wordBits (crc word : BitVec w) :
    (wordBits word).foldl (bitStep poly) crc
      = (wordBits (crc ^^^ word)).foldl (bitStep poly) 0#w := by
  have h := foldl_lowBits_xor poly 0#w crc word w
  rwa [BitVec.zero_xor, BitVec.ushiftRight_eq_zero (Nat.le_refl w), BitVec.xor_zero] at h

/-- The register after one more word. -/
theorem register_concat (init : BitVec w) (message : List (BitVec w)) (word : BitVec w) :
    register poly init (message ++ [word])
      = (wordBits word).foldl (bitStep poly) (register poly init message) := by
  simp [register]

end Crc
