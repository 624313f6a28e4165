import Mathlib.Tactic
import Mathlib.Data.Int.Bitwise

/-!
# Little-endian bytes and two-word integers

Byte strings of fixed-width integers, least significant byte first, and the
decomposition of a 64-bit value into two 32-bit words: equality and masking go
word by word, the unsigned order is lexicographic with the high word first.
-/

namespace Seccompy.Lib

abbrev Byte := BitVec 8

/-- The `n` low bytes of `v`, least significant first. -/
def toLE : Nat → Nat → List Byte
  | 0, _ => []
  | n + 1, v => BitVec.ofNat 8 v :: toLE n (v / 256)

/-- The integer a little-endian byte string denotes. -/
def ofLE : List Byte → Nat
  | [] => 0
  | b :: bs => b.toNat + 256 * ofLE bs

@[simp] theorem length_toLE (n v : Nat) : (toLE n v).length = n := by
  induction n generalizing v with
  | zero => rfl
  | succ n ih => simp [toLE, ih]

theorem ofLE_toLE (n v : Nat) : ofLE (toLE n v) = v % 256 ^ n := by
  induction n generalizing v with
  | zero => simp [toLE, ofLE, Nat.mod_one]
  | succ n ih =>
    have byte : (BitVec.ofNat 8 v).toNat = v % 256 := by simp
    rw [toLE, ofLE, ih, byte, Nat.pow_succ', Nat.mod_mul]

theorem ofLE_toLE_of_lt {n v : Nat} (lt : v < 256 ^ n) : ofLE (toLE n v) = v := by
  rw [ofLE_toLE, Nat.mod_eq_of_lt lt]

theorem toLE_add (m n v : Nat) : toLE (m + n) v = toLE m v ++ toLE n (v / 256 ^ m) := by
  induction m generalizing v with
  | zero => simp [toLE]
  | succ m ih =>
    rw [Nat.succ_add, toLE, ih, toLE, Nat.div_div_eq_div_mul, Nat.pow_succ', List.cons_append]

theorem toLE_mod (n v : Nat) : toLE n (v % 256 ^ n) = toLE n v := by
  induction n generalizing v with
  | zero => rfl
  | succ n ih =>
    have byte : BitVec.ofNat 8 (v % 256 ^ (n + 1)) = BitVec.ofNat 8 v := by
      rw [← BitVec.toNat_inj, BitVec.toNat_ofNat, BitVec.toNat_ofNat]
      exact Nat.mod_mod_of_dvd v ⟨256 ^ n, Nat.pow_succ'⟩
    rw [toLE, toLE, byte, Nat.pow_succ', Nat.mod_mul_right_div_self, ih]

theorem toLE_ofLE (bytes : List Byte) : toLE bytes.length (ofLE bytes) = bytes := by
  induction bytes with
  | nil => rfl
  | cons b bytes ih =>
    have low : (b.toNat + 256 * ofLE bytes) / 256 = ofLE bytes := by
      have := b.isLt
      omega
    have byte : BitVec.ofNat 8 (b.toNat + 256 * ofLE bytes) = b := by
      rw [← BitVec.toNat_inj, BitVec.toNat_ofNat]
      have := b.isLt
      omega
    rw [ofLE, List.length_cons, toLE, low, byte, ih]

theorem ofLE_lt (bytes : List Byte) : ofLE bytes < 256 ^ bytes.length := by
  induction bytes with
  | nil => exact Nat.one_pos
  | cons b bytes ih =>
    have := b.isLt
    rw [ofLE, List.length_cons, Nat.pow_succ]
    omega

theorem ofLE_append_zeros (xs : List Byte) (n : Nat) :
    ofLE (xs ++ List.replicate n 0) = ofLE xs := by
  induction xs with
  | nil =>
    induction n with
    | zero => rfl
    | succ n ih =>
      rw [List.nil_append] at ih ⊢
      simpa [List.replicate_succ, ofLE] using ih
  | cons b xs ih => rw [List.cons_append, ofLE, ofLE, ih]

/-! ## Two words -/

/-- `v & 0xFFFFFFFF`. -/
def loWord (v : BitVec 64) : BitVec 32 := v.setWidth 32

/-- `(v >> 32) & 0xFFFFFFFF`. -/
def hiWord (v : BitVec 64) : BitVec 32 := (v >>> 32).setWidth 32

theorem toNat_loWord (v : BitVec 64) : (loWord v).toNat = v.toNat % 2 ^ 32 := by
  simp [loWord]

theorem toNat_hiWord (v : BitVec 64) : (hiWord v).toNat = v.toNat / 2 ^ 32 := by
  have := v.isLt
  simp only [hiWord, BitVec.toNat_setWidth, BitVec.toNat_ushiftRight, Nat.shiftRight_eq_div_pow]
  omega

theorem eq_iff_words (a b : BitVec 64) :
    a = b ↔ loWord a = loWord b ∧ hiWord a = hiWord b := by
  rw [← BitVec.toNat_inj, ← BitVec.toNat_inj, ← BitVec.toNat_inj, toNat_loWord, toNat_loWord,
    toNat_hiWord, toNat_hiWord]
  omega

theorem lt_iff_words (a b : BitVec 64) :
    a < b ↔ hiWord a < hiWord b ∨ hiWord a = hiWord b ∧ loWord a < loWord b := by
  rw [← BitVec.toNat_inj, BitVec.lt_def, BitVec.lt_def, BitVec.lt_def, toNat_loWord,
    toNat_loWord, toNat_hiWord, toNat_hiWord]
  omega

theorem le_iff_words (a b : BitVec 64) :
    a ≤ b ↔ hiWord a < hiWord b ∨ hiWord a = hiWord b ∧ loWord a ≤ loWord b := by
  rw [← BitVec.toNat_inj, BitVec.le_def, BitVec.lt_def, BitVec.le_def, toNat_loWord,
    toNat_loWord, toNat_hiWord, toNat_hiWord]
  omega

theorem loWord_and (a b : BitVec 64) : loWord (a &&& b) = loWord a &&& loWord b := by
  simp [loWord, BitVec.setWidth_and]

theorem hiWord_and (a b : BitVec 64) : hiWord (a &&& b) = hiWord a &&& hiWord b := by
  simp [hiWord, BitVec.setWidth_and, BitVec.ushiftRight_and_distrib]

/-- A 64-bit value in memory is its low word, then its high word. -/
theorem toLE_words (v : BitVec 64) :
    toLE 8 v.toNat = toLE 4 (loWord v).toNat ++ toLE 4 (hiWord v).toNat := by
  rw [toLE_add 4 4, toNat_loWord, toNat_hiWord]
  congr 1
  exact (toLE_mod 4 v.toNat).symm

/-! ## Integers in words -/

theorem toNat_ofInt_fits {w : Nat} {n : Int} (least : 0 ≤ n) (most : n < 2 ^ w) :
    ((BitVec.ofInt w n).toNat : Int) = n := by
  have small : n % ((2 ^ w : Nat) : Int) = n := Int.emod_eq_of_lt least (by push_cast; exact most)
  rw [BitVec.toNat_ofInt, small, Int.toNat_of_nonneg least]

/-- `n & 1`. -/
theorem land_one {n : Int} (least : 0 ≤ n) : n.land 1 = n % 2 := by
  obtain ⟨m, rfl⟩ := Int.eq_ofNat_of_zero_le least
  have low : Int.land (m : Int) 1 = ((m &&& 1 : Nat) : Int) := rfl
  rw [low, Nat.and_one_is_mod]
  rfl

theorem ldiff_two_pow_eq_zero {m k : Nat} (none : Nat.ldiff m (2 ^ k) = 0) :
    m = 0 ∨ m = 2 ^ k := by
  have only : ∀ i, m.testBit i = true → i = k := by
    intro i bit
    have masked : (Nat.ldiff m (2 ^ k)).testBit i = false := by rw [none, Nat.zero_testBit]
    by_contra other
    have apart : decide (k = i) = false := decide_eq_false fun same => other same.symm
    rw [Nat.testBit_ldiff, bit, Nat.testBit_two_pow, apart] at masked
    cases masked
  cases bit : m.testBit k with
  | true =>
    refine .inr (Nat.eq_of_testBit_eq fun i => ?_)
    rw [Nat.testBit_two_pow]
    by_cases same : k = i
    · rw [← same, bit]
      simp
    · cases other : m.testBit i with
      | true => exact absurd (only i other).symm same
      | false => simp [same]
  | false =>
    refine .inl (Nat.eq_of_testBit_eq fun i => ?_)
    rw [Nat.zero_testBit]
    cases other : m.testBit i with
    | true =>
      rw [only i other, bit] at other
      cases other
    | false => rfl

/-- `n & ~2 ** k` is zero for two integers only; a negative one has bits without end. -/
theorem land_lnot_two_pow (n : Int) (k : Nat) :
    n.land (Int.lnot (2 ^ k : Nat)) = 0 ↔ n = 0 ∨ n = (2 ^ k : Nat) := by
  have mask : Int.lnot (2 ^ k : Nat) = Int.negSucc (2 ^ k) := rfl
  rw [mask]
  cases n with
  | ofNat m =>
    have masked : Int.land (Int.ofNat m) (Int.negSucc (2 ^ k)) = (Nat.ldiff m (2 ^ k) : Int) := rfl
    rw [masked, Int.natCast_eq_zero, Int.ofNat_eq_natCast, Int.natCast_eq_zero, Int.natCast_inj]
    constructor
    · exact ldiff_two_pow_eq_zero
    · intro given
      rcases given with rfl | rfl
      · exact Nat.eq_of_testBit_eq fun i => by simp [Nat.testBit_ldiff]
      · exact Nat.eq_of_testBit_eq fun i => by simp [Nat.testBit_ldiff]
  | negSucc m =>
    have masked : Int.land (Int.negSucc m) (Int.negSucc (2 ^ k)) =
      Int.negSucc (m ||| 2 ^ k) := rfl
    rw [masked]
    constructor
    · intro zero
      cases zero
    · intro given
      rcases given with zero | same
      · cases zero
      · cases same

end Seccompy.Lib
