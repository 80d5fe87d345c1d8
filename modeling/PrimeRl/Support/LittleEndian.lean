import Mathlib.Algebra.Ring.Int.Defs
import Mathlib.Algebra.Ring.Nat
import Mathlib.Data.List.Basic
import PrimeRl.Support.SignedWord

/-!
# Words as bytes

A number is stored in a fixed count of bytes, least significant first, and a
signed word of 64 bits in eight. Words that fit are read back as they were
written and bytes are written back as they were read.
-/

namespace LittleEndian

/-- The given count of low bytes of a number. -/
def bytes : Nat → Nat → List UInt8
  | 0, _ => []
  | width + 1, number => UInt8.ofNat number :: bytes width (number / 256)

/-- The number that bytes stand for. -/
def number : List UInt8 → Nat
  | [] => 0
  | byte :: rest => byte.toNat + 256 * number rest

theorem bytes_length (width value : Nat) : (bytes width value).length = width := by
  induction width generalizing value with
  | zero => rfl
  | succ width inductionHypothesis => rw [bytes, List.length_cons, inductionHypothesis]

/-- Only what the bytes cannot hold is lost. -/
theorem number_bytes (width value : Nat) : number (bytes width value) = value % 256 ^ width := by
  induction width generalizing value with
  | zero => rw [bytes, number, Nat.pow_zero, Nat.mod_one]
  | succ width inductionHypothesis =>
    have low : (UInt8.ofNat value).toNat = value % 256 := UInt8.toNat_ofNat'
    rw [bytes, number, inductionHypothesis, low, Nat.pow_succ, Nat.mul_comm (256 ^ width) 256,
      Nat.mod_mul]

theorem number_lt (listed : List UInt8) : number listed < 256 ^ listed.length := by
  induction listed with
  | nil => exact Nat.one_pos
  | cons byte rest inductionHypothesis =>
    have small : byte.toNat < 256 := byte.toNat_lt
    rw [number, List.length_cons, Nat.pow_succ]
    omega

theorem bytes_number (listed : List UInt8) : bytes listed.length (number listed) = listed := by
  induction listed with
  | nil => rfl
  | cons byte rest inductionHypothesis =>
    have small : byte.toNat < 256 := byte.toNat_lt
    have low : UInt8.ofNat (byte.toNat + 256 * number rest) = byte := by
      apply UInt8.toNat_inj.mp
      rw [UInt8.toNat_ofNat']
      omega
    have high : (byte.toNat + 256 * number rest) / 256 = number rest := by omega
    rw [List.length_cons, number, bytes, low, high, inductionHypothesis]

end LittleEndian

namespace SignedWord

/-- The eight bytes of a word. -/
def toBytes (value : Int) : List UInt8 := LittleEndian.bytes 8 (value % 2 ^ 64).toNat

def ofBytes (listed : List UInt8) : Int := wrap (LittleEndian.number listed)

theorem toBytes_length (value : Int) : (toBytes value).length = 8 :=
  LittleEndian.bytes_length 8 _

theorem ofBytes_toBytes {value : Int} (fits : Fits value) : ofBytes (toBytes value) = value := by
  have below : (value % 2 ^ 64).toNat < 256 ^ 8 := by omega
  have cast : (((value % 2 ^ 64).toNat : Nat) : Int) = value % 2 ^ 64 := by omega
  rw [ofBytes, toBytes, LittleEndian.number_bytes, Nat.mod_eq_of_lt below, cast, wrap]
  exact (Int.emod_bmod value (2 ^ 64)).trans (wrap_of_fits fits)

theorem toBytes_ofBytes {listed : List UInt8} (length : listed.length = 8) :
    toBytes (ofBytes listed) = listed := by
  have below := LittleEndian.number_lt listed
  rw [length] at below
  have residue : wrap (LittleEndian.number listed) % 2 ^ 64 = LittleEndian.number listed := by
    rw [wrap]
    refine (Int.bmod_emod).trans ?_
    omega
  have whole := LittleEndian.bytes_number listed
  rw [length] at whole
  rw [toBytes, ofBytes, residue, Int.toNat_natCast, whole]

theorem fits_ofBytes (listed : List UInt8) : Fits (ofBytes listed) := by
  have low := Int.le_bmod (x := (LittleEndian.number listed : Int)) (m := 2 ^ 64) (by decide)
  have high := Int.bmod_lt (x := (LittleEndian.number listed : Int)) (m := 2 ^ 64) (by decide)
  constructor
  · simp only [lowest, ofBytes, wrap]
    omega
  · simp only [highest, ofBytes, wrap]
    omega

/-! ## Arrays of words -/

def writeWords (values : List Int) : List UInt8 := values.flatMap toBytes

/-- The given count of words from the front. -/
def readWords : Nat → List UInt8 → List Int
  | 0, _ => []
  | count + 1, listed => ofBytes (listed.take 8) :: readWords count (listed.drop 8)

theorem readWords_length (count : Nat) (listed : List UInt8) :
    (readWords count listed).length = count := by
  induction count generalizing listed with
  | zero => rfl
  | succ count inductionHypothesis => rw [readWords, List.length_cons, inductionHypothesis]

theorem fits_readWords (count : Nat) (listed : List UInt8) :
    ∀ value ∈ readWords count listed, Fits value := by
  induction count generalizing listed with
  | zero => exact fun value impossible => absurd impossible List.not_mem_nil
  | succ count inductionHypothesis =>
    exact List.forall_mem_cons.mpr ⟨fits_ofBytes _, inductionHypothesis _⟩

theorem writeWords_length (values : List Int) : (writeWords values).length = 8 * values.length := by
  induction values with
  | nil => rfl
  | cons value rest inductionHypothesis =>
    rw [writeWords, List.flatMap_cons, List.length_append, toBytes_length, List.length_cons,
      Nat.mul_succ, Nat.add_comm]
    exact congrArg (· + 8) inductionHypothesis

theorem readWords_writeWords (values : List Int) (fits : ∀ value ∈ values, Fits value) :
    readWords values.length (writeWords values) = values := by
  induction values with
  | nil => rfl
  | cons value rest inductionHypothesis =>
    obtain ⟨here, later⟩ := List.forall_mem_cons.mp fits
    have front : (toBytes value ++ rest.flatMap toBytes).take 8 = toBytes value :=
      List.take_left' (toBytes_length value)
    have back : (toBytes value ++ rest.flatMap toBytes).drop 8 = rest.flatMap toBytes :=
      List.drop_left' (toBytes_length value)
    rw [List.length_cons, writeWords, List.flatMap_cons, readWords, front, back, ofBytes_toBytes here]
    exact congrArg (value :: ·) (inductionHypothesis later)

theorem writeWords_readWords (count : Nat) (listed : List UInt8) (length : listed.length = 8 * count) :
    writeWords (readWords count listed) = listed := by
  induction count generalizing listed with
  | zero => exact (List.eq_nil_of_length_eq_zero length).symm
  | succ count inductionHypothesis =>
    have first : (listed.take 8).length = 8 := by
      rw [List.length_take]
      omega
    have rest : (listed.drop 8).length = 8 * count := by
      rw [List.length_drop]
      omega
    rw [readWords, writeWords, List.flatMap_cons, toBytes_ofBytes first]
    calc
      listed.take 8 ++ (readWords count (listed.drop 8)).flatMap toBytes =
          listed.take 8 ++ listed.drop 8 := congrArg _ (inductionHypothesis _ rest)
      _ = listed := List.take_append_drop 8 listed

/-- Words are read across a joint between words. -/
theorem readWords_append (first second : Nat) (front back : List UInt8)
    (length : front.length = 8 * first) :
    readWords (first + second) (front ++ back) = readWords first front ++ readWords second back := by
  induction first generalizing front with
  | zero =>
    rw [List.eq_nil_of_length_eq_zero length, Nat.zero_add]
    rfl
  | succ first inductionHypothesis =>
    have long : 8 ≤ front.length := by omega
    have rest : (front.drop 8).length = 8 * first := by
      rw [List.length_drop]
      omega
    rw [Nat.succ_add_eq_add_succ, Nat.add_succ, readWords, readWords, List.take_append_of_le_length long,
      List.drop_append_of_le_length long, inductionHypothesis _ rest]
    rfl

/-- Bytes with all bits set are words of value -1. -/
theorem readWords_filler (count : Nat) :
    readWords count (List.replicate (8 * count) 255) = List.replicate count (-1) := by
  induction count with
  | zero => rfl
  | succ count inductionHypothesis =>
    have split : List.replicate (8 * (count + 1)) (255 : UInt8) =
        List.replicate 8 255 ++ List.replicate (8 * count) 255 := by
      rw [List.replicate_append_replicate]
      congr 1
      omega
    have one : ofBytes (List.replicate 8 255) = -1 := by decide
    rw [split, readWords, List.take_left' List.length_replicate, List.drop_left' List.length_replicate,
      one, inductionHypothesis]
    rfl

end SignedWord
