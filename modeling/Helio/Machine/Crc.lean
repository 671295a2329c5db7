import Mathlib.Data.List.Basic
import Mathlib.Logic.Function.Iterate

/-! # Remainders of a shift register

A reflected cyclic redundancy check shifts its register once for each bit of a message, least significant
bit first. The register is linear over exclusive or, and a polynomial with its top bit set makes a shift
injective. So a run of bits that fits in the register never leaves it empty, nor does anything that only
shifts it on.
-/

namespace Helio.Crc

variable {w : ℕ} (poly : BitVec w)

/-- The bits of a word, least significant first. -/
def bitsOf {n : ℕ} (word : BitVec n) : List Bool := (List.range n).map word.getLsbD

/-- The word of these bits, as far as it goes. -/
def wordOf : List Bool → BitVec w
  | [] => 0#w
  | bit :: rest => (BitVec.ofBool bit).setWidth w ^^^ wordOf rest <<< 1

/-- One shift of the register. -/
def shift (c : BitVec w) : BitVec w := if c.getLsbD 0 then c >>> 1 ^^^ poly else c >>> 1

def feed (c : BitVec w) (bit : Bool) : BitVec w := shift poly (c ^^^ (BitVec.ofBool bit).setWidth w)

/-- What a message leaves in the register. -/
def remainder (c : BitVec w) (bits : List Bool) : BitVec w := bits.foldl (feed poly) c

section Shift

variable {poly} {c d : BitVec w}

theorem shift_xor : shift poly (c ^^^ d) = shift poly c ^^^ shift poly d := by
  unfold shift
  rw [BitVec.getLsbD_xor, BitVec.ushiftRight_xor_distrib]
  cases c.getLsbD 0 <;> cases d.getLsbD 0
  · rfl
  · exact BitVec.xor_assoc ..
  · simp only [Bool.xor_false, if_true, Bool.false_eq_true, if_false]
    rw [BitVec.xor_assoc, BitVec.xor_comm (d >>> 1), ← BitVec.xor_assoc]
  · simp only [Bool.xor_self, Bool.false_eq_true, if_false, if_true]
    rw [BitVec.xor_comm (d >>> 1), BitVec.xor_assoc, ← BitVec.xor_assoc poly, BitVec.xor_self, BitVec.zero_xor]

theorem shift_zero : shift poly 0#w = 0#w := by simp [shift]

/-- The top bit of a shifted register tells the bit that was shifted out. -/
theorem shift_eq_zero (top : poly.msb = true) : shift poly c = 0#w ↔ c = 0#w := by
  constructor
  · intro zero
    have low : c.getLsbD 0 = false := by
      by_contra set
      rw [Bool.not_eq_false] at set
      have bit := congrArg BitVec.msb zero
      rw [shift, if_pos set, BitVec.msb_xor, top, BitVec.msb_ushiftRight] at bit
      simp at bit
    rw [shift, low, if_neg Bool.false_ne_true] at zero
    apply BitVec.eq_of_getLsbD_eq
    intro i inside
    cases i with
    | zero => rw [low, BitVec.getLsbD_zero]
    | succ i =>
      have bit := congrArg (fun word : BitVec w => word.getLsbD i) zero
      rw [BitVec.getLsbD_ushiftRight, Nat.add_comm, BitVec.getLsbD_zero] at bit
      rw [bit, BitVec.getLsbD_zero]
  · rintro rfl
    exact shift_zero

theorem shifts_eq_zero (top : poly.msb = true) (n : ℕ) : (shift poly)^[n] c = 0#w ↔ c = 0#w := by
  induction n generalizing c with
  | zero => rfl
  | succ n ih => rw [Function.iterate_succ_apply, ih, shift_eq_zero top]

/-- Nothing is lost of a word that is shifted up and down again. -/
theorem shift_shiftLeft (room : c.msb = false) : shift poly (c <<< 1) = c := by
  have low : (c <<< 1).getLsbD 0 = false := by simp
  rw [shift, low, if_neg Bool.false_ne_true]
  apply BitVec.eq_of_getLsbD_eq
  intro i inside
  rw [BitVec.getLsbD_ushiftRight, BitVec.getLsbD_shiftLeft]
  rcases Nat.lt_or_ge (1 + i) w with below | top
  · simp [below]
  · obtain rfl : i = w - 1 := by omega
    rw [BitVec.msb_eq_getLsbD_last] at room
    simp [room]

end Shift

section Words

theorem getLsbD_wordOf {bits : List Bool} (i : ℕ) (inside : i < w) :
    (wordOf bits : BitVec w).getLsbD i = bits.getD i false := by
  induction bits generalizing i with
  | nil => simp [wordOf]
  | cons bit rest ih =>
    rw [wordOf, BitVec.getLsbD_xor, BitVec.getLsbD_setWidth, BitVec.getLsbD_shiftLeft]
    cases i with
    | zero => simp [inside]
    | succ i => simp [inside, ih i (by omega)]

/-- A word is its bits, as far as the register holds them. -/
theorem wordOf_bitsOf {n : ℕ} (word : BitVec n) : (wordOf (bitsOf word) : BitVec w) = word.setWidth w := by
  apply BitVec.eq_of_getLsbD_eq
  intro i inside
  rw [getLsbD_wordOf i inside, BitVec.getLsbD_setWidth, bitsOf, List.getD_eq_getElem?_getD, List.getElem?_map]
  rcases Nat.lt_or_ge i n with below | above
  · simp [inside, below]
  · simp [inside, above]

theorem bitsOf_length {n : ℕ} (word : BitVec n) : (bitsOf word).length = n := by
  rw [bitsOf, List.length_map, List.length_range]

/-- The low word's bits come first. -/
theorem bitsOf_append {m n : ℕ} (high : BitVec m) (low : BitVec n) :
    bitsOf (high ++ low) = bitsOf low ++ bitsOf high := by
  have places : List.range (m + n) = List.range n ++ (List.range m).map (n + ·) := by
    rw [Nat.add_comm, List.range_add]
  rw [bitsOf, places, List.map_append, List.map_map]
  congr 1
  · apply List.map_congr_left
    intro i inside
    rw [BitVec.getLsbD_append, if_pos (List.mem_range.mp inside)]
  · apply List.map_congr_left
    intro i inside
    rw [Function.comp_apply, BitVec.getLsbD_append, if_neg (by omega), Nat.add_sub_cancel_left]

end Words

section Remainder

variable {poly} {c d : BitVec w} {bits more : List Bool}

theorem remainder_append : remainder poly c (bits ++ more) = remainder poly (remainder poly c bits) more :=
  List.foldl_append

/-- Bits that fit in the register may be taken in at once. -/
theorem remainder_word (fits : bits.length ≤ w) :
    remainder poly c bits = (shift poly)^[bits.length] (c ^^^ wordOf bits) := by
  induction bits generalizing c with
  | nil => simp [remainder, wordOf]
  | cons bit rest ih =>
    rw [List.length_cons] at fits
    have room : (wordOf rest : BitVec w).msb = false := by
      rw [BitVec.msb_eq_getLsbD_last, getLsbD_wordOf _ (by omega), List.getD_eq_getElem?_getD,
        List.getElem?_eq_none (by omega)]
      rfl
    have later := @ih (feed poly c bit) (by omega)
    rw [remainder, List.foldl_cons, ← remainder, later, List.length_cons, Function.iterate_succ_apply, wordOf, feed,
      ← BitVec.xor_assoc, @shift_xor _ _ _ (wordOf rest <<< 1), shift_shiftLeft room]

/-- The register is linear in what it holds and what it takes in. -/
theorem remainder_xor (size : bits.length = more.length) :
    remainder poly (c ^^^ d) (List.zipWith xor bits more) = remainder poly c bits ^^^ remainder poly d more := by
  induction bits generalizing c d more with
  | nil =>
    obtain rfl := List.length_eq_zero_iff.mp size.symm
    rfl
  | cons bit bits ih =>
    cases more with
    | nil => cases size
    | cons other more =>
      have step : feed poly (c ^^^ d) (xor bit other) = feed poly c bit ^^^ feed poly d other := by
        rw [feed, feed, feed, ← shift_xor]
        congr 1
        apply BitVec.eq_of_getLsbD_eq
        intro i inside
        simp only [BitVec.getLsbD_xor, BitVec.getLsbD_setWidth, BitVec.getLsbD_ofBool]
        cases c.getLsbD i <;> cases d.getLsbD i <;> cases bit <;> cases other <;> simp [inside]
      rw [List.zipWith_cons_cons, remainder, List.foldl_cons, step]
      exact ih (Nat.succ.inj size)

/-- Bits that are not set only shift the register on. -/
theorem remainder_clear (clear : ∀ bit ∈ bits, bit = false) :
    remainder poly c bits = (shift poly)^[bits.length] c := by
  induction bits generalizing c with
  | nil => rfl
  | cons bit bits ih =>
    obtain ⟨rfl, rest⟩ := List.forall_mem_cons.mp clear
    rw [remainder, List.foldl_cons, List.length_cons, Function.iterate_succ_apply]
    have step : feed poly c false = shift poly c := by simp [feed]
    rw [step]
    exact ih rest

/-- A run of bits no longer than the register that are not all clear leaves something in it, whatever clear bits
come before and after. -/
theorem remainder_burst (top : poly.msb = true) {before run after : List Bool} (fits : run.length ≤ w)
    (set : true ∈ run) (clearBefore : ∀ bit ∈ before, bit = false) (clearAfter : ∀ bit ∈ after, bit = false) :
    remainder poly 0#w (before ++ run ++ after) ≠ 0#w := by
  rw [remainder_append, remainder_append, remainder_clear clearBefore, remainder_clear clearAfter, remainder_word fits]
  have start : (shift poly)^[before.length] 0#w = 0#w := (shifts_eq_zero top _).mpr rfl
  rw [start, BitVec.zero_xor, Ne, shifts_eq_zero top, shifts_eq_zero top]
  intro zero
  obtain ⟨i, inside, here⟩ := List.getElem_of_mem set
  have bit := @getLsbD_wordOf w run i (by omega)
  rw [zero, BitVec.getLsbD_zero, List.getD_eq_getElem?_getD, List.getElem?_eq_getElem inside, here] at bit
  cases bit

end Remainder

end Helio.Crc
