import Helio.Model.Settings
import Mathlib.Tactic.Ring

/-! # Numbers in decimal texts

A reader of digits accepts a text exactly when it has digits only and its number is within the bound.
The decimal digits of a number are read back as the number.
-/

namespace Helio.Config

/-- Digits below the base write a number below a power of it. -/
theorem foldl_lt {value : Char → ℕ} {base : ℕ} {text : List Char} (small : ∀ c ∈ text, value c < base) (n : ℕ) :
    text.foldl (fun n c => base * n + value c) n < (n + 1) * base ^ text.length := by
  induction text generalizing n with
  | nil => simp
  | cons c rest ih =>
    have first := small c List.mem_cons_self
    rw [List.foldl_cons, List.length_cons, pow_succ']
    calc
      rest.foldl (fun n c => base * n + value c) (base * n + value c)
        < (base * n + value c + 1) * base ^ rest.length :=
        ih (fun other member => small other (List.mem_cons_of_mem _ member)) _
      _ ≤ (base * n + base) * base ^ rest.length := Nat.mul_le_mul_right _ (by omega)
      _ = (n + 1) * (base * base ^ rest.length) := by ring

theorem digit_lt {c : Char} (digit : c.isDigit = true) : c.toNat - '0'.toNat < 10 := by
  simp only [Char.isDigit, Bool.and_eq_true, decide_eq_true_eq] at digit
  have high := UInt32.le_iff_toNat_le.mp digit.2
  change c.toNat ≤ 57 at high
  change c.toNat - 48 < 10
  omega

theorem ofDigitChars_lt {text : List Char} (digits : ∀ c ∈ text, c.isDigit = true) :
    Nat.ofDigitChars 10 text 0 < 10 ^ text.length := by
  have bound := foldl_lt (fun c member => digit_lt (digits c member)) 0
  rwa [zero_add, one_mul, ← Nat.ofDigitChars_eq_foldl] at bound

theorem le_ofDigitChars (text : List Char) (n : ℕ) : n ≤ Nat.ofDigitChars 10 text n := by
  rw [Nat.ofDigitChars_eq_ofDigitChars_zero]
  calc
    n ≤ 10 ^ text.length * n := Nat.le_mul_of_pos_left n (Nat.pow_pos (by decide))
    _ ≤ _ := Nat.le_add_right _ _

/-- Digits within the bound are read as the number they write. -/
theorem parseUintFrom_digits {bound : ℕ} {text : List Char} (digits : ∀ c ∈ text, c.isDigit = true) {n : ℕ}
    (within : Nat.ofDigitChars 10 text n ≤ bound) : parseUintFrom bound n text = .ok (Nat.ofDigitChars 10 text n) := by
  induction text generalizing n with
  | nil => rfl
  | cons c rest ih =>
    rw [Nat.ofDigitChars_cons] at within ⊢
    have first := le_ofDigitChars rest (10 * n + (c.toNat - '0'.toNat))
    rw [parseUintFrom, if_pos (digits c List.mem_cons_self)]
    dsimp only
    rw [if_neg (by omega)]
    exact ih (fun other member => digits other (List.mem_cons_of_mem _ member)) within

theorem parseUintFrom_le {bound n value : ℕ} {text : List Char} (start : n ≤ bound)
    (read : parseUintFrom bound n text = .ok value) : value ≤ bound := by
  induction text generalizing n with
  | nil => cases read; exact start
  | cons c rest ih =>
    rw [parseUintFrom] at read
    split at read
    · dsimp only at read
      split at read
      · cases read
      · exact ih (by omega) read
    · cases read

theorem isDigit_of_parseUintFrom {bound n value : ℕ} {text : List Char}
    (read : parseUintFrom bound n text = .ok value) :
    (∀ c ∈ text, c.isDigit = true) ∧ value = Nat.ofDigitChars 10 text n := by
  induction text generalizing n with
  | nil => cases read; exact ⟨fun _ member => (nomatch member), rfl⟩
  | cons c rest ih =>
    rw [parseUintFrom] at read
    split at read
    next digit =>
      dsimp only at read
      split at read
      · cases read
      · obtain ⟨digits, same⟩ := ih read
        rw [Nat.ofDigitChars_cons]
        exact ⟨List.forall_mem_cons.mpr ⟨digit, digits⟩, same⟩
    · cases read

/-- A text is read exactly when it has digits only and its number is within the bound. -/
theorem parseUintFrom_ok {bound value : ℕ} {text : List Char} : parseUintFrom bound 0 text = .ok value ↔
    (∀ c ∈ text, c.isDigit = true) ∧ value = Nat.ofDigitChars 10 text 0 ∧ value ≤ bound := by
  constructor
  · intro read
    obtain ⟨digits, same⟩ := isDigit_of_parseUintFrom read
    exact ⟨digits, same, parseUintFrom_le (Nat.zero_le _) read⟩
  · rintro ⟨digits, rfl, within⟩
    exact parseUintFrom_digits digits within

theorem parseUint_le {text : String} {bits value : ℕ} (read : parseUint text bits = .ok value) :
    value ≤ 2 ^ bits - 1 := by
  rw [parseUint] at read
  split at read
  next parsed found =>
    cases read
    split at found
    · cases found
    · exact parseUintFrom_le (Nat.zero_le _) found
  · cases read

/-- A number is read back from its decimal digits. -/
theorem parseUint_toString {bits n : ℕ} (within : n ≤ 2 ^ bits - 1) : parseUint (toString n) bits = .ok n := by
  have whole : parseUintFrom (2 ^ bits - 1) 0 (Nat.toDigits 10 n) = .ok n := by
    rw [parseUintFrom_digits (fun c member => Nat.isDigit_of_mem_toDigits (by decide) (by decide) member)]
    · rw [Nat.ofDigitChars_ten_toDigits]
    · rwa [Nat.ofDigitChars_ten_toDigits]
  rw [parseUint, Nat.toString_eq_repr, if_neg Nat.repr_ne_empty, Nat.toList_repr, whole]

end Helio.Config
