import Helio.Machine.Bytes
import Mathlib.Data.List.GetD
import Mathlib.Data.List.Nodup

/-! # Base64 without padding

Three bytes are four characters of an alphabet of 64, and one or two bytes that are left over are two or
three. Reading skips line breaks, and takes no notice of the bits that a last short group has too many.
-/

namespace Helio.Base64

def isLineBreak (c : Char) : Bool := c = '\r' || c = '\n'

structure Alphabet where
  chars : List Char
  size : chars.length = 64
  nodup : chars.Nodup
  solid : ∀ c ∈ chars, isLineBreak c = false

/-- The digits of six bits of whole groups of three bytes, most significant first. -/
def digits : List Byte → List ℕ
  | [] => []
  | [a] => [a.toNat / 4, a.toNat % 4 * 16]
  | [a, b] => [a.toNat / 4, a.toNat % 4 * 16 + b.toNat / 16, b.toNat % 16 * 4]
  | a :: b :: c :: rest =>
    a.toNat / 4 :: (a.toNat % 4 * 16 + b.toNat / 16) :: (b.toNat % 16 * 4 + c.toNat / 64) :: c.toNat % 64 ::
      digits rest

/-- The bytes of digits; one digit alone is not enough for a byte. -/
def bytesOf : List ℕ → Option (List Byte)
  | [] => some []
  | [_] => none
  | [p, q] => some [BitVec.ofNat 8 (p * 4 + q / 16)]
  | [p, q, r] => some [BitVec.ofNat 8 (p * 4 + q / 16), BitVec.ofNat 8 (q % 16 * 16 + r / 4)]
  | p :: q :: r :: s :: rest => (bytesOf rest).map fun bytes =>
      BitVec.ofNat 8 (p * 4 + q / 16) :: BitVec.ofNat 8 (q % 16 * 16 + r / 4) :: BitVec.ofNat 8 (r % 4 * 64 + s) :: bytes

namespace Alphabet

variable (alphabet : Alphabet)

def char (digit : ℕ) : Char := alphabet.chars.getD digit '\n'

def value (c : Char) : Option ℕ := if c ∈ alphabet.chars then some (alphabet.chars.idxOf c) else none

def encode (bytes : List Byte) : List Char := (digits bytes).map alphabet.char

def decode (text : List Char) : Option (List Byte) :=
  ((text.filter fun c => !isLineBreak c).mapM alphabet.value).bind bytesOf

end Alphabet

theorem digits_lt (bytes : List Byte) : ∀ digit ∈ digits bytes, digit < 64 := by
  induction bytes using digits.induct with
  | case1 => simp [digits]
  | case2 a =>
    have := a.isLt
    simp only [digits, List.mem_cons, List.not_mem_nil, or_false, forall_eq_or_imp, forall_eq]
    omega
  | case3 a b =>
    have := a.isLt
    have := b.isLt
    simp only [digits, List.mem_cons, List.not_mem_nil, or_false, forall_eq_or_imp, forall_eq]
    omega
  | case4 a b c rest ih =>
    have := a.isLt
    have := b.isLt
    have := c.isLt
    simp only [digits, List.mem_cons, forall_eq_or_imp]
    refine ⟨by omega, by omega, by omega, by omega, ih⟩

theorem digits_length (bytes : List Byte) : (digits bytes).length = (bytes.length * 4 + 2) / 3 := by
  induction bytes using digits.induct with
  | case1 | case2 | case3 => simp [digits]
  | case4 a b c rest ih =>
    simp only [digits, List.length_cons, ih]
    omega

private theorem ofNat_eq {n : ℕ} {byte : Byte} (same : n = byte.toNat) : BitVec.ofNat 8 n = byte := by
  rw [same, BitVec.ofNat_toNat, BitVec.setWidth_eq]

theorem bytesOf_digits (bytes : List Byte) : bytesOf (digits bytes) = some bytes := by
  induction bytes using digits.induct with
  | case1 => rfl
  | case2 a =>
    have := a.isLt
    simp only [digits, bytesOf, Option.some.injEq, List.cons.injEq, and_true]
    exact ofNat_eq (by omega)
  | case3 a b =>
    have := a.isLt
    have := b.isLt
    simp only [digits, bytesOf, Option.some.injEq, List.cons.injEq, and_true]
    exact ⟨ofNat_eq (by omega), ofNat_eq (by omega)⟩
  | case4 a b c rest ih =>
    have := a.isLt
    have := b.isLt
    have := c.isLt
    simp only [digits, bytesOf, ih, Option.map_some, Option.some.injEq, List.cons.injEq, and_true]
    exact ⟨ofNat_eq (by omega), ofNat_eq (by omega), ofNat_eq (by omega)⟩

/-- Digits stand for bytes unless a single one is left over. -/
theorem bytesOf_length (numbers : List ℕ) : (bytesOf numbers).map List.length =
    if numbers.length % 4 = 1 then none else some (numbers.length * 3 / 4) := by
  induction numbers using bytesOf.induct with
  | case1 | case2 | case3 | case4 => simp [bytesOf]
  | case5 p q r s rest ih =>
    have shift : rest.length + 1 + 1 + 1 + 1 = rest.length + 4 := rfl
    simp only [bytesOf, List.length_cons, Option.map_map, shift, Nat.add_mod_right]
    have same : (List.length ∘ fun bytes => BitVec.ofNat 8 (p * 4 + q / 16) :: BitVec.ofNat 8 (q % 16 * 16 + r / 4) ::
        BitVec.ofNat 8 (r % 4 * 64 + s) :: bytes) = (· + 3) ∘ List.length := rfl
    rw [same, ← Option.map_map, ih]
    split
    · rfl
    · simp only [Option.map_some, Option.some.injEq]
      omega

namespace Alphabet

variable {alphabet : Alphabet}

theorem char_mem {digit : ℕ} (small : digit < 64) : alphabet.char digit ∈ alphabet.chars := by
  have within : digit < alphabet.chars.length := by rw [alphabet.size]; exact small
  rw [char, List.getD_eq_getElem _ _ within]
  exact List.getElem_mem within

theorem value_char {digit : ℕ} (small : digit < 64) : alphabet.value (alphabet.char digit) = some digit := by
  have within : digit < alphabet.chars.length := by rw [alphabet.size]; exact small
  rw [value, if_pos (char_mem small), char, List.getD_eq_getElem _ _ within, alphabet.nodup.idxOf_getElem]

/-- Every character of a written text is of the alphabet. -/
theorem mem_of_mem_encode {bytes : List Byte} {c : Char} (member : c ∈ alphabet.encode bytes) : c ∈ alphabet.chars := by
  obtain ⟨digit, among, rfl⟩ := List.mem_map.mp member
  exact char_mem (digits_lt bytes digit among)

theorem encode_length (bytes : List Byte) : (alphabet.encode bytes).length = (bytes.length * 4 + 2) / 3 := by
  rw [encode, List.length_map, digits_length]

theorem mapM_value {numbers : List ℕ} (small : ∀ digit ∈ numbers, digit < 64) :
    (numbers.map alphabet.char).mapM alphabet.value = some numbers := by
  induction numbers with
  | nil => rfl
  | cons digit rest ih =>
    rw [List.map_cons, List.mapM_cons, value_char (small digit List.mem_cons_self),
      ih fun other member => small other (List.mem_cons_of_mem _ member)]
    rfl

/-- What is written reads back. -/
theorem decode_encode (bytes : List Byte) : alphabet.decode (alphabet.encode bytes) = some bytes := by
  have solid : (alphabet.encode bytes).filter (fun c => !isLineBreak c) = alphabet.encode bytes := by
    rw [List.filter_eq_self]
    intro c member
    rw [alphabet.solid c (mem_of_mem_encode member)]
    rfl
  rw [decode, solid, encode, mapM_value (digits_lt bytes), Option.bind_some, bytesOf_digits]

theorem encode_injective : Function.Injective alphabet.encode := by
  intro bytes others same
  have read := congrArg alphabet.decode same
  rwa [decode_encode, decode_encode, Option.some.injEq] at read

theorem mapM_value_some {text : List Char} {numbers : List ℕ} (read : text.mapM alphabet.value = some numbers) :
    (∀ c ∈ text, c ∈ alphabet.chars) ∧ numbers.length = text.length := by
  induction text generalizing numbers with
  | nil =>
    obtain rfl := Option.some.inj read
    simp
  | cons c rest ih =>
    rw [List.mapM_cons] at read
    obtain ⟨digit, found, read⟩ := Option.bind_eq_some_iff.mp read
    obtain ⟨others, readRest, same⟩ := Option.bind_eq_some_iff.mp read
    obtain rfl := Option.some.inj same
    obtain ⟨known, count⟩ := ih readRest
    refine ⟨?_, by simp [count]⟩
    intro d member
    rcases List.mem_cons.mp member with rfl | later
    · exact (Option.ite_none_right_eq_some.mp found).1
    · exact known d later

/-- The characters of a text that reads, and how many bytes it reads to. -/
theorem decode_some {text : List Char} {bytes : List Byte} (read : alphabet.decode text = some bytes) :
    (∀ c ∈ text, isLineBreak c = true ∨ c ∈ alphabet.chars) ∧
      (text.filter fun c => !isLineBreak c).length % 4 ≠ 1 ∧
      bytes.length = (text.filter fun c => !isLineBreak c).length * 3 / 4 := by
  obtain ⟨numbers, values, whole⟩ := Option.bind_eq_some_iff.mp read
  obtain ⟨known, count⟩ := mapM_value_some values
  have length := bytesOf_length numbers
  rw [whole, Option.map_some, count] at length
  obtain ⟨enough, same⟩ := Option.ite_none_left_eq_some.mp length.symm
  refine ⟨fun c member => ?_, enough, (Option.some.inj same).symm⟩
  cases breaks : isLineBreak c with
  | true => exact Or.inl rfl
  | false => exact Or.inr (known c (List.mem_filter.mpr ⟨member, by rw [breaks]; rfl⟩))

end Alphabet

/-- The alphabet of `base64.RawStdEncoding`. -/
def std : Alphabet where
  chars := "ABCDEFGHIJKLMNOPQRSTUVWXYZabcdefghijklmnopqrstuvwxyz0123456789+/".toList
  size := by decide +kernel
  nodup := by decide +kernel
  solid c member := by
    have all : "ABCDEFGHIJKLMNOPQRSTUVWXYZabcdefghijklmnopqrstuvwxyz0123456789+/".toList.all
        (fun c => isLineBreak c = false) = true := by decide +kernel
    simpa using List.all_eq_true.mp all c member

end Helio.Base64
