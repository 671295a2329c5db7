import Helio.ToMathlib.Except
import Mathlib.Data.List.Basic
import Mathlib.Tactic.Ring

/-! # Bytes under bounds checks

A computation on bytes stops with `outOfRange` when an index or a slice leaves its list, apart from
the failures it reports itself. `InRange` says that it never does; a chain of steps is in range when
each step is, given what the steps before it returned. Words are read from and written to bytes in
either order.
-/

namespace Helio

abbrev Byte := BitVec 8

inductive Fault (ε : Type) where
  | outOfRange
  | failed (failure : ε)
deriving DecidableEq

section Indexing

variable {ε α β : Type}

def byteAt (bytes : List Byte) : ℤ → Except (Fault ε) Byte
  | .ofNat i => match bytes[i]? with
    | some byte => .ok byte
    | none => .error .outOfRange
  | .negSucc _ => .error .outOfRange

def slice (bytes : List Byte) : ℤ → ℤ → Except (Fault ε) (List Byte)
  | .ofNat i, .ofNat j =>
    if i ≤ j ∧ j ≤ bytes.length then .ok ((bytes.take j).drop i) else .error .outOfRange
  | _, _ => .error .outOfRange

/-- Stop with a failure on a condition. -/
def reject (bad : Prop) [Decidable bad] (failure : ε) : Except (Fault ε) Unit :=
  if bad then .error (.failed failure) else .ok ()

def InRange (result : Except (Fault ε) α) : Prop := result ≠ .error .outOfRange

theorem byteAt_ok {bytes : List Byte} {i : ℤ} {n : ℕ} {byte : Byte} (index : i = n) (found : bytes[n]? = some byte) :
    byteAt bytes i = (.ok byte : Except (Fault ε) Byte) := by
  subst index
  change (match bytes[n]? with | some byte => Except.ok byte | none => .error Fault.outOfRange) = _
  rw [found]

/-- A slice between two parts of a list is the part in the middle. -/
theorem slice_ok {bytes middle : List Byte} {i j : ℤ} (before after : List Byte) (parts : bytes = before ++ (middle ++ after))
    (first : i = before.length) (last : j = before.length + middle.length) :
    slice bytes i j = (.ok middle : Except (Fault ε) (List Byte)) := by
  subst first
  rw [← Nat.cast_add] at last
  subst last
  change (if before.length ≤ before.length + middle.length ∧ before.length + middle.length ≤ bytes.length then _ else _) = _
  have within : before.length ≤ before.length + middle.length ∧ before.length + middle.length ≤ bytes.length := by
    rw [parts, List.length_append, List.length_append]
    omega
  rw [if_pos within, parts, List.take_length_add_append, List.drop_left', List.take_left']
  · rfl
  · rfl

theorem reject_ok {bad : Prop} [Decidable bad] {failure : ε} : reject bad failure = .ok () ↔ ¬ bad := by
  unfold reject
  split
  · next holds => exact ⟨fun h => (by cases h), fun h => absurd holds h⟩
  · next fails => exact ⟨fun _ => fails, fun _ => rfl⟩

theorem reject_bind_ok {bad : Prop} [Decidable bad] {failure : ε} {next : Except (Fault ε) α} {a : α} :
    (reject bad failure >>= fun _ => next) = .ok a ↔ ¬ bad ∧ next = .ok a := by
  rw [Except.bind_eq_ok]
  exact ⟨fun ⟨_, passed, rest⟩ => ⟨reject_ok.mp passed, rest⟩, fun ⟨passed, rest⟩ => ⟨(), reject_ok.mpr passed, rest⟩⟩

theorem reject_pass {bad : Prop} [Decidable bad] {failure : ε} {next : Except (Fault ε) α} (passes : ¬ bad) :
    (reject bad failure >>= fun _ => next) = next := by
  rw [reject, if_neg passes]
  rfl

theorem reject_stop {bad : Prop} [Decidable bad] {failure : ε} {next : Except (Fault ε) α} (stops : bad) :
    (reject bad failure >>= fun _ => next) = .error (.failed failure) := by
  rw [reject, if_pos stops]
  rfl

theorem inRange_ok (a : α) : InRange (.ok a : Except (Fault ε) α) := fun h => by cases h

theorem inRange_bind {first : Except (Fault ε) α} {next : α → Except (Fault ε) β} (here : InRange first)
    (after : ∀ a, first = .ok a → InRange (next a)) : InRange (first >>= next) := by
  cases first with
  | error failure =>
    intro out
    exact here (congrArg Except.error (Except.error.inj out))
  | ok a => exact after a rfl

theorem inRange_reject {bad : Prop} [Decidable bad] {failure : ε} {next : Except (Fault ε) α}
    (after : ¬ bad → InRange next) : InRange (reject bad failure >>= fun _ => next) := by
  apply inRange_bind
  · unfold reject
    split
    · intro h
      cases h
    · exact inRange_ok ()
  · intro _ passed
    exact after (reject_ok.mp passed)

end Indexing

section Words

variable {ε : Type}

def littleEndian16 : List Byte → Except (Fault ε) (BitVec 16)
  | b0 :: b1 :: _ => .ok (b1 ++ b0)
  | _ => .error .outOfRange

def littleEndian32 : List Byte → Except (Fault ε) (BitVec 32)
  | b0 :: b1 :: b2 :: b3 :: _ => .ok (b3 ++ b2 ++ b1 ++ b0)
  | _ => .error .outOfRange

def bigEndian16 : List Byte → Except (Fault ε) (BitVec 16)
  | b0 :: b1 :: _ => .ok (b0 ++ b1)
  | _ => .error .outOfRange

/-- The byte of a word that starts at a bit. -/
def byteFrom {width : ℕ} (word : BitVec width) (start : ℕ) : Byte := word.extractLsb' start 8

def putLittleEndian16 (word : BitVec 16) : List Byte := [byteFrom word 0, byteFrom word 8]

def putLittleEndian32 (word : BitVec 32) : List Byte :=
  [byteFrom word 0, byteFrom word 8, byteFrom word 16, byteFrom word 24]

def putBigEndian16 (word : BitVec 16) : List Byte := [byteFrom word 8, byteFrom word 0]

theorem word16_eq (word : BitVec 16) : (byteFrom word 8 ++ byteFrom word 0 : BitVec 16) = word := by
  unfold byteFrom
  rw [BitVec.extractLsb'_append_extractLsb'_eq_extractLsb' (show 8 = 0 + 8 from rfl)]
  exact BitVec.extractLsb'_eq_self

theorem bigEndian16_put (word : BitVec 16) (rest : List Byte) :
    bigEndian16 (putBigEndian16 word ++ rest) = (.ok word : Except (Fault ε) (BitVec 16)) :=
  congrArg Except.ok (word16_eq word)

theorem word32_eq (word : BitVec 32) :
    (byteFrom word 24 ++ byteFrom word 16 ++ byteFrom word 8 ++ byteFrom word 0 : BitVec 32) = word := by
  unfold byteFrom
  rw [BitVec.extractLsb'_append_extractLsb'_eq_extractLsb' (show 24 = 16 + 8 from rfl),
    BitVec.extractLsb'_append_extractLsb'_eq_extractLsb' (show 16 = 8 + 8 from rfl),
    BitVec.extractLsb'_append_extractLsb'_eq_extractLsb' (show 8 = 0 + 8 from rfl)]
  exact BitVec.extractLsb'_eq_self

private theorem byteFrom_low {width : ℕ} (high : BitVec width) (low : Byte) : byteFrom (high ++ low) 0 = low :=
  BitVec.extractLsb'_append_eq_right

private theorem byteFrom_high {width : ℕ} (high : BitVec width) (low : Byte) {start : ℕ} (above : 8 ≤ start) :
    byteFrom (high ++ low) start = byteFrom high (start - 8) :=
  BitVec.extractLsb'_append_eq_of_le above

private theorem byteFrom_self (byte : Byte) : byteFrom byte 0 = byte := BitVec.extractLsb'_eq_self

/-- The bytes of a word that was read are the bytes it was read from. -/
theorem putLittleEndian16_append (b0 b1 : Byte) : putLittleEndian16 (b1 ++ b0) = [b0, b1] := by
  rw [putLittleEndian16, byteFrom_low, byteFrom_high _ _ (by omega), byteFrom_self]

theorem putBigEndian16_append (b0 b1 : Byte) : putBigEndian16 (b0 ++ b1) = [b0, b1] := by
  rw [putBigEndian16, byteFrom_low, byteFrom_high _ _ (by omega), byteFrom_self]

theorem putLittleEndian32_append (b0 b1 b2 b3 : Byte) : putLittleEndian32 (b3 ++ b2 ++ b1 ++ b0) = [b0, b1, b2, b3] := by
  rw [putLittleEndian32, byteFrom_low, byteFrom_high _ _ (by omega : 8 ≤ 8), byteFrom_low,
    byteFrom_high _ _ (by omega : 8 ≤ 16), byteFrom_high _ _ (by omega : 8 ≤ 16 - 8), byteFrom_low,
    byteFrom_high _ _ (by omega : 8 ≤ 24), byteFrom_high _ _ (by omega : 8 ≤ 24 - 8),
    byteFrom_high _ _ (by omega : 8 ≤ 24 - 8 - 8), byteFrom_self]

end Words

end Helio
