import Helio.Model.Copel
import Helio.Soundness.DecimalTexts

/-! # Which texts are read as a rate

The whole part of a rate and its padded fraction are read by a number parser that takes a sign, and put
together in 64 bits. So a text is read exactly when both parts are digits after an optional sign, and the
rate is the exact value unless a part is signed or the value leaves the range.
-/

namespace Helio.Tariffs

open Config Finance

inductive Sign where
  | none | plus | minus
deriving DecidableEq

namespace Sign

def chars : Sign → List Char
  | none => []
  | plus => ['+']
  | minus => ['-']

def apply : Sign → ℕ → ℤ
  | minus, n => -n
  | _, n => n

end Sign

/-- The number that digits write. -/
def number (digits : List Char) : ℕ := Nat.ofDigitChars 10 digits 0

def AllDigits (text : List Char) : Prop := ∀ c ∈ text, c.isDigit = true

variable {text whole fraction : List Char} {n : ℤ}

theorem readDigits_ok {value : ℕ} : readDigits text = .ok value ↔
    text ≠ [] ∧ AllDigits text ∧ value = number text ∧ value ≤ 2 ^ 64 - 1 := by
  rw [readDigits]
  split
  next empty => exact ⟨fun read => (nomatch read), fun valid => absurd empty valid.1⟩
  next occupied => rw [parseUintFrom_ok, and_iff_right occupied]; rfl

theorem readUnsigned_ok : readUnsigned text = .ok n ↔
    text ≠ [] ∧ AllDigits text ∧ n = number text ∧ n ≤ maxInt64 := by
  rw [readUnsigned]
  constructor
  · intro read
    obtain ⟨value, found, rest⟩ := Except.bind_eq_ok.mp read
    obtain ⟨occupied, digits, rfl, -⟩ := readDigits_ok.mp found
    split at rest
    · cases rest
    next small =>
      cases rest
      refine ⟨occupied, digits, rfl, ?_⟩
      rw [maxInt64]
      omega
  · rintro ⟨occupied, digits, rfl, small⟩
    rw [maxInt64] at small
    refine Except.bind_eq_ok.mpr ⟨number text, readDigits_ok.mpr ⟨occupied, digits, rfl, by omega⟩, ?_⟩
    rw [if_neg (by omega)]

/-- An integer is read from digits after an optional sign when its number is in the range. -/
theorem parseInt_ok : parseInt text = .ok n ↔ ∃ (sign : Sign) (digits : List Char), text = sign.chars ++ digits ∧
    digits ≠ [] ∧ AllDigits digits ∧ n = sign.apply (number digits) ∧ minInt64 ≤ n ∧ n ≤ maxInt64 := by
  constructor
  · intro read
    unfold parseInt at read
    split at read
    next digits =>
      obtain ⟨value, found, rest⟩ := Except.bind_eq_ok.mp read
      obtain ⟨occupied, all, rfl, -⟩ := readDigits_ok.mp found
      split at rest
      · cases rest
      next small =>
        cases rest
        refine ⟨.minus, digits, rfl, occupied, all, rfl, ?_, ?_⟩
        · rw [minInt64]
          omega
        · rw [maxInt64]
          omega
    next digits =>
      obtain ⟨occupied, all, same, small⟩ := readUnsigned_ok.mp read
      refine ⟨.plus, digits, rfl, occupied, all, same, ?_, small⟩
      rw [same, minInt64]
      omega
    · obtain ⟨occupied, all, same, small⟩ := readUnsigned_ok.mp read
      refine ⟨.none, text, rfl, occupied, all, same, ?_, small⟩
      rw [same, minInt64]
      omega
  · rintro ⟨sign, digits, rfl, occupied, all, same, low, high⟩
    cases sign with
    | plus => exact readUnsigned_ok.mpr ⟨occupied, all, same, high⟩
    | minus =>
      rw [same, Sign.apply, minInt64] at low
      refine Except.bind_eq_ok.mpr ⟨number digits, readDigits_ok.mpr ⟨occupied, all, rfl, by omega⟩, ?_⟩
      rw [if_neg (by omega), same]
      rfl
    | none =>
      have read := readUnsigned_ok.mpr ⟨occupied, all, same, high⟩
      rw [Sign.chars, List.nil_append, parseInt]
      · exact read
      · rintro rest rfl
        cases all '-' List.mem_cons_self
      · rintro rest rfl
        cases all '+' List.mem_cons_self

section Fraction

theorem byteLength_eq (ascii : ∀ c ∈ text, c.utf8Size = 1) : byteLength text = text.length := by
  induction text with
  | nil => rfl
  | cons c rest ih =>
    rw [byteLength, List.map_cons, List.sum_cons, ascii c List.mem_cons_self, List.length_cons, add_comm]
    exact congrArg (· + 1) (ih fun other member => ascii other (List.mem_cons_of_mem _ member))

theorem utf8Size_digit {c : Char} (digit : c.isDigit = true) : c.utf8Size = 1 := by
  simp only [Char.isDigit, Bool.and_eq_true, decide_eq_true_eq] at digit
  rw [Char.utf8Size_eq_one_iff]
  exact UInt32.le_trans digit.2 (by decide)

theorem byteLength_signed (sign : Sign) {digits : List Char} (all : AllDigits digits) :
    byteLength (sign.chars ++ digits) = (sign.chars ++ digits).length := by
  apply byteLength_eq
  intro c member
  rcases List.mem_append.mp member with signs | digit
  · cases sign with
    | none => cases signs
    | plus => rw [List.mem_singleton.mp signs]; decide
    | minus => rw [List.mem_singleton.mp signs]; decide
  · exact utf8Size_digit (all c digit)

theorem padFraction_eq (fraction : List Char) :
    padFraction fraction = fraction ++ List.replicate (6 - byteLength fraction) '0' := by
  rw [padFraction]
  split
  next empty =>
    subst empty
    rfl
  · rfl

theorem number_zeros (digits : List Char) (k : ℕ) :
    number (digits ++ List.replicate k '0') = number digits * 10 ^ k := by
  rw [number, Nat.ofDigitChars_append, Nat.ofDigitChars_replicate_zero, mul_comm]
  rfl

/-- Zeros that follow a text hold no sign of it. -/
theorem signed_of_append {sign : Sign} {digits : List Char} {k : ℕ}
    (same : fraction ++ List.replicate k '0' = sign.chars ++ digits) :
    ∃ front, fraction = sign.chars ++ front ∧ digits = front ++ List.replicate k '0' := by
  rcases List.append_eq_append_iff.mp same with ⟨rest, signs, zeros⟩ | ⟨front, first, second⟩
  · cases rest with
    | nil =>
      rw [List.append_nil] at signs
      exact ⟨[], by rw [signs, List.append_nil], zeros.symm⟩
    | cons c rest =>
      have zero : c = '0' := List.eq_of_mem_replicate (zeros ▸ List.mem_append_left _ List.mem_cons_self)
      have signed : c ∈ sign.chars := signs ▸ List.mem_append_right _ List.mem_cons_self
      subst zero
      cases sign with
      | none => cases signed
      | plus => exact absurd (List.mem_singleton.mp signed) (by decide)
      | minus => exact absurd (List.mem_singleton.mp signed) (by decide)
  · exact ⟨front, first, second⟩

/-- A fraction of at most six bytes is read as millionths from digits after an optional sign. -/
theorem parseInt_padFraction (short : byteLength fraction ≤ 6) : parseInt (padFraction fraction) = .ok n ↔
    ∃ (sign : Sign) (digits : List Char), fraction = sign.chars ++ digits ∧ AllDigits digits ∧
      n = sign.apply (number digits * 10 ^ (6 - fraction.length)) := by
  rw [padFraction_eq, parseInt_ok]
  constructor
  · rintro ⟨sign, digits, same, -, all, read, -⟩
    obtain ⟨front, rfl, rfl⟩ := signed_of_append same
    have front_digits : AllDigits front := fun c member => all c (List.mem_append_left _ member)
    refine ⟨sign, front, rfl, front_digits, ?_⟩
    rw [read, byteLength_signed sign front_digits, number_zeros]
  · rintro ⟨sign, digits, rfl, all, read⟩
    rw [byteLength_signed sign all] at short ⊢
    set zeros := 6 - (sign.chars ++ digits).length with isZeros
    rw [List.length_append] at short isZeros
    have signs : sign.chars.length ≤ 1 := by cases sign <;> decide
    have small : number digits * 10 ^ zeros < 10 ^ 6 := by
      calc
        number digits * 10 ^ zeros < 10 ^ digits.length * 10 ^ zeros :=
          Nat.mul_lt_mul_of_pos_right (ofDigitChars_lt all) (Nat.pow_pos (by decide))
        _ = 10 ^ (digits.length + zeros) := (pow_add _ _ _).symm
        _ ≤ 10 ^ 6 := Nat.pow_le_pow_right (by decide) (by omega)
    refine ⟨sign, digits ++ List.replicate zeros '0', (List.append_assoc _ _ _), ?_, ?_, ?_, ?_, ?_⟩
    · rw [← List.length_pos_iff, List.length_append, List.length_replicate]
      omega
    · intro c member
      rcases List.mem_append.mp member with digit | zero
      · exact all c digit
      · rw [List.eq_of_mem_replicate zero]
        decide
    · rw [number_zeros, read]
    · rw [read, minInt64]
      cases sign <;> simp only [Sign.apply] <;> omega
    · rw [read, maxInt64]
      cases sign <;> simp only [Sign.apply] <;> omega

end Fraction

theorem Sign.eq_none_of_digits {sign : Sign} {digits : List Char} (all : AllDigits (sign.chars ++ digits)) :
    sign = .none := by
  cases sign with
  | none => rfl
  | plus => exact absurd (all '+' List.mem_cons_self) (by decide)
  | minus => exact absurd (all '-' List.mem_cons_self) (by decide)

/-- A text is its whole part alone, or followed by a comma and a fraction. -/
def Splits (text whole fraction : List Char) : Prop :=
  ',' ∉ whole ∧ ',' ∉ fraction ∧ (text = whole ∧ fraction = [] ∨ text = whole ++ ',' :: fraction)

theorem Splits.splitOn (splits : Splits text whole fraction) :
    text.splitOn ',' = [whole] ∧ fraction = [] ∨ text.splitOn ',' = [whole, fraction] := by
  obtain ⟨wholeAlone, fractionAlone, ⟨rfl, rfl⟩ | rfl⟩ := splits
  · exact Or.inl ⟨List.splitOn_eq_singleton wholeAlone, rfl⟩
  · right
    rw [List.splitOn_append_cons_self_of_not_mem wholeAlone, List.splitOn_eq_singleton fractionAlone]

theorem Splits.unique {otherWhole otherFraction : List Char} (splits : Splits text whole fraction)
    (again : Splits text otherWhole otherFraction) : whole = otherWhole ∧ fraction = otherFraction := by
  rcases splits.splitOn with ⟨first, rfl⟩ | first <;> rcases again.splitOn with ⟨second, rfl⟩ | second
  · exact ⟨(List.cons.inj (first.symm.trans second)).1, rfl⟩
  · cases first.symm.trans second
  · cases first.symm.trans second
  · have same := first.symm.trans second
    simp only [List.cons.injEq, and_true] at same
    exact same

theorem not_mem_of_splitOn {sep : Char} {part : List Char} (member : part ∈ text.splitOn sep) : sep ∉ part := by
  induction text generalizing part with
  | nil =>
    rw [List.splitOn_nil, List.mem_singleton] at member
    rw [member]
    exact List.not_mem_nil
  | cons c rest ih =>
    rw [List.splitOn_cons_eq_if_modifyHead] at member
    split at member
    · rcases List.mem_cons.mp member with rfl | later
      · exact List.not_mem_nil
      · exact ih later
    next other =>
      obtain ⟨first, others, parts⟩ := List.exists_cons_of_ne_nil (List.splitOn_ne_nil sep rest)
      rw [parts, List.modifyHead_cons] at member
      rcases List.mem_cons.mp member with rfl | later
      · rintro (_ | ⟨_, inFirst⟩)
        · exact other (BEq.refl _)
        · exact ih (parts ▸ List.mem_cons_self) inFirst
      · exact ih (parts ▸ List.mem_cons_of_mem _ later)

/-- A rate is read from its parts. -/
theorem reaisToMicros_ok {value : List Char} : reaisToMicros value = .ok n ↔
    ∃ whole fraction, Splits (rateText value) whole fraction ∧
      partsToMicros (rateText value) whole fraction = .ok n := by
  constructor
  · intro read
    have alone : ∀ part ∈ (rateText value).splitOn ',', ',' ∉ part := fun part member => not_mem_of_splitOn member
    have joined : [','].intercalate ((rateText value).splitOn ',') = rateText value := List.intercalate_splitOn ','
    rw [reaisToMicros] at read
    split at read
    next whole parts =>
      rw [parts] at alone joined
      refine ⟨whole, [], ⟨alone whole (by simp), List.not_mem_nil, Or.inl ⟨?_, rfl⟩⟩, read⟩
      simpa using joined.symm
    next whole fraction parts =>
      rw [parts] at alone joined
      refine ⟨whole, fraction, ⟨alone whole (by simp), alone fraction (by simp), Or.inr ?_⟩, read⟩
      simpa using joined.symm
    · cases read
  · rintro ⟨whole, fraction, splits, read⟩
    rw [reaisToMicros]
    rcases splits.splitOn with ⟨parts, rfl⟩ | parts
    · rw [parts]
      exact read
    · rw [parts]
      exact read

/-- The whole part is a nonnegative number after an optional sign, the fraction digits after one. -/
theorem partsToMicros_ok : partsToMicros text whole fraction = .ok n ↔
    ∃ (wholeSign : Sign) (reais : List Char) (fractionSign : Sign) (micros : List Char),
      whole = wholeSign.chars ++ reais ∧ fraction = fractionSign.chars ++ micros ∧ reais ≠ [] ∧ AllDigits reais ∧
      AllDigits micros ∧ fraction.length ≤ 6 ∧ 0 ≤ wholeSign.apply (number reais) ∧
      wholeSign.apply (number reais) ≤ maxInt64 ∧
      n = wrap64 (wholeSign.apply (number reais) * 1000000 +
        fractionSign.apply (number micros * 10 ^ (6 - fraction.length))) := by
  constructor
  · intro read
    rw [partsToMicros] at read
    split at read
    · cases read
    split at read
    · cases read
    next amount found =>
    split at read
    · cases read
    next nonneg =>
    split at read
    · cases read
    next short =>
    split at read
    · cases read
    next rest foundRest =>
    cases read
    obtain ⟨wholeSign, reais, rfl, occupied, reaisDigits, rfl, -, high⟩ := parseInt_ok.mp found
    obtain ⟨fractionSign, micros, rfl, microsDigits, rfl⟩ := (parseInt_padFraction (not_lt.mp short)).mp foundRest
    rw [byteLength_signed fractionSign microsDigits] at short
    exact ⟨wholeSign, reais, fractionSign, micros, rfl, rfl, occupied, reaisDigits, microsDigits, not_lt.mp short,
      not_lt.mp nonneg, high, rfl⟩
  · rintro ⟨wholeSign, reais, fractionSign, micros, rfl, rfl, occupied, reaisDigits, microsDigits, short, nonneg,
      high, rfl⟩
    have some : wholeSign.chars ++ reais ≠ [] := fun empty => occupied (List.append_eq_nil_iff.mp empty).2
    have found : parseInt (wholeSign.chars ++ reais) = .ok (wholeSign.apply (number reais)) :=
      parseInt_ok.mpr ⟨wholeSign, reais, rfl, occupied, reaisDigits, rfl, le_trans (by decide) nonneg, high⟩
    have bytes : byteLength (fractionSign.chars ++ micros) ≤ 6 := by
      rwa [byteLength_signed fractionSign microsDigits]
    have foundRest := (parseInt_padFraction bytes).mpr ⟨fractionSign, micros, rfl, microsDigits, rfl⟩
    rw [partsToMicros, if_neg some, found]
    dsimp only
    rw [if_neg (not_lt.mpr nonneg), if_neg (not_lt.mpr bytes), foundRest]

/-- The value in millionths of two rows of digits. -/
def micros (reais fraction : List Char) : ℕ := number reais * 1000000 + number fraction * 10 ^ (6 - fraction.length)

/-- The text is one or more digits, and maybe a comma and up to six more, with this value in millionths. -/
def Denotes (text : List Char) (n : ℤ) : Prop :=
  ∃ reais fraction, Splits text reais fraction ∧ reais ≠ [] ∧ AllDigits reais ∧ AllDigits fraction ∧
    fraction.length ≤ 6 ∧ n = micros reais fraction

/-- The text would be a rate but for a sign in front of a part that the number parser takes, or but for
a value in millionths out of the range although its whole part is within it. -/
def Misread (text : List Char) : Prop :=
  ∃ (wholeSign : Sign) (reais : List Char) (fractionSign : Sign) (fraction : List Char),
    Splits text (wholeSign.chars ++ reais) (fractionSign.chars ++ fraction) ∧ reais ≠ [] ∧ AllDigits reais ∧
      AllDigits fraction ∧ (fractionSign.chars ++ fraction).length ≤ 6 ∧
      (0 ≤ wholeSign.apply (number reais) ∧ wholeSign.apply (number reais) ≤ maxInt64) ∧
      (wholeSign ≠ .none ∨ fractionSign ≠ .none ∨ maxInt64 < micros reais fraction)

/-- A rate is read from a text exactly when the text denotes it, unless the text is misread. -/
theorem reaisToMicros_exact_iff {value : List Char} :
    (∀ n, reaisToMicros value = .ok n ↔ Denotes (rateText value) n ∧ n ≤ maxInt64) ↔ ¬Misread (rateText value) := by
  constructor
  · rintro exactly ⟨wholeSign, reais, fractionSign, fraction, splits, occupied, reaisDigits, fractionDigits, short,
      ⟨nonneg, high⟩, misread⟩
    obtain ⟨⟨otherReais, otherFraction, again, -, first, second, -, denoted⟩, inRange⟩ := (exactly _).mp
      (reaisToMicros_ok.mpr ⟨_, _, splits, partsToMicros_ok.mpr ⟨wholeSign, reais, fractionSign, fraction, rfl, rfl,
        occupied, reaisDigits, fractionDigits, short, nonneg, high, rfl⟩⟩)
    obtain ⟨rfl, rfl⟩ := splits.unique again
    obtain rfl := Sign.eq_none_of_digits first
    obtain rfl := Sign.eq_none_of_digits second
    have above : maxInt64 < micros reais fraction :=
      (misread.resolve_left (not_not.mpr rfl)).resolve_left (not_not.mpr rfl)
    rw [denoted] at inRange
    exact absurd inRange (not_le.mpr above)
  · intro sound n
    constructor
    · intro read
      obtain ⟨_, _, splits, parts⟩ := reaisToMicros_ok.mp read
      obtain ⟨wholeSign, reais, fractionSign, fraction, rfl, rfl, occupied, reaisDigits, fractionDigits, short, nonneg,
        high, result⟩ := partsToMicros_ok.mp parts
      have noDefect : ¬(wholeSign ≠ .none ∨ fractionSign ≠ .none ∨ maxInt64 < micros reais fraction) := fun defect =>
        sound ⟨wholeSign, reais, fractionSign, fraction, splits, occupied, reaisDigits, fractionDigits, short,
          ⟨nonneg, high⟩, defect⟩
      rw [not_or, not_or, not_not, not_not, not_lt] at noDefect
      obtain ⟨rfl, rfl, inRange⟩ := noDefect
      have exact_value : n = micros reais fraction := by
        rw [result]
        exact wrap64_of_range (Int.natCast_nonneg (micros reais fraction)) inRange
      exact ⟨⟨reais, fraction, splits, occupied, reaisDigits, fractionDigits, short, exact_value⟩,
        exact_value ▸ inRange⟩
    · rintro ⟨⟨reais, fraction, splits, occupied, reaisDigits, fractionDigits, short, rfl⟩, inRange⟩
      have whole : (number reais : ℤ) ≤ maxInt64 := by
        simp only [micros] at inRange
        push_cast at inRange
        have rest : (0 : ℤ) ≤ number fraction * 10 ^ (6 - fraction.length) := by positivity
        omega
      refine reaisToMicros_ok.mpr ⟨reais, fraction, splits, partsToMicros_ok.mpr ⟨.none, reais, .none, fraction, rfl,
        rfl, occupied, reaisDigits, fractionDigits, short, Int.natCast_nonneg _, whole, ?_⟩⟩
      exact (wrap64_of_range (Int.natCast_nonneg _) inRange).symm

section Proposals

variable {selected : String → String → Bool}

theorem selectedRates_ok {rows : List (List String)} {rates : ℤ × ℤ} (found : selectedRates selected rows = .ok rates) :
    ∃ tariffClass subclass te tusd rest, (tariffClass :: subclass :: te :: tusd :: rest) ∈ rows ∧
      selected tariffClass subclass = true ∧ reaisToMicros te.toList = .ok rates.1 ∧
        reaisToMicros tusd.toList = .ok rates.2 := by
  induction rows using selectedRates.induct selected with
  | case1 => cases found
  | case2 tariffClass subclass te tusd more rest chosen =>
    rw [selectedRates, if_pos chosen] at found
    obtain ⟨first, readFirst, found⟩ := Except.bind_eq_ok.mp found
    obtain ⟨second, readSecond, found⟩ := Except.bind_eq_ok.mp found
    cases found
    exact ⟨tariffClass, subclass, te, tusd, more, List.mem_cons_self, chosen, mapError_ok.mp readFirst,
      mapError_ok.mp readSecond⟩
  | case3 tariffClass subclass te tusd more rest other ih =>
    rw [selectedRates, if_neg other] at found
    obtain ⟨tariffClass, subclass, te, tusd, more, member, rest⟩ := ih found
    exact ⟨tariffClass, subclass, te, tusd, more, List.mem_cons_of_mem _ member, rest⟩
  | case4 row rest short ih =>
    rw [selectedRates] at found
    · obtain ⟨tariffClass, subclass, te, tusd, more, member, rest⟩ := ih found
      exact ⟨tariffClass, subclass, te, tusd, more, List.mem_cons_of_mem _ member, rest⟩
    · exact short

/-- The rates of a proposal are those read from two cells of a selected row. -/
theorem parseCopelGroupB_rates {page : Page} {retrievedAt : ℤ} {proposal : TariffProposal}
    (parsed : parseCopelGroupB selected page retrievedAt = .ok proposal) :
    ∃ tariffClass subclass te tusd rest, (tariffClass :: subclass :: te :: tusd :: rest) ∈ page.rows ∧
      selected tariffClass subclass = true ∧ reaisToMicros te.toList = .ok proposal.consumptionTEMicrosPerKWh ∧
        reaisToMicros tusd.toList = .ok proposal.consumptionTUSDMicrosPerKWh := by
  obtain ⟨_, -, parsed⟩ := Except.bind_eq_ok.mp parsed
  split at parsed
  · cases parsed
  obtain ⟨effectiveFrom, -, parsed⟩ := Except.bind_eq_ok.mp parsed
  obtain ⟨effectiveTo, -, parsed⟩ := Except.bind_eq_ok.mp parsed
  obtain ⟨_, -, parsed⟩ := Except.bind_eq_ok.mp parsed
  obtain ⟨rates, found, parsed⟩ := Except.bind_eq_ok.mp parsed
  obtain ⟨_, -, parsed⟩ := Except.bind_eq_ok.mp parsed
  obtain ⟨_, -, parsed⟩ := Except.bind_eq_ok.mp parsed
  cases parsed
  exact selectedRates_ok found

end Proposals

/-- Rates are read exactly where nothing is misread, and the rates of a proposal are read from the page. -/
theorem rates_exact_iff (value : List Char) (selected : String → String → Bool) (page : Page) (retrievedAt : ℤ) :
    ((∀ n, reaisToMicros value = .ok n ↔ Denotes (rateText value) n ∧ n ≤ maxInt64) ↔ ¬Misread (rateText value)) ∧
    ∀ proposal, parseCopelGroupB selected page retrievedAt = .ok proposal →
      ∃ tariffClass subclass te tusd rest, (tariffClass :: subclass :: te :: tusd :: rest) ∈ page.rows ∧
        selected tariffClass subclass = true ∧ reaisToMicros te.toList = .ok proposal.consumptionTEMicrosPerKWh ∧
          reaisToMicros tusd.toList = .ok proposal.consumptionTUSDMicrosPerKWh :=
  ⟨reaisToMicros_exact_iff, fun _ parsed => parseCopelGroupB_rates parsed⟩

/-- A page of 2026 with one row for the selected class. -/
private def pageWith (te tusd : String) : Page :=
  ⟨200, false, some (⟨24, 6, 2026⟩, ⟨23, 6, 2027⟩), [["B1", "Residencial", te, tusd]]⟩

private def residential (tariffClass subclass : String) : Bool := tariffClass = "B1" && subclass = "Residencial"

theorem rates_exact_iff_page : ∃ proposal,
    parseCopelGroupB residential (pageWith "0,389503" "0,538944") 1784203200000000000 = .ok proposal ∧
      ∃ te tusd : String, reaisToMicros te.toList = .ok proposal.consumptionTEMicrosPerKWh ∧
        reaisToMicros tusd.toList = .ok proposal.consumptionTUSDMicrosPerKWh := by
  have possible : (parseCopelGroupB residential (pageWith "0,389503" "0,538944") 1784203200000000000).isOk = true := by
    decide +kernel
  obtain ⟨proposal, parsed⟩ := Except.exists_of_isOk possible
  obtain ⟨_, _, te, tusd, _, -, -, first, second⟩ :=
    (rates_exact_iff "0,389503".toList residential (pageWith "0,389503" "0,538944") _).2 proposal parsed
  exact ⟨proposal, parsed, te, tusd, first, second⟩

/-- One real, and minus five tenths after the comma: 95 centavos are read, and proposed as a rate. -/
theorem signed_fraction_proposed :
    (¬∀ value n, reaisToMicros value = .ok n ↔ Denotes (rateText value) n ∧ n ≤ maxInt64) ∧
      (parseCopelGroupB residential (pageWith "1,-5" "0,538944") 1784203200000000000).toOption.map
        (fun proposal => proposal.consumptionTEMicrosPerKWh) = some 950000 := by
  refine ⟨fun exactly => ?_, by decide +kernel⟩
  have splits : Splits (rateText "1,-5".toList) (Sign.none.chars ++ ['1']) (Sign.minus.chars ++ ['5']) :=
    ⟨by decide, by decide, Or.inr (by decide +kernel)⟩
  have sound := reaisToMicros_exact_iff.mp (exactly "1,-5".toList)
  apply sound
  have one : AllDigits ['1'] := List.forall_mem_singleton.mpr rfl
  have five : AllDigits ['5'] := List.forall_mem_singleton.mpr rfl
  exact ⟨.none, ['1'], .minus, ['5'], splits, by decide, one, five, by decide, by decide +kernel,
    Or.inr (Or.inl (by decide))⟩

end Helio.Tariffs
