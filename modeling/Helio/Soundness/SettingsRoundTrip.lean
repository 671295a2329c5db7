import Helio.Machine.Binary64
import Helio.Model.SettingsForm
import Helio.Soundness.CanonicalSettings

/-! # The settings form keeps a document

Each field of a document that the server has accepted is shown as a text that the form accepts and reads
back, but for two: a coordinate nearer to zero than a millionth of a degree is written with an exponent,
which the form does not read, and a time zone has to be known to the browser.
-/

namespace Helio.SettingsForm

open Config Calendar

section Texts

variable {text : List Char}

/-- The characters that ASCII prints are no blanks. -/
theorem isBlank_of_visible {c : Char} (low : '!' ≤ c) (high : c ≤ '~') : isBlank c = false := by
  rw [Bool.eq_false_iff]
  intro blank
  rw [isBlank, Bool.or_eq_true, Bool.and_eq_true, decide_eq_true_eq, decide_eq_true_eq] at blank
  rcases blank with member | ⟨far, -⟩
  · have visible : '!' ≤ c ∧ c ≤ '~' := ⟨low, high⟩
    simp only [List.mem_cons, List.not_mem_nil, or_false] at member
    rcases member with rfl | rfl | rfl | rfl | rfl | rfl | rfl | rfl | rfl | rfl | rfl | rfl | rfl | rfl <;>
      exact absurd visible (by decide)
  · exact absurd (far.trans high) (by decide)

theorem isBlank_of_isDigit {c : Char} (digit : c.isDigit = true) : isBlank c = false := by
  simp only [Char.isDigit, Bool.and_eq_true, decide_eq_true_eq] at digit
  apply isBlank_of_visible
  · exact le_trans (by decide) (Char.le_def.mpr digit.1)
  · exact le_trans (Char.le_def.mpr digit.2) (by decide)

theorem isBlank_of_isUpper {c : Char} (capital : c.isUpper = true) : isBlank c = false := by
  have bounds := of_decide_eq_true capital
  apply isBlank_of_visible
  · exact le_trans (by decide) (Char.le_def.mpr bounds.1)
  · exact le_trans (Char.le_def.mpr bounds.2) (by decide)

theorem toUpper_of_isUpper {c : Char} (capital : c.isUpper = true) : c.toNat < 128 ∧ c.toUpper = c := by
  have high : c.toNat ≤ 90 := (of_decide_eq_true capital).2
  refine ⟨by omega, dif_neg ?_⟩
  rintro ⟨low, -⟩
  have small : 97 ≤ c.toNat := low
  omega

/-- A text without blanks is left as it is. -/
theorem trim_eq (solid : ∀ c ∈ text, isBlank c = false) : trim text = text := by
  have front : ∀ {others : List Char}, (∀ c ∈ others, isBlank c = false) → others.dropWhile isBlank = others := by
    intro others solid
    cases others with
    | nil => rfl
    | cons c rest => exact List.dropWhile_cons_of_neg (by rw [solid c List.mem_cons_self]; decide)
  rw [trim, front solid, front (fun c member => solid c (List.mem_reverse.mp member)), List.reverse_reverse]

theorem replaceComma_eq (plain : ',' ∉ text) : replaceComma text = text := by
  induction text with
  | nil => rfl
  | cons c rest ih =>
    rw [List.mem_cons, not_or] at plain
    rw [replaceComma, if_neg (Ne.symm plain.1), ih plain.2]

end Texts

section Numbers

/-- A number up to the largest exact one is read back from its digits. -/
theorem integer_toString {n : ℕ} (exact_ : n ≤ 2 ^ 53 - 1) : integer (toString (n : ℤ)) = some n := by
  have text : (toString (n : ℤ)).toList = Nat.toDigits 10 n := Nat.toList_repr
  have value : Nat.ofDigitChars 10 (Nat.toDigits 10 n) 0 = n := Nat.ofDigitChars_ten_toDigits
  have digits : (Nat.toDigits 10 n).all Char.isDigit = true :=
    List.all_eq_true.mpr fun c member => Nat.isDigit_of_mem_toDigits (by decide) (by decide) member
  rw [integer, text, value]
  exact if_pos ⟨Nat.repr_ne_empty, digits, exact_⟩

theorem integer_int {n : ℤ} (low : 0 ≤ n) (high : n ≤ 2 ^ 53 - 1) : integer (toString n) = some n.toNat := by
  obtain ⟨n, rfl⟩ := Int.eq_ofNat_of_zero_le low
  exact integer_toString (by omega)

/-- Two digits of the hundredths. -/
theorem padStart_hundredths {r : ℕ} (small : r < 100) : (padStart (toString (r : ℤ))).toList.length = 2 ∧
    (∀ c ∈ (padStart (toString (r : ℤ))).toList, c.isDigit = true) ∧
      Nat.ofDigitChars 10 (padStart (toString (r : ℤ))).toList 0 = r := by
  have all : ∀ r : ℕ, r < 100 → (padStart (toString (r : ℤ))).toList.length = 2 ∧
      (padStart (toString (r : ℤ))).toList.all Char.isDigit = true ∧
        Nat.ofDigitChars 10 (padStart (toString (r : ℤ))).toList 0 = r := by decide +kernel
  obtain ⟨two, digits, value⟩ := all r small
  exact ⟨two, List.all_eq_true.mp digits, value⟩

/-- Hundredths are shown with a comma and read back. -/
theorem tariffMinor_text {minor : ℤ} (low : 0 ≤ minor) (high : minor ≤ maxTariffMinorPerKWh) :
    tariffMinor (toString (minor / 100) ++ "," ++ padStart (toString (minor.tmod 100))) = some minor.toNat := by
  obtain ⟨n, rfl⟩ := Int.eq_ofNat_of_zero_le low
  have bound : n ≤ maxTariffMinor := Int.ofNat_le.mp high
  obtain ⟨two, fractionDigits, fractionValue⟩ := padStart_hundredths (Nat.mod_lt n (by decide : 0 < 100))
  have quotient : (n : ℤ) / 100 = ((n / 100 : ℕ) : ℤ) := rfl
  have remainder : (n : ℤ).tmod 100 = ((n % 100 : ℕ) : ℤ) := rfl
  have major : (toString ((n / 100 : ℕ) : ℤ)).toList = Nat.toDigits 10 (n / 100) := Nat.toList_repr
  have majorValue : Nat.ofDigitChars 10 (Nat.toDigits 10 (n / 100)) 0 = n / 100 := Nat.ofDigitChars_ten_toDigits
  have majorDigits : ∀ c ∈ Nat.toDigits 10 (n / 100), c.isDigit = true :=
    fun c member => Nat.isDigit_of_mem_toDigits (by decide) (by decide) member
  rw [quotient, remainder, tariffMinor, String.toList_append, String.toList_append, major]
  generalize (padStart (toString ((n % 100 : ℕ) : ℤ))).toList = fraction at *
  have comma : (",".toList : List Char) = [','] := rfl
  have solid : ∀ c ∈ Nat.toDigits 10 (n / 100) ++ ',' :: fraction, isBlank c = false := by
    intro c member
    rcases List.mem_append.mp member with digit | rest
    · exact isBlank_of_isDigit (majorDigits c digit)
    · rcases List.mem_cons.mp rest with rfl | digit
      · decide
      · exact isBlank_of_isDigit (fractionDigits c digit)
  have front : (Nat.toDigits 10 (n / 100) ++ ',' :: fraction).takeWhile Char.isDigit = Nat.toDigits 10 (n / 100) := by
    rw [List.takeWhile_append_of_pos majorDigits]
    simp
  have rest : (Nat.toDigits 10 (n / 100) ++ ',' :: fraction).dropWhile Char.isDigit = ',' :: fraction := by
    rw [List.dropWhile_append_of_pos majorDigits]
    rfl
  have whole : n / 100 * 100 + n % 100 = n := by omega
  rw [comma, List.append_assoc, List.singleton_append, trim_eq solid, front, rest]
  dsimp only
  rw [if_pos ⟨Or.inr rfl, Or.inr two, List.all_eq_true.mpr fractionDigits⟩]
  dsimp only
  rw [two, Nat.sub_self, List.replicate_zero, List.append_nil, majorValue, fractionValue, whole]
  exact if_pos ⟨Nat.toDigits_ne_nil, bound⟩

end Numbers

section Coordinates

variable {rounding : Rounding}

/-- A coordinate as a machine has it: a double, up to its sign. -/
def IsDouble (rounding : Rounding) : Float64 → Prop
  | .finite value => rounding.IsDouble |value|
  | _ => True

/-- A coordinate that is zero, or whose shortest decimal is a millionth or more. -/
def Plain (rounding : Rounding) : Float64 → Prop
  | .finite value => value = 0 ∨ 1 / 10 ^ 6 ≤ (shortest rounding |value|).value
  | _ => False

/-- The characters of a number's text. -/
def InNumber (c : Char) : Prop := c.isDigit = true ∨ c ∈ ['.', 'e', '+', '-']

theorem inNumber_of_mem_text {d : Decimal} {c : Char} (member : c ∈ d.text) : InNumber c := by
  have digit : c ∈ d.digits → InNumber c := fun digit => Or.inl (Decimal.isDigit_of_mem_digits digit)
  have zero : ∀ {count}, c ∈ List.replicate count '0' → InNumber c := fun zero =>
    Or.inl (Decimal.isDigit_of_mem_zeros zero)
  have exponent : c ∈ 'e' :: (if d.point - 1 < 0 then '-' else '+') :: Nat.toDigits 10 (d.point - 1).natAbs →
      InNumber c := by
    intro member
    rcases List.mem_cons.mp member with rfl | rest
    · exact Or.inr (by decide)
    · rcases List.mem_cons.mp rest with rfl | digit
      · split <;> exact Or.inr (by decide)
      · exact Or.inl (Nat.isDigit_of_mem_toDigits (by decide) (by decide) digit)
  have point : c = '.' → InNumber c := fun same => Or.inr (by rw [same]; decide)
  rw [Decimal.text] at member
  split at member
  · exact (List.mem_append.mp member).elim digit zero
  split at member
  · rcases List.mem_append.mp member with front | back
    · exact digit (List.mem_of_mem_take front)
    · exact (List.mem_cons.mp back).elim point fun rest => digit (List.mem_of_mem_drop rest)
  split at member
  · rcases List.mem_cons.mp member with rfl | rest
    · exact Or.inl rfl
    · rcases List.mem_cons.mp rest with mark | rest
      · exact point mark
      · exact (List.mem_append.mp rest).elim zero digit
  split at member
  · exact (List.mem_append.mp member).elim digit exponent
  · rcases List.mem_append.mp member with front | back
    · exact digit (List.mem_of_mem_take front)
    · rcases List.mem_cons.mp back with mark | rest
      · exact point mark
      · exact (List.mem_append.mp rest).elim (fun rest => digit (List.mem_of_mem_drop rest)) exponent

theorem InNumber.solid {c : Char} (inNumber : InNumber c) : isBlank c = false := by
  rcases inNumber with digit | mark
  · exact isBlank_of_isDigit digit
  · simp only [List.mem_cons, List.not_mem_nil, or_false] at mark
    rcases mark with rfl | rfl | rfl | rfl <;> decide

theorem InNumber.ne_comma {c : Char} (inNumber : InNumber c) : c ≠ ',' := by
  rintro rfl
  rcases inNumber with digit | mark
  · exact absurd digit (by decide)
  · exact absurd mark (by decide)

/-- A number's text starts with a digit. -/
theorem text_head (d : Decimal) : ∃ c rest, d.text = c :: rest ∧ c.isDigit = true := by
  obtain ⟨first, others, digits⟩ := List.exists_cons_of_ne_nil d.digits_ne_nil
  have digit : first.isDigit = true := Decimal.isDigit_of_mem_digits (by rw [digits]; exact List.mem_cons_self)
  rw [Decimal.text]
  split
  · rw [digits]
    exact ⟨_, _, rfl, digit⟩
  split
  · next within =>
    obtain ⟨places, isPlaces⟩ := Nat.exists_eq_succ_of_ne_zero (show d.point.toNat ≠ 0 by omega)
    rw [digits, isPlaces]
    exact ⟨_, _, rfl, digit⟩
  split
  · exact ⟨_, _, rfl, rfl⟩
  split <;> rw [digits] <;> exact ⟨_, _, rfl, digit⟩

theorem decimal_negative {text : List Char} (inNumber : ∀ c ∈ text, InNumber c) :
    decimal rounding (String.ofList ('-' :: text)) = ((readDecimal text).bind rounding.reads).map Neg.neg := by
  have signed : ∀ c ∈ '-' :: text, InNumber c := List.forall_mem_cons.mpr ⟨Or.inr (by decide), inNumber⟩
  rw [decimal, String.toList_ofList, trim_eq fun c member => (signed c member).solid,
    replaceComma_eq fun comma => (signed _ comma).ne_comma rfl]
  rfl

theorem decimal_positive {text : List Char} (inNumber : ∀ c ∈ text, InNumber c) {c : Char} {rest : List Char}
    (head : text = c :: rest) (digit : c.isDigit = true) :
    decimal rounding (String.ofList text) = (readDecimal text).bind rounding.reads := by
  rw [decimal, String.toList_ofList, trim_eq fun c member => (inNumber c member).solid,
    replaceComma_eq fun comma => (inNumber _ comma).ne_comma rfl]
  split
  · cases head
    exact absurd digit (by decide)
  · cases head
    exact absurd digit (by decide)
  · rfl

/-- The shortest decimal of a double within degrees reads as the double unless it is written with an exponent. -/
theorem readDecimal_shortest {x : ℚ} (double : rounding.IsDouble x) (positive : 0 < x) (bound : x ≤ 180) :
    (readDecimal (shortest rounding x).text).bind rounding.reads =
      if 1 / 10 ^ 6 ≤ (shortest rounding x).value then some x else none := by
  obtain ⟨reads, -⟩ := shortest_spec double positive
  obtain ⟨leading, point⟩ := shortest_point double positive
  have small : Int.log 10 x < 3 := by
    rw [← Int.lt_zpow_iff_log_lt (by decide) positive]
    exact lt_of_le_of_lt bound (by norm_num)
  have near := Decimal.point_iff leading
  split
  · next plain =>
    rw [Decimal.readDecimal_text ⟨near.mpr plain, by omega⟩, Option.bind_some, reads]
  · next far =>
    rw [Decimal.readDecimal_exponent fun plain => far (near.mp plain.1), Option.bind_none]

/-- The text of a double within degrees is read back exactly when it has no exponent. -/
theorem decimal_numberText {value : ℚ} (double : IsDouble rounding (.finite value)) (bound : |value| ≤ 180) :
    decimal rounding (numberText rounding (.finite value)) =
      if value = 0 ∨ 1 / 10 ^ 6 ≤ (shortest rounding |value|).value then some value else none := by
  have read : value ≠ 0 → (readDecimal (shortest rounding |value|).text).bind rounding.reads =
      if 1 / 10 ^ 6 ≤ (shortest rounding |value|).value then some |value| else none :=
    fun nonzero => readDecimal_shortest double (abs_pos.mpr nonzero) bound
  rcases lt_trichotomy value 0 with negative | rfl | positive
  · have magnitude := read negative.ne
    rw [abs_of_neg negative] at magnitude ⊢
    rw [numberText, numberToString, if_neg negative.ne, if_pos negative,
      decimal_negative fun _ => inNumber_of_mem_text, magnitude]
    simp only [negative.ne, false_or]
    split
    · rw [Option.map_some, neg_neg]
    · rfl
  · have digit : ∀ c ∈ ['0'], c.isDigit = true := List.forall_mem_singleton.mpr rfl
    have zero : readDecimal ['0'] = some 0 := readDecimal_whole digit (by decide)
    have exactly := double.reads
    rw [abs_zero] at exactly
    rw [numberText, numberToString, if_pos rfl, decimal_positive (fun c member => Or.inl (digit c member)) rfl rfl,
      zero, Option.bind_some, exactly, if_pos (Or.inl rfl)]
  · have magnitude := read positive.ne'
    obtain ⟨c, rest, head, digit⟩ := text_head (shortest rounding value)
    rw [abs_of_pos positive] at magnitude ⊢
    rw [numberText, numberToString, if_neg positive.ne', if_neg positive.not_gt,
      decimal_positive (fun _ => inNumber_of_mem_text) head digit, magnitude]
    simp only [positive.ne', false_or]

end Coordinates

section Fields

theorem validPart_toDigits {n : ℕ} (byte : n ≤ 255) : validPart (Nat.toDigits 10 n) = true := by
  have all : ∀ n < 256, validPart (Nat.toDigits 10 n) = true := by decide +kernel
  exact all n (by omega)

theorem validIPv4_addressText {a b c d : ℕ} (bytes : AreBytes [a, b, c, d]) :
    validIPv4 (addressText (a, b, c, d)) = true := by
  simp only [AreBytes, List.forall_mem_cons] at bytes
  obtain ⟨first, second, third, fourth, -⟩ := bytes
  rw [validIPv4, splitOn_addressText]
  simp only [List.all_cons, List.all_nil, validPart_toDigits, first, second, third, fourth, List.length_cons,
    List.length_nil, Bool.and_self, decide_true]

/-- An address is left as it is. -/
theorem trim_addressText (address : ℕ × ℕ × ℕ × ℕ) :
    trim (addressText address).toList = (addressText address).toList := by
  rcases address with ⟨a, b, c, d⟩
  apply trim_eq
  intro x member
  have digit : ∀ n, x ∈ Nat.toDigits 10 n → isBlank x = false := fun n member =>
    isBlank_of_isDigit (Nat.isDigit_of_mem_toDigits (by decide) (by decide) member)
  simp only [toList_addressText, List.mem_append, List.mem_cons] at member
  rcases member with first | rfl | second | rfl | third | rfl | fourth
  · exact digit a first
  · decide
  · exact digit b second
  · decide
  · exact digit c third
  · decide
  · exact digit d fourth

/-- The code of a currency is left as it is. -/
theorem currency_eq (upper : Char → List Char) {currency : String} (known : validCurrency currency = true) :
    String.ofList (toUpperCase upper (trim currency.toList)) = currency := by
  have member : currency ∈ iso4217 := of_decide_eq_true known
  have capitals : ∀ code ∈ iso4217, code.toList.all Char.isUpper = true := by decide +kernel
  have ofCode := List.all_eq_true.mp (capitals currency member)
  have same : toUpperCase upper currency.toList = currency.toList := by
    calc
      _ = currency.toList.flatMap fun c => [c] := by
        rw [toUpperCase]
        apply List.flatMap_congr
        intro c member
        obtain ⟨ascii, stays⟩ := toUpper_of_isUpper (ofCode c member)
        rw [if_pos ascii, stays]
      _ = _ := List.flatMap_singleton' _
  rw [trim_eq fun c member => isBlank_of_isUpper (ofCode c member), same, String.ofList_toList]

theorem checkMPPT_cons {previous : Option ℤ} {input : ℤ} {rest : List ℤ}
    (valid : checkMPPT previous (input :: rest) = .ok ()) :
    (1 ≤ input ∧ input ≤ 2) ∧ previous ≠ some input ∧ checkMPPT (some input) rest = .ok () := by
  rw [checkMPPT] at valid
  split at valid
  · cases valid
  next known =>
  split at valid
  · cases valid
  next other => exact ⟨by omega, other, valid⟩

/-- The inputs that a document has: one of them, or both in order. -/
theorem mppt_cases {inputs mppt : List ℤ} (valid : normalizeMPPT inputs = .ok mppt) :
    mppt = [1] ∨ mppt = [2] ∨ mppt = [1, 2] := by
  obtain ⟨occupied, sorted, checked⟩ := normalizeMPPT_ok valid
  rcases mppt with - | ⟨a, - | ⟨b, - | ⟨c, rest⟩⟩⟩
  · exact absurd rfl occupied
  · obtain ⟨range, -, -⟩ := checkMPPT_cons checked
    have either : a = 1 ∨ a = 2 := by omega
    exact either.imp (fun one => by rw [one]) fun two => Or.inl (by rw [two])
  all_goals
    obtain ⟨first, -, afterFirst⟩ := checkMPPT_cons checked
    obtain ⟨second, differs, afterSecond⟩ := checkMPPT_cons afterFirst
    have order := (List.pairwise_cons.mp sorted).1 b List.mem_cons_self
    have apart : a ≠ b := fun same => differs (congrArg some same)
    obtain ⟨rfl, rfl⟩ : a = 1 ∧ b = 2 := by omega
  · exact Or.inr (Or.inr rfl)
  · obtain ⟨third, again, -⟩ := checkMPPT_cons afterSecond
    have order := (List.pairwise_cons.mp (List.pairwise_cons.mp sorted).2).1 c List.mem_cons_self
    have apart : c ≠ 2 := fun same => again (congrArg some same.symm)
    omega

/-- The order of their texts is that of the inputs. -/
theorem sortTexts_mppt {mppt : List ℤ} (known : mppt = [1] ∨ mppt = [2] ∨ mppt = [1, 2]) :
    sortTexts mppt = mppt := by
  have order : toString (1 : ℤ) ≤ toString (2 : ℤ) := by decide
  apply List.Pairwise.insertionSort_eq
  rcases known with rfl | rfl | rfl
  · exact List.pairwise_singleton _ _
  · exact List.pairwise_singleton _ _
  · exact List.pairwise_pair.mpr order

end Fields

/-- What is known of a document that the server has accepted. -/
structure Canonical (settings : Settings) : Prop where
  host : ∃ a b c d, AreBytes [a, b, c, d] ∧ settings.loggerHost = addressText (a, b, c, d)
  serial : ∃ serial : ℕ, serial ≤ 2 ^ 32 - 1 ∧ settings.loggerSerial = toString serial
  port : 1 ≤ settings.loggerPort ∧ settings.loggerPort ≤ 65535
  slave : 1 ≤ settings.modbusSlave ∧ settings.modbusSlave ≤ 247
  panels : 0 < settings.panelCount ∧ 0 < settings.panelWattage
  power : settings.panelCount * settings.panelWattage ≤ 12000
  mppt : settings.activeMPPT = [1] ∨ settings.activeMPPT = [2] ∨ settings.activeMPPT = [1, 2]
  latitude : Config.withinDegrees settings.latitude 90 = true
  longitude : Config.withinDegrees settings.longitude 180 = true
  named : settings.timezone ≠ "" ∧ settings.timezone ≠ "Local"
  currency : validCurrency settings.currency = true
  tariff : 0 ≤ settings.tariffMinorPerKWh ∧ settings.tariffMinorPerKWh ≤ maxTariffMinorPerKWh
  retention : 30 ≤ settings.retentionDays ∧ settings.retentionDays ≤ 3650

theorem canonical_of_valid {zones : String → Except String Zone} {input settings : Settings} {allowPublicLogger : Bool}
    (valid : Config.validateSettings zones input allowPublicLogger = .ok settings) : Canonical settings := by
  obtain ⟨⟨a, b, c, d⟩, serial, mppt, accepted, rfl⟩ := (validateSettings_ok zones).mp valid
  have power : input.panelCount * input.panelWattage ≤ 12000 := by
    have quotient := accepted.power
    rw [Int.tdiv_eq_ediv_of_nonneg (by decide)] at quotient
    exact (Int.le_ediv_iff_mul_le accepted.panels.2).mp quotient
  exact {
    host := ⟨a, b, c, d, validateAddress_bytes accepted.address, rfl⟩
    serial := ⟨serial, parseUint_le accepted.serial, rfl⟩
    port := accepted.port
    slave := accepted.slave
    panels := accepted.panels
    power := power
    mppt := mppt_cases accepted.mppt
    latitude := accepted.latitude
    longitude := accepted.longitude
    named := accepted.named
    currency := accepted.currency
    tariff := accepted.tariff
    retention := accepted.retention }

section Form

variable {rounding : Rounding} {intl : String → Bool} {upper : Char → List Char} {settings : Settings}

theorem check_eq_nil {valid : Bool} {field : SettingsField} {message : String} :
    check valid field message = [] ↔ valid = true := by
  rw [check]
  split <;> simp_all

theorem within_int {n : ℤ} {low high : ℕ} (bounds : (low : ℤ) ≤ n ∧ n ≤ high) (small : high ≤ 2 ^ 53 - 1) :
    within (integer (toString n)) low high = true := by
  rw [integer_int (by omega) (by omega), within, Option.any_some, Bool.and_eq_true, decide_eq_true_eq,
    decide_eq_true_eq]
  omega

/-- A coordinate within the server's bounds is finite, and read when it is plain. -/
theorem decimal_of_degrees {coordinate : Float64} {bound : ℚ} (small : bound ≤ 180)
    (double : IsDouble rounding coordinate) (degrees : Config.withinDegrees coordinate bound = true) :
    ∃ value, coordinate = .finite value ∧ (-bound ≤ value ∧ value ≤ bound) ∧
      decimal rounding (numberText rounding coordinate) =
        if value = 0 ∨ 1 / 10 ^ 6 ≤ (shortest rounding |value|).value then some value else none := by
  cases coordinate with
  | nan => cases degrees
  | infinite negative => cases degrees
  | finite value =>
    rw [Config.withinDegrees, Bool.and_eq_true, Bool.and_eq_true, Float64.le, Float64.le, decide_eq_true_eq,
      decide_eq_true_eq] at degrees
    obtain ⟨⟨-, low⟩, high⟩ := degrees
    exact ⟨value, rfl, ⟨low, high⟩, decimal_numberText double (abs_le.mpr ⟨by linarith, by linarith⟩)⟩

theorem getD_decimal {coordinate : Float64} {bound : ℚ} (small : bound ≤ 180) (double : IsDouble rounding coordinate)
    (degrees : Config.withinDegrees coordinate bound = true) (plain : Plain rounding coordinate) :
    Float64.finite ((decimal rounding (numberText rounding coordinate)).getD 0) = coordinate := by
  obtain ⟨value, rfl, -, read⟩ := decimal_of_degrees small double degrees
  rw [Plain] at plain
  rw [read, if_pos plain, Option.getD_some]

/-- The form finds a coordinate within its bounds exactly when it is plain. -/
theorem withinDegrees_iff {coordinate : Float64} {bound : ℚ} (small : bound ≤ 180)
    (double : IsDouble rounding coordinate) (degrees : Config.withinDegrees coordinate bound = true) :
    withinDegrees (decimal rounding (numberText rounding coordinate)) bound = true ↔ Plain rounding coordinate := by
  obtain ⟨value, rfl, bounds, read⟩ := decimal_of_degrees small double degrees
  rw [read, Plain, withinDegrees]
  split
  · next plain =>
    rw [Option.any_some, Bool.and_eq_true, decide_eq_true_eq, decide_eq_true_eq]
    exact iff_of_true bounds plain
  · next exponent =>
    exact iff_of_false (by rw [Option.any_none]; decide) exponent

theorem getD_integer {n : ℤ} (low : 0 ≤ n) (high : n ≤ 2 ^ 53 - 1) : ((integer (toString n)).getD 0 : ℤ) = n := by
  rw [integer_int low high, Option.getD_some, Int.toNat_of_nonneg low]

theorem panels_text (canonical : Canonical settings) :
    integer (toString settings.panelCount) = some settings.panelCount.toNat ∧
      integer (toString settings.panelWattage) = some settings.panelWattage.toNat := by
  obtain ⟨count, wattage⟩ := canonical.panels
  have power := canonical.power
  have countBound : settings.panelCount ≤ 12000 := by nlinarith
  have wattageBound : settings.panelWattage ≤ 12000 := by nlinarith
  exact ⟨integer_int count.le (by omega), integer_int wattage.le (by omega)⟩

theorem serial_valid (canonical : Canonical settings) : (settings.loggerSerial ≠ "" &&
    settings.loggerSerial.toList.all Char.isDigit &&
      Nat.ofDigitChars 10 settings.loggerSerial.toList 0 ≤ 4294967295) = true := by
  obtain ⟨serial, fits, same⟩ := canonical.serial
  have text : (toString serial).toList = Nat.toDigits 10 serial := Nat.toList_repr
  have value : Nat.ofDigitChars 10 (Nat.toDigits 10 serial) 0 = serial := Nat.ofDigitChars_ten_toDigits
  have digits : (Nat.toDigits 10 serial).all Char.isDigit = true :=
    List.all_eq_true.mpr fun c member => Nat.isDigit_of_mem_toDigits (by decide) (by decide) member
  have occupied : toString serial ≠ "" := Nat.repr_ne_empty
  rw [same, text, value, digits, decide_eq_true occupied, decide_eq_true (by omega)]
  rfl

/-- An accepted document is shown without errors exactly when its coordinates are plain and the browser knows
its time zone. -/
theorem validateSettings_eq_nil (canonical : Canonical settings) (latitude : IsDouble rounding settings.latitude)
    (longitude : IsDouble rounding settings.longitude) :
    validateSettings rounding intl upper (settingsToValues rounding settings) = [] ↔
      Plain rounding settings.latitude ∧ Plain rounding settings.longitude ∧ intl settings.timezone = true := by
  obtain ⟨a, b, c, d, bytes, host⟩ := canonical.host
  obtain ⟨count, wattage⟩ := panels_text canonical
  have strong : ¬12000 < settings.panelCount.toNat * settings.panelWattage.toNat := by
    have power := canonical.power
    rw [← Int.toNat_of_nonneg canonical.panels.1.le, ← Int.toNat_of_nonneg canonical.panels.2.le] at power
    exact not_lt.mpr (by exact_mod_cast power)
  have positive : 1 ≤ settings.panelCount.toNat ∧ 1 ≤ settings.panelWattage.toNat := by
    have panels := canonical.panels
    omega
  have serial := serial_valid canonical
  have inputs : settings.activeMPPT ≠ [] := by
    rcases canonical.mppt with one | two | both
    · rw [one]; decide
    · rw [two]; decide
    · rw [both]; decide
  have timezone : validTimezone intl settings.timezone = true ↔ intl settings.timezone = true := by
    rw [validTimezone, decide_eq_true canonical.named.1, decide_eq_true canonical.named.2]
    rfl
  have currency : String.ofList (toUpperCase upper (trim settings.currency.toList)) ∈ helioISO4217 := by
    rw [currency_eq upper canonical.currency]
    exact of_decide_eq_true canonical.currency
  have port := @within_int settings.loggerPort 1 65535 canonical.port (by decide)
  have slave := @within_int settings.modbusSlave 1 247 canonical.slave (by decide)
  have retention := @within_int settings.retentionDays 30 3650 canonical.retention (by decide)
  have onLatitude := withinDegrees_iff (by norm_num) latitude canonical.latitude
  have onLongitude := withinDegrees_iff (by norm_num) longitude canonical.longitude
  simp only [validateSettings, settingsToValues, List.append_eq_nil_iff, check_eq_nil, count, wattage, host,
    validIPv4_addressText bytes, port, slave, retention, onLatitude, onLongitude, timezone, currency, serial,
    tariffMinor_text canonical.tariff.1 canonical.tariff.2, Option.any_some, positive, strong]
  simp [inputs, and_assoc]

/-- The fields of an accepted document with plain coordinates are read back, but for blanks around the name of
its time zone. -/
theorem valuesToSettings_eq (canonical : Canonical settings) (latitude : IsDouble rounding settings.latitude)
    (longitude : IsDouble rounding settings.longitude) (plainLatitude : Plain rounding settings.latitude)
    (plainLongitude : Plain rounding settings.longitude) :
    { valuesToSettings rounding upper (settingsToValues rounding settings) with
      installedPowerW := settings.installedPowerW } =
      { settings with timezone := String.ofList (trim settings.timezone.toList) } := by
  obtain ⟨a, b, c, d, -, host⟩ := canonical.host
  obtain ⟨count, wattage⟩ := panels_text canonical
  have port := canonical.port
  have slave := canonical.slave
  have panels := canonical.panels
  have retention := canonical.retention
  have tariff := canonical.tariff
  have hostText : String.ofList (trim settings.loggerHost.toList) = settings.loggerHost := by
    rw [host, trim_addressText, String.ofList_toList]
  simp only [valuesToSettings, settingsToValues, Settings.mk.injEq]
  refine ⟨hostText, trivial, getD_integer (by omega) (by omega), getD_integer (by omega) (by omega), ?_, ?_,
    sortTexts_mppt canonical.mppt, trivial, ?_, ?_, trivial, currency_eq upper canonical.currency, ?_,
    getD_integer (by omega) (by omega)⟩
  · rw [count, Option.getD_some, Int.toNat_of_nonneg panels.1.le]
  · rw [wattage, Option.getD_some, Int.toNat_of_nonneg panels.2.le]
  · exact getD_decimal (by norm_num) latitude canonical.latitude plainLatitude
  · exact getD_decimal (by norm_num) longitude canonical.longitude plainLongitude
  · rw [tariffMinor_text tariff.1 tariff.2, Option.getD_some, Int.toNat_of_nonneg tariff.1]

end Form

/-- A document that the server accepts is shown without errors and read back exactly when its coordinates are
plain and its time zone is one that the browser knows, without blanks around it. -/
theorem settings_round_trip_iff (rounding : Rounding) (intl : String → Bool) (upper : Char → List Char)
    (zones : String → Except String Zone) (allowPublicLogger : Bool) {input settings : Settings}
    (valid : Config.validateSettings zones input allowPublicLogger = .ok settings)
    (latitude : IsDouble rounding settings.latitude) (longitude : IsDouble rounding settings.longitude) :
    (validateSettings rounding intl upper (settingsToValues rounding settings) = [] ∧
      { valuesToSettings rounding upper (settingsToValues rounding settings) with
        installedPowerW := settings.installedPowerW } = settings) ↔
      (Plain rounding settings.latitude ∧ Plain rounding settings.longitude) ∧
        intl settings.timezone = true ∧ trim settings.timezone.toList = settings.timezone.toList := by
  have canonical := canonical_of_valid valid
  rw [validateSettings_eq_nil canonical latitude longitude]
  constructor
  · rintro ⟨⟨plainLatitude, plainLongitude, known⟩, same⟩
    rw [valuesToSettings_eq canonical latitude longitude plainLatitude plainLongitude] at same
    have timezone := congrArg (String.toList ∘ Settings.timezone) same
    rw [Function.comp_apply, Function.comp_apply, String.toList_ofList] at timezone
    exact ⟨⟨plainLatitude, plainLongitude⟩, known, timezone⟩
  · rintro ⟨⟨plainLatitude, plainLongitude⟩, known, solid⟩
    refine ⟨⟨plainLatitude, plainLongitude, known⟩, ?_⟩
    rw [valuesToSettings_eq canonical latitude longitude plainLatitude plainLongitude, solid, String.ofList_toList]

/-- A small installation at a latitude, and at the double nearest to 49.2733 degrees west. -/
def documentAt (latitude : ℚ) : Settings :=
  ⟨"192.168.0.16", "7", 8899, 1, 7, 610, [1, 2], 4270, .finite latitude,
    .finite (Rounding.binary64.round (-492733 / 10000)), "UTC", "BRL", 95, 730⟩

/-- The double nearest to 25.4284 degrees south. -/
def curitiba : Settings := documentAt (Rounding.binary64.round (-254284 / 10000))

theorem settings_round_trip_iff_curitiba :
    validateSettings Rounding.binary64 (· = "UTC") (fun c => [c]) (settingsToValues Rounding.binary64 curitiba) = [] ∧
    { valuesToSettings Rounding.binary64 (fun c => [c]) (settingsToValues Rounding.binary64 curitiba) with
      installedPowerW := curitiba.installedPowerW } = curitiba := by
  have valid : Config.validateSettings (fun _ => .error "unknown time zone") curitiba false = .ok curitiba := by
    decide +kernel
  apply (settings_round_trip_iff Rounding.binary64 (· = "UTC") (fun c => [c]) (fun _ => .error "unknown time zone") false
    valid ⟨by decide +kernel, 48, by decide +kernel⟩ ⟨by decide +kernel, 47, by decide +kernel⟩).mpr
  exact ⟨⟨Or.inr (by decide +kernel), Or.inr (by decide +kernel)⟩, by decide, by decide +kernel⟩

/-- A latitude next to the equator is shown with an exponent, which the form refuses and takes for zero. -/
theorem tiny_latitude_refused : Config.validateSettings (fun _ => .error "unknown time zone") (documentAt (1 / 2 ^ 24))
    false = .ok (documentAt (1 / 2 ^ 24)) ∧
      validateSettings Rounding.binary64 (· = "UTC") (fun c => [c])
        (settingsToValues Rounding.binary64 (documentAt (1 / 2 ^ 24))) =
          [(.latitude, "Informe uma latitude finita entre -90 e 90.")] ∧
      (valuesToSettings Rounding.binary64 (fun c => [c]) (settingsToValues Rounding.binary64
        (documentAt (1 / 2 ^ 24)))).latitude = .finite 0 := by
  refine ⟨?_, ?_, ?_⟩ <;> decide +kernel

end Helio.SettingsForm
