import Helio.Calendar.ReadTime
import Helio.Model.Publisher
import Helio.Soundness.FaultVisibility

/-! # What the relay accepts of the publisher

The relay checks the seconds and the signature of a request, and every field of its snapshot. What the
publisher sends passes these checks but for the clocks of the two and for what the decoder does not bound: the
energy of a day may be more than the relay takes.
-/

namespace Helio.Alexapush

open Calendar Domain Relay

/-- `hex.EncodeToString` of 32 bytes. -/
def IsDigest (digest : String) : Prop :=
  digest.toList.length = 64 ∧ digest.toList.all fun c => c.isDigit || 'a' ≤ c && c ≤ 'f'

instance (digest : String) : Decidable (IsDigest digest) := inferInstanceAs (Decidable (_ ∧ _))

/-- The relay reads what the publisher writes, and the two share a secret. `Date.parse` drops what is finer
than milliseconds. -/
structure Understands {Body : Type} (encoder : Encoder Body) (platform : Platform Body) : Prop where
  parses : ∀ payload fields, SnapshotPayload.fields payload = some fields →
    platform.parseJson (encoder.marshal fields) = some (.object fields)
  dates : ∀ t, FourDigitYear t → platform.parseDate (String.ofList (rfc3339Nano t)) = some (t / 1000000)
  shares : ∀ timestamp body, encoder.hmac timestamp body = platform.hmac timestamp body
  digests : ∀ timestamp body, IsDigest (platform.hmac timestamp body)

section Texts

/-- The shape of digits is as many zeros. -/
theorem digits_shape (width n : ℕ) :
    (digits width n).map (fun c => if c.isDigit then '0' else c) = List.replicate width '0' := by
  rw [List.eq_replicate_iff, List.length_map, digits_length]
  refine ⟨rfl, fun c member => ?_⟩
  obtain ⟨digit, inside, rfl⟩ := List.mem_map.mp member
  exact if_pos (digits_isDigit inside)

/-- A fraction is not there, or a point and up to nine digits. -/
theorem fractionText_cases (n : ℕ) : fractionText n = [] ∨ ∃ fraction, fractionText n = '.' :: fraction ∧
    1 ≤ fraction.length ∧ fraction.length ≤ 9 ∧ fraction.all Char.isDigit = true := by
  have shorter : ((digits 9 n).rdropWhile fun c => c = '0') <+: digits 9 n := List.rdropWhile_prefix _ _
  have bound := shorter.length_le
  rw [digits_length] at bound
  have all : ∀ c ∈ (digits 9 n).rdropWhile (fun c => c = '0'), c.isDigit = true := fun c member =>
    digits_isDigit (shorter.subset member)
  rw [fractionText]
  split
  · exact Or.inl rfl
  · next nonempty =>
    refine Or.inr ⟨_, rfl, List.length_pos_iff.mpr ?_, bound, List.all_eq_true.mpr all⟩
    exact fun empty => nonempty empty

/-- Both texts of a time are alike up to the fraction. -/
theorem rfc3339Nano_parts {t : ℤ} (year : FourDigitYear t) : ∃ front,
    rfc3339Nano t = front ++ (fractionText (t % second).toNat ++ ['Z']) ∧
      formatTime t = front ++ '.' :: (digits 9 (t % second).toNat ++ ['Z']) ∧ front.length = 19 ∧
        front.map (fun c => if c.isDigit then '0' else c) = "0000-00-00T00:00:00".toList := by
  obtain ⟨low, high⟩ := year
  refine ⟨_, by rw [rfc3339Nano, ← List.append_assoc], ?_, ?_, ?_⟩
  · simp [formatTime]
  · simp [yearDigits_eq low high, digits_length]
  · simp only [yearDigits_eq low high, List.map_append, List.map_cons, digits_shape]
    decide

/-- The time of a payload has the form that the relay asks for. -/
theorem isDateText_rfc3339Nano {t : ℤ} (year : FourDigitYear t) :
    isDateText (String.ofList (rfc3339Nano t)) = true := by
  obtain ⟨front, text, -, length, shape⟩ := rfc3339Nano_parts year
  have start : (front ++ (fractionText (t % second).toNat ++ ['Z'])).take 19 = front := List.take_left' length
  have rest : (front ++ (fractionText (t % second).toNat ++ ['Z'])).drop 19 =
      fractionText (t % second).toNat ++ ['Z'] := List.drop_left' length
  rw [isDateText, String.toList_ofList, text]
  simp only [start, rest, shape, decide_true, Bool.true_and]
  rcases fractionText_cases (t % second).toNat with none | ⟨fraction, some, long, short, digits⟩
  · rw [none]
    rfl
  · rw [some, List.cons_append]
    simp [long, short, digits]

/-- Reading a time whose fraction has up to nine digits. -/
def readNano (text : List Char) : Option ℤ :=
  let fraction := (text.drop 20).dropLast
  readTime (text.take 19 ++ '.' :: (fraction ++ List.replicate (9 - fraction.length) '0' ++ ['Z']))

/-- The zeros that a text leaves out are put back. -/
theorem readNano_rfc3339Nano {t : ℤ} (year : FourDigitYear t) : readNano (rfc3339Nano t) = some t := by
  obtain ⟨front, text, whole, length, -⟩ := rfc3339Nano_parts year
  have padded {fraction : List Char} (same : fraction = (digits 9 (t % second).toNat).rdropWhile fun c => c = '0') :
      fraction ++ List.replicate (9 - fraction.length) '0' = digits 9 (t % second).toNat := by
    have split : (digits 9 (t % second).toNat).rdropWhile (fun c => decide (c = '0')) ++
        (digits 9 (t % second).toNat).rtakeWhile (fun c => decide (c = '0')) = digits 9 (t % second).toNat :=
      List.rdropWhile_append_rtakeWhile
    have size := congrArg List.length split
    rw [List.length_append, digits_length] at size
    have zeros : (digits 9 (t % second).toNat).rtakeWhile (fun c => decide (c = '0')) =
        List.replicate (9 - fraction.length) '0' := by
      rw [List.eq_replicate_iff]
      exact ⟨by rw [same]; omega, fun c member => by
        simpa using List.mem_rtakeWhile_imp (p := fun c => decide (c = '0')) member⟩
    rw [← zeros, same, split]
  rw [← readTime_formatTime year, whole, readNano, text]
  simp only [List.take_left' length]
  rw [fractionText]
  split
  · next none =>
    have all := padded none.symm
    rw [List.length_nil, List.nil_append] at all
    have short : (front ++ ([] ++ ['Z'])).drop 20 = [] := List.drop_eq_nil_of_le (by simp [length])
    simp only [short, ← all]
    rfl
  · next none =>
    have rest (c : Char) (fraction : List Char) : (front ++ (c :: fraction)).drop 20 = fraction := by
      rw [List.append_cons]
      exact List.drop_left' (by simp [length])
    rw [List.cons_append, rest]
    simp [padded rfl]

theorem parseSeconds_toString (unix : ℤ) :
    parseSeconds (toString unix) = if 10 ^ 9 ≤ unix ∧ unix < 10 ^ 10 then some unix else none := by
  rcases lt_or_ge unix 0 with negative | positive
  · obtain ⟨n, rfl⟩ := Int.eq_negSucc_of_lt_zero negative
    have sign : '-' ∈ (toString (Int.negSucc n)).toList := by
      simp [toString, Int.repr]
    rw [parseSeconds, if_neg, if_neg (by omega)]
    rintro ⟨-, digits⟩
    exact absurd (List.all_eq_true.mp digits _ sign) (by decide)
  · obtain ⟨n, rfl⟩ := Int.eq_ofNat_of_zero_le positive
    have text : (toString (n : ℤ)).toList = Nat.toDigits 10 n := Nat.toList_repr
    have value : (Nat.toDigits 10 n).foldl (fun n c => 10 * n + (c.toNat - '0'.toNat)) 0 = n :=
      Nat.ofDigitChars_ten_toDigits
    have digits : (Nat.toDigits 10 n).all Char.isDigit = true :=
      List.all_eq_true.mpr fun c member => Nat.isDigit_of_mem_toDigits (by decide) (by decide) member
    have short : (Nat.toDigits 10 n).length ≤ 10 ↔ n < 10 ^ 10 := Nat.length_toDigits_le_iff (by omega) (by omega)
    have shorter : (Nat.toDigits 10 n).length ≤ 9 ↔ n < 10 ^ 9 := Nat.length_toDigits_le_iff (by omega) (by omega)
    rw [parseSeconds, text, value]
    simp only [digits, and_true]
    split
    · rw [if_pos (by omega)]
    · rw [if_neg (by omega)]

theorem isSignature_digest {digest : String} (hex : IsDigest digest) : isSignature ("sha256=" ++ digest) = true := by
  obtain ⟨length, hex⟩ := hex
  have start : ("sha256=".toList ++ digest.toList).take 7 = "sha256=".toList := List.take_left' rfl
  have rest : ("sha256=".toList ++ digest.toList).drop 7 = digest.toList := List.drop_left' rfl
  rw [isSignature, String.toList_append]
  simp only [start, rest, length, hex, decide_true, Bool.and_self]

/-- Every status of the decoder is one for the relay. -/
theorem isStatus_statusName (value : Sofar.Register) : isStatus (Sofar.statusName value) = true := by
  rw [Sofar.statusName]
  split
  · next status found =>
    have named := List.mem_of_getElem? found
    have all : ∀ status ∈ ["waiting", "detection", "normal", "emergency_power", "fault", "permanent_fault",
        "upgrading", "self_charging"], isStatus status = true := by decide
    exact all status named
  · have text : (toString value.toNat).toList = Nat.toDigits 10 value.toNat := Nat.toList_repr
    have short : (Nat.toDigits 10 value.toNat).length ≤ 5 :=
      (Nat.length_toDigits_le_iff (by omega) (by omega)).mpr (value.isLt.trans (by decide))
    have digits : ∀ c ∈ Nat.toDigits 10 value.toNat, c.isDigit = true := fun c member =>
      Nat.isDigit_of_mem_toDigits (by decide) (by decide) member
    have front : "unknown_".toList = ['u', 'n', 'k', 'n', 'o', 'w', 'n', '_'] := rfl
    rw [isStatus, String.toList_append, text, front]
    simp only [List.length_append, List.all_append, Bool.and_eq_true, decide_eq_true_eq]
    have length : [('u' : Char), 'n', 'k', 'n', 'o', 'w', 'n', '_'].length = 8 := rfl
    refine ⟨⟨by omega, by omega⟩, by decide, List.all_eq_true.mpr fun c member => ?_⟩
    simp [Char.isAlphanum, digits c member]

end Texts

section Requests

variable {Body : Type} {encoder : Encoder Body} {platform : Platform Body}

/-- What a payload says to the relay. -/
def SnapshotPayload.snapshot (payload : SnapshotPayload) (acPowerW energyTodayWh : ℚ) : Snapshot where
  observedAt := payload.observedAt / 1000000
  acPowerW := acPowerW
  energyTodayWh := energyTodayWh
  status := payload.status
  stale := payload.stale

/-- The relay reads a payload back when its values are within its bounds. -/
theorem readSnapshot_fields (understands : Understands encoder platform) {payload : SnapshotPayload}
    {fields : List (String × Json)} {w e : ℚ} (written : payload.fields = some fields) (version : payload.version = 1)
    (acPowerW : payload.acPowerW = .finite w) (energyTodayWh : payload.energyTodayWh = .finite e) :
    readSnapshot platform fields =
      if (0 ≤ w ∧ w ≤ 1000000) ∧ (0 ≤ e ∧ e ≤ 100000000) ∧ isStatus payload.status = true then
        some (payload.snapshot w e)
      else none := by
  obtain ⟨⟨year, -⟩, same⟩ := Option.ite_none_right_eq_some.mp written
  obtain rfl := Option.some.inj same
  have dated := isDateText_rfc3339Nano year
  have read := understands.dates _ year
  have bounded {value maximum : ℚ} : finiteBetween (some (.number (.finite value))) 0 maximum =
      if 0 ≤ value ∧ value ≤ maximum then some value else none := rfl
  rw [version, acPowerW, energyTodayWh]
  by_cases power : 0 ≤ w ∧ w ≤ 1000000
  · by_cases energy : 0 ≤ e ∧ e ≤ 100000000
    · by_cases status : isStatus payload.status = true
      · simp [readSnapshot, allowedKeys, List.lookup_cons, bounded, power, energy, status, dated, read,
          SnapshotPayload.snapshot]
      · simp [readSnapshot, allowedKeys, List.lookup_cons, bounded, power, energy, status]
    · simp [readSnapshot, allowedKeys, List.lookup_cons, bounded, power, energy]
  · simp [readSnapshot, allowedKeys, List.lookup_cons, bounded, power]

/-- What a request holds. -/
theorem request_cases {payload : SnapshotPayload} {unix : ℤ} {made : IngestRequest Body}
    (here : request encoder payload unix = some made) : ∃ fields, payload.fields = some fields ∧
      made = ⟨some (encoder.marshal fields), toString unix,
        "sha256=" ++ encoder.hmac (toString unix) (encoder.marshal fields)⟩ := by
  rw [request] at here
  obtain ⟨fields, written, same⟩ := Option.bind_eq_some_iff.mp here
  exact ⟨fields, written, (Option.some.inj same).symm⟩

/-- The signature of a request is as it should be, so only its time decides. -/
theorem verifySignature_request (understands : Understands encoder platform) {payload : SnapshotPayload} {unix : ℤ}
    {made : IngestRequest Body} (here : request encoder payload unix = some made) (authenticatedAt : ℤ) :
    verifySignature platform made authenticatedAt = .ok () ↔
      (10 ^ 9 ≤ unix ∧ unix < 10 ^ 10) ∧ |authenticatedAt - unix * 1000| ≤ fiveMinutes := by
  obtain ⟨fields, -, rfl⟩ := request_cases here
  have hex := understands.digests (toString unix) (encoder.marshal fields)
  rw [verifySignature]
  simp only [parseSeconds_toString, understands.shares, isSignature_digest hex]
  by_cases ten : 10 ^ 9 ≤ unix ∧ unix < 10 ^ 10
  · simp only [ten, and_self, true_and, if_true]
    by_cases expired : fiveMinutes < |authenticatedAt - unix * 1000|
    · simp [expired]
    · simp [expired, not_lt.mp expired]
  · simp only [ten, if_false, false_and, reduceCtorEq]

/-- The relay accepts a request exactly when the clocks agree and the values are within its bounds. -/
theorem accepted_iff (understands : Understands encoder platform) {payload : SnapshotPayload} {unix : ℤ}
    {made : IngestRequest Body} (here : request encoder payload unix = some made) (version : payload.version = 1)
    {w e : ℚ} (acPowerW : payload.acPowerW = .finite w) (energyTodayWh : payload.energyTodayWh = .finite e)
    (data : Data) (authenticatedAt parsedAt : ℤ) :
    (∃ updated, (ingest platform data made authenticatedAt parsedAt none).2 = .accepted updated) ↔
      ((10 ^ 9 ≤ unix ∧ unix < 10 ^ 10) ∧ |authenticatedAt - unix * 1000| ≤ fiveMinutes) ∧
        ((0 ≤ w ∧ w ≤ 1000000) ∧ (0 ≤ e ∧ e ≤ 100000000) ∧ isStatus payload.status = true) ∧
          payload.observedAt / 1000000 ≤ parsedAt + fiveMinutes := by
  rw [← verifySignature_request understands here authenticatedAt]
  obtain ⟨fields, written, rfl⟩ := request_cases here
  have read := readSnapshot_fields understands written version acPowerW energyTodayWh
  rw [ingest]
  rcases verified : verifySignature platform _ authenticatedAt with error | ⟨⟩
  · simp
  simp only [parseSnapshot, understands.parses payload fields written, read]
  by_cases valid : (0 ≤ w ∧ w ≤ 1000000) ∧ (0 ≤ e ∧ e ≤ 100000000) ∧ isStatus payload.status = true
  · rw [if_pos valid]
    by_cases early : parsedAt + fiveMinutes < payload.observedAt / 1000000
    · simp [SnapshotPayload.snapshot, early]
    · simp only [SnapshotPayload.snapshot, early, if_false, valid, not_lt.mp early]
      split <;> simp
  · simp [valid]

end Requests

section Decoded

variable {Body : Type} {encoder : Encoder Body} {platform : Platform Body}
  {readHoldingRegisters : ℕ → ℕ → Except String (List Sofar.Register)} {activeMPPT : ℤ → Bool} {now : ℤ}
  {snapshot : TelemetrySnapshot}

/-- What the decoder promises the relay. -/
theorem decoded_bounds (read : Sofar.readSnapshot readHoldingRegisters activeMPPT now = .ok snapshot) :
    snapshot.observedAt = now ∧ isStatus snapshot.status = true ∧
      (∃ w, snapshot.acPowerW = .finite w ∧ 0 ≤ w ∧ w ≤ 6600) ∧ ∃ e, snapshot.energyTodayWh = .finite e ∧ 0 ≤ e := by
  obtain ⟨image, -, valid, rfl⟩ := Sofar.readSnapshot_ok read
  rw [Sofar.validateSnapshot] at valid
  split at valid
  · cases valid
  next within =>
  split at valid
  · cases valid
  next energy =>
  have power := List.find?_eq_none.mp within ("AC power", image.measurements.acPowerW, 0, 6600)
    (by simp [Sofar.Measurements.checks])
  simp only [decide_eq_true_eq, not_or, not_lt] at power energy
  exact ⟨rfl, isStatus_statusName _, ⟨_, rfl, power⟩, _, rfl, energy⟩

/-- A snapshot of the decoder that is sent on is accepted exactly when the clocks of the publisher and the relay
agree and the day has at most the energy that the relay takes. -/
theorem decoded_accepted_iff (understands : Understands encoder platform)
    (read : Sofar.readSnapshot readHoldingRegisters activeMPPT now = .ok snapshot) (stale : Bool) (data : Data)
    (unix authenticatedAt parsedAt : ℤ) :
    (∃ made updated, request encoder (payload snapshot stale) unix = some made ∧
        (ingest platform data made authenticatedAt parsedAt none).2 = .accepted updated) ↔
      FourDigitYear now ∧ ((10 ^ 9 ≤ unix ∧ unix < 10 ^ 10) ∧ |authenticatedAt - unix * 1000| ≤ fiveMinutes) ∧
        now / 1000000 ≤ parsedAt + fiveMinutes ∧
          ∃ e, snapshot.energyTodayWh = .finite e ∧ e ≤ 100000000 := by
  obtain ⟨observed, status, ⟨w, power, low, high⟩, e, energy, positive⟩ := decoded_bounds read
  have bounds : 0 ≤ w ∧ w ≤ 1000000 := ⟨low, high.trans (by norm_num)⟩
  constructor
  · rintro ⟨made, updated, sent, accepted⟩
    obtain ⟨fields, written, -⟩ := request_cases sent
    obtain ⟨⟨year, -⟩, -⟩ := Option.ite_none_right_eq_some.mp written
    obtain ⟨clocks, ⟨-, within, -⟩, early⟩ :=
      (accepted_iff understands sent rfl power energy data _ _).mp ⟨updated, accepted⟩
    rw [payload, observed] at year early
    exact ⟨year, clocks, early, e, energy, within.2⟩
  · rintro ⟨year, clocks, early, other, same, within⟩
    obtain rfl : e = other := Float64.finite.inj (energy.symm.trans same)
    have finite : (payload snapshot stale).fields ≠ none := by
      simp [SnapshotPayload.fields, payload, observed, year, power, energy, Float64.isFinite]
    obtain ⟨fields, written⟩ := Option.ne_none_iff_exists'.mp finite
    have sent : request encoder (payload snapshot stale) unix = some ⟨some (encoder.marshal fields), toString unix,
        "sha256=" ++ encoder.hmac (toString unix) (encoder.marshal fields)⟩ := by
      rw [request, written]
      rfl
    have accepted := (accepted_iff understands sent rfl power energy data authenticatedAt parsedAt).mpr
      ⟨clocks, ⟨bounds, ⟨positive, within⟩, status⟩, by rwa [payload, observed]⟩
    obtain ⟨updated, accepted⟩ := accepted
    exact ⟨_, updated, sent, accepted⟩

end Decoded

/-- Both sides of a connection: the text of an object is modelled by the object. -/
def sending (hmac : String → List (String × Json) → String) : Encoder (List (String × Json)) where
  marshal fields := fields
  hmac := hmac

def relaying (hmac : String → List (String × Json) → String) : Platform (List (String × Json)) where
  hmac := hmac
  parseJson fields := some (.object fields)
  parseDate text := (readNano text.toList).map fun t => t / 1000000

/-- A relay that reads texts as they are written understands the publisher. -/
theorem relaying_understands {hmac : String → List (String × Json) → String}
    (hex : ∀ timestamp body, IsDigest (hmac timestamp body)) : Understands (sending hmac) (relaying hmac) where
  parses _ _ _ := rfl
  dates t year := by simp [relaying, readNano_rfc3339Nano year]
  shares _ _ := rfl
  digests := hex

/-- The digest of the request below, under a secret of 32 zero bytes. -/
private def digest (_ : String) (_ : List (String × Json)) : String :=
  "b9dc6023b1d754bf70fa16bab7dbab34711c7fb9f4c0f334311a03a044557b60"

/-- An inverter that waits for the sun, on a grid of 60 Hz. -/
private def waiting (start count : ℕ) : Except String (List Sofar.Register) :=
  .ok (if start = 0x0484 then 6000 :: List.replicate 9 0 else List.replicate count 0)

theorem waiting_accepted : ∃ snapshot made updated,
    Sofar.readSnapshot waiting (fun _ => true) 1785353395250000000 = .ok snapshot ∧
      request (sending digest) (payload snapshot false) 1785353400 = some made ∧
        (ingest (relaying digest) emptyState made 1785353400500 1785353400500 none).2 = .accepted updated := by
  have energy : (Sofar.readSnapshot waiting (fun _ => true) 1785353395250000000).toOption.map
      (fun snapshot => snapshot.energyTodayWh) = some (.finite 0) := by
    decide +kernel
  rcases read : Sofar.readSnapshot waiting (fun _ => true) 1785353395250000000 with message | snapshot
  · rw [read] at energy
    cases energy
  · rw [read] at energy
    have hex : IsDigest "b9dc6023b1d754bf70fa16bab7dbab34711c7fb9f4c0f334311a03a044557b60" := by decide
    have understands := @relaying_understands digest fun _ _ => hex
    have year : FourDigitYear 1785353395250000000 := by decide
    have accepted := (decoded_accepted_iff understands read false emptyState 1785353400 1785353400500
      1785353400500).mpr ⟨year, by decide, by decide, 0, Option.some.inj energy, by norm_num⟩
    obtain ⟨made, updated, sent, answered⟩ := accepted
    exact ⟨snapshot, made, updated, rfl, sent, answered⟩

end Helio.Alexapush
