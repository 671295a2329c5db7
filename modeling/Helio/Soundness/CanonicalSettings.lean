import Helio.Model.Application
import Helio.Soundness.DecimalTexts

/-! # Stored settings are canonical

A document that validation returns is accepted unchanged: its address is in dotted decimals, its
serial number without zeros in front, its inputs are in order and none of its defaults is left open.
So what a write has stored is read back, and equals what the write has made of the document.
-/

namespace Helio.Config

open Calendar

section Addresses

def AreBytes (ip : List ℕ) : Prop := ∀ byte ∈ ip, byte ≤ 255

theorem octet_le {text : List Char} {n : ℕ} (read : octet text = some n) : n ≤ 255 := by
  rw [octet] at read
  split at read
  next valid =>
    cases read
    exact valid.2.2.2
  · cases read

theorem parseIPv4_bytes {text : List Char} {fields : List ℕ} (read : parseIPv4 text = some fields) :
    AreBytes fields := by
  rw [parseIPv4] at read
  split at read
  next a b c d _ =>
    simp only [List.mapM_cons, List.mapM_nil, Option.bind_eq_bind, Option.bind_eq_some_iff, Option.pure_def,
      Option.some.injEq] at read
    obtain ⟨w, first, _, ⟨x, second, _, ⟨y, third, _, ⟨z, fourth, _, rfl, rfl⟩, rfl⟩, rfl⟩, rfl⟩ := read
    intro byte member
    simp only [List.mem_cons, List.not_mem_nil, or_false] at member
    rcases member with rfl | rfl | rfl | rfl
    · exact octet_le first
    · exact octet_le second
    · exact octet_le third
    · exact octet_le fourth
  · cases read

theorem hexValue_lt (c : Char) : (hexValue c).getD 0 < 16 := by
  rw [hexValue]
  split
  next digit =>
    simp only [Char.isDigit, Bool.and_eq_true, decide_eq_true_eq, Option.getD_some] at digit ⊢
    have high := UInt32.le_iff_toNat_le.mp digit.2
    change c.toNat ≤ 57 at high
    change c.toNat - 48 < 16
    omega
  split
  next lower =>
    have high := UInt32.le_iff_toNat_le.mp (Char.le_def.mp lower.2)
    change c.toNat ≤ 102 at high
    change c.toNat - 97 + 10 < 16
    omega
  split
  next upper =>
    have high := UInt32.le_iff_toNat_le.mp (Char.le_def.mp upper.2)
    change c.toNat ≤ 70 at high
    change c.toNat - 65 + 10 < 16
    omega
  · decide

/-- A group of at most four hexadecimal digits makes two bytes. -/
private theorem group_bytes {group : List Char} (short : ¬ 4 < group.length) :
    AreBytes [group.foldl (fun n c => 16 * n + (hexValue c).getD 0) 0 / 256,
      group.foldl (fun n c => 16 * n + (hexValue c).getD 0) 0 % 256] := by
  have bounded := foldl_lt (fun c _ => hexValue_lt c : ∀ c ∈ group, _) 0
  have power : 16 ^ group.length ≤ 16 ^ 4 := Nat.pow_le_pow_right (by decide) (not_lt.mp short)
  intro byte member
  simp only [List.mem_cons, List.not_mem_nil, or_false] at member
  omega

theorem AreBytes.append {ip more : List ℕ} (first : AreBytes ip) (second : AreBytes more) : AreBytes (ip ++ more) := by
  intro byte member
  rcases List.mem_append.mp member with here | there
  · exact first byte here
  · exact second byte there

theorem parseGroups_bytes {room : ℕ} {ip : List ℕ} {ellipsis : Option ℕ} {text : List Char} {result : List ℕ × Option ℕ}
    (bytes : AreBytes ip) (read : parseGroups room ip ellipsis text = some result) : AreBytes result.1 := by
  induction room generalizing ip ellipsis text with
  | zero =>
    rw [parseGroups] at read
    split at read
    · cases read; exact bytes
    · cases read
  | succ room ih =>
    rw [parseGroups] at read
    split at read
    · cases read
    next fine =>
    have filled := bytes.append (group_bytes (not_or.mp fine).2)
    split at read
    · cases read; exact filled
    · split at read
      · cases read
      · obtain ⟨fields, embedded, rfl⟩ := Option.map_eq_some_iff.mp read
        exact bytes.append (parseIPv4_bytes embedded)
    · cases read
    · split at read
      · cases read
      · split at read
        · cases read; exact filled
        · exact ih filled read
    · exact ih filled read
    · cases read

theorem expandEllipsis_bytes {found : List ℕ × Option ℕ} {ip : List ℕ} (bytes : AreBytes found.1)
    (read : expandEllipsis found = some ip) : AreBytes ip := by
  rcases found with ⟨whole, _ | start⟩
  · rw [expandEllipsis] at read
    split at read
    · cases read; exact bytes
    · cases read
  · rw [expandEllipsis] at read
    split at read
    · cases read
      intro byte member
      simp only [List.mem_append, List.mem_replicate] at member
      rcases member with (before | ⟨-, rfl⟩) | after
      · exact bytes byte (List.mem_of_mem_take before)
      · exact Nat.zero_le _
      · exact bytes byte (List.mem_of_mem_drop after)
    · cases read

theorem parseIPv6_bytes {text : List Char} {ip : List ℕ} (read : parseIPv6 text = some ip) : AreBytes ip := by
  have empty : AreBytes [] := fun _ member => nomatch member
  have of_groups : ∀ {ellipsis rest}, (parseGroups 8 [] ellipsis rest).bind expandEllipsis = some ip → AreBytes ip := by
    intro ellipsis rest read
    obtain ⟨found, groups, expanded⟩ := Option.bind_eq_some_iff.mp read
    exact expandEllipsis_bytes (parseGroups_bytes empty groups) expanded
  unfold parseIPv6 at read
  split at read
  · cases read
    intro byte member
    rw [List.eq_of_mem_replicate member]
    exact Nat.zero_le _
  · exact of_groups read
  · exact of_groups read

theorem parseIP_bytes {text : String} {ip : List ℕ} (read : parseIP text = some ip) : AreBytes ip := by
  rw [parseIP] at read
  split at read
  · obtain ⟨fields, found, rfl⟩ := Option.map_eq_some_iff.mp read
    have front : AreBytes (List.replicate 10 0 ++ [255, 255]) := by unfold AreBytes; decide
    exact front.append (parseIPv4_bytes found)
  · split at read
    · cases read
    · exact parseIPv6_bytes read
  · cases read

theorem to4_bytes {ip : List ℕ} {a b c d : ℕ} (bytes : AreBytes ip) (four : to4 ip = some (a, b, c, d)) :
    AreBytes [a, b, c, d] := by
  rw [to4] at four
  split at four
  next last =>
    split at four
    · cases four
      rw [← last]
      exact fun byte member => bytes byte (List.mem_of_mem_drop member)
    · cases four
  · cases four

theorem octet_toDigits {n : ℕ} (byte : n ≤ 255) : octet (Nat.toDigits 10 n) = some n := by
  have all : ∀ n < 256, octet (Nat.toDigits 10 n) = some n := by decide +kernel
  exact all n (by omega)

/-- Decimal digits hold none of the characters that tell the forms of an address apart. -/
theorem not_mem_toDigits {c : Char} (other : c.isDigit = false) (n : ℕ) : c ∉ Nat.toDigits 10 n := by
  intro member
  rw [Nat.isDigit_of_mem_toDigits (by decide) (by decide) member] at other
  cases other

theorem toList_addressText (a b c d : ℕ) : (addressText (a, b, c, d)).toList =
    Nat.toDigits 10 a ++ '.' :: (Nat.toDigits 10 b ++ '.' :: (Nat.toDigits 10 c ++ '.' :: Nat.toDigits 10 d)) := by
  change (toString a ++ "." ++ toString b ++ "." ++ toString c ++ "." ++ toString d).toList = _
  simp [String.toList_append, Nat.toString_eq_repr]

theorem splitOn_addressText (a b c d : ℕ) : (addressText (a, b, c, d)).toList.splitOn '.' =
    [Nat.toDigits 10 a, Nat.toDigits 10 b, Nat.toDigits 10 c, Nat.toDigits 10 d] := by
  have dotless := not_mem_toDigits (c := '.') (by decide)
  rw [toList_addressText, List.splitOn_append_cons_self_of_not_mem (dotless a),
    List.splitOn_append_cons_self_of_not_mem (dotless b), List.splitOn_append_cons_self_of_not_mem (dotless c),
    List.splitOn_eq_singleton (dotless d)]

theorem parseIPv4_addressText {a b c d : ℕ} (bytes : AreBytes [a, b, c, d]) :
    parseIPv4 (addressText (a, b, c, d)).toList = some [a, b, c, d] := by
  simp only [AreBytes, List.forall_mem_cons] at bytes
  obtain ⟨first, second, third, fourth, -⟩ := bytes
  rw [parseIPv4, splitOn_addressText]
  simp [List.mapM_cons, octet_toDigits, first, second, third, fourth]

/-- An address is read back from its dotted decimals. -/
theorem parseIP_addressText {a b c d : ℕ} (bytes : AreBytes [a, b, c, d]) :
    (parseIP (addressText (a, b, c, d))).bind to4 = some (a, b, c, d) := by
  have dotted : (addressText (a, b, c, d)).toList.find? (fun c => c = '.' || c = ':' || c = '%') = some '.' := by
    rw [toList_addressText, List.find?_append, List.find?_eq_none.mpr, Option.none_or,
      List.find?_cons_of_pos (by decide)]
    intro other member
    have digit := Nat.isDigit_of_mem_toDigits (by decide) (by decide) member
    intro special
    simp only [Bool.or_eq_true, decide_eq_true_eq] at special
    rcases special with (rfl | rfl) | rfl <;> cases digit
  rw [parseIP, dotted, parseIPv4_addressText bytes]
  rfl

theorem validateAddress_bytes {host : String} {allowPublicLogger : Bool} {a b c d : ℕ}
    (valid : validateAddress host allowPublicLogger = .ok (a, b, c, d)) : AreBytes [a, b, c, d] := by
  rw [validateAddress] at valid
  split at valid
  · cases valid
  next found =>
    split at valid
    · cases valid
    · cases valid
      obtain ⟨ip, read, four⟩ := Option.bind_eq_some_iff.mp found
      exact to4_bytes (parseIP_bytes read) four

theorem validateAddress_addressText {host : String} {allowPublicLogger : Bool} {address : ℕ × ℕ × ℕ × ℕ}
    (valid : validateAddress host allowPublicLogger = .ok address) :
    validateAddress (addressText address) allowPublicLogger = .ok address := by
  rcases address with ⟨a, b, c, d⟩
  have bytes := validateAddress_bytes valid
  rw [validateAddress] at valid ⊢
  rw [parseIP_addressText bytes]
  split at valid
  · cases valid
  · split at valid
    · cases valid
    next admitted =>
      cases valid
      exact if_neg admitted

end Addresses

/-- Inputs that are accepted are put in order. -/
theorem normalizeMPPT_ok {inputs mppt : List ℤ} (valid : normalizeMPPT inputs = .ok mppt) :
    mppt ≠ [] ∧ mppt.Pairwise (· ≤ ·) ∧ checkMPPT none mppt = .ok () := by
  rw [normalizeMPPT] at valid
  split at valid
  · cases valid
  next some =>
    dsimp only at valid
    cases checked : checkMPPT none (inputs.insertionSort (· ≤ ·)) with
    | error failure => rw [checked] at valid; cases valid
    | ok done =>
      rw [checked] at valid
      cases valid
      refine ⟨?_, List.pairwise_insertionSort _ _, checked⟩
      rw [ne_eq, ← List.length_eq_zero_iff, List.length_insertionSort, List.length_eq_zero_iff]
      exact some

theorem normalizeMPPT_eq {inputs mppt : List ℤ} (valid : normalizeMPPT inputs = .ok mppt) :
    normalizeMPPT mppt = .ok mppt := by
  obtain ⟨occupied, sorted, checked⟩ := normalizeMPPT_ok valid
  rw [normalizeMPPT, if_neg occupied]
  dsimp only
  rw [sorted.insertionSort_eq, checked]
  rfl

variable {zones : String → Except String Zone} {settings : Settings} {allowPublicLogger : Bool}

/-- Defaults that are filled in stay. -/
theorem normalized_withDefaults (settings : Settings) (address : ℕ × ℕ × ℕ × ℕ) (serial : ℕ) (mppt : List ℤ) :
    (settings.normalized address serial mppt).withDefaults = settings.normalized address serial mppt := by
  simp only [Settings.normalized, Settings.withDefaults, defaultRetentionDays, Settings.mk.injEq, true_and]
  refine ⟨?_, ?_, ?_⟩ <;> split <;> rfl

/-- A normalised document is accepted with the same findings. -/
theorem Accepted.normalized {address : ℕ × ℕ × ℕ × ℕ} {serial : ℕ} {mppt : List ℤ}
    (accepted : Accepted zones settings allowPublicLogger address serial mppt) :
    Accepted zones (settings.normalized address serial mppt) allowPublicLogger address serial mppt where
  address := validateAddress_addressText accepted.address
  port := by rw [normalized_withDefaults]; exact accepted.port
  serial := parseUint_toString (parseUint_le accepted.serial)
  slave := by rw [normalized_withDefaults]; exact accepted.slave
  panels := accepted.panels
  power := accepted.power
  mppt := normalizeMPPT_eq accepted.mppt
  latitude := accepted.latitude
  longitude := accepted.longitude
  named := accepted.named
  zone := accepted.zone
  currency := accepted.currency
  tariff := accepted.tariff
  retention := by rw [normalized_withDefaults]; exact accepted.retention

variable {normalized : Settings}

/-- What validation returns is a fixed point of it. -/
theorem validateSettings_idem (valid : validateSettings zones settings allowPublicLogger = .ok normalized) :
    validateSettings zones normalized allowPublicLogger = .ok normalized := by
  obtain ⟨address, serial, mppt, accepted, rfl⟩ := (validateSettings_ok zones).mp valid
  refine (validateSettings_ok zones).mpr ⟨address, serial, mppt, accepted.normalized, ?_⟩
  conv_lhs => rw [Settings.normalized, normalized_withDefaults]
  rfl

/-- A stored document that validation has returned is read back. -/
theorem getSettings_of_valid (valid : validateSettings zones settings allowPublicLogger = .ok normalized) :
    getSettings zones (some ⟨settingsVersion, normalized⟩) allowPublicLogger = .ok normalized := by
  rw [getSettings, if_neg (not_not.mpr rfl)]
  dsimp only
  rw [validateSettings_idem valid]
  dsimp only
  rw [if_neg (not_not.mpr rfl)]

end Helio.Config

namespace Helio.Application

open Config

/-- Validation is idempotent, and a write that succeeds is read back as what validation returns. -/
theorem stored_settings_canonical (faults : Faults) (env : Environment) (settings : Settings) :
    (∀ normalized, validateSettings env.zones settings env.allowPublicLogger = .ok normalized →
      validateSettings env.zones normalized env.allowPublicLogger = .ok normalized) ∧
    ∀ s t : Database, (putSettings faults env settings).run s = .ok ((), t) →
      ∃ normalized, validateSettings env.zones settings env.allowPublicLogger = .ok normalized ∧
        getSettings env.zones t.settings env.allowPublicLogger = .ok normalized := by
  refine ⟨fun normalized valid => validateSettings_idem valid, fun s t run => ?_⟩
  obtain ⟨normalized, between, validated, written⟩ := Tx.bind_ok.mp run
  obtain ⟨valid, rfl⟩ := Tx.attempt_ok.mp validated
  obtain ⟨-, -, rfl⟩ := Tx.exec_ok.mp written
  have accepted := mapError_ok.mp valid
  exact ⟨normalized, accepted, getSettings_of_valid accepted⟩

private def utcOnly : Environment := ⟨fun _ => .error "unknown time zone", false, 0⟩

/-- The logger's address is written as an IPv6 one, the inputs are out of order, the defaults left open. -/
private def carelessDocument : Settings :=
  ⟨"::ffff:c0a8:10", "007", 0, 0, 7, 610, [2, 1], 0, .finite (-47 / 2), .finite (-233 / 5), "UTC", "BRL", 95, 0⟩

private def newInstallation : Database where
  users := []
  settings := none
  telemetry := ⟨Calendar.Zone.utc, Table.empty, Table.empty, Table.empty, Table.empty⟩
  dailyAnalysis := []
  alertRuleState := Table.empty
  alerts := Table.empty
  actionAudit := AutoTable.empty

theorem stored_settings_canonical_careless : ∃ t normalized,
    (putSettings (fun _ => none) utcOnly carelessDocument).run newInstallation = .ok ((), t) ∧
      validateSettings utcOnly.zones carelessDocument false = .ok normalized ∧
        getSettings utcOnly.zones t.settings false = .ok normalized := by
  have possible : ((putSettings (fun _ => none) utcOnly carelessDocument).run newInstallation).isOk = true := by
    decide +kernel
  obtain ⟨⟨done, t⟩, run⟩ := Except.exists_of_isOk possible
  obtain ⟨normalized, valid, read⟩ := (stored_settings_canonical _ utcOnly carelessDocument).2 newInstallation t run
  exact ⟨t, normalized, run, valid, read⟩

end Helio.Application
