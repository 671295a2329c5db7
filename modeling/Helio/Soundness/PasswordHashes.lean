import Helio.Model.Password
import Helio.Soundness.DecimalTexts

/-! # Which password hashes are accepted

The parser accepts the texts that `HashPassword` writes and those that differ from one of them in line breaks
within a field of at most 86 characters and in the bits that a field has too many. It reads the salt and the key
that were written.
-/

namespace Helio.Password

open Auth (PasswordError)

section Texts

theorem byteLength_cons (c : Char) (text : List Char) : byteLength (c :: text) = c.utf8Size + byteLength text := by
  have split : String.ofList (c :: text) = String.singleton c ++ String.ofList text := by
    rw [← String.toList_inj]
    simp
  rw [byteLength, split, String.utf8ByteSize_append, String.utf8ByteSize_singleton]
  rfl

theorem length_le_byteLength (text : List Char) : text.length ≤ byteLength text := by
  induction text with
  | nil => simp
  | cons c rest ih =>
    rw [byteLength_cons, List.length_cons]
    have := c.utf8Size_pos
    omega

/-- A text of one byte a character. -/
def IsAscii (text : List Char) : Prop := ∀ c ∈ text, c.val ≤ 127

theorem byteLength_ascii {text : List Char} (ascii : IsAscii text) : byteLength text = text.length := by
  induction text with
  | nil => rfl
  | cons c rest ih =>
    rw [byteLength_cons, Char.utf8Size_eq_one_iff.mpr (ascii c List.mem_cons_self),
      ih fun other member => ascii other (List.mem_cons_of_mem _ member), List.length_cons, Nat.add_comm]

theorem std_ascii {c : Char} (member : c ∈ Base64.std.chars) : c.val ≤ 127 ∧ c ≠ '$' := by
  have all : Base64.std.chars.all (fun c => c.val ≤ 127 ∧ c ≠ '$') = true := by decide +kernel
  simpa using List.all_eq_true.mp all c member

/-- The characters of a text of base64. -/
theorem decode_chars {text : List Char} {bytes : List Byte} (read : Base64.std.decode text = some bytes) {c : Char}
    (member : c ∈ text) : c.val ≤ 127 ∧ c ≠ '$' := by
  rcases (Base64.Alphabet.decode_some read).1 c member with breaks | known
  · simp only [Base64.isLineBreak, Bool.or_eq_true, decide_eq_true_eq] at breaks
    rcases breaks with rfl | rfl <;> decide
  · exact std_ascii known

theorem le_decode_length {text : List Char} {bytes : List Byte} (read : Base64.std.decode text = some bytes) :
    bytes.length * 4 ≤ text.length * 3 := by
  have fewer := List.length_filter_le (fun c => !Base64.isLineBreak c) text
  have same := (Base64.Alphabet.decode_some read).2.2
  omega

end Texts

section Parser

variable {encoded : String} {params : ArgonParams} {salt key : List Byte}

/-- All that stands before the salt. -/
def header : List Char :=
  '$' :: "argon2id".toList ++ '$' :: "v=19".toList ++ '$' :: ArgonParams.fixed.text ++ ['$']

theorem header_eq : header = "$argon2id$v=19$m=65536,t=3,p=2$".toList := by decide +kernel

theorem scanParams_text {text : List Char} (read : scanParams text = some params) : text = params.text := by
  rw [scanParams] at read
  split at read
  · simp only [Option.bind_eq_bind, Option.bind_eq_some_iff, Option.pure_def, Option.some.injEq] at read
    obtain ⟨memory, -, iterations, -, parallelism, -, done, same, rfl⟩ := read
    simpa [guard] using same
  · cases read

theorem scanParams_fixed : scanParams ArgonParams.fixed.text = some .fixed := by
  decide +kernel

theorem decodeField_ok {text : List Char} {size : ℕ} {message : String} {bytes : List Byte} :
    decodeField text size message = .ok bytes ↔ Base64.std.decode text = some bytes ∧ bytes.length = size := by
  rw [decodeField]
  cases Base64.std.decode text with
  | none => simp
  | some found =>
    by_cases same : found.length = size
    · simp only [same, ne_eq, not_true, if_false, Except.ok.injEq, Option.some.injEq]
      constructor
      · rintro rfl
        exact ⟨rfl, same⟩
      · exact And.left
    · simp only [same, ne_eq, not_false_iff, if_true, reduceCtorEq, Option.some.injEq, false_iff, not_and]
      rintro rfl
      exact same

theorem header_fields {saltText keyText : List Char} :
    ['$'].intercalate [[], "argon2id".toList, "v=19".toList, ArgonParams.fixed.text, saltText, keyText] =
      header ++ saltText ++ '$' :: keyText := by
  simp only [header, List.intercalate, List.intersperse, List.flatten_cons, List.flatten_nil, List.cons_append,
    List.nil_append, List.append_assoc, List.append_nil]

theorem accepted_size {saltText keyText : List Char} (whole : encoded.toList = header ++ saltText ++ '$' :: keyText)
    (saltAscii : IsAscii saltText) (keyAscii : IsAscii keyText) :
    encoded.utf8ByteSize = saltText.length + keyText.length + 32 := by
  have plain : header.all (fun c => c.val ≤ 127) = true := by decide +kernel
  have ascii : IsAscii encoded.toList := by
    intro c member
    rw [whole, List.mem_append, List.mem_append, List.mem_cons] at member
    rcases member with (fixed | inSalt) | rfl | inKey
    · simpa using List.all_eq_true.mp plain c fixed
    · exact saltAscii c inSalt
    · decide
    · exact keyAscii c inKey
  have length : header.length = 31 := by decide +kernel
  have same := byteLength_ascii ascii
  rw [byteLength, String.ofList_toList, whole] at same
  simp only [List.length_append, List.length_cons, length] at same
  omega

/-- Exactly these texts are accepted, with what they read to. -/
theorem parsePasswordHash_ok : parsePasswordHash encoded = .ok (params, salt, key) ↔
    params = .fixed ∧ salt.length = argonSaltBytes ∧ key.length = argonKeyBytes ∧
      ∃ saltText keyText, encoded.toList = header ++ saltText ++ '$' :: keyText ∧ saltText.length ≤ 86 ∧
        keyText.length ≤ 86 ∧ Base64.std.decode saltText = some salt ∧ Base64.std.decode keyText = some key := by
  constructor
  · intro parsed
    rw [parsePasswordHash] at parsed
    split at parsed
    · cases parsed
    split at parsed
    case h_2 => cases parsed
    next start algorithm version parameters saltText keyText fields =>
    split at parsed
    · cases parsed
    next labels =>
    push Not at labels
    obtain ⟨rfl, rfl, rfl⟩ := labels
    split at parsed
    · cases parsed
    next found read =>
    split at parsed
    · cases parsed
    next bounded =>
    rw [ne_eq, not_not] at bounded
    subst bounded
    split at parsed
    · cases parsed
    next short =>
    simp only [Except.bind_eq_ok, decodeField_ok] at parsed
    obtain ⟨readSalt, ⟨saltRead, saltSize⟩, readKey, ⟨keyRead, keySize⟩, same⟩ := parsed
    cases same
    have whole : ['$'].intercalate (encoded.toList.splitOn '$') = encoded.toList := List.intercalate_splitOn _
    rw [fields, scanParams_text read, header_fields] at whole
    have saltShort := length_le_byteLength saltText
    have keyShort := length_le_byteLength keyText
    exact ⟨rfl, saltSize, keySize, saltText, keyText, whole.symm, by omega, by omega, saltRead, keyRead⟩
  · rintro ⟨rfl, saltSize, keySize, saltText, keyText, whole, saltShort, keyShort, saltRead, keyRead⟩
    have saltAscii : IsAscii saltText := fun c member => (decode_chars saltRead member).1
    have keyAscii : IsAscii keyText := fun c member => (decode_chars keyRead member).1
    have saltLong := le_decode_length saltRead
    have keyLong := le_decode_length keyRead
    have saltPlain : '$' ∉ saltText := fun member => (decode_chars saltRead member).2 rfl
    have keyPlain : '$' ∉ keyText := fun member => (decode_chars keyRead member).2 rfl
    have fields : encoded.toList.splitOn '$' =
        [[], "argon2id".toList, "v=19".toList, ArgonParams.fixed.text, saltText, keyText] := by
      rw [whole, ← header_fields, List.splitOn_intercalate]
      · simpa only [List.forall_mem_cons, List.not_mem_nil, not_false_eq_true, true_and, false_implies, implies_true,
          and_true] using ⟨by decide, by decide, by decide +kernel, saltPlain, keyPlain⟩
      · exact List.cons_ne_nil _ _
    have dollars : encoded.toList.count '$' = 5 := by
      rw [whole, List.count_append, List.count_append, List.count_cons_self, List.count_eq_zero.mpr saltPlain,
        List.count_eq_zero.mpr keyPlain]
      decide +kernel
    have size := accepted_size whole saltAscii keyAscii
    rw [parsePasswordHash, if_neg (by omega), fields]
    simp only [ne_eq, not_true, or_self, if_false, scanParams_fixed, byteLength_ascii saltAscii,
      byteLength_ascii keyAscii]
    rw [if_neg (by simp only [argonSaltBytes, argonKeyBytes] at saltSize keySize; omega),
      decodeField_ok.mpr ⟨saltRead, saltSize⟩, decodeField_ok.mpr ⟨keyRead, keySize⟩]
    rfl

end Parser

section RoundTrip

variable {salt : Salt} {key : Key}

theorem hashText_toList : (hashText salt key).toList =
    header ++ Base64.std.encode salt.toList ++ '$' :: Base64.std.encode key.toList := by
  have labels : "$argon2id$v=19$".toList = '$' :: "argon2id".toList ++ '$' :: "v=19".toList ++ ['$'] := by decide +kernel
  unfold hashText header
  rw [String.toList_ofList, labels]
  simp only [List.append_assoc, List.cons_append, List.nil_append]

/-- A hash that was written reads back. -/
theorem parsePasswordHash_hashText :
    parsePasswordHash (hashText salt key) = .ok (.fixed, salt.toList, key.toList) := by
  rw [parsePasswordHash_ok]
  refine ⟨rfl, salt.length_toList, key.length_toList, _, _, hashText_toList, ?_, ?_, Base64.Alphabet.decode_encode _,
    Base64.Alphabet.decode_encode _⟩
  · rw [Base64.Alphabet.encode_length, salt.length_toList]
    decide
  · rw [Base64.Alphabet.encode_length, key.length_toList]
    decide

theorem hashText_inj {other : Salt} {otherKey : Key} (same : hashText salt key = hashText other otherKey) :
    salt = other ∧ key = otherKey := by
  have read := @parsePasswordHash_hashText salt key
  rw [same, parsePasswordHash_hashText] at read
  obtain ⟨-, both⟩ := Prod.mk.inj (Except.ok.inj read)
  obtain ⟨salts, keys⟩ := Prod.mk.inj both
  exact ⟨(Vector.toList_inj.mp salts).symm, (Vector.toList_inj.mp keys).symm⟩

/-- Every hash that is written is accepted and reads back, and these are the texts that are accepted: the header, and
two fields of at most 86 characters that are 16 and 32 bytes of base64. -/
theorem hashes_accepted :
    (∀ (salt : Salt) (key : Key),
      parsePasswordHash (hashText salt key) = .ok (.fixed, salt.toList, key.toList)) ∧
    ∀ (encoded : String) (params : ArgonParams) (salt key : List Byte),
      parsePasswordHash encoded = .ok (params, salt, key) ↔
        params = .fixed ∧ salt.length = 16 ∧ key.length = 32 ∧ ∃ saltText keyText,
          encoded.toList = "$argon2id$v=19$m=65536,t=3,p=2$".toList ++ saltText ++ '$' :: keyText ∧
          saltText.length ≤ 86 ∧ keyText.length ≤ 86 ∧
          Base64.std.decode saltText = some salt ∧ Base64.std.decode keyText = some key := by
  refine ⟨fun salt key => parsePasswordHash_hashText, fun encoded params salt key => ?_⟩
  rw [← header_eq]
  exact parsePasswordHash_ok

end RoundTrip

end Helio.Password
