import Helio.Model.Secrets

/-! # What is stored as a secret is read back

All processes of an installation work under one key: the configured one, or the one of the file, which is made
once and never replaced. So a secret opens for every later process. A file that was left cut short lets no process
run, and was made before anything was stored.
-/

namespace Helio.Secrets

section Key

variable (configured : List Byte)

/-- The key of the processes of an installation. -/
def keyAt (file : Option (List Char)) : Option (List Byte) :=
  (if configured = [] then file.bind Base64.std.decode else some configured).filter fun key => key.length = keySize

variable {configured}

theorem length_of_keyAt {file : Option (List Char)} {key : List Byte} (known : keyAt configured file = some key) :
    key.length = keySize := by
  rw [keyAt, Option.filter_eq_some_iff] at known
  exact of_decide_eq_true known.2

/-- Loading gives the key of the file that it leaves, and leaves a file that is there. -/
theorem load_ok {luck : FileLuck} {file after : Option (List Char)} {key : List Byte}
    (loaded : loadOrCreateSecretsKey luck file = (.ok key, after)) : keyAt [] after = some key := by
  unfold loadOrCreateSecretsKey at loaded
  split at loaded
  · cases loaded
  · split at loaded
    · cases loaded
    · next read =>
      split at loaded
      · cases loaded
      · next size =>
        cases loaded
        simp only [keyAt, if_true, Option.bind_some, read]
        exact Option.filter_eq_some_iff.mpr ⟨rfl, by simpa using size⟩
  · split at loaded
    · cases loaded
    · dsimp only at loaded
      split at loaded
      · cases loaded
      · cases loaded
        simp only [keyAt, if_true, Option.bind_some, Base64.Alphabet.decode_encode]
        exact Option.filter_eq_some_iff.mpr ⟨rfl, by simp⟩

theorem load_file (luck : FileLuck) (text : List Char) :
    (loadOrCreateSecretsKey luck (some text)).2 = some text := by
  unfold loadOrCreateSecretsKey
  split
  · rfl
  · next same =>
    cases same
    split
    · rfl
    · split <;> rfl
  · next same => cases same

theorem load_known {luck : FileLuck} {file : Option (List Char)} {key : List Byte} (read : luck.read = none)
    (known : keyAt [] file = some key) : loadOrCreateSecretsKey luck file = (.ok key, file) := by
  rw [keyAt, if_pos rfl, Option.filter_eq_some_iff, Option.bind_eq_some_iff] at known
  obtain ⟨⟨text, rfl, decoded⟩, size⟩ := known
  have size : key.length = keySize := of_decide_eq_true size
  simp [loadOrCreateSecretsKey, read, decoded, size]

end Key

section Rows

variable {V : Type} {cipher : Cipher} {json : Json V}

variable (cipher json) in
/-- The payload is the value of that name, sealed under the key. -/
def Holds (key : List Byte) (name : String) (value : V) (payload : List Char) : Prop :=
  ∃ nonce : Nonce, ∃ plain, json.marshal value = .ok plain ∧
    payload = Base64.std.encode (nonce.toList ++ cipher.sealText key nonce.toList plain name)

/-- What was sealed under the key of the store is read. -/
theorem get_of_holds {store : SecretStore} {rows : SecretTable} {name : String} {value : V} {payload : List Char}
    (found : rows.find? name = some payload) (holds : Holds cipher json store.key name value payload) :
    store.get cipher json rows none name = .ok (some value) := by
  obtain ⟨nonce, plain, marshaled, rfl⟩ := holds
  have size : nonce.toList.length = nonceSize := nonce.length_toList
  have long : ¬ (nonce.toList ++ cipher.sealText store.key nonce.toList plain name).length < nonceSize := by
    rw [List.length_append]
    omega
  unfold SecretStore.get
  simp only [found, Base64.Alphabet.decode_encode, if_neg long]
  rw [List.take_left' size, List.drop_left' size]
  simp only [cipher.opens, json.reads value plain marshaled]

theorem get_of_absent {store : SecretStore} {rows : SecretTable} {name : String} (absent : rows.find? name = none) :
    store.get cipher json rows none name = .ok none := by
  simp [SecretStore.get, absent]

variable (cipher json) in
/-- A secret is stored or the table is as it was. -/
theorem put_cases (store : SecretStore) (rows : SecretTable) (luck : Luck) (name : String) (value : V) :
    (∃ message, store.put cipher json rows luck name value = (.error message, rows)) ∨
      ∃ payload, Holds cipher json store.key name value payload ∧
        store.put cipher json rows luck name value = (.ok (), rows.upsert name payload) := by
  unfold SecretStore.put
  split
  · exact .inl ⟨_, rfl⟩
  · next plain marshaled =>
    split
    · exact .inl ⟨_, rfl⟩
    · next nonce _ =>
      dsimp only
      split
      · exact .inl ⟨_, rfl⟩
      · exact .inr ⟨_, ⟨nonce, plain, marshaled, rfl⟩, rfl⟩

end Rows

section Runs

variable {V : Type} {cipher : Cipher} {json : Json V} {configured : List Byte} {s : Installation V}

theorem start_process {luck : FileLuck} {store : SecretStore}
    (running : (s.start configured luck).process = some store) :
    keyAt configured (s.start configured luck).keyFile = some store.key := by
  unfold Installation.start at running ⊢
  split at running
  rename_i key file same
  dsimp only at running ⊢
  cases key with
  | error message => cases running
  | ok key =>
    have made : newSecretStore key = .ok store := by
      cases made : newSecretStore key with
      | error message => simp [Except.bind, Except.toOption, made] at running
      | ok other => simp_all [Except.bind, Except.toOption]
    unfold newSecretStore at made
    split at made
    · next size =>
      cases made
      split at same
      · next unset =>
        rw [unset]
        exact load_ok same
      · next set =>
        cases same
        rw [keyAt, if_neg set]
        exact Option.filter_eq_some_iff.mpr ⟨rfl, decide_eq_true size⟩
    · cases made

/-- The key of an installation stays. -/
theorem keyAt_start {luck : FileLuck} {key : List Byte} (known : keyAt configured s.keyFile = some key) :
    keyAt configured (s.start configured luck).keyFile = some key := by
  by_cases unset : configured = []
  · subst unset
    have kept : (s.start [] luck).keyFile = (loadOrCreateSecretsKey luck s.keyFile).2 := rfl
    cases text : s.keyFile with
    | none =>
      rw [text] at known
      cases known
    | some text' => rw [kept, text, load_file, ← text, known]
  · have kept : (s.start configured luck).keyFile = s.keyFile := by
      rw [Installation.start, if_neg unset]
    rw [kept, known]

theorem start_runs {luck : FileLuck} {key : List Byte} (read : luck.read = none)
    (known : keyAt configured s.keyFile = some key) : ∃ store, (s.start configured luck).process = some store := by
  have size : key.length = keySize := length_of_keyAt known
  refine ⟨⟨key, size⟩, ?_⟩
  by_cases unset : configured = []
  · subst unset
    rw [Installation.start, if_pos rfl, load_known read known]
    simp [newSecretStore, size, Except.bind, Except.toOption]
  · rw [keyAt, if_neg unset, Option.filter_eq_some_iff] at known
    obtain ⟨rfl, _⟩ : configured = key ∧ _ := ⟨Option.some.inj known.1, known.2⟩
    rw [Installation.start, if_neg unset]
    simp [newSecretStore, size, Except.bind, Except.toOption]

variable (cipher json configured s) in
structure Kept : Prop where
  process : ∀ store, s.process = some store → keyAt configured s.keyFile = some store.key
  absent : ∀ name, s.stored.find? name = none → s.rows.find? name = none
  present : ∀ name value, s.stored.find? name = some value → ∃ key payload,
    keyAt configured s.keyFile = some key ∧ s.rows.find? name = some payload ∧ Holds cipher json key name value payload

theorem Kept.start (kept : Kept cipher json configured s) (luck : FileLuck) :
    Kept cipher json configured (s.start configured luck) where
  process _ running := start_process running
  absent := kept.absent
  present name value stored := by
    obtain ⟨key, payload, known, found, holds⟩ := kept.present name value stored
    exact ⟨key, payload, keyAt_start known, found, holds⟩

theorem Kept.put (kept : Kept cipher json configured s) (luck : Luck) (name : String) (value : V) :
    Kept cipher json configured (s.put cipher json luck name value) := by
  unfold Installation.put
  split
  · exact kept
  · next store running =>
    rcases put_cases cipher json store s.rows luck name value with ⟨message, same⟩ | ⟨payload, holds, same⟩
    · simp only [same]
      exact ⟨kept.process, kept.absent, kept.present⟩
    · simp only [same]
      refine ⟨kept.process, ?_, ?_⟩
      · intro other missing
        rw [Table.find?_upsert] at missing ⊢
        split at missing
        · cases missing
        · next differ => rw [if_neg differ, kept.absent other missing]
      · intro other found stored
        rw [Table.find?_upsert] at stored ⊢
        split at stored
        · next same' =>
          cases stored
          subst same'
          exact ⟨store.key, payload, kept.process store running, if_pos rfl, holds⟩
        · next differ =>
          rw [if_neg differ]
          exact kept.present other found stored

theorem Kept.step (kept : Kept cipher json configured s) (event : Event V) :
    Kept cipher json configured (s.step cipher json configured event) := by
  cases event with
  | start luck => exact kept.start luck
  | stop =>
    refine ⟨?_, kept.absent, kept.present⟩
    intro store running
    cases running
  | put luck name value => exact kept.put luck name value

variable (cipher json configured) in
theorem kept_run (events : List (Event V)) :
    Kept cipher json configured (events.foldl (Installation.step cipher json configured) .fresh) := by
  have steps : ∀ s, Kept cipher json configured s →
      Kept cipher json configured (events.foldl (Installation.step cipher json configured) s) := by
    induction events with
    | nil =>
      intro s kept
      exact kept
    | cons event rest ih =>
      intro s kept
      exact ih _ (kept.step event)
  apply steps
  refine ⟨?_, fun _ _ => rfl, ?_⟩
  · intro store running
    cases running
  · intro name value stored
    cases stored

end Runs

/-- After any starts, ends and stores, whatever failed in them: a process that runs reads of every name the value
that was stored last, and once something was stored, a process runs whenever the key file can be read. -/
theorem secrets_kept {V : Type} (cipher : Cipher) (json : Json V) (configured : List Byte) (events : List (Event V)) :
    let s := events.foldl (Installation.step cipher json configured) .fresh
    (∀ store, s.process = some store → ∀ name, store.get cipher json s.rows none name = .ok (s.stored.find? name)) ∧
      ∀ name value, s.stored.find? name = some value → ∀ luck : FileLuck, luck.read = none →
        ∃ store, (s.start configured luck).process = some store ∧
          store.get cipher json s.rows none name = .ok (some value) := by
  intro s
  have kept := kept_run cipher json configured events
  have reads : ∀ t : Installation V, Kept cipher json configured t → ∀ store, t.process = some store →
      ∀ name, store.get cipher json t.rows none name = .ok (t.stored.find? name) := by
    intro t kept store running name
    cases stored : t.stored.find? name with
    | none => exact get_of_absent (kept.absent name stored)
    | some value =>
      obtain ⟨key, payload, known, found, holds⟩ := kept.present name value stored
      rw [kept.process store running] at known
      cases known
      exact get_of_holds found holds
  refine ⟨reads s kept, ?_⟩
  intro name value stored luck read
  obtain ⟨key, _, known, _⟩ := kept.present name value stored
  obtain ⟨store, running⟩ : ∃ store, (s.start configured luck).process = some store := start_runs read known
  refine ⟨store, running, ?_⟩
  rw [← stored]
  exact reads _ (kept.start luck) store running name

private def sampleKey : List Byte := (List.range 32).map (BitVec.ofNat 8)

private def sampleNonce : Nonce := Vector.ofFn fun i => BitVec.ofNat 8 i

private def sampleText : List Byte := [34, 115, 51, 99, 114, 101, 116, 34]

private def sampleSealed : List Byte :=
  [101, 113, 229, 120, 183, 128, 182, 57, 83, 26, 130, 251, 139, 175, 223, 57, 29, 2, 34, 162, 195, 43, 121, 158]

private abbrev IsSample (key nonce : List Byte) (additional : String) : Prop :=
  key = sampleKey ∧ nonce = sampleNonce.toList ∧ additional = "solarman-cloud-v1"

/-- AES-GCM at one key, nonce and text. -/
private def sampleCipher : Cipher where
  sealText key nonce plain additional :=
    if IsSample key nonce additional ∧ plain = sampleText then sampleSealed else plain ++ [0]
  openText key nonce ciphertext additional :=
    if IsSample key nonce additional ∧ ciphertext = sampleSealed then some sampleText else some ciphertext.dropLast
  opens key nonce plain additional := by
    by_cases sample : IsSample key nonce additional ∧ plain = sampleText
    · rw [if_pos sample, if_pos ⟨sample.1, rfl⟩, sample.2]
    · have other : plain ++ [0] ≠ sampleSealed := by
        intro same
        have last := congrArg List.getLast? same
        rw [List.getLast?_concat] at last
        revert last
        decide
      rw [if_neg sample, if_neg fun both => other both.2, List.dropLast_concat]

private def sampleJson : Json String where
  marshal value := if value = "s3cret" then .ok sampleText else .error "json: unsupported value"
  unmarshal text := if text = sampleText then some "s3cret" else none
  reads value text marshaled := by
    split at marshaled
    · next same =>
      cases marshaled
      rw [if_pos rfl, same]
    · cases marshaled

/-- A key is made and a secret stored; the next process reads it. -/
theorem restart_reads :
    let s := [.start { entropy := .ok ⟨⟨sampleKey⟩, rfl⟩ },
      .put { entropy := .ok sampleNonce } "solarman-cloud-v1" "s3cret", .stop].foldl
        (Installation.step sampleCipher sampleJson []) .fresh
    ∃ store, (s.start [] {}).process = some store ∧
      store.get sampleCipher sampleJson s.rows none "solarman-cloud-v1" = .ok (some "s3cret") :=
  (secrets_kept sampleCipher sampleJson [] _).2 "solarman-cloud-v1" "s3cret" (by decide +kernel) {} rfl

end Helio.Secrets
