import QVault.Services.FileCrypto
import QVault.Lib.Results
import QVault.Proof.Python.Canonical

/-!
# Files stay readable, and what tampering is reported as

Each file is pinned to the key that encapsulated it, and keys are kept, so no rotation takes a file away. What
is written over a file is reported as tampering, but for a nonce AES-GCM refuses and a secret the KEM refuses.
-/

namespace QVault.Proof.FileCrypto
open QVault.Python QVault.Services.FileCrypto IdealAead Results

variable {suite : Suite} {w w' : World} {disk : Disk}

/-! ## Associated data -/

theorem idBytes_injective : Function.Injective idBytes := by
  intro m n same
  have texts := Canonical.utf8CodePoint_prefixFree.flatMap_injective same
  rw [← Canonical.digitsValue_natText m, ← Canonical.digitsValue_natText n, texts]

theorem dekAad_injective : Function.Injective dekAad := fun _ _ same =>
  idBytes_injective (List.append_cancel_left same)

theorem dekAad_ne_fileAad (m n : Nat) : dekAad m ≠ fileAad n := by
  intro same
  have byte := congrArg (·[7]?) same
  exact absurd byte (by simp [dekAad, fileAad, asciiBytes])

theorem dekAad_ne_masterAad (n : Nat) : dekAad n ≠ masterAad := by
  intro same
  have byte := congrArg (·[7]?) same
  exact absurd byte (by simp [dekAad, masterAad, asciiBytes])

theorem storagePath_key {m n : Nat} {key key' : Text} (same : storagePath m key = storagePath n key') : key = key' := by
  unfold storagePath at same
  simp only [List.append_assoc] at same
  have slash : ∀ t : Text, Canonical.Ends (text "/" ++ t) := by
    intro t c first
    obtain rfl : codePoint '/' = c := Option.some.inj first
    rfl
  have rest := (Canonical.natText_cut (slash _) (slash _) same).2
  exact List.append_cancel_right (List.append_cancel_left rest)

/-! ## What a run keeps -/

-- Someone sealed it.
def Sealed (suite : Suite) (log : Log) (key nonce aad plaintext ciphertext : Bytes) : Prop :=
  ⟨key, nonce, aad, plaintext⟩ ∈ log ∧ suite.encrypt key nonce aad plaintext = ciphertext

theorem Sealed.mono {log log' : Log} (more : log ⊆ log') {key nonce aad plaintext ciphertext : Bytes}
    (here : Sealed suite log key nonce aad plaintext ciphertext) : Sealed suite log' key nonce aad plaintext ciphertext :=
  ⟨more here.1, here.2⟩

-- A key of a vault: its public key, and its secret sealed under the master key
structure KeyGood (suite : Suite) (log : Log) (k : KeyRow) (kem : Kem) (seed : Bytes) : Prop where
  known : suite.kem k.algId = some kem
  publicKey : k.publicKey = (kem.keygen seed).1
  sealed : Sealed suite log suite.masterKey k.secretKeyNonce masterAad (kem.keygen seed).2 k.secretKeyWrapped
  formed : k.secretKeyNonce.length = 12

-- The vault's key is there, and is what the vault says.
def VaultGood (keys : List KeyRow) (v : VaultRow) : Prop :=
  ∃ k ∈ keys, k.id = v.kemKeyId ∧ k.algId = v.kemAlgId ∧ k.publicKey = v.kemPublicKey

-- A file with all that its decryption meets, at the key it is pinned to
structure FileGood (suite : Suite) (disk : Disk) (f : Stored) (k : KeyRow) (kem : Kem) (coins dek : Bytes) : Prop where
  key : k ∈ disk.keys
  pinned : k.id = f.row.kemKeyId
  alg : k.algId = f.row.kemAlgId
  known : suite.kem f.row.kemAlgId = some kem
  encapsulated : f.row.kemCiphertext = (kem.encapsulate k.publicKey coins).1
  wrapped : Sealed suite disk.log (suite.hkdf (kem.encapsulate k.publicKey coins).2) f.row.dekWrapNonce (dekAad f.vaultId)
    dek f.row.wrappedDek
  dek_length : dek.length = 32
  dekNonce : f.row.dekWrapNonce.length = 12
  stored : ∃ ciphertext, disk.storage f.row.ciphertextPath = some ciphertext ∧
    Sealed suite disk.log dek f.row.aesNonce (fileAad f.vaultId) f.uploaded ciphertext
  aesNonce : f.row.aesNonce.length = 12
  hash : f.row.contentSha256 = suite.sha256 f.uploaded

structure Inv (suite : Suite) (w : World) : Prop where
  once : Once w.log
  keyIds : (w.keys.map (·.id)).Nodup
  keys : ∀ k ∈ w.keys, ∃ kem seed, KeyGood suite w.log k kem seed
  vaults : ∀ v ∈ w.vaults ++ w.loaded, VaultGood w.keys v
  files : ∀ f ∈ w.uploads ++ w.files, ∃ k kem coins dek, FileGood suite w.toDisk f k kem coins dek
  paths : ((w.uploads ++ w.files).map (·.row.ciphertextPath)).Nodup
  drawn : ∀ f ∈ w.uploads ++ w.files, ∃ key ∈ w.storageKeys, f.row.ciphertextPath = storagePath f.vaultId key

theorem KeyGood.mono {log log' : Log} {k : KeyRow} {kem : Kem} {seed : Bytes} (more : log ⊆ log')
    (good : KeyGood suite log k kem seed) : KeyGood suite log' k kem seed :=
  ⟨good.known, good.publicKey, good.sealed.mono more, good.formed⟩

-- Keys that only change their status, more keys and more that is sealed leave a file as it is.
theorem FileGood.mono {disk' : Disk} {f : Stored} {k k' : KeyRow} {kem : Kem} {coins dek : Bytes}
    (good : FileGood suite disk f k kem coins dek) (key : k' ∈ disk'.keys) (id : k'.id = k.id) (alg : k'.algId = k.algId)
    (publicKey : k'.publicKey = k.publicKey) (more : disk.log ⊆ disk'.log)
    (storage : disk'.storage f.row.ciphertextPath = disk.storage f.row.ciphertextPath) :
    FileGood suite disk' f k' kem coins dek := by
  obtain ⟨ciphertext, there, sealed⟩ := good.stored
  exact ⟨key, id.trans good.pinned, alg.trans good.alg, good.known, by rw [publicKey]; exact good.encapsulated,
    by rw [publicKey]; exact good.wrapped.mono more, good.dek_length, good.dekNonce,
    ⟨ciphertext, storage.trans there, sealed.mono more⟩, good.aesNonce, good.hash⟩

-- Each key has its successor among the keys of the next world.
def Carried (keys keys' : List KeyRow) : Prop :=
  ∀ k ∈ keys, ∃ k' ∈ keys', k'.id = k.id ∧ k'.algId = k.algId ∧ k'.publicKey = k.publicKey

theorem VaultGood.carried {keys keys' : List KeyRow} {v : VaultRow} (carried : Carried keys keys') (good : VaultGood keys v) :
    VaultGood keys' v := by
  obtain ⟨k, among, id, alg, publicKey⟩ := good
  obtain ⟨k', among', id', alg', publicKey'⟩ := carried k among
  exact ⟨k', among', id'.trans id, alg'.trans alg, publicKey'.trans publicKey⟩

-- A file stays good with the key of its id among the new ones.
theorem FileGood.carried {disk' : Disk} {f : Stored} {k : KeyRow} {kem : Kem} {coins dek : Bytes}
    (good : FileGood suite disk f k kem coins dek) (carried : Carried disk.keys disk'.keys) (more : disk.log ⊆ disk'.log)
    (storage : disk'.storage f.row.ciphertextPath = disk.storage f.row.ciphertextPath) :
    ∃ k kem coins dek, FileGood suite disk' f k kem coins dek := by
  obtain ⟨k', among, id, alg, publicKey⟩ := carried k good.key
  exact ⟨k', kem, coins, dek, good.mono among id alg publicKey more storage⟩

theorem Carried.append (keys more : List KeyRow) : Carried keys (keys ++ more) :=
  fun k among => ⟨k, List.mem_append_left _ among, rfl, rfl, rfl⟩

-- A rotation only changes the status of the key it retires.
def retired (keys : List KeyRow) (id : Nat) : List KeyRow :=
  keys.map fun k => if k.id = id then { k with active := false } else k

theorem mem_retired {keys : List KeyRow} {id : Nat} {k : KeyRow} (among : k ∈ retired keys id) :
    ∃ k' ∈ keys, k.id = k'.id ∧ k.algId = k'.algId ∧ k.publicKey = k'.publicKey ∧
      k.secretKeyWrapped = k'.secretKeyWrapped ∧ k.secretKeyNonce = k'.secretKeyNonce := by
  obtain ⟨k', among', rfl⟩ := List.mem_map.mp among
  refine ⟨k', among', ?_⟩
  split <;> exact ⟨rfl, rfl, rfl, rfl, rfl⟩

theorem retired_ids (keys : List KeyRow) (id : Nat) : (retired keys id).map (·.id) = keys.map (·.id) := by
  rw [retired, List.map_map]
  apply List.map_congr_left
  intro k _
  simp only [Function.comp_apply]
  split <;> rfl

theorem Carried.retired (keys more : List KeyRow) (id : Nat) : Carried keys (retired keys id ++ more) := by
  intro k among
  refine ⟨_, List.mem_append_left _ (List.mem_map_of_mem among), ?_⟩
  split <;> exact ⟨rfl, rfl, rfl⟩

theorem newKey_good {kem : Kem} {algId : Text} {id version : Nat} {seed nonce : Bytes} (known : suite.kem algId = some kem)
    (formed : nonce.length = 12) (log : Log) :
    KeyGood suite (log ++ [sealing suite kem seed nonce]) (newKey suite kem id algId version seed nonce) kem seed :=
  ⟨known, rfl, ⟨List.mem_append_right _ (List.mem_singleton_self _), rfl⟩, formed⟩

theorem inv_empty : Inv suite emptyWorld where
  once := List.Pairwise.nil
  keyIds := List.nodup_nil
  keys := nofun
  vaults := nofun
  files := nofun
  paths := List.nodup_nil
  drawn := nofun

section Steps
variable {algId : Text} {vaultId keyId : Nat} {seed nonce : Bytes}

theorem inv_createVault (inv : Inv suite w) (freshKey : ∀ k ∈ w.keys, k.id ≠ keyId) (formed : nonce.length = 12)
    (unused : Unused w.log suite.masterKey nonce) (made : createVault suite w vaultId keyId algId seed nonce = some w') :
    Inv suite w' := by
  obtain ⟨kem, known, rfl⟩ := Option.map_eq_some_iff.mp made
  have carried := Carried.append w.keys [newKey suite kem keyId algId 1 seed nonce]
  have more : w.log ⊆ w.log ++ [sealing suite kem seed nonce] := List.subset_append_left _ _
  constructor
  · exact inv.once.append unused
  · rw [List.map_append, List.map_singleton]
    apply List.nodup_append'.mpr ⟨inv.keyIds, List.nodup_singleton _, ?_⟩
    rw [List.disjoint_singleton]
    intro listed
    obtain ⟨k, among, same⟩ := List.mem_map.mp listed
    exact freshKey k among same
  · intro k among
    rcases List.mem_append.mp among with old | new
    · obtain ⟨kem', seed', good⟩ := inv.keys k old
      exact ⟨kem', seed', good.mono more⟩
    · rw [List.mem_singleton.mp new]
      exact ⟨kem, seed, newKey_good known formed _⟩
  · intro v among
    rcases List.mem_append.mp among with listed | listed
    · rcases List.mem_append.mp listed with old | new
      · exact (inv.vaults v (List.mem_append_left _ old)).carried carried
      · rw [List.mem_singleton.mp new]
        exact ⟨_, List.mem_append_right _ (List.mem_singleton_self _), rfl, rfl, rfl⟩
    · exact (inv.vaults v (List.mem_append_right _ listed)).carried carried
  · intro f among
    obtain ⟨k, kem', coins, dek, good⟩ := inv.files f among
    exact good.carried carried more rfl
  · exact inv.paths
  · exact inv.drawn

theorem inv_rotate {vault : VaultRow} (inv : Inv suite w) (freshKey : ∀ k ∈ w.keys, k.id ≠ keyId) (formed : nonce.length = 12)
    (unused : Unused w.log suite.masterKey nonce) (made : rotateVaultKey suite w vault keyId seed nonce = some w') :
    Inv suite w' := by
  obtain ⟨kem, known, rfl⟩ := Option.map_eq_some_iff.mp made
  have carried := fun more => Carried.retired w.keys more vault.kemKeyId
  have more : w.log ⊆ w.log ++ [sealing suite kem seed nonce] := List.subset_append_left _ _
  constructor
  · exact inv.once.append unused
  · rw [List.map_append, List.map_singleton]
    apply List.nodup_append'.mpr ⟨(retired_ids w.keys vault.kemKeyId).symm ▸ inv.keyIds, List.nodup_singleton _, ?_⟩
    rw [List.disjoint_singleton]
    intro listed
    obtain ⟨k, among, same⟩ := List.mem_map.mp listed
    obtain ⟨k', among', id, -⟩ := mem_retired among
    exact freshKey k' among' (id.symm.trans same)
  · intro k among
    rcases List.mem_append.mp among with old | new
    · obtain ⟨k', among', id, alg, publicKey, wrapped, nonce'⟩ := mem_retired old
      obtain ⟨kem', seed', good⟩ := inv.keys k' among'
      exact ⟨kem', seed', alg ▸ good.known, publicKey.trans good.publicKey,
        by rw [wrapped, nonce']; exact good.sealed.mono more, by rw [nonce']; exact good.formed⟩
    · rw [List.mem_singleton.mp new]
      exact ⟨kem, seed, newKey_good known formed _⟩
  · intro v among
    rcases List.mem_append.mp among with listed | listed
    · obtain ⟨v', among', rfl⟩ := List.mem_map.mp listed
      split
      · exact ⟨_, List.mem_append_right _ (List.mem_singleton_self _), rfl, rfl, rfl⟩
      · exact (inv.vaults v' (List.mem_append_left _ among')).carried (carried _)
    · exact (inv.vaults v (List.mem_append_right _ listed)).carried (carried _)
  · intro f among
    obtain ⟨k, kem', coins, dek, good⟩ := inv.files f among
    exact good.carried (carried _) more rfl
  · exact inv.paths
  · exact inv.drawn

-- The key the vault was loaded with is the one the file is pinned to, whatever was rotated meanwhile.
theorem inv_upload {vault : VaultRow} {filename storageKey : Text} {plaintext : Bytes} {draws : Draws} {row : FileRow}
    (inv : Inv suite w) (among : vault ∈ w.loaded) (fresh : storageKey ∉ w.storageKeys)
    (formed : draws.dek.length = 32 ∧ draws.aesNonce.length = 12 ∧ draws.dekWrapNonce.length = 12)
    (made : encryptAndStore suite w.toDisk vault filename plaintext storageKey draws = some (row, disk))
    (once : Once disk.log) :
    Inv suite { w with
      toDisk := disk, uploads := ⟨vault.id, row, plaintext⟩ :: w.uploads, storageKeys := storageKey :: w.storageKeys } := by
  obtain ⟨kem, known, same⟩ := Option.map_eq_some_iff.mp made
  obtain ⟨rfl, rfl⟩ := Prod.ext_iff.mp same
  have more : ∀ added, w.log ⊆ w.log ++ added := fun _ => List.subset_append_left _ _
  have apart : ∀ f ∈ w.uploads ++ w.files, f.row.ciphertextPath ≠ storagePath vault.id storageKey := by
    intro f listed taken
    obtain ⟨key, drawn, path⟩ := inv.drawn f listed
    exact fresh (storagePath_key (path.symm.trans taken) ▸ drawn)
  constructor
  · exact once
  · exact inv.keyIds
  · intro k listed
    obtain ⟨kem', seed, good⟩ := inv.keys k listed
    exact ⟨kem', seed, good.mono (more _)⟩
  · exact inv.vaults
  · intro f listed
    rcases List.mem_cons.mp listed with rfl | old
    · obtain ⟨k, key, id, alg, publicKey⟩ := inv.vaults vault (List.mem_append_right _ among)
      refine ⟨k, kem, draws.coins, draws.dek, key, id, alg, known, ?_, ⟨?_, ?_⟩, formed.1, formed.2.2,
        ⟨_, if_pos rfl, ?_, rfl⟩, formed.2.1, rfl⟩
      · rw [publicKey]
      · rw [publicKey]
        exact List.mem_append_right _ (List.mem_cons_of_mem _ (List.mem_singleton_self _))
      · rw [publicKey]
      · exact List.mem_append_right _ List.mem_cons_self
    · obtain ⟨k, kem', coins, dek, good⟩ := inv.files f old
      exact good.carried (fun k among => ⟨k, among, rfl, rfl, rfl⟩) (more _) (if_neg (apart f old))
  · refine List.nodup_cons.mpr ⟨fun listed => ?_, inv.paths⟩
    obtain ⟨f, old, same⟩ := List.mem_map.mp listed
    exact apart f old same
  · intro f listed
    rcases List.mem_cons.mp listed with rfl | old
    · exact ⟨storageKey, List.mem_cons_self, rfl⟩
    · obtain ⟨key, drawn, path⟩ := inv.drawn f old
      exact ⟨key, List.mem_cons_of_mem _ drawn, path⟩

theorem inv_commit {upload : Stored} {rest : List Stored} (inv : Inv suite w) (waiting : w.uploads.Perm (upload :: rest)) :
    Inv suite { w with uploads := rest, files := upload :: w.files } := by
  have moved : (rest ++ upload :: w.files).Perm (w.uploads ++ w.files) :=
    List.perm_middle.trans (waiting.symm.append_right w.files)
  exact ⟨inv.once, inv.keyIds, inv.keys, inv.vaults, fun f listed => inv.files f (moved.mem_iff.mp listed),
    (moved.map _).nodup_iff.mpr inv.paths, fun f listed => inv.drawn f (moved.mem_iff.mp listed)⟩

theorem inv_abandon {upload : Stored} {rest : List Stored} (inv : Inv suite w) (waiting : w.uploads.Perm (upload :: rest)) :
    Inv suite { w with toDisk := removeCiphertext w.toDisk upload.row.ciphertextPath, uploads := rest } := by
  have moved : (upload :: (rest ++ w.files)).Perm (w.uploads ++ w.files) := waiting.symm.append_right w.files
  have kept : ∀ f ∈ rest ++ w.files, f ∈ w.uploads ++ w.files := fun f listed =>
    moved.mem_iff.mp (List.mem_cons_of_mem _ listed)
  obtain ⟨apart, paths⟩ := List.nodup_cons.mp ((moved.map (·.row.ciphertextPath)).nodup_iff.mpr inv.paths)
  refine ⟨inv.once, inv.keyIds, inv.keys, inv.vaults, fun f listed => ?_, paths, fun f listed => inv.drawn f (kept f listed)⟩
  obtain ⟨k, kem, coins, dek, good⟩ := inv.files f (kept f listed)
  have there : (removeCiphertext w.toDisk upload.row.ciphertextPath).storage f.row.ciphertextPath =
      w.storage f.row.ciphertextPath := by
    apply if_neg
    intro same
    exact apart (List.mem_map.mpr ⟨f, listed, same⟩)
  exact good.carried (fun k among => ⟨k, among, rfl, rfl, rfl⟩) (List.Subset.refl _) there

end Steps

theorem inv_step (inv : Inv suite w) (step : Step suite w w') : Inv suite w' := by
  cases step with
  | createVault freshVault freshKey formed unused made => exact inv_createVault inv freshKey formed unused made
  | rotate among freshKey formed unused made => exact inv_rotate inv freshKey formed unused made
  | load among =>
    refine ⟨inv.once, inv.keyIds, inv.keys, fun v listed => ?_, inv.files, inv.paths, inv.drawn⟩
    rcases List.mem_append.mp listed with row | copy
    · exact inv.vaults v (List.mem_append_left _ row)
    · rcases List.mem_cons.mp copy with rfl | old
      · exact inv.vaults _ (List.mem_append_left _ among)
      · exact inv.vaults v (List.mem_append_right _ old)
  | upload among fresh formed made once => exact inv_upload inv among fresh formed made once
  | commit waiting => exact inv_commit inv waiting
  | abandon waiting => exact inv_abandon inv waiting
  | other foreign unused =>
    have more : ∀ added, w.log ⊆ w.log ++ added := fun _ => List.subset_append_left _ _
    refine ⟨inv.once.append unused, inv.keyIds, fun k among => ?_, inv.vaults, fun f listed => ?_, inv.paths, inv.drawn⟩
    · obtain ⟨kem, seed, good⟩ := inv.keys k among
      exact ⟨kem, seed, good.mono (more _)⟩
    · obtain ⟨k, kem, coins, dek, good⟩ := inv.files f listed
      exact good.carried (fun k among => ⟨k, among, rfl, rfl, rfl⟩) (more _) rfl

theorem inv_reached (reached : Reached suite w) : Inv suite w := by
  induction reached with
  | start => exact inv_empty
  | step _ step inv => exact inv_step inv step

/-! ## What decryption meets -/

section Openings
variable {log : Log} {key nonce ciphertext aad plaintext : Bytes}

theorem openSealed_ok_iff : openSealed suite log key nonce ciphertext aad = .ok plaintext ↔
    keyOk key = true ∧ nonceOk nonce = true ∧ Sealed suite log key nonce aad plaintext ciphertext := by
  have revealed : reveal suite.aesGcm log key nonce ciphertext aad = .ok plaintext ↔
      keyOk key = true ∧ nonceOk nonce = true ∧ Sealed suite log key nonce aad plaintext ciphertext := reveal_ok_iff
  rw [← revealed, openSealed]
  cases reveal suite.aesGcm log key nonce ciphertext aad with
  | ok _ => simp [Except.mapError]
  | error _ => simp [Except.mapError]

theorem openSealed_formed (goodKey : keyOk key = true) (goodNonce : nonceOk nonce = true) :
    (∃ plaintext, openSealed suite log key nonce ciphertext aad = .ok plaintext) ∨
      openSealed suite log key nonce ciphertext aad = .error .unauthenticated := by
  have formed : (∃ plaintext, reveal suite.aesGcm log key nonce ciphertext aad = .ok plaintext) ∨
      reveal suite.aesGcm log key nonce ciphertext aad = .error .tag := reveal_formed goodKey goodNonce
  rcases formed with ⟨plaintext, opened⟩ | refused
  · exact .inl ⟨plaintext, by rw [openSealed, opened]; rfl⟩
  · exact .inr (by rw [openSealed, refused]; rfl)

theorem openSealed_malformed (bad : keyOk key = false ∨ nonceOk nonce = false) :
    openSealed suite log key nonce ciphertext aad = .error .invalidValue := by
  cases goodKey : keyOk key with
  | false =>
    have refused : reveal suite.aesGcm log key nonce ciphertext aad = .error .key := reveal_key goodKey
    rw [openSealed, refused]
    rfl
  | true =>
    have badNonce : nonceOk nonce = false := bad.resolve_left (by simp [goodKey])
    have refused : reveal suite.aesGcm log key nonce ciphertext aad = .error .nonce := reveal_nonce goodKey badNonce
    rw [openSealed, refused]
    rfl

end Openings

theorem orElse_eq_ok {α : Type} {failure : Failure} {o : Option α} {a : α} : orElse failure o = .ok a ↔ o = some a := by
  cases o with
  | none => exact ⟨nofun, nofun⟩
  | some b => simp [orElse]

/-! ## Errors that are not reported as tampering -/

-- It ends with an exception that is no `FileDecryptError`.
def Escaped {α : Type} (result : Except Failure α) : Prop :=
  ∃ failure, result = .error failure ∧ failure.isFileDecryptError = false

theorem not_escaped_ok {α : Type} (a : α) : ¬ Escaped (.ok a) := nofun

theorem not_escaped_error {α : Type} {failure : Failure} (reported : failure.isFileDecryptError = true) :
    ¬ Escaped (.error failure : Except Failure α) := by
  rintro ⟨other, same, escapes⟩
  rw [← Except.error.inj same, reported] at escapes
  cases escapes

theorem escaped_bind {α β : Type} {x : Except Failure α} {next : α → Except Failure β} :
    Escaped (x >>= next) ↔ Escaped x ∨ ∃ a, x = .ok a ∧ Escaped (next a) := by
  constructor
  · rintro ⟨failure, ended, escapes⟩
    rcases bind_eq_error.mp ended with here | ⟨a, ok, later⟩
    · exact .inl ⟨failure, here, escapes⟩
    · exact .inr ⟨a, ok, failure, later, escapes⟩
  · rintro (⟨failure, here, escapes⟩ | ⟨a, ok, failure, later, escapes⟩)
    · exact ⟨failure, bind_eq_error.mpr (.inl here), escapes⟩
    · exact ⟨failure, bind_eq_error.mpr (.inr ⟨a, ok, later⟩), escapes⟩

theorem escaped_guard {α β : Type} {failure : Failure} (reported : failure.isFileDecryptError = true) {refused : Prop}
    [Decidable refused] {skip : α → Except Failure β} {next : Except Failure β} :
    Escaped (if refused then (throw failure >>= skip) else next) ↔ ¬ refused ∧ Escaped next := by
  by_cases here : refused
  · rw [if_pos here]
    exact ⟨fun escaped => absurd escaped (not_escaped_error reported), fun both => absurd here both.1⟩
  · rw [if_neg here]
    exact ⟨fun escaped => ⟨here, escaped⟩, fun both => both.2⟩

theorem escaped_orElse {α : Type} {failure : Failure} {o : Option α} :
    Escaped (orElse failure o) ↔ o = none ∧ failure.isFileDecryptError = false := by
  cases o with
  | none =>
    constructor
    · rintro ⟨other, same, escapes⟩
      exact ⟨rfl, Except.error.inj same ▸ escapes⟩
    · exact fun both => ⟨failure, rfl, both.2⟩
  | some a => exact ⟨fun escaped => absurd escaped (not_escaped_ok a), nofun⟩

theorem escaped_openSealed {log : Log} {key nonce ciphertext aad : Bytes} :
    Escaped (openSealed suite log key nonce ciphertext aad) ↔ keyOk key = false ∨ nonceOk nonce = false := by
  constructor
  · intro escaped
    by_contra formed
    rw [not_or, Bool.not_eq_false, Bool.not_eq_false] at formed
    have ending : (∃ plaintext, openSealed suite log key nonce ciphertext aad = .ok plaintext) ∨
        openSealed suite log key nonce ciphertext aad = .error .unauthenticated := openSealed_formed formed.1 formed.2
    rcases ending with ⟨plaintext, opened⟩ | refused
    · rw [opened] at escaped
      exact not_escaped_ok _ escaped
    · rw [refused] at escaped
      exact not_escaped_error rfl escaped
  · exact fun bad => ⟨_, openSealed_malformed bad, rfl⟩

-- What is sealed need not be looked for behind a key or a nonce that is refused.
theorem escaped_openSealed_bind {β : Type} {log : Log} {key nonce ciphertext aad : Bytes} {next : Bytes → Except Failure β} :
    Escaped (openSealed suite log key nonce ciphertext aad >>= next) ↔
      (keyOk key = false ∨ nonceOk nonce = false) ∨
        ∃ plaintext, Sealed suite log key nonce aad plaintext ciphertext ∧ Escaped (next plaintext) := by
  rw [escaped_bind, escaped_openSealed]
  refine or_congr_right' fun formed => exists_congr fun plaintext => ?_
  rw [not_or, Bool.not_eq_false, Bool.not_eq_false] at formed
  rw [openSealed_ok_iff, formed.1, formed.2]
  simp

/-- Decryption comes to a nonce or a key of a wrong length, or to a secret that the KEM refuses. -/
def ComesToMalformed (suite : Suite) (disk : Disk) (vaultId : Nat) (file : FileRow) (k : KeyRow) (kem : Kem) : Prop :=
  (∀ size ∈ kem.ciphertextSize, file.kemCiphertext.length = size) ∧
    (nonceOk k.secretKeyNonce = false ∨ ∃ secret,
      Sealed suite disk.log suite.masterKey k.secretKeyNonce masterAad secret k.secretKeyWrapped ∧
        (kem.decapsulate secret file.kemCiphertext = none ∨ ∃ shared,
          kem.decapsulate secret file.kemCiphertext = some shared ∧ (nonceOk file.dekWrapNonce = false ∨ ∃ dek,
            Sealed suite disk.log (suite.hkdf shared) file.dekWrapNonce (dekAad vaultId) dek file.wrappedDek ∧
              (disk.storage file.ciphertextPath).isSome ∧ (keyOk dek = false ∨ nonceOk file.aesNonce = false))))

theorem escaped_orElse_bind {α β : Type} {failure : Failure} {o : Option α} {next : α → Except Failure β} :
    Escaped (orElse failure o >>= next) ↔
      (o = none ∧ failure.isFileDecryptError = false) ∨ ∃ a, o = some a ∧ Escaped (next a) := by
  rw [escaped_bind, escaped_orElse]
  simp only [orElse_eq_ok]

section Decrypt
variable {vaultId : Nat} {file : FileRow} {k : KeyRow} {kem : Kem}

theorem escaped_decrypt (found : disk.key file.kemKeyId = some k) (known : suite.kem file.kemAlgId = some kem) :
    Escaped (decrypt suite disk vaultId file) ↔ ComesToMalformed suite disk vaultId file k kem := by
  have master : keyOk suite.masterKey = true := by simp [keyOk, suite.masterKey_length]
  have wrap : ∀ shared, keyOk (suite.hkdf shared) = true := by simp [keyOk, suite.hkdf_length]
  have last : ∀ plaintext, ¬ Escaped (if suite.sha256 plaintext ≠ file.contentSha256 then
      (throw .hashMismatch >>= fun _ : Unit => pure plaintext) else pure plaintext : Except Failure Bytes) :=
    fun plaintext escaped => not_escaped_ok plaintext ((escaped_guard rfl).mp escaped).2
  have sizes : (¬ (kem.ciphertextSize.any fun size => file.kemCiphertext.length ≠ size) = true) ↔
      ∀ size ∈ kem.ciphertextSize, file.kemCiphertext.length = size := by
    cases kem.ciphertextSize <;> simp
  have malformed : Failure.malformedCiphertext.isFileDecryptError = true := rfl
  unfold decrypt ComesToMalformed
  -- one case for each step that can fail
  simp only [found, known, unwrapSecret, escaped_orElse_bind, escaped_guard malformed, escaped_openSealed_bind, last,
    master, wrap]
  simp only [reduceCtorEq, Bool.true_eq_false, false_or, and_false, or_false, exists_false, Option.some.injEq,
    exists_eq_left', sizes, Failure.isFileDecryptError, and_true, Option.isSome_iff_exists, exists_and_right]

-- What is returned has the hash of the row.
theorem decrypt_hash {plaintext : Bytes} (done : decrypt suite disk vaultId file = .ok plaintext) :
    suite.sha256 plaintext = file.contentSha256 := by
  unfold decrypt at done
  obtain ⟨_, -, done⟩ := bind_eq_ok.mp done
  obtain ⟨kem, -, done⟩ := bind_eq_ok.mp done
  split_ifs at done with size
  · cases done
  obtain ⟨_, -, done⟩ := bind_eq_ok.mp done
  obtain ⟨_, -, done⟩ := bind_eq_ok.mp done
  obtain ⟨_, -, done⟩ := bind_eq_ok.mp done
  obtain ⟨_, -, done⟩ := bind_eq_ok.mp done
  obtain ⟨found, -, done⟩ := bind_eq_ok.mp done
  split_ifs at done with same
  · cases done
  obtain rfl := Except.ok.inj done
  exact not_not.mp same

end Decrypt

-- The uploaded bytes, or a `FileDecryptError`
def Reported (result : Except Failure Bytes) (uploaded : Bytes) : Prop :=
  result = .ok uploaded ∨ ∃ failure, result = .error failure ∧ failure.isFileDecryptError = true

theorem reported_iff_not_escaped {result : Except Failure Bytes} {uploaded : Bytes}
    (same : ∀ plaintext, result = .ok plaintext → plaintext = uploaded) : Reported result uploaded ↔ ¬ Escaped result := by
  cases result with
  | ok plaintext => exact ⟨fun _ => not_escaped_ok _, fun _ => .inl (by rw [same plaintext rfl])⟩
  | error failure =>
    cases told : failure.isFileDecryptError with
    | true => exact ⟨fun _ => not_escaped_error told, fun _ => .inr ⟨failure, rfl, told⟩⟩
    | false =>
      refine ⟨?_, fun reported => absurd ⟨failure, rfl, told⟩ reported⟩
      rintro (ok | ⟨other, same', told'⟩)
      · cases ok
      · rw [← Except.error.inj same', told] at told'
        cases told'

/-! ## Files of a run -/

theorem key_found {keys : List KeyRow} (unique : (keys.map (·.id)).Nodup) {k : KeyRow} (among : k ∈ keys) :
    (keys.find? fun k' => k'.id = k.id) = some k := by
  have listed : (keys.find? fun k' => k'.id = k.id).isSome = true := List.find?_isSome.mpr ⟨k, among, by simp⟩
  obtain ⟨k', found⟩ := Option.isSome_iff_exists.mp listed
  have same : k'.id = k.id := by simpa using List.find?_some found
  rw [found, List.inj_on_of_nodup_map unique (List.mem_of_find?_eq_some found) among same]

-- The key of the row opens, with the secret of its public key.
theorem Inv.fileKey (inv : Inv suite w) {f : Stored} {k : KeyRow} {kem : Kem} {coins dek : Bytes}
    (good : FileGood suite w.toDisk f k kem coins dek) : w.key f.row.kemKeyId = some k ∧ ∃ seed, KeyGood suite w.log k kem seed := by
  refine ⟨good.pinned ▸ key_found inv.keyIds good.key, ?_⟩
  obtain ⟨kem', seed, key⟩ := inv.keys k good.key
  have known := good.known
  rw [← good.alg, key.known] at known
  exact ⟨seed, Option.some.inj known ▸ key⟩

theorem nonceOk_of_length {nonce : Bytes} (formed : nonce.length = 12) : nonceOk nonce = true := by
  simp [nonceOk, formed]

theorem guard_size {kem : Kem} {ciphertext : Bytes} (sized : ∀ size ∈ kem.ciphertextSize, ciphertext.length = size) :
    (kem.ciphertextSize.any fun size => ciphertext.length ≠ size) = false := by
  cases size : kem.ciphertextSize with
  | none => rfl
  | some n => simp [sized n size]

/-- The way to a file's key: the pinned row is there, its secret opens, and the KEM gives back what the DEK was
wrapped under. -/
theorem Inv.unwraps (inv : Inv suite w) {f : Stored} (stored : f ∈ w.uploads ++ w.files) :
    ∃ k kem coins dek secret shared, FileGood suite w.toDisk f k kem coins dek ∧
      w.key f.row.kemKeyId = some k ∧
      (kem.ciphertextSize.any fun size => f.row.kemCiphertext.length ≠ size) = false ∧
      unwrapSecret suite w.log k.secretKeyNonce k.secretKeyWrapped = .ok secret ∧
      kem.decapsulate secret f.row.kemCiphertext = some shared ∧
      Sealed suite w.log (suite.hkdf shared) f.row.dekWrapNonce (dekAad f.vaultId) dek f.row.wrappedDek := by
  obtain ⟨k, kem, coins, dek, good⟩ := inv.files f stored
  obtain ⟨found, seed, key⟩ := inv.fileKey good
  have encapsulated := good.encapsulated
  have wrapped := good.wrapped
  rw [key.publicKey] at encapsulated wrapped
  refine ⟨k, kem, coins, dek, (kem.keygen seed).2, _, good, found, ?_, ?_, ?_, wrapped⟩
  · rw [encapsulated]
    exact guard_size (kem.sized seed coins)
  · exact openSealed_ok_iff.mpr ⟨by simp [keyOk, suite.masterKey_length], nonceOk_of_length key.formed, key.sealed⟩
  · rw [encapsulated]
    exact kem.correct seed coins

/-- Every file that a run has stored decrypts to what was uploaded. -/
theorem decrypt_uploaded (reached : Reached suite w) {f : Stored} (stored : f ∈ w.uploads ++ w.files) :
    decrypt suite w.toDisk f.vaultId f.row = .ok f.uploaded := by
  obtain ⟨k, kem, coins, dek, secret, shared, good, found, size, unwrapped, decapsulated, wrapped⟩ :=
    (inv_reached reached).unwraps stored
  obtain ⟨ciphertext, there, sealed⟩ := good.stored
  have opened : openSealed suite w.log (suite.hkdf shared) f.row.dekWrapNonce f.row.wrappedDek (dekAad f.vaultId) = .ok dek :=
    openSealed_ok_iff.mpr ⟨by simp [keyOk, suite.hkdf_length], nonceOk_of_length good.dekNonce, wrapped⟩
  have bytes : openSealed suite w.log dek f.row.aesNonce ciphertext (fileAad f.vaultId) = .ok f.uploaded :=
    openSealed_ok_iff.mpr ⟨by simp [keyOk, good.dek_length], nonceOk_of_length good.aesNonce, sealed⟩
  unfold decrypt
  rw [found, good.known]
  simp only [orElse, bind, Except.bind, size, unwrapped, decapsulated, opened, there, bytes, good.hash]
  simp [pure, Except.pure]

-- No key seals one nonce for two vaults, so the key of a file of another vault is not opened.
theorem decrypt_exchanged (reached : Reached suite w) {f g : Stored} (stored : g ∈ w.uploads ++ w.files)
    (apart : g.vaultId ≠ f.vaultId) (path : Text) :
    decrypt suite w.toDisk f.vaultId (exchanged f.row g.row path) = .error .unauthenticated := by
  have inv := inv_reached reached
  obtain ⟨k, kem, coins, dek, secret, shared, good, found, size, unwrapped, decapsulated, wrapped⟩ := inv.unwraps stored
  have refused : openSealed suite w.log (suite.hkdf shared) g.row.dekWrapNonce g.row.wrappedDek (dekAad f.vaultId) =
      .error .unauthenticated := by
    have keyLength : keyOk (suite.hkdf shared) = true := by simp [keyOk, suite.hkdf_length]
    rcases openSealed_formed keyLength (nonceOk_of_length good.dekNonce) with ⟨plaintext, opened⟩ | refused
    · have here := (openSealed_ok_iff.mp opened).2.2.1
      have same := inv.once.same here wrapped.1 rfl rfl
      exact absurd (dekAad_injective (congrArg Sealing.aad same)).symm apart
    · exact refused
  unfold decrypt exchanged
  rw [found, good.known]
  simp only [orElse, bind, Except.bind, size, unwrapped, decapsulated, refused]
  simp

/-! ## Tampering -/

/-- Decryption of what was tampered with comes to a nonce or key of a wrong length, or to a secret the KEM refuses. -/
def Malformed (suite : Suite) (disk : Disk) (vaultId : Nat) (file : FileRow) : Prop :=
  ∃ k kem, disk.key file.kemKeyId = some k ∧ suite.kem file.kemAlgId = some kem ∧
    ComesToMalformed suite disk vaultId file k kem

theorem escaped_iff_malformed {vaultId : Nat} {file : FileRow} {k : KeyRow} {kem : Kem}
    (found : disk.key file.kemKeyId = some k) (known : suite.kem file.kemAlgId = some kem) :
    Escaped (decrypt suite disk vaultId file) ↔ Malformed suite disk vaultId file := by
  rw [escaped_decrypt found known]
  constructor
  · exact fun malformed => ⟨k, kem, found, known, malformed⟩
  · rintro ⟨k', kem', found', known', malformed⟩
    obtain rfl := Option.some.inj (found.symm.trans found')
    obtain rfl := Option.some.inj (known.symm.trans known')
    exact malformed

-- The row that is tampered with is still the one of its id.
theorem tampered_key {file : FileRow} {k : KeyRow} (t : Tampering) (found : disk.key file.kemKeyId = some k) :
    (t.disk disk file).key file.kemKeyId =
      some { k with secretKeyWrapped := t.secretKeyWrapped, secretKeyNonce := t.secretKeyNonce } := by
  unfold Disk.key Tampering.disk
  rw [List.find?_map]
  have same : ((fun k : KeyRow => decide (k.id = file.kemKeyId)) ∘ fun k : KeyRow => if k.id = file.kemKeyId then
      { k with secretKeyWrapped := t.secretKeyWrapped, secretKeyNonce := t.secretKeyNonce } else k) =
      fun k => decide (k.id = file.kemKeyId) := by
    funext k
    simp only [Function.comp_apply]
    split <;> rfl
  have here : k.id = file.kemKeyId := by simpa using List.find?_some found
  rw [same]
  simp only [Disk.key] at found
  rw [found, Option.map_some, if_pos here]

/-- What is claimed of a stored file: it decrypts to what was uploaded, and whatever is written over it is
reported, as is its exchange with a file of another vault. -/
structure Claimed (suite : Suite) (w : World) (f : Stored) : Prop where
  readable : decrypt suite w.toDisk f.vaultId f.row = .ok f.uploaded
  tampered : ∀ t : Tampering, Reported (decryptTampered suite w.toDisk f.vaultId f.row t) f.uploaded
  exchanged : ∀ g ∈ w.files, g.vaultId ≠ f.vaultId → ∀ path,
    Reported (decrypt suite w.toDisk f.vaultId (exchanged f.row g.row path)) f.uploaded

/-- In every run, with uploads and rotations in any order: a stored file decrypts to what was uploaded, it is
reported when exchanged with one of another vault, and what is written over it is reported unless decryption comes
to something malformed. -/
theorem tampering_reported_iff (collisionFree : Function.Injective suite.sha256) (reached : Reached suite w) {f : Stored}
    (stored : f ∈ w.files) :
    decrypt suite w.toDisk f.vaultId f.row = .ok f.uploaded ∧
      (∀ t : Tampering, Reported (decryptTampered suite w.toDisk f.vaultId f.row t) f.uploaded ↔
        ¬ Malformed suite (t.disk w.toDisk f.row) f.vaultId (t.row f.row)) ∧
      (∀ g ∈ w.files, g.vaultId ≠ f.vaultId → ∀ path,
        Reported (decrypt suite w.toDisk f.vaultId (exchanged f.row g.row path)) f.uploaded) := by
  have among : f ∈ w.uploads ++ w.files := List.mem_append_right _ stored
  refine ⟨decrypt_uploaded reached among, fun t => ?_, fun g other apart path => ?_⟩
  · obtain ⟨k, kem, coins, dek, secret, shared, good, found, -⟩ := (inv_reached reached).unwraps among
    have escapes : Escaped (decryptTampered suite w.toDisk f.vaultId f.row t) ↔
        Malformed suite (t.disk w.toDisk f.row) f.vaultId (t.row f.row) :=
      escaped_iff_malformed (tampered_key t found) good.known
    rw [← escapes]
    apply reported_iff_not_escaped
    intro plaintext done
    exact collisionFree ((decrypt_hash done).trans good.hash)
  · exact .inr ⟨_, decrypt_exchanged reached (List.mem_append_right _ other) apart path, rfl⟩

/-! ### A stored file -/

-- It gives back what was encapsulated, and refuses nothing of the right length.
def sampleKem : Kem where
  keygen seed := (seed, seed)
  encapsulate publicKey _ := ([7, 7], publicKey)
  decapsulate secret _ := some secret
  ciphertextSize := some 2
  correct _ _ := rfl
  sized _ _ := by simp

def sampleAlg : Text := text "ML-KEM-768"

def sampleSuite : Suite where
  encrypt _ _ _ plaintext := plaintext
  encrypt_injective _ _ _ _ _ same := same
  kem algId := if algId = sampleAlg then some sampleKem else none
  hkdf secret := List.replicate 32 (secret.headD 0)
  hkdf_length _ := List.length_replicate
  sha256 bytes := bytes.map fun b => ⟨b.toNat, by have := b.toNat_lt; omega⟩
  masterKey := List.replicate 32 1
  masterKey_length := List.length_replicate

def sampleVault : VaultRow := ⟨1, sampleAlg, [5], 1⟩
def sampleDraws : Draws := ⟨List.replicate 32 2, List.replicate 12 3, [], List.replicate 12 4⟩
def sampleNonce : Bytes := List.replicate 12 0
def sampleKey : KeyRow := ⟨1, sampleAlg, [5], [5], sampleNonce, true, 1⟩
def samplePath : Text := storagePath 1 (text "k")

def sampleRow : FileRow :=
  ⟨text "a.txt", sampleSuite.sha256 [9], samplePath, 1, sampleDraws.aesNonce, sampleAlg, 1, [7, 7], sampleDraws.dek,
    sampleDraws.dekWrapNonce⟩

def sampleStored : Stored := ⟨1, sampleRow, [9]⟩

def sampleLog : Log :=
  [⟨sampleSuite.masterKey, sampleNonce, masterAad, [5]⟩, ⟨sampleDraws.dek, sampleDraws.aesNonce, fileAad 1, [9]⟩,
    ⟨sampleSuite.hkdf [5], sampleDraws.dekWrapNonce, dekAad 1, sampleDraws.dek⟩]

def sampleDisk : Disk := ⟨[sampleKey], fun path => if path = samplePath then some [9] else none, sampleLog⟩
def sampleWorld : World := ⟨sampleDisk, [sampleVault], [sampleVault], [], [sampleStored], [text "k"]⟩

theorem sample_collisionFree : Function.Injective sampleSuite.sha256 := by
  apply List.map_injective_iff.mpr
  intro b c same
  exact UInt8.toNat_inj.mp (Fin.mk.inj same)

theorem sample_known : sampleSuite.kem sampleAlg = some sampleKem := by simp [sampleSuite]

theorem sample_reached : Reached sampleSuite sampleWorld := by
  let created : World := ⟨⟨[sampleKey], fun _ => none, sampleLog.take 1⟩, [sampleVault], [], [], [], []⟩
  have create : Step sampleSuite emptyWorld created := by
    have made : createVault sampleSuite emptyWorld 1 1 sampleAlg [5] sampleNonce = some created := by
      rw [createVault, sample_known]
      rfl
    exact .createVault nofun nofun rfl nofun made
  have load : Step sampleSuite created { created with loaded := [sampleVault] } := .load (List.mem_singleton_self _)
  have upload : Step sampleSuite { created with loaded := [sampleVault] }
      { sampleWorld with uploads := [sampleStored], files := [] } := by
    let loaded : World := { created with loaded := [sampleVault] }
    have made : encryptAndStore sampleSuite loaded.toDisk sampleVault (text "a.txt") [9] (text "k") sampleDraws =
        some (sampleRow, sampleDisk) := by
      simp only [encryptAndStore, sampleVault, sample_known]
      rfl
    have once : Once sampleDisk.log := by
      unfold Once
      decide
    exact .upload (w := loaded) (List.mem_singleton_self _) List.not_mem_nil ⟨rfl, rfl, rfl⟩ made once
  have commit : Step sampleSuite { sampleWorld with uploads := [sampleStored], files := [] } sampleWorld :=
    .commit (List.Perm.refl _)
  exact (((Reached.start.step create).step load).step upload).step commit

-- The nonce of the file is deleted: AES-GCM refuses it with an error of its own.
def sampleTampering : Tampering := ⟨[7, 7], sampleDraws.dek, sampleDraws.dekWrapNonce, [], [5], sampleNonce, some [9], []⟩

theorem tampering_not_reported : ∃ (suite : Suite) (w : World) (f : Stored), Function.Injective suite.sha256 ∧
    Reached suite w ∧ f ∈ w.files ∧ ¬ Claimed suite w f := by
  refine ⟨sampleSuite, sampleWorld, sampleStored, sample_collisionFree, sample_reached, List.mem_singleton_self _, ?_⟩
  intro claimed
  have refused : decryptTampered sampleSuite sampleDisk 1 sampleRow sampleTampering = .error .invalidValue := by decide
  rcases claimed.tampered sampleTampering with ok | ⟨failure, error, told⟩
  · exact nomatch refused.symm.trans ok
  · rw [← Except.error.inj (refused.symm.trans error)] at told
    exact nomatch told

theorem tampering_reported_sample : Reported (decryptTampered sampleSuite sampleDisk 1 sampleRow sampleTampering) [9] ↔
    ¬ Malformed sampleSuite (sampleTampering.disk sampleDisk sampleRow) 1 (sampleTampering.row sampleRow) :=
  (tampering_reported_iff sample_collisionFree sample_reached (List.mem_singleton_self sampleStored)).2.1 sampleTampering

end QVault.Proof.FileCrypto
