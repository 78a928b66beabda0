import QVault.Proof.Verify.Votes

/-!
# The log's entries

What the steps that read the log leave behind when they pass: every entry recomputes and is placed
in the checkpoint's tree, and the entries record the votes.
-/

namespace QVault.Proof.Verify
open QVault.Verify QVault.Python QVault.Crypto QVault.Transparency QVault.Services Results

variable {tools : Tools} {opened : Opened} {voted : Voted}

/-! ## Entries by `seq` -/

theorem setKey_mem {key : Json} {raw : Fields} {entries : List (Json × Fields)} {e : Json × Fields}
    (hashable : key.hashable = true) (there : e ∈ setKey key raw entries) :
    e ∈ entries ∨ (e.2 = raw ∧ key.same e.1 = true) := by
  induction entries with
  | nil =>
    cases List.mem_singleton.mp there
    exact .inr ⟨rfl, same_refl hashable⟩
  | cons first rest ih =>
    obtain ⟨k, v⟩ := first
    simp only [setKey] at there
    split at there
    · rename_i equal
      cases there with
      | head => exact .inr ⟨rfl, equal⟩
      | tail _ later => exact .inl (List.mem_cons_of_mem _ later)
    · cases there with
      | head => exact .inl List.mem_cons_self
      | tail _ later => exact (ih later).imp_left (List.mem_cons_of_mem _)

theorem foldl_setKey_mem {read entries : List (Json × Fields)} {e : Json × Fields}
    (hashable : ∀ r ∈ read, r.1.hashable = true)
    (there : e ∈ read.foldl (fun entries e => setKey e.1 e.2 entries) entries) :
    e ∈ entries ∨ ∃ r ∈ read, e.2 = r.2 ∧ r.1.same e.1 = true := by
  induction read generalizing entries with
  | nil => exact .inl there
  | cons first rest ih =>
    rw [List.foldl_cons] at there
    cases ih (fun r later => hashable r (List.mem_cons_of_mem _ later)) there with
    | inl early =>
      cases setKey_mem (hashable first List.mem_cons_self) early with
      | inl before => exact .inl before
      | inr set => exact .inr ⟨first, List.mem_cons_self, set⟩
    | inr late =>
      obtain ⟨r, listed, same⟩ := late
      exact .inr ⟨r, List.mem_cons_of_mem _ listed, same⟩

theorem hash_ok {value : Json} {u : Unit} : Verify.hash value = .ok u ↔ value.hashable = true := by
  unfold Verify.hash
  split <;> simp_all

theorem readEntry_some {raw : Json} {e : Json × Fields} (read : readEntry tools raw = .ok (some e)) :
    raw = .dict e.2 ∧ Json.get e.2 "seq" = e.1 ∧ e.1.hashable = true ∧
      ∃ entryHash, Recomputes tools e.2 entryHash := by
  unfold readEntry at read
  simp only [bind_eq_ok, need_eq_ok, asDict_eq_ok] at read
  obtain ⟨seq, ⟨fields, rfl, seqPresent⟩, payloadJson, ⟨_, here, jsonPresent⟩, payloadHash,
    ⟨_, here', hashPresent⟩, _, here'', payload, encoded, read⟩ := read
  cases here
  cases here'
  cases here''
  split at read
  · cases read
  · rename_i payloadOk
    simp only [bind_eq_ok, raising_eq_ok] at read
    obtain ⟨entry, readFields, recomputed, hashed, read⟩ := read
    split at read
    · cases read
    · rename_i entryOk
      simp only [bind_eq_ok, hash_ok, pure_eq_ok] at read
      obtain ⟨_, hashable, same⟩ := read
      cases same
      simp only [Bool.not_eq_true, Bool.not_eq_false', str_eq] at payloadOk entryOk
      cases payloadJson with
      | str payloadText =>
        simp only [payloadBytes, raising_eq_ok] at encoded
        refine ⟨rfl, get_of_lookup seqPresent, hashable, recomputed, payloadText, payload, entry,
          get_of_lookup jsonPresent, encoded, ?_, ?_, hashed, entryOk⟩
        · rw [get_of_lookup hashPresent, payloadOk]
        · rw [get_of_lookup seqPresent, get_of_lookup hashPresent]
          exact readFields
      | _ => cases encoded

structure ReadEntries (tools : Tools) (log : Json) (entries : List (Json × Fields)) : Prop where
  listed : ∃ items, field log "entries" = .list items ∧ ∀ e ∈ entries, .dict e.2 ∈ items
  recomputes : ∀ e ∈ entries, ∃ entryHash, Recomputes tools e.2 entryHash
  bySeq : ∀ e ∈ entries, (Json.get e.2 "seq").same e.1 = true

theorem checkEntries_passes {log : Json} {entries : List (Json × Fields)}
    (passed : Passes (checkEntries tools log) entries) : ReadEntries tools log entries := by
  unfold checkEntries at passed
  simp only [passes_bind, passes_step, need_eq_ok, asList_eq_ok] at passed
  obtain ⟨value, ⟨fields, rfl, present⟩, items, rfl, passed⟩ := passed
  split at passed
  · simp at passed
  · simp only [passes_bind, passes_step, passes_add, passes_pure] at passed
    obtain ⟨read, readAll, -, -, rfl⟩ := passed
    have each : ∀ r ∈ read.filterMap id, ∃ raw ∈ items, readEntry tools raw = .ok (some r) := by
      intro r there
      obtain ⟨result, there, same⟩ := List.mem_filterMap.mp there
      cases same
      exact mapM_ok_mem readAll there
    have source : ∀ e ∈ bySeq (read.filterMap id), ∃ r ∈ read.filterMap id, e.2 = r.2 ∧ r.1.same e.1 = true := by
      intro e there
      refine (foldl_setKey_mem ?_ there).resolve_left List.not_mem_nil
      intro r listed
      obtain ⟨raw, -, readOne⟩ := each r listed
      exact (readEntry_some readOne).2.2.1
    refine ⟨⟨items, get_of_lookup present, ?_⟩, ?_, ?_⟩
    · intro e there
      obtain ⟨r, listed, sameRaw, -⟩ := source e there
      obtain ⟨raw, inItems, readOne⟩ := each r listed
      rw [sameRaw, ← (readEntry_some readOne).1]
      exact inItems
    · intro e there
      obtain ⟨r, listed, sameRaw, -⟩ := source e there
      obtain ⟨raw, -, readOne⟩ := each r listed
      rw [sameRaw]
      exact (readEntry_some readOne).2.2.2
    · intro e there
      obtain ⟨r, listed, sameRaw, sameSeq⟩ := source e there
      obtain ⟨raw, -, readOne⟩ := each r listed
      rw [sameRaw, (readEntry_some readOne).2.1]
      exact sameSeq

/-! ## Binding -/

theorem addEvent_mem {events : List SigningEvent} {event e : SigningEvent} (there : e ∈ addEvent events event) :
    e ∈ events ∨ e = event := by
  unfold addEvent at there
  split at there
  · exact .inl there
  · simpa using there

theorem foldl_addEvent_mem {read events : List SigningEvent} {e : SigningEvent}
    (there : e ∈ read.foldl addEvent events) : e ∈ events ∨ e ∈ read := by
  induction read generalizing events with
  | nil => exact .inl there
  | cons first rest ih =>
    rw [List.foldl_cons] at there
    cases ih there with
    | inl early =>
      cases addEvent_mem early with
      | inl before => exact .inl before
      | inr set => exact .inr (set ▸ List.mem_cons_self)
    | inr late => exact .inr (List.mem_cons_of_mem _ late)

theorem loadPayload_ok {entry : Json × Fields} {logged : Logged} (loaded : loadPayload entry = .ok logged) :
    logged.raw = entry.2 ∧ PayloadOf entry.2 logged.payload := by
  unfold loadPayload at loaded
  split at loaded
  · rename_i t present
    simp only [map_eq_ok, raising_eq_ok] at loaded
    obtain ⟨payload, loaded, rfl⟩ := loaded
    exact ⟨rfl, t, present, loaded⟩
  · cases loaded

theorem createdOk_true {payloads : List Logged} {payloadHash : Text}
    (recorded : createdOk payloads payloadHash = .ok true) :
    ∃ logged ∈ payloads, Json.get logged.raw "event_type" = .str "proposal_created" ∧
      field logged.payload "payload_hash" = .str payloadHash := by
  unfold createdOk at recorded
  split at recorded
  · cases recorded
  · rename_i logged found
    simp only [bind_eq_ok, getAttr_eq_ok, pure_eq_ok, eq_str] at recorded
    obtain ⟨value, ⟨fields, isDict, present⟩, rfl⟩ := recorded
    have isCreated := List.find?_some found
    simp only [Logged.is, eq_str] at isCreated
    refine ⟨logged, List.mem_of_find?_eq_some found, isCreated, ?_⟩
    rw [isDict]
    exact present

theorem readSigningEvent_ok {logged : Logged} {event : SigningEvent} (read : readSigningEvent logged = .ok event) :
    field logged.payload "signer_id" = event.signerId ∧ field logged.payload "decision" = event.decision ∧
      field logged.payload "signature_sha256" = event.signatureSha256 := by
  unfold readSigningEvent at read
  simp only [bind_eq_ok, getAttr_eq_ok, pure_eq_ok] at read
  obtain ⟨_, ⟨fields, isDict, rfl⟩, _, ⟨_, isDict', rfl⟩, _, ⟨_, isDict'', rfl⟩, -, -, -, -, -, -, rfl⟩ := read
  rw [isDict] at isDict' isDict''
  cases isDict'
  cases isDict''
  rw [isDict]
  exact ⟨rfl, rfl, rfl⟩

theorem signedEvents_mem {payloads : List Logged} {uuid : Json} {events : List SigningEvent}
    (read : signedEvents payloads uuid = .ok events) {event : SigningEvent} (there : event ∈ events) :
    ∃ logged ∈ payloads, Json.get logged.raw "event_type" = .str "proposal_signed" ∧
      (Json.get logged.raw "ref_id").eq uuid = true ∧ field logged.payload "signer_id" = event.signerId ∧
      field logged.payload "decision" = event.decision ∧
      field logged.payload "signature_sha256" = event.signatureSha256 := by
  unfold signedEvents at read
  simp only [bind_eq_ok, pure_eq_ok] at read
  obtain ⟨found, readAll, rfl⟩ := read
  have inFound := (foldl_addEvent_mem there).resolve_left (fun none => nomatch none)
  obtain ⟨logged, kept, readOne⟩ := mapM_ok_mem readAll inFound
  simp only [List.mem_filter, Bool.and_eq_true, Logged.is, Logged.refersTo, eq_str] at kept
  obtain ⟨listed, isSigned, refers⟩ := kept
  exact ⟨logged, listed, isSigned, refers, readSigningEvent_ok readOne⟩

structure BoundVotes (tools : Tools) (opened : Opened) (voted : Voted) (entries : List (Json × Fields)) : Prop where
  created : ∃ e ∈ entries, ∃ payload, Json.get e.2 "event_type" = .str "proposal_created" ∧
    PayloadOf e.2 payload ∧ field payload "payload_hash" = .str voted.payloadHash
  signed : ∀ s ∈ voted.verified, ∃ e ∈ entries, ∃ payload, Json.get e.2 "event_type" = .str "proposal_signed" ∧
    (Json.get e.2 "ref_id").eq (Json.get opened.decision "proposal_uuid") = true ∧ PayloadOf e.2 payload ∧
    s.signerId.same (field payload "signer_id") = true ∧ s.decision.same (field payload "decision") = true ∧
    field payload "signature_sha256" = .str (sha256Hex tools.sha256 s.signature)

theorem checkBinding_passes {entries : List (Json × Fields)} {payloads : List Logged}
    (passed : Passes (checkBinding tools opened voted entries) payloads) : BoundVotes tools opened voted entries := by
  unfold checkBinding at passed
  simp only [passes_bind, passes_step, passes_add, passes_pure] at passed
  obtain ⟨loaded, loadedAll, bound, bindingOk, -, rfl, -⟩ := passed
  unfold binding at bindingOk
  simp only [bind_eq_ok, pure_eq_ok, Bool.and_eq_true, List.all_eq_true] at bindingOk
  obtain ⟨created, createdTrue, events, eventsRead, ⟨rfl, recorded⟩, -⟩ := bindingOk
  constructor
  · obtain ⟨logged, listed, isCreated, hash⟩ := createdOk_true createdTrue
    obtain ⟨e, inEntries, readOne⟩ := mapM_ok_mem loadedAll listed
    obtain ⟨sameRaw, payload⟩ := loadPayload_ok readOne
    rw [sameRaw] at isCreated
    exact ⟨e, inEntries, logged.payload, isCreated, payload, hash⟩
  · intro s there
    obtain ⟨event, inEvents, same⟩ := List.any_eq_true.mp (recorded s there)
    obtain ⟨logged, listed, isSigned, refers, signer, vote, signature⟩ := signedEvents_mem eventsRead inEvents
    obtain ⟨e, inEntries, readOne⟩ := mapM_ok_mem loadedAll listed
    obtain ⟨sameRaw, payload⟩ := loadPayload_ok readOne
    rw [sameRaw] at isSigned refers
    simp only [SigningEvent.same, Verified.event, Bool.and_eq_true, same_str] at same
    obtain ⟨⟨sameSigner, sameVote⟩, sameSignature⟩ := same
    refine ⟨e, inEntries, logged.payload, isSigned, refers, payload, ?_, ?_, ?_⟩
    · rw [signer]
      exact sameSigner
    · rw [vote]
      exact sameVote
    · rw [signature]
      exact sameSignature

/-! ## Inclusion -/

theorem includedEntry_true {treeSize : Json} {root : Bytes} {e : Json × Fields}
    (included : includedEntry tools treeSize root e = .ok true) :
    ∃ entryHash leaf proof, Json.get e.2 "entry_hash" = .str entryHash ∧
      entryLeafHash tools.sha256 entryHash = .ok leaf ∧ readProof e.2 = some proof ∧
      verifyInclusionOf tools.sha256 leaf e.1 treeSize proof root = .ok true := by
  unfold includedEntry at included
  split at included
  · cases included
  · rename_i proof entryHash readable present
    simp only [bind_eq_ok, raising_eq_ok] at included
    obtain ⟨leaf, hashed, placed⟩ := included
    exact ⟨entryHash, leaf, proof, present, hashed, readable, placed⟩
  · cases included

theorem checkInclusion_passes {log : Json} {entries : List (Json × Fields)} {payloads : List Logged}
    {checkpoint : Fields} (passed : Passes (checkInclusion tools log voted entries payloads) checkpoint) :
    field log "checkpoint" = .dict checkpoint ∧
      ∃ root, readHex32 (Json.get checkpoint "root_hash") = .ok root ∧
        ∀ e ∈ entries, includedEntry tools (Json.get checkpoint "tree_size") root e = .ok true := by
  unfold checkInclusion at passed
  simp only [passes_bind, passes_step, passes_add, need_eq_ok, asDict_eq_ok] at passed
  obtain ⟨_, ⟨fields, rfl, present⟩, treeSize, ⟨_, here, sizePresent⟩, rootHash, ⟨_, here', rootPresent⟩, root,
    readRoot, included, readAll, -, -, -, held, rfl⟩ := passed
  cases here
  cases here'
  refine ⟨get_of_lookup present, root, ?_, ?_⟩
  · rw [get_of_lookup rootPresent]
    exact readRoot
  · intro e there
    rw [get_of_lookup sizePresent]
    unfold includedEntries at readAll
    split at readAll
    · obtain ⟨result, inResults, readOne⟩ := mapM_ok_of_mem readAll there
      obtain ⟨verdict, placed, rfl⟩ := map_eq_ok.mp readOne
      have accepted : verdict = true := List.all_eq_true.mp held _ inResults
      rw [placed, accepted]
    · cases readAll

end QVault.Proof.Verify
