import QVault.Proof.Python.Text
import QVault.Proof.Services.DecisionLifecycle
import QVault.Proof.Verify.Votes
import QVault.Services.Export

/-!
# Rows that count for consent

Which rows of any signatures table the tally counts, and which the offline verifier counts in the
decision's bundle.
-/

namespace QVault.Proof.Services
open QVault.Services QVault.Verify QVault.Python QVault.Crypto Results QVault.Proof.Codecs

section Consent
variable {config : VoteConfig} {tools : Tools} {board : Board} {around : Surrounding} {p : Proposal}
  {rows : List SignatureRow}

/-! ## What a row can show -/

-- The row's signature verifies over the decision's hash, under the key it carries.
def verifiesCarried (config : VoteConfig) (p : Proposal) (row : SignatureRow) : Bool :=
  match voteSigningBytes p.payloadHash (.str row.decision) (.int row.signerId) with
  | .ok message => config.registry.verify (.str row.algId) row.publicKey message row.signature
  | .error _ => false

-- Its key is the one registered for its signer, and it was made for this hash.
def unaltered (board : Board) (p : Proposal) (row : SignatureRow) : Bool :=
  pinnedToOwner board row && row.signedPayloadHash == p.payloadHash

def ownVote (config : VoteConfig) (board : Board) (p : Proposal) (row : SignatureRow) : Bool :=
  unaltered board p row && verifiesCarried config p row

def isVote (row : SignatureRow) : Prop := isDecision (.str row.decision) = true

def IsApproveOrReject (decision : Text) : Prop := decision = "approve" ∨ decision = "reject"

theorem isVote_iff {row : SignatureRow} : isVote row ↔ IsApproveOrReject row.decision := by
  simp [isVote, isDecision, IsApproveOrReject, Json.eq]

theorem payloadHash_hex (bound : bindingOk config board p = true) : ∃ bytes, p.payloadHash = hexText bytes := by
  unfold bindingOk at bound
  split at bound
  · cases bound
  · rename_i signed _
    simp only [Bool.and_eq_true, beq_iff_eq] at bound
    exact ⟨config.sha256 signed, bound.1.1.symm⟩

-- The bytes of a vote on a decision with an intact binding can always be written.
theorem voteBytes_ok (bound : bindingOk config board p = true) {decision : Text} (vote : IsApproveOrReject decision)
    (signer : Int) : ∃ message, voteSigningBytes p.payloadHash (.str decision) (.int signer) = .ok message := by
  obtain ⟨bytes, hash⟩ := payloadHash_hex bound
  have decisionClean : Clean decision := by
    obtain rfl | rfl := vote
    · exact clean_text_of "approve" (by decide)
    · exact clean_text_of "reject" (by decide)
  have body : Clean ((Json.dict [("proposal_payload_hash", .str (hexText bytes)), ("decision", .str decision),
      ("signer_id", .int signer)]).dumps .canonical) := by
    apply clean_dict
    simp only [List.forall_mem_cons]
    exact ⟨⟨clean_text_of _ (by decide), clean_quote (clean_hexText bytes)⟩,
      ⟨clean_text_of _ (by decide), clean_quote decisionClean⟩, ⟨clean_text_of _ (by decide), clean_intText signer⟩,
      fun f none => (nomatch none)⟩
  obtain ⟨written, canonical⟩ := canonicalJson_clean body
  have isVote : isDecision (.str decision) = true := by
    simpa [isDecision, IsApproveOrReject, Json.eq] using vote
  refine ⟨voteDs ++ asciiBytes "|" ++ written, ?_⟩
  rw [hash, voteSigningBytes, isVote]
  exact bind_eq_ok.mpr ⟨written, canonical, rfl⟩

/-! ## What the tally counts -/

theorem verifyRow_eq (bound : bindingOk config board p = true) {row : SignatureRow} (vote : isVote row) :
    verifyRow config board p row =
      if unaltered board p row && (config.registry.signature row.algId).isNone then .error .keyError
      else .ok (ownVote config board p row) := by
  obtain ⟨message, written⟩ := voteBytes_ok bound (isVote_iff.mp vote) row.signerId
  unfold verifyRow ownVote unaltered verifiesCarried
  cases pinnedToOwner board row with
  | false => simp
  | true =>
    by_cases same : row.signedPayloadHash = p.payloadHash
    · cases provider : config.registry.signature row.algId with
      | none => simp [same, written, bind, Except.bind, throw, throwThe, MonadExceptOf.throw]
      | some verify =>
        simp [same, written, provider, bind, Except.bind, pure, Except.pure, CryptoRegistry.verify]
    · simp [same]

theorem countRows_ok (bound : bindingOk config board p = true) {decision : Text} (vote : IsApproveOrReject decision)
    {n : Nat} : countRows config board p decision rows = .ok n ↔
      (∀ row ∈ rows, row.decision = decision → unaltered board p row = true →
        (config.registry.signature row.algId).isSome = true) ∧
      n = rows.countP fun row => row.decision == decision && ownVote config board p row := by
  induction rows generalizing n with
  | nil => simpa [countRows] using eq_comm
  | cons row rest ih =>
    rw [countRows]
    split
    · rename_i other
      rw [ih]
      simp [other]
    · rename_i same
      rw [not_not] at same
      have isVote : isVote row := isVote_iff.mpr (same ▸ vote)
      rw [verifyRow_eq bound isVote]
      split
      · rename_i missing
        simp only [Bool.and_eq_true, Option.isNone_iff_eq_none] at missing
        simp [bind, Except.bind, same, missing.1, missing.2]
      · rename_i provided
        have own : unaltered board p row = true → (config.registry.signature row.algId).isSome = true := by
          intro right
          by_contra none
          simp [right] at provided
          simp [provided] at none
        simp only [bind_eq_ok, Except.ok.injEq, pure_eq_ok, exists_eq_left', List.forall_mem_cons, same,
          forall_true_left]
        constructor
        · rintro ⟨others, counted, rfl⟩
          obtain ⟨later, rfl⟩ := ih.mp counted
          refine ⟨⟨own, later⟩, ?_⟩
          simp [List.countP_cons, same]
        · rintro ⟨⟨-, later⟩, rfl⟩
          refine ⟨_, ih.mpr ⟨later, rfl⟩, ?_⟩
          simp [List.countP_cons, same]

theorem tallyRows_ok (bound : bindingOk config board p = true) {approvals rejections : Nat} :
    tallyRows config board p rows = .ok (approvals, rejections) ↔
      countRows config board p "approve" rows = .ok approvals ∧
        countRows config board p "reject" rows = .ok rejections := by
  unfold tallyRows
  rw [bound, if_neg (by simp)]
  simp only [bind_eq_ok, pure_eq_ok, Prod.mk.injEq]
  constructor
  · rintro ⟨_, approved, _, rejected, rfl, rfl⟩
    exact ⟨approved, rejected⟩
  · rintro ⟨approved, rejected⟩
    exact ⟨_, approved, _, rejected, rfl, rfl⟩

-- On the rows that the application writes, it is the tally of a decision's row.
theorem ownVote_row (s : Signature) (backend : Text) (createdAt : Option Text) :
    ownVote config board p (s.row backend createdAt) = verifySignature config board p s := by
  unfold ownVote unaltered pinnedToOwner verifySignature verifiesCarried Signature.row
  cases board.keys[s.keyId]? with
  | none => rfl
  | some key =>
    by_cases same : s.signedPayloadHash = p.payloadHash
    · rw [same]
      cases voteSigningBytes p.payloadHash (.str s.decision.text) (.int s.signerId) <;> rfl
    · simp only [beq_eq_false_iff_ne.mpr same, Bool.and_false, Bool.false_and]

theorem tallyRows_written (bound : bindingOk config board p = true) (stored : board.signatureRows p.id = p.signatures)
    (provided : ∀ s ∈ p.signatures, (config.registry.signature s.algId).isSome = true) (backend : Text)
    (createdAt : Option Text) :
    tallyRows config board p (p.signatures.map fun s => s.row backend createdAt) = .ok (tally config board p) := by
  have counted (vote : Vote) : (p.signatures.map fun s => s.row backend createdAt).countP (fun row =>
      row.decision == vote.text && ownVote config board p row) = (verifiedVotes config board p vote).length := by
    rw [List.countP_map, List.countP_eq_length_filter, verifiedVotes, stored]
    congr 1
    apply List.filter_congr
    intro s _
    have text : (s.decision.text == vote.text) = decide (s.decision = vote) := by
      cases s.decision <;> cases vote <;> decide
    simp only [Function.comp, ownVote_row]
    rw [← text]
    rfl
  have providers : ∀ row ∈ p.signatures.map fun s => s.row backend createdAt,
      (config.registry.signature row.algId).isSome = true := by
    intro row listed
    obtain ⟨s, there, rfl⟩ := List.mem_map.mp listed
    exact provided s there
  rw [tally, bound, if_pos rfl, tallyRows_ok bound, countRows_ok bound (.inl rfl), countRows_ok bound (.inr rfl)]
  exact ⟨⟨fun row listed _ _ => providers row listed, (counted .approve).symm⟩,
    fun row listed _ _ => providers row listed, (counted .reject).symm⟩

/-! ## What the offline verifier counts -/

-- `approvals` and `rejections` of `_verify_into`, which comes to them before it reads the log
def countedOffline (tools : Tools) (fields : Fields) : Except Verify.Stop (Nat × Nat) := do
  let format ← readFormat fields
  let opened ← readBundle fields format
  let signers ← readSigners opened.decision
  let payloadHash ← recomputeHash tools opened.decision opened.action signers
  let read ← opened.signatures.mapM (readSignature tools payloadHash)
  let verified := read.filterMap id
  return (countVotes signers verified "approve", countVotes signers verified "reject")

theorem integralFields_cons {key : Text} {value : Json} {rest : Fields} (first : integralNumbers value = .ok value)
    (others : integralFields rest = .ok rest) : integralFields ((key, value) :: rest) = .ok ((key, value) :: rest) := by
  rw [integralFields]
  exact bind_eq_ok.mpr ⟨value, first, bind_eq_ok.mpr ⟨rest, others, rfl⟩⟩

theorem integralNumbers_optionText (t : Option Text) : integralNumbers (optionText t) = .ok (optionText t) := by
  cases t <;> rfl

theorem integralItems_ints (signers : List Int) :
    integralItems (signers.map .int) = .ok (signers.map .int) := by
  induction signers with
  | nil => rfl
  | cons signer rest ih => exact bind_eq_ok.mpr ⟨.int signer, rfl, bind_eq_ok.mpr ⟨_, ih, rfl⟩⟩

theorem integralNumbers_canonical (action : StoredAction) :
    integralNumbers action.canonical = .ok action.canonical := by
  have fields : ∀ fields, integralFields fields = .ok fields → integralNumbers (.dict fields) = .ok (.dict fields) := by
    intro fields same
    rw [integralNumbers, same]
    rfl
  apply fields
  repeat' first | apply integralFields_cons rfl | rfl

-- The decision of a bundle holds no number that is not an int.
theorem integralNumbers_exportDecision (p : Proposal) (vaultName : Option Text) :
    integralNumbers (.dict (exportDecision p vaultName)) = .ok (.dict (exportDecision p vaultName)) := by
  have signers : integralNumbers (.list (p.authorizedSigners.map .int)) = .ok (.list (p.authorizedSigners.map .int)) := by
    rw [integralNumbers, integralItems_ints]
    rfl
  have fields : integralFields (exportDecision p vaultName) = .ok (exportDecision p vaultName) := by
    unfold exportDecision
    simp only [List.cons_append, List.nil_append]
    refine integralFields_cons rfl (integralFields_cons rfl (integralFields_cons rfl (integralFields_cons
      (integralNumbers_optionText _) (integralFields_cons rfl (integralFields_cons (integralNumbers_optionText _)
      (integralFields_cons rfl (integralFields_cons rfl (integralFields_cons signers (integralFields_cons rfl
      (integralFields_cons rfl (integralFields_cons rfl (integralFields_cons rfl ?_))))))))))))
    cases p.action with
    | none => rfl
    | some action => exact integralFields_cons (integralNumbers_canonical action) rfl
  rw [integralNumbers, fields]
  rfl

def exportAction (p : Proposal) : Json := match p.action with
  | some action => action.canonical
  | none => .null

theorem readBundle_export (keys : List Key) :
    readBundle (exportBundle keys around p rows) (bundleFormatOf p) =
      .ok ⟨exportDecision p around.vaultName, exportAction p, rows.map (exportSignature keys around.people),
        around.log⟩ := by
  unfold readBundle
  refine bind_eq_ok.mpr ⟨.dict (exportDecision p around.vaultName), rfl, ?_⟩
  refine bind_eq_ok.mpr ⟨_, rfl, ?_⟩
  refine bind_eq_ok.mpr ⟨_, integralNumbers_exportDecision p around.vaultName, ?_⟩
  refine bind_eq_ok.mpr ⟨_, rfl, ?_⟩
  refine bind_eq_ok.mpr ⟨exportAction p, ?_, rfl⟩
  unfold checkAction exportAction bundleFormatOf exportDecision
  cases p.action with
  | none => rfl
  | some action => rfl

theorem readFormat_export (keys : List Key) :
    readFormat (exportBundle keys around p rows) = .ok (bundleFormatOf p) := by
  have known : bundleFormatOf p = bundleFormat ∨ bundleFormatOf p = paymentBundleFormat := by
    unfold bundleFormatOf
    split
    · exact .inr rfl
    · exact .inl rfl
  show (if bundleFormatOf p = bundleFormat ∨ bundleFormatOf p = paymentBundleFormat then _ else _) = _
  rw [if_pos known]

theorem readSigners_export (vaultName : Option Text) :
    readSigners (exportDecision p vaultName) = .ok (p.authorizedSigners.map .int) := by
  unfold readSigners
  refine bind_eq_ok.mpr ⟨.list (p.authorizedSigners.map .int), rfl, ?_⟩
  refine bind_eq_ok.mpr ⟨_, rfl, ?_⟩
  rw [if_pos]
  · rfl
  · simp [List.all_eq_true, Json.int?]

theorem recomputeHash_export (same : tools.sha256 = config.sha256) (bound : bindingOk config board p = true)
    (vaultName : Option Text) :
    recomputeHash tools (exportDecision p vaultName) (exportAction p) (p.authorizedSigners.map .int) =
      .ok p.payloadHash := by
  unfold bindingOk signingBytesFor at bound
  split at bound
  · cases bound
  · rename_i signed written
    simp only [Bool.and_eq_true, beq_iff_eq] at bound
    have fields : recomputeFields (exportDecision p vaultName) (exportAction p) (p.authorizedSigners.map .int) =
        .ok p.fields := rfl
    unfold recomputeHash
    refine bind_eq_ok.mpr ⟨p.fields, fields, ?_⟩
    rw [written]
    refine bind_eq_ok.mpr ⟨signed, rfl, ?_⟩
    rw [same, bound.1.1]
    rfl

def verifiedOf (people : Int → Option Person) (row : SignatureRow) : Verified where
  signerId := .int row.signerId
  decision := .str row.decision
  email := optionText ((people row.signerId).map (·.email))
  signature := row.signature
  publicKey := row.publicKey

theorem readSignature_export (same : tools.registry = config.registry) (bound : bindingOk config board p = true)
    (keys : List Key) (row : SignatureRow) :
    readSignature tools p.payloadHash (exportSignature keys around.people row) =
      .ok (if verifiesCarried config p row then some (verifiedOf around.people row) else none) := by
  unfold readSignature
  refine bind_eq_ok.mpr ⟨.int row.signerId, rfl, ?_⟩
  refine bind_eq_ok.mpr ⟨.str row.decision, rfl, ?_⟩
  refine bind_eq_ok.mpr ⟨.str row.algId, rfl, ?_⟩
  refine bind_eq_ok.mpr ⟨.str (b64encode row.publicKey), rfl, ?_⟩
  refine bind_eq_ok.mpr ⟨row.publicKey, by rw [readB64, b64decode_b64encode]; rfl, ?_⟩
  refine bind_eq_ok.mpr ⟨.str (b64encode row.signature), rfl, ?_⟩
  refine bind_eq_ok.mpr ⟨row.signature, by rw [readB64, b64decode_b64encode]; rfl, ?_⟩
  refine bind_eq_ok.mpr ⟨(config.registry.signature row.algId).isSome, by rw [same]; rfl, ?_⟩
  by_cases vote : isVote row
  · obtain ⟨message, written⟩ := voteBytes_ok bound (isVote_iff.mp vote) row.signerId
    unfold isVote at vote
    unfold verifiesCarried
    cases provider : config.registry.signature row.algId with
    | none => simp [written, CryptoRegistry.verify, provider, pure, Except.pure]
    | some verify =>
      rw [if_neg (by simp [vote]), written]
      refine bind_eq_ok.mpr ⟨message, rfl, ?_⟩
      refine bind_eq_ok.mpr ⟨optionText ((around.people row.signerId).map (·.email)), rfl, ?_⟩
      rw [same]
      rfl
  · unfold isVote at vote
    have unsigned : voteSigningBytes p.payloadHash (.str row.decision) (.int row.signerId) = .error .valueError := by
      simp [voteSigningBytes, vote, throw, throwThe, MonadExceptOf.throw]
    simp [vote, verifiesCarried, unsigned, pure, Except.pure]

theorem contains_ints (signers : List Int) (signer : Int) :
    contains (signers.map .int) (.int signer) = decide (signer ∈ signers) := by
  induction signers with
  | nil => rfl
  | cons first rest ih =>
    simp only [contains, List.map_cons, List.any_cons, List.mem_cons, Bool.decide_or] at ih ⊢
    rw [ih]
    congr 1

def byMember (p : Proposal) (row : SignatureRow) : Bool := decide (row.signerId ∈ p.authorizedSigners)

theorem countVotes_export (decision : Text) : countVotes (p.authorizedSigners.map .int)
    ((rows.map fun row => if verifiesCarried config p row then some (verifiedOf around.people row) else none).filterMap
      id) decision =
    rows.countP fun row => row.decision == decision && (byMember p row && verifiesCarried config p row) := by
  have counted (row : SignatureRow) : ((verifiedOf around.people row).decision.eq (.str decision) &&
      contains (p.authorizedSigners.map .int) (verifiedOf around.people row).signerId) =
        (row.decision == decision && byMember p row) := by
    rw [verifiedOf, contains_ints]
    rfl
  unfold countVotes
  induction rows with
  | nil => rfl
  | cons row rest ih =>
    rw [List.map_cons, List.countP_cons, ← ih]
    cases verified : verifiesCarried config p row with
    | false => simp
    | true =>
      simp only [if_true, List.filterMap_cons, id, List.filter_cons, counted, Bool.and_true]
      split <;> rfl

theorem countedOffline_export (sha256 : tools.sha256 = config.sha256) (registry : tools.registry = config.registry)
    (bound : bindingOk config board p = true) (keys : List Key) :
    countedOffline tools (exportBundle keys around p rows) =
      .ok (rows.countP fun row => row.decision == text "approve" && (byMember p row && verifiesCarried config p row),
        rows.countP fun row => row.decision == text "reject" && (byMember p row && verifiesCarried config p row)) := by
  have reads : (rows.map (exportSignature keys around.people)).mapM (readSignature tools p.payloadHash) =
      .ok (rows.map fun row => if verifiesCarried config p row then some (verifiedOf around.people row) else none) := by
    induction rows with
    | nil => rfl
    | cons row rest ih =>
      rw [List.map_cons, List.mapM_cons]
      exact bind_eq_ok.mpr ⟨_, readSignature_export registry bound keys row, bind_eq_ok.mpr ⟨_, ih, rfl⟩⟩
  unfold countedOffline
  refine bind_eq_ok.mpr ⟨_, readFormat_export keys, ?_⟩
  refine bind_eq_ok.mpr ⟨_, readBundle_export keys, ?_⟩
  refine bind_eq_ok.mpr ⟨_, readSigners_export around.vaultName, ?_⟩
  refine bind_eq_ok.mpr ⟨_, recomputeHash_export sha256 bound around.vaultName, ?_⟩
  refine bind_eq_ok.mpr ⟨_, reads, ?_⟩
  rw [pure_eq_ok, countVotes_export, countVotes_export]

/-! ## Consent -/

-- A row with a signature of its signer's own: under a key registered for them, over the decision
structure OwnVote (config : VoteConfig) (board : Board) (p : Proposal) (row : SignatureRow) : Prop where
  key : ∃ key, board.keys[row.keyId]? = some key ∧ key.ownerId = some row.signerId ∧
    row.publicKey = key.publicKey ∧ row.algId = key.algId
  hash : row.signedPayloadHash = p.payloadHash
  signed : ∃ message verify, voteSigningBytes p.payloadHash (.str row.decision) (.int row.signerId) = .ok message ∧
    config.registry.signature row.algId = some verify ∧ verify row.publicKey message row.signature = true

theorem unaltered_iff {row : SignatureRow} : unaltered board p row = true ↔
    (∃ key, board.keys[row.keyId]? = some key ∧ key.ownerId = some row.signerId ∧
      row.publicKey = key.publicKey ∧ row.algId = key.algId) ∧ row.signedPayloadHash = p.payloadHash := by
  unfold unaltered pinnedToOwner
  cases found : board.keys[row.keyId]? with
  | none => simp
  | some key => simp [and_assoc]

theorem verifiesCarried_iff {row : SignatureRow} : verifiesCarried config p row = true ↔
    ∃ message verify, voteSigningBytes p.payloadHash (.str row.decision) (.int row.signerId) = .ok message ∧
      config.registry.signature row.algId = some verify ∧ verify row.publicKey message row.signature = true := by
  unfold verifiesCarried
  cases written : voteSigningBytes p.payloadHash (.str row.decision) (.int row.signerId) with
  | error e => simp
  | ok message =>
    cases provider : config.registry.signature row.algId <;> simp [CryptoRegistry.verify, provider]

theorem ownVote_iff {row : SignatureRow} : ownVote config board p row = true ↔ OwnVote config board p row := by
  unfold ownVote
  rw [Bool.and_eq_true, unaltered_iff, verifiesCarried_iff]
  constructor
  · rintro ⟨⟨key, hash⟩, signed⟩
    exact ⟨key, hash, signed⟩
  · rintro ⟨key, hash, signed⟩
    exact ⟨⟨key, hash⟩, signed⟩

open Classical in
-- The members of the frozen snapshot who have a row of their own with that decision
noncomputable def consenting (config : VoteConfig) (board : Board) (p : Proposal) (rows : List SignatureRow)
    (decision : Text) : Nat :=
  (p.authorizedSigners.toFinset.filter fun member =>
    ∃ row ∈ rows, row.signerId = member ∧ row.decision = decision ∧ OwnVote config board p row).card

theorem consenting_eq (unique : (rows.map (·.signerId)).Nodup) (decision : Text) :
    consenting config board p rows decision =
      rows.countP fun row => row.decision == decision && (byMember p row && ownVote config board p row) := by
  classical
  rw [List.countP_eq_length_filter]
  generalize counted : rows.filter _ = own
  have ids : (own.map (·.signerId)).Nodup := by
    rw [← counted]
    exact unique.sublist (List.filter_sublist.map _)
  rw [← List.length_map (f := (·.signerId)), ← List.toFinset_card_of_nodup ids, consenting]
  congr 1
  ext member
  rw [Finset.mem_filter, List.mem_toFinset, List.mem_toFinset, List.mem_map, ← counted]
  simp only [List.mem_filter, Bool.and_eq_true, beq_iff_eq, byMember, decide_eq_true_eq, ownVote_iff]
  constructor
  · rintro ⟨listed, row, there, rfl, same, own⟩
    exact ⟨row, ⟨there, same, listed, own⟩, rfl⟩
  · rintro ⟨row, ⟨there, same, listed, own⟩, rfl⟩
    exact ⟨listed, row, there, rfl, same, own⟩

theorem countP_eq_iff {α : Type} {wide narrow : α → Bool} {xs : List α}
    (within : ∀ x ∈ xs, narrow x = true → wide x = true) :
    xs.countP wide = xs.countP narrow ↔ ∀ x ∈ xs, wide x = true → narrow x = true := by
  induction xs with
  | nil => simp
  | cons x rest ih =>
    have here := within x List.mem_cons_self
    have later := ih fun y listed => within y (List.mem_cons_of_mem _ listed)
    have most : rest.countP narrow ≤ rest.countP wide :=
      List.countP_mono_left fun y listed => within y (List.mem_cons_of_mem _ listed)
    rw [List.countP_cons, List.countP_cons, List.forall_mem_cons, ← later]
    cases isWide : wide x with
    | false =>
      cases isNarrow : narrow x with
      | false => simp
      | true => simp [here isNarrow] at isWide
    | true =>
      cases isNarrow : narrow x with
      | false =>
        apply iff_of_false
        · simp only [if_true, Bool.false_eq_true, if_false]
          omega
        · exact fun all => nomatch all.1 rfl
      | true => simp

-- The tally and the offline verifier both count exactly the members' own votes.
structure CountsConsent (config : VoteConfig) (tools : Tools) (board : Board) (around : Surrounding) (p : Proposal)
    (rows : List SignatureRow) : Prop where
  tally : tallyRows config board p rows =
    .ok (consenting config board p rows "approve", consenting config board p rows "reject")
  offline : countedOffline tools (exportBundle board.keys around p rows) =
    .ok (consenting config board p rows "approve", consenting config board p rows "reject")

-- Own votes are by members, whatever verifies in a member's name is their own vote, and its algorithm
-- has a provider.
structure OnlyConsent (config : VoteConfig) (board : Board) (p : Proposal) (rows : List SignatureRow) : Prop where
  members : ∀ row ∈ rows, isVote row → OwnVote config board p row → row.signerId ∈ p.authorizedSigners
  own : ∀ row ∈ rows, isVote row → row.signerId ∈ p.authorizedSigners → verifiesCarried config p row = true →
    unaltered board p row = true
  provided : ∀ row ∈ rows, isVote row → unaltered board p row = true →
    (config.registry.signature row.algId).isSome = true

-- Where the tally ends at all, it counts the own votes of members and of everybody else.
theorem countRows_consenting (bound : bindingOk config board p = true) (unique : (rows.map (·.signerId)).Nodup)
    {decision : Text} (vote : IsApproveOrReject decision) :
    countRows config board p decision rows = .ok (consenting config board p rows decision) ↔
      (∀ row ∈ rows, row.decision = decision → unaltered board p row = true →
        (config.registry.signature row.algId).isSome = true) ∧
      ∀ row ∈ rows, row.decision = decision → OwnVote config board p row → row.signerId ∈ p.authorizedSigners := by
  rw [countRows_ok bound vote, consenting_eq unique, eq_comm, countP_eq_iff]
  · simp only [Bool.and_eq_true, beq_iff_eq, byMember, decide_eq_true_eq, ownVote_iff]
    constructor
    · rintro ⟨provided, members⟩
      exact ⟨provided, fun row there same own => (members row there ⟨same, own⟩).2.1⟩
    · rintro ⟨provided, members⟩
      exact ⟨provided, fun row there ⟨same, own⟩ => ⟨same, members row there same own, own⟩⟩
  · intro row _ counted
    simp only [Bool.and_eq_true] at counted ⊢
    exact ⟨counted.1, counted.2.2⟩

theorem offline_consenting (unique : (rows.map (·.signerId)).Nodup) (decision : Text) :
    (rows.countP fun row => row.decision == decision && (byMember p row && verifiesCarried config p row)) =
        consenting config board p rows decision ↔
      ∀ row ∈ rows, row.decision = decision → row.signerId ∈ p.authorizedSigners → verifiesCarried config p row = true →
        unaltered board p row = true := by
  rw [consenting_eq unique, countP_eq_iff]
  · simp only [Bool.and_eq_true, beq_iff_eq, byMember, decide_eq_true_eq, ownVote]
    constructor
    · intro own row there same member verifies
      exact (own row there ⟨same, member, verifies⟩).2.2.1
    · rintro own row there ⟨same, member, verifies⟩
      exact ⟨same, member, own row there same member verifies, verifies⟩
  · intro row _ counted
    simp only [Bool.and_eq_true, ownVote] at counted ⊢
    exact ⟨counted.1, counted.2.1, counted.2.2.2⟩

theorem forall_votes {holds : SignatureRow → Prop} : (∀ row ∈ rows, isVote row → holds row) ↔
    (∀ row ∈ rows, row.decision = text "approve" → holds row) ∧
      ∀ row ∈ rows, row.decision = text "reject" → holds row := by
  simp only [isVote_iff, IsApproveOrReject]
  constructor
  · intro all
    exact ⟨fun row there same => all row there (.inl same), fun row there same => all row there (.inr same)⟩
  · rintro ⟨approvals, rejections⟩ row there (same | same)
    · exact approvals row there same
    · exact rejections row there same

theorem counts_consent_iff (config : VoteConfig) (tools : Tools) (board : Board) (around : Surrounding) (p : Proposal)
    (rows : List SignatureRow) (sha256 : tools.sha256 = config.sha256) (registry : tools.registry = config.registry)
    (unique : (rows.map (·.signerId)).Nodup) (bound : bindingOk config board p = true) :
    CountsConsent config tools board around p rows ↔ OnlyConsent config board p rows := by
  have counted : CountsConsent config tools board around p rows ↔
      ((countRows config board p "approve" rows = .ok (consenting config board p rows "approve") ∧
        countRows config board p "reject" rows = .ok (consenting config board p rows "reject")) ∧
      ((∀ row ∈ rows, row.decision = text "approve" → row.signerId ∈ p.authorizedSigners →
        verifiesCarried config p row = true → unaltered board p row = true) ∧
       ∀ row ∈ rows, row.decision = text "reject" → row.signerId ∈ p.authorizedSigners →
        verifiesCarried config p row = true → unaltered board p row = true)) := by
    rw [← tallyRows_ok bound, ← offline_consenting unique, ← offline_consenting unique]
    constructor
    · rintro ⟨tally, offline⟩
      rw [countedOffline_export sha256 registry bound, Except.ok.injEq, Prod.mk.injEq] at offline
      exact ⟨tally, offline⟩
    · rintro ⟨tally, approvals, rejections⟩
      refine ⟨tally, ?_⟩
      rw [countedOffline_export sha256 registry bound, approvals, rejections]
  rw [counted, countRows_consenting bound unique (.inl rfl), countRows_consenting bound unique (.inr rfl)]
  constructor
  · rintro ⟨⟨⟨provided, members⟩, provided', members'⟩, own, own'⟩
    exact ⟨forall_votes.mpr ⟨members, members'⟩, forall_votes.mpr ⟨own, own'⟩, forall_votes.mpr ⟨provided, provided'⟩⟩
  · rintro ⟨members, own, provided⟩
    obtain ⟨members, members'⟩ := forall_votes.mp members
    obtain ⟨own, own'⟩ := forall_votes.mp own
    obtain ⟨provided, provided'⟩ := forall_votes.mp provided
    exact ⟨⟨⟨provided, members⟩, provided', members'⟩, own, own'⟩

end Consent

section Sample

-- A fourth user has a signing key and is no approver of the vault.
def rentBoard : Board :=
  boardAfter voteConfig (threeApprovers true) (rentRaised ++ [.addKey (approverKey 4)])

def rentDecision : Proposal :=
  { rentDraft.proposal (threeApprovers true) 0 "Pay the rent" with payloadHash := rentHash }

-- An approval signed with the user's own registered key
def approvalRow (userId : Nat) : SignatureRow where
  signerId := userId
  keyId := userId - 1
  algId := "ML-DSA-65"
  backend := "dilithium"
  publicKey := [UInt8.ofNat userId]
  decision := "approve"
  signature := match voteSigningBytes rentHash (.str "approve") (.int userId) with
    | .ok message => voteHash (UInt8.ofNat userId :: message)
    | .error _ => []
  signedPayloadHash := rentHash
  reason := none
  createdAt := none

def rentTools : Tools := ⟨voteConfig.sha256, voteHash, voteConfig.registry⟩

def rentAround : Surrounding := ⟨none, fun _ => none, "2026-10-02T09:00:00+00:00", "log.example", .null, []⟩

set_option maxRecDepth 20000 in
theorem rent_bound : bindingOk voteConfig rentBoard rentDecision = true := by decide

set_option maxRecDepth 20000 in
theorem counts_consent_iff_approver :
    CountsConsent voteConfig rentTools rentBoard rentAround rentDecision [approvalRow 2] := by
  apply (counts_consent_iff voteConfig rentTools rentBoard rentAround rentDecision [approvalRow 2] rfl rfl
    (by decide) rent_bound).mpr
  refine ⟨?_, ?_, ?_⟩
  · intro row there _ _
    rw [List.mem_singleton.mp there]
    decide
  · intro row there _ _ _
    rw [List.mem_singleton.mp there]
    decide
  · intro row there _ _
    rw [List.mem_singleton.mp there]
    decide

-- A row of the fourth user's, written into the table, is counted.
set_option maxRecDepth 20000 in
theorem outsider_counted : bindingOk voteConfig rentBoard rentDecision = true ∧
    tallyRows voteConfig rentBoard rentDecision [approvalRow 4] = .ok (1, 0) ∧
    consenting voteConfig rentBoard rentDecision [approvalRow 4] "approve" = 0 := by
  refine ⟨rent_bound, ?_, ?_⟩
  · rw [tallyRows_ok rent_bound, countRows_ok rent_bound (.inl rfl), countRows_ok rent_bound (.inr rfl)]
    decide
  · rw [consenting_eq (by decide)]
    decide

end Sample

end QVault.Proof.Services
