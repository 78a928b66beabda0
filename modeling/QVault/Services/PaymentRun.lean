import QVault.Services.Execution

/-!
# Payments, keys and time while decisions are open

The steps of `ApprovalRun`, with the clock, the signing keys and the treasuries that a vote's gate
and its write each read for themselves.
-/

namespace QVault.Services
open Python Crypto Chain

-- A request under way, and the treasury its session has loaded
structure Request where
  pending : Pending
  treasury : Option TreasuryRecord

structure Desk where
  books : Books
  requests : List Request
  now : Int

def Desk.start (directory : Directory) (now : Int) : Desk := ⟨⟨(Office.start directory).board, [], []⟩, [], now⟩

def Clock.at (clock : Clock) (instant : Int) : Clock := { clock with instant }

-- Steps of the office that neither open nor answer a request, and touch no key and no payment
inductive PlainEvent
  | createProposal (draft : Draft) (unpaid : draft.content.action = none) (clock : Clock)
  | refreshExpiry (proposalId : Nat) (clock : Clock)
  | finalizeStalled (clock : Clock)
  | directory (directory : Directory)
  | append (other : OtherEvent) (timestamp : Text)

def PlainEvent.board (now : Int) : PlainEvent → BoardEvent
  | .createProposal draft _ clock => .createProposal draft (clock.at now)
  | .refreshExpiry proposalId clock => .refreshExpiry proposalId (clock.at now)
  | .finalizeStalled clock => .finalizeStalled (clock.at now)
  | .directory changed => .directory changed
  | .append other timestamp => .append other timestamp

-- A key as it is stored first: `can_sign` is true of every signing key and false of the others.
structure NewKey where
  ownerId : Option Int
  signing : Bool
  algId : Text
  publicKey : Bytes
  wrapDomain : WrapDomain

def NewKey.key (new : NewKey) : Key where
  ownerId := new.ownerId
  signing := new.signing
  algId := new.algId
  publicKey := new.publicKey
  wrapDomain := new.wrapDomain
  status := .active
  canSign := new.signing

-- Rotation and revocation; a recovery also loses the private half.
def Key.retire (key : Key) (lost : Bool) : Key :=
  { key with status := .retired, canSign := false, wrapDomain := if lost then .lost else key.wrapDomain }

inductive DeskEvent
  | plain (event : PlainEvent)
  | raisePayment (draft : Draft) (submitted : Text) (payment : PaymentRequest) (clock : Clock)
  | openCast (ballot : Ballot) (onchain : Option Int) (clock : Clock)
  | recordVote (request : Nat) (signature executionSignature : Bytes) (clock : Clock)
  | openWithdrawal (proposalId : Nat) (actorId : Int) (clock : Clock)
  | writeWithdrawal (request : Nat) (clock : Clock)
  | addKey (key : NewKey)
  | retireKey (keyId : Nat) (lost : Bool)
  | tick (elapsed : Nat)
  | link (vaultId chainId : Int) (address : Text) (signers : List TreasurySigner)
  | unlink (treasury : Nat)
  | requestReconfiguration (treasury : Nat)
  | endReconfiguration (treasury : Nat)
  | applyReconfiguration (treasury : Nat) (thresholdM : Int) (signers : List TreasurySigner)

namespace Desk
variable (config : PaymentConfig) (desk : Desk)

def withBoard (board : Board) : Desk := { desk with books := { desk.books with board } }

def commit {ε : Type} (desk : Desk) (result : Except ε Books) : Desk :=
  match result with
  | .ok books => { desk with books }
  | .error _ => desk

def drop (request : Nat) : Desk := { desk with requests := desk.requests.eraseIdx request }

def hold (request : Request) : Desk := { desk with requests := desk.requests ++ [request] }

def changeTreasury (treasury : Nat) (change : TreasuryRecord → TreasuryRecord) : Desk :=
  { desk with books := { desk.books with treasuries := desk.books.treasuries.modify treasury change } }

-- The treasury an approval of this decision's payment loads
def loads (proposal : Proposal) : Option TreasuryRecord := proposal.action.bind (treasuryOf desk.books.treasuries)

-- What `_payment_digest` answers to this ballot
def ballotDigest (ballot : Ballot) (onchain : Option Int) : Except Text Bytes :=
  match desk.books.board.proposals[ballot.proposalId]?,
      votingKey config.toVoteConfig desk.books.board.keys ballot.signerId ballot.custody with
  | some proposal, .ok (keyId, key) =>
    match proposal.action with
    | some action => paymentDigest config desk.books proposal action ballot.signerId keyId key onchain
    | none => .error []
  | _, _ => .error []

-- Whether the record of a new treasury can be stored: `drift` finds nothing changed since its keys
-- were chosen, and the constraints on treasuries hold.
def linkable (vaultId chainId : Int) (address : Text) (signers : List TreasurySigner) : Bool :=
  let vault := desk.books.board.directory.vault vaultId
  (signers.map (·.userId) == vault.signerIds) &&
    (signers.all fun s => desk.books.board.keys[s.keyId]?.any fun key =>
      key.ownerId = some s.userId && key.algId = treasuryAlgorithm && key.status = .active && key.canSign) &&
    (desk.books.treasuries.all fun t => (t.address, t.chainId) != (address, chainId)) &&
    (linkedTreasury desk.books.treasuries vaultId).isNone

end Desk

-- the record of a treasury that has just been linked
def newTreasury (vaultId chainId thresholdM : Int) (address : Text) (signers : List TreasurySigner)
    (distinct : (signers.map (·.userId)).Nodup) : TreasuryRecord where
  vaultId
  chainId
  address
  thresholdM
  configNonce := 0
  signers
  distinct
  linked := true
  reconfiguring := false

-- `_apply` of a reconfiguration
def reconfigured (thresholdM : Int) (signers : List TreasurySigner) (distinct : (signers.map (·.userId)).Nodup)
    (treasury : TreasuryRecord) : TreasuryRecord :=
  if treasury.linked && treasury.reconfiguring then
    { treasury with thresholdM, signers, distinct, configNonce := treasury.configNonce + 1, reconfiguring := false }
  else treasury

def deskStep (config : PaymentConfig) (desk : Desk) : DeskEvent → Desk
  | .plain event =>
    desk.withBoard (boardStep config.toVoteConfig ⟨desk.books.board, []⟩ (event.board desk.now)).board
  | .raisePayment draft submitted payment clock =>
    match paymentAction config desk.books draft submitted payment desk.now with
    | .error _ => desk
    | .ok (action, deadline) =>
      let draft := { draft with content := .payment action, deadline := some deadline }
      match createProposal config.toVoteConfig desk.books.board draft (clock.at desk.now) with
      | .error _ => desk
      | .ok board => desk.withBoard board
  | .openCast ballot onchain clock =>
    match openCast config.toVoteConfig desk.books.board ballot (desk.ballotDigest config ballot onchain)
        (clock.at desk.now) with
    | .error _ => desk
    | .ok (board, .error _) => desk.withBoard board
    | .ok (board, .ok cast) => (desk.withBoard board).hold ⟨.vote cast, desk.loads cast.proposal⟩
  | .recordVote request signature executionSignature clock =>
    match desk.requests[request]? with
    | some ⟨.vote cast, treasury⟩ =>
      (desk.drop request).commit
        (writeVote config desk.books cast treasury signature executionSignature (clock.at desk.now))
    | _ => desk
  | .openWithdrawal proposalId actorId clock =>
    match desk.books.board.proposals[proposalId]? with
    | none => desk
    | some proposal =>
      match openWithdrawal config.toVoteConfig desk.books.board proposal actorId (clock.at desk.now) with
      | .error _ => desk
      | .ok (board, some _) => desk.withBoard board
      | .ok (board, none) => (desk.withBoard board).hold ⟨.withdrawal proposal actorId, none⟩
  | .writeWithdrawal request clock =>
    match desk.requests[request]? with
    | some ⟨.withdrawal proposal actorId, _⟩ =>
      match writeWithdrawal config.toVoteConfig desk.books.board proposal actorId (clock.at desk.now) with
      | .error _ => desk.drop request
      | .ok board => (desk.drop request).withBoard board
    | _ => desk
  | .addKey new => desk.withBoard { desk.books.board with keys := desk.books.board.keys ++ [new.key] }
  | .retireKey keyId lost =>
    desk.withBoard { desk.books.board with keys := desk.books.board.keys.modify keyId (·.retire lost) }
  | .tick elapsed => { desk with now := desk.now + elapsed }
  | .link vaultId chainId address signers =>
    if distinct : (signers.map (·.userId)).Nodup then
      if desk.linkable vaultId chainId address signers then
        let thresholdM := (desk.books.board.directory.vault vaultId).thresholdM
        { desk with books := { desk.books with treasuries :=
            desk.books.treasuries ++ [newTreasury vaultId chainId thresholdM address signers distinct] } }
      else desk
    else desk
  | .unlink treasury => desk.changeTreasury treasury fun t => { t with linked := false }
  | .requestReconfiguration treasury =>
    desk.changeTreasury treasury fun t => if t.linked then { t with reconfiguring := true } else t
  | .endReconfiguration treasury => desk.changeTreasury treasury fun t => { t with reconfiguring := false }
  | .applyReconfiguration treasury thresholdM signers =>
    if distinct : (signers.map (·.userId)).Nodup then
      desk.changeTreasury treasury (reconfigured thresholdM signers distinct)
    else desk

end QVault.Services
