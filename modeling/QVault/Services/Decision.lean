import QVault.Services.Ledger
import QVault.Services.Signing

/-!
# Decisions, their votes, and who may cast them

The rows of `qvault/models` that voting reads: vaults with their members and rules, memberships of
workspaces, signing keys, proposals and signatures. A row's id is its position in its table.
-/

namespace QVault.Services
open Python Crypto

inductive MemberRole
  | owner | signer | viewer
  deriving DecidableEq

-- `SIGNER_ROLES`
def MemberRole.signs : MemberRole → Bool
  | .owner | .signer => true
  | .viewer => false

structure VaultMember where
  userId : Int
  role : MemberRole

-- A vault with its policy and its rule. `create_vault` and `set_threshold` refuse a threshold below 1.
structure Vault where
  members : List VaultMember
  distinct : (members.map (·.userId)).Nodup
  thresholdM : Int
  positive : 1 ≤ thresholdM
  requesterCanApprove : Option Bool
  homeWorkspaceId : Option Int

def Vault.memberFor (vault : Vault) (userId : Int) : Option VaultMember :=
  vault.members.find? fun m => m.userId = userId

def Vault.signerMembers (vault : Vault) : List VaultMember := vault.members.filter fun m => m.role.signs

def Vault.signerIds (vault : Vault) : List Int :=
  (vault.signerMembers.map (·.userId)).insertionSort (· ≤ ·)

inductive WorkspaceRole
  | owner | admin | member | auditor
  deriving DecidableEq

structure WorkspaceMember where
  role : WorkspaceRole
  active : Bool

-- What other parts of the application change while decisions are open. `membership` is by
-- workspace and user, and `anyWorkspace` says whether there is a workspace at all.
structure Directory where
  vault : Int → Vault
  membership : Int → Int → Option WorkspaceMember
  anyWorkspace : Bool

inductive KeyStatus
  | active | retired
  deriving DecidableEq

inductive WrapDomain
  | password | device | lost | master
  deriving DecidableEq

structure Key where
  ownerId : Option Int
  signing : Bool
  algId : Text
  publicKey : Bytes
  wrapDomain : WrapDomain
  status : KeyStatus
  canSign : Bool
  deriving DecidableEq

inductive Vote
  | approve | reject
  deriving DecidableEq

def Vote.text : Vote → Text
  | .approve => "approve"
  | .reject => "reject"

structure Signature where
  signerId : Int
  keyId : Nat
  algId : Text
  publicKey : Bytes
  decision : Vote
  signature : Bytes
  signedPayloadHash : Text
  reason : Option Text
  deriving DecidableEq

inductive Status
  | «open» | approved | rejected | expired | withdrawn
  deriving DecidableEq

def Status.text : Status → Text
  | .open => "open"
  | .approved => "approved"
  | .rejected => "rejected"
  | .expired => "expired"
  | .withdrawn => "withdrawn"

-- The payment of a payment decision, and the address and chain of the treasury its row points at.
structure StoredAction where
  kind : Text
  chainId : Int
  treasuryAddress : Text
  toAddress : Text
  valueWei : Text
  dataHex : Text
  callGas : Int
  validUntil : Int
  configNonce : Int
  treasury : Option (Text × Int)

def StoredAction.canonical (action : StoredAction) : Json :=
  .dict [("kind", .str action.kind), ("chain_id", .int action.chainId),
    ("treasury", .str action.treasuryAddress), ("to", .str action.toAddress),
    ("value_wei", .str action.valueWei), ("data", .str action.dataHex), ("call_gas", .int action.callGas),
    ("valid_until", .int action.validUntil), ("config_nonce", .int action.configNonce)]

structure Proposal where
  id : Nat
  proposalUuid : Text
  vaultId : Int
  creatorId : Int
  title : Text
  actionText : Text
  fileSha256 : Option Text
  action : Option StoredAction
  nonce : Bytes
  createdAtIso : Text
  authorizedSigners : List Int
  payloadHash : Text
  requiredM : Int
  requiredN : Int
  expiresAt : Option Int
  requesterCanApprove : Option Bool
  status : Status
  signatures : List Signature

def Proposal.votes (proposal : Proposal) (vote : Vote) : List Signature :=
  proposal.signatures.filter fun s => s.decision = vote

-- `vote_of`
def Proposal.hasVoted (proposal : Proposal) (userId : Int) : Bool :=
  proposal.signatures.any fun s => s.signerId = userId

-- the arguments `signing_bytes_for` gives to `proposal_signing_bytes`
def Proposal.fields (proposal : Proposal) : ProposalFields where
  vaultId := .int proposal.vaultId
  proposalUuid := .str proposal.proposalUuid
  actionText := .str proposal.actionText
  fileSha256 := optionText proposal.fileSha256
  requiredM := .int proposal.requiredM
  requiredN := .int proposal.requiredN
  authorizedSigners := proposal.authorizedSigners.map .int
  nonceHex := .str (hexText proposal.nonce)
  createdAtIso := .str proposal.createdAtIso
  action := match proposal.action with
    | some action => action.canonical
    | none => .null

def signingBytesFor (proposal : Proposal) : Except PyError Bytes := proposalSigningBytes proposal.fields

end QVault.Services
