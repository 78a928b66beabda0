import QVault.Proof.Services.Outlook
import QVault.Proof.Services.Pairing
import QVault.Proof.Chain.Deployments
import QVault.Proof.Chain.KeyExpansion
import QVault.Proof.Attack.Shor
import QVault.Proof.Services.DeploymentSearch
import QVault.Proof.Merkle.Walk
import QVault.Lib.FreeHash
import QVault.Proof.Merkle.Inclusion
import QVault.Proof.Merkle.Consistency
import QVault.Lib.Binary64
import QVault.Python.Text
import QVault.Python.Json
import QVault.Python.Loads
import QVault.Crypto
import QVault.Lib.Runs
import QVault.Lib.Transactions
import QVault.Proof.Services.Recovery.LifecycleRun
import QVault.Proof.Services.Recovery.VouchingRun
import QVault.Proof.Services.Recovery.PhoneRoute
import QVault.Proof.Services.Recovery.CoolDown
import QVault.Proof.Services.Recovery.Identities
import QVault.Lib.Sessions
import QVault.Transparency.Statement
import QVault.Witness.App
import QVault.Proof.Witness.Store
import QVault.Proof.Witness.Influence
import QVault.Proof.Witness.Concurrency
import QVault.Services.Checkpoint
import QVault.Services.LogRun
import QVault.Services.LeafCache
import QVault.Proof.Services.LeafCache
import QVault.Services.Anchors
import QVault.Proof.Python.Text
import QVault.Proof.Services.Leaves
import QVault.Proof.Services.SignedLog
import QVault.Proof.Services.DecisionLifecycle
import QVault.Proof.Services.Binding
import QVault.Proof.Services.VoteOutcome
import QVault.Proof.Services.Inbox
import QVault.Services.Decision
import QVault.Services.Eligibility
import QVault.Services.Approval
import QVault.Services.ApprovalRun
import QVault.Proof.Services.Decisions
import QVault.Proof.Services.DecisionRun
import QVault.Verify.Checked
import QVault.Verify.Execution
import QVault.Verify.Core
import QVault.Proof.Verify.Passes
import QVault.Verify.Approved
import QVault.Proof.Verify.Entries
import QVault.Proof.Verify.Soundness
import QVault.Chain.Evm
import QVault.Chain.Treasury
import QVault.Chain.TreasuryRun
import QVault.Proof.Chain.Signers
import QVault.Proof.Chain.TreasuryRun
import QVault.Proof.Chain.Abi
import QVault.Proof.Chain.TreasurySafety
import QVault.Chain.Relayer
import QVault.Chain.RelayerRun
import QVault.Proof.Chain.Relayer
import QVault.Proof.Chain.RelayerMethods
import QVault.Proof.Chain.RelayerSafety
import QVault.Proof.Services.Consent
import QVault.Chain.Action
import QVault.Services.Execution
import QVault.Services.PaymentRun
import QVault.Proof.Services.Requests
import QVault.Proof.Services.Authority
import QVault.Proof.Services.Timeliness
import QVault.Lib.PrefixCode
import QVault.Proof.Python.Canonical
import QVault.Proof.Python.Loads
import QVault.Proof.Services.Statements
import QVault.Proof.Services.LedgerHistory
import QVault.Proof.Services.Anchors
import QVault.Lib.Groups
import QVault.Lib.OrderedDict
import QVault.Security.RateLimit
import QVault.Proof.Security.RateLimit
import QVault.Services.Workspace
import QVault.Services.VaultPeople
import QVault.Proof.Services.Workspace
import QVault.Proof.Services.VaultPeople
import QVault.Proof.Services.VaultSigners
import QVault.Services.NeedsYou
import QVault.Proof.Services.NeedsYou
import QVault.Mobile.Script
import QVault.Mobile.Canonical
import QVault.Mobile.Signing
import QVault.Services.Answers
import QVault.Proof.Mobile.Canonical
import QVault.Proof.Mobile.Consequence
import QVault.Proof.Mobile.Signing
import QVault.Chain.Digest
import QVault.Mobile.Execution
import QVault.Proof.Chain.Digests
import QVault.Proof.Mobile.Execution
import QVault.Services.Inbox
import QVault.Mobile.Consequence
import QVault.Mobile.Detail
import QVault.Mobile.Checks
import QVault.Mobile.SigningSheet
import QVault.Proof.Mobile.SignedContent
import QVault.Proof.Mobile.SigningSheet
import QVault.Chain.SignedAction
import QVault.Proof.Chain.SignedAction
import QVault.Mobile.Amount
import QVault.Static.Verifier
import QVault.Proof.Python.Binary64
import QVault.Proof.Static.Amounts
import QVault.Lib.Crc
import QVault.Crypto.KitCode
import QVault.Static.Recover
import QVault.Proof.Crypto.KitCode
import QVault.Services.Recovery.Alarm
import QVault.Proof.Services.Recovery.Alarm
import QVault.Lib.Alone
import QVault.Services.Recovery.Watchers
import QVault.Proof.Services.Recovery.Watchers
import QVault.Services.DecisionTypes
import QVault.Proof.Services.DecisionTypes
import QVault.Proof.Services.DecisionText
import QVault.Proof.Services.Mentions
import QVault.Proof.Services.Deliveries
import QVault.Proof.Services.FileCrypto
import QVault.Proof.Services.Reminders
