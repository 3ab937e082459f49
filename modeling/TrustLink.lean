import TrustLink.Lib.Tx
import TrustLink.Lib.Checked
import TrustLink.Lib.Runs
import TrustLink.Lib.Sums
import TrustLink.Lib.Positions
import TrustLink.Lib.Rows
import TrustLink.Types
import TrustLink.State
import TrustLink.Storage
import TrustLink.Payout
import TrustLink.Internal
import TrustLink.Instructions
import TrustLink.Disputes
import TrustLink.Admin
import TrustLink.Calls
import TrustLink.Settings
import TrustLink.Moves
import TrustLink.Effects
import TrustLink.Creation
import TrustLink.Refinement
import TrustLink.Slots
import TrustLink.Invariants
import TrustLink.Replay
import TrustLink.Records
import TrustLink.Timing
import TrustLink.Expiry
import TrustLink.Parties
import TrustLink.History
import TrustLink.Voting
import TrustLink.Rounds
import TrustLink.Custody
import TrustLink.Restitution
import TrustLink.Ledger
import TrustLink.Split
import TrustLink.Fees
import TrustLink.Ids
import TrustLink.Multicall
import TrustLink.Allowlist
import TrustLink.Reentrancy
import TrustLink.Finalization
import TrustLink.Exits
import TrustLink.Stranded
import TrustLink.Admission
import TrustLink.Arithmetic
import TrustLink.Pause
import TrustLink.Governance
import TrustLink.Migration
import TrustLink.Timelock
import TrustLink.Bypass
import TrustLink.Roles
import TrustLink.Counters
import TrustLink.Isolation
import TrustLink.Wire
import TrustLink.Indexer
import TrustLink.Delivery
import TrustLink.Reingest
import TrustLink.Journal
import TrustLink.Derived
import TrustLink.Notices
import TrustLink.Lib.Pages
import TrustLink.Enrolment
import TrustLink.VendorIndex
import TrustLink.Writes
import TrustLink.Mirror
import TrustLink.ConfigMirror
import TrustLink.Lib.Frames
import TrustLink.AddressIndex
import TrustLink.BuyerIndex
import TrustLink.Messages
import TrustLink.Funding
import TrustLink.DirectCalls
import TrustLink.BatchCreation
import TrustLink.Distribution
import TrustLink.Deadlock
import TrustLink.Lib.Registers
import TrustLink.ConfigOrder
import TrustLink.Caps
import TrustLink.LiveLoop
import TrustLink.Licence
import TrustLink.Beneficiaries
import TrustLink.Causes
import TrustLink.Bookkeeping
import TrustLink.FeeTotals
import TrustLink.Upgrades
import TrustLink.Projection
import TrustLink.Sharding
import TrustLink.Terms
import TrustLink.Mandates
import TrustLink.Lib.Hex
import TrustLink.Evidence
import TrustLink.Dockets
