import NoGhost.Approvals
import NoGhost.Bank
import NoGhost.Coordinator.Attribution
import NoGhost.Coordinator.Balance
import NoGhost.Coordinator.Ceremony
import NoGhost.Coordinator.Checkout
import NoGhost.Coordinator.Cumulative
import NoGhost.Coordinator.Demo
import NoGhost.Coordinator.Meter
import NoGhost.Coordinator.Governance
import NoGhost.Coordinator.Prices
import NoGhost.Coordinator.RateLimit
import NoGhost.Coordinator.Reconciliation
import NoGhost.Coordinator.Rejections
import NoGhost.Coordinator.Revocation
import NoGhost.Dashboard.Exits
import NoGhost.Dashboard.Socket
import NoGhost.KeyOrder
import NoGhost.Signer.Refusal
import NoGhost.SubmissionQueue
