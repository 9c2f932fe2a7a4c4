import Mathlib.Logic.Function.Basic
import NoGhost.Chain
import NoGhost.Js.JsMap
import NoGhost.Verify

/-!
# The Coordinator's Store

The model of `coordinator/store.ts` and `coordinator/meter.ts`: the state that all pipeline
runs of a coordinator share. A record is an object that a run keeps hold of after the store
has evicted it, so records live in a heap, and the store's table of requests points into it.

What came over the wire keeps its shape: the debit of a record, and the fields of its token,
are values as they were parsed, and what the meter adds to its balance may raise.

Seven fields are history, and no function reads them: the requests that were accepted, the debits a
run has asked the bank for and those it has asked it to reverse, the receipts the ledger has
accepted, the tokens the meter has marked as redeemed and those it has dispensed, each with the
record of the run, and the events that were broadcast. The events about the status of the bank and
of the consortium, which carry nothing else, are left out.

## Main results

* `createRecord`, `transition`, `claimDebitRef`, `credit`: what runs do to the store.
* `computeReconciliation`: the divergence monitor.
-/

open Js

namespace NoGhost

/-! ### Records -/

/-- How far a request has come: the stages of the pipeline in their order, and the two ends at which
it is turned down. -/
inductive RequestStatus
  | PENDING
  | DEBIT_CONFIRMED
  | PUBLISHED
  | APPROVED
  | SIGNED
  | RECORDED
  | DELIVERED
  | REJECTED
  | REJECTED_ABANDONED
  deriving DecidableEq

/-- `Wall`: the check that stopped a request, by which the dashboard shows where it failed. -/
inductive Wall
  | WALL_1_BANK
  | WALL_2_CONSORTIUM
  | LEDGER
  | POLICY
  deriving DecidableEq

/-- `GenerationRequest`: what a merchant asks for. The amount is finite and positive, which the
endpoint checks. -/
structure GenerationRequest where
  requestId : String
  meterId : String
  amountKwh : ℚ
  merchantId : String
  timestamp : String
  deriving DecidableEq

/-- The request as an object literal, in the order of its fields. -/
def GenerationRequest.toJson (r : GenerationRequest) : Json :=
  object [("requestId", some (.str r.requestId)), ("meterId", some (.str r.meterId)),
    ("amountKwh", some (.num (.fin r.amountKwh))), ("merchantId", some (.str r.merchantId)),
    ("timestamp", some (.str r.timestamp))]

/-- `Token`: a token payload with the signature of the group. -/
structure Token extends TokenPayload where
  signature : String

/-- The token as an object literal: `{ ...tokenPayload, signature }`. -/
def Token.toJson (t : Token) : Json :=
  object [("meterId", t.meterId), ("amountKwh", t.amountKwh), ("debitRef", t.debitRef),
    ("nonce", some (.str t.nonce)), ("signature", some (.str t.signature))]

/-- `StatusTransition`: a status with the time at which it was reached, and a note. -/
structure StatusTransition where
  status : RequestStatus
  at_ : String
  note : Option String

/-- `Rejection`: the wall at which a request was stopped, and who is to blame for it. -/
structure Rejection where
  wall : Wall
  reason : String
  at_ : String
  attribution : String

/-- `Publication`: the hash of the request, and that of the transaction which carries it. -/
structure Publication where
  requestHash : String
  requestTxHash : String

/-- `LedgerRecord`: the receipt of a token on the ledger, in hashes. -/
structure LedgerRecord (cfg : Config) where
  requestHash : String
  debitRefHash : String
  tokenHash : String
  signerSet : List cfg.SignerId
  timestamp : String
  txHash : String
  multisign : Bool
  requestTxHash : String

/-- `record.meterDelivery`: what the meter has made of the token. -/
structure MeterDelivery where
  verified : Bool
  dispensedKwh : Option Json
  at_ : String

/-- `PipelineRecord`: a request with its status and history, and all that its run has found out and
done, each field set at the step that has it. -/
structure PipelineRecord (cfg : Config) where
  request : GenerationRequest
  status : RequestStatus
  history : List StatusTransition
  debit : Option Json
  debitReversed : Option Bool
  publication : Option Publication
  approvals : Option (List (ApprovalRecord cfg))
  signerSet : Option (List cfg.SignerId)
  token : Option Token
  ledger : Option (LedgerRecord cfg)
  rejection : Option Rejection
  meterDelivery : Option MeterDelivery

/-- The record that `createRecord` makes, which is pending and has nothing else yet. -/
def PipelineRecord.new (cfg : Config) (request : GenerationRequest) : PipelineRecord cfg where
  request := request
  status := .PENDING
  history := [⟨.PENDING, request.timestamp, some ("merchant " ++ request.merchantId)⟩]
  debit := none
  debitReversed := none
  publication := none
  approvals := none
  signerSet := none
  token := none
  ledger := none
  rejection := none
  meterDelivery := none

/-- The statuses a record went through, oldest first. -/
def PipelineRecord.statuses {cfg : Config} (r : PipelineRecord cfg) : List RequestStatus :=
  r.history.map (·.status)

/-! ### The store -/

/-- `Severity`: how an alert is ranked. -/
inductive Severity
  | info
  | warning
  | critical
  deriving DecidableEq

/-- `Alert` without its `id` and `at`, which the store adds. -/
structure AlertText where
  severity : Severity
  wall : Option Wall
  requestId : Option String
  title : String
  message : String
  attribution : String

/-- `Alert`. Its random identifier is a serial number here, so that no two alerts have the same. -/
structure Alert extends AlertText where
  id : ℕ
  at_ : String

/-- `Merchant`: who may submit requests, unless the operator has revoked it. -/
structure Merchant where
  merchantId : String
  name : String
  vetted : Bool
  revoked : Bool
  deriving DecidableEq

/-- `MemberStatus`: whether a member takes part in ceremonies. -/
inductive MemberStatus
  | ACTIVE
  | REVOKED
  deriving DecidableEq

/-- `GovernanceLogEntry`: what was done to whom, and by whom. The detail may be whatever a signer
sent as its reason. -/
structure GovernanceLogEntry where
  id : ℕ
  at_ : String
  action : String
  subject : String
  actor : String
  detail : Option Json

/-- `MeterState`: the balance of a meter, how often it has dispensed, and when it last did. -/
structure MeterState where
  meterId : Option Json
  balanceKwh : Number
  lastDispenseAt : Option String
  dispenses : ℕ

/-- `ReconciliationPoint`: the counts of the delivered requests at one moment. -/
structure ReconciliationPoint where
  t : String
  tokens : ℕ
  debits : ℕ
  records : ℕ

/-- `Reconciliation` without its series: the three counts, and by how much they differ. -/
structure Reconciliation where
  tokensIssued : ℕ
  confirmedDebits : ℕ
  onChainRecords : ℕ
  delta : ℕ
  deriving DecidableEq

/-- `Reconciliation` with its series, as it is broadcast. -/
structure ReconciliationSeries extends Reconciliation where
  series : List ReconciliationPoint

/-- The `WsEvent`s that the functions of the store broadcast to every dashboard that is connected.
-/
inductive Broadcast (cfg : Config)
  | requestUpdated (record : PipelineRecord cfg)
  | reconciliation (reconciliation : ReconciliationSeries)
  | alert (alert : Alert)
  | governanceUpdated (members : List (cfg.SignerId × MemberStatus)) (merchants : List Merchant)
      (governanceLog : List GovernanceLogEntry)
  | meterUpdated (meter : MeterState)

structure Store (cfg : Config) where
  /-- The records, by the serial number of the handler that makes them; `created` is the number
  of the next handler. -/
  heap : ℕ → PipelineRecord cfg
  created : ℕ
  requests : JsMap String ℕ
  /-- Newest first, as `alerts`, `governanceLog` and `audit`. -/
  requestOrder : List String
  /-- Which request consumed a debit reference. -/
  consumedDebitRefs : JsMap (Option Json) String
  alerts : List Alert
  merchants : List Merchant
  members : List (cfg.SignerId × MemberStatus)
  governanceLog : List GovernanceLogEntry
  bankUp : Bool
  lastConfirmationAt : Option String
  debitOutcomes : List Bool
  meters : JsMap (Option Json) MeterState
  audit : List (LedgerRecord cfg)
  series : List ReconciliationPoint
  lastDelta : ℕ
  /-- The replay guards of the meter. -/
  usedNonces : List String
  usedDebitRefs : List (Option Json)
  /-- The variable `stage` of the run on a record, which that run alone uses. -/
  stage : ℕ → Wall
  /-- The time as `now()` gives it, the next random draw, and the next random identifier. -/
  now : String
  randomBytes : Bytes
  nextId : ℕ
  /-- `Date.now()`, and the hits of the rate limit by merchant. -/
  clock : ℤ
  merchantHits : JsMap String (List ℤ)
  /-- The demo scenarios started so far. -/
  rotation : ℕ
  /-- History: the identifiers of the requests that were accepted, newest first. -/
  accepted : List (ℕ × String)
  /-- History: the debit requests that the run on a record sent to the bank. -/
  debitRequests : List (ℕ × Json)
  /-- History: the debit references that the run on a record asked the bank to reverse. -/
  reversals : List (ℕ × String)
  /-- History: the receipts of the run on a record that the ledger accepted. -/
  receipts : List (ℕ × String)
  /-- History: the tokens that the run on a record had the meter mark as redeemed. -/
  redemptions : List (ℕ × Token)
  /-- History: the tokens that were dispensed to the run on a record. -/
  dispensed : List (ℕ × Token)
  /-- History: what was broadcast, oldest first. -/
  broadcasts : List (Broadcast cfg)

/-- `REQUEST_CAP`, the bound of the table of requests. -/
def REQUEST_CAP : ℕ := 200

/-- `ALERT_CAP`, the bound of the log of alerts. -/
def ALERT_CAP : ℕ := 100

/-- `SERIES_CAP`, the bound of the series of the reconciliation. -/
def SERIES_CAP : ℕ := 200

/-- `GOVLOG_CAP`, the bound of the governance log. -/
def GOVLOG_CAP : ℕ := 200

/-- `DEBIT_OUTCOME_WINDOW`, the number of debit attempts that the health of the bank is told from.
-/
def DEBIT_OUTCOME_WINDOW : ℕ := 20

/-- `TERMINAL`, the statuses at which a run is over. -/
def TERMINAL : List RequestStatus := [.DELIVERED, .REJECTED, .REJECTED_ABANDONED]

/-- `if (list.length > cap) list.pop()`, with the newest first. -/
def capped {α : Type} (cap : ℕ) (list : List α) : List α :=
  if list.length > cap then list.dropLast else list

namespace Store

variable {cfg : Config}

/-- `broadcast`: the event is sent to every client, and kept in a history that the source does not
have. -/
def broadcast (ev : Broadcast cfg) (s : Store cfg) : Store cfg :=
  { s with broadcasts := s.broadcasts ++ [ev] }

/-! ### Requests -/

/-- A change of the record `rid`, as an assignment to fields of the object. -/
def update (rid : ℕ) (f : PipelineRecord cfg → PipelineRecord cfg) (s : Store cfg) : Store cfg :=
  { s with heap := Function.update s.heap rid (f (s.heap rid)) }

/-- `getRequest`: the record that the table has under an identifier. -/
def getRequest (s : Store cfg) (requestId : String) : Option ℕ := s.requests.get requestId

/-- The loop of `createRecord` that evicts the oldest requests. -/
def evict (cap : ℕ) : ℕ → Store cfg → Store cfg
  | 0, s => s
  | fuel + 1, s =>
      if s.requestOrder.length > cap then
        evict cap fuel
          { s with
            requestOrder := s.requestOrder.dropLast
            requests := match s.requestOrder.getLast? with
              | some evicted => s.requests.delete evicted
              | none => s.requests }
      else s

/-- A handler takes its serial number, by which its record is told from others of the same
identifier. -/
def reserve (s : Store cfg) : ℕ × Store cfg := (s.created, { s with created := s.created + 1 })

/-- `createRecord`, for the handler with the number `rid`. -/
def createRecord (rid : ℕ) (request : GenerationRequest) (s : Store cfg) : Store cfg :=
  (evict REQUEST_CAP (s.requestOrder.length + 1)
    { s with
      heap := Function.update s.heap rid (.new cfg request)
      requests := s.requests.set request.requestId rid
      requestOrder := request.requestId :: s.requestOrder
      accepted := (rid, request.requestId) :: s.accepted }).broadcast
    (.requestUpdated (.new cfg request))

/-! ### Alerts and governance -/

/-- `addAlert`: an alert goes in front of the log, up to its cap, and is broadcast. -/
def addAlert (a : AlertText) (s : Store cfg) : Store cfg :=
  let alert : Alert := { a with id := s.nextId, at_ := s.now }
  broadcast (.alert alert)
    { s with alerts := capped ALERT_CAP (alert :: s.alerts), nextId := s.nextId + 1 }

/-- `addGovernanceEntry`: an entry goes in front of the governance log, up to its cap, and the
tables are broadcast. -/
def addGovernanceEntry (action subject actor : String) (detail : Option Json)
    (s : Store cfg) : Store cfg :=
  let governanceLog := capped GOVLOG_CAP
    (⟨s.nextId, s.now, action, subject, actor, detail.filter Json.truthy⟩ :: s.governanceLog)
  broadcast (.governanceUpdated s.members s.merchants governanceLog)
    { s with governanceLog, nextId := s.nextId + 1 }

/-- `getMerchant`: the merchant of an identifier, if it is known. -/
def getMerchant (s : Store cfg) (merchantId : String) : Option Merchant :=
  s.merchants.find? (·.merchantId = merchantId)

/-- `setMerchantRevoked`: the flag of a merchant is set and the change logged, unless the merchant
is unknown. -/
def setMerchantRevoked (merchantId : String) (revoked : Bool) (actor : String)
    (s : Store cfg) : Store cfg :=
  match s.getMerchant merchantId with
  | none => s
  | some m => addGovernanceEntry (if revoked then "MERCHANT_REVOKED" else "MERCHANT_REINSTATED")
      merchantId actor (some (.str m.name))
      { s with merchants := s.merchants.map fun x =>
          if x.merchantId = merchantId then { x with revoked } else x }

/-- `isMemberActive`: the member is known, and not revoked. -/
def isMemberActive (s : Store cfg) (signerId : cfg.SignerId) : Bool :=
  s.members.lookup signerId = some .ACTIVE

/-! ### Bank status -/

/-- `updateBankHealth`, of which the health of the bank is kept. -/
def updateBankHealth (up : Bool) (s : Store cfg) : Store cfg := { s with bankUp := up }

/-- `recordDebitAttempt`: the outcome goes at the end of a window, of which the oldest one falls
out. -/
def recordDebitAttempt (confirmed : Bool) (s : Store cfg) : Store cfg :=
  let outcomes := s.debitOutcomes ++ [confirmed]
  { s with
    debitOutcomes := if outcomes.length > DEBIT_OUTCOME_WINDOW then outcomes.tail else outcomes
    lastConfirmationAt := if confirmed then some s.now else s.lastConfirmationAt }

/-! ### Reconciliation -/

/-- A value is added to a `Set`, unless it is there. -/
def insertRef (refs : List (Option Json)) (ref : Option Json) : List (Option Json) :=
  if refs.contains ref then refs else refs ++ [ref]

/-- The three sets and the counter of `computeReconciliation`, which the loop over the records
fills. -/
structure Tally where
  tokens : ℕ
  deliveredDebitRefs : List (Option Json)
  deliveredTxHashes : List String
  stuckDebitRefs : List (Option Json)

/-- One round of the loop of `computeReconciliation`. -/
def tally (a : Tally) (r : PipelineRecord cfg) : Tally :=
  match r.status with
  | .DELIVERED =>
      { a with
        tokens := if r.token.isSome then a.tokens + 1 else a.tokens
        deliveredDebitRefs := match r.debit with
          | some debit => insertRef a.deliveredDebitRefs (debit.get? "debitRef")
          | none => a.deliveredDebitRefs
        deliveredTxHashes := match r.ledger with
          | some ledger => a.deliveredTxHashes.insert ledger.txHash
          | none => a.deliveredTxHashes }
  | .REJECTED_ABANDONED =>
      match r.debit with
      | some debit =>
          if r.debitReversed = some true then a
          else { a with stuckDebitRefs := insertRef a.stuckDebitRefs (debit.get? "debitRef") }
      | none => a
  | _ => a

/-- `computeReconciliation`: one loop over the records of the table, and the counts that come of it.
-/
def computeReconciliation (s : Store cfg) : Reconciliation :=
  let a := (s.requests.map fun e => s.heap e.2).foldl tally ⟨0, [], [], []⟩
  let stuck := a.stuckDebitRefs.filter fun ref => !a.deliveredDebitRefs.contains ref
  let debits := a.deliveredDebitRefs.length + stuck.length
  let records := a.deliveredTxHashes.length
  { tokensIssued := a.tokens
    confirmedDebits := debits
    onChainRecords := records
    delta := max (max (a.tokens - debits) (debits - a.tokens))
      (max (a.tokens - records) (records - a.tokens)) }

/-- The alert of a divergence between tokens, debits and receipts. -/
def divergenceAlert (rec : Reconciliation) : AlertText where
  severity := .critical
  wall := none
  requestId := none
  title := "Reconciliation divergence: Δ ≠ 0"
  message := "tokens=" ++ toString rec.tokensIssued ++ " debits=" ++ toString rec.confirmedDebits ++
    " records=" ++ toString rec.onChainRecords ++ " (Δ=" ++ toString rec.delta ++
    "). Honest operation makes divergence impossible; this indicates a system fault or " ++
    "tampering (FR-D3)."
  attribution := "reconciliation"

/-- `onTerminal`: a delivery puts a point on the series, the counts are broadcast, and a divergence
of another size than the last is an alert. -/
def onTerminal (status : RequestStatus) (s : Store cfg) : Store cfg :=
  let rec_ := s.computeReconciliation
  let s := if status = .DELIVERED then
      let series := s.series ++
        [⟨s.now, rec_.tokensIssued, rec_.confirmedDebits, rec_.onChainRecords⟩]
      { s with series := if series.length > SERIES_CAP then series.tail else series }
    else s
  let s := s.broadcast (.reconciliation { rec_ with series := s.series })
  let s := if rec_.delta ≠ 0 ∧ rec_.delta ≠ s.lastDelta then s.addAlert (divergenceAlert rec_)
    else s
  { s with lastDelta := rec_.delta }

/-- The record after a transition: the status is set, and is the last in its history. -/
def moved (status : RequestStatus) (at_ note : String) (r : PipelineRecord cfg) :
    PipelineRecord cfg :=
  { r with status, history := r.history ++ [⟨status, at_, truthyText (some note)⟩] }

/-- `transition`: the record is moved and broadcast, and at an end the books are reconciled. -/
def transition (rid : ℕ) (status : RequestStatus) (note : String) (s : Store cfg) : Store cfg :=
  let s := s.update rid (moved status s.now note)
  let s := s.broadcast (.requestUpdated (s.heap rid))
  if status ∈ TERMINAL then s.onTerminal status else s

/-! ### Debit references -/

/-- `claimDebitRef`: the outcome is the request that consumed the debit, if it is another. -/
def claimDebitRef (debitRef : Option Json) (requestId : String) (s : Store cfg) :
    Option String × Store cfg :=
  match truthyText (s.consumedDebitRefs.get debitRef) with
  | some owner =>
      if owner ≠ requestId then (some owner, s)
      else (none, { s with consumedDebitRefs := s.consumedDebitRefs.set debitRef requestId })
  | none => (none, { s with consumedDebitRefs := s.consumedDebitRefs.set debitRef requestId })

/-- `addAudit`: a receipt goes in front of the audit trail. -/
def addAudit (record : LedgerRecord cfg) (s : Store cfg) : Store cfg :=
  { s with audit := record :: s.audit }

/-! ### Meters -/

/-- `creditMeter` up to the addition: an unknown meter is put into service. -/
def ensureMeter (meterId : Option Json) (s : Store cfg) : Store cfg :=
  match s.meters.get meterId with
  | some _ => s
  | none => { s with meters := s.meters.set meterId ⟨meterId, .fin 0, none, 0⟩ }

/-- `meter.balanceKwh`, as `creditMeter` finds it. -/
def balanceOf (s : Store cfg) (meterId : Option Json) : Number :=
  ((s.meters.get meterId).map (·.balanceKwh)).getD (.fin 0)

/-- The dispenses of a meter, 0 where it is not in service. -/
def dispensesOf (s : Store cfg) (meterId : Option Json) : ℕ :=
  ((s.meters.get meterId).map (·.dispenses)).getD 0

/-- `Math.round((meter.balanceKwh + amountKwh) * 100) / 100`. -/
def newBalance (N : Numeral) (balance : Number) (amountKwh : Option Json) :
    Except String Number := do
  let sum ← plus N balance amountKwh
  pure (((← sum.toNum N).mul (.fin 100)).round.divBy 100)

/-- `creditMeter` after the addition, for the token of the run on a record. -/
def credit (rid : ℕ) (token : Token) (balance : Number) (s : Store cfg) : Store cfg :=
  let meter : MeterState :=
    ⟨token.meterId, balance, some s.now, s.dispensesOf token.meterId + 1⟩
  broadcast (.meterUpdated meter)
    { s with
      meters := s.meters.set token.meterId meter
      dispensed := s.dispensed ++ [(rid, token)] }

/-- The replay check of `verifyTokenForMeter`. -/
def redeemed (s : Store cfg) (payload : TokenPayload) : Bool :=
  s.usedNonces.contains payload.nonce || s.usedDebitRefs.contains payload.debitRef

/-- `deliverToken` marks the token of the run on a record as redeemed. -/
def redeem (rid : ℕ) (token : Token) (s : Store cfg) : Store cfg :=
  { s with
    usedNonces := s.usedNonces.insert token.nonce
    usedDebitRefs := insertRef s.usedDebitRefs token.debitRef
    redemptions := s.redemptions ++ [(rid, token)] }

/-! ### The run on a record -/

/-- An assignment to the variable `stage` of a run, from which the backstop takes the wall. -/
def setStage (rid : ℕ) (wall : Wall) (s : Store cfg) : Store cfg :=
  { s with stage := Function.update s.stage rid wall }

/-- The run asks the bank for a debit. -/
def requestDebit (rid : ℕ) (body : Json) (s : Store cfg) : Store cfg :=
  { s with debitRequests := s.debitRequests ++ [(rid, body)] }

/-- The run asks the bank to reverse a debit. -/
def requestReversal (rid : ℕ) (debitRef : String) (s : Store cfg) : Store cfg :=
  { s with reversals := s.reversals ++ [(rid, debitRef)] }

/-- The ledger has accepted the receipt of the run. -/
def receive (rid : ℕ) (txHash : String) (s : Store cfg) : Store cfg :=
  { s with receipts := s.receipts ++ [(rid, txHash)] }

/-! ### Boot -/

/-- The merchants that are seeded. -/
def seededMerchants : List Merchant :=
  [⟨"MER-001", "Thabo's Spaza", true, false⟩, ⟨"MER-002", "QuickPay Kiosk", true, false⟩,
    ⟨"MER-003", "PayZone CityMall", true, false⟩]

/-- The meters that are seeded, six of them with a balance of 0. -/
def seededMeters : JsMap (Option Json) MeterState :=
  (List.range 6).map fun i =>
    let meterId := some (.str ("MTR-100" ++ toString (i + 1)))
    (meterId, ⟨meterId, .fin 0, none, 0⟩)

/-- A coordinator at boot: no record and no log, and the tables as they are seeded. -/
def boot (cfg : Config) (now : String) (randomBytes : Bytes) : Store cfg where
  heap _ := .new cfg ⟨"", "", 0, "", ""⟩
  created := 0
  requests := []
  requestOrder := []
  consumedDebitRefs := []
  alerts := []
  merchants := seededMerchants
  members := cfg.SIGNERS.map fun i => (i.signerId, .ACTIVE)
  governanceLog := []
  bankUp := false
  lastConfirmationAt := none
  debitOutcomes := []
  meters := seededMeters
  audit := []
  series := []
  lastDelta := 0
  usedNonces := []
  usedDebitRefs := []
  stage _ := .POLICY
  now
  randomBytes
  nextId := 0
  clock := 0
  merchantHits := []
  rotation := 0
  accepted := []
  debitRequests := []
  reversals := []
  receipts := []
  redemptions := []
  dispensed := []
  broadcasts := []

end Store

end NoGhost
