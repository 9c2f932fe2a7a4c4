import NoGhost.Async.Prog
import NoGhost.Coordinator.Store

/-!
# The Pipeline

The model of `coordinator/pipeline.ts`: the run on one record, from the policy gate to the
delivery at the meter. A run is a program over the store that awaits the bank, the signers and
the ledger. Nothing is assumed of the answers: a service may answer with any status and any
text, or not at all, and the ledger client may raise.

The steps of `runPipeline` are definitions of their own, and each ends in the next one; the
`return`s of the source are the branches that do not. The awaits of a `Promise.all` are one
call, answered for all signers at once: the run does nothing between them.

## Main definitions

* `abandon`, `runCeremony`, `gatherApprovals`, `multisignReceipt`, `deliverToken`.
* `runPipeline`: the whole run, with the catch-all around it.
-/

open Js Async

namespace NoGhost

variable (P : Platform) {cfg : Config}

/-! ### Calls and answers -/

/-- `HttpResult`: the status of a response, with the text of its body, which is parsed where it is
read. -/
structure HttpResult where
  status : ℕ
  text : List Char

/-- `res.ok`: the status is one of success. -/
def HttpResult.ok (r : HttpResult) : Bool := 200 ≤ r.status && r.status < 300

/-- `body`, which is null when the text is no JSON. -/
def HttpResult.body (r : HttpResult) : Json := (parse P.numeral r.text).getD .null

/-- What a run awaits. A run makes one debit call and one reversal at most, so the record
names the exchange with the bank. -/
inductive CoordinatorCall (cfg : Config)
  | health (signers : List (SignerInfo cfg.SignerId))
  | debit (rid : ℕ) (body : Json)
  | reverse (rid : ℕ) (debitRef : String)
  | publish (tx : Tx)
  | validate (signers : List (SignerInfo cfg.SignerId)) (body : Json)
  | accountTx (account : String)
  | round1 (signers : List (SignerInfo cfg.SignerId)) (body : Json)
  | round2 (signer : SignerInfo cfg.SignerId) (body : Json)
  | prepare (tx : Tx) (quorum : ℕ)
  | signReceipt (signer : SignerInfo cfg.SignerId) (body : Json)
  | submitReceipt (fragments : List String)

/-- The answers: `tryFetchJson` gives null for a service that is not reached in time. -/
abbrev CoordinatorCall.Answer : CoordinatorCall cfg → Type
  | health _ | validate _ _ | round1 _ _ => cfg.SignerId → Option HttpResult
  | debit _ _ | reverse _ _ | round2 _ _ | signReceipt _ _ => Option HttpResult
  | publish _ | submitReceipt _ => Except String String
  | accountTx _ => Except String (List LedgerTx)
  | prepare _ _ => Except String Json

/-- The handlers of the coordinator, over its store. -/
abbrev CoordinatorProg (cfg : Config) (α : Type) :=
  Prog (Store cfg) String (CoordinatorCall cfg) CoordinatorCall.Answer α

/-- `GROUP`, as far as a run reads it: the group's key, and the keys of the shares. -/
structure Group where
  groupPublicKey : String
  verificationShares : ℤ → String

/-- What the coordinator loads from disk: the keys of bank and group, the manifest, the encryption
key and its wallets. -/
structure CoordinatorEnv (cfg : Config) where
  BANK_PUBLIC_KEY : String
  GROUP : Group
  /-- The address of the publisher wallet. -/
  publisherWallet : Option String
  manifest : Except String (ConsortiumManifest cfg)
  encKey : Except String Bytes

section

variable (env : CoordinatorEnv cfg) (rid : ℕ)

/-- The record of the run, as it is when it is read. -/
def theRecord : CoordinatorProg cfg (PipelineRecord cfg) := Prog.gets (·.heap rid)

/-- `ids.join(sep)`, for the names of signers. -/
def joinIds (sep : String) (ids : List cfg.SignerId) : String :=
  sep.intercalate (ids.map cfg.idText)

/-- `v ?? text`, in a template literal, which raises where the value has no text. -/
def textOr (v : Option Json) (text : String) : Except String String :=
  match v with
  | none | some .null => .ok text
  | some v => v.toStr P.numeral

/-! ### Terminal states -/

/-- `reject`: the record is rejected before its debit, with the reason and the wall. -/
def reject (wall : Wall) (reason attribution : String) : CoordinatorProg cfg Unit :=
  Prog.modify fun s => Store.transition rid .REJECTED reason
    (s.update rid fun r => { r with rejection := some ⟨wall, reason, s.now, attribution⟩ })

/-- The call that `abandon` makes; its path may fail to print. -/
def reverseDebit (debitRef : Option Json) : CoordinatorProg cfg Bool :=
  match toStr P.numeral debitRef with
  | .error _ => pure false
  | .ok ref => do
      Prog.modify (Store.requestReversal rid ref)
      let r : Option HttpResult ← Prog.call (CoordinatorCall.reverse rid ref)
      pure (r.any (·.ok))

/-- The alert of an abandonment, which says whether the debit was reversed. -/
def abandonAlert (wall : Wall) (requestId reason attribution : String) (debitRef : Option Json)
    (reversed : Bool) : Except String AlertText := do
  let message ← if reversed then do
      pure (reason ++ ". The confirmed debit " ++ (← textOr P debitRef "") ++
        " was reversed at the bank; no token exists (FR-21).")
    else do
      pure (reason ++ ". Reversal of " ++ (← textOr P debitRef "the debit") ++
        " could not be confirmed; manual reconciliation required.")
  pure { severity := if reversed then .warning else .critical
         wall := some wall
         requestId := some requestId
         title := if reversed then "Request abandoned: debit reversed, customer refunded"
           else "Request abandoned: DEBIT REVERSAL FAILED"
         message
         attribution }

/-- The end of `abandon`, once it is known whether the debit was reversed. -/
def closeAbandoned (wall : Wall) (reason attribution requestId : String) (debitRef : Option Json)
    (reversed : Bool) : CoordinatorProg cfg Unit := do
  Prog.modify fun s => s.update rid fun r =>
    { r with debitReversed := some reversed, rejection := some ⟨wall, reason, s.now, attribution⟩ }
  let alert ← Prog.ofExcept (abandonAlert P wall requestId reason attribution debitRef reversed)
  Prog.modify fun s => Store.transition rid .REJECTED_ABANDONED
    (reason ++ (if reversed then " · debit reversed" else " · debit reversal FAILED"))
    (s.addAlert alert)

/-- `abandon`: the bank is asked to reverse the debit, if it has a reference, and the record ends
whatever it answers. -/
def abandon (wall : Wall) (reason attribution : String) : CoordinatorProg cfg Unit := do
  let record ← theRecord rid
  let debitRef := prop? record.debit "debitRef"
  let reversed ← if truthy debitRef then reverseDebit P rid debitRef else pure false
  closeAbandoned P rid wall reason attribution record.request.requestId debitRef reversed

/-! ### Wall 2 -/

/-- `signerIsOnline`, of the answer to a health probe. -/
def signerIsOnline (answer : Option HttpResult) : Bool :=
  answer.any fun r => r.ok && strictEq ((r.body P).get? "online") (some (.bool true))

/-- `online.sort((a, b) => a.identifier - b.identifier)`. -/
def sortByIdentifier (signers : List (SignerInfo cfg.SignerId)) :
    List (SignerInfo cfg.SignerId) :=
  signers.insertionSort fun a b => a.identifier ≤ b.identifier

/-- `pollOnlineActiveSigners`: the active members are probed, and those who are online sorted by
identifier. -/
def pollOnlineActiveSigners : CoordinatorProg cfg (List (SignerInfo cfg.SignerId)) := do
  let active ← Prog.gets fun s => cfg.SIGNERS.filter fun i => s.isMemberActive i.signerId
  let answers ← Prog.call (.health active)
  pure (sortByIdentifier (active.filter fun i => signerIsOnline P (answers i.signerId)))

/-- A commitment as a signer sent it: two truthy values, which need not even be texts before they
are decoded. -/
structure SentCommitment where
  identifier : ℤ
  hiding_ : Json
  binding_ : Json

/-- A commitment in the body of round 2, as it was received. -/
def SentCommitment.toJson (c : SentCommitment) : Json :=
  object [("identifier", some (.num (.fin c.identifier))), ("hiding", some c.hiding_),
    ("binding", some c.binding_)]

/-- The errors of a ceremony, each with what its text and its culprit are made of. -/
inductive CeremonyError (cfg : Config)
  | ROUND1_FAILED (signer : cfg.SignerId) (status : Option ℕ)
  | ROUND2_UNREACHABLE (signer : cfg.SignerId)
  | ROUND2_FAILED (signer : cfg.SignerId) (status : ℕ) (error : Option String)
  | BAD_PARTIAL_SIGNATURE (signer : cfg.SignerId)
  | AGGREGATION_FAILED (message : String)
  | AGGREGATE_SIGNATURE_INVALID

/-- `outcome.reason`, the text of an error. -/
def CeremonyError.reason : CeremonyError cfg → String
  | ROUND1_FAILED signer status => "ROUND1_FAILED (" ++ cfg.idText signer ++
      (match status with
        | some status => ": " ++ toString status
        | none => ": unreachable") ++ ")"
  | ROUND2_UNREACHABLE signer => "ROUND2_UNREACHABLE (" ++ cfg.idText signer ++ ")"
  | ROUND2_FAILED signer status error => "ROUND2_FAILED (" ++ cfg.idText signer ++ ": " ++
      toString status ++ (match error with
        | some error => " " ++ error
        | none => "") ++ ")"
  | BAD_PARTIAL_SIGNATURE signer => "BAD_PARTIAL_SIGNATURE (" ++ cfg.idText signer ++ ")"
  | AGGREGATION_FAILED message => "AGGREGATION_FAILED: " ++ message
  | AGGREGATE_SIGNATURE_INVALID => "AGGREGATE_SIGNATURE_INVALID"

/-- `outcome.badSigner`, which only a bad partial has. -/
def CeremonyError.badSigner : CeremonyError cfg → Option cfg.SignerId
  | BAD_PARTIAL_SIGNATURE signer => some signer
  | _ => none

/-- `CeremonyOutcome`: a token with its signer set, a refusal of a signer, or an error. -/
inductive CeremonyOutcome (cfg : Config)
  | ok (token : Token) (signerSet : List cfg.SignerId)
  | refused (signerId : cfg.SignerId) (reason : Option Json)
  | error (e : CeremonyError cfg)

/-- What the round-1 answer of a signer contributes. -/
def sentCommitment (s : SignerInfo cfg.SignerId) (answer : Option HttpResult) :
    Except (CeremonyError cfg) SentCommitment :=
  match answer with
  | none => .error (.ROUND1_FAILED s.signerId none)
  | some r =>
      let commitment := (r.body P).get? "commitment"
      match (prop? commitment "hiding").filter Json.truthy,
          (prop? commitment "binding").filter Json.truthy with
      | some hiding_, some binding_ =>
          if r.ok then .ok ⟨s.identifier, hiding_, binding_⟩
          else .error (.ROUND1_FAILED s.signerId (some r.status))
      | _, _ => .error (.ROUND1_FAILED s.signerId (some r.status))

/-- `round2Req`, the body that every signer of the ceremony is sent. -/
def round2Req (record : PipelineRecord cfg) (tokenPayload : TokenPayload) (messageHex : String)
    (commitments : List SentCommitment) : Json :=
  object [("sessionId", some (.str record.request.requestId)),
    ("messageHex", some (.str messageHex)), ("tokenPayload", some tokenPayload.toJson),
    ("request", some record.request.toJson), ("debit", record.debit),
    ("commitments", some (.arr (commitments.map (·.toJson))))]

/-- A point of a commitment where it is decoded, as hexadecimal text. -/
def pointText (v : Json) : Except String String := do
  let _ ← hexToBytesOf (some v)
  pure (v.asString.getD "")

/-- A sent commitment where it is decoded, which raises for texts that are no points. -/
def SentCommitment.decode (c : SentCommitment) : Except String Frost.Commitment := do
  pure ⟨c.identifier, ← pointText c.hiding_, ← pointText c.binding_⟩

/-- `verifySignatureShare` on commitments as they were sent. -/
def verifyShare (share : Frost.SignatureShare) (commitments : List SentCommitment)
    (message : Bytes) : Except String Bool := do
  Frost.verifySignatureShare P.toCurve share (env.GROUP.verificationShares share.identifier)
    (← commitments.mapM (·.decode)) env.GROUP.groupPublicKey message

/-- `aggregate` on commitments as they were sent. -/
def aggregateShares (commitments : List SentCommitment) (shares : List Frost.SignatureShare)
    (message : Bytes) : Except String String := do
  Frost.aggregate P.toCurve (← commitments.mapM (·.decode)) shares env.GROUP.groupPublicKey
    message

/-- Round 2 with the signers in turn: their shares, or how the ceremony ends. -/
def collectShares (body : Json) (commitments : List SentCommitment) (message : Bytes) :
    List (SignerInfo cfg.SignerId) →
      CoordinatorProg cfg (Except (CeremonyOutcome cfg) (List Frost.SignatureShare))
  | [] => pure (.ok [])
  | s :: signers => do
      let r : Option HttpResult ← Prog.call (CoordinatorCall.round2 s body)
      match r with
      | none => pure (.error (.error (.ROUND2_UNREACHABLE s.signerId)))
      | some r =>
          if r.status = 403 ∧ truthy ((r.body P).get? "refused") then
            pure (.error (.refused s.signerId ((r.body P).get? "reason")))
          else
            match ((r.body P).get? "zi").bind (·.asString), r.ok with
            | some zi, true => do
                let share : Frost.SignatureShare := ⟨s.identifier, zi⟩
                -- this specific signer produced a bad partial
                if !(← Prog.ofExcept (verifyShare P env share commitments message)) then
                  pure (.error (.error (.BAD_PARTIAL_SIGNATURE s.signerId)))
                else
                  match ← collectShares body commitments message signers with
                  | .ok shares => pure (.ok (share :: shares))
                  | .error outcome => pure (.error outcome)
            | _, _ => do
                let error ← Prog.ofExcept
                  ((((r.body P).get? "error").filter Json.truthy).mapM (·.toStr P.numeral))
                pure (.error (.error (.ROUND2_FAILED s.signerId r.status error)))

/-- The end of a ceremony: aggregation, and verification under the group key. -/
def concludeCeremony (chosen : List (SignerInfo cfg.SignerId)) (tokenPayload : TokenPayload)
    (message : Bytes) (commitments : List SentCommitment) (shares : List Frost.SignatureShare) :
    CeremonyOutcome cfg :=
  match aggregateShares P env commitments shares message with
  | .error e => .error (.AGGREGATION_FAILED e)
  | .ok signature =>
      if !Frost.verifySignature P.toCurve signature message env.GROUP.groupPublicKey then
        .error .AGGREGATE_SIGNATURE_INVALID
      else .ok { tokenPayload with signature } (chosen.map (·.signerId))

/-- `runCeremony`: the commitments of round 1, the partials of round 2 with the check of each, and
the aggregate with its own. -/
def runCeremony (chosen : List (SignerInfo cfg.SignerId)) (tokenPayload : TokenPayload)
    (message : Bytes) (messageHex : String) : CoordinatorProg cfg (CeremonyOutcome cfg) := do
  let record ← theRecord rid
  let answers ← Prog.call (.round1 chosen
    (object [("sessionId", some (.str record.request.requestId))]))
  match chosen.mapM fun s => sentCommitment P s (answers s.signerId) with
  | .error e => pure (.error e)
  | .ok commitments => do
      let body := round2Req record tokenPayload messageHex commitments
      match ← collectShares P env body commitments message chosen with
      | .error outcome => pure outcome
      | .ok shares =>
          pure (concludeCeremony P env chosen tokenPayload message commitments shares)

/-! ### On-chain consensus -/

/-- `publishOnChain`: the request and its debit are encrypted and put on the ledger under the hash
of the request. -/
def publishOnChain : CoordinatorProg cfg Publication := do
  match env.publisherWallet with
  | none => throw "coordinator XRPL publisher wallet unavailable"
  | some publisher => do
      let record ← theRecord rid
      let requestHash := hashValue P (some record.request.toJson)
      let _ ← Prog.ofExcept env.manifest
      let encKey ← Prog.ofExcept env.encKey
      let packed := packRequest P encKey (← Prog.gets (·.randomBytes)) requestHash
        (object [("request", some record.request.toJson), ("debit", record.debit)])
      let txHash ← Prog.ofExcept (← Prog.call (.publish (requestTx P publisher packed)))
      pure ⟨requestHash, txHash⟩

/-- `gatherApprovals`: the approvals, and how many of them approve. -/
def gatherApprovals (publication : Publication) (online : List (SignerInfo cfg.SignerId)) :
    CoordinatorProg cfg (List (ApprovalRecord cfg) × ℕ) := do
  let _ ← Prog.call (.validate online
    (object [("requestTxHash", some (.str publication.requestTxHash))]))
  let M ← Prog.ofExcept env.manifest
  let txs ← Prog.ofExcept (← Prog.call (.accountTx M.authority))
  let approvals ← Prog.ofExcept (readApprovals P M publication.requestHash txs)
  Prog.modify fun s => s.update rid fun r => { r with approvals := some approvals }
  pure (approvals, approveCount approvals)

/-- `sha256Hex(debitRef)`: the hash function takes strings only. -/
def sha256HexOf : Option Json → Except String String
  | some (.str data) => .ok (sha256HexStr P data)
  | _ => .error "The \"data\" argument must be of type string"

/-- What the answer of a member contributes to the receipt. -/
def fragmentOf (signer : cfg.SignerId) (answer : Option HttpResult) : Except String String :=
  match answer with
  | none => .error ("RECEIPT_FRAGMENT_FAILED (" ++ cfg.idText signer ++ ": unreachable)")
  | some r =>
      match ((r.body P).get? "fragment").bind (·.asString), r.ok with
      | some fragment, true => .ok fragment
      | _, _ => do
          let error ← (((r.body P).get? "error").filter Json.truthy).mapM (·.toStr P.numeral)
          .error ("RECEIPT_FRAGMENT_FAILED (" ++ cfg.idText signer ++ ": " ++
            toString r.status ++ ((error.map (" " ++ ·)).getD "") ++ ")")

/-- The fragments of the members in turn, where one that is missing raises. -/
def collectFragments (body : Json) : List (SignerInfo cfg.SignerId) →
    CoordinatorProg cfg (List String)
  | [] => pure []
  | s :: signers => do
      let fragment ← Prog.ofExcept (fragmentOf P s.signerId (← Prog.call (.signReceipt s body)))
      pure (fragment :: (← collectFragments body signers))

/-- `multisignReceipt`: the receipt is prepared, signed by the members of the signer set, and
submitted. -/
def multisignReceipt (publication : Publication) (token : Token)
    (signerSet : List cfg.SignerId) : CoordinatorProg cfg (LedgerRecord cfg) := do
  let record ← theRecord rid
  let debitRefHash ← Prog.ofExcept (sha256HexOf P (prop? record.debit "debitRef"))
  let fields : ReceiptFields cfg :=
    { requestHash := publication.requestHash
      debitRefHash
      tokenHash := hashValue P (some token.toJson)
      signerSet
      ts := ← Prog.gets (·.now) }
  let M ← Prog.ofExcept env.manifest
  let prepared ← Prog.ofExcept (← Prog.call (.prepare (receiptTx P M fields) M.quorum))
  let fragments ← collectFragments P
    (object [("prepared", some prepared), ("requestHash", some (.str fields.requestHash))])
    (signerSet.filterMap fun sid => cfg.SIGNERS.find? (·.signerId = sid))
  let txHash ← Prog.ofExcept (← Prog.call (.submitReceipt fragments))
  Prog.modify (Store.receive rid txHash)
  pure { requestHash := fields.requestHash
         debitRefHash := fields.debitRefHash
         tokenHash := fields.tokenHash
         signerSet := fields.signerSet
         timestamp := fields.ts
         txHash
         multisign := true
         requestTxHash := publication.requestTxHash }

/-! ### The meter -/

/-- `verifyTokenForMeter`: the reason of a refusal. -/
def verifyTokenForMeter (token : Token) (s : Store cfg) : Option String :=
  if s.redeemed token.toTokenPayload then
    some "METER_REPLAY: a token for this debit was already redeemed"
  else if !Frost.verifySignature P.toCurve token.signature
      (canonicalBytes P (some token.toTokenPayload.toJson)) env.GROUP.groupPublicKey then
    some "METER_SIGNATURE_INVALID: token does not verify against the group public key"
  else none

/-- `creditMeter`: a meter that is not known is put into service, and the amount is added. -/
def creditMeter (token : Token) : CoordinatorProg cfg Unit := do
  Prog.modify (Store.ensureMeter token.meterId)
  let balance ← Prog.gets (·.balanceOf token.meterId)
  let balance ← Prog.ofExcept (Store.newBalance P.numeral balance token.amountKwh)
  Prog.modify (Store.credit rid token balance)

/-- `deliverToken`: the reason of a refusal. -/
def deliverToken (token : Token) : CoordinatorProg cfg (Option String) := do
  match ← Prog.gets (verifyTokenForMeter P env token) with
  | some reason => pure (some reason)
  | none => do
      Prog.modify (Store.redeem rid token)
      creditMeter P rid token
      pure none

/-! ### The steps of a run -/

/-- Step 9, delivery: the meter takes the token and the record is delivered, or the run is
abandoned. -/
def deliver (token : Token) : CoordinatorProg cfg Unit := do
  let record ← theRecord rid
  match ← deliverToken P env rid token with
  | some reason =>
      abandon P rid .WALL_2_CONSORTIUM reason ("meter " ++ record.request.meterId)
  | none =>
      Prog.modify fun s => Store.transition rid .DELIVERED
        ("meter " ++ record.request.meterId ++ " verified token & credited " ++
          P.numeral.print record.request.amountKwh ++ " kWh")
        (s.update rid fun r =>
          { r with meterDelivery := some ⟨true, token.amountKwh, s.now⟩ })

/-- Steps 7 and 8: the check at the meter, and the receipt. -/
def settleReceipt (publication : Publication) (token : Token) (signerSet : List cfg.SignerId) :
    CoordinatorProg cfg Unit := do
  let record ← theRecord rid
  match ← Prog.gets (verifyTokenForMeter P env token) with
  | some reason =>
      abandon P rid .WALL_2_CONSORTIUM reason ("meter " ++ record.request.meterId)
  | none => do
      Prog.modify (Store.setStage rid .LEDGER)
      match ← (Except.ok <$> multisignReceipt P env rid publication token signerSet).tryCatch
          fun e => pure (.error e) with
      | .error e => abandon P rid .LEDGER ("RECEIPT_MULTISIGN_FAILED: " ++ e) "consortium"
      | .ok ledger => do
          Prog.modify fun s => Store.transition rid .RECORDED
            ("2-of-3 multisign receipt: " ++ ledger.txHash)
            (Store.addAudit ledger (s.update rid fun r => { r with ledger := some ledger }))
          deliver P env rid token

/-- The alert of a refusal, with the reason of the signer. -/
def refusalAlert (requestId : String) (signer : cfg.SignerId) (reason : Option Json) :
    Except String AlertText := do
  pure { severity := .warning
         wall := some .WALL_2_CONSORTIUM
         requestId := some requestId
         title := "Signer refused to sign: " ++ cfg.idText signer
         message := (← textOr P reason "No reason given") ++
           " · refusal logged attributably; trying spare signer."
         attribution := cfg.idText signer }

/-- The alert of a bad partial, which names the signer. -/
def badPartialAlert (requestId : String) (signer : cfg.SignerId) : AlertText where
  severity := .critical
  wall := some .WALL_2_CONSORTIUM
  requestId := some requestId
  title := "Invalid partial signature from " ++ cfg.idText signer
  message := "The partial signature failed share verification: misbehaviour is attributable " ++
    "to this signer."
  attribution := cfg.idText signer

/-- `a || b` of two texts, which takes the second for an empty first one. -/
def orText (text default : String) : String := if text = "" then default else text

/-- The loop of step 6, with the signers that have refused so far. Every refusal takes one
signer out of the pool, so fuel for one round more than there are signers is enough. -/
def ceremonyLoop (publication : Publication) (online : List (SignerInfo cfg.SignerId))
    (tokenPayload : TokenPayload) (message : Bytes) :
    ℕ → List cfg.SignerId → CoordinatorProg cfg Unit
  | 0, _ => throw "unreachable"
  | fuel + 1, refused => do
      let pool := online.filter fun s => s.signerId ∉ refused
      if pool.length < cfg.t then
        abandon P rid .WALL_2_CONSORTIUM
          ("SIGNERS_REFUSED (" ++ joinIds ", " refused ++ ") · no spare signer available")
          (orText (joinIds ", " refused) "consortium")
      else do
        let record ← theRecord rid
        match ← runCeremony P env rid (pool.take cfg.t) tokenPayload message
            (bytesToHex message) with
        | .refused signer reason => do
            Prog.modify (Store.addGovernanceEntry "SIGNER_REFUSED" (cfg.idText signer)
              (cfg.idText signer) (match reason with
                | none | some .null => some (.str ("request " ++ record.request.requestId))
                | some reason => some reason))
            let alert ← Prog.ofExcept (refusalAlert P record.request.requestId signer reason)
            Prog.modify (Store.addAlert alert)
            ceremonyLoop publication online tokenPayload message fuel
              (if signer ∈ refused then refused else refused ++ [signer])
        | .error e => do
            match e.badSigner with
            | some signer =>
                Prog.modify (Store.addAlert (badPartialAlert record.request.requestId signer))
            | none => pure ()
            abandon P rid .WALL_2_CONSORTIUM e.reason
              ((e.badSigner.map cfg.idText).getD "consortium")
        | .ok token signerSet => do
            Prog.modify fun s => Store.transition rid .SIGNED
              ("quorum " ++ joinIds " + " signerSet ++ " (" ++ toString cfg.t ++ "-of-" ++
                toString cfg.n ++ ")")
              (s.update rid fun r => { r with token := some token, signerSet := some signerSet })
            settleReceipt P env rid publication token signerSet

/-- The reason of a quorum that cannot be reached. -/
def belowThreshold (cfg : Config) (available : ℕ) : String :=
  "BELOW_THRESHOLD (" ++ toString available ++ " of " ++ toString cfg.SIGNERS.length ++
    " signers available, need " ++ toString cfg.t ++ ")"

/-- The alert of a quorum that was lost after the debit. -/
def quorumLostAlert (cfg : Config) (requestId : String) (available : ℕ) : AlertText where
  severity := .warning
  wall := some .WALL_2_CONSORTIUM
  requestId := some requestId
  title := "Quorum lost mid-flight: blocked at Wall 2"
  message := "Only " ++ toString available ++ " of " ++ toString cfg.SIGNERS.length ++
    " consortium signers available; " ++ toString cfg.t ++ " are required. No single insider " ++
    "can generate; the confirmed debit will be reversed."
  attribution := "consortium"

/-- Step 6, the ceremony: another poll for signers, and the loop that tries them. -/
def ceremony (publication : Publication) : CoordinatorProg cfg Unit := do
  Prog.modify (Store.setStage rid .WALL_2_CONSORTIUM)
  let online ← pollOnlineActiveSigners P
  let record ← theRecord rid
  if online.length < cfg.t then do
    Prog.modify (Store.addAlert (quorumLostAlert cfg record.request.requestId online.length))
    abandon P rid .WALL_2_CONSORTIUM (belowThreshold cfg online.length) "consortium"
  else do
    let tokenPayload ← Prog.ofExcept (buildTokenPayload P record.debit)
    ceremonyLoop P env rid publication online tokenPayload
      (canonicalBytes P (some tokenPayload.toJson)) (online.length + 1) []

/-- The alert of too few approvals, with the reasons of the rejections. -/
def approvalShortAlert (requestId : String) (count : ℕ)
    (rejections : List (ApprovalRecord cfg)) : AlertText where
  severity := .critical
  wall := some .WALL_2_CONSORTIUM
  requestId := some requestId
  title := "On-chain approval short of quorum"
  message := toString count ++ "/" ++ toString cfg.XRPL_MULTISIGN_QUORUM ++
    " members approved on-chain" ++
    (if rejections.isEmpty then "" else "; rejected by " ++ ", ".intercalate
      (rejections.map fun r => cfg.idText r.signerId ++ "(" ++ r.reason.getD "?" ++ ")")) ++
    ". No token generated."
  attribution := orText (joinIds ", " (rejections.map (·.signerId))) "consortium"

/-- Step 5: the members read, validate and approve on their own. -/
def approve (publication : Publication) : CoordinatorProg cfg Unit := do
  Prog.modify (Store.setStage rid .WALL_2_CONSORTIUM)
  let approvers ← pollOnlineActiveSigners P
  if approvers.length < cfg.t then
    abandon P rid .WALL_2_CONSORTIUM (belowThreshold cfg approvers.length) "consortium"
  else do
    let (approvals, count) ← gatherApprovals P env rid publication approvers
    let record ← theRecord rid
    if count < cfg.XRPL_MULTISIGN_QUORUM then do
      let rejections := approvals.filter fun a =>
        strictEq (some a.verdict) (some (.str "REJECT"))
      Prog.modify (Store.addAlert
        (approvalShortAlert record.request.requestId count rejections))
      abandon P rid .WALL_2_CONSORTIUM
        ("ONCHAIN_APPROVAL_SHORT (" ++ toString count ++ "/" ++
          toString cfg.XRPL_MULTISIGN_QUORUM ++ ")")
        (orText (joinIds ", " (rejections.map (·.signerId))) "consortium")
    else do
      Prog.modify (Store.transition rid .APPROVED ("on-chain approvals: " ++
        joinIds " + " ((approvals.filter (·.approves)).map (·.signerId))))
      ceremony P env rid publication

/-- Step 4: the encrypted request goes on the ledger. -/
def publish : CoordinatorProg cfg Unit := do
  Prog.modify (Store.setStage rid .LEDGER)
  match ← (Except.ok <$> publishOnChain P env rid).tryCatch fun e => pure (.error e) with
  | .error e => abandon P rid .LEDGER ("PUBLISH_FAILED: " ++ e) "xrpl-testnet"
  | .ok publication => do
      Prog.modify fun s => Store.transition rid .PUBLISHED
        ("request on-chain (encrypted): " ++ publication.requestTxHash)
        (s.update rid fun r => { r with publication := some publication })
      approve P env rid publication

/-- The alerts of Wall 1 and of the policy gate. -/
def blockedAlert (severity : Severity) (wall : Wall) (requestId title message : String)
    (attribution : String) : AlertText where
  severity := severity
  wall := some wall
  requestId := some requestId
  title := title
  message := message
  attribution := attribution

/-- The debit of a confirmation that verified: it is claimed for this request. -/
def claimDebit (request : GenerationRequest) (debit : Json) : CoordinatorProg cfg Unit := do
  let debitRef := debit.get? "debitRef"
  match ← Prog.modifyGet (Store.claimDebitRef debitRef request.requestId) with
  | some owner => do
      let ref ← Prog.ofExcept (toStr P.numeral debitRef)
      Prog.modify (Store.addAlert (blockedAlert .critical .POLICY request.requestId
        "Debit replay blocked: one debit, one token"
        ("debitRef " ++ ref ++ " was already consumed by request " ++ owner ++ " (FR-20).")
        request.merchantId))
      reject rid .POLICY "DEBIT_ALREADY_CONSUMED" request.merchantId
  | none => do
      let ref ← Prog.ofExcept (toStr P.numeral debitRef)
      let amount ← Prog.ofExcept (toStr P.numeral (debit.get? "amount"))
      Prog.modify (Store.transition rid .DEBIT_CONFIRMED
        ("debitRef " ++ ref ++ " · R" ++ amount ++ " confirmed & verified"))
      publish P env rid

/-- `verifyBankSignature` of the coordinator. -/
def verifyAttestation (debit : Json) : Bool :=
  verifyBankSignature P (some debit) env.BANK_PUBLIC_KEY

/-- A confirmation of the bank is checked, and its debit claimed. -/
def confirmed (request : GenerationRequest) (debit : Json) : CoordinatorProg cfg Unit := do
  if !verifyAttestation P env debit ||
      !strictEq (debit.get? "requestId") (some (.str request.requestId)) then do
    Prog.modify (Store.recordDebitAttempt false)
    Prog.modify (Store.addAlert (blockedAlert .critical .WALL_1_BANK request.requestId
      "Ghost-vend attempt blocked at Wall 1"
      ("The bank attestation failed independent signature verification (FR-3): forged or " ++
        "absent confirmation.") request.merchantId))
    reject rid .WALL_1_BANK "BANK_SIGNATURE_INVALID" request.merchantId
  else do
    Prog.modify (Store.recordDebitAttempt true)
    Prog.modify (Store.update rid fun r => { r with debit := some debit })
    claimDebit P env rid request debit

/-- The reason of a bank answer that is no confirmation. -/
def bankReason (r : HttpResult) : Except String String :=
  if r.status = 402 then do
    let reason ← (((r.body P).get? "reason").filter Json.truthy).mapM (·.toStr P.numeral)
    pure ("DEBIT_DECLINED" ++ (reason.map (": " ++ ·)).getD "")
  else if r.status = 504 then .ok "BANK_TIMEOUT"
  else .ok ("BANK_ERROR (" ++ toString r.status ++ ")")

/-- `debitRequest`, the body that the bank is sent. -/
def debitRequest (request : GenerationRequest) : Json :=
  object [("requestId", some (.str request.requestId)),
    ("merchantId", some (.str request.merchantId)), ("meterId", some (.str request.meterId)),
    ("amountKwh", some (.num (.fin request.amountKwh))),
    ("amount", some (.num (priceZar (.fin request.amountKwh)))),
    ("currency", some (.str CURRENCY))]

/-- Step 3: the bank confirms the debit, or the request is rejected. -/
def debit (request : GenerationRequest) : CoordinatorProg cfg Unit := do
  Prog.modify (Store.setStage rid .WALL_1_BANK)
  Prog.modify (Store.requestDebit rid (debitRequest request))
  let r : Option HttpResult ← Prog.call (CoordinatorCall.debit rid (debitRequest request))
  match r with
  | none => do
      Prog.modify (Store.recordDebitAttempt false)
      Prog.modify (Store.updateBankHealth false)
      Prog.modify (Store.addAlert (blockedAlert .warning .WALL_1_BANK request.requestId
        "Bank unreachable: blocked at Wall 1"
        "No confirmed debit could be obtained; without one no token can exist."
        request.merchantId))
      reject rid .WALL_1_BANK "BANK_UNREACHABLE" request.merchantId
  | some r => do
      Prog.modify (Store.updateBankHealth true)
      if !r.ok then do
        Prog.modify (Store.recordDebitAttempt false)
        let reason ← Prog.ofExcept (bankReason P r)
        Prog.modify (Store.addAlert (blockedAlert .critical .WALL_1_BANK request.requestId
          "Ghost-vend attempt blocked at Wall 1"
          ("The bank did not confirm the debit (" ++ reason ++ "). No funds moved; no token " ++
            "will ever exist for this request.") request.merchantId))
        reject rid .WALL_1_BANK reason request.merchantId
      else confirmed P env rid request (r.body P)

/-- Step 2: the quorum must be reachable before any money moves. -/
def preflight (request : GenerationRequest) : CoordinatorProg cfg Unit := do
  Prog.modify (Store.setStage rid .WALL_2_CONSORTIUM)
  let online ← pollOnlineActiveSigners P
  if online.length < cfg.t then do
    Prog.modify (Store.addAlert (blockedAlert .warning .WALL_2_CONSORTIUM request.requestId
      "Quorum unreachable: blocked at Wall 2 (no debit taken)"
      ("Only " ++ toString online.length ++ " of " ++ toString cfg.SIGNERS.length ++
        " consortium signers available; " ++ toString cfg.t ++
        " are required. The customer was not charged; no single insider can generate.")
      "consortium"))
    reject rid .WALL_2_CONSORTIUM (belowThreshold cfg online.length) "consortium"
  else debit P env rid request

/-- Step 1, the policy gate: the merchant must be known and not revoked. -/
def policyGate : CoordinatorProg cfg Unit := do
  let request := (← theRecord rid).request
  match ← Prog.gets (·.getMerchant request.merchantId) with
  | none => do
      Prog.modify (Store.addAlert (blockedAlert .warning .POLICY request.requestId
        "Unknown merchant blocked"
        ("Merchant " ++ request.merchantId ++
          " is not registered; request rejected before any funds movement.")
        request.merchantId))
      reject rid .POLICY ("UNKNOWN_MERCHANT (" ++ request.merchantId ++ ")") request.merchantId
  | some merchant =>
      if merchant.revoked then do
        Prog.modify (Store.addAlert (blockedAlert .warning .POLICY request.requestId
          "Revoked merchant blocked"
          ("Merchant " ++ merchant.name ++ " (" ++ request.merchantId ++
            ") is revoked; request rejected (FR-19).") request.merchantId))
        reject rid .POLICY ("MERCHANT_REVOKED (" ++ merchant.name ++ ")") request.merchantId
      else preflight P env rid request

/-- The catch-all around a run, by the stage that it had come to. -/
def backstop (err : String) : CoordinatorProg cfg Unit := do
  let record ← theRecord rid
  if record.status ∈ TERMINAL then pure ()
  else do
    let stage ← Prog.gets (·.stage rid)
    if truthy record.debit then abandon P rid stage ("INTERNAL_ERROR: " ++ err) "coordinator"
    else reject rid stage ("INTERNAL_ERROR: " ++ err) "coordinator"

/-- `runPipeline`: the steps from the policy gate to the delivery, each of which goes on to the
next. -/
def runPipeline : CoordinatorProg cfg Unit := do
  Prog.modify (Store.setStage rid .POLICY)
  (policyGate P env rid).tryCatch (backstop P rid)

end

end NoGhost
