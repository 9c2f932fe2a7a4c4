import NoGhost.Coordinator.Ceremony

/-!
# The Stages of a Run

What can be said of a record at each point of its run. The record and the entries of its run in
the histories are an `Account`, which no other run touches. A `Phase` says how far the run has
come, and what backs every field of the record that is set: a debit that verified, approvals
that were read, a token that verifies, a receipt that was accepted.

Evidence refers to the trace of the run, which only grows. What an answer tells about the state
in which it arrives is a parameter (`Outside`), so that a run may be embedded in a system with
other parties.

## Main definitions

* `Backed`, `At`: the evidence behind a record, by its place in the chain of statuses.
* `Phase`: the possible accounts.
* `Move`: what one write of a run does, to its account and to what all runs share.
-/

open Js Async

namespace NoGhost

variable {cfg : Config}

/-! ### Accounts -/

section Histories

variable {α : Type} {rid i : ℕ} {x : α} {l : List (ℕ × α)}

/-- The entries of one run in a history, in the order in which they were made. -/
def ofRun (rid : ℕ) (l : List (ℕ × α)) : List α := (l.filter (·.1 = rid)).map (·.2)

@[simp] theorem ofRun_nil : ofRun rid ([] : List (ℕ × α)) = [] := rfl

/-- A further entry of the run comes last among its own. -/
@[simp] theorem ofRun_concat_self : ofRun rid (l ++ [(rid, x)]) = ofRun rid l ++ [x] := by
  simp [ofRun, List.filter_append]

/-- A further entry of another run is none of its own. -/
theorem ofRun_concat_of_ne (h : i ≠ rid) : ofRun i (l ++ [(rid, x)]) = ofRun i l := by
  simp [ofRun, List.filter_append, h.symm]

/-- The entries of a run are those that bear its number. -/
theorem mem_ofRun : x ∈ ofRun rid l ↔ (rid, x) ∈ l := by
  simp [ofRun]

end Histories

/-- What a run has left in the histories: its calls of the bank, its receipts, its redemption and
its dispense. -/
structure Deeds where
  debits : List Json
  reversals : List String
  receipts : List String
  redemptions : List Token
  dispensed : List Token

/-- The deeds of a run that has not asked for its debit yet: nothing. -/
def Deeds.none : Deeds := ⟨[], [], [], [], []⟩

/-- The deeds of a run that has asked for its debit, which it does once, and whatever it has done of
the rest. -/
def Deeds.of (request : GenerationRequest) (reversal receipt : Option String)
    (redeemed dispensed : Option Token) : Deeds where
  debits := [debitRequest request]
  reversals := reversal.toList
  receipts := receipt.toList
  redemptions := redeemed.toList
  dispensed := dispensed.toList

/-- The record of a run, and its deeds, which together tell how far it has come. -/
structure Account (cfg : Config) where
  record : PipelineRecord cfg
  deeds : Deeds

/-- The deeds of the run on `rid`, read off the histories of the store. -/
def Store.deeds (s : Store cfg) (rid : ℕ) : Deeds where
  debits := ofRun rid s.debitRequests
  reversals := ofRun rid s.reversals
  receipts := ofRun rid s.receipts
  redemptions := ofRun rid s.redemptions
  dispensed := ofRun rid s.dispensed

/-- The account of the run on `rid` in a store. -/
def Store.account (s : Store cfg) (rid : ℕ) : Account cfg := ⟨s.heap rid, s.deeds rid⟩

/-- What belongs to no run: the tables that all runs share, without the records and the histories by
run. -/
structure Common (cfg : Config) where
  created : ℕ
  requests : JsMap String ℕ
  requestOrder : List String
  consumedDebitRefs : JsMap (Option Json) String
  meters : JsMap (Option Json) MeterState
  audit : List (LedgerRecord cfg)
  series : List ReconciliationPoint
  usedNonces : List String
  usedDebitRefs : List (Option Json)
  accepted : List (ℕ × String)
  debitRequests : List (ℕ × Json)
  reversals : List (ℕ × String)
  receipts : List (ℕ × String)
  redemptions : List (ℕ × Token)
  dispensed : List (ℕ × Token)

/-- The common part of a store, as a value of its own that a write is seen to leave alone. -/
def Store.common (s : Store cfg) : Common cfg where
  created := s.created
  requests := s.requests
  requestOrder := s.requestOrder
  consumedDebitRefs := s.consumedDebitRefs
  meters := s.meters
  audit := s.audit
  series := s.series
  usedNonces := s.usedNonces
  usedDebitRefs := s.usedDebitRefs
  accepted := s.accepted
  debitRequests := s.debitRequests
  reversals := s.reversals
  receipts := s.receipts
  redemptions := s.redemptions
  dispensed := s.dispensed

/-- Records and the common part stay: the write is about alerts, the bank's status, or `stage`. -/
structure Quiet (u u' : Store cfg) : Prop where
  heap : u'.heap = u.heap
  common : u'.common = u.common

/-- Only the record `rid` changes, to `r`; the others and the common part stay as they are. -/
structure Rewrites (rid : ℕ) (r : PipelineRecord cfg) (u u' : Store cfg) : Prop where
  own : u'.heap rid = r
  others : ∀ i ≠ rid, u'.heap i = u.heap i
  common : u'.common = u.common

/-! ### Evidence -/

/-- What a run sees of the world: what an answer tells about the state in which it arrives, and
what may happen to the state while the run is suspended. -/
structure Outside {σ : Type} (L : Lens σ (Store cfg)) where
  tells : (q : CoordinatorCall cfg) → q.Answer → σ → Prop
  moves : σ → σ → Prop
  tells_put : ∀ {q r s} (u : Store cfg), tells q r s → tells q r (L.put s u)

/-- The statuses of a request that is delivered, in the order in which it goes through them. -/
def CHAIN : List RequestStatus :=
  [.PENDING, .DEBIT_CONFIRMED, .PUBLISHED, .APPROVED, .SIGNED, .RECORDED, .DELIVERED]

section Evidence

variable {σ : Type} {L : Lens σ (Store cfg)} (P : Platform) (env : CoordinatorEnv cfg)
  (O : Outside L) (rid : ℕ)

/-- An answer that the run got, and that the world outside stands for. -/
def Outside.Heard (t : CoordinatorTrace σ cfg) (q : CoordinatorCall cfg) (r : q.Answer) : Prop :=
  .answered q r ∈ t ∧ ∃ s, O.tells q r s

/-- A confirmation of the bank that passes the check of the coordinator. -/
def Confirms (request : GenerationRequest) (answer : Option HttpResult) : Prop :=
  ∃ r, answer = some r ∧ r.ok = true ∧ verifyAttestation P env (r.body P) = true ∧
    strictEq ((r.body P).get? "requestId") (some (.str request.requestId)) = true

/-- The debit of a record is what the bank confirmed: the answer to its own debit request, which
verified as the confirmation of its request. -/
structure Debited (t : CoordinatorTrace σ cfg) (request : GenerationRequest) (d : Json) : Prop where
  heard : ∃ r : HttpResult, O.Heard t (.debit rid (debitRequest request)) (some r) ∧
    r.ok = true ∧ r.body P = d
  verified : verifyAttestation P env d = true
  requestId : d.get? "requestId" = some (.str request.requestId)

/-- The approvals of a record were read off the ledger, in an answer that the run has heard, and are
enough for the quorum. -/
structure Approved (t : CoordinatorTrace σ cfg) (requestHash : String)
    (approvals : List (ApprovalRecord cfg)) : Prop where
  read : ∃ M txs, env.manifest = .ok M ∧ O.Heard t (.accountTx M.authority) (.ok txs) ∧
    readApprovals P M requestHash txs = .ok approvals
  quorum : cfg.XRPL_MULTISIGN_QUORUM ≤ approveCount approvals

/-- The message of a token: the canonical bytes of its payload, which the signers sign. -/
def TokenPayload.message (p : TokenPayload) : Bytes := canonicalBytes P (some p.toJson)

/-- The token of a record is the one its debit authorises, and `cfg.t` members of the registry
sent partial signatures for it that verified. -/
structure Signed (t : CoordinatorTrace σ cfg) (r : PipelineRecord cfg) (token : Token)
    (signerSet : List cfg.SignerId) : Prop where
  payload : buildTokenPayload P r.debit = .ok token.toTokenPayload
  verified : Frost.verifySignature P.toCurve token.signature (token.message P)
    env.GROUP.groupPublicKey = true
  ceremony : ∃ chosen commitments shares, signerSet = chosen.map (·.signerId) ∧
    chosen.length = cfg.t ∧ chosen.Nodup ∧ (∀ i ∈ chosen, i ∈ cfg.SIGNERS) ∧
    List.Forall₂ (Kept P env t (round2Req r token.toTokenPayload
      (bytesToHex (token.message P)) commitments) commitments (token.message P)) chosen shares

/-- The receipt of a record was accepted by the ledger, and is about its own request, its own debit
and its own token. -/
structure Recorded (t : CoordinatorTrace σ cfg) (r : PipelineRecord cfg)
    (ledger : LedgerRecord cfg) : Prop where
  accepted : ∃ fragments, O.Heard t (.submitReceipt fragments) (.ok ledger.txHash)
  requestHash : ledger.requestHash = hashValue P (some r.request.toJson)
  debitRefHash : ∃ ref, prop? r.debit "debitRef" = some (.str ref) ∧
    ledger.debitRefHash = sha256HexStr P ref
  tokenHash : ∃ token, r.token = some token ∧ ledger.tokenHash = hashValue P (some token.toJson)

/-- The evidence behind a record that has come to the place `k` of the chain: the debit, and from
the places on at which they are made the publication, the approvals, the token and the receipt. -/
structure Backed (k : ℕ) (t : CoordinatorTrace σ cfg) (r : PipelineRecord cfg) : Prop where
  debited : ∃ d, r.debit = some d ∧ Debited P env O rid t r.request d
  published : 2 ≤ k → ∃ p, r.publication = some p ∧
    p.requestHash = hashValue P (some r.request.toJson)
  approved : 3 ≤ k → ∃ approvals, r.approvals = some approvals ∧
    Approved P env O t (hashValue P (some r.request.toJson)) approvals
  signed : 4 ≤ k → ∃ token signerSet, r.token = some token ∧ r.signerSet = some signerSet ∧
    Signed P env t r token signerSet
  unsigned : k < 4 → r.token = none
  recorded : 5 ≤ k → ∃ ledger, r.ledger = some ledger ∧ Recorded P O t r ledger
  unrecorded : k < 5 → r.ledger = none

/-- A record at the place `k` of the chain, with the evidence for every step up to it. -/
structure At (k : ℕ) (t : CoordinatorTrace σ cfg) (r : PipelineRecord cfg) : Prop where
  backed : Backed P env O rid k t r
  status : CHAIN[k]? = some r.status
  statuses : r.statuses = CHAIN.take (k + 1)

/-- A record before its debit: it is pending, and nothing of what the later steps assign is there.
-/
structure Unpaid (r : PipelineRecord cfg) : Prop where
  status : r.status = .PENDING
  statuses : r.statuses = [.PENDING]
  debit : r.debit = none
  token : r.token = none
  ledger : r.ledger = none

/-- The text of the debit reference in the path of the reverse call. -/
def ReverseRef (r : PipelineRecord cfg) (ref : String) : Prop :=
  truthy (prop? r.debit "debitRef") = true ∧ toStr P.numeral (prop? r.debit "debitRef") = .ok ref

/-- What the histories may hold of a run with a debit, at the place `k`: how far it may have come
with reversal, receipt, redemption and dispense. -/
structure Fits (k : ℕ) (r : PipelineRecord cfg) (reversal receipt : Option String)
    (redeemed dispensed : Option Token) : Prop where
  of_reversal : ∀ ref, reversal = some ref → k ≤ 5 ∧ ReverseRef P r ref
  receipt_eq : 5 ≤ k → receipt = r.ledger.map (·.txHash)
  receipt_none : k < 4 → receipt = none
  redeemed_eq : redeemed = none ∨ redeemed = r.token ∧ 5 ≤ k
  dispensed_eq : dispensed = none ∨ dispensed = r.token ∧ redeemed = r.token ∧ 5 ≤ k ∧
    reversal = none
  delivered_eq : k = 6 → dispensed = r.token

/-- Why the meter refuses or fails: the debit was redeemed for another run when this one was
resumed, or the amount cannot be added. -/
inductive Late (t : CoordinatorTrace σ cfg) : Prop
  | overtaken {s s' : σ} {payload : TokenPayload} (hmoves : O.moves s s')
      (haccount : (L.view s').account rid = (L.view s).account rid)
      (hstatus : ((L.view s).heap rid).status = .APPROVED ∨ ((L.view s).heap rid).status = .SIGNED)
      (hunredeemed : ((L.view s).deeds rid).redemptions = [])
      (hpayload : buildTokenPayload P ((L.view s).heap rid).debit = .ok payload)
      (hspent : (L.view s').redeemed payload = true)
  | unaddable {request : GenerationRequest} {d : Json} {token : TokenPayload} {balance : Number}
      {e : String} (hdebited : Debited P env O rid t request d)
      (htoken : buildTokenPayload P (some d) = .ok token)
      (hbalance : Store.newBalance P.numeral balance token.amountKwh = .error e)

/-- Why a run is abandoned after the signature: its receipt could not be prepared, signed or
submitted, or its token was refused at the meter. -/
inductive Cause (t : CoordinatorTrace σ cfg) : Prop
  | unhashable {request : GenerationRequest} {d : Json} {e : String}
      (hdebited : Debited P env O rid t request d)
      (h : sha256HexOf P (d.get? "debitRef") = .error e)
  | prepare {tx : Tx} {quorum : ℕ} {e : String}
      (h : .answered (.prepare tx quorum) (.error e) ∈ t)
  | fragment {signer : SignerInfo cfg.SignerId} {body : Json} {answer : Option HttpResult}
      {e : String} (h : .answered (.signReceipt signer body) answer ∈ t)
      (hfragment : fragmentOf P signer.signerId answer = .error e)
  | submit {fragments : List String} {e : String}
      (h : .answered (.submitReceipt fragments) (.error e) ∈ t)
  | late (h : Late P env O rid t)

/-- How the reversal of an abandoned record came out: it was not asked for, or the bank was asked
and the record says what it answered. -/
inductive Reversal (t : CoordinatorTrace σ cfg) (r : PipelineRecord cfg) : Option String → Prop
  | unasked (h : ∀ ref, ¬ ReverseRef P r ref) (hreversed : r.debitReversed = some false) :
      Reversal t r none
  | asked {ref : String} {answer : Option HttpResult} (h : ReverseRef P r ref)
      (heard : O.Heard t (.reverse rid ref) answer)
      (hreversed : r.debitReversed = some (answer.any (·.ok))) : Reversal t r (some ref)

/-- **The accounts a run may have**: from the record that nothing was done of, over the places of
the chain, to the ends at which it is rejected, abandoned or delivered. -/
inductive Phase (t : CoordinatorTrace σ cfg) (r : PipelineRecord cfg) : Deeds → Prop
  | idle (h : Unpaid r) : Phase t r .none
  | asked (h : Unpaid r) : Phase t r (.of r.request none none none none)
  | running {k : ℕ} {reversal receipt : Option String} {redeemed dispensed : Option Token}
      (h : At P env O rid k t r) (hfits : Fits P k r reversal receipt redeemed dispensed) :
      Phase t r (.of r.request reversal receipt redeemed dispensed)
  | rejected {e : Deeds} (hstatus : r.status = .REJECTED)
      (hstatuses : r.statuses = [.PENDING, .REJECTED]) (htoken : r.token = none)
      (hledger : r.ledger = none) (he : e = .none ∨ e = .of r.request none none none none) :
      Phase t r e
  | abandoned {k : ℕ} {reversal receipt : Option String} {redeemed : Option Token}
      (h : Backed P env O rid k t r) (hk : k ≤ 5) (hstatus : r.status = .REJECTED_ABANDONED)
      (hstatuses : r.statuses = CHAIN.take (k + 1) ++ [.REJECTED_ABANDONED])
      (hfits : Fits P k r reversal receipt redeemed none)
      (hreversal : Reversal P O rid t r reversal)
      (hcause : 4 ≤ k → Cause P env O rid t) :
      Phase t r (.of r.request reversal receipt redeemed none)


/-! ### Moves -/

/-- The debit of a record is registered as consumed by its request, if it can be looked up. -/
def Claimed (u : Store cfg) (r : PipelineRecord cfg) : Prop :=
  ∀ d, r.debit = some d → (d.get? "debitRef" == d.get? "debitRef") = true →
    u.consumedDebitRefs.get (d.get? "debitRef") = some r.request.requestId

/-- The coordinator acts on the debit of the account: it has confirmed the debit, or has asked for
its reversal. -/
def Account.Charged (a : Account cfg) : Prop :=
  (a.record.status ≠ .PENDING ∧ a.record.status ≠ .REJECTED) ∨ a.deeds.reversals ≠ []

/-- Why a record may be rejected: the bank was not asked, its answer confirms nothing, or the
confirmed debit was claimed before. -/
inductive Refused (s : σ) (a : Account cfg) : Prop
  | unasked (h : a.deeds.debits = [])
  | unconfirmed {answer : Option HttpResult}
      (heard : O.tells (.debit rid (debitRequest a.record.request)) answer s)
      (h : ¬ Confirms P env a.record.request answer)
  | consumed {answer : HttpResult} {owner : String}
      (heard : O.tells (.debit rid (debitRequest a.record.request)) (some answer) s)
      (h : Confirms P env a.record.request (some answer))
      (howner : (L.view s).consumedDebitRefs.get ((answer.body P).get? "debitRef") = some owner)
      (hne : owner ≠ a.record.request.requestId)

/-- What a write does to the part that belongs to no run: nothing, or one of the few writes that the
pipeline makes to the shared tables. -/
inductive Effect (u u' : Store cfg) : Prop
  | still (hledger : (u'.heap rid).ledger = (u.heap rid).ledger) (h : u'.common = u.common)
  | ask (body : Json) (h : u' = u.requestDebit rid body)
  | claim {d : Json} (hdebit : (u.heap rid).debit = some d)
      (h : u.claimDebitRef (d.get? "debitRef") (u.heap rid).request.requestId = (none, u'))
  | receive (txHash : String) (h : u' = u.receive rid txHash)
  | record {ledger : LedgerRecord cfg} (hbefore : (u.heap rid).ledger = none)
      (hafter : (u'.heap rid).ledger = some ledger)
      (h : u'.common = { u.common with audit := ledger :: u.audit })
  | redeem {token : Token} (htoken : (u.heap rid).token = some token)
      (hfresh : u.redeemed token.toTokenPayload = false) (h : u' = u.redeem rid token)
  | meter (meterId : Option Json) (h : u' = u.ensureMeter meterId)
  | credit {token : Token} {balance : Number} (htoken : (u.heap rid).token = some token)
      (hredeemed : (rid, token) ∈ u.redemptions) (h : u' = u.credit rid token balance)
  | deliver {now : String} (hstatus : (u'.heap rid).status = .DELIVERED)
      (hledger : (u'.heap rid).ledger = (u.heap rid).ledger)
      (h : u'.common = { u.common with series :=
        let counts := u'.computeReconciliation
        let series := u.series ++
          [⟨now, counts.tokensIssued, counts.confirmedDebits, counts.onChainRecords⟩]
        if series.length > SERIES_CAP then series.tail else series })
  | reverse {ref : String} (href : ReverseRef P (u.heap rid) ref)
      (h : u' = u.requestReversal rid ref)

/-- The bank has just confirmed the debit of a request with the answer that the record keeps. -/
def Pays (s : σ) (request : GenerationRequest) (debit : Option Json) : Prop :=
  ∃ answer : HttpResult, O.tells (.debit rid (debitRequest request)) (some answer) s ∧
    Confirms P env request (some answer) ∧ debit = some (answer.body P)

/-- A write of the run on `rid`, which has not come to its end: its account goes from one phase to
another, and the accounts of the others stay. -/
structure Move (t : CoordinatorTrace σ cfg) (s : σ) (u u' : Store cfg) : Prop where
  alive : (u.heap rid).status ∉ TERMINAL
  others : ∀ i ≠ rid, u'.account i = u.account i
  request : (u'.heap rid).request = (u.heap rid).request
  phase : Phase P env O rid t (u'.heap rid) (u'.deeds rid)
  effect : Effect P rid u u'
  paid : (u'.heap rid).debit = (u.heap rid).debit ∨ (u.heap rid).debit = none ∧
    Pays P env O rid s (u.heap rid).request (u'.heap rid).debit
  refused : (u'.heap rid).status = .REJECTED →
    (u.heap rid).status = .REJECTED ∨ Refused P env O rid s (u.account rid)
  claimed : (u'.account rid).Charged → (u.account rid).Charged ∨ Claimed u' (u'.heap rid)

/-- The rules of a run: the others leave its account alone, and every write is a move. It is
suspended only while nothing is dispensed, and while no receipt is accepted that it will not
deliver. -/
def walkRules : Rules σ (CoordinatorCall cfg) CoordinatorCall.Answer where
  resume q s r s' := O.tells q r s' ∧ O.moves s s' ∧
    (L.view s').account rid = (L.view s).account rid
  gua t s s' := ∃ u', s' = L.put s u' ∧ Move P env O rid t s (L.view s) u'
  rest t s := ((L.view s).deeds rid).dispensed = [] ∧
    (((L.view s).deeds rid).receipts = [] ∨ Late P env O rid t)

end Evidence

/-! ### Evidence lasts -/

section Mono

variable {σ : Type} {L : Lens σ (Store cfg)} {P : Platform} {env : CoordinatorEnv cfg}
  {O : Outside L} {rid k : ℕ} {t t' : CoordinatorTrace σ cfg} {r r' : PipelineRecord cfg}

/-- What was heard once stays heard as the trace grows. -/
theorem Outside.Heard.mono {q : CoordinatorCall cfg} {a : q.Answer} (h : O.Heard t q a)
    (ht : t <+: t') : O.Heard t' q a := ⟨ht.subset h.1, h.2⟩

/-- The evidence for a debit stays as the trace grows. -/
theorem Debited.mono {request : GenerationRequest} {d : Json}
    (h : Debited P env O rid t request d) (ht : t <+: t') : Debited P env O rid t' request d := by
  obtain ⟨answer, hheard, hok, hbody⟩ := h.heard
  exact ⟨⟨answer, hheard.mono ht, hok, hbody⟩, h.verified, h.requestId⟩

/-- The evidence for the approvals stays as the trace grows. -/
theorem Approved.mono {requestHash : String} {approvals : List (ApprovalRecord cfg)}
    (h : Approved P env O t requestHash approvals) (ht : t <+: t') :
    Approved P env O t' requestHash approvals := by
  obtain ⟨M, txs, hM, hheard, hread⟩ := h.read
  exact ⟨⟨M, txs, hM, hheard.mono ht, hread⟩, h.quorum⟩

/-- The evidence for the token stays as the trace grows. -/
theorem Signed.mono {token : Token} {signerSet : List cfg.SignerId}
    (h : Signed P env t r token signerSet) (ht : t <+: t') : Signed P env t' r token signerSet := by
  obtain ⟨chosen, commitments, shares, hset, hlen, hnodup, hmem, hkept⟩ := h.ceremony
  exact ⟨h.payload, h.verified, chosen, commitments, shares, hset, hlen, hnodup, hmem,
    hkept.imp fun _ _ hk => hk.mono ht⟩

/-- The evidence for the receipt stays as the trace grows. -/
theorem Recorded.mono {ledger : LedgerRecord cfg} (h : Recorded P O t r ledger) (ht : t <+: t') :
    Recorded P O t' r ledger := by
  obtain ⟨fragments, hheard⟩ := h.accepted
  exact ⟨⟨fragments, hheard.mono ht⟩, h.requestHash, h.debitRefHash, h.tokenHash⟩

/-- All the evidence that a place of the chain asks for stays as the trace grows. -/
theorem Backed.mono (h : Backed P env O rid k t r) (ht : t <+: t') :
    Backed P env O rid k t' r where
  debited := by
    obtain ⟨d, hd, hdebited⟩ := h.debited
    exact ⟨d, hd, hdebited.mono ht⟩
  published := h.published
  approved hk := by
    obtain ⟨approvals, ha, happroved⟩ := h.approved hk
    exact ⟨approvals, ha, happroved.mono ht⟩
  signed hk := by
    obtain ⟨token, signerSet, htoken, hset, hsigned⟩ := h.signed hk
    exact ⟨token, signerSet, htoken, hset, hsigned.mono ht⟩
  unsigned := h.unsigned
  recorded hk := by
    obtain ⟨ledger, hledger, hrecorded⟩ := h.recorded hk
    exact ⟨ledger, hledger, hrecorded.mono ht⟩
  unrecorded := h.unrecorded

/-- A record stays at its place as the trace grows. -/
theorem At.mono (h : At P env O rid k t r) (ht : t <+: t') : At P env O rid k t' r :=
  ⟨h.backed.mono ht, h.status, h.statuses⟩

/-- The reason for a late end stays a reason as the trace grows. -/
theorem Late.mono (h : Late P env O rid t) (ht : t <+: t') : Late P env O rid t' := by
  cases h with
  | overtaken hmoves haccount hstatus hunredeemed hpayload hspent =>
      exact .overtaken hmoves haccount hstatus hunredeemed hpayload hspent
  | unaddable hdebited htoken hbalance => exact .unaddable (hdebited.mono ht) htoken hbalance

/-- The cause of an end stays a cause as the trace grows. -/
theorem Cause.mono (h : Cause P env O rid t) (ht : t <+: t') : Cause P env O rid t' := by
  cases h with
  | unhashable hdebited h => exact .unhashable (hdebited.mono ht) h
  | prepare h => exact .prepare (ht.subset h)
  | fragment h hfragment => exact .fragment (ht.subset h) hfragment
  | submit h => exact .submit (ht.subset h)
  | late h => exact .late (h.mono ht)

/-- **Evidence is never lost**: a phase of a run is one in every longer trace. -/
theorem Phase.mono {e : Deeds} (h : Phase P env O rid t r e) (ht : t <+: t') :
    Phase P env O rid t' r e := by
  cases h with
  | idle h => exact .idle h
  | asked h => exact .asked h
  | running h hfits => exact .running (h.mono ht) hfits
  | rejected hstatus hstatuses htoken hledger he =>
      exact .rejected hstatus hstatuses htoken hledger he
  | abandoned h hk hstatus hstatuses hfits hreversal hcause =>
      refine .abandoned (h.mono ht) hk hstatus hstatuses hfits ?_ fun h4 => (hcause h4).mono ht
      cases hreversal with
      | unasked h hreversed => exact .unasked h hreversed
      | asked h heard hreversed => exact .asked h (heard.mono ht) hreversed

/-- The evidence is about seven fields of the record, so it holds of every record with the same
seven. -/
theorem Backed.congr (h : Backed P env O rid k t r) (hrequest : r'.request = r.request)
    (hdebit : r'.debit = r.debit) (hpublication : r'.publication = r.publication)
    (happrovals : r'.approvals = r.approvals) (hset : r'.signerSet = r.signerSet)
    (htoken : r'.token = r.token) (hledger : r'.ledger = r.ledger) :
    Backed P env O rid k t r' := by
  obtain ⟨request, status, history, debit, reversed, publication, approvals, signerSet, token,
    ledger, rejection, delivery⟩ := r
  obtain ⟨request', status', history', debit', reversed', publication', approvals', signerSet',
    token', ledger', rejection', delivery'⟩ := r'
  simp only at hrequest hdebit hpublication happrovals hset htoken hledger
  subst hrequest hdebit hpublication happrovals hset htoken hledger
  exact ⟨h.debited, h.published, h.approved, fun hk => by
    obtain ⟨token, signerSet, htoken, hset, hpayload, hverified, hceremony⟩ := h.signed hk
    exact ⟨token, signerSet, htoken, hset, hpayload, hverified, hceremony⟩, h.unsigned, fun hk => by
    obtain ⟨ledger, hledger, haccepted, hhash, href, htoken⟩ := h.recorded hk
    exact ⟨ledger, hledger, haccepted, hhash, href, htoken⟩, h.unrecorded⟩

end Mono

/-! ### What a token says of its debit -/

section Payload

variable {P : Platform}

/-- A token payload that is built has the fields of the debit it is built from. -/
theorem buildTokenPayload_ok {d : Json} {payload : TokenPayload}
    (h : buildTokenPayload P (some d) = .ok payload) :
    payload.meterId = d.get? "meterId" ∧ payload.amountKwh = d.get? "amountKwh" ∧
      payload.debitRef = d.get? "debitRef" := by
  obtain ⟨meterId, hmeter, h⟩ := bind_eq_ok.mp h
  obtain ⟨amountKwh, hamount, h⟩ := bind_eq_ok.mp h
  obtain ⟨debitRef, href, h⟩ := bind_eq_ok.mp h
  obtain ⟨nonce, -, h⟩ := bind_eq_ok.mp h
  rw [← Except.ok.inj h]
  exact ⟨prop_ok hmeter, prop_ok hamount, prop_ok href⟩

/-- The nonce of a token payload is the one derived from its debit reference. -/
theorem buildTokenPayload_nonce {d : Json} {payload : TokenPayload}
    (h : buildTokenPayload P (some d) = .ok payload) :
    deriveTokenNonce P payload.debitRef = .ok payload.nonce := by
  obtain ⟨meterId, -, h⟩ := bind_eq_ok.mp h
  obtain ⟨amountKwh, -, h⟩ := bind_eq_ok.mp h
  obtain ⟨debitRef, -, h⟩ := bind_eq_ok.mp h
  obtain ⟨nonce, hnonce, h⟩ := bind_eq_ok.mp h
  rw [← Except.ok.inj h]
  exact hnonce

end Payload

/-! ### Accounts after an update -/

section Updates

variable {u u₁ u₂ : Store cfg} {rid i : ℕ} {r r' : PipelineRecord cfg}

/-- What was done of each record is in the common part. -/
theorem Store.deeds_of_common (h : u₁.common = u.common) (i : ℕ) : u₁.deeds i = u.deeds i := by
  simp only [Store.common, Common.mk.injEq] at h
  obtain ⟨-, -, -, -, -, -, -, -, -, -, hdebits, hreversals, hreceipts, hredemptions, hdispensed⟩ :=
    h
  simp only [Store.deeds, hdebits, hreversals, hreceipts, hredemptions, hdispensed]

/-- What a token is checked against at the meter is in the common part. -/
theorem Store.redeemed_of_common (h : u₁.common = u.common) (p : TokenPayload) :
    u₁.redeemed p = u.redeemed p := by
  have hnonces : u₁.usedNonces = u.usedNonces := congrArg Common.usedNonces h
  have hrefs : u₁.usedDebitRefs = u.usedDebitRefs := congrArg Common.usedDebitRefs h
  rw [Store.redeemed, Store.redeemed, hnonces, hrefs]

/-- What the system does in the background leaves every account alone. -/
theorem Quiet.account (h : Quiet u u₁) (i : ℕ) : u₁.account i = u.account i := by
  rw [Store.account, Store.account, h.heap, Store.deeds_of_common h.common]

/-- A rewritten record has its deeds as before. -/
theorem Rewrites.account_self (h : Rewrites rid r u u₁) : u₁.account rid = ⟨r, u.deeds rid⟩ := by
  rw [Store.account, h.own, Store.deeds_of_common h.common]

/-- The other accounts stay as they are. -/
theorem Rewrites.account_of_ne (h : Rewrites rid r u u₁) (hi : i ≠ rid) :
    u₁.account i = u.account i := by
  rw [Store.account, Store.account, h.others i hi, Store.deeds_of_common h.common]

/-- Two rewrites of one record are one, to the later value. -/
theorem Rewrites.trans (h : Rewrites rid r u u₁) (h' : Rewrites rid r' u₁ u₂) :
    Rewrites rid r' u u₂ :=
  ⟨h'.own, fun i hi => (h'.others i hi).trans (h.others i hi), h'.common.trans h.common⟩

/-- A rewrite after something quiet is a rewrite. -/
theorem Quiet.rewrites (h : Quiet u u₁) (h' : Rewrites rid r u₁ u₂) : Rewrites rid r u u₂ :=
  ⟨h'.own, fun i hi => (h'.others i hi).trans (congrFun h.heap i), h'.common.trans h.common⟩

/-- An assignment to fields of a record rewrites it. -/
theorem rewrites_update (rid : ℕ) (f : PipelineRecord cfg → PipelineRecord cfg) (u : Store cfg) :
    Rewrites rid (f (u.heap rid)) u (u.update rid f) :=
  ⟨Function.update_self .., fun _ hi => Function.update_of_ne hi .., rfl⟩

/-- A broadcast after a rewrite changes nothing of it. -/
theorem Rewrites.broadcast (h : Rewrites rid r u u₁) (ev : Broadcast cfg) :
    Rewrites rid r u (u₁.broadcast ev) := ⟨h.own, h.others, h.common⟩

/-- `onTerminal` up to its broadcast: a delivery is a point in the series. -/
def Store.withPoint (status : RequestStatus) (u : Store cfg) : Store cfg :=
  if status = .DELIVERED then
    let counts := u.computeReconciliation
    let series := u.series ++
      [⟨u.now, counts.tokensIssued, counts.confirmedDebits, counts.onChainRecords⟩]
    { u with series := if series.length > SERIES_CAP then series.tail else series }
  else u

/-- A point on the series changes the series alone. -/
theorem withPoint_eq (status : RequestStatus) (u : Store cfg) :
    u.withPoint status = { u with series := (u.withPoint status).series } := by
  rw [Store.withPoint]
  split <;> rfl

/-- The broadcast of `onTerminal`: the reconciliation with the new point on its series. -/
def Store.counted (status : RequestStatus) (u : Store cfg) : Store cfg :=
  (u.withPoint status).broadcast
    (.reconciliation { u.computeReconciliation with series := (u.withPoint status).series })

/-- The count changes the series, and adds one broadcast. -/
theorem counted_eq (status : RequestStatus) (u : Store cfg) :
    u.counted status = { u with
      series := (u.withPoint status).series
      broadcasts := u.broadcasts ++ [.reconciliation
        { u.computeReconciliation with series := (u.withPoint status).series }] } := by
  conv_lhs => rw [Store.counted, withPoint_eq]
  rfl

/-- The rest of `onTerminal`: an alert where the books differ by another amount than at the last
end. -/
theorem onTerminal_eq (status : RequestStatus) (u : Store cfg) : u.onTerminal status =
    { (if u.computeReconciliation.delta ≠ 0 ∧ u.computeReconciliation.delta ≠ u.lastDelta then
        (u.counted status).addAlert (Store.divergenceAlert u.computeReconciliation)
      else u.counted status) with lastDelta := u.computeReconciliation.delta } := by
  have hdelta : (u.counted status).lastDelta = u.lastDelta := by rw [counted_eq]
  rw [← hdelta]
  rfl

/-- The end of a record that is not delivered shows in no account and in no shared table that the
books are about. -/
theorem quiet_onTerminal {status : RequestStatus} (h : status ≠ .DELIVERED) (u : Store cfg) :
    Quiet u (u.onTerminal status) := by
  rw [onTerminal_eq, counted_eq, Store.withPoint, if_neg h]
  split <;> exact ⟨rfl, rfl⟩

/-- `transition` up to its broadcast: the record with its new status, and the update that is sent.
-/
def Store.announce (rid : ℕ) (status : RequestStatus) (note : String) (u : Store cfg) :
    Store cfg :=
  (u.update rid (Store.moved status u.now note)).broadcast
    (.requestUpdated ((u.update rid (Store.moved status u.now note)).heap rid))

/-- The two parts of `transition`: the announcement, and at an end the count. -/
theorem transition_eq (rid : ℕ) (status : RequestStatus) (note : String) (u : Store cfg) :
    u.transition rid status note =
      if status ∈ TERMINAL then (u.announce rid status note).onTerminal status
      else u.announce rid status note := rfl

/-- The announcement of a new status rewrites the record. -/
theorem rewrites_announce (rid : ℕ) (status : RequestStatus) (note : String) (u : Store cfg) :
    Rewrites rid (Store.moved status u.now note (u.heap rid)) u (u.announce rid status note) :=
  (rewrites_update rid (Store.moved status u.now note) u).broadcast _

/-- A transition moves the record on; only the last one of a delivery does more. -/
theorem rewrites_transition {status : RequestStatus} (h : status ≠ .DELIVERED) (rid : ℕ)
    (note : String) (u : Store cfg) :
    Rewrites rid (Store.moved status u.now note (u.heap rid)) u
      (u.transition rid status note) := by
  have hupdate := rewrites_announce rid status note u
  rw [transition_eq]
  split
  · have hq := quiet_onTerminal h (u.announce rid status note)
    exact ⟨(congrFun hq.heap rid).trans hupdate.own,
      fun i hi => (congrFun hq.heap i).trans (hupdate.others i hi), hq.common.trans hupdate.common⟩
  · exact hupdate

/-- The fields that a step sets, and its transition, are one rewrite of the record, except at a
delivery. -/
theorem rewrites_step {status : RequestStatus} (h : status ≠ .DELIVERED) (rid : ℕ) (note : String)
    (f : PipelineRecord cfg → PipelineRecord cfg) (u : Store cfg) :
    Rewrites rid (Store.moved status u.now note (f (u.heap rid))) u
      (Store.transition rid status note (u.update rid f)) := by
  have hupdate := rewrites_update rid f u
  have hmoved := rewrites_transition h rid note (u.update rid f)
  rw [hupdate.own] at hmoved
  exact hupdate.trans hmoved

/-- The last transition of a delivery puts a point on the series, and else rewrites the record. -/
theorem transition_delivered (rid : ℕ) (note : String) (u : Store cfg) :
    let u' := u.transition rid .DELIVERED note
    u'.heap rid = Store.moved .DELIVERED u.now note (u.heap rid) ∧
      (∀ i ≠ rid, u'.heap i = u.heap i) ∧
      u'.common = { u.common with series :=
        let counts := u'.computeReconciliation
        let series := u.series ++
          [⟨u.now, counts.tokensIssued, counts.confirmedDebits, counts.onChainRecords⟩]
        if series.length > SERIES_CAP then series.tail else series } := by
  have hupdate := rewrites_announce rid .DELIVERED note u
  set u₁ := u.announce rid .DELIVERED note with hu₁
  have hterminal : u.transition rid .DELIVERED note = u₁.onTerminal .DELIVERED := rfl
  rw [hterminal, onTerminal_eq, counted_eq, Store.withPoint, if_pos rfl]
  split <;> exact ⟨hupdate.own, hupdate.others, rfl⟩

/-- A claim is refused because of another request, or it registers the debit. -/
theorem claimDebitRef_cases (ref : Option Json) (requestId : String) (u : Store cfg) :
    (∃ owner, u.claimDebitRef ref requestId = (some owner, u) ∧
        u.consumedDebitRefs.get ref = some owner ∧ owner ≠ "" ∧ owner ≠ requestId) ∨
      u.claimDebitRef ref requestId =
        (none, { u with consumedDebitRefs := u.consumedDebitRefs.set ref requestId }) ∧
      ∀ owner, u.consumedDebitRefs.get ref = some owner → owner = "" ∨ owner = requestId := by
  rw [Store.claimDebitRef]
  split
  next owner howner =>
    rw [truthyText, Option.filter_eq_some_iff] at howner
    obtain ⟨hget, hne⟩ := howner
    split
    next h => exact .inl ⟨owner, rfl, hget, by simpa using hne, h⟩
    next h =>
      exact .inr ⟨rfl, fun owner' h' => .inr (Option.some.inj (hget.symm.trans h') ▸ not_not.mp h)⟩
  next hnone =>
    refine .inr ⟨rfl, fun owner howner => .inl ?_⟩
    rw [howner] at hnone
    by_contra hne
    rw [truthyText_of_ne hne] at hnone
    cases hnone

@[simp] theorem statuses_moved (status : RequestStatus) (now note : String)
    (r : PipelineRecord cfg) :
    (Store.moved status now note r).statuses = r.statuses ++ [status] := by
  simp [PipelineRecord.statuses, Store.moved]

section Entries

variable (u : Store cfg) (rid : ℕ)

/-- The history of debit requests is that of the account. -/
theorem account_requestDebit (body : Json) : (u.requestDebit rid body).account rid =
    ⟨u.heap rid, { u.deeds rid with debits := (u.deeds rid).debits ++ [body] }⟩ := by
  simp [Store.account, Store.deeds, Store.requestDebit]

/-- The history of reversals is that of the account. -/
theorem account_requestReversal (ref : String) : (u.requestReversal rid ref).account rid =
    ⟨u.heap rid, { u.deeds rid with reversals := (u.deeds rid).reversals ++ [ref] }⟩ := by
  simp [Store.account, Store.deeds, Store.requestReversal]

/-- The history of receipts is that of the account. -/
theorem account_receive (txHash : String) : (u.receive rid txHash).account rid =
    ⟨u.heap rid, { u.deeds rid with receipts := (u.deeds rid).receipts ++ [txHash] }⟩ := by
  simp [Store.account, Store.deeds, Store.receive]

/-- The history of redemptions is that of the account. -/
theorem account_redeem (token : Token) : (u.redeem rid token).account rid =
    ⟨u.heap rid, { u.deeds rid with redemptions := (u.deeds rid).redemptions ++ [token] }⟩ := by
  simp [Store.account, Store.deeds, Store.redeem]

/-- The history of dispenses is that of the account. -/
theorem account_credit (token : Token) (balance : Number) :
    (u.credit rid token balance).account rid =
      ⟨u.heap rid, { u.deeds rid with dispensed := (u.deeds rid).dispensed ++ [token] }⟩ := by
  simp [Store.account, Store.deeds, Store.credit, Store.broadcast]

/-- A meter that is put into service is in no account. -/
theorem account_ensureMeter (meterId : Option Json) :
    (u.ensureMeter meterId).account i = u.account i := by
  rw [Store.ensureMeter]
  split <;> rfl

/-- What a run adds to a history is no other run's, so the accounts of the others stay. -/
theorem account_entries_of_ne {rid : ℕ} (h : i ≠ rid) :
    (∀ body, (u.requestDebit rid body).account i = u.account i) ∧
      (∀ ref, (u.requestReversal rid ref).account i = u.account i) ∧
      (∀ txHash, (u.receive rid txHash).account i = u.account i) ∧
      (∀ token, (u.redeem rid token).account i = u.account i) ∧
      ∀ token balance, (u.credit rid token balance).account i = u.account i := by
  simp [Store.account, Store.deeds, Store.requestDebit, Store.requestReversal, Store.receive,
    Store.redeem, Store.credit, Store.broadcast, ofRun_concat_of_ne h]

end Entries

end Updates

end NoGhost
