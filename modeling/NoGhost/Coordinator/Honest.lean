import NoGhost.Coordinator.Banking
import NoGhost.Signer.Refusal

/-!
# Honest Requests

The way of an honest request through the three services: the coordinator makes a record of a
submission, the bank confirms its debit, the run puts both on the ledger as an encrypted memo, and a
member reads them back. Each service prices the request on its own, and the hash that the member
recomputes is the one that the run has published.

## Main results

* `confirmedBy_postDebit`, `ConfirmedBy.validated`: what the bank confirms passes Wall 1.
* `publishes`: what a run puts on the ledger.
* `honest_approved`: an honest request is read back, and a member attests `APPROVE`.
-/

open Js Async

namespace NoGhost

variable {cfg : Config} {P : Platform} {env : CoordinatorEnv cfg} {key : BankKey}

/-! ### What arrives -/

/-- A request arrives as it was made, since it has texts and a finite number only. -/
theorem sent_request (request : GenerationRequest) : sent request.toJson = request.toJson := by
  refine sent_flat (by simp) ?_ ?_
  · simp only [List.filterMap_cons, Option.map_some, List.filterMap_nil, List.forall_mem_cons]
    exact ⟨by decide, by decide, by decide, by decide, by decide, fun _ h =>
      absurd h List.not_mem_nil⟩
  · simp [Json.Solid.str, Json.Solid.num]

/-- A confirmation arrives as it was made. -/
theorem DebitConfirmation.sent_toJson (d : DebitConfirmation) : sent d.toJson = d.toJson := by
  refine sent_flat (by simp) ?_ ?_
  · simp only [List.filterMap_cons, Option.map_some, List.filterMap_nil, List.forall_mem_cons]
    exact ⟨by decide, by decide, by decide, by decide, by decide, by decide, by decide, by decide,
      fun _ h => absurd h List.not_mem_nil⟩
  · simp [Json.Solid.str, Json.Solid.num]

/-- The fields of a request, as they are read off its object. -/
theorem GenerationRequest.get?_toJson (request : GenerationRequest) :
    request.toJson.get? "requestId" = some (.str request.requestId) ∧
      request.toJson.get? "meterId" = some (.str request.meterId) ∧
      request.toJson.get? "amountKwh" = some (.num (.fin request.amountKwh)) := by
  refine ⟨?_, ?_, ?_⟩ <;> simp [GenerationRequest.toJson, object, Json.get?, List.lookup_cons]

/-- The meter of a request is not empty. -/
theorem requestFields_metered {body : Json} {uuid now : String} {fields : RequestFields}
    (h : requestFields body uuid = .ok fields) : (fields.request now).meterId ≠ "" := by
  obtain ⟨meterId, hmeter, h⟩ := bind_eq_ok.mp h
  obtain ⟨merchantId, -, h⟩ := bind_eq_ok.mp h
  obtain ⟨amountKwh, -, h⟩ := bind_eq_ok.mp h
  obtain ⟨requestId, -, h⟩ := bind_eq_ok.mp h
  cases h
  exact Setting.trim_ne_of_nonEmpty hmeter

/-! ### The confirmation of an honest bank -/

/-- A confirmation that the bank has signed for a request, with the identifier, the meter and the
amount of the request and a reference of its own. -/
structure ConfirmedBy (P : Platform) (key : BankKey) (request : GenerationRequest)
    (d : DebitConfirmation) : Prop where
  signed : d.bankSignature = signDebitPayload P key d.toDebitSignedPayload
  named : d.debitRef ≠ ""
  requestId : d.requestId = request.requestId
  meterId : d.meterId = request.meterId
  amountKwh : d.amountKwh = request.amountKwh
  amount : priceZar (.fin request.amountKwh) = .fin d.amount
  currency : d.currency = CURRENCY

/-- A debit reference is never empty. -/
theorem debitRefOf_ne (random : Bytes) : debitRefOf random ≠ "" := fun h => by
  have := congrArg String.length h
  rw [debitRefOf, String.length_append] at this
  exact absurd this (by simp)

/-- A new debit request in mode `CONFIRM` is confirmed. -/
theorem confirmedBy_postDebit {request : GenerationRequest} (hid : request.requestId ≠ "")
    (hmeter : request.meterId ≠ "") {b b' : BankState} {random : Bytes} {answer : Response}
    (hmode : b.mode = .CONFIRM) (hprior : b.prior request.requestId = none)
    (h : (postDebit P key (some (sent (debitRequest request))) random).settle b =
      (.ret answer, b')) :
    ∃ d, ConfirmedBy P key request d ∧ (answer.arrived P).ok = true ∧
      (answer.arrived P).body P = d.toJson ∧ ∃ e ∈ b'.debitLog, e.debit = d := by
  obtain ⟨amount, hamount, hbody⟩ := debitRequestOf_sent request hid hmeter
  rw [settle_postDebit_new P key random hbody hprior, hmode] at h
  cases h
  set asked : DebitRequest := ⟨request.requestId, request.merchantId, request.meterId,
    request.amountKwh, amount, CURRENCY⟩ with hasked
  refine ⟨(b.entryOf P key asked random true).debit,
    ⟨rfl, debitRefOf_ne random, rfl, rfl, rfl, hamount, rfl⟩, rfl, ?_, _,
    List.mem_append_right _ (List.mem_singleton_self _), rfl⟩
  rw [body_arrived]
  exact DebitConfirmation.sent_toJson _

/-- Wall 1 of every reader accepts a debit that the bank has confirmed for the request. -/
theorem ConfirmedBy.validated {request : GenerationRequest} {d : DebitConfirmation}
    (h : ConfirmedBy P key request d) :
    validateDebitForRequest P (some request.toJson) (some d.toJson) (key.publicKey P) =
      .ok none := by
  have hget : ∀ k, d.toJson.get? k = (sent d.toJson).get? k := fun k => by rw [d.sent_toJson]
  have hprop : ∀ k, prop (some d.toJson) k = .ok (d.toJson.get? k) := fun _ => rfl
  have hprop' : ∀ k, prop (some request.toJson) k = .ok (request.toJson.get? k) := fun _ => rfl
  have hverified : verifyBankSignature P (some d.toJson) (key.publicKey P) = true := by
    rw [← d.sent_toJson]
    exact d.verified_confirmation h.signed
  obtain ⟨hid, hmeter, hkwh⟩ := request.get?_toJson
  have hprice : priceZarOf P.numeral (some (.num (.fin request.amountKwh))) =
      .ok (.fin d.amount) := congrArg Except.ok h.amount
  have hself : ∀ s, strictEq (some (.str s)) (some (.str s)) = true := fun s => strictEq_str.mpr rfl
  have hself' : ∀ q : ℚ, strictEq (some (.num (.fin q))) (some (.num (.fin q))) = true := fun q =>
    strictEq_fin.mpr rfl
  rw [validateDebitForRequest, hverified, if_neg (by decide)]
  simp only [hprop, hprop', hget, d.get?_requestId, d.get?_meterId, d.get?_amountKwh, d.get?_amount,
    d.get?_currency, hid, hmeter, hkwh, h.requestId, h.meterId, h.amountKwh, h.currency, hself,
    hself', bind, Except.bind, hprice]
  rfl

/-! ### The publication -/

/-- What a run puts on the ledger, and what it keeps of it. -/
theorem publishes {u u' : Store cfg} {rid : ℕ} {tx : Tx}
    {k : Except String String → CoordinatorProg cfg Publication}
    (h : (publishOnChain P env rid).settle u = (.await (.publish tx) k, u')) :
    ∃ publisher encKey, env.encKey = .ok encKey ∧
      tx = requestTx P publisher (packRequest P encKey u.randomBytes
        (hashValue P (some (u.heap rid).request.toJson))
        (object [("request", some (u.heap rid).request.toJson), ("debit", (u.heap rid).debit)])) ∧
      ∀ txHash v, (k (.ok txHash)).settle v =
        (.ret ⟨hashValue P (some (u.heap rid).request.toJson), txHash⟩, v) := by
  rw [publishOnChain] at h
  cases hpublisher : env.publisherWallet with
  | none =>
      rw [hpublisher] at h
      cases h
  | some publisher =>
      rw [hpublisher] at h
      dsimp only at h
      cases hmanifest : env.manifest with
      | error e =>
          rw [hmanifest] at h
          cases h
      | ok M =>
          cases hkey : env.encKey with
          | error e =>
              rw [hmanifest, hkey] at h
              cases h
          | ok encKey =>
              rw [hmanifest, hkey] at h
              cases h
              exact ⟨publisher, encKey, rfl, rfl, fun txHash v => rfl⟩

/-- What a reader unpacks of a confirmed request: its payload, as it arrives. -/
def confirmedPayload (request : GenerationRequest) (d : DebitConfirmation) : Json :=
  sent (object [("request", some request.toJson), ("debit", some d.toJson)])

section Payload

variable (request : GenerationRequest) (d : DebitConfirmation)

@[simp] theorem get?_confirmedPayload_request :
    (confirmedPayload request d).get? "request" = some request.toJson := by
  rw [confirmedPayload, get?_sent_object (by simp)]
  exact congrArg some (sent_request request)

@[simp] theorem get?_confirmedPayload_debit :
    (confirmedPayload request d).get? "debit" = some d.toJson := by
  rw [confirmedPayload, get?_sent_object (by simp)]
  exact congrArg some d.sent_toJson

/-- A property of what is published may be read. -/
theorem prop_confirmedPayload (k : String) :
    prop (some (confirmedPayload request d)) k = .ok ((confirmedPayload request d).get? k) := rfl

end Payload

/-! ### The attestation -/

/-- What a member needs to attest: a share, a wallet, the manifest, the key of the encryption and
the pinned key of the bank that confirms. -/
structure SignerEnv.Equipped (member : SignerEnv cfg) (P : Platform) (key : BankKey)
    (encKey : Bytes) (wallet : Wallet) : Prop where
  share : ∃ share, member.share = some share
  pinned : truthyText member.pinnedBankPublicKey = some (key.publicKey P)
  wallet : member.xrplWallet = some wallet
  manifest : ∃ M, member.manifest = .ok M
  encKey : member.encKey = .ok encKey

/-- The verdict of a member that does not refuse. -/
theorem judge_confirmed {request : GenerationRequest} {d : DebitConfirmation}
    (h : ConfirmedBy P key request d) {s : SignerState} (hrefuse : s.refuse = false) :
    judge P s (key.publicKey P) (hashValue P (some request.toJson)) (confirmedPayload request d) =
      .ok (.APPROVE, none) := by
  simp only [judge, prop_confirmedPayload, get?_confirmedPayload_request,
    get?_confirmedPayload_debit, bind, Except.bind, ne_eq, not_true_eq_false, if_false, hrefuse,
    Bool.false_eq_true, h.validated]
  rfl

/-- A handler that reads a request off the ledger and attests `APPROVE`: it waits for the
transaction, submits the approval, and returns the verdict once that is validated. -/
def AttestsApprove (P : Platform) (member : SignerEnv cfg) (wallet : Wallet)
    (requestHash requestTxHash : String) (payload : Json) (tx : Tx)
    (out : SignerProg Response × SignerState) : Prop :=
  let approval := approvalTx P wallet.address (cfg.idText member.info.signerId) requestHash
    .APPROVE none
  ∃ k, out.1 = .await (.tx requestTxHash) k ∧
    ∀ (ltx : LedgerTx) (s : SignerState), ltx.toTx = tx → s.refuse = false →
      s.approvedOnChain.get requestHash = none →
      ∃ k', (k (.ok ltx)).settle s = (.await (.submit approval) k',
          recordSubmission ⟨requestHash, payload, .APPROVE, approval⟩ s) ∧
        ∀ txHash s', ∃ r : Response, (k' (.ok txHash)).settle s' =
            (.ret r, recordApproval requestHash .APPROVE txHash s') ∧ r.status = 200 ∧
          r.body.get? "verdict" = some (.str "APPROVE")

/-- **An equipped member attests** a request that it can read and that it approves, by the memo that
the coordinator counts. -/
theorem attestsApprove {member : SignerEnv cfg} {wallet : Wallet} {encKey : Bytes}
    (hequipped : member.Equipped P key encKey wallet) {tx : Tx} {requestHash : String}
    {payload : Json} (hread : readRequest P (.ok encKey) tx = .ok (some (requestHash, payload)))
    (hjudge : ∀ s : SignerState, s.refuse = false →
      judge P s (key.publicKey P) requestHash payload = .ok (.APPROVE, none))
    {body : Option Json} {requestTxHash : String}
    (hbody : prop? body "requestTxHash" = some (.str requestTxHash)) (hne : requestTxHash ≠ "")
    {s : SignerState} (honline : s.online = true) :
    AttestsApprove P member wallet requestHash requestTxHash payload tx
      ((validate P member body).settle s) := by
  obtain ⟨⟨share, hshare⟩, hpinned, hwallet, ⟨M, hM⟩, hkey⟩ := hequipped
  have hhash : truthyText ((prop? body "requestTxHash").bind (·.asString)) =
    some requestTxHash := by
    rw [hbody]
    exact truthyText_of_ne hne
  refine ⟨?k, ?first, fun ltx s' htx hrefuse hcache => ?_⟩
  case first =>
    simp only [validate, bind, Prog.bind, Prog.gets, Prog.settle, honline, Bool.not_true,
      Bool.false_eq_true, if_false, hshare, hpinned, hwallet, hhash, attest,
      Prog.call, Prog.tryCatch]
    rfl
  have hread' : readRequest P member.encKey ltx.toTx = .ok (some (requestHash, payload)) := by
    rw [hkey, htx, hread]
  refine ⟨?_, ?second, fun txHash s'' => ?_⟩
  case second =>
    simp only [bind, Prog.bind, Prog.ofExcept, hread', Prog.tryCatch, Prog.settle,
      hcache, id, hjudge s' hrefuse, postApproval, hM, Prog.modify, Prog.call]
    rfl
  exact ⟨_, rfl, rfl, rfl⟩

/-- **Honest requests survive the ledger.** The request of a submission, with the confirmation that
the bank has signed for it, is read back off the transaction of the run under the hash that the run
keeps; it passes Wall 1 there, and every equipped member that is willing and has no verdict on it
yet attests `APPROVE`. -/
theorem honest_approved (P : Platform) (env : CoordinatorEnv cfg) (key : BankKey)
    (hsha256 : ∀ data, (P.sha256 data).length = 32) {body : Option Json} {uuid now : String}
    {fields : RequestFields} (hfields : requestFields (bodyOrEmpty body) uuid = .ok fields)
    {b b' : BankState} {random : Bytes} {answer : Response} (hmode : b.mode = .CONFIRM)
    (hprior : b.prior fields.requestId = none)
    (hconfirm : (postDebit P key (some (sent (debitRequest (fields.request now)))) random).settle b
      = (.ret answer, b'))
    {u u' : Store cfg} {rid : ℕ} (hrequest : (u.heap rid).request = fields.request now)
    (hdebit : (u.heap rid).debit = some ((answer.arrived P).body P))
    (hiv : u.randomBytes.length = 12) {tx : Tx}
    {k : Except String String → CoordinatorProg cfg Publication}
    (hpublish : (publishOnChain P env rid).settle u = (.await (.publish tx) k, u')) :
    ∃ requestHash encKey payload, env.encKey = .ok encKey ∧
      (∀ txHash v, (k (.ok txHash)).settle v = (.ret ⟨requestHash, txHash⟩, v)) ∧
      readRequest P (.ok encKey) tx = .ok (some (requestHash, payload)) ∧
      hashValue P (payload.get? "request") = requestHash ∧
      validateDebitForRequest P (payload.get? "request") (payload.get? "debit")
        (key.publicKey P) = .ok none ∧
      ∀ (member : SignerEnv cfg) (wallet : Wallet), member.Equipped P key encKey wallet →
        ∀ (body : Option Json) (requestTxHash : String) (s : SignerState),
          prop? body "requestTxHash" = some (.str requestTxHash) → requestTxHash ≠ "" →
          s.online = true → AttestsApprove P member wallet requestHash requestTxHash payload tx
            ((validate P member body).settle s) := by
  set request := fields.request now with hreq
  have hid : request.requestId ≠ "" := Setting.requestFields_named hfields
  have hmeter : request.meterId ≠ "" := requestFields_metered hfields
  obtain ⟨d, hd, -, harrived, -⟩ := confirmedBy_postDebit hid hmeter hmode hprior hconfirm
  obtain ⟨publisher, encKey, hkey, htx, hresult⟩ := publishes hpublish
  rw [hrequest, hdebit, harrived] at htx
  rw [hrequest] at hresult
  have hread : readRequest P (.ok encKey) tx =
      .ok (some (hashValue P (some request.toJson), confirmedPayload request d)) := by
    rw [htx]
    exact readRequest_requestTx hiv (hsha256 _) _
  refine ⟨_, encKey, confirmedPayload request d, hkey, hresult, hread, ?_, ?_, ?_⟩
  · rw [get?_confirmedPayload_request]
  · rw [get?_confirmedPayload_request, get?_confirmedPayload_debit]
    exact hd.validated
  · intro member wallet hequipped body requestTxHash s hbody hne honline
    exact attestsApprove hequipped hread (fun s hrefuse => judge_confirmed hd hrefuse) hbody
      hne honline

/-! ### A small request -/

namespace Small

/-- The body of the small submission, with a meter name that has a blank in front. -/
def purchaseBody : Json :=
  .obj [("requestId", .str "REQ-1"), ("meterId", .str " MTR-1001"), ("merchantId", .str "MER-001"),
    ("amountKwh", .num (.fin 10))]

/-- What it says, with the blank that is only trimmed later. -/
def purchaseFields : RequestFields := ⟨"REQ-1", " MTR-1001", 10, "MER-001"⟩

/-- The confirmation of the small bank, for the request of that body. -/
def confirmation : Response :=
  .json ((BankState.boot "2025-01-01T00:00:00.000Z").entryOf platform bankSecret
    ⟨"REQ-1", "MER-001", "MTR-1001", 10, 25, CURRENCY⟩ [1, 2, 3, 4, 5, 6] true).debit.toJson

/-- A store with the record of the small submission, as it is published. -/
def publishing : Store config :=
  ((Store.boot config "2025-01-01T00:00:00.000Z" (List.replicate 12 7)).createRecord 0
    (purchaseFields.request "2025-01-01T00:00:00.000Z")).update 0 fun r =>
      { r with debit := some ((confirmation.arrived platform).body platform) }

end Small

/-- The bank confirms the small submission. -/
theorem small_confirmation : ∃ b', (postDebit Small.platform Small.bankSecret
    (some (sent (debitRequest (Small.purchaseFields.request "2025-01-01T00:00:00.000Z"))))
      [1, 2, 3, 4, 5, 6]).settle (.boot "2025-01-01T00:00:00.000Z") =
    (.ret Small.confirmation, b') := by
  have hbody : debitRequestOf (some (sent (debitRequest
      (Small.purchaseFields.request "2025-01-01T00:00:00.000Z")))) =
      some ⟨"REQ-1", "MER-001", "MTR-1001", 10, 25, CURRENCY⟩ := by decide +kernel
  exact ⟨_, settle_postDebit_new Small.platform Small.bankSecret _ hbody rfl⟩

/-- The digest of the small platform has its length. -/
theorem small_sha256 (data : Bytes) : (Small.platform.sha256 data).length = 32 := rfl

/-- The small request is read off its transaction, and the member `city-a` approves it. -/
theorem honest_approved_small : ∃ tx requestHash payload,
    readRequest Small.platform (.ok []) tx = .ok (some (requestHash, payload)) ∧
      hashValue Small.platform (payload.get? "request") = requestHash ∧
      AttestsApprove Small.platform Small.cosignerEnv ⟨"rCityA", fun _ => .ok "F"⟩ requestHash
        "T1" payload tx ((validate Small.platform Small.cosignerEnv
          (some (.obj [("requestTxHash", .str "T1")]))).settle (.boot 0)) := by
  obtain ⟨tx, k, hpublish, -⟩ :
      ∃ (tx : Tx) (k : Except String String → CoordinatorProg config Publication),
        (publishOnChain Small.platform Small.coordinatorEnv 0).settle Small.publishing =
          (.await (.publish tx) k, Small.publishing) ∧ _ :=
    settle_publishOnChain rfl rfl rfl
  obtain ⟨b', hconfirm⟩ := small_confirmation
  obtain ⟨requestHash, encKey, payload, hkey, -, hread, hhash, -, happroves⟩ := honest_approved
    Small.platform Small.coordinatorEnv Small.bankSecret small_sha256
    (show requestFields (bodyOrEmpty (some Small.purchaseBody)) "" = .ok Small.purchaseFields
      by decide +kernel)
    rfl rfl hconfirm rfl rfl rfl hpublish
  obtain rfl := Except.ok.inj hkey
  exact ⟨tx, requestHash, payload, hread, hhash, happroves _ _ ⟨⟨_, rfl⟩, rfl, rfl, ⟨_, rfl⟩, rfl⟩
    _ _ _ rfl (by decide) rfl⟩

end NoGhost
