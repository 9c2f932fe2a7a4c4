import NoGhost.Coordinator.Walk
import NoGhost.Signer.Handlers

/-!
# Single Runs

What a walk through the pipeline says of one execution of `runPipeline`: the others may do
anything to the store but write the record and the histories of the run, and the bank, the
signers and the ledger may answer anything.

## Main results

* `runPipeline_history`: the history of a record, and when the bank is asked for a reversal.
* `abandoned_without_token`: when an abandoned record holds no token.
* `two_walls`: what stands behind a token that is dispensed.
-/

open Js Async

namespace NoGhost

variable {cfg : Config} {P : Platform} {env : CoordinatorEnv cfg} {rid : ℕ}

/-- A run on its own: an answer tells nothing of the store, and the others move as `moves`
says. -/
def alone (moves : Store cfg → Store cfg → Prop) : Outside (Lens.whole (Store cfg)) where
  tells _ _ _ := True
  moves := moves
  tells_put _ _ := trivial

/-- The environment of a coordinator's run. -/
abbrev CoordinatorWorld (cfg : Config) := Env (Store cfg) (CoordinatorCall cfg)
    CoordinatorCall.Answer

variable {world : CoordinatorWorld cfg} {request : GenerationRequest} {s : Store cfg}
  {moves : Store cfg → Store cfg → Prop}

/-- A new record is unpaid. -/
theorem unpaid_new (request : GenerationRequest) : Unpaid (.new cfg request) :=
  ⟨rfl, rfl, rfl, rfl, rfl⟩

/-- Every execution on a new record is a walk. -/
theorem run_meets (hstart : s.account rid = ⟨.new cfg request, .none⟩)
    (hrun : (runPipeline P env rid).Along world
      (fun _ s _ s' => s'.account rid = s.account rid ∧ moves s s') [] s) :
    ((runPipeline P env rid).run world [] s).Meets (walkRules P env (alone moves) rid)
      (fun _ => Ending (Lens.whole _) P env (alone moves) rid)
      (fun _ => Stuck (Lens.whole _) P env (alone moves) rid) [] :=
  run_of_wp (hrun.mono fun _ _ _ _ h => ⟨trivial, h.2, h.1⟩)
    (wp_runPipeline hstart (unpaid_new request))

/-! ### The history of a record -/

/-- A debit as the bank writes it, with the types of its fields. -/
structure TypedDebit (d : Json) : Prop where
  debitRef : ∃ ref, d.get? "debitRef" = some (.str ref) ∧ ref ≠ ""
  requestId : ∃ id, d.get? "requestId" = some (.str id)
  meterId : ∃ id, d.get? "meterId" = some (.str id)
  amountKwh : ∃ n, d.get? "amountKwh" = some (.num n)
  amount : ∃ n, d.get? "amount" = some (.num n)
  currency : ∃ text, d.get? "currency" = some (.str text)
  confirmedAt : ∃ text, d.get? "confirmedAt" = some (.str text)

/-- A debit that the bank has signed is typed. -/
def DebitsTyped (P : Platform) (env : CoordinatorEnv cfg) :
    (q : CoordinatorCall cfg) → q.Answer → Prop
  | .debit _ _, answer => ∀ r : HttpResult, answer = some r →
      verifyAttestation P env (r.body P) = true → TypedDebit (r.body P)
  | _, _ => True

/-! ### Answers over the small platform -/

namespace Small

/-- The small request, as the coordinator takes it. -/
def generationRequest : GenerationRequest where
  requestId := "REQ-1"
  meterId := "MTR-1001"
  amountKwh := 10
  merchantId := "MER-001"
  timestamp := "2025-01-01T00:00:00.000Z"

/-- An answer with the status 200, and the text of a body. -/
def ok (body : Json) : HttpResult := ⟨200, stringify platform.numeral body⟩

/-- An approval of the small request on the ledger. -/
def approval (account signerId hash : String) : LedgerTx where
  toTx := approvalTx platform account signerId
    (hashValue platform (some generationRequest.toJson)) .APPROVE none
  hash := hash

/-- The history of the authority account. -/
def approvals : Except String (List LedgerTx) :=
  .ok [approval "rUtility" "utility" "T2", approval "rCityA" "city-a" "T3"]

/-- A member of the small consortium, with its share of the key. -/
def member (i : SignerInfo config.SignerId) : SignerEnv config where
  info := i
  share := (Frost.smallKeys.shares.find? (·.identifier = i.identifier)).map fun k =>
    ⟨k.secretShare, Frost.smallKeys.groupPublicKey⟩
  pinnedBankPublicKey := some bankKey
  xrplWallet := none
  manifest := .ok manifest
  encKey := .ok []
  round2SignUntyped _ _ _ := .error "untyped"

/-- A member that has answered round 1, and keeps its nonces. -/
def committed : SignerState :=
  storeSession "REQ-1" Frost.smallRound1.nonces (.boot 0)

/-- The ledger, to a member: it shows the approvals, and nothing else. -/
def ledger : Env SignerState SignerCall SignerCall.Answer := fun _ q s =>
  (match q with
    | .accountTx _ => approvals
    | .tx _ => (.error "txnNotFound" : Except String LedgerTx)
    | .submit _ => (.error "disconnected" : Except String String)
    | .sleep _ => (), s)

/-- The bank, the members and the ledger at work; the third member is offline. -/
def working : (q : CoordinatorCall config) → q.Answer
  | .health _ => fun
      | SignerId.cityB => none
      | _ => some (ok (.obj [("online", .bool true)]))
  | .debit _ _ => (some (ok debit) : Option HttpResult)
  | .reverse _ _ => (some (ok (.obj [])) : Option HttpResult)
  | .publish _ => (.ok "T1" : Except String String)
  | .validate _ _ => fun _ => none
  | .accountTx _ => approvals
  | .round1 _ _ => fun _ => some (ok (.obj [("commitment", .obj
      [("hiding", .str Frost.smallRound1.hidingHex),
        ("binding", .str Frost.smallRound1.bindingHex)])]))
  | .round2 i body =>
      match ((round2 platform (member i) (some (sent body))).run ledger [] committed).result with
      | .ok resp => (some ⟨resp.status, stringify platform.numeral resp.body⟩ : Option HttpResult)
      | .error _ => (none : Option HttpResult)
  | .prepare _ _ => (.ok .null : Except String Json)
  | .signReceipt _ _ => (some (ok (.obj [("fragment", .str "F")])) : Option HttpResult)
  | .submitReceipt _ => (.ok "T4" : Except String String)

/-- The same, but the ledger refuses the receipt. -/
def refused : (q : CoordinatorCall config) → q.Answer
  | .submitReceipt _ => (.error "tecINTERNAL" : Except String String)
  | q => working q

/-- The same, but the ledger refuses the publication. -/
def unpublished : (q : CoordinatorCall config) → q.Answer
  | .publish _ => (.error "tecINTERNAL" : Except String String)
  | q => working q

/-- A world that answers, and leaves the store alone. -/
def still (answers : (q : CoordinatorCall config) → q.Answer) : CoordinatorWorld config :=
  fun _ q s => (answers q, s)

/-- A store with one new record, that of the small request. -/
def opened : Store config :=
  (Store.boot config "2025-01-01T00:00:00.000Z" []).createRecord 0 generationRequest

/-- The execution of the run on it, under services that answer so. -/
def executed (answers : (q : CoordinatorCall config) → q.Answer) :
    Outcome (Store config) String (CoordinatorCall config) CoordinatorCall.Answer Unit :=
  (runPipeline platform coordinatorEnv 0).run (still answers) [] opened

end Small

/-- The account of the new record, of which nothing was done. -/
theorem small_opened : Small.opened.account 0 = ⟨.new config Small.generationRequest, .none⟩ := rfl

/-- The body of an answer is what was sent. -/
theorem small_body (v : Json) : (Small.ok v).body Small.platform = sent v := by
  rw [HttpResult.body, Small.ok, parse_stringify]
  rfl

/-- The debit of the small bank is typed. -/
theorem small_typed : TypedDebit ((Small.ok Small.debit).body Small.platform) := by
  rw [small_body]
  exact ⟨⟨"DBT-1", rfl, by decide⟩, ⟨_, rfl⟩, ⟨_, rfl⟩, ⟨_, rfl⟩, ⟨_, rfl⟩, ⟨_, rfl⟩, ⟨_, rfl⟩⟩

/-- The debit of a record is one that the run was told of. -/
theorem Debited.told {A : (q : CoordinatorCall cfg) → Store cfg → q.Answer → Store cfg → Prop}
    {t : CoordinatorTrace (Store cfg) cfg} {d : Json}
    (h : Debited P env (alone moves) rid t request d)
    (hrun : (runPipeline P env rid).Along world A [] s)
    (ht : t <+: ((runPipeline P env rid).run world [] s).trace) :
    ∃ (r : HttpResult) (s₁ s₂ : Store cfg), r.body P = d ∧
      A (.debit rid (debitRequest request)) s₁ (some r) s₂ := by
  obtain ⟨r, ⟨hmem, -⟩, -, hbody⟩ := h.heard
  rcases hrun.answered (ht.subset hmem) with hnil | ⟨s₁, s₂, hA⟩
  · cases hnil
  · exact ⟨r, s₁, s₂, hbody, hA⟩

/-- **The history of a record.** A run whose debits are typed returns, and its record is rejected
before the debit, delivered after the whole chain, or abandoned after the debit, with one
reverse call in that case and none in the others. -/
theorem runPipeline_history (hstart : s.account rid = ⟨.new cfg request, .none⟩)
    (hrun : (runPipeline P env rid).Along world
      (fun q s a s' => s'.account rid = s.account rid ∧ DebitsTyped P env q a) [] s) :
    let o := (runPipeline P env rid).run world [] s
    let r := o.final.heap rid
    o.result = .ok () ∧
      ((r.status = .REJECTED ∧ r.statuses = [.PENDING, .REJECTED] ∧ reverseCalls o.trace = 0) ∨
        (r.status = .DELIVERED ∧ r.statuses = CHAIN ∧ reverseCalls o.trace = 0) ∨
        (r.status = .REJECTED_ABANDONED ∧ (∃ k, 1 ≤ k ∧ k ≤ 5 ∧
            r.statuses = CHAIN.take (k + 1) ++ [.REJECTED_ABANDONED]) ∧
          reverseCalls o.trace = 1)) := by
  intro o r
  have hmeets := @run_meets cfg P env rid world request s (fun _ _ => True) hstart
    (hrun.mono fun _ _ _ _ h => ⟨h.1, trivial⟩)
  have htyped : ∀ {d : Json}, Debited P env (alone fun _ _ => True) rid o.trace
      (o.final.heap rid).request d → TypedDebit d := fun h => by
    obtain ⟨r', s₁, s₂, hbody, -, hA⟩ := h.told hrun List.prefix_rfl
    subst hbody
    exact hA r' rfl h.verified
  cases hresult : o.result with
  | error e =>
      obtain ⟨k, r', receipt, redeemed, hholding, e', he'⟩ := hmeets.raised e hresult
      obtain ⟨d, hd, hdebited⟩ := hholding.place.backed.debited
      obtain ⟨ref, href, -⟩ :=
        (htyped (by rwa [show o.final.heap rid = r' from hholding.on.heap])).debitRef
      rw [hd, prop?_some, href] at he'
      cases he'
  | ok u =>
      refine ⟨rfl, ?_⟩
      cases hmeets.returned u hresult with
      | @rejected r' e hon hstatus hstatuses htoken hledger he =>
          obtain rfl : r = r' := hon.heap
          exact .inl ⟨hstatus, hstatuses, hon.calls⟩
      | @delivered r' receipt token hon hplace htoken hreceipt =>
          obtain rfl : r = r' := hon.heap
          exact .inr (.inl ⟨(Option.some.inj hplace.status).symm, hplace.statuses, hon.calls⟩)
      | @abandoned k r' reversal receipt redeemed haccount hcalls hbacked hk hstatus hstatuses hfits
          hreversal hcause hlate hodd =>
          obtain rfl : r = r' := congrArg Account.record haccount
          obtain ⟨d, hd, hdebited⟩ := hbacked.debited
          have hd' := htyped hdebited
          obtain ⟨ref, href, hne⟩ := hd'.debitRef
          obtain ⟨n, hn⟩ := hd'.amount
          refine .inr (.inr ⟨hstatus, ⟨k, ?_, hk, hstatuses⟩, ?_⟩)
          · by_contra hzero
            obtain ⟨e, he⟩ := hodd (by omega)
            rw [hd, prop?_some, hn] at he
            cases he
          · cases hreversal with
            | unasked hno _ =>
                refine absurd ⟨?_, ?_⟩ (hno ref)
                · rw [hd, prop?_some, href]
                  simpa [truthy, Json.truthy] using hne
                · rw [hd, prop?_some, href]
                  rfl
            | asked _ _ _ => exact hcalls

/-- A run over the small platform returns. -/
theorem runPipeline_history_small : (Small.executed Small.working).result = .ok () :=
  (runPipeline_history small_opened (Prog.along_of_forall (fun _ q s => ⟨rfl, by
    cases q <;> first | trivial | exact fun r hr _ => Option.some.inj hr ▸ small_typed⟩) _ _ _)).1

/-! ### The token of an abandoned record -/

/-- The answers with which a signed token can be delivered. -/
def Forthcoming (P : Platform) (env : CoordinatorEnv cfg) :
    (q : CoordinatorCall cfg) → q.Answer → Prop
  | .debit _ _, answer => ∀ r : HttpResult, answer = some r →
      verifyAttestation P env (r.body P) = true →
        (∃ ref, (r.body P).get? "debitRef" = some (.str ref)) ∧
          ∃ n, (r.body P).get? "amountKwh" = some (.num n)
  | .prepare _ _, answer => ∃ prepared, answer = Except.ok prepared
  | .signReceipt signer _, answer => ∃ fragment, fragmentOf P signer.signerId answer = .ok fragment
  | .submitReceipt _, answer => ∃ txHash, answer = Except.ok txHash
  | _, _ => True

/-- No other run has redeemed the token when this run is resumed. -/
def Unspent (P : Platform) (rid : ℕ) (s s' : Store cfg) : Prop :=
  (s.heap rid).status = .APPROVED ∨ (s.heap rid).status = .SIGNED →
    ∀ payload, buildTokenPayload P (s.heap rid).debit = .ok payload → s'.redeemed payload = false

/-- A credit of a number does not raise. -/
theorem newBalance_num (N : Numeral) (balance n : Number) :
    ∃ b, Store.newBalance N balance (some (.num n)) = .ok b :=
  ⟨_, rfl⟩

/-- Forthcoming answers leave nothing that could stop the delivery. -/
theorem Cause.absurd {t : CoordinatorTrace (Store cfg) cfg}
    (h : Cause P env (alone (Unspent P rid)) rid t)
    (hrun : (runPipeline P env rid).Along world
      (fun q s a s' => s'.account rid = s.account rid ∧ Forthcoming P env q a ∧ Unspent P rid s s')
      [] s)
    (ht : t <+: ((runPipeline P env rid).run world [] s).trace) : False := by
  have htold : ∀ {q : CoordinatorCall cfg} {a : q.Answer}, .answered q a ∈ t →
      Forthcoming P env q a := fun hmem => by
    rcases hrun.answered (ht.subset hmem) with hnil | ⟨s₁, s₂, -, hA, -⟩
    · cases hnil
    · exact hA
  have hdebit : ∀ {request : GenerationRequest} {d : Json},
      Debited P env (alone (Unspent P rid)) rid t request d →
        (∃ ref, d.get? "debitRef" = some (.str ref)) ∧ ∃ n, d.get? "amountKwh" = some (.num n) :=
    fun hd => by
      obtain ⟨r, s₁, s₂, hbody, -, hA, -⟩ := hd.told hrun ht
      subst hbody
      exact hA r rfl hd.verified
  cases h with
  | unhashable hdebited h =>
      obtain ⟨⟨ref, href⟩, -⟩ := hdebit hdebited
      rw [href] at h
      cases h
  | prepare h =>
      obtain ⟨prepared, heq⟩ := htold h
      cases heq
  | fragment h hfragment =>
      obtain ⟨fragment, heq⟩ := htold h
      rw [heq] at hfragment
      cases hfragment
  | submit h =>
      obtain ⟨txHash, heq⟩ := htold h
      cases heq
  | late h =>
      cases h with
      | overtaken hmoves haccount hstatus hunredeemed hpayload hspent =>
          exact Bool.false_ne_true ((hmoves hstatus _ hpayload).symm.trans hspent)
      | unaddable hdebited htoken hbalance =>
          obtain ⟨-, n, hn⟩ := hdebit hdebited
          rw [(buildTokenPayload_ok htoken).2.1, hn] at hbalance
          cases hbalance

/-- **No token is left behind.** If the answers that the receipt and the delivery need are
forthcoming, and no other run redeems the debit, then an abandoned record holds no token, in
every state of the run. -/
theorem abandoned_without_token (hstart : s.account rid = ⟨.new cfg request, .none⟩)
    (hrun : (runPipeline P env rid).Along world
      (fun q s a s' => s'.account rid = s.account rid ∧ Forthcoming P env q a ∧ Unspent P rid s s')
      [] s) :
    let o := (runPipeline P env rid).run world [] s
    (∀ u s₁ s₂, u ++ [.wrote s₁ s₂] <+: o.trace →
      (s₂.heap rid).status = .REJECTED_ABANDONED → (s₂.heap rid).token = none) ∧
    ((o.final.heap rid).status = .REJECTED_ABANDONED → (o.final.heap rid).token = none) := by
  intro o
  have hmeets := @run_meets cfg P env rid world request s (Unspent P rid) hstart
    (hrun.mono fun _ _ _ _ h => ⟨h.1, h.2.2⟩)
  have hnone : ∀ {k : ℕ} {t : CoordinatorTrace (Store cfg) cfg} {r : PipelineRecord cfg},
      t <+: o.trace → Backed P env (alone (Unspent P rid)) rid k t r →
      (4 ≤ k → Cause P env (alone (Unspent P rid)) rid t) → r.token = none :=
    fun ht hbacked hcause => hbacked.unsigned (by
      by_contra hk
      exact (hcause (by omega)).absurd hrun ht)
  refine ⟨fun u s₁ s₂ hpre hstatus => ?_, fun hstatus => ?_⟩
  · obtain ⟨u', heq, hmove⟩ := hmeets.wrote u s₁ s₂ hpre
    obtain rfl : s₂ = u' := heq
    have ht : u <+: o.trace := (List.prefix_append _ _).trans hpre
    have hphase := hmove.phase
    generalize hr : s₂.heap rid = r at hphase hstatus
    generalize s₂.deeds rid = e at hphase
    cases hphase with
    | idle h => exact h.token
    | asked h => exact h.token
    | running h _ =>
        have := h.status
        rw [hstatus] at this
        have hmem := List.mem_of_getElem? this
        exact absurd hmem (by decide)
    | rejected h _ htoken _ _ => exact htoken
    | abandoned h _ _ _ _ _ hcause => exact hnone ht h hcause
  · cases hresult : o.result with
    | error e =>
        obtain ⟨k, r', receipt, redeemed, hholding, -⟩ := hmeets.raised e hresult
        have := hholding.place.status
        rw [← show o.final.heap rid = r' from hholding.on.heap, hstatus] at this
        exact absurd (List.mem_of_getElem? this) (by decide)
    | ok _ =>
        cases hmeets.returned _ hresult with
        | rejected hon _ _ htoken _ _ =>
            rw [show o.final.heap rid = _ from hon.heap]
            exact htoken
        | delivered hon hplace _ _ =>
            have := hplace.status
            rw [← show o.final.heap rid = _ from hon.heap, hstatus] at this
            cases this
        | abandoned haccount _ hbacked _ _ _ _ _ hcause _ _ =>
            rw [show o.final.heap rid = _ from congrArg Account.record haccount]
            exact hnone List.prefix_rfl hbacked hcause

/-- A run whose request cannot be published is abandoned. -/
theorem small_unpublished :
    ((Small.executed Small.unpublished).final.heap 0).status = .REJECTED_ABANDONED ∧
      (runPipeline Small.platform Small.coordinatorEnv 0).Along (Small.still Small.unpublished)
        (fun _ _ _ s => s.usedNonces.isEmpty ∧ s.usedDebitRefs.isEmpty) [] Small.opened := by
  decide +kernel

/-- The answers over the small platform are forthcoming, unless the ledger is asked to publish. -/
theorem small_forthcoming (q : CoordinatorCall config) :
    Forthcoming Small.platform Small.coordinatorEnv q (Small.unpublished q) := by
  cases q with
  | debit rid body =>
      rintro r hr -
      cases hr
      exact ⟨⟨_, small_typed.debitRef.choose_spec.1⟩, small_typed.amountKwh⟩
  | prepare tx quorum => exact ⟨_, rfl⟩
  | signReceipt signer body =>
      refine ⟨"F", ?_⟩
      rw [show Small.unpublished (.signReceipt signer body) =
        some (Small.ok (.obj [("fragment", .str "F")])) from rfl, fragmentOf]
      simp only [small_body]
      rfl
  | submitReceipt fragments => exact ⟨_, rfl⟩
  | _ => trivial

/-- A run over the small platform that is abandoned before the signature: the answers that the
receipt needs would be forthcoming. -/
theorem abandoned_without_token_small :
    ((Small.executed Small.unpublished).final.heap 0).status = .REJECTED_ABANDONED ∧
      ((Small.executed Small.unpublished).final.heap 0).token = none := by
  have hrun := (@abandoned_without_token config Small.platform Small.coordinatorEnv 0
    (Small.still Small.unpublished) Small.generationRequest Small.opened small_opened ?_).2
  · have hstatus := small_unpublished.1
    rw [Small.executed] at hstatus ⊢
    exact ⟨hstatus, hrun hstatus⟩
  · refine (small_unpublished.2.and (Prog.along_of_forall (A := fun q s a s' => s' = s ∧
      Forthcoming Small.platform Small.coordinatorEnv q a) (fun _ q s => ⟨rfl, small_forthcoming q⟩)
      _ _ _)).mono fun q s a s' ⟨⟨hnonces, hrefs⟩, heq, ha⟩ =>
        ⟨by rw [heq], ha, fun _ payload _ => ?_⟩
    rw [Store.redeemed, List.isEmpty_iff.mp hnonces, List.isEmpty_iff.mp hrefs]
    rfl

/-- A run over the small platform whose receipt the ledger refuses: the record is abandoned, and
holds a token that verifies. -/
theorem token_left_small :
    ((Small.executed Small.refused).final.heap 0).status = .REJECTED_ABANDONED ∧
      ((Small.executed Small.refused).final.heap 0).token.any (fun token =>
        Frost.verifySignature Small.curve token.signature (token.message Small.platform)
          Small.coordinatorEnv.GROUP.groupPublicKey) = true := by
  decide +kernel

/-! ### Two walls -/

/-- The write credits a meter: its balance or its dispenses change. -/
def Credits (s s' : Store cfg) : Prop :=
  ∃ meterId, s'.balanceOf meterId ≠ s.balanceOf meterId ∨
    s'.dispensesOf meterId ≠ s.dispensesOf meterId

/-- What both walls, and the receipt, have left in a record when a meter is credited: the debit, the
approvals, the signature and the receipt on the ledger. -/
structure TwoWalls (P : Platform) (env : CoordinatorEnv cfg)
    (t : CoordinatorTrace (Store cfg) cfg) (r : PipelineRecord cfg) : Prop where
  /-- A debit that verifies under the pinned key, and names the request. -/
  debit : ∃ d, r.debit = some d ∧ verifyBankSignature P (some d) env.BANK_PUBLIC_KEY = true ∧
    d.get? "requestId" = some (.str r.request.requestId)
  /-- The token of the debit, with a signature that verifies under the group key. -/
  token : ∃ token, r.token = some token ∧
    buildTokenPayload P r.debit = .ok token.toTokenPayload ∧
    Frost.verifySignature P.toCurve token.signature (token.message P) env.GROUP.groupPublicKey =
      true
  /-- A quorum of members whose approvals of the request were read off the ledger. -/
  approvals : ∃ (M : ConsortiumManifest cfg) (txs : List LedgerTx) (ids : List cfg.SignerId),
    env.manifest = .ok M ∧
    .answered (.accountTx M.authority) (.ok txs) ∈ t ∧ ids.Nodup ∧
    cfg.XRPL_MULTISIGN_QUORUM ≤ ids.length ∧ ∀ id ∈ ids, ∃ tx ∈ txs, ∃ m ∈ parseMemos P tx.toTx,
      M.signerAt tx.Account = some id ∧ m.kind = MemoKind.approval.text ∧
      m.data.get? "requestHash" = some (.str (hashValue P (some r.request.toJson))) ∧
      m.data.get? "verdict" = some (.str "APPROVE")
  /-- As many signers as the threshold asks for, whose partials for the token verified. -/
  signerSet : ∃ token signerSet commitments, r.token = some token ∧
    r.signerSet = some signerSet ∧ signerSet.length = cfg.t ∧ signerSet.Nodup ∧
    ∀ id ∈ signerSet, ∃ i ∈ cfg.SIGNERS, i.signerId = id ∧ ∃ share,
      Kept P env t (round2Req r token.toTokenPayload (bytesToHex (token.message P)) commitments)
        commitments (token.message P) i share
  /-- A receipt of the request, the debit and the token, which the ledger accepted. -/
  ledger : ∃ token ledger ref fragments, r.token = some token ∧ r.ledger = some ledger ∧
    .answered (.submitReceipt fragments) (.ok ledger.txHash) ∈ t ∧
    ledger.requestHash = hashValue P (some r.request.toJson) ∧
    prop? r.debit "debitRef" = some (.str ref) ∧ ledger.debitRefHash = sha256HexStr P ref ∧
    ledger.tokenHash = hashValue P (some token.toJson)

section Walls

variable {u u' : Store cfg} {t : CoordinatorTrace (Store cfg) cfg} {r : PipelineRecord cfg}

/-- A write that leaves the meters alone credits none. -/
theorem not_credits_of_meters (h : u'.meters = u.meters) : ¬ Credits u u' := by
  rintro ⟨meterId, hne | hne⟩
  · exact hne (by rw [Store.balanceOf, Store.balanceOf, h])
  · exact hne (by rw [Store.dispensesOf, Store.dispensesOf, h])

/-- A meter is put into service with nothing on it. -/
theorem not_credits_ensureMeter (meterId : Option Json) (u : Store cfg) :
    ¬ Credits u (u.ensureMeter meterId) := by
  rw [Store.ensureMeter]
  split
  next => exact not_credits_of_meters rfl
  next hnone =>
    rintro ⟨id, h⟩
    by_cases hkey : (id == meterId) = true
    · have hself : (meterId == meterId) = true := BEq.trans (BEq.symm hkey) hkey
      have hbefore : u.meters.get id = none := (JsMap.get_congr hkey).trans hnone
      have hafter : (u.meters.set meterId ⟨meterId, .fin 0, none, 0⟩).get id =
          some ⟨meterId, .fin 0, none, 0⟩ :=
        (JsMap.get_congr hkey).trans (JsMap.get_set_self hself)
      simp [Store.balanceOf, Store.dispensesOf, hbefore, hafter] at h
    · have hsame := @JsMap.get_set_of_ne _ _ _ _ u.meters meterId id ⟨meterId, .fin 0, none, 0⟩
        (by simpa using hkey)
      simp [Store.balanceOf, Store.dispensesOf, hsame] at h

/-- Only the dispensing of a token credits a meter. -/
theorem Effect.credited (h : Effect P rid u u') (hcredits : Credits u u') :
    ∃ token balance, (u.heap rid).token = some token ∧ u' = u.credit rid token balance := by
  cases h with
  | still _ h => exact absurd hcredits (not_credits_of_meters (congrArg Common.meters h))
  | ask body h => exact absurd hcredits (not_credits_of_meters (by rw [h]; rfl))
  | claim hdebit h =>
      rcases claimDebitRef_cases _ _ u with ⟨owner, heq, -⟩ | ⟨heq, -⟩
      · rw [h] at heq
        cases heq
      · rw [heq] at h
        exact absurd hcredits (not_credits_of_meters (by rw [← (Prod.mk.inj h).2]))
  | receive txHash h => exact absurd hcredits (not_credits_of_meters (by rw [h]; rfl))
  | record _ _ h =>
      have hmeters := congrArg Common.meters h
      exact absurd hcredits (not_credits_of_meters hmeters)
  | redeem _ _ h => exact absurd hcredits (not_credits_of_meters (by rw [h]; rfl))
  | meter meterId h => exact absurd (h ▸ hcredits) (not_credits_ensureMeter meterId u)
  | credit htoken _ h => exact ⟨_, _, htoken, h⟩
  | deliver _ _ h =>
      have hmeters := congrArg Common.meters h
      exact absurd hcredits (not_credits_of_meters hmeters)
  | reverse _ h => exact absurd hcredits (not_credits_of_meters (by rw [h]; rfl))

/-- The account of a run that has just credited a meter. -/
theorem Move.credited {O : Outside (Lens.whole (Store cfg))} {s₁ : Store cfg}
    (h : Move P env O rid t s₁ u u') (hcredits : Credits u u') :
    ∃ k, 5 ≤ k ∧ At P env O rid k t (u.heap rid) := by
  obtain ⟨token, balance, htoken, rfl⟩ := h.effect.credited hcredits
  have hphase := h.phase
  have haccount := account_credit u rid token balance
  rw [show (u.credit rid token balance).heap rid = u.heap rid from congrArg Account.record haccount,
    show (u.credit rid token balance).deeds rid = _ from congrArg Account.deeds haccount] at hphase
  -- what is dispensed tells the place of the record
  have hdispensed : (u.deeds rid).dispensed ++ [token] ≠ [] := by simp
  generalize he : ({ u.deeds rid with dispensed := (u.deeds rid).dispensed ++ [token] } : Deeds) = e
    at hphase
  rw [show (u.deeds rid).dispensed ++ [token] = e.dispensed from congrArg Deeds.dispensed he]
    at hdispensed
  cases hphase with
  | idle _ => exact absurd rfl hdispensed
  | asked _ => exact absurd rfl hdispensed
  | @running k reversal receipt redeemed dispensed hplace hfits =>
      rcases hfits.dispensed_eq with rfl | ⟨-, -, hk, -⟩
      · exact absurd rfl hdispensed
      · exact ⟨k, hk, hplace⟩
  | rejected _ _ _ _ he => rcases he with rfl | rfl <;> exact absurd rfl hdispensed
  | abandoned _ _ _ _ _ _ _ => exact absurd rfl hdispensed

/-- Every signer of a ceremony has sent a share. -/
theorem exists_kept {body : Json} {commitments : List SentCommitment} {message : Bytes}
    {signers : List (SignerInfo cfg.SignerId)} {shares : List Frost.SignatureShare}
    (h : List.Forall₂ (Kept P env t body commitments message) signers shares)
    {i : SignerInfo cfg.SignerId} (hi : i ∈ signers) :
    ∃ share, Kept P env t body commitments message i share := by
  induction h with
  | nil => cases hi
  | cons hkept _ ih =>
      rcases List.mem_cons.mp hi with rfl | hi
      · exact ⟨_, hkept⟩
      · exact ih hi

/-- The evidence behind a record with a receipt. -/
theorem At.twoWalls {k : ℕ} (h : At P env (alone moves) rid k t r) (hk : 5 ≤ k) :
    TwoWalls P env t r := by
  obtain ⟨d, hd, hdebited⟩ := h.backed.debited
  obtain ⟨approvals, -, ⟨M, txs, hM, ⟨hread, -⟩, happrovals⟩, hquorum⟩ :=
    h.backed.approved (by omega)
  obtain ⟨token, signerSet, htoken, hset, hsigned⟩ := h.backed.signed (by omega)
  obtain ⟨ledger, hledger, ⟨fragments, hsubmitted, -⟩, hrequest, ⟨ref, href, hdebitRef⟩,
    token', htoken', hhash⟩ := h.backed.recorded hk
  obtain rfl : token = token' := Option.some.inj (htoken.symm.trans htoken')
  refine ⟨⟨d, hd, hdebited.verified, hdebited.requestId⟩,
    ⟨token, htoken, hsigned.payload, hsigned.verified⟩,
    ⟨M, txs, (approvals.filter (·.approves)).map (·.signerId), hM, hread, ?_, ?_, fun id hid => ?_⟩,
    ?_, ⟨token, ledger, ref, fragments, htoken, hledger, hsubmitted, hrequest, href, hdebitRef,
      hhash⟩⟩
  · exact (readApprovals_nodup happrovals).sublist (List.filter_sublist.map _)
  · rw [List.length_map]
    exact hquorum
  · obtain ⟨a, ha, rfl⟩ := List.mem_map.mp hid
    obtain ⟨ha, happroves⟩ := List.mem_filter.mp ha
    obtain ⟨tx, htx, m, hm⟩ := readApprovals_mem happrovals ha
    exact ⟨tx, htx, m, hm.memo, hm.account, hm.kind, hm.requestHash, hm.approve happroves⟩
  · obtain ⟨chosen, commitments, shares, rfl, hlength, hnodup, hmem, hkept⟩ := hsigned.ceremony
    refine ⟨token, _, commitments, htoken, hset, by rw [List.length_map, hlength], ?_,
      fun id hid => ?_⟩
    · refine hnodup.map_on fun i hi j hj hij => ?_
      exact List.inj_on_of_nodup_map cfg.nodup_signerId (hmem i hi) (hmem j hj) hij
    · obtain ⟨i, hi, rfl⟩ := List.mem_map.mp hid
      obtain ⟨share, hshare⟩ := exists_kept hkept hi
      exact ⟨i, hmem i hi, rfl, share, hshare⟩

end Walls

/-! ### A signer that follows its code -/

/-- The answer comes from the signer's own handler of round 2, in some state of the signer and
with some answers of the ledger. -/
def FollowsRound2 (P : Platform) (i : SignerInfo cfg.SignerId) (body : Json)
    (answer : Option HttpResult) : Prop :=
  ∀ r, answer = some r → ∃ (signer : SignerEnv cfg)
    (ledger : Env SignerState SignerCall SignerCall.Answer)
    (t : Trace SignerState SignerCall SignerCall.Answer) (state : SignerState) (resp : Response),
    signer.info = i ∧ ((round2 P signer (some (sent body))).run ledger t state).result = .ok resp ∧
      r = ⟨resp.status, stringify P.numeral resp.body⟩

/-- The signers in `H` follow the code. -/
def Followed (P : Platform) (H : Set (SignerInfo cfg.SignerId)) :
    (q : CoordinatorCall cfg) → q.Answer → Prop
  | .round2 i body, answer => i ∈ H → FollowsRound2 P i body answer
  | _, _ => True

/-- A handler that returns a partial signature has accepted the body. -/
theorem round2_accepted {signer : SignerEnv cfg} {body : Option Json}
    {ledger : Env SignerState SignerCall SignerCall.Answer}
    {t : Trace SignerState SignerCall SignerCall.Answer} {state : SignerState} {resp : Response}
    (h : ((round2 P signer body).run ledger t state).result = .ok resp) (hzi : ¬ resp.Withheld) :
    ∃ json key, body = some json ∧ runWall1TokenChecks P (some json) key = .ok none := by
  have hwp : wpa (⟨fun _ _ _ _ => True, fun _ _ => True⟩ : Contract SignerState SignerCall
      SignerCall.Answer) (Lens.whole SignerState) (round2 P signer body)
      (fun r _ _ => r.Withheld ∨ ∃ json key, body = some json ∧
        runWall1TokenChecks P (some json) key = .ok none) (fun _ _ _ => True) state state := by
    refine wpa_round2 (fun r t _ hr => .inl hr) (fun _ _ _ => trivial) fun p hp => ?_
    obtain ⟨json, hjson, -, -, -, hchecks⟩ := presented_eq_some hp
    exact wpa_round2Gate (J := fun _ => True) trivial trivial
      (fun _ _ _ _ _ _ => ⟨trivial, trivial⟩)
      (fun r s _ hr => .inl hr) (fun r s n _ _ _ => .inr ⟨json, p.key, hjson, hchecks⟩)
      fun _ _ _ _ _ => trivial
  obtain ⟨b, s', hr | haccepted⟩ :=
    returned_of_wpa (Prog.along_of_forall (fun _ _ _ => trivial) _ t state) hwp h
  · exact absurd hr hzi
  · exact haccepted

/-- The fields of a body of round 2 as they arrive. -/
theorem get?_sent_round2Req {r : PipelineRecord cfg} {payload : TokenPayload} {hex : String}
    {commitments : List SentCommitment} :
    (sent (round2Req r payload hex commitments)).get? "request" = some (sent r.request.toJson) ∧
      (sent (round2Req r payload hex commitments)).get? "debit" = r.debit.map sent := by
  have hnd : ["sessionId", "messageHex", "tokenPayload", "request", "debit",
      "commitments"].Nodup := by
    decide
  constructor
  · rw [round2Req, get?_sent_object]
    · rfl
    · exact hnd
  · rw [round2Req, get?_sent_object]
    · rfl
    · exact hnd

/-- The meter and the amount of a request as they arrive. -/
theorem get?_sent_request (request : GenerationRequest) :
    (sent request.toJson).get? "meterId" = some (.str request.meterId) ∧
      (sent request.toJson).get? "amountKwh" = some (.num (.fin request.amountKwh)) := by
  have hnd : ["requestId", "meterId", "amountKwh", "merchantId", "timestamp"].Nodup := by decide
  constructor
  · rw [GenerationRequest.toJson, get?_sent_object]
    · rfl
    · exact hnd
  · rw [GenerationRequest.toJson, get?_sent_object]
    · rfl
    · exact hnd

/-- What arrives under a name was sent under it. -/
theorem prop?_sent {d v : Json} (hd : d.Distinct) {k : String}
    (h : prop? (some (sent d)) k = some v) : ∃ w, d.get? k = some w ∧ sent w = v := by
  rwa [prop?_some, get?_sent k (by rintro fs rfl; exact hd.1), Option.map_eq_some_iff] at h

/-- A text that arrives was sent. -/
theorem prop?_sent_str {d : Json} (hd : d.Distinct) {k x : String}
    (h : prop? (some (sent d)) k = some (.str x)) : d.get? k = some (.str x) := by
  obtain ⟨v, hv, hsent⟩ := prop?_sent hd h
  rw [hv, sent_eq_str.mp hsent]

/-- A number that arrives was sent. -/
theorem prop?_sent_num {d : Json} (hd : d.Distinct) {k : String} {n : Number}
    (h : prop? (some (sent d)) k = some (.num n)) : d.get? k = some (.num n) := by
  obtain ⟨v, hv, hsent⟩ := prop?_sent hd h
  rw [hv, (sent_eq_num.mp hsent).1]

/-- **Wall 1 at a signer.** A debit that a signer of the set accepts is one of the meter, the
amount and the price of the request. -/
theorem accepted_debit {r : PipelineRecord cfg} {d : Json} {payload : TokenPayload}
    {hex key : String}
    {commitments : List SentCommitment} (hd : r.debit = some d) (hdistinct : d.Distinct)
    (h : runWall1TokenChecks P (some (sent (round2Req r payload hex commitments))) key = .ok none) :
    d.get? "meterId" = some (.str r.request.meterId) ∧
      d.get? "amountKwh" = some (.num (.fin r.request.amountKwh)) ∧
      d.get? "amount" = some (.num (priceZar (.fin r.request.amountKwh))) := by
  obtain ⟨expected, haccepted⟩ := runWall1TokenChecks_ok h
  obtain ⟨-, -, hmeter, hkwh, ⟨price, hprice, hamount⟩, -⟩ := haccepted.validated
  obtain ⟨hrequest, hdebit⟩ := @get?_sent_round2Req cfg r payload hex commitments
  obtain ⟨hmeterId, hamountKwh⟩ := get?_sent_request r.request
  rw [hrequest, hdebit, hd, prop?_some (sent r.request.toJson), hmeterId] at hmeter
  rw [hrequest, hdebit, hd, prop?_some (sent r.request.toJson), hamountKwh] at hkwh
  rw [hrequest, prop?_some, hamountKwh] at hprice
  rw [hdebit, hd] at hamount
  refine ⟨prop?_sent_str hdistinct (strictEq_str.mp hmeter),
    prop?_sent_num hdistinct (eq_of_strictEq hkwh), ?_⟩
  obtain rfl : priceZar (.fin r.request.amountKwh) = price := Except.ok.inj hprice
  exact prop?_sent_num hdistinct (eq_of_strictEq hamount)

/-- The body of an answer was parsed, and so has distinct names. -/
theorem HttpResult.body_distinct (P : Platform) (r : HttpResult) : (r.body P).Distinct := by
  rw [HttpResult.body]
  cases h : parse P.numeral r.text with
  | none => trivial
  | some v => exact parse_distinct h

/-- **Two walls.** Whatever the bank, the signers and the ledger answer, a run credits a meter only
for a record that both walls and the ledger have passed. If a signer of the set follows the code,
the token is for the meter and the amount of the request, and the debit is at its price. -/
theorem two_walls (P : Platform) (env : CoordinatorEnv cfg) (rid : ℕ) (world : CoordinatorWorld cfg)
    (request : GenerationRequest) (s : Store cfg) (H : Set (SignerInfo cfg.SignerId))
    (hstart : s.account rid = ⟨.new cfg request, .none⟩)
    (hrun : (runPipeline P env rid).Along world
      (fun q s a s' => s'.account rid = s.account rid ∧ Followed P H q a) [] s)
    {t : CoordinatorTrace (Store cfg) cfg} {s₁ s₂ : Store cfg}
    (hwrote : t ++ [.wrote s₁ s₂] <+: ((runPipeline P env rid).run world [] s).trace)
    (hcredits : Credits s₁ s₂) :
    TwoWalls P env t (s₁.heap rid) ∧
      ∀ i ∈ H, i ∈ cfg.SIGNERS → i.signerId ∈ (s₁.heap rid).signerSet.getD [] →
        ∃ token d, (s₁.heap rid).token = some token ∧ (s₁.heap rid).debit = some d ∧
          token.meterId = some (.str (s₁.heap rid).request.meterId) ∧
          token.amountKwh = some (.num (.fin (s₁.heap rid).request.amountKwh)) ∧
          d.get? "amount" = some (.num (priceZar (.fin (s₁.heap rid).request.amountKwh))) := by
  have hmeets := @run_meets cfg P env rid world request s (fun _ _ => True) hstart
    (hrun.mono fun _ _ _ _ h => ⟨h.1, trivial⟩)
  obtain ⟨u', heq, hmove⟩ := hmeets.wrote t s₁ s₂ hwrote
  obtain rfl : s₂ = u' := heq
  have ht : t <+: ((runPipeline P env rid).run world [] s).trace :=
    (List.prefix_append _ _).trans hwrote
  obtain ⟨k, hk, hplace⟩ := hmove.credited hcredits
  rw [List.nil_append] at hplace
  have hwalls := hplace.twoWalls hk
  refine ⟨hwalls, fun i hi hmem hin => ?_⟩
  obtain ⟨token, signerSet, commitments, htoken, hset, -, -, hkept⟩ := hwalls.signerSet
  rw [show (Lens.whole (Store cfg)).view s₁ = s₁ from rfl] at *
  rw [hset] at hin
  obtain ⟨j, hj, hid, share, hshare⟩ := hkept _ hin
  obtain rfl : j = i := List.inj_on_of_nodup_map cfg.nodup_signerId hj hmem hid
  obtain ⟨answer, hanswer, -, hzi⟩ := hshare.sent
  -- the answer is the handler's, which has run the checks of Wall 1
  obtain ⟨-, -, -, hfollows⟩ : ∃ s' s'' : Store cfg, _ ∧ Followed P H _ (some answer) := by
    rcases hrun.answered (ht.subset hanswer) with hnil | hA
    · cases hnil
    · exact hA
  obtain ⟨signer, ledger, u, state, resp, -, hresp, rfl⟩ := hfollows hi answer rfl
  have hbody : HttpResult.body P ⟨resp.status, stringify P.numeral resp.body⟩ = sent resp.body := by
    rw [HttpResult.body, parse_stringify]
    rfl
  rw [hbody] at hzi
  have hgiven : ¬ resp.Withheld := fun hno => by
    rw [get?_sent_eq_none hno] at hzi
    cases hzi
  obtain ⟨json, key, hjson, hchecks⟩ := round2_accepted hresp hgiven
  obtain rfl := Option.some.inj hjson
  obtain ⟨d, hd, hdebited⟩ := hplace.backed.debited
  have hdistinct : d.Distinct := by
    obtain ⟨answer', -, -, rfl⟩ := hdebited.heard
    exact answer'.body_distinct P
  obtain ⟨hmeter, hkwh, hprice⟩ := accepted_debit hd hdistinct hchecks
  obtain ⟨token', htoken', hpayload, -⟩ := hwalls.token
  obtain rfl : token = token' := Option.some.inj (htoken.symm.trans htoken')
  rw [show (s₁.heap rid).debit = some d from hd] at hpayload
  obtain ⟨hm, ha, -⟩ := buildTokenPayload_ok hpayload
  exact ⟨token, d, htoken, hd, hm.trans hmeter, ha.trans hkwh, hprice⟩

/-- The write changes what the first meter has dispensed. -/
def Small.creditsFirst : Entry (Store config) (CoordinatorCall config) CoordinatorCall.Answer → Bool
  | .wrote s s' => s'.dispensesOf (some (.str "MTR-1001")) ≠ s.dispensesOf (some (.str "MTR-1001"))
  | .answered _ _ => false

/-- The small run credits a meter. -/
theorem small_credited : (Small.executed Small.working).trace.any Small.creditsFirst = true := by
  decide +kernel

/-- All members over the small platform follow the code. -/
theorem small_followed (q : CoordinatorCall config) :
    Followed Small.platform Set.univ q (Small.working q) := by
  cases q with
  | round2 i body =>
      intro _ r hr
      simp only [Small.working] at hr
      split at hr
      next resp hresp =>
        cases hr
        exact ⟨Small.member i, Small.ledger, [], Small.committed, resp, rfl, hresp, rfl⟩
      next => cases hr
  | _ => trivial

/-- A run over the small platform that credits a meter; all members follow the code. -/
theorem two_walls_small : ∃ t s₁ s₂, Credits s₁ s₂ ∧
    TwoWalls Small.platform Small.coordinatorEnv t (s₁.heap 0) ∧
    ∀ i ∈ config.SIGNERS, i.signerId ∈ (s₁.heap 0).signerSet.getD [] →
      ∃ token : Token, (s₁.heap 0).token = some token ∧
        token.meterId = some (.str (s₁.heap 0).request.meterId) := by
  have hany := small_credited
  rw [Small.executed] at hany
  obtain ⟨entry, hmem, hentry⟩ := List.any_eq_true.mp hany
  obtain ⟨t, t', htrace⟩ := List.append_of_mem hmem
  cases entry with
  | answered q r => cases hentry
  | wrote s₁ s₂ =>
      have hcredits : Credits s₁ s₂ := ⟨_, .inr (of_decide_eq_true hentry)⟩
      have hwalls := two_walls Small.platform Small.coordinatorEnv 0 (Small.still Small.working)
        Small.generationRequest Small.opened Set.univ small_opened
        (Prog.along_of_forall (fun _ q s => ⟨rfl, small_followed q⟩) _ _ _)
        ⟨t', by rw [htrace, List.append_assoc]; rfl⟩ hcredits
      refine ⟨t, s₁, s₂, hcredits, hwalls.1, fun i hi hin => ?_⟩
      obtain ⟨token, d, htoken, -, hmeter, -⟩ := hwalls.2 i (Set.mem_univ i) hi hin
      exact ⟨token, htoken, hmeter⟩

end NoGhost
