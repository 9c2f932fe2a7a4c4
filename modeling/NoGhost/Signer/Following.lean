import NoGhost.Frost.Signing
import NoGhost.Signer

/-!
# Members at Work

What a member answers that follows the code, while others use it too. A handler is followed from
its request to its response: at every resumption the state of the member may be any, and what it
is told of the ledger is what a predicate allows.

## Main results

* `committed_of_round1`: an answer of round 1 commits to nonces that are stored.
* `refused_of_round2`, `partial_of_round2`: the answers of round 2.
* `fragment_of_signReceipt`: the answer to a receipt.
-/

open Js Async

namespace NoGhost

variable {P : Platform} {cfg : Config} {env : SignerEnv cfg}

/-! ### What the others leave alone -/

/-- The others leave the flags of a member alone, and the session of one request, while they may
open and drop sessions of others. -/
structure LeavesAlone (sessionId : String) (m m' : SignerState) : Prop where
  online : m'.online = m.online
  refuse : m'.refuse = m.refuse
  session : m'.sessions.get sessionId = m.sessions.get sessionId

/-- Nothing leaves a session alone. -/
theorem LeavesAlone.refl (sessionId : String) (m : SignerState) : LeavesAlone sessionId m m :=
    ⟨rfl, rfl, rfl⟩

/-- A member answers a request: what it is told at its awaits is allowed, and at every resumption
its state may be any. -/
inductive Serves (A : (q : SignerCall) → q.Answer → Prop) :
    SignerProg Response → SignerState → Response → Prop
  | done {p : SignerProg Response} {m m' : SignerState} {answer : Response}
      (h : p.settle m = (.ret answer, m')) : Serves A p m answer
  | told {p : SignerProg Response} {m m' m'' : SignerState} {answer : Response} {q : SignerCall}
      {a : q.Answer} {k : q.Answer → SignerProg Response} (h : p.settle m = (.await q k, m'))
      (ha : A q a) (hrest : Serves A (k a) m'' answer) : Serves A p m answer

section Serves

variable {A : (q : SignerCall) → q.Answer → Prop} {p : SignerProg Response} {m m' : SignerState}
  {answer a : Response}

/-- A handler that returns has answered so. -/
theorem Serves.ret (h : Serves A p m answer) {w : SignerState} (hp : p.settle m = (.ret a, w)) :
    answer = a := by
  cases h with
  | done h =>
      rw [hp] at h
      cases h
      rfl
  | told h _ _ =>
      rw [hp] at h
      cases h

theorem Serves.await {q : SignerCall} {k : q.Answer → SignerProg Response}
    (h : Serves A p m answer) (hp : p.settle m = (.await q k, m')) :
    ∃ (a : q.Answer) (m'' : SignerState), A q a ∧ Serves A (k a) m'' answer := by
  cases h with
  | done h =>
      rw [hp] at h
      cases h
  | told h ha hrest =>
      rw [hp] at h
      cases h
      exact ⟨_, _, ha, hrest⟩

end Serves

/-! ### Round 1 -/

/-- What a member sends of its commitment. -/
def commitmentAnswer (env : SignerEnv cfg) (out : Frost.Round1Output) : Json :=
  object [signerField env, identifierField env, ("commitment", some (object
    [("hiding", some (.str out.hidingHex)), ("binding", some (.str out.bindingHex))]))]

/-- A session is found when it has not expired. -/
theorem get_sweepExpiredSessions {m : SignerState} {sessionId : String} {session : Session}
    (hget : m.sessions.get sessionId = some session)
    (hfresh : m.clock - SESSION_TTL_MS ≤ session.createdAt) :
    (sweepExpiredSessions m).sessions.get sessionId = some session := by
  have hall : ∀ l : JsMap String Session, l.get sessionId = some session →
      JsMap.get (l.filter fun e => !(e.2.createdAt < m.clock - SESSION_TTL_MS)) sessionId =
        some session := by
    intro l hl
    induction l with
    | nil => cases hl
    | cons e l ih =>
        obtain ⟨k, v⟩ := e
        rw [JsMap.get, List.lookup_cons] at hl
        cases hk : sessionId == k with
        | true =>
            rw [hk] at hl
            cases hl
            rw [List.filter_cons_of_pos (by simpa using hfresh), JsMap.get, List.lookup_cons, hk]
        | false =>
            rw [hk] at hl
            rw [List.filter_cons]
            split
            · rw [JsMap.get, List.lookup_cons, hk]
              exact ih hl
            · exact ih hl
  exact hall m.sessions hget

/-- **Round 1.** An answer of a member that is online is a commitment to nonces that it has
stored. -/
theorem committed_of_round1 {share : ShareFile} {m m' : SignerState} {body : Option Json}
    {sessionId : String} {draws : List Bytes} {answer : Response} (hshare : env.share = some share)
    (honline : m.online = true) (hsession : truthyText (sessionIdOf body) = some sessionId)
    (h : (round1 P env body draws).settle m = (.ret answer, m')) :
    ∃ d e out session, Frost.commit P.toCurve d e = .ok out ∧
      answer = .json (commitmentAnswer env out) ∧ m'.online = m.online ∧ m'.refuse = m.refuse ∧
      m'.sessions.get sessionId = some session ∧ session.nonces = out.nonces := by
  simp only [round1, bind, Prog.bind, Prog.gets, Prog.settle, honline, Bool.not_true,
    Bool.false_eq_true, if_false, hshare, hsession, Prog.modify] at h
  cases hout : Frost.round1 P.toCurve share.secretShare draws with
  | none =>
      rw [hout] at h
      cases h
  | some out =>
      rw [hout] at h
      cases out with
      | error e => cases h
      | ok out =>
          cases h
          obtain ⟨d, e, hcommit⟩ : ∃ d e, Frost.commit P.toCurve d e = .ok out := by
            rw [Frost.round1] at hout
            split at hout
            · cases hout
            · obtain ⟨x, -, hout⟩ := Option.bind_eq_some_iff.mp hout
              obtain ⟨y, -, hout⟩ := Option.bind_eq_some_iff.mp hout
              exact ⟨_, _, Option.some.inj hout⟩
          exact ⟨d, e, out, _, hcommit, rfl, rfl, rfl, JsMap.get_set_self (by simp), rfl⟩

/-! ### Round 2 -/

/-- What a refusing member answers, with its reason. -/
def refusalAnswer (env : SignerEnv cfg) (reason : Option String) : Response :=
  ⟨403, object [("refused", some (.bool true)), signerField env,
    ("reason", some (.str (reason.getD "refusing to sign")))]⟩

/-- **A refusal** is the answer of a refusing member to any body, whether or not the body could be
signed. -/
theorem refused_of_round2 {A : (q : SignerCall) → q.Answer → Prop} {m : SignerState}
    {body : Option Json} {answer : Response} (honline : m.online = true) (hrefuse : m.refuse = true)
    (h : Serves A (round2 P env body) m answer) : answer = refusalAnswer env m.refuseReason := by
  have hsettle : ∃ m', (round2 P env body).settle m =
      (.ret (refusalAnswer env m.refuseReason), m') := by
    simp only [round2, bind, Prog.bind, Prog.gets, Prog.settle, honline, Bool.not_true,
      Bool.false_eq_true, if_false, Prog.modify, sweepExpiredSessions, hrefuse,
      if_true, round2Refused]
    cases sessionIdOf body <;> exact ⟨_, rfl⟩
  obtain ⟨m', hsettle⟩ := hsettle
  exact h.ret hsettle

/-- What a member sends of its partial, with its name and identifier. -/
def partialAnswer (env : SignerEnv cfg) (zi : String) : Json :=
  object [signerField env, identifierField env, ("zi", some (.str zi))]

/-- What a member reads off the ledger shows a quorum for a request. -/
def ShowsQuorum (P : Platform) (M : ConsortiumManifest cfg) (requestHash : String) :
    (q : SignerCall) → q.Answer → Prop
  | .accountTx _, answer => ∃ txs approvals, answer = Except.ok txs ∧
      readApprovals P M requestHash txs = .ok approvals ∧
      cfg.XRPL_MULTISIGN_QUORUM ≤ approveCount approvals
  | _, _ => True

/-- A reading that shows a quorum is the only one. -/
theorem settle_onChainApproveCount {M : ConsortiumManifest cfg} (hM : env.manifest = .ok M)
    (requestHash : String) (m : SignerState) :
    ∃ k, (onChainApproveCount P env requestHash).settle m = (.await (.accountTx M.authority) k, m) ∧
      ∀ (a : Except String (List LedgerTx)) (m' : SignerState),
        ShowsQuorum P M requestHash (.accountTx M.authority) a →
        ∃ n, cfg.XRPL_MULTISIGN_QUORUM ≤ n ∧ (k a).settle m' = (.ret n, m') := by
  refine ⟨?k, ?first, fun a m' ha => ?_⟩
  case first =>
    simp only [onChainApproveCount, countAttempts, readApproveCount, bind, Prog.bind,
      Prog.ofExcept, hM,
      Prog.call, Prog.settle]
    rfl
  obtain ⟨txs, approvals, rfl, hread, hn⟩ := ha
  refine ⟨approveCount approvals, hn, ?_⟩
  simp only [Prog.bind, hread, pure, ge_iff_le, hn, if_true, Prog.settle]

variable (P env) in
/-- What round 2 does behind the gate, once the approvals are counted. -/
def partialGate (share : ShareFile) (sessionId : String) (session : Session) (body : Round2Body)
    (n : ℕ) : SignerProg Response :=
  if n < cfg.XRPL_MULTISIGN_QUORUM then do
    Prog.modify (deleteSession sessionId)
    pure ⟨409, object [("error", some (.str "NO_ONCHAIN_QUORUM")),
      ("detail", some (.str ("only " ++ toString n ++ " on-chain approvals; need " ++
        toString cfg.XRPL_MULTISIGN_QUORUM)))]⟩
  else
    match signPartial P env share session.nonces body with
    | .ok zi => do
        Prog.modify fun s => deleteSession sessionId (recordPartial session s)
        pure (.json (object [signerField env, identifierField env, ("zi", some (.str zi))]))
    | .error e => do
        Prog.modify (deleteSession sessionId)
        pure ⟨500, object [("error", some (.str "signing failed")), ("detail", some (.str e))]⟩

variable (P env) in
/-- The gate of round 2 is a count, and what is done with it. -/
theorem round2Gate_eq (share : ShareFile) (sessionId : String) (session : Session)
    (body : Round2Body) : round2Gate P env share sessionId session body =
      onChainApproveCount P env (hashValue P (body.json.get? "request")) >>=
        partialGate P env share sessionId session body := rfl

/-- **Round 2.** A member that does not refuse, and that accepts the body, answers with its
partial. -/
theorem partial_of_round2 {M : ConsortiumManifest cfg} {share : ShareFile}
    {key sessionId zi : String}
    {m : SignerState} {body : Json} {session : Session} {parsed : Round2Body} {answer : Response}
    (honline : m.online = true) (hrefuse : m.refuse = false) (hshare : env.share = some share)
    (hkey : truthyText env.pinnedBankPublicKey = some key) (hM : env.manifest = .ok M)
    (hid : sessionIdOf (some body) = some sessionId)
    (hget : m.sessions.get sessionId = some session)
    (hfresh : m.clock - SESSION_TTL_MS ≤ session.createdAt) (hbody : round2Body body = some parsed)
    (hwall : runWall1TokenChecks P (some body) key = .ok none)
    (hsign : signPartial P env share session.nonces parsed = .ok zi)
    (h : Serves (ShowsQuorum P M (hashValue P (parsed.json.get? "request")))
      (round2 P env (some body)) m answer) :
    answer = .json (partialAnswer env zi) := by
  have hfound := get_sweepExpiredSessions hget hfresh
  have honline' : (sweepExpiredSessions m).online = true := honline
  have hrefuse' : (sweepExpiredSessions m).refuse = false := hrefuse
  obtain ⟨k, hcount, hgoes⟩ := settle_onChainApproveCount (P := P) hM
    (hashValue P (parsed.json.get? "request")) (sweepExpiredSessions m)
  have hgate := Prog.settle_bind_await (partialGate P env share sessionId session parsed) hcount
  have hsettle : (round2 P env (some body)).settle m =
      (onChainApproveCount P env (hashValue P (parsed.json.get? "request")) >>=
        partialGate P env share sessionId session parsed).settle (sweepExpiredSessions m) := by
    refine Eq.trans ?_
      (congrArg (Prog.settle · _) (round2Gate_eq P env share sessionId session parsed))
    simp only [round2, bind, Prog.bind, Prog.gets, Prog.settle, honline, Bool.not_true,
      Bool.false_eq_true, if_false, Prog.modify, hrefuse', hid, hfound, round2Checks,
      hshare, hkey, hbody,
      Prog.ofExcept, hwall]
  obtain ⟨a, m', ha, hrest⟩ := h.await (hsettle.trans hgate)
  obtain ⟨n, hn, hret⟩ := hgoes a m' ha
  refine hrest.ret (w := deleteSession sessionId (recordPartial session m')) ?_
  rw [Prog.settle_bind_ret _ hret, partialGate, if_neg (not_lt.mpr hn), hsign]
  rfl

/-! ### Receipts -/

variable (env) in
/-- What the signing of a receipt does behind the gate. -/
def receiptGate (wallet : Wallet) (prepared : Json) (n : ℕ) : SignerProg Response :=
  if n < cfg.XRPL_MULTISIGN_QUORUM then
    pure ⟨409, object [("error", some (.str "NO_ONCHAIN_QUORUM")),
      ("approveCount", some (.num (.fin n)))]⟩
  else
    match wallet.sign prepared with
    | .ok fragment => pure (.json (object [signerField env, ("fragment", some (.str fragment))]))
    | .error e => pure ⟨500, object [("error", some (.str "fragment signing failed")),
        ("detail", some (.str e))]⟩

/-- **A receipt** is signed by a member with a wallet, once the ledger shows a quorum of approvals.
-/
theorem fragment_of_signReceipt {M : ConsortiumManifest cfg} {wallet : Wallet}
    {requestHash fragment : String} {prepared : Json} {m : SignerState} {body : Option Json}
    {answer : Response} (honline : m.online = true) (hwallet : env.xrplWallet = some wallet)
    (hM : env.manifest = .ok M) (hprepared : prop? body "prepared" = some prepared)
    (htruthy : prepared.truthy = true) (hhash : prop? body "requestHash" = some (.str requestHash))
    (hsign : wallet.sign prepared = .ok fragment)
    (h : Serves (ShowsQuorum P M requestHash) (signReceipt P env body) m answer) :
    answer = .json (object [signerField env, ("fragment", some (.str fragment))]) := by
  obtain ⟨k, hcount, hgoes⟩ := settle_onChainApproveCount (P := P) hM requestHash m
  have hgate := Prog.settle_bind_await (receiptGate env wallet prepared) hcount
  have hfound : (prop? body "prepared").filter Json.truthy = some prepared := by
    rw [hprepared, Option.filter_some, htruthy, if_pos rfl]
  have hsettle : (signReceipt P env body).settle m =
      (onChainApproveCount P env requestHash >>= receiptGate env wallet prepared).settle m := by
    have hgets : (Prog.gets (·.online) : SignerProg Bool).settle m = (.ret true, m) := by
      rw [← honline]
      rfl
    rw [signReceipt, Prog.settle_bind_ret _ hgets, Bool.not_true,
      if_neg Bool.false_ne_true, hwallet,
      hfound, hhash]
    rfl
  obtain ⟨a, m', ha, hrest⟩ := h.await (hsettle.trans hgate)
  obtain ⟨n, hn, hret⟩ := hgoes a m' ha
  refine hrest.ret (w := m') ?_
  rw [Prog.settle_bind_ret _ hret, receiptGate, if_neg (not_lt.mpr hn), hsign]
  rfl

end NoGhost
