import NoGhost.Signer.Attestations
import NoGhost.Signer.Sessions

/-!
# Refusing Members

What one member contributes while its governance flag is set, over every interleaving of its
handlers. Round 2 tests the flag when it starts and a validation tests it when it judges, so both
may go on for a while after the flag was set; the handler that signs receipts never tests it.

## Main results

* `settle_validate`: a validation judges in the segment in which it hands its attestation over.
* `Composed.act`: what every action preserves.
* `refusing_silent`: when no partial, receipt or approval is under way as the flag is set, and no
  receipt is asked for while it is, a refusing member contributes nothing.
* `refusing_cosigns`: without that, it does.
-/

open Js Async

namespace NoGhost

variable (P : Platform) {cfg : Config} (env : SignerEnv cfg)

/-! ### Contributions -/

/-- A response without a partial signature or a receipt fragment. -/
def Response.Silent (r : Response) : Prop :=
  r.body.get? "zi" = none ∧ r.body.get? "fragment" = none

/-- The transaction approves a request: it is the attestation of some member with the verdict
APPROVE. -/
def Approving (tx : Tx) : Prop :=
  ∃ address signerId requestHash reason,
    tx = approvalTx P address signerId requestHash .APPROVE reason

/-- What a member contributes by an action: it hands over an approval, an approval of its is
accepted, or it returns a partial signature or a receipt fragment. -/
inductive Contributes (c : SignerPool)
    (a : Action SignerState SignerCall SignerCall.Answer SignerRequest) : Prop
  | submits (sub : Submission) (happrove : sub.verdict = .APPROVE)
      (hsub : sub ∈ ((signerGame P env).act c a).state.submitted) (hnew : sub ∉ c.state.submitted)
  | posts (i : ℕ) (answer : (q : SignerCall) → q.Answer) (ha : a = .resume i answer)
      (req : SignerRequest) (start : SignerState) (tx : Tx)
      (k : Except String String → SignerProg Response)
      (hp : c.procs[i]? = some ⟨req, start, .await (.submit tx) k⟩) (happrove : Approving P tx)
      (haccepted : ∃ txHash, answer (.submit tx) = .ok txHash)
  | returns (i : ℕ) (p : Proc SignerState SignerState String SignerCall SignerCall.Answer Response
        SignerRequest) (r : Response)
      (hp : ((signerGame P env).act c a).procs[i]? = some p) (hnew : c.procs[i]? ≠ some p)
      (hr : p.prog = .ret r) (hspeaks : ¬ r.Silent)

/-! ### The condition -/

/-- The request sets the flag: it is the administrator's, with `refuse` the truth value `true`. -/
def SignerRequest.Sets : SignerRequest → Prop
  | .refuse body => prop? body "refuse" = some (.bool true)
  | _ => False

/-- A validation is under way that has no approval with the ledger. -/
def Innocuous (p : Proc SignerState SignerState String SignerCall SignerCall.Answer Response
    SignerRequest) : Prop :=
  (∃ body, p.req = .validate body) ∧
    ∀ tx k, p.prog = .await (.submit tx) k → ¬ Approving P tx

/-- A receipt is asked for that the member is able to sign: it is online, has a wallet, and the body
has what it reads. -/
def ReceiptDue (s : SignerState) : SignerRequest → Prop
  | .signReceipt body => s.online = true ∧ env.xrplWallet.isSome = true ∧
      ((prop? body "prepared").filter Json.truthy).isSome = true ∧
      ((prop? body "requestHash").bind (·.asString)).isSome = true
  | _ => False

/-- The flag is set while nothing harmful is under way, and while it is set no receipt is asked
for. -/
def Calm (c : SignerPool) (req : SignerRequest) : Prop :=
  (req.Sets → ∀ p ∈ c.procs, p.Suspended → Innocuous P p) ∧
    (c.state.refuse = true → ¬ ReceiptDue env c.state req)

/-! ### What a segment leaves -/

/-- Nothing is attested but refusals, nothing is returned, and no approval waits for the ledger. -/
structure Hushed (s : SignerState) (out : SignerProg Response × SignerState) : Prop where
  submitted : ∀ sub ∈ out.2.submitted, sub ∈ s.submitted ∨ sub.verdict = .REJECT
  returned : ∀ r, out.1 = .ret r → r.Silent
  waiting : ∀ tx k, out.1 = .await (.submit tx) k → ¬ Approving P tx

/-- The flag is not raised: it may stay or be taken back. -/
def KeepsFlag (s s' : SignerState) : Prop := s'.refuse = true → s.refuse = true

/-- The handler is done: it has attested nothing, and what it returns, if it returns, holds no
partial and no fragment. -/
structure Ended (s : SignerState) (out : SignerProg Response × SignerState) : Prop where
  submitted : out.2.submitted = s.submitted
  done : (∃ r, out.1 = .ret r ∧ r.Silent) ∨ ∃ e, out.1 = .throw e

/-- The handler has handed an attestation to the ledger client, a refusal if the flag is set, and
is done when the ledger has answered. -/
def Attests (s : SignerState) (out : SignerProg Response × SignerState) : Prop :=
  ∃ (sub : Submission) (address signerId : String) (reason : Option String)
    (k : Except String String → SignerProg Response),
    out = (.await (.submit sub.tx) k, recordSubmission sub s) ∧
    sub.tx = approvalTx P address signerId sub.requestHash sub.verdict reason ∧
    (s.refuse = true → sub.verdict = .REJECT) ∧
    ∀ answer s', Ended s' ((k answer).settle s') ∧ KeepsFlag s' ((k answer).settle s').2

variable {P env}

/-- A handler that has ended without a partial is hushed. -/
theorem Ended.quiet {s : SignerState} {out : SignerProg Response × SignerState} (h : Ended s out) :
    Hushed P s out := by
  refine ⟨fun sub hsub => .inl (h.submitted ▸ hsub), fun r hr => ?_, fun tx k hwait => ?_⟩
  · rcases h.done with ⟨r', hr', hsilent⟩ | ⟨e, he⟩
    · cases hr'.symm.trans hr
      exact hsilent
    · cases he.symm.trans hr
  · rcases h.done with ⟨r', hr', -⟩ | ⟨e, he⟩
    · cases hr'.symm.trans hwait
    · cases he.symm.trans hwait

/-- A refusal can be told from an approval by its memo. -/
theorem not_approving {address signerId requestHash : String} {reason : Option String} :
    ¬ Approving P (approvalTx P address signerId requestHash .REJECT reason) := by
  rintro ⟨address', signerId', requestHash', reason', heq⟩
  cases approvalTx_verdict heq

/-- A validation that attests while the flag is set attests no approval. -/
theorem Attests.quiet {s : SignerState} {out : SignerProg Response × SignerState}
    (h : Attests P s out) (hrefuse : s.refuse = true) : Hushed P s out := by
  obtain ⟨sub, address, signerId, reason, k, rfl, htx, hverdict, -⟩ := h
  have hreject := hverdict hrefuse
  refine ⟨fun sub' hsub' => ?_, fun r hr => (nomatch hr), fun tx k' hwait => ?_⟩
  · rcases List.mem_append.mp hsub' with hsub' | hsub'
    · exact .inl hsub'
    · rw [List.mem_singleton.mp hsub']
      exact .inr hreject
  · cases hwait
    rw [htx, hreject]
    exact not_approving

/-- The verdict of a member with the flag set is never an approval, since the flag is the first
thing it looks at. -/
theorem judge_refused {s : SignerState} {key requestHash : String} {payload : Json}
    {verdict : Verdict} {reason : Option String} (hrefuse : s.refuse = true)
    (h : judge P s key requestHash payload = .ok (verdict, reason)) : verdict = .REJECT := by
  rw [judge] at h
  obtain ⟨request, -, h⟩ := bind_eq_ok.mp h
  rw [hrefuse] at h
  split at h
  · cases h
    rfl
  · cases h
    rfl

/-- What the ledger answered to an attestation ends the handler. -/
theorem ended_ret {s s' : SignerState} {r : Response} (hr : r.Silent)
    (hs : s'.submitted = s.submitted) : Ended s (.ret r, s') := ⟨hs, .inl ⟨r, rfl, hr⟩⟩

/-- **Attesting, segment by segment.** It reads the request off the ledger, and with that it
raises, ends, or attests. -/
theorem settle_attest (wallet : Wallet) (key requestTxHash : String) (s : SignerState) :
    ∃ k, (((attest P env wallet key requestTxHash).tryCatch fun e =>
        pure ⟨500, object [("error", some (.str "validate failed")), ("detail", some (.str e))]⟩)
        : SignerProg Response).settle s = (.await (.tx requestTxHash) k, s) ∧
      ∀ answer s', KeepsFlag s' ((k answer).settle s').2 ∧
        (Ended s' ((k answer).settle s') ∨ Attests P s' ((k answer).settle s')) := by
  refine ⟨?k, ?first, fun answer s' => ?_⟩
  case first =>
    simp only [attest, bind, Prog.bind, Prog.call, Prog.tryCatch, Prog.settle]
    rfl
  have hfail : ∀ e : String, Response.Silent ⟨500, object [("error",
      some (.str "validate failed")), ("detail", some (.str e))]⟩ := fun e => ⟨rfl, rfl⟩
  cases answer with
  | error e => exact ⟨id, .inl (ended_ret (hfail e) rfl)⟩
  | ok tx =>
      cases hread : readRequest P env.encKey tx.toTx with
      | error e =>
          simp only [Prog.bind, Prog.ofExcept, hread, Prog.tryCatch]
          exact ⟨id, .inl (ended_ret (hfail e) rfl)⟩
      | ok read =>
      cases read with
      | none =>
          simp only [Prog.bind, Prog.ofExcept, hread]
          exact ⟨id, .inl (ended_ret ⟨rfl, rfl⟩ rfl)⟩
      | some read =>
      obtain ⟨requestHash, payload⟩ := read
      cases hcache : s'.approvedOnChain.get requestHash with
      | some cached =>
          simp only [Prog.bind, Prog.ofExcept, hread, Prog.tryCatch, Prog.settle, Prog.gets, hcache]
          exact ⟨id, .inl (ended_ret ⟨rfl, rfl⟩ rfl)⟩
      | none =>
      cases hjudge : judge P s' key requestHash payload with
      | error e =>
          simp only [Prog.bind, Prog.ofExcept, hread, Prog.tryCatch, Prog.settle, Prog.gets, hcache,
            id, hjudge]
          exact ⟨id, .inl (ended_ret (hfail e) rfl)⟩
      | ok judged =>
      obtain ⟨verdict, reason⟩ := judged
      cases hM : env.manifest with
      | error e =>
          simp only [bind, Prog.bind, Prog.ofExcept, hread, Prog.tryCatch, Prog.settle, Prog.gets,
            hcache, id, hjudge, postApproval, hM]
          exact ⟨id, .inl (ended_ret (hfail e) rfl)⟩
      | ok M =>
          simp only [bind, Prog.bind, Prog.ofExcept, hread, Prog.tryCatch, Prog.settle, Prog.gets,
            hcache, id, hjudge, postApproval, hM, Prog.modify, Prog.call]
          refine ⟨fun h => h, .inr ⟨⟨requestHash, payload, verdict, approvalTx P wallet.address
            (cfg.idText env.info.signerId) requestHash verdict reason⟩, _, _, _, _, rfl, rfl,
            fun hrefuse => judge_refused hrefuse hjudge, fun answer' s'' => ?_⟩⟩
          cases answer' with
          | error e => exact ⟨ended_ret (hfail e) rfl, id⟩
          | ok txHash =>
              exact ⟨ended_ret ⟨by cases reason <;> rfl, by cases reason <;> rfl⟩ rfl, id⟩

variable (P env) in
/-- **A validation, segment by segment.** It ends at once, or reads a transaction and then ends or
attests its verdict. -/
theorem settle_validate (body : Option Json) (s : SignerState) :
    (Ended s ((validate P env body).settle s) ∧ ((validate P env body).settle s).2 = s) ∨
      ∃ hash k, (validate P env body).settle s = (.await (.tx hash) k, s) ∧
        ∀ answer s', KeepsFlag s' ((k answer).settle s').2 ∧
          (Ended s' ((k answer).settle s') ∨ Attests P s' ((k answer).settle s')) := by
  cases honline : s.online with
  | false =>
      simp only [validate, bind, Prog.bind, Prog.gets, Prog.settle, honline,
        Bool.not_false, if_true]
      exact .inl ⟨ended_ret ⟨rfl, rfl⟩ rfl, rfl⟩
  | true =>
      simp only [validate, bind, Prog.bind, Prog.gets, Prog.settle, honline, Bool.not_true,
        Bool.false_eq_true, if_false]
      split
      · split
        · exact .inl ⟨ended_ret ⟨rfl, rfl⟩ rfl, rfl⟩
        · exact .inr ⟨_, settle_attest _ _ _ s⟩
      · exact .inl ⟨ended_ret ⟨rfl, rfl⟩ rfl, rfl⟩

/-! ### The handlers at the gate -/

/-- A call that hands nothing to the ledger. -/
def Reading : SignerCall → Prop
  | .submit _ => False
  | _ => True

/-- The attempts to count the approvals only read the ledger. -/
theorem calls_countAttempts (requestHash : String) (attempts : ℕ) :
    (countAttempts P env requestHash attempts).Calls Reading := by
  have hread : (readApproveCount P env requestHash).Calls Reading :=
    (Prog.calls_ofExcept _).bind fun M => (Prog.calls_call trivial).bind fun txs =>
      (Prog.calls_ofExcept _).bind fun txs => (Prog.calls_ofExcept _).bind fun approvals => trivial
  induction attempts with
  | zero => exact hread
  | succ attempts ih =>
      refine hread.bind fun n => ?_
      split
      · trivial
      · exact (Prog.calls_call trivial).bind fun _ => ih

/-- The gate of round 2 only reads the ledger, attempt after attempt. -/
theorem calls_round2Gate (share : ShareFile) (sessionId : String) (session : Session)
    (body : Round2Body) : (round2Gate P env share sessionId session body).Calls Reading := by
  refine (calls_countAttempts _ _).bind fun n => ?_
  split
  · exact (Prog.calls_modify _).bind fun _ => trivial
  · split <;> exact (Prog.calls_modify _).bind fun _ => trivial

/-- Round 2 reads the ledger at its gate, and hands nothing to it. -/
theorem calls_round2 (body : Option Json) : (round2 P env body).Calls Reading := by
  refine (Prog.calls_gets _).bind fun online => ?_
  split
  · trivial
  refine (Prog.calls_modify _).bind fun _ => (Prog.calls_gets _).bind fun refuse => ?_
  split
  · exact (Prog.calls_modify _).bind fun _ => (Prog.calls_gets _).bind fun reason => trivial
  split
  · refine (Prog.calls_gets _).bind fun found => ?_
    split
    · trivial
    · unfold round2Checks
      split
      · split
        · trivial
        · refine (Prog.calls_ofExcept _).bind fun failure => ?_
          split
          · exact (Prog.calls_modify _).bind fun _ => trivial
          · exact calls_round2Gate _ _ _ _
      · trivial
  · trivial

/-- A receipt is signed after the approvals were counted on the ledger, and nothing is handed to it.
-/
theorem calls_signReceipt (body : Option Json) : (signReceipt P env body).Calls Reading := by
  refine (Prog.calls_gets _).bind fun online => ?_
  split
  · trivial
  split
  · trivial
  split
  · refine (calls_countAttempts _ _).bind fun n => ?_
    split
    · trivial
    · split <;> trivial
  · trivial

variable (P env) in
/-- The contract of the handlers at the gate: they leave the flag alone, whatever happens. -/
def flagContract : Contract SignerState SignerCall SignerCall.Answer where
  resume _ _ _ _ := True
  segment s s' := s'.refuse = s.refuse

/-- What is left of a handler on its way through the gate: it only reads the ledger, and does not
touch the flag. -/
structure Gating (prog : SignerProg Response) : Prop where
  calls : prog.Calls Reading
  settled : ∃ s, Settled flagContract (Lens.whole SignerState) (fun _ _ => True) (fun _ _ => True)
    prog s

variable (P env) in
/-- Round 2 leaves the flag alone in every segment. -/
theorem flag_round2 (body : Option Json) (s : SignerState) :
    wpa flagContract (Lens.whole SignerState) (round2 P env body)
      (fun _ b s' => s'.refuse = b.refuse ∧ True) (fun _ b s' => s'.refuse = b.refuse ∧ True) s s :=
      by
  have hforgets : ∀ {t}, Forgets s t → t.refuse = s.refuse := fun ht => ht.unattesting.refuse
  refine wpa_round2 (fun r t ht _ => ⟨hforgets ht, trivial⟩) (fun e t ht => ⟨hforgets ht, trivial⟩)
    fun p _ => ?_
  exact wpa_round2Gate (J := fun _ => True) rfl trivial (fun _ _ _ _ _ _ => ⟨trivial, rfl⟩)
    (fun _ _ _ _ => ⟨rfl, trivial⟩) (fun _ _ _ _ _ _ => ⟨rfl, trivial⟩)
    fun _ _ _ hseg _ => ⟨hseg, trivial⟩

variable (P env) in
/-- Signing a receipt leaves the flag alone in every segment. -/
theorem flag_signReceipt (body : Option Json) (s : SignerState) :
    wpa flagContract (Lens.whole SignerState) (signReceipt P env body)
      (fun _ b s' => s'.refuse = b.refuse ∧ True) (fun _ b s' => s'.refuse = b.refuse ∧ True) s s :=
  wpa_signReceipt (J := fun _ => True) rfl trivial (fun _ _ _ _ _ _ => ⟨trivial, rfl⟩)
    (fun _ _ _ hseg _ _ => ⟨hseg, trivial⟩) fun _ _ _ hseg _ => ⟨hseg, trivial⟩

/-- A handler that reads only and leaves the flag alone is at the gate when it is suspended. -/
theorem settle_gating {prog : SignerProg Response} {s : SignerState} (hcalls : prog.Calls Reading)
    (h : wpa flagContract (Lens.whole SignerState) prog
      (fun _ b s' => s'.refuse = b.refuse ∧ True) (fun _ b s' => s'.refuse = b.refuse ∧ True) s s) :
    Gating (prog.settle s).1 ∧ (prog.settle s).2.refuse = s.refuse := by
  obtain ⟨hflag, hsettled⟩ := settle_spec (F := fun _ _ => True) (E := fun _ _ => True) h
  exact ⟨⟨hcalls.settle s, _, hsettled⟩, hflag⟩

/-- A handler at the gate is answered: it is still at the gate, or has returned, and the flag is as
it was. -/
theorem Gating.resume {q : SignerCall} {k : q.Answer → SignerProg Response}
    (h : Gating (.await q k)) (answer : q.Answer) (s : SignerState) :
    Gating ((k answer).settle s).1 ∧ ((k answer).settle s).2.refuse = s.refuse := by
  obtain ⟨hcalls, s₀, hsettled⟩ := h
  exact settle_gating (hcalls.2 answer) (hsettled answer s trivial)

/-! ### What is left of a handler -/

/-- What is left of a validation: it reads the transaction, submits a verdict it has formed, or has
ended. -/
inductive Validating (P : Platform) : SignerProg Response → Prop
  | done (prog : SignerProg Response) (h : (∃ r, prog = .ret r) ∨ ∃ e, prog = .throw e) :
      Validating P prog
  | reading (hash : String) (k : Except String LedgerTx → SignerProg Response)
      (h : ∀ answer s, KeepsFlag s ((k answer).settle s).2 ∧
        (Ended s ((k answer).settle s) ∨ Attests P s ((k answer).settle s))) :
      Validating P (.await (.tx hash) k)
  | posting (tx : Tx) (k : Except String String → SignerProg Response)
      (h : ∀ answer s, Ended s ((k answer).settle s) ∧ KeepsFlag s ((k answer).settle s).2) :
      Validating P (.await (.submit tx) k)

/-- A validation that has ended is one of these cases. -/
theorem Ended.validating {s : SignerState} {out : SignerProg Response × SignerState}
    (h : Ended s out) : Validating P out.1 :=
  .done _ (h.done.imp_left fun ⟨r, hr, _⟩ => ⟨r, hr⟩)

/-- So is one that is about to submit its verdict. -/
theorem Attests.validating {s : SignerState} {out : SignerProg Response × SignerState}
    (h : Attests P s out) : Validating P out.1 := by
  obtain ⟨sub, address, signerId, reason, k, rfl, -, -, hk⟩ := h
  exact .posting _ _ hk

/-- A validation is answered: it goes on to the next case, and raises no flag. -/
theorem Validating.resume {q : SignerCall} {k : q.Answer → SignerProg Response}
    (h : Validating P (.await q k)) (answer : q.Answer) (s : SignerState) :
    Validating P ((k answer).settle s).1 ∧ KeepsFlag s ((k answer).settle s).2 ∧
      (s.refuse = true → Hushed P s ((k answer).settle s)) := by
  cases h with
  | done _ h =>
      rcases h with ⟨r, hr⟩ | ⟨e, he⟩
      · cases hr
      · cases he
  | reading hash _ h =>
      obtain ⟨hflag, hend | hattest⟩ := h answer s
      · exact ⟨hend.validating, hflag, fun _ => hend.quiet⟩
      · exact ⟨hattest.validating, hflag, hattest.quiet⟩
  | posting tx _ h =>
      obtain ⟨hend, hflag⟩ := h answer s
      exact ⟨hend.validating, hflag, fun _ => hend.quiet⟩

/-- What is left of the handler of a request, by the request it serves. -/
def Shaped (P : Platform) : SignerRequest → SignerProg Response → Prop
  | .validate _, prog => Validating P prog
  | .round2 _, prog => Gating prog
  | .signReceipt _, prog => Gating prog
  | _, prog => (∃ r, prog = .ret r) ∨ ∃ e, prog = .throw e

/-! ### The first segment -/

/-- The administrator's switch for the health of the member is done at once, and leaves the flag
alone. -/
theorem ended_online (body : Option Json) (s : SignerState) :
    Ended s ((adminOnline body : SignerProg Response).settle s) ∧
      ((adminOnline body : SignerProg Response).settle s).2.refuse = s.refuse := by
  unfold adminOnline
  split <;> exact ⟨ended_ret ⟨rfl, rfl⟩ rfl, rfl⟩

/-- The administrator's switch for the flag is done at once, and raises it where the body says so.
-/
theorem ended_refuse (body : Option Json) (s : SignerState) :
    Ended s ((adminRefuse body : SignerProg Response).settle s) ∧
      (prop? body "refuse" ≠ some (.bool true) →
        KeepsFlag s ((adminRefuse body : SignerProg Response).settle s).2) := by
  unfold adminRefuse
  split
  next refuse hrefuse =>
    refine ⟨ended_ret ⟨rfl, rfl⟩ rfl, fun hne h => ?_⟩
    change refuse = true at h
    subst h
    exact absurd hrefuse hne
  next => exact ⟨ended_ret ⟨rfl, rfl⟩ rfl, fun _ => id⟩

variable (P env) in
/-- Round 1 is done at once, and leaves the flag alone. -/
theorem ended_round1 (body : Option Json) (draws : List Bytes) (s : SignerState) :
    Ended s ((round1 P env body draws).settle s) ∧
      ((round1 P env body draws).settle s).2.refuse = s.refuse := by
  unfold round1
  simp only [bind, Prog.bind, Prog.gets, Prog.settle]
  split
  · exact ⟨ended_ret ⟨rfl, rfl⟩ rfl, rfl⟩
  split
  · exact ⟨ended_ret ⟨rfl, rfl⟩ rfl, rfl⟩
  · exact ⟨ended_ret ⟨rfl, rfl⟩ rfl, rfl⟩
  simp only [Prog.modify, Prog.bind, Prog.settle]
  split
  · exact ⟨⟨rfl, .inr ⟨_, rfl⟩⟩, rfl⟩
  next out _ =>
    cases out with
    | error e => exact ⟨⟨rfl, .inr ⟨_, rfl⟩⟩, rfl⟩
    | ok out => exact ⟨ended_ret ⟨rfl, rfl⟩ rfl, rfl⟩

/-- A receipt that is not due is turned down at once, without a fragment. -/
theorem ended_signReceipt {body : Option Json} {s : SignerState}
    (h : ¬ ReceiptDue env s (.signReceipt body)) : Ended s ((signReceipt P env body).settle s) := by
  unfold signReceipt
  simp only [bind, Prog.bind, Prog.gets, Prog.settle]
  split
  · exact ended_ret ⟨rfl, rfl⟩ rfl
  next honline =>
    split
    · exact ended_ret ⟨rfl, rfl⟩ rfl
    next wallet hwallet =>
      split
      next prepared requestHash hprepared hhash =>
        exact absurd ⟨by simpa using honline, by rw [hwallet]; rfl, by rw [hprepared]; rfl,
          by rw [hhash]; rfl⟩ h
      next => exact ended_ret ⟨rfl, rfl⟩ rfl

/-- A member that refuses turns round 2 down at once, before it looks at the ledger. -/
theorem ended_round2 {body : Option Json} {s : SignerState} (h : s.refuse = true) :
    Ended s ((round2 P env body).settle s) := by
  have hsweep : (sweepExpiredSessions s).refuse = true := h
  unfold round2
  simp only [bind, Prog.bind, Prog.gets, Prog.settle]
  split
  · exact ended_ret ⟨rfl, rfl⟩ rfl
  · simp only [Prog.modify, Prog.bind, Prog.settle, hsweep, if_true, round2Refused, bind, Prog.gets]
    cases sessionIdOf body <;> exact ended_ret ⟨rfl, rfl⟩ rfl

variable (P env) in
/-- What a request does up to its first await: what is left of it has the shape of its handler, and
a member with the flag set contributes nothing. -/
theorem settle_handler (req : SignerRequest) (s : SignerState) :
    let out := (signerHandler P env req).settle s
    Shaped P req out.1 ∧ (¬ req.Sets → KeepsFlag s out.2) ∧
      (s.refuse = true → ¬ ReceiptDue env s req →
        Ended s out ∨ (∃ body, req = .validate body) ∧ Hushed P s out) := by
  have hdone : ∀ {out : SignerProg Response × SignerState}, Ended s out →
      (∃ r, out.1 = .ret r) ∨ ∃ e, out.1 = .throw e := fun h =>
    h.done.imp_left fun ⟨r, hr, _⟩ => ⟨r, hr⟩
  cases req with
  | sweep =>
      have h : Ended s ((signerHandler P env .sweep).settle s) := ended_ret ⟨rfl, rfl⟩ rfl
      exact ⟨hdone h, fun _ => id, fun _ _ => .inl h⟩
  | online body =>
      obtain ⟨h, hflag⟩ := ended_online body s
      exact ⟨hdone h, fun _ hset => hflag ▸ hset, fun _ _ => .inl h⟩
  | refuse body =>
      obtain ⟨h, hflag⟩ := ended_refuse body s
      exact ⟨hdone h, hflag, fun _ _ => .inl h⟩
  | round1 body draws =>
      obtain ⟨h, hflag⟩ := ended_round1 P env body draws s
      exact ⟨hdone h, fun _ hset => hflag ▸ hset, fun _ _ => .inl h⟩
  | validate body =>
      change Shaped P (.validate body) ((validate P env body).settle s).1 ∧
        (_ → KeepsFlag s ((validate P env body).settle s).2) ∧
          (_ → _ → Ended s ((validate P env body).settle s) ∨
            _ ∧ Hushed P s ((validate P env body).settle s))
      rcases settle_validate P env body s with ⟨h, hsame⟩ | ⟨hash, k, heq, hk⟩
      · exact ⟨h.validating, fun _ hset => hsame ▸ hset, fun _ _ => .inl h⟩
      · rw [heq]
        exact ⟨.reading hash k hk, fun _ => id, fun _ _ => .inr ⟨⟨body, rfl⟩, fun _ => .inl,
          fun _ hr => (nomatch hr), fun _ _ hwait => (nomatch hwait)⟩⟩
  | signReceipt body =>
      obtain ⟨h, hflag⟩ := settle_gating (calls_signReceipt body)
        (flag_signReceipt P env body s)
      exact ⟨h, fun _ hset => hflag ▸ hset, fun _ hdue => .inl (ended_signReceipt hdue)⟩
  | round2 body =>
      obtain ⟨h, hflag⟩ := settle_gating (calls_round2 body)
        (flag_round2 P env body s)
      exact ⟨h, fun _ hset => hflag ▸ hset, fun hrefuse _ => .inl (ended_round2 hrefuse)⟩

/-- What a handler does when it is answered: it keeps its shape, and raises no flag. -/
theorem Shaped.resume {req : SignerRequest} {q : SignerCall} {k : q.Answer → SignerProg Response}
    (h : Shaped P req (.await q k)) (answer : q.Answer) (s : SignerState) :
    Shaped P req ((k answer).settle s).1 ∧ KeepsFlag s ((k answer).settle s).2 ∧
      ((∃ body, req = .validate body) → s.refuse = true → Hushed P s ((k answer).settle s)) := by
  cases req
  case validate body =>
    obtain ⟨hval, hflag, hquiet⟩ := Validating.resume h answer s
    exact ⟨hval, hflag, fun _ => hquiet⟩
  case round2 body =>
    obtain ⟨hgate, hflag⟩ := Gating.resume h answer s
    exact ⟨hgate, fun hset => hflag ▸ hset, fun ⟨_, heq⟩ => nomatch heq⟩
  case signReceipt body =>
    obtain ⟨hgate, hflag⟩ := Gating.resume h answer s
    exact ⟨hgate, fun hset => hflag ▸ hset, fun ⟨_, heq⟩ => nomatch heq⟩
  all_goals
    rcases h with ⟨r, hr⟩ | ⟨e, he⟩
    · cases hr
    · cases he

/-! ### Runs -/

variable (P) in
/-- What holds of every pool: the handlers are shaped, and while the flag is set nothing harmful is
under way. -/
structure Composed (c : SignerPool) : Prop where
  shaped : ∀ p ∈ c.procs, Shaped P p.req p.prog
  harmless : c.state.refuse = true → ∀ p ∈ c.procs, p.Suspended → Innocuous P p

/-- A handler that has ended is not suspended. -/
theorem Ended.not_suspended {s : SignerState} {out : SignerProg Response × SignerState}
    (h : Ended s out) : ¬ ∃ q k, out.1 = .await q k := by
  rintro ⟨q, k, hwait⟩
  rcases h.done with ⟨r, hr, -⟩ | ⟨e, he⟩
  · cases hr.symm.trans hwait
  · cases he.symm.trans hwait

/-- A request that sets the flag is done at once, so it never raises it after an await. -/
theorem SignerRequest.Sets.not_suspended {req : SignerRequest} (h : req.Sets) (s : SignerState) :
    ¬ ∃ q k, ((signerHandler P env req).settle s).1 = .await q k := by
  cases req
  case refuse body => exact (ended_refuse body s).1.not_suspended
  all_goals exact h.elim

/-- **What every action preserves.** The cases are a request that comes in, an answer, and a move of
the world. -/
theorem Composed.act {c : SignerPool} (h : Composed P c)
    {a : Action SignerState SignerCall SignerCall.Answer SignerRequest}
    (hlegal : (signerGame P env).Legal c a) (hcalm : ∀ req, a = .spawn req → Calm P env c req) :
    Composed P ((signerGame P env).act c a) := by
  cases a with
  | spawn req =>
      obtain ⟨hsets, hdue⟩ := hcalm req rfl
      obtain ⟨hshape, hflag, hquiet⟩ := settle_handler P env req c.state
      refine ⟨fun p hp => ?_, fun hrefuse p hp hsusp => ?_⟩
      · rcases List.mem_append.mp hp with hp | hp
        · exact h.shaped p hp
        · cases List.mem_singleton.mp hp
          exact hshape
      by_cases hset : req.Sets
      · rcases List.mem_append.mp hp with hp | hp
        · exact hsets hset p hp hsusp
        · cases List.mem_singleton.mp hp
          exact absurd hsusp (hset.not_suspended c.state)
      · have hrefused : c.state.refuse = true := hflag hset hrefuse
        rcases List.mem_append.mp hp with hp | hp
        · exact h.harmless hrefused p hp hsusp
        · cases List.mem_singleton.mp hp
          rcases hquiet hrefused (hdue hrefused) with hend | ⟨hreq, hquiet⟩
          · exact absurd hsusp hend.not_suspended
          · exact ⟨hreq, hquiet.waiting⟩
  | resume i answer =>
      simp only [Game.act]
      split
      next req start q k hget =>
        have hmem := List.mem_of_getElem? hget
        obtain ⟨hshape, hflag, hquiet⟩ := (h.shaped _ hmem).resume (answer q) c.state
        refine ⟨fun p hp => ?_, fun hrefuse p hp hsusp => ?_⟩
        · rcases List.mem_or_eq_of_mem_set hp with hp | rfl
          · exact h.shaped p hp
          · exact hshape
        have hrefused : c.state.refuse = true := hflag hrefuse
        rcases List.mem_or_eq_of_mem_set hp with hp | rfl
        · exact h.harmless hrefused p hp hsusp
        · obtain ⟨hreq, -⟩ := h.harmless hrefused _ hmem ⟨q, k, rfl⟩
          exact ⟨hreq, (hquiet hreq hrefused).waiting⟩
      next => exact h
  | world s =>
      obtain ⟨clock, rfl⟩ := hlegal
      exact ⟨h.shaped, h.harmless⟩

/-- **No contribution** while the flag is set: no approval, no partial and no fragment comes out of
any action. -/
theorem Composed.silent {c : SignerPool} (h : Composed P c) (hrefuse : c.state.refuse = true)
    {a : Action SignerState SignerCall SignerCall.Answer SignerRequest}
    (hlegal : (signerGame P env).Legal c a) (hcalm : ∀ req, a = .spawn req → Calm P env c req) :
    ¬ Contributes P env c a := by
  have hspawn : ∀ req, a = .spawn req →
      Hushed P c.state ((signerHandler P env req).settle c.state) := fun req ha => by
    rcases (settle_handler P env req c.state).2.2 hrefuse
      ((hcalm req ha).2 hrefuse) with hend | ⟨-, hquiet⟩
    · exact hend.quiet
    · exact hquiet
  have hresume : ∀ i answer req start q k, a = .resume i answer →
      c.procs[i]? = some ⟨req, start, .await q k⟩ →
      Hushed P c.state ((k (answer q)).settle c.state) := fun i answer req start q k _ hget => by
    have hmem := List.mem_of_getElem? hget
    obtain ⟨hreq, -⟩ := h.harmless hrefuse _ hmem ⟨q, k, rfl⟩
    exact ((h.shaped _ hmem).resume (answer q) c.state).2.2 hreq hrefuse
  have hsubmitted : ∀ {out}, Hushed P c.state out → ∀ sub : Submission, sub.verdict = .APPROVE →
      sub ∈ out.2.submitted → sub ∈ c.state.submitted := fun hquiet sub happrove hsub => by
    rcases hquiet.submitted sub hsub with hold | hreject
    · exact hold
    · cases happrove.symm.trans hreject
  intro hcontributes
  cases hcontributes with
  | submits sub happrove hsub hnew =>
      cases a with
      | spawn req => exact hnew (hsubmitted (hspawn req rfl) sub happrove hsub)
      | resume i answer =>
          simp only [Game.act] at hsub
          split at hsub
          next req start q k hget =>
            exact hnew (hsubmitted (hresume i answer req start q k rfl hget) sub happrove hsub)
          next => exact hnew hsub
      | world s =>
          obtain ⟨clock, rfl⟩ := hlegal
          exact hnew hsub
  | posts i answer ha req start tx k hp happrove _ =>
      exact (h.harmless hrefuse _ (List.mem_of_getElem? hp)
        ⟨SignerCall.submit tx, k, rfl⟩).2 tx k rfl happrove
  | returns i p r hp hnew hr hspeaks =>
      cases a with
      | spawn req =>
          rcases Nat.lt_or_ge i c.procs.length with hi | hi
          · exact hnew ((List.getElem?_append_left hi).symm.trans hp)
          · have hlast := (List.getElem?_append_right hi).symm.trans hp
            obtain rfl := List.mem_singleton.mp (List.mem_of_getElem? hlast)
            exact hspeaks ((hspawn req rfl).returned r hr)
      | resume j answer =>
          simp only [Game.act] at hp
          split at hp
          next req start q k hget =>
            rcases eq_or_ne i j with rfl | hij
            · obtain ⟨hlt, hset⟩ := List.getElem?_eq_some_iff.mp hp
              rw [List.getElem_set_self] at hset
              subst hset
              exact hspeaks ((hresume i answer req start q k rfl hget).returned r hr)
            · rw [List.getElem?_set_ne hij.symm] at hp
              exact hnew hp
          next => exact hnew hp
      | world s => exact hnew hp

/-- Every pool that a calm run reaches is composed. -/
theorem composed {clock : ℤ} {c : SignerPool}
    (h : (signerGame P env).Reaches (Calm P env) (.boot clock) c) : Composed P c := by
  induction h with
  | init => exact ⟨fun _ hp => (nomatch hp), fun h => (nomatch h)⟩
  | step _ hlegal hadm ih => exact ih.act hlegal hadm

/-- **A refusing member contributes nothing**, in every run in which the flag is set only while no
receipt, no partial and no approval is under way, and no receipt is asked for while it is set. -/
theorem refusing_silent {clock : ℤ} {c : SignerPool}
    (h : (signerGame P env).Reaches (Calm P env) (.boot clock) c) (hrefuse : c.state.refuse = true)
    {a : Action SignerState SignerCall SignerCall.Answer SignerRequest}
    (hlegal : (signerGame P env).Legal c a) (hcalm : ∀ req, a = .spawn req → Calm P env c req) :
    ¬ Contributes P env c a :=
  (composed h).silent hrefuse hlegal hcalm

/-! ### A refusing member that signs -/

namespace Small

/-- A member that can sign receipts, since it has a wallet. -/
def cosignerEnv : SignerEnv config :=
  { signerEnv with xrplWallet := some ⟨"rCityA", fun _ => .ok "F"⟩ }

/-- The administrator sets the flag of the member. -/
def refuseRequest : SignerRequest := .refuse (some (.obj [("refuse", .bool true)]))

/-- A receipt for the small request is to be signed. -/
def receiptRequest : SignerRequest := .signReceipt (some (.obj
  [("prepared", .obj [("Account", .str "rAuthority")]), ("requestHash", .str requestHashHex)]))

/-- A member after the administrator has set its flag. -/
def resolute : SignerPool :=
  (signerGame platform cosignerEnv).play ⟨.boot 0, []⟩ [.spawn refuseRequest]

/-- A refusing member that counts the approvals for a receipt, which it was asked for after the flag
was set. -/
def cosigning : SignerPool :=
  (signerGame platform cosignerEnv).play ⟨.boot 0, []⟩ [.spawn refuseRequest, .spawn receiptRequest]

end Small

/-- The run of the resolute member is a calm one. -/
theorem small_calm : (signerGame Small.platform Small.cosignerEnv).Reaches
    (Calm Small.platform Small.cosignerEnv) (.boot 0) Small.resolute :=
  Game.Reaches.init.play ⟨trivial, fun _ heq => by
    cases heq
    exact ⟨fun _ _ hp => (nomatch hp), fun _ hdue => hdue⟩, trivial⟩

/-- A refusing member turns a round 2 down, and contributes nothing by it. -/
theorem refusing_silent_small : ∃ c : SignerPool, c.state.refuse = true ∧
    ¬ Contributes Small.platform Small.cosignerEnv c (.spawn (.round2 Small.paidBody)) := by
  have hreach := small_calm
  have hrefuse : Small.resolute.state.refuse = true := rfl
  generalize Small.resolute = c at hreach hrefuse
  exact ⟨c, hrefuse, refusing_silent hreach hrefuse trivial fun _ heq => by
    cases heq
    exact ⟨fun hset => hset.elim, fun _ hdue => hdue⟩⟩

/-- The run of the cosigning member is a run, though not a calm one. -/
theorem small_cosigning : (signerGame Small.platform Small.cosignerEnv).Reaches (fun _ _ => True)
    (.boot 0) Small.cosigning :=
  Game.Reaches.init.play ⟨trivial, fun _ _ => trivial, trivial, fun _ _ => trivial, trivial⟩

/-- With the flag set, the member that has counted enough approvals returns its fragment. -/
theorem small_fragment : Small.cosigning.state.refuse = true ∧
    (Small.cosigning.procs[1]?.any fun p => match p.prog with
      | .await _ _ => true
      | _ => false) = true ∧
    ((((signerGame Small.platform Small.cosignerEnv).act Small.cosigning
      (.resume 1 Small.answers)).procs[1]?).any fun p => match p.prog with
        | .ret r => (r.body.get? "fragment").isSome
        | _ => false) = true := by
  decide +kernel

/-- A handler that was waiting and has returned a fragment has contributed by that action. -/
theorem Contributes.of_fragment {c : SignerPool}
    {a : Action SignerState SignerCall SignerCall.Answer SignerRequest} {i : ℕ}
    (hold : (c.procs[i]?.any fun p => match p.prog with
      | .await _ _ => true
      | _ => false) = true)
    (hnew : (((signerGame P env).act c a).procs[i]?.any fun p => match p.prog with
      | .ret r => (r.body.get? "fragment").isSome
      | _ => false) = true) : Contributes P env c a := by
  obtain ⟨p, hp, hwait⟩ := (Option.any_eq_true _ _).mp hold
  obtain ⟨p', hp', hret⟩ := (Option.any_eq_true _ _).mp hnew
  cases hprog : p'.prog with
  | ret r =>
      rw [hprog] at hret
      refine .returns i p' r hp' (fun heq => ?_) hprog fun hsilent => ?_
      · obtain rfl := Option.some.inj (hp.symm.trans heq)
        rw [hprog] at hwait
        cases hwait
      · change (r.body.get? "fragment").isSome = true at hret
        rw [hsilent.2] at hret
        cases hret
  | _ =>
      rw [hprog] at hret
      cases hret

/-- **A refusing member signs receipts**: the endpoint for receipts does not look at the flag. -/
theorem refusing_cosigns : ¬ ∀ (c : SignerPool)
    (a : Action SignerState SignerCall SignerCall.Answer SignerRequest),
    (signerGame Small.platform Small.cosignerEnv).Reaches (fun _ _ => True) (.boot 0) c →
    c.state.refuse = true → (signerGame Small.platform Small.cosignerEnv).Legal c a →
    ¬ Contributes Small.platform Small.cosignerEnv c a := by
  intro hall
  have hreach := small_cosigning
  obtain ⟨hrefuse, hold, hnew⟩ := small_fragment
  generalize Small.cosigning = c at hreach hrefuse hold hnew
  exact hall c (.resume 1 Small.answers) hreach hrefuse (fun _ _ _ _ _ => trivial)
    (.of_fragment hold hnew)

end NoGhost
