import NoGhost.Signer

/-!
# What the Signer's Handlers Do

One rule of the segment logic for each handler that awaits. A rule lists the exits of its
handler, with the state the handler leaves, and the obligations at its awaits; it holds for
every contract and wherever the member's state is kept, so the invariants of one member and
of a whole consortium both start from it.

## Main results

* `wpa_onChainApproveCount`: a count comes from a reading of the ledger.
* `wpa_round2`: a round-2 handler ends at once, or brings a session to the on-chain gate.
* `wpa_round2Gate`: behind the gate.
* `wpa_validate_exits`: a member that attests has judged a payload off the ledger.
-/

open Js Async

namespace NoGhost

variable {P : Platform} {cfg : Config} {env : SignerEnv cfg} {σ : Type}
  {W : Contract σ SignerCall SignerCall.Answer} {L : Lens σ SignerState}

/-- Nothing changes but that sessions are dropped. -/
def Forgets (s s' : SignerState) : Prop :=
  ∃ keep : String × Session → Bool, s' = { s with sessions := s.sessions.filter keep }

/-- Nothing need be dropped. -/
theorem Forgets.refl (s : SignerState) : Forgets s s :=
  ⟨fun _ => true, by rw [List.filter_true]⟩

/-- Expired sessions are dropped. -/
theorem forgets_sweep (s : SignerState) : Forgets s (sweepExpiredSessions s) := ⟨_, rfl⟩

/-- One session is dropped. -/
theorem forgets_delete (sessionId : String) (s : SignerState) :
    Forgets s (deleteSession sessionId s) := ⟨_, rfl⟩

/-- Sessions may be dropped one after the other. -/
theorem Forgets.trans {s s' s'' : SignerState} (h : Forgets s s') (h' : Forgets s' s'') :
    Forgets s s'' := by
  obtain ⟨keep, rfl⟩ := h
  obtain ⟨keep', rfl⟩ := h'
  exact ⟨fun e => keep e && keep' e, by simp [List.filter_filter, Bool.and_comm]⟩

/-! ### Counting approvals -/

/-- The count `n` comes from a reading of the ledger that is answered in `s`. -/
def Counted (P : Platform) (env : SignerEnv cfg) (W : Contract σ SignerCall SignerCall.Answer)
    (J : σ → Prop) (requestHash : String) (n : ℕ) (s : σ) : Prop :=
  ∃ M txs approvals s₀, env.manifest = .ok M ∧ J s₀ ∧
    W.resume (.accountTx M.authority) s₀ (.ok txs) s ∧
    readApprovals P M requestHash txs = .ok approvals ∧ n = approveCount approvals

section Count

variable {J : σ → Prop} {requestHash : String} {post : ℕ → σ → σ → Prop}
  {exn : String → σ → σ → Prop}

/-- The count of the approvals awaits the ledger once, and writes nothing. -/
theorem wpa_readApproveCount {b s : σ} (hseg : W.segment b s) (hJ : J s)
    (hresume : ∀ q s r s', J s → W.resume q s r s' → J s' ∧ W.segment s' s')
    (hpost : ∀ n s, J s → Counted P env W J requestHash n s → post n s s)
    (hexn : ∀ e b s, W.segment b s → J s → exn e b s) :
    wpa W L (readApproveCount P env requestHash) post exn b s := by
  rw [readApproveCount]
  refine wpa_ofExcept_bind (fun M hM => ?_) fun e _ => hexn e b s hseg hJ
  rw [wpa_bind, wpa_call]
  refine ⟨hseg, fun r s' hr => ?_⟩
  obtain ⟨hJ', hseg'⟩ := hresume _ _ _ _ hJ hr
  refine wpa_ofExcept_bind (fun txs htxs => ?_) fun e _ => hexn e s' s' hseg' hJ'
  refine wpa_ofExcept_bind (fun approvals happ => ?_) fun e _ => hexn e s' s' hseg' hJ'
  exact hpost _ s' hJ' ⟨M, txs, approvals, s, hM, hJ, htxs ▸ hr, happ, rfl⟩

/-- **Counting.** Whatever persists over the awaits holds at the end, and a count comes from a
reading of the ledger. Induction on the attempts left. -/
theorem wpa_countAttempts {attempts : ℕ} {b s : σ} (hseg : W.segment b s) (hJ : J s)
    (hresume : ∀ q s r s', J s → W.resume q s r s' → J s' ∧ W.segment s' s')
    (hpost : ∀ n s, J s → Counted P env W J requestHash n s → post n s s)
    (hexn : ∀ e b s, W.segment b s → J s → exn e b s) :
    wpa W L (countAttempts P env requestHash attempts) post exn b s := by
  induction attempts generalizing b s with
  | zero => exact wpa_readApproveCount hseg hJ hresume hpost hexn
  | succ attempts ih =>
      rw [countAttempts, wpa_bind]
      refine wpa_readApproveCount hseg hJ hresume (fun n s' hJ' hcount => ?_) hexn
      split
      · exact hpost n s' hJ' hcount
      · simp only [wpa_bind, wpa_call]
        obtain ⟨M, txs, approvals, s₀, -, hJ₀, hr, -, -⟩ := hcount
        refine ⟨(hresume _ _ _ _ hJ₀ hr).2, fun r s'' hr' => ?_⟩
        obtain ⟨hJ'', hseg''⟩ := hresume _ _ _ _ hJ' hr'
        exact ih hseg'' hJ''

/-- The count with its attempts awaits the ledger and the time between them, and writes nothing. -/
theorem wpa_onChainApproveCount {b s : σ} (hseg : W.segment b s) (hJ : J s)
    (hresume : ∀ q s r s', J s → W.resume q s r s' → J s' ∧ W.segment s' s')
    (hpost : ∀ n s, J s → Counted P env W J requestHash n s → post n s s)
    (hexn : ∀ e b s, W.segment b s → J s → exn e b s) :
    wpa W L (onChainApproveCount P env requestHash) post exn b s :=
  wpa_countAttempts hseg hJ hresume hpost hexn

end Count

/-! ### Round 2 -/

/-- A session on its way through the on-chain gate, with the share and the body it is presented
with. -/
structure Presented where
  share : ShareFile
  key : String
  sessionId : String
  session : Session
  body : Round2Body

/-- The session that a round-2 body brings to the on-chain gate: the member is online and
does not refuse, and the body passes every check. -/
def presented (P : Platform) (env : SignerEnv cfg) (s : SignerState) (body : Option Json) :
    Option Presented := do
  guard (s.online && !s.refuse)
  let json ← body
  let sessionId ← sessionIdOf body
  let session ← (sweepExpiredSessions s).sessions.get sessionId
  let share ← env.share
  let key ← truthyText env.pinnedBankPublicKey
  let parsed ← round2Body json
  guard (runWall1TokenChecks P (some json) key = .ok none)
  pure ⟨share, key, sessionId, session, parsed⟩

/-- What is known of a session at the gate. -/
theorem presented_eq_some {s : SignerState} {body : Option Json} {p : Presented}
    (h : presented P env s body = some p) :
    ∃ json, body = some json ∧ round2Body json = some p.body ∧
      (sweepExpiredSessions s).sessions.get p.sessionId = some p.session ∧
      truthyText env.pinnedBankPublicKey = some p.key ∧
      runWall1TokenChecks P (some json) p.key = .ok none := by
  simp only [presented, Option.bind_eq_bind, Option.bind_eq_some_iff, Option.pure_def] at h
  obtain ⟨-, -, json, hjson, sessionId, -, session, hsession, share, -, key, hkey, parsed,
    hparsed, ⟨⟩, hchecks, hp⟩ := h
  cases hp
  exact ⟨json, hjson, hparsed, hsession, hkey, by simpa [guard] using hchecks⟩

variable {post : Response → σ → σ → Prop} {exn : String → σ → σ → Prop} {b s : σ}

/-- A response without a partial signature. -/
def Response.Withheld (r : Response) : Prop := r.body.get? "zi" = none

/-- **Round 2 up to the gate**: it ends without a partial, having dropped sessions at most, or
presents a session at the gate. -/
theorem wpa_round2 {body : Option Json}
    (hdone : ∀ r t, Forgets (L.view s) t → r.Withheld → post r b (L.put s t))
    (hraise : ∀ e t, Forgets (L.view s) t → exn e b (L.put s t))
    (hgate : ∀ p, presented P env (L.view s) body = some p →
      wpa W L (round2Gate P env p.share p.sessionId p.session p.body) post exn b
        (L.put s (sweepExpiredSessions (L.view s)))) :
    wpa W L (round2 P env body) post exn b s := by
  have hsweep := forgets_sweep (L.view s)
  have hdelete : ∀ id, Forgets (L.view s) (deleteSession id (sweepExpiredSessions (L.view s))) :=
    fun id => hsweep.trans (forgets_delete id _)
  unfold round2
  simp only [wpa_bind, wpa_gets]
  split
  next =>
    have h := hdone (.error 503 "signer offline") _ (.refl _) rfl
    rwa [L.put_view] at h
  next honline =>
    simp only [wpa_bind, wpa_modify, wpa_gets, L.view_put]
    split
    next hrefuse =>
      simp only [round2Refused, wpa_bind, wpa_modify, wpa_gets, wpa_pure, L.view_put, L.put_put]
      split
      · exact hdone _ _ (hdelete _) rfl
      · exact hdone _ _ hsweep rfl
    next hrefuse =>
      split
      next json sessionId hid =>
        simp only [wpa_bind, wpa_gets, L.view_put]
        split
        next => exact hdone _ _ hsweep rfl
        next session hsession =>
          unfold round2Checks
          split
          next share key hshare hkey =>
            split
            next => exact hdone _ _ hsweep rfl
            next parsed hparsed =>
              refine wpa_ofExcept_bind (fun failure hfailure => ?_) fun e _ => hraise e _ hsweep
              split
              next failure =>
                simp only [wpa_bind, wpa_modify, wpa_pure, L.view_put, L.put_put]
                exact hdone _ _ (hdelete _) rfl
              next =>
                refine hgate ⟨share, key, sessionId, session, parsed⟩ ?_
                simp only [Bool.not_eq_true', Bool.not_eq_false] at honline
                have hr : (L.view s).refuse = false := by simpa [sweepExpiredSessions] using hrefuse
                simp [presented, honline, hr, hid, hsession, hshare, hkey, hparsed, hfailure]
          next => exact hdone _ _ hsweep rfl
      next => exact hdone _ _ hsweep rfl

/-- **Round 2 behind the gate.** The session is consumed, and a partial is returned only after
a count that reached the quorum. -/
theorem wpa_round2Gate {J : σ → Prop} {share : ShareFile} {sessionId : String}
    {session : Session} {body : Round2Body} (hseg : W.segment b s) (hJ : J s)
    (hresume : ∀ q s r s', J s → W.resume q s r s' → J s' ∧ W.segment s' s')
    (hfail : ∀ r s, J s → r.Withheld → post r s (L.put s (deleteSession sessionId (L.view s))))
    (hsign : ∀ r s n, J s →
      Counted P env W J (hashValue P (body.json.get? "request")) n s →
      cfg.XRPL_MULTISIGN_QUORUM ≤ n →
      post r s (L.put s (deleteSession sessionId (recordPartial session (L.view s)))))
    (hexn : ∀ e b s, W.segment b s → J s → exn e b s) :
    wpa W L (round2Gate P env share sessionId session body) post exn b s := by
  rw [round2Gate, wpa_bind]
  refine wpa_onChainApproveCount hseg hJ hresume (fun n s' hJ' hcount => ?_) hexn
  split
  next =>
    simp only [wpa_bind, wpa_modify, wpa_pure]
    exact hfail _ s' hJ' rfl
  next hquorum =>
    split
    next =>
      simp only [wpa_bind, wpa_modify, wpa_pure]
      exact hsign _ s' n hJ' hcount (by omega)
    next =>
      simp only [wpa_bind, wpa_modify, wpa_pure]
      exact hfail _ s' hJ' rfl

/-! ### Attestations -/

/-- The attestation is the member's own verdict on a payload that was just read off the ledger,
under the hash that the payload was published with. -/
structure Judged (P : Platform) (env : SignerEnv cfg)
    (W : Contract σ SignerCall SignerCall.Answer) (L : Lens σ SignerState) (J : σ → Prop)
    (sub : Submission) (s : σ) : Prop where
  read : ∃ hash tx s₀, J s₀ ∧ W.resume (.tx hash) s₀ (.ok tx) s ∧
    readRequest P env.encKey tx.toTx = .ok (some (sub.requestHash, sub.payload))
  judged : ∃ key wallet reason, truthyText env.pinnedBankPublicKey = some key ∧
    env.xrplWallet = some wallet ∧
    judge P (L.view s) key sub.requestHash sub.payload = .ok (sub.verdict, reason) ∧
    sub.tx = approvalTx P wallet.address (cfg.idText env.info.signerId) sub.requestHash
      sub.verdict reason

/-- The transaction that a body asks to validate. -/
def requestTxHashOf (body : Option Json) : Option String :=
  truthyText ((prop? body "requestTxHash").bind (·.asString))

/-- The payload was just read, under a request hash, off the transaction of the body. -/
def ReadOff (P : Platform) (env : SignerEnv cfg) (W : Contract σ SignerCall SignerCall.Answer)
    (J : σ → Prop) (body : Option Json) (requestHash : String) (payload : Json) (s : σ) : Prop :=
  ∃ hash tx s₀, requestTxHashOf body = some hash ∧ J s₀ ∧
    W.resume (.tx hash) s₀ (.ok tx) s ∧
    readRequest P env.encKey tx.toTx = .ok (some (requestHash, payload))

/-- **Attesting, exit by exit.** The handler fails, or answers with the verdict it has cached,
or submits a verdict on what it has just read, which it caches once the ledger has it. -/
theorem wpa_validate_exits {J : σ → Prop} {body : Option Json} (hseg : W.segment b s) (hJ : J s)
    (hresume : ∀ q s r s', J s → W.resume q s r s' → J s' ∧ W.segment s' s')
    (hfail : ∀ r b s, W.segment b s → J s → r.Withheld → r.status ≠ 200 → post r b s)
    (hcached : ∀ r s requestHash payload verdict txHash, W.segment s s → J s → r.Withheld →
      ReadOff P env W J body requestHash payload s →
      (L.view s).approvedOnChain.get requestHash = some (verdict, txHash) →
      r.body.get? "verdict" = some (.str verdict.text) → post r s s)
    (hsubmit : ∀ sub s, J s → ReadOff P env W J body sub.requestHash sub.payload s →
      Judged P env W L J sub s → (L.view s).approvedOnChain.get sub.requestHash = none →
      W.segment s (L.put s (recordSubmission sub (L.view s))) ∧
        J (L.put s (recordSubmission sub (L.view s))))
    (happroved : ∀ r s s₀ sub txHash, J s₀ →
      ReadOff P env W J body sub.requestHash sub.payload s₀ → Judged P env W L J sub s₀ →
      W.resume (.submit sub.tx) (L.put s₀ (recordSubmission sub (L.view s₀))) (.ok txHash) s →
      J s → r.Withheld → r.body.get? "verdict" = some (.str sub.verdict.text) →
      post r s (L.put s (recordApproval sub.requestHash sub.verdict txHash (L.view s)))) :
    wpa W L (validate P env body) post exn b s := by
  unfold validate
  simp only [wpa_bind, wpa_gets]
  split
  next => exact hfail _ _ _ hseg hJ rfl (by decide)
  next =>
    split
    next share key wallet hshare hkey hwallet =>
      split
      next => exact hfail _ _ _ hseg hJ rfl (by decide)
      next requestTxHash hhash =>
        rw [wpa_tryCatch, attest]
        simp only [wpa_bind, wpa_call]
        refine ⟨hseg, fun r s₁ hr => ?_⟩
        obtain ⟨hJ₁, hseg₁⟩ := hresume _ _ _ _ hJ hr
        have hraise : ∀ e : String, post ⟨500, object [("error", some (.str "validate failed")),
            ("detail", some (.str e))]⟩ s₁ s₁ := fun e =>
          hfail _ _ _ hseg₁ hJ₁ rfl (show 500 ≠ 200 by decide)
        refine wpa_ofExcept (fun tx htx => ?_) fun e _ => hraise e
        refine wpa_ofExcept_bind (fun read hread => ?_) fun e _ => hraise e
        split
        next => exact hfail _ _ _ hseg₁ hJ₁ rfl (by decide)
        next requestHash payload =>
          have hoff : ReadOff P env W J body requestHash payload s₁ :=
            ⟨requestTxHash, tx, s, hhash, hJ, htx ▸ hr, hread⟩
          simp only [wpa_bind, wpa_gets]
          split
          next verdict txHash hcache =>
            exact hcached _ _ _ _ verdict txHash hseg₁ hJ₁ rfl hoff hcache rfl
          next hnone =>
            refine wpa_ofExcept_bind (fun judged hjudged => ?_) fun e _ => hraise e
            obtain ⟨verdict, reason⟩ := judged
            simp only [postApproval, wpa_bind]
            refine wpa_ofExcept (fun M hM => ?_) fun e _ => hraise e
            set sub : Submission := ⟨requestHash, payload, verdict, approvalTx P wallet.address
              (cfg.idText env.info.signerId) requestHash verdict reason⟩
            have hjudge : Judged P env W L J sub s₁ :=
              ⟨⟨requestTxHash, tx, s, hJ, htx ▸ hr, hread⟩,
                ⟨key, wallet, reason, hkey, hwallet, hjudged, rfl⟩⟩
            obtain ⟨hseg₂, hJ₂⟩ := hsubmit sub s₁ hJ₁ hoff hjudge hnone
            refine ⟨hseg₂, fun r' s₂ hr' => ?_⟩
            obtain ⟨hJ₃, hseg₃⟩ := hresume _ _ _ _ hJ₂ hr'
            refine wpa_ofExcept (fun txHash htxHash => ?_) fun e _ =>
              hfail _ _ _ hseg₃ hJ₃ rfl (show 500 ≠ 200 by decide)
            exact happroved _ _ s₁ sub txHash hJ₁ hoff hjudge (htxHash ▸ hr') hJ₃
              (by cases reason <;> rfl) (by cases reason <;> rfl)
    next => exact hfail _ _ _ hseg hJ rfl (by decide)

/-- **Attesting.** What is submitted was judged, and nothing else changes but the memory of
the attestations made. -/
theorem wpa_validate {J : σ → Prop} {body : Option Json} (hseg : W.segment b s) (hJ : J s)
    (hresume : ∀ q s r s', J s → W.resume q s r s' → J s' ∧ W.segment s' s')
    (hdone : ∀ r b s, W.segment b s → J s → r.Withheld → post r b s)
    (hsubmit : ∀ sub s, J s → Judged P env W L J sub s →
      W.segment s (L.put s (recordSubmission sub (L.view s))) ∧
        J (L.put s (recordSubmission sub (L.view s))))
    (happroved : ∀ r s hash verdict txHash, J s → r.Withheld →
      post r s (L.put s (recordApproval hash verdict txHash (L.view s)))) :
    wpa W L (validate P env body) post exn b s :=
  wpa_validate_exits hseg hJ hresume (fun r b s hseg hJ hr _ => hdone r b s hseg hJ hr)
    (fun r s _ _ _ _ hseg hJ hr _ _ _ => hdone r s s hseg hJ hr)
    (fun sub s hJ _ hjudged _ => hsubmit sub s hJ hjudged)
    fun r s _ sub txHash _ _ _ _ hJ hr _ => happroved r s sub.requestHash sub.verdict txHash hJ hr

/-! ### The other handlers -/

/-- A receipt is signed without a trace in the member's state. -/
theorem wpa_signReceipt {J : σ → Prop} {body : Option Json} (hseg : W.segment b s) (hJ : J s)
    (hresume : ∀ q s r s', J s → W.resume q s r s' → J s' ∧ W.segment s' s')
    (hdone : ∀ r b s, W.segment b s → J s → r.Withheld → post r b s)
    (hexn : ∀ e b s, W.segment b s → J s → exn e b s) :
    wpa W L (signReceipt P env body) post exn b s := by
  unfold signReceipt
  simp only [wpa_bind, wpa_gets]
  split
  next => exact hdone _ _ _ hseg hJ rfl
  next =>
    split
    next => exact hdone _ _ _ hseg hJ rfl
    next wallet hwallet =>
      split
      next =>
        rw [wpa_bind]
        refine wpa_onChainApproveCount hseg hJ hresume (fun n s' hJ' hcount => ?_) hexn
        obtain ⟨M, txs, approvals, s₀, -, hJ₀, hr, -, -⟩ := hcount
        have hseg' := (hresume _ _ _ _ hJ₀ hr).2
        split
        next => exact hdone _ _ _ hseg' hJ' rfl
        next => split <;> exact hdone _ _ _ hseg' hJ' rfl
      next => exact hdone _ _ _ hseg hJ rfl

/-- Round 1 stores a pair of nonces, or nothing. -/
theorem wpa_round1 {body : Option Json} {draws : List Bytes}
    (hdone : ∀ r t, Forgets (L.view s) t → r.Withheld → post r b (L.put s t))
    (hstore : ∀ r t sessionId nonces, Forgets (L.view s) t → r.Withheld →
      post r b (L.put s (storeSession sessionId nonces t)))
    (hraise : ∀ e t, Forgets (L.view s) t → exn e b (L.put s t)) :
    wpa W L (round1 P env body draws) post exn b s := by
  have hsweep := forgets_sweep (L.view s)
  have hquiet : ∀ r : Response, r.Withheld → post r b s := fun r hr => by
    have h := hdone r _ (.refl _) hr
    rwa [L.put_view] at h
  unfold round1
  simp only [wpa_bind, wpa_gets]
  split
  next => exact hquiet _ rfl
  next =>
    split
    next => exact hquiet _ rfl
    next => exact hquiet _ rfl
    next share sessionId hshare hid =>
      simp only [wpa_bind, wpa_modify]
      split
      next => exact hraise _ _ hsweep
      next =>
        refine wpa_ofExcept_bind (fun out hout => ?_) fun e _ => hraise e _ hsweep
        simp only [wpa_bind, wpa_modify, wpa_pure, L.view_put, L.put_put]
        exact hstore _ _ _ _ hsweep rfl

/-- Going online or offline sets that flag, and nothing else. -/
theorem wpa_adminOnline {body : Option Json}
    (hdone : ∀ r online, r.Withheld → post r b (L.put s { L.view s with online := online })) :
    wpa W L (adminOnline body) post exn b s := by
  unfold adminOnline
  split
  next next _ =>
    simp only [wpa_bind, wpa_modify, wpa_pure]
    exact hdone _ next rfl
  next =>
    have h := hdone (.error 400 "online must be a boolean") (L.view s).online rfl
    rwa [L.put_view] at h

/-- Refusing sets the governance flag to what the body says, with its reason. -/
theorem wpa_adminRefuse {body : Option Json}
    (hdone : ∀ r refuse reason,
      (prop? body "refuse" = some (.bool refuse) ∨ refuse = (L.view s).refuse) → r.Withheld →
      post r b (L.put s { L.view s with refuse := refuse, refuseReason := reason })) :
    wpa W L (adminRefuse body) post exn b s := by
  unfold adminRefuse
  split
  next refuse hrefuse =>
    simp only [wpa_bind, wpa_modify, wpa_pure]
    exact hdone _ refuse _ (.inl hrefuse) rfl
  next =>
    have h := hdone (.error 400 "refuse must be a boolean") (L.view s).refuse
      (L.view s).refuseReason (.inr rfl) rfl
    rwa [L.put_view] at h

/-- Administration sets the flags, and nothing else. -/
theorem wpa_admin {body : Option Json}
    (hdone : ∀ r online refuse reason, r.Withheld → post r b
      (L.put s { L.view s with online := online, refuse := refuse, refuseReason := reason })) :
    wpa W L (adminOnline body) post exn b s ∧ wpa W L (adminRefuse body) post exn b s :=
  ⟨wpa_adminOnline fun r online hr => hdone r online (L.view s).refuse (L.view s).refuseReason hr,
    wpa_adminRefuse fun r refuse reason _ hr => hdone r (L.view s).online refuse reason hr⟩

/-- A member that can read a request answers with the verdict it has cached, or attests the
request and caches its verdict. -/
theorem validate_settles {s : SignerState} {body : Option Json} {share : ShareFile}
    {key txHash hash : String} {wallet : Wallet} {tx : LedgerTx} {payload : Json}
    {M : ConsortiumManifest cfg} (honline : s.online = true) (hshare : env.share = some share)
    (hkey : truthyText env.pinnedBankPublicKey = some key) (hwallet : env.xrplWallet = some wallet)
    (hbody : truthyText ((prop? body "requestTxHash").bind (·.asString)) = some txHash)
    (hread : readRequest P env.encKey tx.toTx = .ok (some (hash, payload)))
    (hM : env.manifest = .ok M) :
    ∃ k, (validate P env body).settle s = (.await (.tx txHash) k, s) ∧
      (∀ s' verdict txHash', s'.approvedOnChain.get hash = some (verdict, txHash') →
        ∃ r, (k (.ok tx)).settle s' = (.ret r, s') ∧ r.status = 200 ∧
          r.body.get? "verdict" = some (.str verdict.text)) ∧
      ∀ s' verdict reason, s'.approvedOnChain.get hash = none →
        judge P s' key hash payload = .ok (verdict, reason) →
        ∃ k', (k (.ok tx)).settle s' =
            (.await (.submit (approvalTx P wallet.address (cfg.idText env.info.signerId) hash
              verdict reason)) k', recordSubmission ⟨hash, payload, verdict, approvalTx P
                wallet.address (cfg.idText env.info.signerId) hash verdict reason⟩ s') ∧
          ∀ s'' txHash', ∃ r, (k' (.ok txHash')).settle s'' =
            (.ret r, recordApproval hash verdict txHash' s'') ∧ r.status = 200 := by
  refine ⟨?k, ?first, fun s' verdict txHash' hcache => ?_, fun s' verdict reason hnew hjudge => ?_⟩
  case first =>
    simp only [validate, bind, Prog.bind, Prog.gets, Prog.settle, honline, Bool.not_true,
      Bool.false_eq_true, if_false, hshare, hkey, hwallet, hbody, attest, Prog.call, Prog.tryCatch]
    rfl
  · simp only [Prog.bind, Prog.ofExcept, hread, Prog.tryCatch, Prog.settle, hcache]
    exact ⟨_, rfl, rfl, rfl⟩
  · simp only [bind, Prog.bind, Prog.ofExcept, hread, Prog.tryCatch, Prog.settle, hnew, id, hjudge,
      postApproval, hM, Prog.modify, Prog.call]
    exact ⟨_, rfl, fun s'' txHash' => ⟨_, rfl, rfl⟩⟩

end NoGhost
