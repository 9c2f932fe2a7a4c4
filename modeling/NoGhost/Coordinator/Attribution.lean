import NoGhost.Coordinator.Checkout

/-!
# Faults and Who Is Blamed

The ceremonies of a request when some signers follow the code and the others answer what they like,
as long as it can be read: commitments of two points, a partial that is a scalar, reasons that can
be printed. Whoever is named, in the governance log or in the reason of a rejection, is one of the
others.

## Main results

* `wp_runCeremony_attributed`: an attempt makes a token, or blames a faulty signer.
* `faults_attributed`: so do all the attempts of a request.
-/

open Js Async

namespace NoGhost

variable {cfg : Config} {P : Platform} {env : CoordinatorEnv cfg} {key : BankKey}

/-! ### Blame -/

/-- The signer that an error names, where it names one. -/
def CeremonyError.culprit : CeremonyError cfg → Option cfg.SignerId
  | .ROUND1_FAILED signer _ => some signer
  | .ROUND2_UNREACHABLE signer => some signer
  | .ROUND2_FAILED signer _ _ => some signer
  | .BAD_PARTIAL_SIGNATURE signer => some signer
  | .AGGREGATION_FAILED _ => none
  | .AGGREGATE_SIGNATURE_INVALID => none

variable (P) in
/-- An attempt ends with the blame on a signer: with an error that names it, or with a refusal of
its own whose reason can be printed. -/
inductive Blames (signer : cfg.SignerId) : CeremonyOutcome cfg → Prop
  | error {e : CeremonyError cfg} (h : e.culprit = some signer) : Blames signer (.error e)
  | refused {reason : Option Json} {text : String}
      (h : textOr P reason "No reason given" = .ok text) :
      Blames signer (.refused signer reason)

/-! ### Faulty signers -/

variable (P) in
/-- What a faulty signer sends as a commitment are the texts of two points. -/
def LegibleCommitment (i : SignerInfo cfg.SignerId) (answer : Option HttpResult) : Prop :=
  ∀ sent, sentCommitment P i answer = .ok sent → ∃ c : Frost.Commitment, sent = .of c ∧
    (∃ p, Frost.pointFromHex P.toCurve c.hidingHex = .ok p) ∧
    ∃ p, Frost.pointFromHex P.toCurve c.bindingHex = .ok p

variable (P) in
/-- What it sends as a partial is the text of a scalar, and the reasons that it gives can be
printed. -/
structure LegiblePartial (r : HttpResult) : Prop where
  zi : ∀ zi, (r.body P).get? "zi" = some (.str zi) → ∃ z, Frost.scalarFromHex P.toCurve zi = .ok z
  error : ∃ text, (((r.body P).get? "error").filter Json.truthy).mapM (·.toStr P.numeral) = .ok text
  reason : ∃ text, textOr P ((r.body P).get? "reason") "No reason given" = .ok text

/-- The signers that are not faulty follow the code in both rounds, and their sessions of the
request are left alone otherwise; what the others answer can be read. -/
def Deviates (P : Platform) (member : cfg.SignerId → SignerEnv cfg) (M : ConsortiumManifest cfg)
    (faulty : cfg.SignerId → Bool) (request : GenerationRequest) (s s' : Services cfg) :
    (q : CoordinatorCall cfg) → q.Answer → Prop
  | .round1 signers body, answers => ∀ i ∈ signers,
      if faulty i.signerId then LegibleCommitment P i (answers i.signerId)
      else ∃ m draws r m', LeavesAlone request.requestId (s.member i.signerId) m ∧
        (round1 P (member i.signerId) (some (sent body)) draws).settle m = (.ret r, m') ∧
        answers i.signerId = some (r.arrived P) ∧
        LeavesAlone request.requestId m' (s'.member i.signerId)
  | .round2 i body, answer => (if faulty i.signerId then ∀ r, answer = some r → LegiblePartial P r
      else ∃ m r, LeavesAlone request.requestId (s.member i.signerId) m ∧
        Unexpired request.requestId m ∧
        Serves (ShowsQuorum P M (hashValue P (some request.toJson)))
          (round2 P (member i.signerId) (some (sent body))) m r ∧ answer = some (r.arrived P)) ∧
      ∀ j ≠ i.signerId, faulty j = false → LeavesAlone request.requestId (s.member j) (s'.member j)
  | .health signers, answers => ∀ i ∈ signers, faulty i.signerId = false →
      signerIsOnline P (answers i.signerId) = true
  | _, _ => True

/-! ### Commitments -/

section Commitments

variable {chosen : List (SignerInfo cfg.SignerId)} {member : cfg.SignerId → SignerEnv cfg}
  {out : ℤ → Frost.Round1Output} {faulty : cfg.SignerId → Bool}

/-- An answer of round 1 that is not a commitment is the failure of its signer. -/
theorem sentCommitment_failed {i : SignerInfo cfg.SignerId} {answer : Option HttpResult}
    {e : CeremonyError cfg} (h : sentCommitment P i answer = .error e) :
    ∃ status, e = .ROUND1_FAILED i.signerId status := by
  cases answer with
  | none =>
      cases h
      exact ⟨_, rfl⟩
  | some r =>
      simp only [sentCommitment] at h
      split at h
      · split at h
        · cases h
        · cases h
          exact ⟨_, rfl⟩
      · cases h
        exact ⟨_, rfl⟩

/-- A commitment carries the identifier of its signer. -/
theorem sentCommitment_identifier {i : SignerInfo cfg.SignerId} {answer : Option HttpResult}
    {c : SentCommitment} (h : sentCommitment P i answer = .ok c) : c.identifier = i.identifier := by
  cases answer with
  | none => cases h
  | some r =>
      simp only [sentCommitment] at h
      split at h
      · split at h
        · cases h
          rfl
        · cases h
      · cases h

/-- **Round 1.** The commitments decode and contain the honest ones, or a faulty signer has failed.
Induction on the signers. -/
theorem mapM_sentCommitment_legible {answers : cfg.SignerId → Option HttpResult}
    (hhonest : ∀ i ∈ chosen, faulty i.signerId = false →
      ∃ d e, Frost.commit P.toCurve d e = .ok (out i.identifier) ∧ answers i.signerId = some
        ((Response.json (commitmentAnswer (member i.signerId) (out i.identifier))).arrived P))
    (hlegible : ∀ i ∈ chosen, faulty i.signerId = true →
      LegibleCommitment P i (answers i.signerId)) :
    (∃ cs : List Frost.Commitment, chosen.mapM (fun i => sentCommitment P i (answers i.signerId)) =
        .ok (cs.map SentCommitment.of) ∧ cs.map (·.identifier) = chosen.map (·.identifier) ∧
      (∀ c ∈ cs, (∃ p, Frost.pointFromHex P.toCurve c.hidingHex = .ok p) ∧
        ∃ p, Frost.pointFromHex P.toCurve c.bindingHex = .ok p) ∧
      ∀ i ∈ chosen, faulty i.signerId = false → (out i.identifier).commitment i.identifier ∈ cs) ∨
    ∃ i ∈ chosen, faulty i.signerId = true ∧ ∃ status,
      chosen.mapM (fun i => sentCommitment P i (answers i.signerId)) =
        .error (.ROUND1_FAILED i.signerId status) := by
  induction chosen with
  | nil =>
      exact .inl ⟨[], rfl, rfl, fun _ h => absurd h List.not_mem_nil,
        fun _ h => absurd h List.not_mem_nil⟩
  | cons i chosen ih =>
      have hfirst : (∃ c : Frost.Commitment, sentCommitment P i (answers i.signerId) = .ok (.of c) ∧
          c.identifier = i.identifier ∧ ((∃ p, Frost.pointFromHex P.toCurve c.hidingHex = .ok p) ∧
            ∃ p, Frost.pointFromHex P.toCurve c.bindingHex = .ok p) ∧
          (faulty i.signerId = false → (out i.identifier).commitment i.identifier = c)) ∨
          faulty i.signerId = true ∧ ∃ status, sentCommitment P i (answers i.signerId) =
            .error (.ROUND1_FAILED i.signerId status) := by
        cases hfaulty : faulty i.signerId with
        | false =>
            obtain ⟨d, e, hcommit, hanswer⟩ := hhonest i List.mem_cons_self hfaulty
            have hpoints := Frost.commit_ok hcommit
            exact .inl ⟨_, hanswer ▸ sentCommitment_of hcommit, rfl,
              ⟨⟨_, hpoints.2.2.2.2.1⟩, _, hpoints.2.2.2.2.2⟩, fun _ => rfl⟩
        | true =>
            cases hsent : sentCommitment P i (answers i.signerId) with
            | ok sent =>
                obtain ⟨c, rfl, hpoints⟩ := hlegible i List.mem_cons_self hfaulty sent hsent
                exact .inl ⟨c, rfl, sentCommitment_identifier hsent, hpoints, fun h => by cases h⟩
            | error e =>
                obtain ⟨status, rfl⟩ := sentCommitment_failed hsent
                exact .inr ⟨rfl, status, rfl⟩
      rw [List.mapM_cons]
      rcases hfirst with ⟨c, hsent, hid, hpoints, hown⟩ | ⟨hfaulty, status, hsent⟩
      · rw [hsent]
        rcases ih (fun j hj => hhonest j (List.mem_cons_of_mem _ hj))
            (fun j hj => hlegible j (List.mem_cons_of_mem _ hj)) with
          ⟨cs, hcs, hids, hall, hcommitted⟩ | ⟨j, hj, hfaulty, status, hcs⟩
        · refine .inl ⟨c :: cs, by rw [hcs]; rfl, by rw [List.map_cons, List.map_cons, hids, hid],
            List.forall_mem_cons.mpr ⟨hpoints, hall⟩, List.forall_mem_cons.mpr
            ⟨fun h => ?_, fun j hj h => ?_⟩⟩
          · rw [hown h]
            exact List.mem_cons_self
          · exact List.mem_cons_of_mem _ (hcommitted j hj h)
        · exact .inr ⟨j, List.mem_cons_of_mem _ hj, hfaulty, status, by rw [hcs]; rfl⟩
      · exact .inr ⟨i, List.mem_cons_self, hfaulty, status, by rw [hsent]; rfl⟩

end Commitments

/-! ### An attempt -/

section Attempt

variable {member : cfg.SignerId → SignerEnv cfg} {M : ConsortiumManifest cfg}
  {keys : Frost.KeygenOutput} {chosen signers : List (SignerInfo cfg.SignerId)}
  {out : ℤ → Frost.Round1Output} {record : PipelineRecord cfg} {d : DebitConfirmation}
  {faulty : cfg.SignerId → Bool} {zi : ℤ → String} {message : Bytes} {rid : ℕ}
  {W : Rules (Services cfg) (CoordinatorCall cfg) CoordinatorCall.Answer}
  {J : CoordinatorTrace (Services cfg) cfg → Services cfg → Prop}
  {request : GenerationRequest} {t : CoordinatorTrace (Services cfg) cfg} {s : Services cfg}

/-- How round 2 ends with faulty signers: with all the shares, or with the blame on one of them. -/
def Contributed (P : Platform) (env : CoordinatorEnv cfg) (faulty : cfg.SignerId → Bool)
    (commitments : List SentCommitment) (message : Bytes)
    (signers : List (SignerInfo cfg.SignerId)) :
    Except (CeremonyOutcome cfg) (List Frost.SignatureShare) → Prop
  | .ok shares => shares.map (·.identifier) = signers.map (·.identifier) ∧
      ∀ share ∈ shares, verifyShare P env share commitments message = .ok true
  | .error outcome => ∃ i ∈ signers, faulty i.signerId = true ∧ Blames P i.signerId outcome

/-- One more signer has contributed its share. -/
theorem Contributed.cons {commitments : List SentCommitment} {i : SignerInfo cfg.SignerId}
    {share : Frost.SignatureShare}
    {result : Except (CeremonyOutcome cfg) (List Frost.SignatureShare)}
    (h : Contributed P env faulty commitments message signers result)
    (hid : share.identifier = i.identifier)
    (hok : verifyShare P env share commitments message = .ok true) :
    Contributed P env faulty commitments message (i :: signers) (result.map (share :: ·)) := by
  cases result with
  | ok shares =>
      obtain ⟨hids, hall⟩ := h
      exact ⟨by rw [List.map_cons, List.map_cons, hids, hid], List.forall_mem_cons.mpr ⟨hok, hall⟩⟩
  | error outcome =>
      obtain ⟨j, hj, hblames⟩ := h
      exact ⟨j, List.mem_cons_of_mem _ hj, hblames⟩

/-- In the turn of a faulty signer its share is kept, or it is blamed. The cases are those of what
the coordinator looks at. -/
theorem turn_of_legible {commitments : List SentCommitment} {i : SignerInfo cfg.SignerId}
    {a : Option HttpResult} (hlegible : ∀ r, a = some r → LegiblePartial P r)
    (hverdict : ∀ text z, Frost.scalarFromHex P.toCurve text = .ok z →
      ∃ b, verifyShare P env ⟨i.identifier, text⟩ commitments message = .ok b) :
    (∃ share, Turn P env commitments message i a (.ok share)) ∨
      ∃ outcome, Turn P env commitments message i a (.error outcome) ∧
        Blames P i.signerId outcome := by
  cases a with
  | none => exact .inr ⟨_, .unreachable, .error rfl⟩
  | some r =>
      obtain ⟨hzi, ⟨error, herror⟩, reason, hreason⟩ := hlegible r rfl
      by_cases hrefused : r.status = 403 ∧ truthy ((r.body P).get? "refused") = true
      · exact .inr ⟨_, .refused hrefused, .refused hreason⟩
      cases htext : ((r.body P).get? "zi").bind (·.asString) with
      | none =>
          exact .inr ⟨_, .failed hrefused (fun zi h => by rw [htext] at h; cases h) herror,
            .error rfl⟩
      | some text =>
          cases hok : r.ok with
          | false => exact .inr ⟨_, .failed hrefused (fun _ _ => hok) herror, .error rfl⟩
          | true =>
              obtain ⟨v, hv, hstr⟩ := Option.bind_eq_some_iff.mp htext
              obtain ⟨z, hz⟩ := hzi text (by
                cases v with
                | str x => rw [hv, Option.some.inj hstr]
                | _ => cases hstr)
              obtain ⟨b, hb⟩ := hverdict text z hz
              cases b with
              | false => exact .inr ⟨_, .bad hrefused htext hok hb, .error rfl⟩
              | true => exact .inl ⟨_, .kept hrefused htext hok hb⟩

/-- **Round 2** with faulty signers: every share is kept or its signer blamed. Induction on the
signers that are left. -/
theorem wp_collectShares_attributed {body : Json} {commitments : List SentCommitment}
    (hrest : ∀ t s, J t s → W.rest t s)
    (hround2 : ∀ signer a t s s', J t s → W.resume (.round2 signer body) s a s' →
      J (t ++ [.answered (.round2 signer body) a]) s' ∧
        Deviates P member M faulty request s s' (.round2 signer body) a)
    (hflags : ∀ t s, J t s → ∀ i ∈ signers, faulty i.signerId = false →
      (s.member i.signerId).online = true ∧ (s.member i.signerId).refuse = false)
    (hnd : (signers.map (·.signerId)).Nodup)
    (hanswers : ∀ i ∈ signers, faulty i.signerId = false →
      AnswersBody P member M request out zi body i)
    (hverified : ∀ i ∈ signers,
      verifyShare P env ⟨i.identifier, zi i.identifier⟩ commitments message = .ok true)
    (hverdict : ∀ i ∈ signers, ∀ text z, Frost.scalarFromHex P.toCurve text = .ok z →
      ∃ b, verifyShare P env ⟨i.identifier, text⟩ commitments message = .ok b)
    (hJ : J t s)
    (hopen : ∀ i ∈ signers, faulty i.signerId = false → ∃ session,
      (s.member i.signerId).sessions.get request.requestId = some session ∧
        session.nonces = (out i.identifier).nonces) :
    wp W (Services.lens cfg) (collectShares P env body commitments message signers)
      (fun result t s => J t s ∧ Contributed P env faulty commitments message signers result)
      (fun _ _ _ => False) t s := by
  induction signers generalizing t s with
  | nil => exact ⟨hJ, rfl, fun _ h => absurd h List.not_mem_nil⟩
  | cons i signers ih =>
      refine wp_collectShares_cons (hrest t s hJ) fun a s' hr => ?_
      obtain ⟨hJ', hanswer, hothers⟩ := hround2 i a t s s' hJ hr
      have hturn : (∃ share, Turn P env commitments message i a (.ok share)) ∨
          ∃ outcome, Turn P env commitments message i a (.error outcome) ∧
            faulty i.signerId = true ∧ Blames P i.signerId outcome := by
        cases hfaulty : faulty i.signerId with
        | false =>
            rw [hfaulty, if_neg Bool.false_ne_true] at hanswer
            obtain ⟨m, r, hleaves, hfresh, hserves, rfl⟩ := hanswer
            obtain ⟨honline, hrefuse⟩ := hflags t s hJ i List.mem_cons_self hfaulty
            obtain ⟨session, hget, hnonces⟩ := hopen i List.mem_cons_self hfaulty
            obtain rfl := hanswers i List.mem_cons_self hfaulty m session r
              (hleaves.online.trans honline) (hleaves.refuse.trans hrefuse)
              (hleaves.session.trans hget) hnonces hfresh hserves
            exact .inl ⟨_, turn_partial _ (hverified i List.mem_cons_self)⟩
        | true =>
            rw [hfaulty, if_pos rfl] at hanswer
            rcases turn_of_legible hanswer (hverdict i List.mem_cons_self) with
              hkept | ⟨outcome, hturn, hblames⟩
            · exact .inl hkept
            · exact .inr ⟨outcome, hturn, rfl, hblames⟩
      rcases hturn with ⟨share, hturn⟩ | ⟨outcome, hturn, hfaulty, hblames⟩
      · obtain ⟨hid, hok⟩ := hturn.verified
        obtain ⟨hnew, hnd'⟩ := List.nodup_cons.mp hnd
        refine ⟨_, hturn, wp_mono (ih
          (fun t s h j hj => hflags t s h j (List.mem_cons_of_mem _ hj)) hnd'
          (fun j hj => hanswers j (List.mem_cons_of_mem _ hj))
          (fun j hj => hverified j (List.mem_cons_of_mem _ hj))
          (fun j hj => hverdict j (List.mem_cons_of_mem _ hj)) hJ' fun j hj hfollows => ?_)
          (fun _ _ _ h => ⟨h.1, h.2.cons hid hok⟩) fun _ _ _ h => h⟩
        -- the signers that are left find their sessions
        have hne : j.signerId ≠ i.signerId := fun heq => hnew (List.mem_map.mpr ⟨j, hj, heq⟩)
        obtain ⟨session, hget, hnonces⟩ := hopen j (List.mem_cons_of_mem _ hj) hfollows
        exact ⟨session, (hothers j.signerId hne hfollows).session.trans hget, hnonces⟩
      · exact ⟨_, hturn, hJ', i, List.mem_cons_self, hfaulty, hblames⟩

/-- How an attempt ends with faulty signers: with a token that the group has signed, or with the
blame on one of them. -/
def Attributed (P : Platform) (env : CoordinatorEnv cfg) (faulty : cfg.SignerId → Bool)
    (tokenPayload : TokenPayload) (chosen : List (SignerInfo cfg.SignerId))
    (outcome : CeremonyOutcome cfg) : Prop :=
  (∃ token, outcome = .ok token (chosen.map (·.signerId)) ∧ token.toTokenPayload = tokenPayload ∧
    Frost.verifySignature P.toCurve token.signature (tokenPayload.message P)
      env.GROUP.groupPublicKey = true) ∨
  ∃ i ∈ chosen, faulty i.signerId = true ∧ Blames P i.signerId outcome

/-- **An attempt** with faulty signers: it makes a token that the group has signed, or blames one of
them, at the latest in the check of its share. -/
theorem wp_runCeremony_attributed {K : CoordinatorTrace (Services cfg) cfg → Services cfg → Prop}
    (hstaffed : Staffed P env key member M keys) (hchosen : Registered chosen)
    (hlength : cfg.t ≤ chosen.length) (hrecord : s.store.heap rid = record)
    (hdebit : record.debit = some d.toJson) (hconfirmed : ConfirmedBy P key record.request d)
    (hsession : record.request.requestId ≠ "")
    (hrest : ∀ t s, J t s → W.rest t s) (hrestK : ∀ t s, K t s → W.rest t s)
    (hround1 : ∀ body a t s s', K t s → W.resume (.round1 chosen body) s a s' →
      J (t ++ [.answered (.round1 chosen body) a]) s' ∧
        Deviates P member M faulty record.request s s' (.round1 chosen body) a)
    (hround2 : ∀ signer body a t s s', J t s → W.resume (.round2 signer body) s a s' →
      J (t ++ [.answered (.round2 signer body) a]) s' ∧
        Deviates P member M faulty record.request s s' (.round2 signer body) a)
    (hflags : ∀ t s, J t s → ∀ i ∈ chosen, faulty i.signerId = false →
      (s.member i.signerId).online = true ∧ (s.member i.signerId).refuse = false)
    (honline : ∀ i ∈ chosen, faulty i.signerId = false → (s.member i.signerId).online = true)
    (hK : K t s) :
    wp W (Services.lens cfg) (runCeremony P env rid chosen (d.tokenPayload P)
        ((d.tokenPayload P).message P) (bytesToHex ((d.tokenPayload P).message P)))
      (fun outcome t s => J t s ∧ Attributed P env faulty (d.tokenPayload P) chosen outcome)
      (fun _ _ _ => False) t s := by
  rw [runCeremony]
  simp only [theRecord, wp_bind, wp_gets, wp_call, Services.lens_view, hrecord]
  refine ⟨hrestK t s hK, fun a s' hr => ?_⟩
  obtain ⟨hJ, hdeviates⟩ := hround1 _ a t s s' hK hr
  rw [Services.lens_view, hrecord] at hdeviates
  -- the nonces of the signers that follow the code; those of the others do not matter
  obtain ⟨out, hout⟩ : ∃ out : ℤ → Frost.Round1Output, ∀ i ∈ chosen,
      faulty i.signerId = false →
        Opened P member record.request.requestId a s' i (out i.identifier) := by
    refine hchosen.byIdentifier (A := fun i o => faulty i.signerId = false →
      Opened P member record.request.requestId a s' i o) ⟨⟨"", ""⟩, "", ""⟩ fun i hi => ?_
    cases hfaulty : faulty i.signerId with
    | true => exact ⟨⟨⟨"", ""⟩, "", ""⟩, fun h => by cases h⟩
    | false =>
        have hcoop := hdeviates i hi
        rw [hfaulty, if_neg Bool.false_ne_true] at hcoop
        obtain ⟨o, ho⟩ := opened_of_round1 hstaffed (hchosen.mem i hi) hsession
          (honline i hi hfaulty) hcoop
        exact ⟨o, fun _ => ho⟩
  have hhonest : ∀ i ∈ chosen, faulty i.signerId = false →
      ∃ d e, Frost.commit P.toCurve d e = .ok (out i.identifier) ∧ a i.signerId = some
        ((Response.json (commitmentAnswer (member i.signerId) (out i.identifier))).arrived P) :=
    fun i hi hfollows => by
      obtain ⟨d, e, hcommit⟩ := (hout i hi hfollows).committed
      exact ⟨d, e, hcommit, (hout i hi hfollows).answered⟩
  have hlegible : ∀ i ∈ chosen, faulty i.signerId = true → LegibleCommitment P i (a i.signerId) :=
    fun i hi hfaulty => by
      have hlegible := hdeviates i hi
      rwa [hfaulty, if_pos rfl] at hlegible
  rcases mapM_sentCommitment_legible hhonest hlegible with
    ⟨cs, hcs, hids, hpoints, hown⟩ | ⟨i, hi, hfaulty, status, herror⟩
  · have hdec : Frost.Decodes P.toCurve cs := ⟨hids ▸ hchosen.nodup_identifier,
      fun c hc => (hpoints c hc).1, fun c hc => (hpoints c hc).2⟩
    obtain ⟨zi, hzi⟩ := dealt_partials out hstaffed hchosen hids hdec ((d.tokenPayload P).message P)
    simp only [hcs, wp_bind]
    refine wp_mono (wp_collectShares_attributed hrest
      (fun signer a t s s' => hround2 signer _ a t s s') hflags hchosen.nodup_signerId
      (fun i hi hfollows => answersBody hstaffed hdebit hconfirmed (hchosen.mem i hi)
        ((hzi i hi).signs (hout i hi hfollows).committed (hown i hi hfollows)))
      (fun i hi => (hzi i hi).verified) (fun i hi => (hzi i hi).verdict) hJ
      fun i hi hfollows => (hout i hi hfollows).session) (fun result t s h => ?_) fun _ _ _ h => h
    obtain ⟨h, hcontributed⟩ := h
    cases result with
    | error outcome => exact ⟨h, .inr hcontributed⟩
    | ok shares =>
        obtain ⟨hsame, hverified⟩ := hcontributed
        obtain ⟨n, draws, hn, hdealt⟩ := hstaffed.dealt
        obtain ⟨token, htoken⟩ : ∃ token, concludeCeremony P env chosen (d.tokenPayload P)
            ((d.tokenPayload P).message P) (cs.map SentCommitment.of) shares =
              .ok token (chosen.map (·.signerId)) :=
          concludeCeremony_kept hdealt hn hstaffed.group (fun i hi => by
            obtain ⟨-, k, hk, hid, -⟩ := hstaffed.share i (hchosen.mem i hi)
            exact ⟨k, hk, hid⟩) hlength (by
              rw [List.map_map]
              exact hids) hsame hverified
        obtain ⟨hpayload, -, hsignature⟩ := concludeCeremony_ok htoken
        exact ⟨h, .inl ⟨token, htoken, hpayload, hsignature⟩⟩
  · simp only [herror]
    exact ⟨hJ, .inr ⟨i, hi, hfaulty, .error rfl⟩⟩

end Attempt

/-! ### The attempts of a request -/

/-- What the others leave alone while the attempts of a request go on: its record; and the
signers that follow the code stay online and willing. -/
structure LeavesTrial (faulty : cfg.SignerId → Bool) (rid : ℕ)
    (s s' : Services cfg) : Prop where
  record : s'.store.heap rid = s.store.heap rid
  willing : ∀ i ∈ cfg.SIGNERS, faulty i.signerId = false →
    (s'.member i.signerId).online = true ∧ (s'.member i.signerId).refuse = false

/-- The rules of the attempts of a request. -/
def trialRules (P : Platform) (member : cfg.SignerId → SignerEnv cfg) (M : ConsortiumManifest cfg)
    (faulty : cfg.SignerId → Bool) (request : GenerationRequest) (rid : ℕ) :
    Rules (Services cfg) (CoordinatorCall cfg) CoordinatorCall.Answer where
  resume q s a s' := LeavesTrial faulty rid s s' ∧ Deviates P member M faulty request s s' q a
  gua _ _ _ := True

section Trial

variable {member : cfg.SignerId → SignerEnv cfg} {M : ConsortiumManifest cfg}
  {keys : Frost.KeygenOutput} {faulty : cfg.SignerId → Bool} {rid : ℕ} {request : GenerationRequest}
  {d : DebitConfirmation} {r : PipelineRecord cfg}
  {names : List cfg.SignerId} {t : CoordinatorTrace (Services cfg) cfg} {s : Services cfg}
  {post : Unit → CoordinatorTrace (Services cfg) cfg → Services cfg → Prop}
  {exn : String → CoordinatorTrace (Services cfg) cfg → Services cfg → Prop}

variable (faulty rid request d) in
/-- The attempts of the request on the record `r`, which have named the members `names`: the record
is what they write, and the members that are not faulty stay willing. -/
structure Trial (r : PipelineRecord cfg) (names : List cfg.SignerId)
    (t : CoordinatorTrace (Services cfg) cfg) (s : Services cfg) : Prop where
  record : s.store.heap rid = r
  request_eq : r.request = request
  debit : r.debit = some d.toJson
  willing : ∀ i ∈ cfg.SIGNERS, faulty i.signerId = false →
    (s.member i.signerId).online = true ∧ (s.member i.signerId).refuse = false
  refusals : Refusals t names

/-- An answer leaves the trial as it was: the members are as honest, and the record is alone with
its run. -/
theorem Trial.answered (h : Trial faulty rid request d r names t s) {q : CoordinatorCall cfg}
    {a : q.Answer} {s' : Services cfg}
    (hr : (trialRules P member M faulty request rid).resume q s a s') :
    Trial faulty rid request d r names (t ++ [.answered q a]) s' :=
  ⟨hr.1.record.trans h.record, h.request_eq, h.debit, hr.1.willing, h.refusals.answered q a⟩

/-- A write of its own record leaves the trial as it was, with the record as written. -/
theorem Trial.wp_write (h : Trial faulty rid request d r names t s) {v : PipelineRecord cfg}
    {f : Store cfg → Store cfg} (hb : SetsRecord rid v s.store (f s.store))
    (hrequest : v.request = r.request)
    (hdebit : v.debit = r.debit)
    (hpost : ∀ t s, Trial faulty rid request d v names t s → post () t s) :
    wp (trialRules P member M faulty request rid) (Services.lens cfg) (.modify f) post exn t s :=
  ⟨trivial, hpost _ _ ⟨hb.own, hrequest.trans h.request_eq, hdebit.trans h.debit, h.willing,
    h.refusals.silent hb.governance⟩⟩

/-- A member is named in the governance log, after those named before. -/
theorem Trial.wp_named (h : Trial faulty rid request d r names t s) (i : cfg.SignerId)
    (detail : Option Json)
    (hpost : ∀ t s, Trial faulty rid request d r (names ++ [i]) t s → post () t s) :
    wp (trialRules P member M faulty request rid) (Services.lens cfg)
      (.modify (Store.addGovernanceEntry "SIGNER_REFUSED" (cfg.idText i) (cfg.idText i) detail))
      post exn t s :=
  ⟨trivial, hpost _ _ ⟨h.record, h.request_eq, h.debit, h.willing, h.refusals.named rfl⟩⟩

/-- **Abandonment** rejects the record for the reason that is given, and keeps its token, if it has
one, and the members that were named. -/
theorem Trial.wp_abandon (h : Trial faulty rid request d r names t s) {wall : Wall}
    {reason attribution : String}
    (hpost : ∀ r' t s, Trial faulty rid request d r' names t s → r'.token = r.token →
      r'.status = .REJECTED_ABANDONED →
      (∃ at_, r'.rejection = some ⟨wall, reason, at_, attribution⟩) → post () t s) :
    wp (trialRules P member M faulty request rid) (Services.lens cfg)
      (abandon P rid wall reason attribution) post exn t s := by
  have htext : toStr P.numeral (some (.str d.debitRef)) = .ok d.debitRef := rfl
  have hclose : ∀ (reversed : Bool) t s, Trial faulty rid request d r names t s →
      wp (trialRules P member M faulty request rid) (Services.lens cfg)
        (closeAbandoned P rid wall reason attribution r.request.requestId (some (.str d.debitRef))
          reversed) post exn t s := fun reversed t s h => by
    obtain ⟨alert, halert⟩ := abandonAlert_ok htext wall r.request.requestId reason
      attribution reversed
    rw [closeAbandoned, wp_bind]
    have hupdate := (setsOnlyRecord_update rid (fun r : PipelineRecord cfg => { r with
      debitReversed := some reversed
      rejection := some ⟨wall, reason, s.store.now, attribution⟩ }) s.store).toSetsRecord
    rw [h.record] at hupdate
    refine h.wp_write hupdate rfl rfl fun t s' h => ?_
    simp only [halert, wp_bind, wp_ofExcept_ok]
    have hmoved := (setsOnlyRecord_transition rid .REJECTED_ABANDONED (reason ++ (if reversed then
      " · debit reversed" else " · debit reversal FAILED")) (s'.store.addAlert alert)).toSetsRecord
    rw [show (s'.store.addAlert alert).heap rid = _ from h.record] at hmoved
    exact h.wp_write ⟨hmoved.own, hmoved.members, hmoved.governance⟩ rfl rfl fun t s h =>
      hpost _ t s h rfl rfl ⟨_, rfl⟩
  have href : prop? r.debit "debitRef" = some (.str d.debitRef) := by
    rw [h.debit, prop?_some, ← d.sent_toJson, d.get?_debitRef]
  rw [abandon]
  simp only [theRecord, wp_bind, wp_gets, Services.lens_view, h.record, href]
  split
  · rw [reverseDebit, htext]
    simp only [wp_bind]
    refine h.wp_write (v := r) ⟨h.record, rfl, rfl⟩ rfl rfl fun t s h =>
      ⟨trivial, fun a s' hr => ?_⟩
    exact hclose _ _ _ (h.answered hr)
  · exact hclose _ _ _ h

/-! ### Once there is a token -/

section HasToken

variable {token : Token}

variable (faulty rid request d) in
/-- The record has a token, which is never taken back. -/
def HasToken (token : Token) (names : List cfg.SignerId) (t : CoordinatorTrace (Services cfg) cfg)
    (s : Services cfg) : Prop :=
  ∃ r, Trial faulty rid request d r names t s ∧ r.token = some token

/-- A write that keeps the token, in the proof of a program. -/
theorem HasToken.wp_write (h : HasToken faulty rid request d token names t s)
    {f : Store cfg → Store cfg}
    (hf : ∀ r, s.store.heap rid = r → ∃ r', SetsRecord rid r' s.store (f s.store) ∧
      r'.request = r.request ∧ r'.debit = r.debit ∧ r'.token = r.token)
    (hpost : ∀ t s, HasToken faulty rid request d token names t s → post () t s) :
    wp (trialRules P member M faulty request rid) (Services.lens cfg) (.modify f) post exn t s := by
  obtain ⟨r, h, htoken⟩ := h
  obtain ⟨r', hb, hrequest, hdebit, hkept⟩ := hf r h.record
  exact h.wp_write hb hrequest hdebit fun t s h => hpost t s ⟨r', h, hkept.trans htoken⟩

/-- An answer leaves the token where it is. -/
theorem HasToken.answered (h : HasToken faulty rid request d token names t s)
    {q : CoordinatorCall cfg} {a : q.Answer} {s' : Services cfg}
    (hr : (trialRules P member M faulty request rid).resume q s a s') :
    HasToken faulty rid request d token names (t ++ [.answered q a]) s' := by
  obtain ⟨r, h, htoken⟩ := h
  exact ⟨r, h.answered hr, htoken⟩

variable (P member M faulty rid request d token names) in
/-- A program during which the token is kept. -/
abbrev KeepsToken {α : Type} (p : CoordinatorProg cfg α) : Prop :=
  ∀ t s, HasToken faulty rid request d token names t s →
    wp (trialRules P member M faulty request rid) (Services.lens cfg) p
      (fun _ => HasToken faulty rid request d token names)
      (fun _ => HasToken faulty rid request d token names) t s

/-- A run that is abandoned keeps the token on its record. -/
theorem keepsToken_abandon {wall : Wall} {reason attribution : String} :
    KeepsToken P member M faulty rid request d names token
      (abandon P rid wall reason attribution) := fun t s h => by
  obtain ⟨r, h, htoken⟩ := h
  exact h.wp_abandon fun r' t s h hkept _ _ => ⟨r', h, hkept.trans htoken⟩

/-- The collection of fragments keeps the token. -/
theorem keepsToken_collectFragments {body : Json} {signers : List (SignerInfo cfg.SignerId)} :
    KeepsToken P member M faulty rid request d names token
      (collectFragments P body signers) := by
  induction signers with
  | nil => exact fun t s h => h
  | cons signer signers ih =>
      intro t s h
      rw [collectFragments]
      simp only [wp_bind, wp_call]
      refine ⟨trivial, fun a s' hr => ?_⟩
      have h := h.answered hr
      refine wp_ofExcept (fun fragment _ => ?_) fun e _ => h
      rw [wp_bind]
      exact wp_mono (ih _ s' h) (fun _ _ _ h => h) fun _ _ _ h => h

/-- The receipt is made with the token on the record. -/
theorem keepsToken_multisignReceipt {publication : Publication} {signerSet : List cfg.SignerId} :
    KeepsToken P member M faulty rid request d names token
      (multisignReceipt P env rid publication token signerSet) := fun t s h => by
  rw [multisignReceipt]
  simp only [theRecord, wp_bind, wp_gets]
  refine wp_ofExcept (fun debitRefHash _ => ?_) fun e _ => h
  simp only [wp_bind, wp_gets]
  refine wp_ofExcept (fun M _ => ?_) fun e _ => h
  simp only [wp_bind, wp_call]
  refine ⟨trivial, fun a s' hr => ?_⟩
  have h := h.answered hr
  refine wp_ofExcept (fun prepared _ => ?_) fun e _ => h
  rw [wp_bind]
  refine wp_mono (keepsToken_collectFragments _ s' h) (fun fragments t s h => ?_) fun _ _ _ h => h
  simp only [wp_bind, wp_call]
  refine ⟨trivial, fun a s' hr => ?_⟩
  have h := h.answered hr
  refine wp_ofExcept (fun txHash _ => ?_) fun e _ => h
  rw [wp_bind]
  exact h.wp_write (fun r hr => ⟨r, ⟨hr, rfl, rfl⟩, rfl, rfl, rfl⟩) fun t s h => h

/-- The delivery keeps the token on the record. -/
theorem keepsToken_deliver :
    KeepsToken P member M faulty rid request d names token (deliver P env rid token) :=
    fun t s h => by
  rw [deliver]
  simp only [theRecord, wp_bind, wp_gets, deliverToken]
  split
  · rw [wp_pure]
    exact keepsToken_abandon t s h
  · simp only [wp_bind, creditMeter]
    refine h.wp_write (fun r hr => ⟨r, ⟨hr, rfl, rfl⟩, rfl, rfl, rfl⟩) fun t s h => ?_
    rw [wp_bind, wp_bind]
    refine h.wp_write (fun r hr => ⟨r, setsRecord_ensureMeter _ hr, rfl, rfl, rfl⟩) fun t s h => ?_
    simp only [wp_bind, wp_gets]
    refine wp_ofExcept (fun balance _ => ?_) fun e _ => h
    refine h.wp_write (fun r hr => ⟨r, ⟨hr, rfl, rfl⟩, rfl, rfl, rfl⟩) fun t s h => ?_
    rw [wp_pure]
    refine h.wp_write
      (fun r hr => ⟨_, (setsOnlyRecord_step rid .DELIVERED _ _ s.store).toSetsRecord, ?_, ?_, ?_⟩)
      fun t s h => h
    all_goals rw [hr]; rfl

/-- What follows a token keeps it, and names no member. -/
theorem keepsToken_settleReceipt {publication : Publication} {signerSet : List cfg.SignerId} :
    KeepsToken P member M faulty rid request d names token
      (settleReceipt P env rid publication token signerSet) := fun t s h => by
  rw [settleReceipt]
  simp only [theRecord, wp_bind, wp_gets]
  split
  · exact keepsToken_abandon t s h
  · rw [wp_bind]
    refine h.wp_write (fun r hr => ⟨r, ⟨hr, rfl, rfl⟩, rfl, rfl, rfl⟩) fun t s h => ?_
    rw [wp_bind, wp_tryCatch, wp_map]
    refine wp_mono (keepsToken_multisignReceipt t s h) (fun ledger t s h => ?_) fun e t s h => ?_
    · rw [wp_bind]
      refine h.wp_write (fun r hr => ?_) fun t s h => keepsToken_deliver t s h
      have hupdate := setsOnlyRecord_update rid (fun r : PipelineRecord cfg =>
        { r with ledger := some ledger })
        s.store
      have haudit : SetsOnlyRecord rid _ (s.store.update rid fun r =>
        { r with ledger := some ledger })
        (Store.addAudit ledger (s.store.update rid fun r => { r with ledger := some ledger })) :=
          ⟨⟨hupdate.own, rfl, rfl⟩, rfl, rfl, rfl⟩
      have hmoved := setsOnlyRecord_transition rid .RECORDED
        ("2-of-3 multisign receipt: " ++ ledger.txHash)
        (Store.addAudit ledger (s.store.update rid fun r => { r with ledger := some ledger }))
      rw [haudit.own, hr] at hmoved
      exact ⟨_, ((hupdate.trans haudit).trans hmoved).toSetsRecord, rfl, rfl, rfl⟩
    · exact keepsToken_abandon t s h

end HasToken

/-! ### The loop -/

variable (faulty) in
/-- A rejection without a token. It names a faulty signer, or there are too few signers that are not
faulty. -/
inductive Charges (online : List (SignerInfo cfg.SignerId)) (names : List cfg.SignerId) :
    Rejection → Prop
  | fault {e : CeremonyError cfg} {i : cfg.SignerId} {at_ : String} (hfaulty : faulty i = true)
      (hculprit : e.culprit = some i) : Charges online names
        ⟨.WALL_2_CONSORTIUM, e.reason, at_, (e.badSigner.map cfg.idText).getD "consortium"⟩
  | spare {at_ : String} (hfew : (online.filter fun i => !faulty i.signerId).length < cfg.t) :
      Charges online names ⟨.WALL_2_CONSORTIUM, "SIGNERS_REFUSED (" ++ joinIds ", " names ++
        ") · no spare signer available", at_, orText (joinIds ", " names) "consortium"⟩
  | below {n : ℕ} {at_ : String}
      (hfew : (online.filter fun i => !faulty i.signerId).length < cfg.t) :
      Charges online names ⟨.WALL_2_CONSORTIUM, belowThreshold cfg n, at_, "consortium"⟩

variable (P env faulty rid d) in
/-- **How the attempts of a request end.** Only faulty signers are named in the governance log, each
of them once. The record has a token of its debit that the group has signed, or was rejected. -/
structure Tried (online : List (SignerInfo cfg.SignerId)) (names : List cfg.SignerId)
    (t : CoordinatorTrace (Services cfg) cfg) (s : Services cfg) : Prop where
  refusals : Refusals t names
  nodup : names.Nodup
  named : ∀ i ∈ names, faulty i = true
  ended : (∃ token, (s.store.heap rid).token = some token ∧
    token.toTokenPayload = d.tokenPayload P ∧
      Frost.verifySignature P.toCurve token.signature ((d.tokenPayload P).message P)
        env.GROUP.groupPublicKey = true) ∨
    (s.store.heap rid).status = .REJECTED_ABANDONED ∧
      ∃ rejection, (s.store.heap rid).rejection = some rejection ∧
      Charges faulty online names rejection

/-- A signer that is named leaves the pool. -/
theorem length_filter_named {online : List (SignerInfo cfg.SignerId)} {i : SignerInfo cfg.SignerId}
    (hi : i ∈ online.filter fun j => j.signerId ∉ names) :
    (online.filter fun j => j.signerId ∉ names ++ [i.signerId]).length <
      (online.filter fun j => j.signerId ∉ names).length := by
  have hrest : (online.filter fun j => j.signerId ∉ names ++ [i.signerId]) =
      (online.filter fun j => j.signerId ∉ names).filter fun j => j.signerId ≠ i.signerId := by
    rw [List.filter_filter]
    refine List.filter_congr fun j _ => ?_
    simp [and_comm]
  rw [hrest]
  exact List.length_filter_lt_length_iff_exists.mpr ⟨i, hi, by simp⟩

section Loop

variable {online : List (SignerInfo cfg.SignerId)} {publication : Publication}

/-- Too few signers are left: those that are not faulty have not been named, so they are too few as
well. -/
theorem few_of_short (hblamed : ∀ i ∈ names, faulty i = true)
    (hshort : (online.filter fun i => i.signerId ∉ names).length < cfg.t) :
    (online.filter fun i => !faulty i.signerId).length < cfg.t := by
  refine lt_of_le_of_lt (List.monotone_filter_right online fun i hi => ?_).length_le hshort
  have hfollows : faulty i.signerId = false := by simpa using hi
  exact decide_eq_true fun hmem => by
    rw [hblamed _ hmem] at hfollows
    cases hfollows

/-- An abandonment of which a faulty signer, or the lack of others, is the reason ends the
attempts. -/
theorem Trial.wp_charged (h : Trial faulty rid request d r names t s) {reason attribution : String}
    (hnames : names.Nodup) (hblamed : ∀ i ∈ names, faulty i = true)
    (hcharges : ∀ at_, Charges faulty online names
      ⟨.WALL_2_CONSORTIUM, reason, at_, attribution⟩) :
    wp (trialRules P member M faulty request rid) (Services.lens cfg)
      (abandon P rid .WALL_2_CONSORTIUM reason attribution)
      (fun _ => Tried P env faulty rid d online names)
      (fun _ => Tried P env faulty rid d online names) t s :=
  h.wp_abandon fun r' t s h _ hstatus hrejection => by
    obtain ⟨at_, hrejection⟩ := hrejection
    exact ⟨h.refusals, hnames, hblamed, .inr ⟨h.record ▸ hstatus, _, h.record ▸ hrejection,
      hcharges at_⟩⟩

/-- An attempt that made a token: it is kept in the record, whatever becomes of the receipt. -/
theorem Trial.wp_signed (h : Trial faulty rid request d r names t s)
    (hnames : names.Nodup) (hblamed : ∀ i ∈ names, faulty i = true) {token : Token}
    (hpayload : token.toTokenPayload = d.tokenPayload P)
    (hverified : Frost.verifySignature P.toCurve token.signature ((d.tokenPayload P).message P)
      env.GROUP.groupPublicKey = true) (signerSet : List cfg.SignerId) (note : String) :
    wp (trialRules P member M faulty request rid) (Services.lens cfg)
      (do
        Prog.modify fun u => Store.transition rid .SIGNED note (u.update rid fun r =>
          { r with token := some token, signerSet := some signerSet })
        settleReceipt P env rid publication token signerSet)
      (fun _ => Tried P env faulty rid d online names)
      (fun _ => Tried P env faulty rid d online names) t s := by
  have hend : ∀ t s, HasToken faulty rid request d token names t s →
      Tried P env faulty rid d online names t s := fun t s h => by
    obtain ⟨r, h, htoken⟩ := h
    exact ⟨h.refusals, hnames, hblamed, .inl ⟨token, h.record ▸ htoken, hpayload, hverified⟩⟩
  rw [wp_bind]
  refine h.wp_write (setsOnlyRecord_step rid .SIGNED _ _ s.store).toSetsRecord
    (by rw [h.record]; rfl) (by rw [h.record]; rfl) fun t s h => ?_
  exact wp_mono (keepsToken_settleReceipt t s ⟨_, h, rfl⟩) (fun _ => hend) fun _ => hend

/-- An attempt that was refused: the refuser is named, an alert is raised, and the loop goes on. -/
theorem Trial.wp_refused (h : Trial faulty rid request d r names t s) (i : cfg.SignerId)
    {reason : Option Json} {text : String} (htext : textOr P reason "No reason given" = .ok text)
    (detail : Option Json) {rest : CoordinatorProg cfg Unit}
    (hrest : ∀ t s, Trial faulty rid request d r (names ++ [i]) t s →
      wp (trialRules P member M faulty request rid) (Services.lens cfg) rest post exn t s) :
    wp (trialRules P member M faulty request rid) (Services.lens cfg)
      (do
        Prog.modify (Store.addGovernanceEntry "SIGNER_REFUSED" (cfg.idText i) (cfg.idText i) detail)
        let alert ← Prog.ofExcept (refusalAlert P r.request.requestId i reason)
        Prog.modify (Store.addAlert alert)
        rest)
      post exn t s := by
  obtain ⟨alert, halert⟩ : ∃ alert, refusalAlert P r.request.requestId i reason = .ok alert := by
    rw [refusalAlert, htext]
    exact ⟨_, rfl⟩
  rw [wp_bind]
  refine h.wp_named i _ fun t s h => ?_
  simp only [halert, wp_bind, wp_ofExcept_ok]
  exact h.wp_write (v := r) ⟨h.record, rfl, rfl⟩ rfl rfl hrest

/-- **The loop of ceremonies** with faulty signers: each turn makes a token, or names a faulty
member and goes on without it. Induction on the fuel. -/
theorem wp_ceremonyLoop_tried (hstaffed : Staffed P env key member M keys)
    (hconfirmed : ConfirmedBy P key request d) (hsession : request.requestId ≠ "")
    (hregistered : Registered online) {fuel : ℕ}
    (hfuel : (online.filter fun i => i.signerId ∉ names).length < fuel)
    (hnames : names.Nodup) (hblamed : ∀ i ∈ names, faulty i = true)
    (h : Trial faulty rid request d r names t s) :
    wp (trialRules P member M faulty request rid) (Services.lens cfg)
      (ceremonyLoop P env rid publication online (d.tokenPayload P) ((d.tokenPayload P).message P)
        fuel names)
      (fun _ t s => ∃ names, Tried P env faulty rid d online names t s)
      (fun _ t s => ∃ names, Tried P env faulty rid d online names t s) t s := by
  induction fuel generalizing names r t s with
  | zero => omega
  | succ fuel ih =>
      have hend : ∀ t s, Tried P env faulty rid d online names t s →
          ∃ names, Tried P env faulty rid d online names t s := fun t s h => ⟨names, h⟩
      rw [ceremonyLoop]
      dsimp only
      split
      next hshort =>
        exact wp_mono (h.wp_charged hnames hblamed fun at_ => .spare (few_of_short hblamed hshort))
          (fun _ => hend) fun _ => hend
      next hlong =>
        have hchosen : Registered ((online.filter fun i => i.signerId ∉ names).take cfg.t) :=
          (hregistered.sublist List.filter_sublist).sublist (List.take_sublist _ _)
        simp only [theRecord, wp_bind, wp_gets, Services.lens_view, h.record]
        refine wp_mono (wp_runCeremony_attributed
          (J := fun t s => Trial faulty rid request d r names t s)
          (K := fun t s => Trial faulty rid request d r names t s) hstaffed hchosen
          (List.length_take_of_le (not_lt.mp hlong)).ge h.record h.debit (h.request_eq ▸ hconfirmed)
          (h.request_eq ▸ hsession) (fun _ _ _ => trivial) (fun _ _ _ => trivial)
          (fun body a t s s' hK hr => ⟨hK.answered hr, h.request_eq ▸ hr.2⟩)
          (fun signer body a t s s' hJ hr => ⟨hJ.answered hr, h.request_eq ▸ hr.2⟩)
          (fun t s hJ i hi => hJ.willing i (hchosen.mem i hi))
          (fun i hi hfollows => (h.willing i (hchosen.mem i hi) hfollows).1) h)
          (fun outcome t s hend => ?_) fun e t s hfalse => hfalse.elim
        obtain ⟨h, hattributed⟩ := hend
        rcases hattributed with ⟨token, rfl, hpayload, hverified⟩ | ⟨i, hi, hfaulty, hblames⟩
        · exact wp_mono (h.wp_signed hnames hblamed hpayload hverified _ _) (fun _ => hend)
            fun _ => hend
        · cases hblames with
          | @error e hculprit =>
              have hcharged : ∀ t s, Trial faulty rid request d r names t s →
                  wp (trialRules P member M faulty request rid) (Services.lens cfg)
                    (abandon P rid .WALL_2_CONSORTIUM e.reason
                      ((e.badSigner.map cfg.idText).getD "consortium"))
                    (fun _ t s => ∃ names, Tried P env faulty rid d online names t s)
                    (fun _ t s => ∃ names, Tried P env faulty rid d online names t s) t s :=
                fun t s h => wp_mono (h.wp_charged hnames hblamed fun at_ =>
                  .fault hfaulty hculprit) (fun _ => hend) fun _ => hend
              simp only
              split
              · rw [wp_bind]
                exact h.wp_write (v := r) ⟨h.record, rfl, rfl⟩ rfl rfl hcharged
              · exact hcharged _ _ h
          | @refused reason text htext =>
              have hmem := List.mem_of_mem_take hi
              have hnew : i.signerId ∉ names := of_decide_eq_true (List.mem_filter.mp hmem).2
              have hnodup : (names ++ [i.signerId]).Nodup :=
                List.nodup_append.mpr ⟨hnames, List.nodup_singleton _, fun a ha b hb heq =>
                  hnew (List.mem_singleton.mp hb ▸ heq ▸ ha)⟩
              have hlt := length_filter_named hmem
              refine h.wp_refused i.signerId htext _ fun t s h => ?_
              rw [if_neg hnew]
              refine ih (by omega) hnodup (fun j hj => ?_) h
              rcases List.mem_append.mp hj with hj | hj
              · exact hblamed j hj
              · rw [List.mem_singleton.mp hj]
                exact hfaulty

end Loop

/-- With more signers available, the charges are the same. -/
theorem Tried.mono {online online' : List (SignerInfo cfg.SignerId)}
    (h : Tried P env faulty rid d online names t s)
    (hle : (online'.filter fun i => !faulty i.signerId).length ≤
      (online.filter fun i => !faulty i.signerId).length) :
    Tried P env faulty rid d online' names t s := by
  refine ⟨h.refusals, h.nodup, h.named, h.ended.imp id fun hrejected => ?_⟩
  obtain ⟨hstatus, rejection, hrejection, hcharges⟩ := hrejected
  refine ⟨hstatus, rejection, hrejection, ?_⟩
  cases hcharges with
  | fault hfaulty hculprit => exact .fault hfaulty hculprit
  | spare hfew => exact .spare (lt_of_le_of_lt hle hfew)
  | below hfew => exact .below (lt_of_le_of_lt hle hfew)

/-- A poll finds the signers that are not faulty. -/
theorem length_online_ge {available : List (SignerInfo cfg.SignerId)}
    {answers : cfg.SignerId → Option HttpResult}
    (h : ∀ i ∈ available, faulty i.signerId = false →
      signerIsOnline P (answers i.signerId) = true) :
    (available.filter fun i => !faulty i.signerId).length ≤
      ((sortByIdentifier (available.filter fun i => signerIsOnline P (answers i.signerId))).filter
        fun i => !faulty i.signerId).length := by
  have hperm := List.perm_insertionSort (fun a b : SignerInfo cfg.SignerId =>
    a.identifier ≤ b.identifier) (available.filter fun i => signerIsOnline P (answers i.signerId))
  rw [sortByIdentifier, (hperm.filter _).length_eq, List.filter_filter]
  refine le_of_eq (congrArg _ (List.filter_congr fun i hi => ?_))
  cases hfaulty : faulty i.signerId with
  | true => rfl
  | false =>
      rw [h i hi hfaulty]
      rfl

/-- Step 6 as a whole: it ends with a token, or only faulty signers are blamed. -/
theorem wp_ceremony_tried {publication : Publication}
    (hstaffed : Staffed P env key member M keys) (hconfirmed : ConfirmedBy P key request d)
    (hsession : request.requestId ≠ "") {available : List (SignerInfo cfg.SignerId)}
    (havailable : (cfg.SIGNERS.filter fun i => s.store.isMemberActive i.signerId) = available)
    (h : Trial faulty rid request d r [] t s) :
    wp (trialRules P member M faulty request rid) (Services.lens cfg)
    (ceremony P env rid publication)
      (fun _ t s => ∃ names, Tried P env faulty rid d available names t s)
      (fun _ t s => ∃ names, Tried P env faulty rid d available names t s) t s := by
  have hregistry : Registered available := by
    have hall : Registered cfg.SIGNERS := ⟨cfg.nodup_signerId.of_map _, fun _ h => h⟩
    exact havailable ▸ hall.sublist List.filter_sublist
  rw [ceremony, wp_bind, wp_modify]
  refine ⟨trivial, ?_⟩
  rw [wp_bind, pollOnlineActiveSigners]
  simp only [wp_bind, wp_gets, wp_call, wp_pure, Services.lens_view, Services.lens_put]
  have havailable' : (cfg.SIGNERS.filter fun i =>
      (s.store.setStage rid .WALL_2_CONSORTIUM).isMemberActive i.signerId) = available := havailable
  rw [havailable']
  refine ⟨trivial, fun answers s' hr => ?_⟩
  have h₁ : Trial faulty rid request d r [] (t ++ [.wrote s
      { s with store := s.store.setStage rid .WALL_2_CONSORTIUM }])
      { s with store := s.store.setStage rid .WALL_2_CONSORTIUM } :=
    ⟨h.record, h.request_eq, h.debit, h.willing, h.refusals.silent rfl⟩
  have h₂ := h₁.answered hr
  set online := sortByIdentifier (available.filter fun i => signerIsOnline P (answers i.signerId))
  have hle : (available.filter fun i => !faulty i.signerId).length ≤
      (online.filter fun i => !faulty i.signerId).length := length_online_ge (by
    rw [← havailable']
    exact hr.2)
  have honline : Registered online := by
    have hfound := hregistry.sublist (List.filter_sublist
      (p := fun i => signerIsOnline P (answers i.signerId)) (l := available))
    have hperm := List.perm_insertionSort (fun a b : SignerInfo cfg.SignerId =>
      a.identifier ≤ b.identifier) (available.filter fun i => signerIsOnline P (answers i.signerId))
    exact ⟨hperm.nodup_iff.mpr hfound.nodup, fun i hi => hfound.mem i (hperm.mem_iff.mp hi)⟩
  simp only [theRecord, wp_gets, Services.lens_view, h₂.record]
  split
  next hshort =>
    rw [wp_bind]
    refine h₂.wp_write (v := r) ⟨h₂.record, rfl, rfl⟩ rfl rfl fun t s h => ?_
    refine h.wp_abandon fun r' t s h _ hstatus hrejection => ?_
    obtain ⟨at_, hrejection⟩ := hrejection
    refine ⟨[], h.refusals, List.nodup_nil, fun _ hi => absurd hi List.not_mem_nil,
      .inr ⟨h.record ▸ hstatus, _, h.record ▸ hrejection, .below ?_⟩⟩
    exact lt_of_le_of_lt (hle.trans (List.length_filter_le _ _)) hshort
  next =>
    simp only [h₂.debit, d.buildTokenPayload_toJson, wp_bind, wp_ofExcept_ok]
    refine wp_mono (wp_ceremonyLoop_tried hstaffed hconfirmed hsession honline
      (Nat.lt_succ_of_le (List.length_filter_le _ _)) List.nodup_nil
      (fun _ hi => absurd hi List.not_mem_nil) h₂) (fun _ t s hend => ?_) fun _ t s hend => ?_
    all_goals
      obtain ⟨names, hend⟩ := hend
      exact ⟨names, hend.mono hle⟩

/-- **Faults are attributed.** Whatever readable answers the faulty signers give, while the others
are online, willing and at work, in every run of step 6 on a confirmed debit: only faulty signers
are named; and the record gets a token that the group has signed, or is rejected for the fault of a
faulty signer, or because there are too few others. -/
theorem faults_attributed (P : Platform) (env : CoordinatorEnv cfg) (key : BankKey)
    (member : cfg.SignerId → SignerEnv cfg) (M : ConsortiumManifest cfg) (keys : Frost.KeygenOutput)
    (faulty : cfg.SignerId → Bool) (rid : ℕ) (request : GenerationRequest) (d : DebitConfirmation)
    (publication : Publication) (s : Services cfg)
    (world : Env (Services cfg) (CoordinatorCall cfg) CoordinatorCall.Answer)
    (hstaffed : Staffed P env key member M keys) (hconfirmed : ConfirmedBy P key request d)
    (hsession : request.requestId ≠ "") (hrequest : (s.store.heap rid).request = request)
    (hdebit : (s.store.heap rid).debit = some d.toJson)
    (hwilling : ∀ i ∈ cfg.SIGNERS, faulty i.signerId = false →
      (s.member i.signerId).online = true ∧ (s.member i.signerId).refuse = false)
    (hworld : ((ceremony P env rid publication).on (Services.lens cfg)).Along world (fun q s a s' =>
      LeavesTrial faulty rid s s' ∧ Deviates P member M faulty request s s' q a) [] s) :
    let o := ((ceremony P env rid publication).on (Services.lens cfg)).run world [] s
    ∃ names, Tried P env faulty rid d
      (cfg.SIGNERS.filter fun i => s.store.isMemberActive i.signerId) names o.trace o.final := by
  intro o
  have hmeets := run_of_wp (W := trialRules P member M faulty request rid) hworld
    (wp_on.mpr (wp_ceremony_tried hstaffed hconfirmed hsession rfl
      ⟨rfl, hrequest, hdebit, hwilling, .nil⟩))
  cases hresult : o.result with
  | ok a => exact hmeets.returned a hresult
  | error e => exact hmeets.raised e hresult

end Trial

/-! ### A small fault -/

namespace Small

/-- The debit of the small request, as the small bank signs it. -/
def pledge : DebitConfirmation :=
  (vault.entryOf platform bankSecret ⟨"REQ-1", "MER-001", "MTR-1001", 10, 25, CURRENCY⟩
    [1, 2, 3, 4, 5, 6] true).debit

/-- The stage is set for the small ceremony. -/
def rehearsal : Services config :=
  { scene with store := opened.update 0 fun r => { r with debit := some pledge.toJson } }

/-- The first member is faulty, and no other. -/
def faulty : config.SignerId → Bool
  | SignerId.utility => true
  | _ => false

/-- The commitment of the faulty member. -/
def planted : HttpResult :=
  (Response.json (commitmentAnswer (holder SignerId.utility) Frost.smallRound1)).arrived platform

/-- Its partial, which is a scalar and not the right one. -/
def wrong : HttpResult :=
  (Response.json (partialAnswer (holder SignerId.utility) (Frost.scalarToHex curve 1))).arrived
    platform

/-- The services at work; the first member commits to points of its own and sends a wrong
partial. -/
def cheated : Env (Services config) (CoordinatorCall config) CoordinatorCall.Answer := fun t q s =>
  match q with
  | .round1 signers body => (fun i => if faulty i then some planted
      else (shop t (.round1 signers body) s).1 i,
      (shop t (.round1 signers body) s).2)
  | .round2 i body =>
      if faulty i.signerId then (some wrong, s) else shop t (.round2 i body) s
  | q => shop t q s

/-- What is checked of a resumption, by evaluation. -/
def bearable (q : CoordinatorCall config) (s s' : Services config) : Bool :=
  (config.SIGNERS.all fun i => faulty i.signerId ||
    ((s'.member i.signerId).online && !(s'.member i.signerId).refuse)) &&
  match q with
  | .reverse _ _ => true
  | .round2 i body => faulty i.signerId || fair (.round2 i body) s s'
  | q => fair q s s'

end Small

/-- Every resumption of the small run passes the check. -/
theorem small_bearable : ((ceremony Small.platform Small.coordinatorEnv 0 ⟨"", ""⟩).on
    (Services.lens config)).Along Small.cheated (fun q s _ s' => Small.bearable q s s' = true) []
      Small.rehearsal := by
  decide +kernel

/-- What the faulty member sends can be read. -/
theorem small_legible (i : SignerInfo config.SignerId) :
    LegibleCommitment Small.platform i (some Small.planted) ∧
      LegiblePartial Small.platform Small.wrong := by
  have hcommit : Frost.commit Small.platform.toCurve 1 2 = .ok Frost.smallRound1 := rfl
  have hsent : sentCommitment Small.platform i (some Small.planted) =
    .ok (.of (Frost.smallRound1.commitment i.identifier)) := sentCommitment_of hcommit
  have hbody : Small.wrong.body Small.platform = sent (partialAnswer (Small.holder SignerId.utility)
    (Frost.scalarToHex Small.curve 1)) := body_arrived _
  have hget : ∀ k, (Small.wrong.body Small.platform).get? k = (List.lookup k
      [signerField (Small.holder SignerId.utility), identifierField (Small.holder SignerId.utility),
        ("zi", some (.str (Frost.scalarToHex Small.curve 1)))]).join.map sent := fun k => by
    rw [hbody, partialAnswer, get?_sent_object (by simp [signerField, identifierField])]
  refine ⟨fun c hc => ?_, fun zi hzi => ?_, ⟨none, ?_⟩, ⟨"No reason given", ?_⟩⟩
  · rw [hsent] at hc
    cases hc
    exact ⟨_, rfl, ⟨_, (Frost.commit_ok hcommit).2.2.2.2.1⟩, _, (Frost.commit_ok hcommit).2.2.2.2.2⟩
  · rw [hget] at hzi
    cases hzi
    exact ⟨_, Frost.scalarFromHex_scalarToHex _ _⟩
  · rw [hget]
    rfl
  · rw [hget]
    rfl

/-- What is checked is enough for the rules of the trial. -/
theorem small_deviates (t : CoordinatorTrace (Services config) config) (q : CoordinatorCall config)
    (s : Services config) (h : Small.bearable q s (Small.cheated t q s).2 = true) :
    LeavesTrial Small.faulty 0 s (Small.cheated t q s).2 ∧
      Deviates Small.platform Small.holder Small.manifest Small.faulty Small.generationRequest s
        (Small.cheated t q s).2 q (Small.cheated t q s).1 := by
  have hstore : (Small.cheated t q s).2.store = s.store := by
    cases q <;> simp only [Small.cheated, Small.shop] <;> (repeat' split) <;> rfl
  simp only [Small.bearable, Bool.and_eq_true] at h
  obtain ⟨hflags, hcall⟩ := h
  have hwilling : ∀ i ∈ config.SIGNERS, Small.faulty i.signerId = false →
      ((Small.cheated t q s).2.member i.signerId).online = true ∧
        ((Small.cheated t q s).2.member i.signerId).refuse = false := fun i hi hfollows => by
    have := List.all_eq_true.mp hflags i hi
    simpa [hfollows] using this
  refine ⟨⟨by rw [hstore], hwilling⟩, ?_⟩
  cases q with
  | health signers =>
      intro i _ hfollows
      have hserviced := (small_serviced t (.health signers) s hcall).2.1 i ‹_›
      refine hserviced.trans ?_
      have hlisted : ∃ k, ⟨i.signerId, k⟩ ∈ config.SIGNERS := by
        cases i.signerId
        · exact ⟨1, List.mem_cons_self⟩
        · exact ⟨2, List.mem_cons_of_mem _ List.mem_cons_self⟩
        · exact ⟨3, List.mem_cons_of_mem _ (List.mem_cons_of_mem _ List.mem_cons_self)⟩
      obtain ⟨k, hk⟩ := hlisted
      exact (hwilling _ hk hfollows).1
  | round1 signers body =>
      have hcoop := (small_serviced t (.round1 signers body) s hcall).2.1
      intro i hi
      cases hfaulty : Small.faulty i.signerId with
      | true =>
          have hanswer : (Small.cheated t (.round1 signers body) s).1 i.signerId =
            some Small.planted := by
            simp only [Small.cheated, hfaulty, if_true]
          rw [if_pos rfl, hanswer]
          exact (small_legible i).1
      | false =>
          have hanswer : (Small.cheated t (.round1 signers body) s).1 i.signerId =
              (Small.shop t (.round1 signers body) s).1 i.signerId := by
            simp only [Small.cheated, hfaulty, Bool.false_eq_true, if_false]
          rw [if_neg Bool.false_ne_true, hanswer]
          exact hcoop i hi
  | round2 i body =>
      cases hfaulty : Small.faulty i.signerId with
      | true =>
          have hcheated : Small.cheated t (.round2 i body) s = (some Small.wrong, s) := by
            simp only [Small.cheated, hfaulty, if_true]
          rw [hcheated]
          refine ⟨?_, fun j _ _ => .refl _ _⟩
          rw [hfaulty, if_pos rfl]
          rintro r ⟨⟩
          exact (small_legible i).2
      | false =>
          have hcheated : Small.cheated t (.round2 i body) s = Small.shop t (.round2 i body) s := by
            simp only [Small.cheated, hfaulty, Bool.false_eq_true, if_false]
          change (Small.faulty i.signerId || Small.fair (.round2 i body) s
            (Small.cheated t (.round2 i body) s).2) = true at hcall
          rw [hfaulty, Bool.false_or, hcheated] at hcall
          obtain ⟨hcoop, hothers⟩ := (small_serviced t (.round2 i body) s hcall).2.1
          rw [hcheated]
          refine ⟨?_, fun j hj _ => hothers j hj⟩
          rw [hfaulty, if_neg Bool.false_ne_true]
          exact hcoop
  | _ => trivial

/-- The small run is one of the trial. -/
theorem small_trial : ((ceremony Small.platform Small.coordinatorEnv 0 ⟨"", ""⟩).on
    (Services.lens config)).Along Small.cheated (fun q s a s' => LeavesTrial Small.faulty 0 s s' ∧
      Deviates Small.platform Small.holder Small.manifest Small.faulty Small.generationRequest
        s s' q a) [] Small.rehearsal := by
  refine (small_bearable.and (Prog.along_of_forall
    (A := fun q s a s' => ∃ t, Small.cheated t q s = (a, s')) (fun t q s => ⟨t, rfl⟩)
    _ _ _)).mono ?_
  rintro q s a s' ⟨hbearable, t, heq⟩
  have hdeviates := small_deviates t q s
  rw [heq] at hdeviates
  exact hdeviates hbearable

/-- The small record has no token, since the wrong partial was found out. -/
theorem small_tokenless : ((((ceremony Small.platform Small.coordinatorEnv 0 ⟨"", ""⟩).on
    (Services.lens config)).run Small.cheated [] Small.rehearsal).final.store.heap 0).token =
    none := by
  decide +kernel

/-- **The wrong partial** of the first member is its own fault. -/
theorem faults_attributed_small : ∃ (o : Outcome (Services config) String (CoordinatorCall config)
      CoordinatorCall.Answer Unit) (names : List config.SignerId) (rejection : Rejection),
    Refusals o.trace names ∧ (o.final.store.heap 0).rejection = some rejection ∧
      Charges Small.faulty
        (config.SIGNERS.filter fun i => Small.rehearsal.store.isMemberActive i.signerId)
        names rejection := by
  have hwilling : ∀ i ∈ config.SIGNERS, Small.faulty i.signerId = false →
      (Small.rehearsal.member i.signerId).online = true ∧
        (Small.rehearsal.member i.signerId).refuse = false := by decide
  obtain ⟨names, htried⟩ := faults_attributed Small.platform Small.coordinatorEnv Small.bankSecret
    Small.holder Small.manifest Frost.smallKeys Small.faulty 0 Small.generationRequest
    Small.pledge ⟨"", ""⟩ Small.rehearsal Small.cheated small_provisioned.toStaffed
    ⟨rfl, by decide, rfl, rfl, rfl, by decide +kernel, rfl⟩ (by decide) rfl rfl hwilling small_trial
  rcases htried.ended with ⟨token, htoken, -⟩ | ⟨-, rejection, hrejection, hcharges⟩
  · rw [small_tokenless] at htoken
    cases htoken
  · exact ⟨_, names, rejection, htried.refusals, hrejection, hcharges⟩

end NoGhost
