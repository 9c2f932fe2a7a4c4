import NoGhost.Coordinator.Honest
import NoGhost.Coordinator.Walk
import NoGhost.Signer.Following

/-!
# Ceremonies with Members that Follow the Code

Two rounds of signing between the coordinator and members that follow the code, some of which may
refuse. The debit is one that the bank has confirmed; each member reads a quorum off the ledger, and
its other handlers leave the session of the request alone. Such an attempt ends in one of two ways
only: with a token, or with the refusal of the first member that refuses.

## Main results

* `accepted_confirmedBody`: a member accepts the body of round 2 for a confirmed debit.
* `honest_partials`: the partials of such members are accepted.
* `wp_runCeremony_following`: how an attempt ends.
-/

open Js Async

namespace NoGhost

variable {cfg : Config} {P : Platform} {env : CoordinatorEnv cfg} {key : BankKey}

/-- An array arrives element by element. -/
theorem sent_arr (xs : List Json) : sent (.arr xs) = .arr (xs.map sent) := by
  have hall : buildElems (wireElems xs) = xs.map sent := by
    induction xs with
    | nil => rfl
    | cons x xs ih => rw [wireElems, buildElems, ih, List.map_cons, sent]
  rw [sent, wire, build, hall]

/-! ### The token of a confirmation -/

/-- The token payload of a confirmation. -/
def DebitConfirmation.tokenPayload (P : Platform) (d : DebitConfirmation) : TokenPayload where
  meterId := some (.str d.meterId)
  amountKwh := some (.num (.fin d.amountKwh))
  debitRef := some (.str d.debitRef)
  nonce := .ofList ((chars (sha256HexStr P ("twowalls/token-nonce/v1/" ++ d.debitRef))).take 32)

namespace DebitConfirmation

variable (d : DebitConfirmation)

/-- The token payload that is built from a confirmation. -/
theorem buildTokenPayload_toJson :
    buildTokenPayload P (some d.toJson) = .ok (d.tokenPayload P) := by
  have hprop : ∀ k, prop (some d.toJson) k = .ok ((sent d.toJson).get? k) := fun k => by
    rw [d.sent_toJson]
    rfl
  simp only [buildTokenPayload, hprop, d.get?_meterId, d.get?_amountKwh, d.get?_debitRef, bind,
    Except.bind]
  rfl

/-- The token payload arrives as it was made. -/
theorem sent_tokenPayload : sent (d.tokenPayload P).toJson = (d.tokenPayload P).toJson := by
  refine sent_flat (by simp [tokenPayload]) ?_ ?_
  · simp only [tokenPayload, List.filterMap_cons, Option.map_some, List.filterMap_nil,
      List.forall_mem_cons]
    exact ⟨by decide, by decide, by decide, by decide, fun _ h => absurd h List.not_mem_nil⟩
  · simp [tokenPayload, Json.Solid.str, Json.Solid.num]

end DebitConfirmation

/-! ### The body of round 2 -/

/-- A commitment as an honest signer sends it. -/
def SentCommitment.of (c : Frost.Commitment) : SentCommitment :=
  ⟨c.identifier, .str c.hidingHex, .str c.bindingHex⟩

/-- A commitment arrives as it was sent. -/
theorem SentCommitment.sent_of (c : Frost.Commitment) :
    sent (SentCommitment.of c).toJson = (SentCommitment.of c).toJson := by
  refine sent_flat (by simp [SentCommitment.of]) ?_ ?_
  · simp only [SentCommitment.of, List.filterMap_cons, Option.map_some, List.filterMap_nil,
      List.forall_mem_cons]
    exact ⟨by decide, by decide, by decide, fun _ h => absurd h List.not_mem_nil⟩
  · simp [SentCommitment.of, Json.Solid.str, Json.Solid.num]

/-- A commitment is read back from what was sent of it. -/
theorem commitmentOf_of (c : Frost.Commitment) :
    commitmentOf (SentCommitment.of c).toJson = some c := by
  have hget : (SentCommitment.of c).toJson.get? "identifier" = some (.num (.fin c.identifier)) ∧
      (SentCommitment.of c).toJson.get? "hiding" = some (.str c.hidingHex) ∧
      (SentCommitment.of c).toJson.get? "binding" = some (.str c.bindingHex) := by
    refine ⟨?_, ?_, ?_⟩ <;> simp [SentCommitment.toJson, SentCommitment.of, object,
      Json.get?, List.lookup_cons]
  obtain ⟨hid, hhiding, hbinding⟩ := hget
  simp only [commitmentOf, hid, hhiding, hbinding, Rat.den_intCast, Rat.num_intCast, if_true]

/-- A list of commitments is read back, one by one. -/
theorem mapM_commitmentOf (cs : List Frost.Commitment) :
    (cs.map fun c => (SentCommitment.of c).toJson).mapM commitmentOf = some cs := by
  induction cs with
  | nil => rfl
  | cons c cs ih =>
      rw [List.map_cons, List.mapM_cons, commitmentOf_of, ih]
      rfl

/-- A commitment is decoded when its points are. -/
theorem mapM_decode_of {cs : List Frost.Commitment}
    (h : ∀ c ∈ cs, (∃ b, hexToBytes c.hidingHex = .ok b) ∧ ∃ b, hexToBytes c.bindingHex = .ok b) :
    (cs.map SentCommitment.of).mapM (·.decode) = .ok cs := by
  induction cs with
  | nil => rfl
  | cons c cs ih =>
      obtain ⟨⟨b, hb⟩, b', hb'⟩ := h c List.mem_cons_self
      rw [List.map_cons, List.mapM_cons, ih fun c' hc' => h c' (List.mem_cons_of_mem _ hc')]
      simp only [SentCommitment.decode, SentCommitment.of, pointText, hexToBytesOf, hb, hb', bind,
        Except.bind, Json.asString, Option.getD_some]
      rfl

section Body

variable {record : PipelineRecord cfg} {d : DebitConfirmation} {cs : List Frost.Commitment}

/-- The body of round 2 for a confirmed debit. -/
def confirmedBody (P : Platform) (record : PipelineRecord cfg) (d : DebitConfirmation)
    (cs : List Frost.Commitment) : Json :=
  sent (round2Req record (d.tokenPayload P) (bytesToHex ((d.tokenPayload P).message P))
    (cs.map SentCommitment.of))

variable (P cs) in
/-- The fields of the body as they arrive. -/
theorem get?_confirmedBody (hdebit : record.debit = some d.toJson) :
    (confirmedBody P record d cs).get? "sessionId" = some (.str record.request.requestId) ∧
      (confirmedBody P record d cs).get? "messageHex" =
        some (.str (bytesToHex ((d.tokenPayload P).message P))) ∧
      (confirmedBody P record d cs).get? "tokenPayload" = some (d.tokenPayload P).toJson ∧
      (confirmedBody P record d cs).get? "request" = some record.request.toJson ∧
      (confirmedBody P record d cs).get? "debit" = some d.toJson ∧
      (confirmedBody P record d cs).get? "commitments" =
        some (.arr (cs.map fun c => (SentCommitment.of c).toJson)) := by
  have hget : ∀ k, (confirmedBody P record d cs).get? k = (List.lookup k
      [("sessionId", some (.str record.request.requestId)),
        ("messageHex", some (.str (bytesToHex ((d.tokenPayload P).message P)))),
        ("tokenPayload", some (d.tokenPayload P).toJson), ("request", some record.request.toJson),
        ("debit", record.debit),
        ("commitments", some (.arr ((cs.map SentCommitment.of).map (·.toJson))))]).join.map sent :=
    fun k => by
      rw [confirmedBody, round2Req, get?_sent_object]
      show ["sessionId", "messageHex", "tokenPayload", "request", "debit", "commitments"].Nodup
      decide
  have hcs : sent (.arr ((cs.map SentCommitment.of).map (·.toJson))) =
      .arr (cs.map fun c => (SentCommitment.of c).toJson) := by
    rw [sent_arr, List.map_map, List.map_map]
    exact congrArg _ (List.map_congr_left fun c _ => SentCommitment.sent_of c)
  refine ⟨hget _, hget _, (hget _).trans ?_, (hget _).trans ?_, (hget _).trans ?_,
    (hget _).trans ?_⟩
  · exact congrArg some d.sent_tokenPayload
  · exact congrArg some (sent_request record.request)
  · rw [hdebit]
    exact congrArg some d.sent_toJson
  · exact congrArg some hcs

/-- A signer parses the body that the coordinator sends. -/
theorem round2Body_confirmedBody (hdebit : record.debit = some d.toJson) :
    round2Body (confirmedBody P record d cs) = some ⟨confirmedBody P record d cs,
      bytesToHex ((d.tokenPayload P).message P), cs.map fun c => (SentCommitment.of c).toJson⟩ := by
  obtain ⟨-, hhex, htoken, hrequest, hdebit', hcs⟩ := get?_confirmedBody P cs hdebit
  simp only [round2Body, hhex, hcs, htoken, hrequest, hdebit', Option.any_some]
  rfl

/-- A value with a property can be read. -/
theorem prop_of_get? {v w : Json} {k : String} (h : v.get? k = some w) (k' : String) :
    prop (some v) k' = .ok (v.get? k') := by
  cases v with
  | null => cases h
  | _ => rfl

/-- Checks 3 to 6 pass when the debit passes, and when the token is the one that it authorises. -/
theorem accepted_of_fields {body request debit : Json} {p : TokenPayload} {key : String}
    (hrequest : body.get? "request" = some request) (hdebit : body.get? "debit" = some debit)
    (htoken : body.get? "tokenPayload" = some p.toJson)
    (hhex : body.get? "messageHex" = some (.str (bytesToHex (p.message P))))
    (hvalid : validateDebitForRequest P (some request) (some debit) key = .ok none)
    (hbuild : buildTokenPayload P (some debit) = .ok p)
    (hmeter : strictEq (p.toJson.get? "meterId") p.meterId = true)
    (hkwh : strictEq (p.toJson.get? "amountKwh") p.amountKwh = true)
    (href : strictEq (p.toJson.get? "debitRef") p.debitRef = true)
    (hnonce : p.toJson.get? "nonce" = some (.str p.nonce)) :
    runWall1TokenChecks P (some body) key = .ok none := by
  have hprop := prop_of_get? hhex
  have hprop' := prop_of_get? hnonce
  have hstr : ∀ x, strictEq (some (.str x)) (some (.str x)) = true := fun x => strictEq_str.mpr rfl
  have hmessage : canonicalBytes P (some p.toJson) = p.message P := rfl
  simp only [runWall1TokenChecks, hprop, hrequest, hdebit, htoken, hhex, bind, Except.bind, hvalid,
    hbuild, hprop', hmeter, hkwh, href, hnonce, hstr, hmessage, Bool.not_true, Bool.or_false,
    Bool.false_eq_true, if_false, pure, Except.pure]

/-- **Wall 1 of a signer** accepts the body that the coordinator sends for a debit that the bank has
confirmed. -/
theorem accepted_confirmedBody (hdebit : record.debit = some d.toJson)
    (hconfirmed : ConfirmedBy P key record.request d) :
    runWall1TokenChecks P (some (confirmedBody P record d cs)) (key.publicKey P) = .ok none := by
  obtain ⟨-, hhex, htoken, hrequest, hdebit', -⟩ := get?_confirmedBody P cs hdebit
  have hfields : (d.tokenPayload P).toJson.get? "meterId" = some (.str d.meterId) ∧
      (d.tokenPayload P).toJson.get? "amountKwh" = some (.num (.fin d.amountKwh)) ∧
      (d.tokenPayload P).toJson.get? "debitRef" = some (.str d.debitRef) ∧
      (d.tokenPayload P).toJson.get? "nonce" = some (.str (d.tokenPayload P).nonce) := by
    refine ⟨?_, ?_, ?_, ?_⟩ <;>
      simp [TokenPayload.toJson, DebitConfirmation.tokenPayload, object,
        Json.get?, List.lookup_cons]
  obtain ⟨hmeter, hkwh, href, hnonce⟩ := hfields
  refine accepted_of_fields hrequest hdebit' htoken hhex hconfirmed.validated
    d.buildTokenPayload_toJson
    ?_ ?_ ?_ hnonce
  · exact hmeter ▸ strictEq_str.mpr rfl
  · exact hkwh ▸ strictEq_fin.mpr rfl
  · exact href ▸ strictEq_str.mpr rfl

end Body

/-! ### Coordinator and members -/

/-- The store of the coordinator, the members and the bank: the state of a whole system of services.
-/
structure Services (cfg : Config) where
  store : Store cfg
  member : cfg.SignerId → SignerState
  bank : BankState

/-- The part of the coordinator among the services. -/
@[simps view put] def Services.lens (cfg : Config) : Lens (Services cfg) (Store cfg) where
  view s := s.store
  put s u := { s with store := u }
  view_put _ _ := rfl
  put_view _ := rfl
  put_put _ _ _ := rfl

/-- A consortium as it is provisioned: the shares and the group file are the dealer's, the bank's
key is pinned, and every member has the same manifest. -/
structure Staffed (P : Platform) (env : CoordinatorEnv cfg) (key : BankKey)
    (member : cfg.SignerId → SignerEnv cfg) (M : ConsortiumManifest cfg)
    (keys : Frost.KeygenOutput) : Prop where
  dealt : ∃ n draws, n < P.toCurve.L ∧
    Frost.trustedDealerKeygen P.toCurve cfg.t n draws = some (.ok keys)
  group : env.GROUP.DealtBy keys
  share : ∀ i ∈ cfg.SIGNERS, (member i.signerId).info = i ∧ ∃ k ∈ keys.shares,
    k.identifier = i.identifier ∧
      (member i.signerId).share = some ⟨k.secretShare, keys.groupPublicKey⟩
  pinned : ∀ i ∈ cfg.SIGNERS,
    truthyText (member i.signerId).pinnedBankPublicKey = some (key.publicKey P)
  manifest : ∀ i ∈ cfg.SIGNERS, (member i.signerId).manifest = .ok M

/-- The session of a request has not expired. -/
def Unexpired (sessionId : String) (m : SignerState) : Prop :=
  ∀ session, m.sessions.get sessionId = some session → m.clock - SESSION_TTL_MS ≤ session.createdAt

/-- The members follow the code in both rounds, and leave the sessions of the request alone
otherwise. -/
def Cooperates (P : Platform) (member : cfg.SignerId → SignerEnv cfg) (M : ConsortiumManifest cfg)
    (request : GenerationRequest) (s s' : Services cfg) : (q : CoordinatorCall cfg) →
    q.Answer → Prop
  | .round1 signers body, answers => ∀ i ∈ signers, ∃ m draws r m',
      LeavesAlone request.requestId (s.member i.signerId) m ∧
      (round1 P (member i.signerId) (some (sent body)) draws).settle m = (.ret r, m') ∧
      answers i.signerId = some (r.arrived P) ∧
      LeavesAlone request.requestId m' (s'.member i.signerId)
  | .round2 i body, answer => (∃ m r, LeavesAlone request.requestId (s.member i.signerId) m ∧
      Unexpired request.requestId m ∧
      Serves (ShowsQuorum P M (hashValue P (some request.toJson)))
        (round2 P (member i.signerId) (some (sent body))) m r ∧ answer = some (r.arrived P)) ∧
      ∀ j ≠ i.signerId, LeavesAlone request.requestId (s.member j) (s'.member j)
  | _, _ => True

/-! ### Honest commitments -/

section Commitments

variable {member : cfg.SignerId → SignerEnv cfg} {M : ConsortiumManifest cfg}
  {keys : Frost.KeygenOutput} {chosen : List (SignerInfo cfg.SignerId)}
  {out : ℤ → Frost.Round1Output}

/-- Registered signers have distinct identifiers. -/
theorem Registered.nodup_identifier (h : Registered chosen) : (chosen.map (·.identifier)).Nodup :=
  h.nodup.map_on fun i hi j hj heq =>
    List.inj_on_of_nodup_map cfg.nodup_identifier (h.mem i hi) (h.mem j hj) heq

/-- Registered signers have distinct names. -/
theorem Registered.nodup_signerId (h : Registered chosen) : (chosen.map (·.signerId)).Nodup :=
  h.nodup.map_on fun i hi j hj heq =>
    List.inj_on_of_nodup_map cfg.nodup_signerId (h.mem i hi) (h.mem j hj) heq

/-- What there is for every signer can be given by identifier. -/
theorem Registered.byIdentifier {α : Type} (h : Registered chosen) (default : α)
    {A : SignerInfo cfg.SignerId → α → Prop} (hA : ∀ i ∈ chosen, ∃ a, A i a) :
    ∃ f : ℤ → α, ∀ i ∈ chosen, A i (f i.identifier) := by
  have hbyId : ∀ x : ℤ, ∃ a : α, ∀ i ∈ chosen, i.identifier = x → A i a := fun x => by
    by_cases hx : x ∈ chosen.map (·.identifier)
    · obtain ⟨i, hi, rfl⟩ := List.mem_map.mp hx
      obtain ⟨a, ha⟩ := hA i hi
      refine ⟨a, fun j hj hij => ?_⟩
      obtain rfl : j = i := List.inj_on_of_nodup_map h.nodup_identifier hj hi hij
      exact ha
    · exact ⟨default, fun i hi heq => absurd (heq ▸ List.mem_map_of_mem hi) hx⟩
  choose f hf using hbyId
  exact ⟨f, fun i hi => hf i.identifier i hi rfl⟩

/-- The commitments of the signers of an attempt. -/
def commitmentsOf (out : ℤ → Frost.Round1Output) (chosen : List (SignerInfo cfg.SignerId)) :
    List Frost.Commitment :=
  chosen.map fun i => (out i.identifier).commitment i.identifier

/-- The text of a point is not empty, and is decoded. -/
theorem pointToHex_text (p : P.toCurve.Pt) :
    (∃ b, hexToBytes (Frost.pointToHex P.toCurve p) = .ok b) ∧
      Frost.pointToHex P.toCurve p ≠ "" := by
  refine ⟨⟨_, hexToBytes_bytesToHex _⟩, fun h => ?_⟩
  have hnil : P.toCurve.toRawBytes p = [] := bytesToHex_injective h
  have hlen := P.toCurve.length_toRawBytes p
  rw [hnil] at hlen
  cases hlen

/-- What is committed to is sent as two texts. -/
theorem commit_texts {d e : ℤ} {o : Frost.Round1Output} (h : Frost.commit P.toCurve d e = .ok o) :
    ∃ p q, o.hidingHex = Frost.pointToHex P.toCurve p ∧
      o.bindingHex = Frost.pointToHex P.toCurve q := by
  obtain ⟨p, -, h⟩ := bind_eq_ok.mp h
  obtain ⟨q, -, h⟩ := bind_eq_ok.mp h
  cases h
  exact ⟨p, q, rfl, rfl⟩

/-- What the coordinator makes of the commitment of a signer. -/
theorem sentCommitment_of {i : SignerInfo cfg.SignerId} {signer : SignerEnv cfg} {d e : ℤ}
    {o : Frost.Round1Output} (h : Frost.commit P.toCurve d e = .ok o) :
    sentCommitment P i (some ((Response.json (commitmentAnswer signer o)).arrived P)) =
      .ok (SentCommitment.of (o.commitment i.identifier)) := by
  obtain ⟨p, q, hp, hq⟩ := commit_texts h
  have hbody : (sent (commitmentAnswer signer o)).get? "commitment" = some (sent (object
      [("hiding", some (.str o.hidingHex)), ("binding", some (.str o.bindingHex))])) := by
    rw [commitmentAnswer, get?_sent_object (by simp [signerField, identifierField])]
    rfl
  have hhiding : prop? (some (sent (object
      [("hiding", some (.str o.hidingHex)), ("binding", some (.str o.bindingHex))]))) "hiding" =
      some (.str o.hidingHex) := get?_sent_object (by simp) "hiding"
  have hbinding : prop? (some (sent (object
      [("hiding", some (.str o.hidingHex)), ("binding", some (.str o.bindingHex))]))) "binding" =
      some (.str o.bindingHex) := get?_sent_object (by simp) "binding"
  have htruthy : ∀ x : String, x ≠ "" → (some (Json.str x)).filter Json.truthy = some (.str x) :=
    fun x hx => by simp [Option.filter, Json.truthy, hx]
  have hbody' : ((Response.json (commitmentAnswer signer o)).arrived P).body P =
    sent (commitmentAnswer signer o) := body_arrived _
  simp only [sentCommitment, hbody', hbody, hhiding, hbinding,
    htruthy _ (hp ▸ (pointToHex_text p).2), htruthy _ (hq ▸ (pointToHex_text q).2)]
  rfl

/-- The commitments of honest signers. -/
theorem mapM_sentCommitment_of {answers : cfg.SignerId → Option HttpResult}
    {member : cfg.SignerId → SignerEnv cfg}
    (h : ∀ i ∈ chosen, ∃ d e, Frost.commit P.toCurve d e = .ok (out i.identifier) ∧
      answers i.signerId = some
        ((Response.json (commitmentAnswer (member i.signerId) (out i.identifier))).arrived P)) :
    chosen.mapM (fun i => sentCommitment P i (answers i.signerId)) =
      .ok ((commitmentsOf out chosen).map SentCommitment.of) := by
  induction chosen with
  | nil => rfl
  | cons i chosen ih =>
      obtain ⟨d, e, hcommit, hanswer⟩ := h i List.mem_cons_self
      rw [List.mapM_cons, hanswer, sentCommitment_of hcommit,
        ih fun j hj => h j (List.mem_cons_of_mem _ hj)]
      rfl

/-- A point that is read is a text that is decoded. -/
theorem mapM_decode_of_decodes {cs : List Frost.Commitment} (h : Frost.Decodes P.toCurve cs) :
    (cs.map SentCommitment.of).mapM (·.decode) = .ok cs := by
  refine mapM_decode_of fun c hc => ?_
  obtain ⟨p, hp⟩ := h.hidingPt c hc
  obtain ⟨q, hq⟩ := h.bindingPt c hc
  obtain ⟨b, hb, -⟩ := Frost.hexToBytes_of_pointFromHex P.toCurve hp
  obtain ⟨b', hb', -⟩ := Frost.hexToBytes_of_pointFromHex P.toCurve hq
  exact ⟨⟨b, hb⟩, b', hb'⟩

variable (P env member out) in
/-- The partial of a signer over a commitment list, as a text. The signer answers with it when its
own commitment is in the list; it is accepted, and any other scalar is accepted or not. -/
structure SignsOver (cs : List Frost.Commitment) (message : Bytes) (i : SignerInfo cfg.SignerId)
    (zi : String) : Prop where
  signs : (∃ d e, Frost.commit P.toCurve d e = .ok (out i.identifier)) →
    (out i.identifier).commitment i.identifier ∈ cs →
    ∃ share, (member i.signerId).share = some share ∧ ∀ (session : Session) (json : Json),
      session.nonces = (out i.identifier).nonces →
      signPartial P (member i.signerId) share session.nonces ⟨json, bytesToHex message,
        cs.map fun c => (SentCommitment.of c).toJson⟩ = .ok zi
  verified : verifyShare P env ⟨i.identifier, zi⟩ (cs.map SentCommitment.of) message = .ok true
  verdict : ∀ text z, Frost.scalarFromHex P.toCurve text = .ok z →
    ∃ b, verifyShare P env ⟨i.identifier, text⟩ (cs.map SentCommitment.of) message = .ok b

variable (out) in
/-- **Partials over commitments that decode**, whoever chose them: there are scalars that the
members sign over such commitments, message by message. -/
theorem dealt_partials (hstaffed : Staffed P env key member M keys) (hchosen : Registered chosen)
    {cs : List Frost.Commitment} (hids : cs.map (·.identifier) = chosen.map (·.identifier))
    (hdec : Frost.Decodes P.toCurve cs) (message : Bytes) :
    ∃ zi : ℤ → String, ∀ i ∈ chosen, SignsOver P env member out cs message i (zi i.identifier) := by
  obtain ⟨⟨n, draws, hn, hdealt⟩, hgroup, hshare, -, -⟩ := hstaffed
  obtain ⟨D⟩ := Frost.exists_dealing P.toCurve hdealt
  have hdecode := mapM_decode_of_decodes hdec
  have hdealtTo : Frost.DealtTo keys cs := fun c hc => by
    obtain ⟨i, hi, hid⟩ := List.mem_map.mp (hids ▸ List.mem_map_of_mem hc : c.identifier ∈ _)
    obtain ⟨-, k, hk, hkid, -⟩ := hshare i (hchosen.mem i hi)
    exact ⟨k, hk, hkid.trans hid⟩
  refine hchosen.byIdentifier "" fun i hi => ?_
  obtain ⟨hinfo, k, hk, hid, hheld⟩ := hshare i (hchosen.mem i hi)
  obtain ⟨own, hown, hownid⟩ :=
    List.mem_map.mp (hids.symm ▸ List.mem_map_of_mem hi : i.identifier ∈ cs.map (·.identifier))
  have hkown : k.identifier = own.identifier := hid.trans hownid.symm
  obtain ⟨r, h0, hL, haccepts, hsigns⟩ := Frost.exists_partial D hn hdec hdealtTo
    message hown hk hkown
  obtain ⟨T, -⟩ := Frost.exists_transcript P.toCurve hdec D.groupKey_bytes message
  have hverify : ∀ text, verifyShare P env ⟨i.identifier, text⟩ (cs.map SentCommitment.of) message =
      Frost.verifySignatureShare P.toCurve ⟨own.identifier, text⟩ k.verificationShare cs
        keys.groupPublicKey message := fun text => by
    simp only [verifyShare, hdecode, bind, Except.bind, hgroup.groupPublicKey]
    rw [← hid, hgroup.verificationShares k hk, hkown]
  refine ⟨Frost.scalarToHex P.toCurve r,
    fun hcommit hentry => ⟨_, hheld, fun session json hsession => ?_⟩, ?_, fun text z hz => ?_⟩
  · obtain ⟨d, e, hcommit⟩ := hcommit
    have heq : own = (out i.identifier).commitment k.identifier := by
      rw [hid]
      exact List.inj_on_of_nodup_map hdec.nodup hown hentry (hownid)
    have hparams : k.round2Params (out i.identifier).nonces message cs keys.groupPublicKey =
        ⟨i.identifier, k.secretShare, (out i.identifier).nonces, message, cs,
          keys.groupPublicKey⟩ := by
      rw [← hid]
      rfl
    simp only [signPartial, hexToBytes_bytesToHex, mapM_commitmentOf, bind,
      Except.bind, hsession, hinfo]
    rw [← hparams]
    exact hsigns d e _ hcommit heq
  · rw [hverify, haccepts, Frost.scalarFromHex_scalarToHex, Frost.mod_of_lt P.toCurve h0 hL]
  · rw [hverify]
    exact Frost.exists_verdict P.toCurve hdec (D.distinct hn hdec hdealtTo) T hown
      (D.verificationShare hk) hz

/-- **Honest partials.** Signers of distinct identifiers that hold dealt shares answer round 2, and
their answers are accepted. -/
theorem honest_partials (hstaffed : Staffed P env key member M keys) (hchosen : Registered chosen)
    (hout : ∀ i ∈ chosen, ∃ d e, Frost.commit P.toCurve d e = .ok (out i.identifier))
    (message : Bytes) :
    ∃ zi : ℤ → String, ∀ i ∈ chosen,
      (∃ share, (member i.signerId).share = some share ∧ ∀ (session : Session) (json : Json),
        session.nonces = (out i.identifier).nonces →
        signPartial P (member i.signerId) share session.nonces ⟨json, bytesToHex message,
          (commitmentsOf out chosen).map fun c => (SentCommitment.of c).toJson⟩ =
            .ok (zi i.identifier)) ∧
      verifyShare P env ⟨i.identifier, zi i.identifier⟩
        ((commitmentsOf out chosen).map SentCommitment.of) message = .ok true := by
  have hids : (commitmentsOf out chosen).map (·.identifier) = chosen.map (·.identifier) :=
    List.map_map
  have hdec : Frost.Decodes P.toCurve (commitmentsOf out chosen) := by
    refine ⟨hids ▸ hchosen.nodup_identifier, fun c hc => ?_, fun c hc => ?_⟩ <;>
      obtain ⟨i, hi, rfl⟩ := List.mem_map.mp hc <;> obtain ⟨d, e, hcommit⟩ := hout i hi
    · exact ⟨_, (Frost.commit_ok hcommit).2.2.2.2.1⟩
    · exact ⟨_, (Frost.commit_ok hcommit).2.2.2.2.2⟩
  obtain ⟨zi, hzi⟩ := dealt_partials out hstaffed hchosen hids hdec message
  refine ⟨zi, fun i hi => ?_⟩
  exact ⟨(hzi i hi).signs (hout i hi) (List.mem_map_of_mem hi), (hzi i hi).verified⟩

end Commitments

/-! ### An attempt -/

section Attempt

variable {member : cfg.SignerId → SignerEnv cfg} {M : ConsortiumManifest cfg}
  {keys : Frost.KeygenOutput} {chosen signers : List (SignerInfo cfg.SignerId)}
  {out : ℤ → Frost.Round1Output} {record : PipelineRecord cfg} {d : DebitConfirmation}
  {refuses : cfg.SignerId → Bool} {zi : ℤ → String} {message : Bytes} {rid : ℕ}
  {request : GenerationRequest} {t : CoordinatorTrace (Services cfg) cfg} {s : Services cfg}

/-- What a member answers to the body of round 2, with its session. -/
def AnswersBody (P : Platform) (member : cfg.SignerId → SignerEnv cfg) (M : ConsortiumManifest cfg)
    (request : GenerationRequest) (out : ℤ → Frost.Round1Output) (zi : ℤ → String) (body : Json)
    (i : SignerInfo cfg.SignerId) : Prop :=
  ∀ (m : SignerState) (session : Session) (r : Response), m.online = true → m.refuse = false →
    m.sessions.get request.requestId = some session → session.nonces = (out i.identifier).nonces →
    Unexpired request.requestId m →
    Serves (ShowsQuorum P M (hashValue P (some request.toJson)))
      (round2 P (member i.signerId) (some (sent body))) m r →
    r = .json (partialAnswer (member i.signerId) (zi i.identifier))

/-- **A member of a staffed consortium** answers the body of a confirmed debit with its partial,
once the ledger shows enough approvals. -/
theorem answersBody (hstaffed : Staffed P env key member M keys) {cs : List Frost.Commitment}
    (hdebit : record.debit = some d.toJson) (hconfirmed : ConfirmedBy P key record.request d)
    {i : SignerInfo cfg.SignerId} (hi : i ∈ cfg.SIGNERS)
    (hzi : ∃ share, (member i.signerId).share = some share ∧
      ∀ (session : Session) (json : Json), session.nonces = (out i.identifier).nonces →
        signPartial P (member i.signerId) share session.nonces
          ⟨json, bytesToHex ((d.tokenPayload P).message P),
            cs.map fun c => (SentCommitment.of c).toJson⟩ = .ok (zi i.identifier)) :
    AnswersBody P member M record.request out zi (round2Req record (d.tokenPayload P)
      (bytesToHex ((d.tokenPayload P).message P)) (cs.map SentCommitment.of)) i := by
  intro m session r honline hrefuse hget hnonces hfresh hserves
  obtain ⟨share, hshare, hsigns⟩ := hzi
  obtain ⟨hid, -, -, hrequest, -, -⟩ := get?_confirmedBody P cs hdebit
  have hsession : sessionIdOf (some (confirmedBody P record d cs)) =
    some record.request.requestId := by
    rw [sessionIdOf, prop?_some, hid]
    rfl
  refine partial_of_round2 honline hrefuse hshare (hstaffed.pinned i hi) (hstaffed.manifest i hi)
    hsession hget (hfresh session hget) (round2Body_confirmedBody hdebit)
    (accepted_confirmedBody hdebit hconfirmed) (hsigns session _ hnonces) ?_
  simp only [hrequest]
  exact hserves

/-- A partial that verifies is kept in the turn of its member. -/
theorem turn_partial {commitments : List SentCommitment} {i : SignerInfo cfg.SignerId}
    {text : String} (signer : SignerEnv cfg)
    (hverified : verifyShare P env ⟨i.identifier, text⟩ commitments message = .ok true) :
    Turn P env commitments message i (some ((Response.json (partialAnswer signer text)).arrived P))
      (.ok ⟨i.identifier, text⟩) := by
  have hzi : (((Response.json (partialAnswer signer text)).arrived P).body P).get? "zi" =
      some (.str text) := by
    rw [body_arrived, Response.json, partialAnswer,
      get?_sent_object (by simp [signerField, identifierField])]
    rfl
  refine .kept (fun h => absurd (show 200 = 403 from h.1) (by decide)) ?_ rfl hverified
  rw [hzi]
  rfl

/-- A refusal ends the ceremony in the turn of its member. -/
theorem turn_refusal {commitments : List SentCommitment} {i : SignerInfo cfg.SignerId}
    (signer : SignerEnv cfg) (reason : Option String) :
    Turn P env commitments message i (some ((refusalAnswer signer reason).arrived P))
      (.error (.refused i.signerId (some (.str (reason.getD "refusing to sign"))))) := by
  have hget : ∀ k, (sent (refusalAnswer signer reason).body).get? k = (List.lookup k
      [("refused", some (.bool true)), signerField signer,
        ("reason", some (.str (reason.getD "refusing to sign")))]).join.map sent := fun k => by
    rw [refusalAnswer, get?_sent_object (by simp [signerField])]
  have hreason : (((refusalAnswer signer reason).arrived P).body P).get? "reason" =
      some (.str (reason.getD "refusing to sign")) := by
    rw [body_arrived, hget]
    rfl
  rw [← hreason]
  refine .refused ⟨rfl, ?_⟩
  rw [body_arrived, hget]
  rfl

variable (P member) in
/-- A member has answered round 1 with a commitment, and holds the nonces behind it in a session of
the request. -/
structure Opened (requestId : String) (answers : cfg.SignerId → Option HttpResult)
    (s : Services cfg)
    (i : SignerInfo cfg.SignerId) (o : Frost.Round1Output) : Prop where
  committed : ∃ d e, Frost.commit P.toCurve d e = .ok o
  answered : answers i.signerId =
    some ((Response.json (commitmentAnswer (member i.signerId) o)).arrived P)
  session : ∃ session, (s.member i.signerId).sessions.get requestId = some session ∧
    session.nonces = o.nonces

/-- **A member of a staffed consortium** opens a session in round 1, and answers with the commitment
to its nonces. -/
theorem opened_of_round1 (hstaffed : Staffed P env key member M keys) {i : SignerInfo cfg.SignerId}
    (hi : i ∈ cfg.SIGNERS) (hsession : request.requestId ≠ "")
    {answers : cfg.SignerId → Option HttpResult} {s' : Services cfg}
    (honline : (s.member i.signerId).online = true)
    (h : ∃ m draws r m', LeavesAlone request.requestId (s.member i.signerId) m ∧
      (round1 P (member i.signerId) (some (sent (object
        [("sessionId", some (.str request.requestId))]))) draws).settle m = (.ret r, m') ∧
      answers i.signerId = some (r.arrived P) ∧
      LeavesAlone request.requestId m' (s'.member i.signerId)) :
    ∃ o, Opened P member request.requestId answers s' i o := by
  obtain ⟨m, draws, r, m', hleaves, hsettle, hanswer, hkept⟩ := h
  obtain ⟨-, k, -, -, hshare⟩ := hstaffed.share i hi
  have hid : truthyText (sessionIdOf (some (sent (object
      [("sessionId", some (.str request.requestId))])))) = some request.requestId := by
    rw [sessionIdOf, prop?_some, get?_sent_object (by simp)]
    exact truthyText_of_ne hsession
  obtain ⟨d, e, o, session, hcommit, rfl, -, -, hget, hnonces⟩ := committed_of_round1 hshare
    (hleaves.online.trans honline) hid hsettle
  exact ⟨o, ⟨d, e, hcommit⟩, hanswer, session, hkept.session.trans hget, hnonces⟩

/-- How round 2 ends with members that follow the code: with the first one that refuses. -/
def Gathered (P : Platform) (env : CoordinatorEnv cfg) (refuses : cfg.SignerId → Bool)
    (commitments : List SentCommitment) (message : Bytes) (signers : List (SignerInfo cfg.SignerId))
    (result : Except (CeremonyOutcome cfg) (List Frost.SignatureShare)) : Prop :=
  match signers.find? fun i => refuses i.signerId with
  | none => ∃ shares, result = .ok shares ∧
      shares.map (·.identifier) = signers.map (·.identifier) ∧
      ∀ share ∈ shares, verifyShare P env share commitments message = .ok true
  | some i => ∃ text, result = .error (.refused i.signerId (some (.str text)))

/-- One more member that does not refuse has sent its share. -/
theorem Gathered.cons {commitments : List SentCommitment} {i : SignerInfo cfg.SignerId}
    {share : Frost.SignatureShare}
    {result : Except (CeremonyOutcome cfg) (List Frost.SignatureShare)}
    (h : Gathered P env refuses commitments message signers result)
    (hwilling : refuses i.signerId = false) (hid : share.identifier = i.identifier)
    (hok : verifyShare P env share commitments message = .ok true) :
    Gathered P env refuses commitments message (i :: signers) (result.map (share :: ·)) := by
  have hfind : (i :: signers).find? (fun i => refuses i.signerId) =
      signers.find? fun i => refuses i.signerId := by
    rw [List.find?_cons, hwilling]
  rw [Gathered] at h ⊢
  rw [hfind]
  cases hnext : signers.find? fun i => refuses i.signerId with
  | none =>
      rw [hnext] at h
      obtain ⟨shares, rfl, hids, hall⟩ := h
      exact ⟨_, rfl, by rw [List.map_cons, List.map_cons, hids, hid],
        List.forall_mem_cons.mpr ⟨hok, hall⟩⟩
  | some j =>
      rw [hnext] at h
      obtain ⟨text, rfl⟩ := h
      exact ⟨text, rfl⟩

/-- A member that refuses is the first one that does, if it is asked. -/
theorem Gathered.refusal {commitments : List SentCommitment} {i : SignerInfo cfg.SignerId}
    (hrefuses : refuses i.signerId = true) (text : String) :
    Gathered P env refuses commitments message (i :: signers)
      (.error (.refused i.signerId (some (.str text)))) := by
  rw [Gathered, List.find?_cons, hrefuses]
  exact ⟨text, rfl⟩

variable {W : Rules (Services cfg) (CoordinatorCall cfg) CoordinatorCall.Answer}
  {J : CoordinatorTrace (Services cfg) cfg → Services cfg → Prop}

/-- **Round 2** with members that follow the code: every one of them sends a share that verifies, or
refuses. Induction on the signers that are left. -/
theorem wp_collectShares_following {body : Json} {commitments : List SentCommitment}
    (hrest : ∀ t s, J t s → W.rest t s)
    (hround2 : ∀ signer a t s s', J t s → W.resume (.round2 signer body) s a s' →
      J (t ++ [.answered (.round2 signer body) a]) s' ∧
        Cooperates P member M request s s' (.round2 signer body) a)
    (hflags : ∀ t s, J t s → ∀ i ∈ signers, (s.member i.signerId).online = true ∧
      (s.member i.signerId).refuse = refuses i.signerId)
    (hnd : (signers.map (·.signerId)).Nodup)
    (hanswers : ∀ i ∈ signers, AnswersBody P member M request out zi body i)
    (hverified : ∀ i ∈ signers,
      verifyShare P env ⟨i.identifier, zi i.identifier⟩ commitments message = .ok true)
    (hJ : J t s)
    (hopen : ∀ i ∈ signers, ∃ session, (s.member i.signerId).sessions.get request.requestId =
      some session ∧ session.nonces = (out i.identifier).nonces) :
    wp W (Services.lens cfg) (collectShares P env body commitments message signers)
      (fun result t s => J t s ∧ Gathered P env refuses commitments message signers result)
      (fun _ _ _ => False) t s := by
  induction signers generalizing t s with
  | nil => exact ⟨hJ, [], rfl, rfl, fun _ h => absurd h List.not_mem_nil⟩
  | cons i signers ih =>
      refine wp_collectShares_cons (hrest t s hJ) fun a s' hr => ?_
      obtain ⟨hJ', ⟨m, r, hleaves, hfresh, hserves, rfl⟩, hothers⟩ := hround2 i a t s s' hJ hr
      obtain ⟨honline, hrefuse⟩ := hflags t s hJ i List.mem_cons_self
      rw [← hleaves.online] at honline
      rw [← hleaves.refuse] at hrefuse
      cases hcase : refuses i.signerId with
      | true =>
          obtain rfl := refused_of_round2 honline (hrefuse.trans hcase) hserves
          exact ⟨_, turn_refusal _ _, hJ', .refusal hcase _⟩
      | false =>
          obtain ⟨session, hget, hnonces⟩ := hopen i List.mem_cons_self
          obtain rfl := hanswers i List.mem_cons_self m session r honline (hrefuse.trans hcase)
            (hleaves.session.trans hget) hnonces hfresh hserves
          have hturn := turn_partial (member i.signerId) (hverified i List.mem_cons_self)
          obtain ⟨hid, hok⟩ := hturn.verified
          obtain ⟨hnew, hnd'⟩ := List.nodup_cons.mp hnd
          refine ⟨_, hturn, wp_mono (ih
            (fun t s h j hj => hflags t s h j (List.mem_cons_of_mem _ hj)) hnd'
            (fun j hj => hanswers j (List.mem_cons_of_mem _ hj))
            (fun j hj => hverified j (List.mem_cons_of_mem _ hj)) hJ' fun j hj => ?_)
            (fun _ _ _ h => ⟨h.1, h.2.cons hcase hid hok⟩) fun _ _ _ h => h⟩
          -- the members that are left find their sessions
          have hne : j.signerId ≠ i.signerId := fun heq => hnew (List.mem_map.mpr ⟨j, hj, heq⟩)
          obtain ⟨session', hget', hnonces'⟩ := hopen j (List.mem_cons_of_mem _ hj)
          exact ⟨session', (hothers j.signerId hne).session.trans hget', hnonces'⟩

/-- How an attempt ends with members that follow the code. -/
def Attempted (P : Platform) (env : CoordinatorEnv cfg) (refuses : cfg.SignerId → Bool)
    (tokenPayload : TokenPayload) (chosen : List (SignerInfo cfg.SignerId))
    (outcome : CeremonyOutcome cfg) : Prop :=
  match chosen.find? fun i => refuses i.signerId with
  | none => ∃ token, outcome = .ok token (chosen.map (·.signerId)) ∧
      token.toTokenPayload = tokenPayload ∧ Frost.verifySignature P.toCurve token.signature
        (tokenPayload.message P) env.GROUP.groupPublicKey = true
  | some i => ∃ text, outcome = .refused i.signerId (some (.str text))

/-- **An attempt** with members that follow the code: it is refused by the first member that
refuses, or it makes a token. -/
theorem wp_runCeremony_following {K : CoordinatorTrace (Services cfg) cfg → Services cfg → Prop}
    (hstaffed : Staffed P env key member M keys) (hchosen : Registered chosen)
    (hlength : cfg.t ≤ chosen.length) (hrecord : s.store.heap rid = record)
    (hdebit : record.debit = some d.toJson) (hconfirmed : ConfirmedBy P key record.request d)
    (hsession : record.request.requestId ≠ "")
    (hrest : ∀ t s, J t s → W.rest t s) (hrestK : ∀ t s, K t s → W.rest t s)
    (hround1 : ∀ body a t s s', K t s → W.resume (.round1 chosen body) s a s' →
      J (t ++ [.answered (.round1 chosen body) a]) s' ∧
        Cooperates P member M record.request s s' (.round1 chosen body) a)
    (hround2 : ∀ signer body a t s s', J t s → W.resume (.round2 signer body) s a s' →
      J (t ++ [.answered (.round2 signer body) a]) s' ∧
        Cooperates P member M record.request s s' (.round2 signer body) a)
    (hflags : ∀ t s, J t s → ∀ i ∈ chosen, (s.member i.signerId).online = true ∧
      (s.member i.signerId).refuse = refuses i.signerId)
    (honline : ∀ i ∈ chosen, (s.member i.signerId).online = true) (hK : K t s) :
    wp W (Services.lens cfg) (runCeremony P env rid chosen (d.tokenPayload P)
        ((d.tokenPayload P).message P) (bytesToHex ((d.tokenPayload P).message P)))
      (fun outcome t s => J t s ∧ Attempted P env refuses (d.tokenPayload P) chosen outcome)
      (fun _ _ _ => False) t s := by
  rw [runCeremony]
  simp only [theRecord, wp_bind, wp_gets, wp_call, Services.lens_view, hrecord]
  refine ⟨hrestK t s hK, fun a s' hr => ?_⟩
  obtain ⟨hJ, hcoop⟩ := hround1 _ a t s s' hK hr
  rw [Services.lens_view, hrecord] at hcoop
  obtain ⟨out, hout⟩ : ∃ out : ℤ → Frost.Round1Output, ∀ i ∈ chosen,
      Opened P member record.request.requestId a s' i (out i.identifier) :=
    hchosen.byIdentifier ⟨⟨"", ""⟩, "", ""⟩ fun i hi =>
      opened_of_round1 hstaffed (hchosen.mem i hi) hsession (honline i hi) (hcoop i hi)
  have hcommitted : chosen.mapM (fun i => sentCommitment P i (a i.signerId)) =
      .ok ((commitmentsOf out chosen).map SentCommitment.of) :=
    mapM_sentCommitment_of fun i hi => by
      obtain ⟨d, e, hcommit⟩ := (hout i hi).committed
      exact ⟨d, e, hcommit, (hout i hi).answered⟩
  obtain ⟨zi, hzi⟩ := honest_partials hstaffed hchosen (fun i hi => (hout i hi).committed)
    ((d.tokenPayload P).message P)
  simp only [hcommitted, wp_bind]
  refine wp_mono (wp_collectShares_following hrest
    (fun signer a t s s' => hround2 signer _ a t s s') hflags hchosen.nodup_signerId
    (fun i hi => answersBody hstaffed hdebit hconfirmed (hchosen.mem i hi) (hzi i hi).1)
    (fun i hi => (hzi i hi).2) hJ fun i hi => (hout i hi).session)
    (fun result t s h => ?_) fun _ _ _ h => h
  obtain ⟨h, hgathered⟩ := h
  rw [Gathered] at hgathered
  cases hfind : chosen.find? fun i => refuses i.signerId with
  | some i =>
      rw [hfind] at hgathered
      obtain ⟨text, rfl⟩ := hgathered
      refine ⟨h, ?_⟩
      rw [Attempted, hfind]
      exact ⟨text, rfl⟩
  | none =>
      rw [hfind] at hgathered
      obtain ⟨shares, rfl, hids, hverified⟩ := hgathered
      obtain ⟨n, draws, hn, hdealt⟩ := hstaffed.dealt
      obtain ⟨token, htoken⟩ : ∃ token,
          concludeCeremony P env chosen (d.tokenPayload P) _ _ _ = .ok token _ :=
        concludeCeremony_kept hdealt hn hstaffed.group (fun i hi => by
          obtain ⟨-, k, hk, hid, -⟩ := hstaffed.share i (hchosen.mem i hi)
          exact ⟨k, hk, hid⟩) hlength (by
            rw [List.map_map, commitmentsOf, List.map_map]
            rfl) hids hverified
      obtain ⟨hpayload, -, hsignature⟩ := concludeCeremony_ok htoken
      refine ⟨h, ?_⟩
      rw [Attempted, hfind]
      exact ⟨token, htoken, hpayload, hsignature⟩

end Attempt

end NoGhost
