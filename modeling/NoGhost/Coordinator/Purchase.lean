import NoGhost.Coordinator.Following

/-!
# Purchases

A run of the pipeline among services that follow the code, from the policy gate to the end. The bank
is in mode `CONFIRM`, and keeps its ledger; the members answer with their handlers, and some of them
may refuse to sign; other runs go on meanwhile.

## Main results

* `Course`, `Secured`: what holds of a run at every point, before the debit and from then on.
* `wp_abandon_refunded`: an abandoned run has its debit reversed in the log of the bank.
* `wp_settleReceipt_vended`: a run with a token has its receipt co-signed, and is delivered.
-/

open Js Async

namespace NoGhost

variable {cfg : Config}

/-! ### The setting -/

/-- The consortium as a purchase finds it: who is active and online, who refuses, and how many
approvals the ledger shows. -/
structure Attendance (cfg : Config) where
  active : cfg.SignerId → Bool
  online : cfg.SignerId → Bool
  /-- Who refuses to sign. -/
  refuses : cfg.SignerId → Bool
  /-- How many members have approved the request on the ledger. -/
  approvals : ℕ

/-- The signers that a poll finds: those who are active and online, in the order of their
identifiers. -/
def Attendance.roster (c : Attendance cfg) : List (SignerInfo cfg.SignerId) :=
  sortByIdentifier ((cfg.SIGNERS.filter fun i => c.active i.signerId).filter fun i =>
    c.online i.signerId)

/-- The roster has members of the registry, each once. -/
theorem Attendance.registered (c : Attendance cfg) : Registered c.roster := by
  have hregistry : Registered cfg.SIGNERS := ⟨cfg.nodup_signerId.of_map _, fun _ h => h⟩
  have honline := (hregistry.sublist List.filter_sublist).sublist
    (List.filter_sublist (p := fun i => c.online i.signerId)
      (l := cfg.SIGNERS.filter fun i => c.active i.signerId))
  have hperm := List.perm_insertionSort (fun a b : SignerInfo cfg.SignerId =>
    a.identifier ≤ b.identifier) ((cfg.SIGNERS.filter fun i => c.active i.signerId).filter fun i =>
      c.online i.signerId)
  exact ⟨hperm.nodup_iff.mpr honline.nodup, fun i hi => honline.mem i (hperm.mem_iff.mp hi)⟩

/-- Who is on the roster is online. -/
theorem Attendance.online_of_mem {c : Attendance cfg} {i : SignerInfo cfg.SignerId}
    (h : i ∈ c.roster) : c.online i.signerId = true := by
  have hperm := List.perm_insertionSort (fun a b : SignerInfo cfg.SignerId =>
    a.identifier ≤ b.identifier) ((cfg.SIGNERS.filter fun i => c.active i.signerId).filter fun i =>
      c.online i.signerId)
  exact (List.mem_filter.mp (hperm.mem_iff.mp h)).2

/-- No token was made of a debit yet, nor was it claimed: no entry of the register names its
reference, and the meters do not know it. -/
structure Unclaimed (P : Platform) (u : Store cfg) (debit : Json) : Prop where
  claims : truthyText (u.consumedDebitRefs.get (debit.get? "debitRef")) = none
  unspent : ∀ payload, buildTokenPayload P (some debit) = .ok payload → u.redeemed payload = false

/-- What the others leave alone while the run on `rid` is suspended: its record, who is a member and
who is online, and the debit of the record at the meter. The bank keeps its ledger. -/
structure LeavesRun (P : Platform) (rid : ℕ) (s s' : Services cfg) : Prop where
  record : s'.store.heap rid = s.store.heap rid
  active : ∀ i, s'.store.isMemberActive i = s.store.isMemberActive i
  online : ∀ i, (s'.member i).online = (s.member i).online
  ledger : Ledger s'.bank
  grows : Grows s.bank s'.bank
  unspent : ∀ payload, buildTokenPayload P (s.store.heap rid).debit = .ok payload →
    s.store.redeemed payload = false → s'.store.redeemed payload = false

/-- How the services answer. The bank and the members answer with their handlers, and the ledger
takes what it is given. -/
def Serviced (P : Platform) (key : BankKey) (member : cfg.SignerId → SignerEnv cfg)
    (M : ConsortiumManifest cfg) (c : Attendance cfg) (request : GenerationRequest)
    (s s' : Services cfg) : (q : CoordinatorCall cfg) → q.Answer → Prop
  | .health signers, answers =>
      (∀ i ∈ signers, signerIsOnline P (answers i.signerId) = (s.member i.signerId).online) ∧
        ∀ i, (s'.member i).refuse = c.refuses i
  | .debit _ body, answer => ∃ (b b' : BankState) (random : Bytes) (r : Response),
      b.mode = .CONFIRM ∧ b.prior request.requestId = none ∧ Grows s.bank b ∧
      (postDebit P key (some (sent body)) random).settle b = (.ret r, b') ∧
      answer = some (r.arrived P) ∧ Grows b' s'.bank ∧ Unclaimed P s'.store ((r.arrived P).body P)
  | .reverse _ debitRef, answer => ∃ (b b' : BankState) (r : Response), Ledger b ∧ Grows s.bank b ∧
      (postReverse debitRef).settle b = (.ret r, b') ∧ answer = some (r.arrived P) ∧
      Grows b' s'.bank
  | .publish _, answer => ∃ txHash, answer = .ok txHash
  | .validate _ _, _ => True
  | .accountTx _, answer => ∃ txs approvals, answer = .ok txs ∧
      readApprovals P M (hashValue P (some request.toJson)) txs = .ok approvals ∧
      approveCount approvals = c.approvals
  | .round1 signers body, answers =>
      Cooperates P member M request s s' (.round1 signers body) answers ∧
      ∀ i, (s'.member i).refuse = (s.member i).refuse
  | .round2 i body, answer => Cooperates P member M request s s' (.round2 i body) answer ∧
      ∀ i, (s'.member i).refuse = (s.member i).refuse
  | .prepare _ _, answer => ∃ prepared, answer = .ok prepared ∧ prepared.isObject = true
  | .signReceipt i body, answer => ∃ (m : SignerState) (r : Response),
      m.online = (s.member i.signerId).online ∧
      Serves (ShowsQuorum P M (hashValue P (some request.toJson)))
        (signReceipt P (member i.signerId) (some (sent body))) m r ∧
      answer = some (r.arrived P)
  | .submitReceipt _, answer => ∃ txHash, answer = .ok txHash

/-- The rules of a purchase: the services follow their code for this request, and the consortium
stays as the purchase found it. -/
def purchaseRules (P : Platform) (key : BankKey) (member : cfg.SignerId → SignerEnv cfg)
    (M : ConsortiumManifest cfg) (c : Attendance cfg) (request : GenerationRequest) (rid : ℕ) :
    Rules (Services cfg) (CoordinatorCall cfg) CoordinatorCall.Answer where
  resume q s a s' := LeavesRun P rid s s' ∧ Serviced P key member M c request s s' q a
  gua _ _ _ := True

/-! ### What a run has done -/

section Traces

variable {t : CoordinatorTrace (Services cfg) cfg}

/-- A commitment was asked for, which is how a ceremony begins. -/
def isRound1 : Entry (Services cfg) (CoordinatorCall cfg) CoordinatorCall.Answer → Bool
  | .answered (.round1 _ _) _ => true
  | _ => false

/-- How many ceremonies were held, counted by their rounds 1. -/
def ceremonies (t : CoordinatorTrace (Services cfg) cfg) : ℕ := t.countP isRound1

/-- The members that a run has named in the governance log because they refused, in their order. No
other write of the run is one of that log. -/
inductive Refusals : CoordinatorTrace (Services cfg) cfg → List cfg.SignerId → Prop
  | nil : Refusals [] []
  | answered {t : CoordinatorTrace (Services cfg) cfg} {xs : List cfg.SignerId} (h : Refusals t xs)
      (q : CoordinatorCall cfg) (a : q.Answer) : Refusals (t ++ [.answered q a]) xs
  | silent {t : CoordinatorTrace (Services cfg) cfg} {xs : List cfg.SignerId} {s s' : Services cfg}
      (h : Refusals t xs) (hlog : s'.store.governanceLog = s.store.governanceLog) :
      Refusals (t ++ [.wrote s s']) xs
  | named {t : CoordinatorTrace (Services cfg) cfg} {xs : List cfg.SignerId} {s s' : Services cfg}
      {i : cfg.SignerId} {detail : Option Json} (h : Refusals t xs)
      (hlog : s'.store = s.store.addGovernanceEntry "SIGNER_REFUSED" (cfg.idText i) (cfg.idText i)
        detail) : Refusals (t ++ [.wrote s s']) (xs ++ [i])

/-- Any other answer begins no ceremony. -/
theorem ceremonies_answered {q : CoordinatorCall cfg} {a : q.Answer}
    (h : isRound1 (.answered q a : Entry (Services cfg) _ _) = false) :
    ceremonies (t ++ [.answered q a]) = ceremonies t := by
  rw [ceremonies, List.countP_append, List.countP_singleton, h]
  rfl

/-- The answer to round 1 begins one more. -/
theorem ceremonies_round1 {signers : List (SignerInfo cfg.SignerId)} {body : Json}
    {a : (CoordinatorCall.round1 signers body).Answer} :
    ceremonies (t ++ [.answered (.round1 signers body) a]) = ceremonies t + 1 := by
  rw [ceremonies, List.countP_append, List.countP_singleton]
  rfl

/-- A write begins no ceremony. -/
theorem ceremonies_wrote {s s' : Services cfg} : ceremonies (t ++ [.wrote s s']) =
    ceremonies t := by
  rw [ceremonies, List.countP_append, List.countP_singleton]
  rfl

end Traces

/-! ### Writes that leave the rest alone -/

/-- The record of the run becomes `r`, and the governance of the consortium stays as it is, so that
the same members are active after it. -/
structure SetsRecord (rid : ℕ) (r : PipelineRecord cfg) (u u' : Store cfg) : Prop where
  own : u'.heap rid = r
  members : u'.members = u.members
  governance : u'.governanceLog = u.governanceLog

/-- A write of a record that leaves the claims and the replay guards alone, too. -/
structure SetsOnlyRecord (rid : ℕ) (r : PipelineRecord cfg) (u u' : Store cfg) : Prop
    extends SetsRecord rid r u u' where
  nonces : u'.usedNonces = u.usedNonces
  refs : u'.usedDebitRefs = u.usedDebitRefs
  claims : u'.consumedDebitRefs = u.consumedDebitRefs

section SetsOnlyRecord

variable {u u' u'' : Store cfg} {rid : ℕ} {r r' : PipelineRecord cfg}

/-- Two writes of a record are one, to the later value. -/
theorem SetsRecord.trans (h : SetsRecord rid r u u') (h' : SetsRecord rid r' u' u'') :
    SetsRecord rid r' u u'' :=
  ⟨h'.own, h'.members.trans h.members, h'.governance.trans h.governance⟩

/-- Two such writes that leave the guards alone do so together. -/
theorem SetsOnlyRecord.trans (h : SetsOnlyRecord rid r u u') (h' : SetsOnlyRecord rid r' u' u'') :
    SetsOnlyRecord rid r' u u'' :=
  ⟨h.toSetsRecord.trans h'.toSetsRecord, h'.nonces.trans h.nonces, h'.refs.trans h.refs,
    h'.claims.trans h.claims⟩

/-- A token is known after such a write where it was known before. -/
theorem SetsOnlyRecord.redeemed (h : SetsOnlyRecord rid r u u') (p : TokenPayload) : u'.redeemed p =
    u.redeemed p := by
  rw [Store.redeemed, Store.redeemed, h.nonces, h.refs]

/-- Who is active after such a write was active before. -/
theorem SetsRecord.isMemberActive (h : SetsRecord rid r u u') (i : cfg.SignerId) :
    u'.isMemberActive i = u.isMemberActive i := by
  rw [Store.isMemberActive, Store.isMemberActive, h.members]

/-- An assignment to fields of a record writes that record only. -/
theorem setsOnlyRecord_update (rid : ℕ) (f : PipelineRecord cfg → PipelineRecord cfg)
    (u : Store cfg) :
    SetsOnlyRecord rid (f (u.heap rid)) u (u.update rid f) :=
  ⟨⟨Function.update_self .., rfl, rfl⟩, rfl, rfl, rfl⟩

/-- The end of a record writes the series and the log, and no record. -/
theorem setsOnlyRecord_onTerminal (rid : ℕ) (status : RequestStatus) (u : Store cfg) :
    SetsOnlyRecord rid (u.heap rid) u (u.onTerminal status) := by
  rw [onTerminal_eq, counted_eq]
  split <;> exact ⟨⟨rfl, rfl, rfl⟩, rfl, rfl, rfl⟩

/-- A transition writes the status and the history of its record only. -/
theorem setsOnlyRecord_transition (rid : ℕ) (status : RequestStatus)
    (note : String) (u : Store cfg) :
    SetsOnlyRecord rid (Store.moved status u.now note (u.heap rid)) u
    (u.transition rid status note) := by
  have hannounce : SetsOnlyRecord rid (Store.moved status u.now note (u.heap rid)) u
      (u.announce rid status note) := ⟨⟨Function.update_self .., rfl, rfl⟩, rfl, rfl, rfl⟩
  rw [transition_eq]
  split
  · have hterminal := setsOnlyRecord_onTerminal rid status (u.announce rid status note)
    rw [hannounce.own] at hterminal
    exact hannounce.trans hterminal
  · exact hannounce

/-- The fields that a step sets, and its transition, are one write of the record. -/
theorem setsOnlyRecord_step (rid : ℕ) (status : RequestStatus) (note : String)
    (f : PipelineRecord cfg → PipelineRecord cfg) (u : Store cfg) :
    SetsOnlyRecord rid (Store.moved status u.now note (f (u.heap rid))) u
      (Store.transition rid status note (u.update rid f)) := by
  have hupdate := setsOnlyRecord_update rid f u
  have hmoved := setsOnlyRecord_transition rid status note (u.update rid f)
  rw [hupdate.own] at hmoved
  exact hupdate.trans hmoved

/-- A transition dispenses nothing. -/
theorem dispensed_transition (rid : ℕ) (status : RequestStatus) (note : String) (u : Store cfg) :
    (u.transition rid status note).dispensed = u.dispensed := by
  rw [transition_eq]
  split
  · rw [onTerminal_eq, counted_eq]
    split <;> rfl
  · rfl

end SetsOnlyRecord

/-! ### The course of a run -/

section Course

variable {P : Platform} {env : CoordinatorEnv cfg} {key : BankKey}
  {member : cfg.SignerId → SignerEnv cfg} {M : ConsortiumManifest cfg} {keys : Frost.KeygenOutput}
  {c : Attendance cfg} {rid : ℕ} {request : GenerationRequest} {d : DebitConfirmation}
  {r r' : PipelineRecord cfg} {names : List cfg.SignerId} {n : ℕ}
  {t : CoordinatorTrace (Services cfg) cfg} {s : Services cfg}

variable (c rid request) in
/-- A run on the record `r` that has named the members `names` and has held `n` ceremonies, in a
consortium that is as the purchase has found it. -/
structure Course (r : PipelineRecord cfg) (names : List cfg.SignerId) (n : ℕ)
    (t : CoordinatorTrace (Services cfg) cfg) (s : Services cfg) : Prop where
  record : s.store.heap rid = r
  request_eq : r.request = request
  active : ∀ i, s.store.isMemberActive i = c.active i
  online : ∀ i, (s.member i).online = c.online i
  ledger : Ledger s.bank
  ceremonies : ceremonies t = n
  refusals : Refusals t names

variable (P c rid request) in
/-- The run holds the debit `d`, which is in the log of the bank and was not redeemed: what the
purchase has paid for. -/
structure Secured (d : DebitConfirmation) (r : PipelineRecord cfg) (names : List cfg.SignerId)
    (n : ℕ) (t : CoordinatorTrace (Services cfg) cfg) (s : Services cfg) : Prop
    extends Course c rid request r names n t s where
  debit : r.debit = some d.toJson
  logged : ∃ e ∈ s.bank.debitLog, e.debit = d
  unspent : s.store.redeemed (d.tokenPayload P) = false

/-- The log of the bank keeps its debits as it grows. -/
theorem Grows.logged {b b' : BankState} (h : Grows b b') (hd : ∃ e ∈ b.debitLog, e.debit = d) :
    ∃ e ∈ b'.debitLog, e.debit = d := by
  obtain ⟨e, he, rfl⟩ := hd
  obtain ⟨i, hi⟩ := List.mem_iff_getElem?.mp he
  obtain ⟨e', he', hdebit, -⟩ := h.entries i e hi
  exact ⟨e', List.mem_of_getElem? he', hdebit⟩

/-- The log of the bank keeps what was reversed. -/
theorem Grows.refunded {b b' : BankState} (h : Grows b b')
    (hd : ∃ e ∈ b.debitLog, e.debit = d ∧ e.reversed = true) :
    ∃ e ∈ b'.debitLog, e.debit = d ∧ e.reversed = true := by
  obtain ⟨e, he, rfl, hreversed⟩ := hd
  obtain ⟨i, hi⟩ := List.mem_iff_getElem?.mp he
  obtain ⟨e', he', hdebit, -, hkept⟩ := h.entries i e hi
  exact ⟨e', List.mem_of_getElem? he', hdebit, hkept hreversed⟩

/-- An answer to any call but round 1 leaves the purchase on its course, with as many ceremonies as
before. -/
theorem Course.answered (h : Course c rid request r names n t s) {q : CoordinatorCall cfg}
    {a : q.Answer} {s' : Services cfg}
    (hr : (purchaseRules P key member M c request rid).resume q s a s')
    (hq : isRound1 (.answered q a : Entry (Services cfg) _ _) = false) :
    Course c rid request r names n (t ++ [.answered q a]) s' :=
  ⟨hr.1.record.trans h.record, h.request_eq, fun i => (hr.1.active i).trans (h.active i),
    fun i => (hr.1.online i).trans (h.online i), hr.1.ledger,
    (ceremonies_answered hq).trans h.ceremonies, h.refusals.answered q a⟩

/-- The answer of round 1 leaves the purchase on its course, with one ceremony more. -/
theorem Course.committed (h : Course c rid request r names n t s)
    {signers : List (SignerInfo cfg.SignerId)} {body : Json}
    {a : (CoordinatorCall.round1 signers body).Answer} {s' : Services cfg}
    (hr : (purchaseRules P key member M c request rid).resume (.round1 signers body) s a s') :
    Course c rid request r names (n + 1) (t ++ [.answered (.round1 signers body) a]) s' :=
  ⟨hr.1.record.trans h.record, h.request_eq, fun i => (hr.1.active i).trans (h.active i),
    fun i => (hr.1.online i).trans (h.online i), hr.1.ledger,
    ceremonies_round1.trans (congrArg (· + 1) h.ceremonies), h.refusals.answered _ a⟩

/-- A write of its own record leaves the purchase on its course, with the record as written. -/
theorem Course.wrote (h : Course c rid request r names n t s) {w : Store cfg}
    (hb : SetsRecord rid r' s.store w) (hrequest : r'.request = r.request) :
    Course c rid request r' names n (t ++ [.wrote s { s with store := w }]) { s with store := w } :=
  ⟨hb.own, hrequest.trans h.request_eq, fun i => (hb.isMemberActive i).trans (h.active i), h.online,
    h.ledger, ceremonies_wrote.trans h.ceremonies, h.refusals.silent hb.governance⟩

/-- A write of its own record, in the proof of a program. -/
theorem Course.wp_write (h : Course c rid request r names n t s) {v : PipelineRecord cfg}
    {f : Store cfg → Store cfg}
    {post : Unit → CoordinatorTrace (Services cfg) cfg → Services cfg → Prop}
    {exn : String → CoordinatorTrace (Services cfg) cfg → Services cfg → Prop}
    (hb : SetsRecord rid v s.store (f s.store)) (hrequest : v.request = r.request)
    (hpost : ∀ t s, Course c rid request v names n t s → post () t s) :
    wp (purchaseRules P key member M c request rid) (Services.lens cfg) (.modify f) post exn t s :=
  ⟨trivial, hpost _ _ (h.wrote hb hrequest)⟩

/-- The debit stays unspent through an answer, since nobody else claims or redeems under its
reference. -/
theorem Secured.unspent_answered (h : Secured P c rid request d r names n t s)
    {q : CoordinatorCall cfg} {a : q.Answer} {s' : Services cfg}
    (hr : (purchaseRules P key member M c request rid).resume q s a s') :
    s'.store.redeemed (d.tokenPayload P) = false :=
  hr.1.unspent _ (by rw [h.record, h.debit, d.buildTokenPayload_toJson]) h.unspent

/-- An answer to any call but round 1 leaves the debit secured. -/
theorem Secured.answered (h : Secured P c rid request d r names n t s) {q : CoordinatorCall cfg}
    {a : q.Answer} {s' : Services cfg}
    (hr : (purchaseRules P key member M c request rid).resume q s a s')
    (hq : isRound1 (.answered q a : Entry (Services cfg) _ _) = false) :
    Secured P c rid request d r names n (t ++ [.answered q a]) s' :=
  ⟨h.toCourse.answered hr hq, h.debit, hr.1.grows.logged h.logged, h.unspent_answered hr⟩

/-- The answer of round 1 leaves the debit secured, with one ceremony more. -/
theorem Secured.committed (h : Secured P c rid request d r names n t s)
    {signers : List (SignerInfo cfg.SignerId)} {body : Json}
    {a : (CoordinatorCall.round1 signers body).Answer} {s' : Services cfg}
    (hr : (purchaseRules P key member M c request rid).resume (.round1 signers body) s a s') :
    Secured P c rid request d r names (n + 1) (t ++ [.answered (.round1 signers body) a]) s' :=
  ⟨h.toCourse.committed hr, h.debit, hr.1.grows.logged h.logged, h.unspent_answered hr⟩

/-- A write of its own record that keeps its debit leaves the debit secured. -/
theorem Secured.wrote (h : Secured P c rid request d r names n t s) {w : Store cfg}
    (ha : SetsOnlyRecord rid r' s.store w) (hrequest : r'.request = r.request)
    (hdebit : r'.debit = r.debit) :
    Secured P c rid request d r' names n (t ++ [.wrote s { s with store := w }])
      { s with store := w } :=
  ⟨h.toCourse.wrote ha.toSetsRecord hrequest, hdebit.trans h.debit, h.logged,
    (ha.redeemed _).trans h.unspent⟩

/-- Such a write, in the proof of a program. -/
theorem Secured.wp_write (h : Secured P c rid request d r names n t s) {v : PipelineRecord cfg}
    {f : Store cfg → Store cfg}
    {post : Unit → CoordinatorTrace (Services cfg) cfg → Services cfg → Prop}
    {exn : String → CoordinatorTrace (Services cfg) cfg → Services cfg → Prop}
    (ha : SetsOnlyRecord rid v s.store (f s.store)) (hrequest : v.request = r.request)
    (hdebit : v.debit = r.debit)
    (hpost : ∀ t s, Secured P c rid request d v names n t s → post () t s) :
    wp (purchaseRules P key member M c request rid) (Services.lens cfg) (.modify f) post exn t s :=
  ⟨trivial, hpost _ _ (h.wrote ha hrequest hdebit)⟩

/-- A poll finds the roster, since the members answer as they are. -/
theorem wp_poll_roster
    {post : List (SignerInfo cfg.SignerId) → CoordinatorTrace (Services cfg) cfg →
      Services cfg → Prop}
    {exn : String → CoordinatorTrace (Services cfg) cfg → Services cfg → Prop}
    (h : Course c rid request r names n t s)
    (hpost : ∀ signers a s',
      (purchaseRules P key member M c request rid).resume (.health signers) s a s' →
      post c.roster (t ++ [.answered (.health signers) a]) s') :
    wp (purchaseRules P key member M c request rid) (Services.lens cfg) (pollOnlineActiveSigners P)
      post exn t s := by
  rw [pollOnlineActiveSigners]
  simp only [wp_bind, wp_gets, wp_call, wp_pure, Services.lens_view]
  refine ⟨trivial, fun answers s' hr => ?_⟩
  have hactive : (cfg.SIGNERS.filter fun i => s.store.isMemberActive i.signerId) =
      cfg.SIGNERS.filter fun i => c.active i.signerId :=
    List.filter_congr fun i _ => h.active i.signerId
  have honline : ((cfg.SIGNERS.filter fun i => s.store.isMemberActive i.signerId).filter fun i =>
      signerIsOnline P (answers i.signerId)) =
        (cfg.SIGNERS.filter fun i => c.active i.signerId).filter fun i => c.online i.signerId := by
    rw [← hactive]
    exact List.filter_congr fun i hi => (hr.2.1 i hi).trans (h.online i.signerId)
  rw [honline]
  exact hpost _ _ _ hr

/-! ### Abandonment -/

/-- A debit in the log is reversed when it is asked for, and once it is, it stays so. -/
theorem refunded_of_postReverse {b b' : BankState} {answer : Response} (hl : Ledger b)
    (hd : ∃ e ∈ b.debitLog, e.debit = d)
    (h : (postReverse d.debitRef).settle b = (.ret answer, b')) :
    (answer.arrived P).ok = true ∧ ∃ e ∈ b'.debitLog, e.debit = d ∧ e.reversed = true := by
  obtain ⟨e, he, rfl⟩ := hd
  obtain ⟨i, hi⟩ := List.mem_iff_getElem?.mp he
  cases hreversed : e.reversed with
  | false =>
      rw [settle_postReverse hl hi hreversed] at h
      cases h
      refine ⟨rfl, { e with reversed := true }, List.mem_of_getElem? (i := i) ?_, rfl, rfl⟩
      rw [BankState.reverseAt, List.getElem?_modify, hi]
      simp
  | true =>
      have hget : b.byDebitRef.get e.debit.debitRef = some i := hl.byDebitRef.get_iff.mpr (by
        rw [BankState.debitRefs, List.getElem?_map, hi]
        rfl)
      rw [postReverse, Prog.settle_bind_ret (a := some (i, e)) (t := b) _ (by
        change (Prog.ret ((b.byDebitRef.get e.debit.debitRef).bind fun i =>
          b.debitLog[i]?.map fun entry => (i, entry)), b) = _
        rw [hget, Option.bind_some, hi]
        rfl)] at h
      dsimp only at h
      rw [hreversed] at h
      cases h
      exact ⟨rfl, e, he, rfl, hreversed⟩

variable (c rid request) in
/-- The run was abandoned for a reason, with these refusals noted, and its debit was reversed. -/
structure Refunded (d : DebitConfirmation) (reason : String) (names : List cfg.SignerId) (n : ℕ)
    (t : CoordinatorTrace (Services cfg) cfg) (s : Services cfg) : Prop where
  course : Course c rid request (s.store.heap rid) names n t s
  status : (s.store.heap rid).status = .REJECTED_ABANDONED
  debit : (s.store.heap rid).debit = some d.toJson
  debitReversed : (s.store.heap rid).debitReversed = some true
  rejection : ∃ rejection, (s.store.heap rid).rejection = some rejection ∧
    rejection.wall = .WALL_2_CONSORTIUM ∧ rejection.reason = reason
  reversed : ∃ e ∈ s.bank.debitLog, e.debit = d ∧ e.reversed = true

/-- **An abandoned run** has its debit reversed: the bank finds the debit in its log, under the
reference that it is asked for. -/
theorem wp_abandon_refunded {exn : String → CoordinatorTrace (Services cfg) cfg →
    Services cfg → Prop}
    (h : Secured P c rid request d r names n t s) (hnamed : d.debitRef ≠ "")
    (reason attribution : String) :
    wp (purchaseRules P key member M c request rid) (Services.lens cfg)
      (abandon P rid .WALL_2_CONSORTIUM reason attribution)
      (fun _ => Refunded c rid request d reason names n) exn t s := by
  have href : prop? r.debit "debitRef" = some (.str d.debitRef) := by
    rw [h.debit, prop?_some, ← d.sent_toJson, d.get?_debitRef]
  have htruthy : truthy (some (.str d.debitRef)) = true := by simp [truthy, Json.truthy, hnamed]
  have htext : toStr P.numeral (some (.str d.debitRef)) = .ok d.debitRef := rfl
  rw [abandon]
  simp only [theRecord, wp_bind, wp_gets, Services.lens_view, h.record, href, htruthy, if_true,
    reverseDebit, htext]
  refine h.wp_write (v := r) ⟨⟨h.record, rfl, rfl⟩, rfl, rfl, rfl⟩ rfl rfl fun t s h => ?_
  rw [wp_bind, wp_call]
  refine ⟨trivial, fun a s' hr => ?_⟩
  obtain ⟨b, b', answer, hledger, hgrows, hsettle, rfl, hgrows'⟩ := hr.2
  obtain ⟨hok, hrefunded⟩ := refunded_of_postReverse (P := P) hledger
    (hgrows.logged h.logged) hsettle
  replace hrefunded := hgrows'.refunded hrefunded
  have h₁ := h.toCourse.answered hr rfl
  obtain ⟨alert, halert⟩ := abandonAlert_ok htext .WALL_2_CONSORTIUM r.request.requestId reason
    attribution true
  simp only [wp_pure, Option.any_some, hok, closeAbandoned, wp_bind, wp_modify,
    halert, wp_ofExcept_ok,
    Services.lens_view, Services.lens_put, if_true]
  set r₁ : PipelineRecord cfg := { r with
    debitReversed := some true
    rejection := some ⟨.WALL_2_CONSORTIUM, reason, s'.store.now, attribution⟩ } with hr₁
  have hwrite := setsOnlyRecord_update rid (fun r : PipelineRecord cfg => { r with
    debitReversed := some true
    rejection := some ⟨.WALL_2_CONSORTIUM, reason, s'.store.now, attribution⟩ }) s'.store
  rw [h₁.record, ← hr₁] at hwrite
  have h₂ := h₁.wrote hwrite.toSetsRecord rfl
  set u := s'.store.update rid fun r : PipelineRecord cfg => { r with
    debitReversed := some true
    rejection := some ⟨.WALL_2_CONSORTIUM, reason, s'.store.now, attribution⟩ } with hu
  have hmoved := setsOnlyRecord_transition rid .REJECTED_ABANDONED (reason ++ " · debit reversed")
    (u.addAlert alert)
  have hlast : SetsOnlyRecord rid (Store.moved .REJECTED_ABANDONED s'.store.now
    (reason ++ " · debit reversed") r₁)
      u (Store.transition rid .REJECTED_ABANDONED (reason ++ " · debit reversed")
        (u.addAlert alert)) := by
    rw [show (u.addAlert alert).heap rid = r₁ from h₂.record] at hmoved
    exact (⟨⟨h₂.record, rfl, rfl⟩, rfl, rfl, rfl⟩ : SetsOnlyRecord rid r₁ u
      (u.addAlert alert)).trans hmoved
  have h₃ := h₂.wrote hlast.toSetsRecord rfl
  refine ⟨trivial, trivial, ?_, ?_, ?_, ?_, ?_, hrefunded⟩
  · rw [h₃.record]
    exact h₃
  · exact congrArg (·.status) h₃.record
  · exact (congrArg (·.debit) h₃.record).trans h.debit
  · exact congrArg (·.debitReversed) h₃.record
  · exact ⟨_, congrArg (·.rejection) h₃.record, rfl, rfl⟩

/-! ### Delivery -/

/-- A meter is put into service, and no record is written. -/
theorem setsRecord_ensureMeter (meterId : Option Json) {u : Store cfg} (h : u.heap rid = r) :
    SetsRecord rid r u (u.ensureMeter meterId) := by
  rw [Store.ensureMeter]
  split <;> exact ⟨h, rfl, rfl⟩

variable (P env c rid request) in
/-- The run has a token for the debit, over the payload that the debit says, signed by the members
`chosen`. -/
structure Minted (d : DebitConfirmation) (token : Token) (chosen : List (SignerInfo cfg.SignerId))
    (r : PipelineRecord cfg) (names : List cfg.SignerId) (n : ℕ)
    (t : CoordinatorTrace (Services cfg) cfg) (s : Services cfg) : Prop
    extends Secured P c rid request d r names n t s where
  token_eq : r.token = some token
  payload : token.toTokenPayload = d.tokenPayload P
  verified : Frost.verifySignature P.toCurve token.signature ((d.tokenPayload P).message P)
    env.GROUP.groupPublicKey = true
  signerSet : r.signerSet = some (chosen.map (·.signerId))

variable (P env c rid request) in
/-- The purchase was served: the token was dispensed to the meter of the record, and its receipt
names the signers. -/
structure Vended (d : DebitConfirmation) (chosen : List (SignerInfo cfg.SignerId))
    (names : List cfg.SignerId) (n : ℕ) (t : CoordinatorTrace (Services cfg) cfg)
    (s : Services cfg) : Prop where
  course : Course c rid request (s.store.heap rid) names n t s
  status : (s.store.heap rid).status = .DELIVERED
  debit : (s.store.heap rid).debit = some d.toJson
  signerSet : (s.store.heap rid).signerSet = some (chosen.map (·.signerId))
  token : ∃ token, (s.store.heap rid).token = some token ∧ token.toTokenPayload = d.tokenPayload P ∧
    Frost.verifySignature P.toCurve token.signature ((d.tokenPayload P).message P)
      env.GROUP.groupPublicKey = true ∧ (rid, token) ∈ s.store.dispensed
  meterDelivery : ∃ delivery, (s.store.heap rid).meterDelivery = some delivery ∧
    delivery.verified = true ∧ delivery.dispensedKwh = some (.num (.fin d.amountKwh))
  ledger : ∃ receipt, (s.store.heap rid).ledger = some receipt ∧
    receipt.requestHash = hashValue P (some request.toJson) ∧
    receipt.signerSet = chosen.map (·.signerId)
  logged : ∃ e ∈ s.bank.debitLog, e.debit = d

section Minted

variable {token : Token} {chosen : List (SignerInfo cfg.SignerId)}

/-- An answer leaves the token as it was minted. -/
theorem Minted.answered (h : Minted P env c rid request d token chosen r names n t s)
    {q : CoordinatorCall cfg} {a : q.Answer} {s' : Services cfg}
    (hr : (purchaseRules P key member M c request rid).resume q s a s')
    (hq : isRound1 (.answered q a : Entry (Services cfg) _ _) = false) :
    Minted P env c rid request d token chosen r names n (t ++ [.answered q a]) s' :=
  ⟨h.toSecured.answered hr hq, h.token_eq, h.payload, h.verified, h.signerSet⟩

/-- A write of its own record that keeps its token leaves the token as it was minted. -/
theorem Minted.wrote (h : Minted P env c rid request d token chosen r names n t s) {w : Store cfg}
    (ha : SetsOnlyRecord rid r' s.store w) (hrequest : r'.request = r.request)
    (hdebit : r'.debit = r.debit)
    (htoken : r'.token = r.token) (hset : r'.signerSet = r.signerSet) :
    Minted P env c rid request d token chosen r' names n (t ++ [.wrote s { s with store := w }])
      { s with store := w } :=
  ⟨h.toSecured.wrote ha hrequest hdebit, htoken.trans h.token_eq, h.payload, h.verified,
    hset.trans h.signerSet⟩

/-- The meter takes the token: it is signed by the group, for this meter, and not known to the
guards. -/
theorem Minted.verified_meter (h : Minted P env c rid request d token chosen r names n t s) :
    verifyTokenForMeter P env token s.store = none := by
  have hverified : Frost.verifySignature P.toCurve token.signature
      (canonicalBytes P (some token.toTokenPayload.toJson)) env.GROUP.groupPublicKey = true := by
    rw [h.payload]
    exact h.verified
  rw [verifyTokenForMeter, h.payload, h.unspent, ← h.payload, hverified]
  rfl

/-- **Delivery**: the meter takes the token, its balance grows by the amount that was paid for, and
the record is delivered. -/
theorem wp_deliver_vended {exn : String → CoordinatorTrace (Services cfg) cfg → Services cfg → Prop}
    (h : Minted P env c rid request d token chosen r names n t s)
    (hledger : ∃ receipt, r.ledger = some receipt ∧
      receipt.requestHash = hashValue P (some request.toJson) ∧
      receipt.signerSet = chosen.map (·.signerId)) :
    wp (purchaseRules P key member M c request rid) (Services.lens cfg) (deliver P env rid token)
      (fun _ => Vended P env c rid request d chosen names n) exn t s := by
  have hkwh : token.amountKwh = some (.num (.fin d.amountKwh)) := by
    rw [h.payload]
    rfl
  obtain ⟨balance, hbalance⟩ := newBalance_num P.numeral
    (((s.store.redeem rid token).ensureMeter token.meterId).balanceOf token.meterId)
    (.fin d.amountKwh)
  rw [← hkwh] at hbalance
  rw [deliver]
  simp only [theRecord, wp_bind, wp_gets, Services.lens_view, deliverToken,
    h.verified_meter, creditMeter,
    wp_modify, Services.lens_put, hbalance, wp_ofExcept_ok, wp_pure]
  set u₁ := s.store.redeem rid token with hu₁
  set u₂ := u₁.ensureMeter token.meterId with hu₂
  set u₃ := u₂.credit rid token balance with hu₃
  have h₁ : Course c rid request r names n _ { s with store := u₁ } :=
    h.toCourse.wrote ⟨h.record, rfl, rfl⟩ rfl
  have h₂ : Course c rid request r names n _ { s with store := u₂ } :=
    h₁.wrote (w := u₂) (setsRecord_ensureMeter _ h₁.record) rfl
  have h₃ : Course c rid request r names n _ { s with store := u₃ } :=
    h₂.wrote (w := u₃) ⟨h₂.record, rfl, rfl⟩ rfl
  have hstep := setsOnlyRecord_step rid .DELIVERED ("meter " ++
    (s.store.heap rid).request.meterId ++
    " verified token & credited " ++ P.numeral.print (s.store.heap rid).request.amountKwh ++ " kWh")
    (fun r : PipelineRecord cfg =>
      { r with meterDelivery := some ⟨true, token.amountKwh, u₃.now⟩ }) u₃
  rw [show u₃.heap rid = r from h₃.record] at hstep
  have h₄ := h₃.wrote hstep.toSetsRecord rfl
  refine ⟨trivial, trivial, trivial, trivial, ?_, ?_, ?_, ?_, ?_, ?_, ?_, h.logged⟩
  · rw [hstep.own]
    exact h₄
  · exact congrArg (·.status) hstep.own
  · exact (congrArg (·.debit) hstep.own).trans h.debit
  · exact (congrArg (·.signerSet) hstep.own).trans h.signerSet
  · refine ⟨token, (congrArg (·.token) hstep.own).trans h.token_eq, h.payload, h.verified, ?_⟩
    rw [dispensed_transition]
    exact List.mem_append_right _ (List.mem_singleton_self _)
  · exact ⟨_, congrArg (·.meterDelivery) hstep.own, rfl, hkwh⟩
  · obtain ⟨receipt, hreceipt, hhash, hset⟩ := hledger
    exact ⟨receipt, (congrArg (·.ledger) hstep.own).trans hreceipt, hhash, hset⟩

end Minted

/-! ### Receipts -/

/-- A consortium with its keys, its wallets and its accounts on the ledger: what it takes to
multisign a receipt, besides the token. -/
structure Provisioned (P : Platform) (env : CoordinatorEnv cfg) (key : BankKey)
    (member : cfg.SignerId → SignerEnv cfg) (M : ConsortiumManifest cfg)
    (keys : Frost.KeygenOutput) :
    Prop extends Staffed P env key member M keys where
  /-- The wallet of a member signs what the ledger client has prepared. -/
  wallet : ∀ i ∈ cfg.SIGNERS, ∃ wallet, (member i.signerId).xrplWallet = some wallet ∧
    ∀ prepared : Json, prepared.isObject = true → ∃ fragment, wallet.sign prepared = .ok fragment
  publisher : ∃ publisher, env.publisherWallet = some publisher
  readable : env.manifest = .ok M
  encKey : ∃ encKey, env.encKey = .ok encKey
  bankKey : env.BANK_PUBLIC_KEY = key.publicKey P

/-- An object arrives as an object. -/
theorem isObject_sent {v : Json} (h : v.isObject = true) : (sent v).isObject = true := by
  cases v with
  | obj fields => rfl
  | arr xs =>
      rw [sent_arr]
      rfl
  | _ => cases h

/-- An object is truthy. -/
theorem truthy_of_isObject {v : Json} (h : v.isObject = true) : v.truthy = true := by
  cases v with
  | obj fields => rfl
  | arr xs => rfl
  | _ => cases h

/-- A member of the signer set gives its fragment of the receipt, since it is online, has a wallet
and finds the approvals. -/
theorem fragment_of_serviced (hprovisioned : Provisioned P env key member M keys)
    {i : SignerInfo cfg.SignerId} (hi : i ∈ cfg.SIGNERS)
    (honline : (s.member i.signerId).online = true) {prepared : Json}
    (hprepared : prepared.isObject = true) {a : Option HttpResult} {s' : Services cfg}
    (ha : Serviced P key member M c request s s' (.signReceipt i
      (object [("prepared", some prepared),
      ("requestHash", some (.str (hashValue P (some request.toJson))))])) a) :
    ∃ fragment, fragmentOf P i.signerId a = .ok fragment := by
  obtain ⟨m, answer, hm, hserves, rfl⟩ := ha
  obtain ⟨wallet, hwallet, hsigns⟩ := hprovisioned.wallet i hi
  obtain ⟨fragment, hfragment⟩ := hsigns (sent prepared) (isObject_sent hprepared)
  have hget : ∀ k, prop? (some (sent (object [("prepared", some prepared),
      ("requestHash", some (.str (hashValue P (some request.toJson))))]))) k =
        (List.lookup k [("prepared", some prepared),
          ("requestHash", some (.str (hashValue P (some request.toJson))))]).join.map sent := by
    intro k
    rw [prop?_some, get?_sent_object (by simp)]
  obtain rfl := fragment_of_signReceipt (hm.trans honline) hwallet (hprovisioned.manifest i hi)
    (hget "prepared") (truthy_of_isObject (isObject_sent hprepared))
    (hget "requestHash") hfragment hserves
  have hbody : ((Response.json (object [signerField (member i.signerId),
      ("fragment", some (.str fragment))])).arrived P).body P = sent (object [signerField
        (member i.signerId), ("fragment", some (.str fragment))]) := body_arrived _
  have hfound :
    (sent (object [signerField (member i.signerId), ("fragment", some (.str fragment))])).get?
      "fragment" = some (.str fragment) := by
    rw [get?_sent_object (by simp [signerField])]
    rfl
  refine ⟨fragment, ?_⟩
  rw [fragmentOf, hbody, hfound]
  rfl

section Receipt

variable {token : Token} {chosen : List (SignerInfo cfg.SignerId)} {publication : Publication}

/-- The fragments of the signers are all collected. Induction on those that are left. -/
theorem wp_collectFragments_signed {exn : String → CoordinatorTrace (Services cfg) cfg →
    Services cfg → Prop}
    {signers : List (SignerInfo cfg.SignerId)} {body : Json}
    {post : List String → CoordinatorTrace (Services cfg) cfg → Services cfg → Prop}
    (hsigned : ∀ i ∈ signers, ∀ t s a s', Minted P env c rid request d token chosen r names n t s →
      (purchaseRules P key member M c request rid).resume (.signReceipt i body) s a s' →
      ∃ fragment, fragmentOf P i.signerId a = .ok fragment)
    (hpost : ∀ fragments t s, Minted P env c rid request d token chosen r names n t s →
      post fragments t s)
    (h : Minted P env c rid request d token chosen r names n t s) :
    wp (purchaseRules P key member M c request rid) (Services.lens cfg)
    (collectFragments P body signers)
      post exn t s := by
  induction signers generalizing t s post with
  | nil => exact hpost [] t s h
  | cons i signers ih =>
      rw [collectFragments]
      simp only [wp_bind, wp_call]
      refine ⟨trivial, fun a s' hr => ?_⟩
      obtain ⟨fragment, hfragment⟩ := hsigned i List.mem_cons_self t s a s' h hr
      rw [hfragment, wp_ofExcept_ok, wp_bind]
      exact ih (fun j hj => hsigned j (List.mem_cons_of_mem _ hj))
        (fun fragments t s h => hpost (fragment :: fragments) t s h) (h.answered hr rfl)

/-- The signers of a set are found in the registry, in their order. -/
theorem filterMap_find_registered (h : Registered chosen) :
    ((chosen.map (·.signerId)).filterMap fun sid => cfg.SIGNERS.find? (·.signerId = sid)) =
      chosen := by
  have hfind : ∀ i ∈ cfg.SIGNERS,
      (cfg.SIGNERS.find? fun j => j.signerId = i.signerId) = some i := by
    intro i hi
    have hsome : (cfg.SIGNERS.find? fun j => j.signerId = i.signerId).isSome :=
      List.find?_isSome.mpr ⟨i, hi, decide_eq_true rfl⟩
    obtain ⟨j, hj⟩ := Option.isSome_iff_exists.mp hsome
    have hid : j.signerId = i.signerId := by simpa using List.find?_some hj
    rwa [List.inj_on_of_nodup_map cfg.nodup_signerId (List.mem_of_find?_eq_some hj) hi hid] at hj
  rw [List.filterMap_map]
  refine (List.filterMap_congr fun i hi => ?_).trans (List.filterMap_some (l := chosen))
  exact hfind i (h.mem i hi)

/-- **The receipt** is accepted by the ledger, and the token is delivered: from the signature on
nothing can turn the purchase down. -/
theorem wp_settleReceipt_vended {exn : String → CoordinatorTrace (Services cfg) cfg →
    Services cfg → Prop}
    (hprovisioned : Provisioned P env key member M keys) (hchosen : Registered chosen)
    (hroster : ∀ i ∈ chosen, c.online i.signerId = true)
    (hhash : publication.requestHash = hashValue P (some request.toJson))
    (h : Minted P env c rid request d token chosen r names n t s) :
    wp (purchaseRules P key member M c request rid) (Services.lens cfg)
      (settleReceipt P env rid publication token (chosen.map (·.signerId)))
      (fun _ => Vended P env c rid request d chosen names n) exn t s := by
  have href : sha256HexOf P (prop? r.debit "debitRef") = .ok (sha256HexStr P d.debitRef) := by
    rw [h.debit, prop?_some, ← d.sent_toJson, d.get?_debitRef]
    rfl
  rw [settleReceipt]
  simp only [theRecord, wp_bind, wp_gets, Services.lens_view, h.verified_meter,
    wp_modify, Services.lens_put]
  refine ⟨trivial, ?_⟩
  have h₁ := h.wrote (w := Store.setStage rid .LEDGER s.store) ⟨⟨h.record, rfl, rfl⟩, rfl, rfl, rfl⟩
    rfl rfl rfl rfl
  generalize ({ s with store := Store.setStage rid .LEDGER s.store } : Services cfg) = s₁ at h₁ ⊢
  simp only [wp_tryCatch, wp_map, multisignReceipt, theRecord, wp_bind, wp_gets, Services.lens_view,
    h₁.record, href, hhash, wp_ofExcept_ok, hprovisioned.readable, wp_call]
  refine ⟨trivial, fun a s₂ hr => ?_⟩
  obtain ⟨prepared, rfl, hobject⟩ := hr.2
  have h₂ := h₁.answered hr rfl
  rw [wp_ofExcept_ok, filterMap_find_registered hchosen, wp_bind]
  refine wp_collectFragments_signed (fun i hi t s a s' h hr => fragment_of_serviced hprovisioned
    (hchosen.mem i hi) ((h.online i.signerId).trans (hroster i hi)) hobject hr.2)
    (fun fragments t s h => ?_) h₂
  simp only [wp_bind, wp_call]
  refine ⟨trivial, fun a s' hr => ?_⟩
  obtain ⟨txHash, rfl⟩ := hr.2
  have h₃ := h.answered hr rfl
  simp only [wp_ofExcept_ok, wp_modify, wp_pure, wp_bind, Services.lens_view, Services.lens_put]
  refine ⟨trivial, trivial, ?_⟩
  have h₄ := h₃.wrote (w := s'.store.receive rid txHash) ⟨⟨h₃.record, rfl, rfl⟩, rfl, rfl, rfl⟩
    rfl rfl rfl rfl
  set receipt : LedgerRecord cfg :=
    { requestHash := hashValue P (some request.toJson)
      debitRefHash := sha256HexStr P d.debitRef
      tokenHash := hashValue P (some token.toJson)
      signerSet := chosen.map (·.signerId)
      timestamp := s₁.store.now
      txHash
      multisign := true
      requestTxHash := publication.requestTxHash } with hreceipt
  set u := (s'.store.receive rid txHash).update rid fun r : PipelineRecord cfg =>
    { r with ledger := some receipt } with hu
  have hupdate := setsOnlyRecord_update rid (fun r : PipelineRecord cfg =>
    { r with ledger := some receipt })
    (s'.store.receive rid txHash)
  rw [show (s'.store.receive rid txHash).heap rid = r from h₃.record, ← hu] at hupdate
  have haudit : SetsOnlyRecord rid { r with ledger := some receipt } u (Store.addAudit receipt u) :=
    ⟨⟨hupdate.own, rfl, rfl⟩, rfl, rfl, rfl⟩
  have hmoved := setsOnlyRecord_transition rid .RECORDED ("2-of-3 multisign receipt: " ++ txHash)
    (Store.addAudit receipt u)
  rw [haudit.own] at hmoved
  exact wp_deliver_vended (h₄.wrote ((hupdate.trans haudit).trans hmoved) rfl rfl rfl rfl)
    ⟨receipt, rfl, rfl, rfl⟩

end Receipt

end Course

end NoGhost
