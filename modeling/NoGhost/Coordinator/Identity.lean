import NoGhost.Coordinator.Conservation

/-!
# Identifiers

What holds while no identifier is accepted twice. The table of requests holds the newest ones, so
an identifier is accepted again exactly when it is submitted after it has left the table; a
scenario draws its identifier at random and never looks it up. With identifiers that come once,
a debit belongs to one run, and a run that was paid by a debit is not overtaken at the meter.

## Main results

* `ValidOnce.valid`, `once_sound`: a coordinator whose identifiers come once.
* `request_idempotency`: when a request is accepted at most once.
* `receipts_delivered`: every receipt is that of a delivery.
-/

open Js Async

namespace NoGhost

variable {cfg : Config} {σ : Type} {P : Platform} {env : CoordinatorEnv cfg}

/-! ### Identifiers that come once -/

/-- The request is not made under an identifier that was accepted and is not known any more, nor
under one that a request in progress may yet be accepted under. -/
def Once (L : Lens σ (Store cfg)) (c : CoordinatorPool σ cfg) (req : CoordinatorRequest) : Prop :=
  ∀ x, req.requestId? = some x →
    ((∃ kind uuid watchdog, req = .scenario kind uuid watchdog) ∨
      (L.view c.state).getRequest x = none →
      x ∉ (L.view c.state).acceptedIds) ∧
    ∀ p ∈ c.procs, p.Suspended → p.req.requestId? = some x →
      (L.view p.start).created ∈ (L.view c.state).accepters

namespace Setting

/-- The same setting, with identifiers that come once. -/
def once (S : Setting cfg σ) : Setting cfg σ :=
  { S with
    extra := fun s => (S.L.view s).acceptedIds.Nodup ∧ S.extra s
    fit := fun s x => x ∉ (S.L.view s).acceptedIds
    strict := True }

variable (S : Setting cfg σ) (P : Platform) (env : CoordinatorEnv cfg)

/-- What a setting has to keep when identifiers come once: that which is known of the rest, under
each kind of step, where the accepted identifiers are distinct. -/
structure ValidOnce : Prop where
  sameBooks : ∀ {s : σ} {u' : Store cfg}, S.extra s → SameBooks (S.L.view s) u' →
  S.extra (S.L.put s u')
  accept : ∀ {s : σ} {rid : ℕ} {request : GenerationRequest},
    Books P env (S.once.outside P) (S.L.view s) → (S.L.view s).acceptedIds.Nodup → S.extra s →
      rid ∉ (S.L.view s).accepters → request.requestId ∉ (S.L.view s).acceptedIds →
        S.extra (S.L.put s ((S.L.view s).createRecord rid request))
  move : ∀ {s : σ} {rid : ℕ} {t : CoordinatorTrace σ cfg} {u' : Store cfg},
    Books P env (S.once.outside P) (S.L.view s) → (S.L.view s).acceptedIds.Nodup → S.extra s →
      rid ∈ (S.L.view s).accepters → Move P env (S.once.outside P) rid t s (S.L.view s) u' →
        S.extra (S.L.put s u')
  world : ∀ {s s' : σ}, S.extra s → S.moves s s' → S.extra s'
  moves_sameBooks : ∀ {s s' : σ}, S.moves s s' → SameBooks (S.L.view s) (S.L.view s')

variable {S P env}

/-- A setting that is valid where no identifier comes twice is valid when that is asked for. -/
theorem ValidOnce.valid (h : S.ValidOnce P env) : S.once.Valid P env where
  free hstrict := absurd trivial hstrict
  sameBooks {s u'} hextra hd := by
    refine ⟨?_, h.sameBooks hextra.2 hd⟩
    change (S.L.view (S.L.put s u')).acceptedIds.Nodup
    rw [S.L.view_put, acceptedIds_of_accepted hd.accepted]
    exact hextra.1
  accept {s rid request} hb hextra hnew hfit := by
    refine ⟨?_, h.accept hb hextra.1 hextra.2 hnew hfit⟩
    change (S.L.view (S.L.put s ((S.L.view s).createRecord rid request))).acceptedIds.Nodup
    rw [S.L.view_put, acceptedIds_createRecord]
    exact List.nodup_cons.mpr ⟨hfit, hextra.1⟩
  move {s rid t u'} hb hextra hrid hm := by
    refine ⟨?_, h.move hb hextra.1 hextra.2 hrid hm⟩
    change (S.L.view (S.L.put s u')).acceptedIds.Nodup
    rw [S.L.view_put, acceptedIds_of_accepted hm.effect.table.accepted]
    exact hextra.1
  world {s s'} hextra hmoves := by
    refine ⟨⟨?_, h.world hextra.2 hmoves⟩, h.moves_sameBooks hmoves⟩
    rw [acceptedIds_of_accepted (h.moves_sameBooks hmoves).accepted]
    exact hextra.1
  fit_sameBooks {s u' x} hfit hd := by
    change x ∉ (S.L.view (S.L.put s u')).acceptedIds
    rw [S.L.view_put, acceptedIds_of_accepted hd.accepted]
    exact hfit
  fit_accept {s rid request x} _ _ hfit hne := by
    change x ∉ (S.L.view (S.L.put s ((S.L.view s).createRecord rid request))).acceptedIds
    rw [S.L.view_put, acceptedIds_createRecord]
    exact List.not_mem_cons_of_ne_of_not_mem hne.symm hfit
  fit_move {s rid t u' x} _ hfit _ hm := by
    change x ∉ (S.L.view (S.L.put s u')).acceptedIds
    rw [S.L.view_put, acceptedIds_of_accepted hm.effect.table.accepted]
    exact hfit
  fit_world {s s' x} hfit hmoves := by
    change x ∉ (S.L.view s').acceptedIds
    rw [acceptedIds_of_accepted (h.moves_sameBooks hmoves).accepted]
    exact hfit

/-- **Identifiers that come once.** Every state that is reached meets the invariant, where each
submission has an identifier of its own. -/
theorem once_sound (hv : S.ValidOnce P env) {s : σ} {now : String} {randomBytes : Bytes}
    (hview : S.L.view s = Store.boot cfg now randomBytes) (hextra : S.extra s)
    {admitted : CoordinatorPool σ cfg → CoordinatorRequest → Prop}
    (hadm : ∀ c req, S.once.Inv P env c.state → admitted c req → Once S.L c req)
    {c : CoordinatorPool σ cfg} (h : (S.game P env).Reaches admitted s c) :
    S.once.Inv P env c.state := by
  refine (Setting.sound hv.valid (Setting.inv_boot hview ⟨?_, hextra⟩)
    (fun c req hgood hreq => ?_) h).inv
  · rw [hview]
    exact List.nodup_nil
  · have honce := hadm c req hgood.inv hreq
    exact ⟨fun x hx hnew => (honce x hx).1 hnew,
      fun _ p hp hsusp x hx hpx => (honce x hx).2 p hp hsusp hpx⟩

end Setting

/-! ### Requests that come again -/

section Again

variable {body : Option Json} {uuid : String} {fields : RequestFields} {u u' : Store cfg}

/-- A submission that is well formed is looked up. -/
theorem settle_postRequest (hfields : requestFields (bodyOrEmpty body) uuid = .ok fields) :
    (postRequest P env body uuid).settle u =
      (match u.getRequest fields.requestId with
        | some _ => pure (existing fields.requestId)
        | none => do
            if !(← Prog.modifyGet (Store.rateLimitOk (trim fields.merchantId))) then
              pure ⟨429, rateLimited fields.merchantId⟩
            else do
              Prog.modify fun s => s.createRecord u.created (fields.request s.now)
              launch P env u.created
              pure ⟨202, object [("requestId", some (.str fields.requestId))]⟩ :
        CoordinatorProg cfg Response).settle u.reserve.2 := by
  rw [postRequest, Prog.settle_bind_ret (a := u.created) (t := u.reserve.2) _ rfl, hfields]
  exact Prog.settle_bind_ret (a := u.getRequest fields.requestId) _ rfl

/-- A request that is known is not made again. -/
theorem postRequest_known {i : ℕ} (hfields : requestFields (bodyOrEmpty body) uuid = .ok fields)
    (h : u.getRequest fields.requestId = some i) :
    (postRequest P env body uuid).settle u = (.ret (existing fields.requestId), u.reserve.2) := by
  rw [settle_postRequest hfields, h]
  rfl

variable (P env) in
/-- A request that is unknown is accepted, if the rate limit permits. -/
theorem settle_postRequest_new {u₂ : Store cfg}
    (hfields : requestFields (bodyOrEmpty body) uuid = .ok fields)
    (hnew : u.getRequest fields.requestId = none)
    (hlimit : u.reserve.2.rateLimitOk (trim fields.merchantId) = (true, u₂)) :
    (postRequest P env body uuid).settle u =
      (launch P env u.created >>= fun _ =>
        pure ⟨202, object [("requestId", some (.str fields.requestId))]⟩ :
          CoordinatorProg cfg Response).settle
        (u₂.createRecord u.created (fields.request u₂.now)) := by
  have hmodify : (Prog.modifyGet (Store.rateLimitOk (trim fields.merchantId)) :
      CoordinatorProg cfg Bool).settle u.reserve.2 = (.ret true, u₂) :=
    congrArg (fun out : Bool × Store cfg => (Prog.ret out.1, out.2)) hlimit
  rw [settle_postRequest hfields, hnew]
  dsimp only
  rw [Prog.settle_bind_ret _ hmodify]
  exact Prog.settle_bind_ret (a := ()) _ rfl

/-- What a submission of an unknown identifier returns does not say that it exists. -/
theorem existing_of_settle {x : String}
    (hfields : requestFields (bodyOrEmpty body) uuid = .ok fields)
    (h : (postRequest P env body uuid).settle u = (.ret (existing x), u')) :
    u.getRequest fields.requestId ≠ none := by
  intro hget
  rw [settle_postRequest hfields, hget] at h
  dsimp only at h
  rw [Prog.settle_bind_ret (a := (u.reserve.2.rateLimitOk (trim fields.merchantId)).1)
    (t := (u.reserve.2.rateLimitOk (trim fields.merchantId)).2) _ rfl] at h
  split at h
  · cases h
  · rw [Prog.settle_bind_ret (a := ())
      (t := (u.reserve.2.rateLimitOk (trim fields.merchantId)).2.createRecord u.created
        (fields.request (u.reserve.2.rateLimitOk (trim fields.merchantId)).2.now)) _ rfl] at h
    cases Prog.ret_of_settle_bind_pure h

end Again

/-- While no identifier comes twice, the table knows the newest ones. -/
theorem Table.getRequest_iff {u : Store cfg} (ht : Table u) (hnd : u.acceptedIds.Nodup)
    {x : String} :
    u.getRequest x ≠ none ↔ x ∈ u.acceptedIds.take REQUEST_CAP := by
  have hkeys : u.requests.map (·.1) = (u.acceptedIds.take REQUEST_CAP).reverse := by
    rw [ht.newest hnd, List.map_map, List.map_reverse, Store.acceptedIds, ← List.map_take]
    rfl
  rw [← List.mem_reverse, ← hkeys, List.mem_map]
  constructor
  · intro hget
    obtain ⟨i, hi⟩ := Option.ne_none_iff_exists'.mp hget
    exact ⟨(x, i), JsMap.mem_of_get hi, rfl⟩
  · rintro ⟨⟨x, i⟩, he, rfl⟩ hget
    rw [Store.getRequest, ht.keys.get_of_mem he] at hget
    cases hget

/-- A submission comes before its identifier has left the table, and the identifiers that are drawn
are new. -/
def Timely (c : CoordinatorPool (Store cfg) cfg) (req : CoordinatorRequest) : Prop :=
  ∀ x, req.requestId? = some x →
    (match req with
      | .post _ _ => x ∉ c.state.acceptedIds.drop REQUEST_CAP
      | .scenario _ _ _ => x ∉ c.state.acceptedIds) ∧
    ∀ p ∈ c.procs, p.Suspended → p.req.requestId? = some x → p.start.created ∈ c.state.accepters

/-- A request that comes in time has an identifier of its own. -/
theorem Timely.once {c : CoordinatorPool (Store cfg) cfg} {req : CoordinatorRequest}
    (h : Timely c req) (ht : Table c.state) (hnd : c.state.acceptedIds.Nodup) :
    Once (Lens.whole _) c req := by
  intro x hx
  obtain ⟨hnew, hprocs⟩ := h x hx
  refine ⟨fun hunknown => ?_, hprocs⟩
  cases req with
  | post body uuid =>
      rcases hunknown with ⟨kind, uuid', watchdog, heq⟩ | hget
      · cases heq
      · have htake : x ∉ c.state.acceptedIds.take REQUEST_CAP := fun hin =>
          (ht.getRequest_iff hnd).mpr hin hget
        change x ∉ c.state.acceptedIds
        rw [← List.take_append_drop REQUEST_CAP c.state.acceptedIds, List.mem_append, not_or]
        exact ⟨htake, hnew⟩
  | scenario kind uuid watchdog => exact hnew

/-- A setting with nothing on top of the books. -/
theorem Setting.single_validOnce (answers : (q : CoordinatorCall cfg) → q.Answer → Prop) :
    (Setting.single answers).ValidOnce P env where
  sameBooks _ _ := trivial
  accept _ _ _ _ _ := trivial
  move _ _ _ _ _ := trivial
  world _ _ := trivial
  moves_sameBooks h := h.sameBooks

/-- **Request idempotency.** As long as every submission comes before its identifier has left the
table, and drawn identifiers are new, no identifier is accepted twice; and what was accepted
is answered as existing exactly while it is among the newest. -/
theorem request_idempotency {now : String} {randomBytes : Bytes}
    {c : CoordinatorPool (Store cfg) cfg}
    (h : (singleGame P env fun _ _ => True).Reaches Timely (Store.boot cfg now randomBytes) c) :
    c.state.acceptedIds.Nodup ∧ ∀ body uuid x,
      (CoordinatorRequest.post body uuid).requestId? = some x → x ∈ c.state.acceptedIds →
        (((postRequest P env body uuid).settle c.state).1 = .ret (existing x) ↔
          x ∈ c.state.acceptedIds.take REQUEST_CAP) := by
  have hinv := Setting.once_sound (Setting.single_validOnce fun _ _ => True) rfl trivial
    (fun c req hinv hreq => hreq.once hinv.books.table hinv.extra.1) h
  have hnd : c.state.acceptedIds.Nodup := hinv.extra.1
  have htable : Table c.state := hinv.books.table
  refine ⟨hnd, fun body uuid x hx _ => ?_⟩
  rw [← htable.getRequest_iff hnd]
  cases hfields : requestFields (bodyOrEmpty body) uuid with
  | error e =>
      simp only [CoordinatorRequest.requestId?, hfields] at hx
      cases hx
  | ok fields =>
      obtain rfl : fields.requestId = x := Option.some.inj
        ((Setting.post_requestId? hfields).symm.trans hx)
      constructor
      · intro hret
        exact existing_of_settle hfields (Prod.ext hret rfl)
      · intro hget
        obtain ⟨i, hi⟩ := Option.ne_none_iff_exists'.mp hget
        rw [postRequest_known hfields hi]

/-- At boot, everything is new. -/
theorem small_timely (req : CoordinatorRequest) :
    Timely ⟨Store.boot config "2025-01-01T00:00:00.000Z" [], []⟩ req := fun x _ =>
  ⟨by cases req <;> exact List.not_mem_nil, fun p hp => (nomatch hp)⟩

/-- The small request, submitted again after the purchase. -/
theorem request_idempotency_small :
    ((postRequest Small.platform Small.coordinatorEnv (some (.obj [("requestId", .str "REQ-1"),
      ("meterId", .str "MTR-1001"), ("merchantId", .str "MER-001"), ("amountKwh", .num (.fin 10))]))
      "").settle Small.bought.state).1 = .ret (existing "REQ-1") := by
  have hids : Small.bought.state.acceptedIds = ["REQ-1"] := by
    rw [Store.acceptedIds, small_bought_delivered.2.2.1]
    rfl
  obtain ⟨-, hagain⟩ := request_idempotency
    (coordinatorGame_mono (fun _ _ _ _ => trivial) (fun _ _ h => h) (fun _ _ h => h)
      (small_bought _ (small_timely _)))
  refine (hagain _ _ "REQ-1" ?_ ?_).mpr ?_
  · decide +kernel
  · rw [hids]
    decide
  · rw [hids]
    decide

/-! ### Receipts -/

/-- The bank's debits are typed, and their references are in `R`. -/
def DebitsIn (P : Platform) (env : CoordinatorEnv cfg) (R : Set String) :
    (q : CoordinatorCall cfg) → q.Answer → Prop
  | .debit _ _, answer => ∀ r : HttpResult, answer = some r →
      verifyAttestation P env (r.body P) = true →
        TypedDebit (r.body P) ∧ ∀ ref, (r.body P).get? "debitRef" = some (.str ref) → ref ∈ R
  | _, _ => True

/-- The nonces of the references in `R` do not collide. -/
def NoncesApart (P : Platform) (R : Set String) : Prop :=
  ∀ a ∈ R, ∀ b ∈ R, ∀ nonce, deriveTokenNonce P (some (.str a)) = .ok nonce →
    deriveTokenNonce P (some (.str b)) = .ok nonce → a = b

/-- The debits of the records are typed, with references in `R`. -/
def DebitsOn (R : Set String) (u : Store cfg) : Prop :=
  ∀ i d, (u.heap i).debit = some d →
    TypedDebit d ∧ ∀ ref, d.get? "debitRef" = some (.str ref) → ref ∈ R

/-- Two runs that were paid by debits of one nonce are runs on one identifier. -/
theorem Core.overtaken {u : Store cfg} {R : Set String} (hcore : Core P u) (hdebits : DebitsOn R u)
    (hR : NoncesApart P R) (hnd : u.acceptedIds.Nodup) {i : ℕ} {payload : TokenPayload}
    (hcharged : (u.account i).Charged) (hunredeemed : (u.deeds i).redemptions = [])
    (hpayload : buildTokenPayload P (u.heap i).debit = .ok payload) :
    u.redeemed payload = false := by
  by_contra hredeemed
  rw [Bool.not_eq_false, hcore.guards.redeemed_iff] at hredeemed
  obtain ⟨e, he, hsame⟩ := hredeemed
  obtain ⟨hcharged', htoken, d', hd', hpayload'⟩ := hcore.redeemers e he
  cases hdebit : (u.heap i).debit with
  | none =>
      rw [hdebit] at hpayload
      cases hpayload
  | some d =>
      rw [hdebit] at hpayload
      obtain ⟨htyped, hin⟩ := hdebits i d hdebit
      obtain ⟨htyped', hin'⟩ := hdebits e.1 d' hd'
      obtain ⟨ref, href, -⟩ := htyped.debitRef
      obtain ⟨ref', href', -⟩ := htyped'.debitRef
      have hpref : payload.debitRef = some (.str ref) :=
        (buildTokenPayload_ok hpayload).2.2.trans href
      have hpref' : e.2.debitRef = some (.str ref') :=
        (buildTokenPayload_ok hpayload').2.2.trans href'
      obtain rfl : ref = ref' := by
        rcases hsame with hnonce | hbeq
        · have hn := buildTokenPayload_nonce hpayload
          have hn' := buildTokenPayload_nonce hpayload'
          rw [hpref] at hn
          rw [hpref', hnonce] at hn'
          exact hR ref (hin ref href) ref' (hin' ref' href') _ hn hn'
        · rw [hpref, hpref'] at hbeq
          have := eq_of_beq_ref hbeq
          simpa using this
      have hid := hcore.claims.apart hcharged hcharged' hdebit hd' (by
        rw [href, href']
        exact beq_ref_str ref)
      obtain rfl := hcore.ownRecords.eq_of_id hnd (hcore.ownRecords.mem_of_charged hcharged)
        (hcore.ownRecords.mem_of_charged hcharged') hid
      have hmem := mem_ofRun.mpr (show (e.1, e.2) ∈ u.redemptions from he)
      rw [show ofRun e.1 u.redemptions = [] from hunredeemed] at hmem
      cases hmem

/-- A coordinator whose debits are typed and have references in `R`. -/
def Setting.debitsIn (P : Platform) (env : CoordinatorEnv cfg) (R : Set String) :
    Setting cfg (Store cfg) :=
  { Setting.single (DebitsIn P env R) with extra := DebitsOn R }

/-- Such a setting is valid where no identifier comes twice. -/
theorem Setting.debitsIn_validOnce (R : Set String) :
    (Setting.debitsIn P env R).ValidOnce P env where
  sameBooks {s u'} hextra hd i d hdebit :=
    hextra i d ((congrArg PipelineRecord.debit (congrFun hd.heap i)).symm.trans hdebit)
  accept {s rid request} _ _ hextra _ _ i d hdebit := by
    rcases eq_or_ne i rid with rfl | hi
    · cases (congrArg PipelineRecord.debit heap_createRecord_self).symm.trans hdebit
    · exact hextra i d ((congrArg PipelineRecord.debit (heap_createRecord hi)).symm.trans hdebit)
  move {s rid t u'} _ _ hextra _ hm i d hdebit := by
    change (u'.heap i).debit = some d at hdebit
    rcases eq_or_ne i rid with rfl | hi
    · rcases hm.paid with hsame | ⟨-, answer, htells, ⟨r, hr, -, hverified, -⟩, hanswer⟩
      · exact hextra i d (hsame.symm.trans hdebit)
      · obtain rfl : answer = r := Option.some.inj hr
        obtain rfl : answer.body P = d := Option.some.inj (hanswer.symm.trans hdebit)
        exact htells answer rfl hverified
    · rw [hm.heap_of_ne hi] at hdebit
      exact hextra i d hdebit
  world {s s'} hextra hq i d hdebit := hextra i d (by rwa [← hq.heap])
  moves_sameBooks h := h.sameBooks

/-- **No orphan receipts.** Runs on identifiers of their own may interleave in any way: if the
nonces of the bank's debits do not collide, every run whose receipt was accepted is delivered. -/
theorem receipts_delivered {R : Set String} (hR : NoncesApart P R) {now : String}
    {randomBytes : Bytes} {c : CoordinatorPool (Store cfg) cfg}
    (h : (singleGame P env (DebitsIn P env R)).Reaches (Once (Lens.whole _))
      (Store.boot cfg now randomBytes) c) {i : ℕ} {txHash : String}
    (hreceipt : (i, txHash) ∈ c.state.receipts) : (c.state.heap i).status = .DELIVERED := by
  have hinv := Setting.once_sound (Setting.debitsIn_validOnce R) rfl
    (fun _ _ hdebit => by cases hdebit) (fun _ _ _ honce => honce) h
  rcases (hinv.rests i).receipts with hnone | hdelivered | ⟨t, hlate⟩
  · have hmem := mem_ofRun.mpr hreceipt
    rw [show ofRun i c.state.receipts = [] from hnone] at hmem
    cases hmem
  · exact hdelivered
  · exfalso
    cases hlate with
    | @overtaken s s' payload hmoves haccount hstatus hunredeemed hpayload hspent =>
        obtain ⟨hcore, hnd, hdebits⟩ := hmoves
        have hheap : Store.heap s' i = Store.heap s i := congrArg Account.record haccount
        have hdeeds : Store.deeds s' i = Store.deeds s i := congrArg Account.deeds haccount
        refine Bool.false_ne_true ((Core.overtaken hcore hdebits hR hnd (i := i) (.inl ?_)
          (hdeeds ▸ hunredeemed) (hheap ▸ hpayload)).symm.trans hspent)
        have hstatus' : (Store.heap s' i).status = .APPROVED ∨ (Store.heap s' i).status = .SIGNED :=
          hheap ▸ hstatus
        rcases hstatus' with hstatus' | hstatus' <;>
          exact ⟨fun hpending => RequestStatus.noConfusion (hstatus'.symm.trans hpending),
            fun hrejected => RequestStatus.noConfusion (hstatus'.symm.trans hrejected)⟩
    | unaddable hdebited htoken hbalance =>
        obtain ⟨r, ⟨-, s, htells⟩, -, rfl⟩ := hdebited.heard
        obtain ⟨n, hn⟩ := (htells r rfl hdebited.verified).1.amountKwh
        rw [(buildTokenPayload_ok htoken).2.1, hn] at hbalance
        cases hbalance

/-- The receipt of the small purchase. -/
theorem receipts_delivered_small : (Small.bought.state.heap 0).status = .DELIVERED := by
  have hdebit : ∀ q, DebitsIn Small.platform Small.coordinatorEnv {"DBT-1"} q
    (Small.working q) := by
    intro q
    cases q with
    | debit rid body =>
        intro r hr _
        obtain rfl := Option.some.inj hr
        refine ⟨small_typed, fun ref href => ?_⟩
        rw [small_body] at href
        cases href
        rfl
    | _ => trivial
  refine receipts_delivered (R := {"DBT-1"}) (fun a ha b hb _ _ _ => ha.trans hb.symm)
    (coordinatorGame_mono (fun _ q r hr => hr ▸ hdebit q) (fun _ _ h => h) (fun _ _ h => h)
      (small_bought (Once (Lens.whole _)) fun x _ => ⟨fun _ => List.not_mem_nil,
        fun p hp => (nomatch hp)⟩)) (show (0, "T4") ∈ Small.bought.state.receipts from ?_)
  rw [small_bought_delivered.2.1]
  exact List.mem_singleton.mpr rfl

end NoGhost
