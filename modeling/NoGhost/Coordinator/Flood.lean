import NoGhost.Coordinator.Identity

/-!
# A Flood of Requests

The table of requests holds the newest 200, and every submission that is accepted takes a place,
also one that is turned away at the policy gate. Submissions for merchants that nobody knows are
turned away at once, and no two of them share a rate limit; 200 of them drive every older
request out of the table, in any system that a coordinator is a part of.

## Main results

* `settle_flood`: a submission for an unknown merchant.
* `flood`: any number of them.
* `Flooded.forgotten`: 200 of them leave nothing older in the table.
* `accepted_twice`: a purchase that is made again after a flood.
-/

open Js Async

namespace NoGhost

variable {cfg : Config} {P : Platform} {env : CoordinatorEnv cfg}

/-! ### Submissions for unknown merchants -/

/-- The identifier, and the merchant, of a submission of the flood. -/
def floodId (k : ℕ) : String := .ofList (List.replicate (k + 1) 'x')

/-- A submission of the flood: an identifier and a merchant of its own, both unknown. -/
def floodRequest (k : ℕ) : CoordinatorRequest :=
  .post (some (.obj [("requestId", .str (floodId k)), ("meterId", .str "M"),
    ("merchantId", .str (floodId k)), ("amountKwh", .num (.fin 1))])) ""

/-- The identifiers of the flood are distinct. -/
theorem floodId_injective : Function.Injective floodId := fun j k h => by
  have hlen := congrArg (·.toList.length) h
  simpa [floodId] using hlen

/-- The identifiers of the flood have no blanks to trim. -/
theorem trim_floodId (k : ℕ) : trim (floodId k) = floodId k := by
  have hdrop : ∀ k, (List.replicate (k + 1) 'x').dropWhile isSpace = List.replicate (k + 1) 'x' :=
    fun k => List.dropWhile_cons_of_neg (by decide)
  rw [trim, floodId, String.toList_ofList, hdrop, List.reverse_replicate, hdrop,
    List.reverse_replicate]

/-- No identifier of the flood is empty. -/
theorem floodId_ne_empty (k : ℕ) : floodId k ≠ "" := by
  simp [floodId, String.ext_iff, List.replicate_succ]

/-- The fields of a submission of the flood pass the checks of the handler. -/
theorem requestFields_flood (k : ℕ) :
    requestFields (bodyOrEmpty (some (.obj [("requestId", .str (floodId k)), ("meterId", .str "M"),
      ("merchantId", .str (floodId k)), ("amountKwh", .num (.fin 1))]))) "" =
        .ok ⟨floodId k, "M", 1, floodId k⟩ := by
  have htext : ∀ message, nonEmpty (some (.str (floodId k))) message = .ok (floodId k) :=
    fun message => by rw [nonEmpty, trim_floodId, if_neg (floodId_ne_empty k)]
  have hmeter : ∀ message, nonEmpty (some (.str "M")) message = .ok "M" := fun _ => rfl
  have hamount : ∀ message, positive (some (.num (.fin 1))) message = .ok 1 := fun _ => rfl
  have hid : requestIdOf (some (.str (floodId k))) "" = .ok (floodId k) := by
    rw [requestIdOf, htext]
    exact congrArg Except.ok (trim_floodId k)
  change (do
    let meterId ← nonEmpty (some (.str "M")) _
    let merchantId ← nonEmpty (some (.str (floodId k))) _
    let amountKwh ← positive (some (.num (.fin 1))) _
    let requestId ← requestIdOf (some (.str (floodId k))) ""
    pure { requestId, meterId, amountKwh, merchantId } : Except String RequestFields) = _
  rw [hmeter, htext, hamount, hid]
  rfl

/-- What a submission for an unknown merchant leaves as it is: all but its own record, the table and
the log. -/
structure Untouched (cfg : Config) where
  merchants : List Merchant
  members : List (cfg.SignerId × MemberStatus)
  clock : ℤ
  consumedDebitRefs : JsMap (Option Json) String
  meters : JsMap (Option Json) MeterState
  usedNonces : List String
  usedDebitRefs : List (Option Json)
  audit : List (LedgerRecord cfg)
  series : List ReconciliationPoint
  debitRequests : List (ℕ × Json)
  reversals : List (ℕ × String)
  receipts : List (ℕ × String)
  redemptions : List (ℕ × Token)
  dispensed : List (ℕ × Token)

/-- That part of a store, as a value of its own. -/
def Store.untouched (s : Store cfg) : Untouched cfg where
  merchants := s.merchants
  members := s.members
  clock := s.clock
  consumedDebitRefs := s.consumedDebitRefs
  meters := s.meters
  usedNonces := s.usedNonces
  usedDebitRefs := s.usedDebitRefs
  audit := s.audit
  series := s.series
  debitRequests := s.debitRequests
  reversals := s.reversals
  receipts := s.receipts
  redemptions := s.redemptions
  dispensed := s.dispensed

/-- A transition that is no delivery leaves that part alone. -/
theorem untouched_transition {status : RequestStatus} (h : status ≠ .DELIVERED) (rid : ℕ)
    (note : String) (u : Store cfg) :
    (u.transition rid status note).untouched = u.untouched ∧
      (u.transition rid status note).merchantHits = u.merchantHits := by
  rw [Store.transition]
  split
  · rw [Store.onTerminal]
    simp only [h, if_false]
    split <;> exact ⟨rfl, rfl⟩
  · exact ⟨rfl, rfl⟩

/-- A run for an unknown merchant is over at once: it is rejected in its first segment. -/
theorem settle_launch_unknown {rid : ℕ} {u : Store cfg}
    (h : u.getMerchant (u.heap rid).request.merchantId = none) :
    ∃ u', (launch P env rid).settle u = (.ret (), u') ∧ (∀ i ≠ rid, u'.heap i = u.heap i) ∧
      u'.common = u.common ∧ u'.untouched = u.untouched ∧ u'.merchantHits = u.merchantHits := by
  set request := (u.heap rid).request with hrequest
  set u₁ := Store.addAlert (blockedAlert .warning .POLICY request.requestId
    "Unknown merchant blocked" ("Merchant " ++ request.merchantId ++
      " is not registered; request rejected before any funds movement.") request.merchantId)
    (u.setStage rid .POLICY) with hu₁
  set reason := "UNKNOWN_MERCHANT (" ++ request.merchantId ++ ")" with hreason
  set f : PipelineRecord cfg → PipelineRecord cfg := fun r =>
    { r with rejection := some ⟨.POLICY, reason, u₁.now, request.merchantId⟩ } with hf
  have hgate : (policyGate P env rid).settle (u.setStage rid .POLICY) =
      (.ret (), Store.transition rid .REJECTED reason (u₁.update rid f)) := by
    rw [policyGate, Prog.settle_bind_ret (a := u.heap rid) (t := u.setStage rid .POLICY) _ rfl,
      Prog.settle_bind_ret (a := u.getMerchant request.merchantId)
        (t := u.setStage rid .POLICY) _ rfl, h]
    rfl
  have hrewrites := rewrites_step (show RequestStatus.REJECTED ≠ .DELIVERED by decide) rid
    reason f u₁
  obtain ⟨huntouched, hhits⟩ := untouched_transition
    (show RequestStatus.REJECTED ≠ .DELIVERED by decide) rid reason (u₁.update rid f)
  refine ⟨_, ?_, fun i hi => ?_, ?_, huntouched, hhits⟩
  · rw [launch, runPipeline]
    refine Prog.settle_tryCatch_ret _ ?_
    rw [Prog.settle_bind_ret (a := ()) (t := u.setStage rid .POLICY) _ rfl]
    exact Prog.settle_tryCatch_ret _ hgate
  · exact hrewrites.others i hi
  · exact hrewrites.common

/-- The flood may go on with the number `n`: the merchants and identifiers from there on are
unknown. -/
structure Floodable (n : ℕ) (u : Store cfg) : Prop where
  table : Table u
  unknown : ∀ k, u.getMerchant (floodId k) = none
  fresh : ∀ k, n ≤ k → floodId k ∉ u.acceptedIds
  unmet : ∀ k, n ≤ k → u.merchantHits.get (floodId k) = none

/-- What `m` submissions of the flood do: they come in front of the table, and leave the earlier
records and the rest alone. -/
structure Flooded (m : ℕ) (u u' : Store cfg) : Prop where
  created : u.created ≤ u'.created
  heap : ∀ i < u.created, u'.heap i = u.heap i
  untouched : u'.untouched = u.untouched
  hits : ∀ x, (∀ k, x ≠ floodId k) → u'.merchantHits.get x = u.merchantHits.get x
  accepted : ∃ new : List (ℕ × String), u'.accepted = new ++ u.accepted ∧ new.length = m ∧
    ∀ e ∈ new, ∃ k, e.2 = floodId k
  nodup : u.acceptedIds.Nodup → u'.acceptedIds.Nodup

/-- No submission changes nothing. -/
theorem Flooded.refl (u : Store cfg) : Flooded 0 u u :=
  ⟨le_rfl, fun _ _ => rfl, rfl, fun _ _ => rfl, ⟨[], rfl, rfl, fun _ he => nomatch he⟩, id⟩

/-- Some submissions after others are as many together. -/
theorem Flooded.trans {m m' : ℕ} {u u' u'' : Store cfg} (h : Flooded m u u')
    (h' : Flooded m' u' u'') : Flooded (m + m') u u'' := by
  obtain ⟨new, hnew, hlen, hids⟩ := h.accepted
  obtain ⟨new', hnew', hlen', hids'⟩ := h'.accepted
  refine ⟨h.created.trans h'.created,
    fun i hi => (h'.heap i (hi.trans_le h.created)).trans (h.heap i hi),
    h'.untouched.trans h.untouched, fun x hx => (h'.hits x hx).trans (h.hits x hx),
    ⟨new' ++ new, ?_, ?_, fun e he => ?_⟩, h'.nodup ∘ h.nodup⟩
  · rw [hnew', hnew, List.append_assoc]
  · rw [List.length_append, hlen, hlen', Nat.add_comm]
  · exact (List.mem_append.mp he).elim (hids' e) (hids e)

/-- One submission of the flood is served in one segment, and the flood may go on after it. -/
theorem settle_flood {n : ℕ} {u : Store cfg} (h : Floodable n u) :
    ∃ prog u', (serve P env (floodRequest n)).settle u = (prog, u') ∧ Flooded 1 u u' ∧
      Floodable (n + 1) u' := by
  have hunaccepted : u.getRequest (floodId n) = none :=
    JsMap.get_eq_none fun e he => by
      rw [beq_eq_false_iff_ne]
      rintro heq
      exact h.fresh n le_rfl (heq ▸ List.mem_map_of_mem (f := Prod.snd) (h.table.entries e he))
  set u₁ := u.reserve.2 with hu₁
  set u₂ : Store cfg :=
    { u₁ with merchantHits := u.merchantHits.set (floodId n) [u.clock] } with hu₂
  have hlimit : u₁.rateLimitOk (trim (floodId n)) = (true, u₂) := by
    rw [trim_floodId, Store.rateLimitOk, show u₁.merchantHits.get (floodId n) = none from
      h.unmet n le_rfl]
    rfl
  set request : GenerationRequest :=
    (⟨floodId n, "M", 1, floodId n⟩ : RequestFields).request u₂.now with hrequest
  set u₃ := u₂.createRecord u.created request with hu₃
  have hmerchant : request.merchantId = floodId n := trim_floodId n
  have hself : u₃.heap u.created = .new cfg request := heap_createRecord_self
  have hunknown : ∀ k, u₃.getMerchant (floodId k) = none := fun k => by
    rw [hu₃, createRecord_eq]
    exact h.unknown k
  obtain ⟨u₄, hsettle, hothers, hcommon, huntouched, hhits⟩ :=
    @settle_launch_unknown cfg P env u.created u₃ (by
      rw [hself]
      exact hmerchant ▸ hunknown n)
  have htable₂ : Table u₂ := ⟨h.table.order, h.table.keys, h.table.entries, h.table.newest⟩
  have htable₃ : Table u₃ := htable₂.createRecord
  have haccepted₃ : u₃.accepted = (u.created, floodId n) :: u.accepted := by
    rw [hu₃, createRecord_eq]
    rfl
  have haccepted : u₄.accepted = (u.created, floodId n) :: u.accepted :=
    (congrArg Common.accepted hcommon).trans haccepted₃
  have hrest : u₃.untouched = u.untouched ∧ u₃.merchantHits = u₂.merchantHits ∧
      u₃.created = u.created + 1 := by
    rw [hu₃, createRecord_eq]
    exact ⟨rfl, rfl, rfl⟩
  have hhits' : u₄.merchantHits = u.merchantHits.set (floodId n) [u.clock] := hhits.trans hrest.2.1
  have hprog : (serve P env (floodRequest n)).settle u =
      (.ret ⟨202, object [("requestId", some (.str (floodId n)))]⟩, u₄) := by
    have hnew := settle_postRequest_new P env (requestFields_flood n) hunaccepted hlimit
    exact hnew.trans (Prog.settle_bind_ret _ hsettle)
  refine ⟨_, u₄, hprog, ⟨?_, fun i hi => ?_, huntouched.trans hrest.1, fun x hx => ?_,
    ⟨[(u.created, floodId n)], haccepted, rfl, fun e he => ?_⟩, fun hnd => ?_⟩,
    ⟨?_, fun k => ?_, fun k hk => ?_, fun k hk => ?_⟩⟩
  · rw [show u₄.created = u₃.created from congrArg Common.created hcommon, hrest.2.2]
    exact Nat.le_succ _
  · rw [hothers i hi.ne, heap_createRecord hi.ne]
    rfl
  · rw [hhits']
    exact JsMap.get_set_of_ne (beq_eq_false_iff_ne.mpr (hx n))
  · obtain rfl := List.mem_singleton.mp he
    exact ⟨n, rfl⟩
  · rw [Store.acceptedIds, haccepted]
    exact List.nodup_cons.mpr ⟨h.fresh n le_rfl, hnd⟩
  · exact (SameTable.of_common hcommon).table htable₃
  · rw [Store.getMerchant, show u₄.merchants = u.merchants from
      congrArg Untouched.merchants (huntouched.trans hrest.1)]
    exact h.unknown k
  · rw [Store.acceptedIds, haccepted]
    exact List.not_mem_cons_of_ne_of_not_mem (fun heq => by have := floodId_injective heq; omega)
      (h.fresh k (by omega))
  · rw [hhits', JsMap.get_set_of_ne (beq_eq_false_iff_ne.mpr fun heq => by
      have := floodId_injective heq
      omega)]
    exact h.unmet k (by omega)

/-- **A flood.** Any number of submissions may follow each other, each served before the next one
comes. Induction on their number. -/
theorem flood {σ : Type} {L : Lens σ (Store cfg)}
    {answers : σ → (q : CoordinatorCall cfg) → q.Answer → Prop} {moves : σ → σ → Prop}
    {admitted : CoordinatorPool σ cfg → CoordinatorRequest → Prop}
    (hadm : ∀ c k, admitted c (floodRequest k)) {s : σ} (m : ℕ) :
    ∀ {n : ℕ} {c : CoordinatorPool σ cfg},
      (coordinatorGame P env L answers moves).Reaches admitted s c →
      Floodable n (L.view c.state) → ∃ (u' : Store cfg) (ps : _),
        (coordinatorGame P env L answers moves).Reaches admitted s
          ⟨L.put c.state u', c.procs ++ ps⟩ ∧
        Flooded m (L.view c.state) u' ∧ Floodable (n + m) u' := by
  induction m with
  | zero =>
      intro n c h hf
      refine ⟨L.view c.state, [], ?_, .refl _, hf⟩
      rw [L.put_view, List.append_nil]
      exact h
  | succ m ih =>
      intro n c h hf
      obtain ⟨prog, u₁, hsettle, hflooded₁, hf₁⟩ := @settle_flood cfg P env n _ hf
      have h₁ : (coordinatorGame P env L answers moves).Reaches admitted s
          ⟨L.put c.state u₁, c.procs ++ [⟨floodRequest n, c.state, prog⟩]⟩ :=
        h.spawn (floodRequest n) (hadm c n) hsettle
      obtain ⟨u₂, ps, h₂, hflooded₂, hf₂⟩ := ih h₁ (n := n + 1)
        (by simpa only [L.view_put] using hf₁)
      simp only [L.view_put, L.put_put, List.append_assoc] at h₂ hflooded₂
      refine ⟨u₂, _, h₂, Nat.add_comm 1 m ▸ hflooded₁.trans hflooded₂, ?_⟩
      · rw [show n + (m + 1) = n + 1 + m by omega]
        exact hf₂

/-- **A flood of 200** leaves nothing older in the table, so that an identifier from before is not
found any more. -/
theorem Flooded.forgotten {u u' : Store cfg} (h : Flooded REQUEST_CAP u u') (ht : Table u')
    (hnd : u.acceptedIds.Nodup) {x : String} (hx : ∀ k, x ≠ floodId k) :
    u'.getRequest x = none := by
  obtain ⟨new, hnew, hlen, hids⟩ := h.accepted
  have htake : u'.acceptedIds.take REQUEST_CAP = new.map (·.2) := by
    rw [Store.acceptedIds, hnew, List.map_append, List.take_append_of_le_length (by simp [hlen])]
    exact List.take_of_length_le (by simp [hlen])
  by_contra hget
  rw [← ne_eq, ht.getRequest_iff (h.nodup hnd), htake] at hget
  obtain ⟨e, he, rfl⟩ := List.mem_map.mp hget
  obtain ⟨k, hk⟩ := hids e he
  exact hx k hk

/-! ### A request that comes again -/

/-- A run, with the handlers around it: the backstop, and the one that takes what the backstop
raises. -/
def wrapped (P : Platform) (rid : ℕ) (p : CoordinatorProg cfg Unit) : CoordinatorProg cfg Unit :=
  (p.tryCatch (backstop P rid)).tryCatch fun _ => pure ()

section Wrapped

variable {rid : ℕ} {p : CoordinatorProg cfg Unit} {u u' : Store cfg}

/-- A wrapped run suspends where the run does. -/
theorem settle_wrapped_await {q : CoordinatorCall cfg} {k : q.Answer → CoordinatorProg cfg Unit}
    (h : p.settle u = (.await q k, u')) :
    (wrapped P rid p).settle u = (.await q fun r => wrapped P rid (k r), u') :=
  Prog.settle_tryCatch_await _ (Prog.settle_tryCatch_await _ h)

/-- The active signers, in the order of the configuration. -/
def Store.active (u : Store cfg) : List (SignerInfo cfg.SignerId) :=
  cfg.SIGNERS.filter fun i => u.isMemberActive i.signerId

/-- The run asks who is online, and goes on to the debit if they are enough. -/
def preflightRest (P : Platform) (env : CoordinatorEnv cfg) (rid : ℕ) (request : GenerationRequest)
    (active : List (SignerInfo cfg.SignerId)) (answers : cfg.SignerId → Option HttpResult) :
    CoordinatorProg cfg Unit := do
  let online := sortByIdentifier (active.filter fun i => signerIsOnline P (answers i.signerId))
  if online.length < cfg.t then do
    Prog.modify (Store.addAlert (blockedAlert .warning .WALL_2_CONSORTIUM request.requestId
      "Quorum unreachable: blocked at Wall 2 (no debit taken)"
      ("Only " ++ toString online.length ++ " of " ++ toString cfg.SIGNERS.length ++
        " consortium signers available; " ++ toString cfg.t ++
        " are required. The customer was not charged; no single insider can generate.")
      "consortium"))
    reject rid .WALL_2_CONSORTIUM (belowThreshold cfg online.length) "consortium"
  else debit P env rid request

variable (P env) in
/-- A run for a known merchant first asks who is online, as its first call. -/
theorem settle_policyGate_known {merchant : Merchant}
    (h : u.getMerchant (u.heap rid).request.merchantId = some merchant)
    (hrevoked : merchant.revoked = false) :
    (policyGate P env rid).settle u =
      (.await (.health u.active) (preflightRest P env rid (u.heap rid).request u.active),
        u.setStage rid .WALL_2_CONSORTIUM) := by
  rw [policyGate, Prog.settle_bind_ret (a := u.heap rid) (t := u) _ rfl,
    Prog.settle_bind_ret (a := u.getMerchant (u.heap rid).request.merchantId) (t := u) _ rfl, h]
  dsimp only
  rw [hrevoked, if_neg Bool.false_ne_true]
  rfl

variable (P env) in
/-- A submission that is accepted for a known merchant first asks who is online. -/
theorem settle_postRequest_asks {body : Option Json} {uuid : String} {fields : RequestFields}
    {u u₂ : Store cfg} {merchant : Merchant}
    (hfields : requestFields (bodyOrEmpty body) uuid = .ok fields)
    (hnew : u.getRequest fields.requestId = none)
    (hlimit : u.reserve.2.rateLimitOk (trim fields.merchantId) = (true, u₂))
    (hmerchant : u₂.getMerchant (trim fields.merchantId) = some merchant)
    (hrevoked : merchant.revoked = false) :
    let rid := u.created
    let request := fields.request u₂.now
    let u₃ := ((u₂.createRecord rid request).setStage rid .POLICY).setStage rid .WALL_2_CONSORTIUM
    (postRequest P env body uuid).settle u =
      (.await (.health u₃.active) fun answers =>
        wrapped P rid (preflightRest P env rid request u₃.active answers) >>= fun _ =>
          pure ⟨202, object [("requestId", some (.str fields.requestId))]⟩, u₃) := by
  intro rid request u₃
  rw [settle_postRequest_new P env hfields hnew hlimit]
  set u₁ := (u₂.createRecord rid request).setStage rid .POLICY with hu₁
  have hheap : u₁.heap rid = .new cfg request := heap_createRecord_self
  have hknown : u₁.getMerchant (u₁.heap rid).request.merchantId = some merchant := by
    rw [hheap, hu₁, createRecord_eq]
    exact hmerchant
  have hgate := settle_policyGate_known P env hknown hrevoked
  rw [hheap] at hgate
  exact Prog.settle_bind_await _ (settle_wrapped_await hgate)

end Wrapped

/-- Few hits are below the rate limit, and the call is counted among them. -/
theorem rateLimitOk_of_lt {merchantId : String} {u : Store cfg}
    (h : ((u.merchantHits.get merchantId).getD []).length < RATE_MAX_PER_WINDOW) :
    ∃ hits, u.rateLimitOk merchantId = (true, { u with merchantHits := hits }) := by
  rw [Store.rateLimitOk, if_neg]
  · exact ⟨_, rfl⟩
  · exact Nat.not_le.mpr ((List.length_filter_le _ _).trans_lt h)

/-- The store when the run of a request that was accepted asks who is online. -/
def Store.asking (u : Store cfg) (hits : JsMap String (List ℤ)) (request : GenerationRequest) :
    Store cfg :=
  (((({ u with created := u.created + 1, merchantHits := hits } : Store cfg).createRecord u.created
    request).setStage u.created .POLICY).setStage u.created .WALL_2_CONSORTIUM)

/-- A request that is asked for is among the accepted ones. -/
theorem acceptedIds_asking (u : Store cfg) (hits : JsMap String (List ℤ))
    (request : GenerationRequest) :
    (u.asking hits request).acceptedIds = request.requestId :: u.acceptedIds := by
  rw [Store.acceptedIds, Store.asking, createRecord_eq]
  rfl

/-- **A request that comes again** after a flood is made again, and runs for a second time. -/
theorem resubmitted {σ : Type} {L : Lens σ (Store cfg)}
    {answers : σ → (q : CoordinatorCall cfg) → q.Answer → Prop} {moves : σ → σ → Prop}
    {s : σ} {c : CoordinatorPool σ cfg}
    (h : (coordinatorGame P env L answers moves).Reaches (fun _ _ => True) s c)
    (hf : Floodable 0 (L.view c.state)) (hnd : (L.view c.state).acceptedIds.Nodup)
    {body : Option Json} {uuid : String} {fields : RequestFields} {merchant : Merchant}
    (hfields : requestFields (bodyOrEmpty body) uuid = .ok fields)
    (hid : ∀ k, fields.requestId ≠ floodId k)
    (hmerchantId : ∀ k, trim fields.merchantId ≠ floodId k)
    (hhits : (((L.view c.state).merchantHits.get (trim fields.merchantId)).getD []).length <
      RATE_MAX_PER_WINDOW)
    (hmerchant : (L.view c.state).getMerchant (trim fields.merchantId) = some merchant)
    (hrevoked : merchant.revoked = false) :
    ∃ (u' : Store cfg) (hits : JsMap String (List ℤ)) (ps : _),
      Flooded REQUEST_CAP (L.view c.state) u' ∧ Table u' ∧
      let u₃ := u'.asking hits (fields.request u'.now)
      (coordinatorGame P env L answers moves).Reaches (fun _ _ => True) s
        ⟨L.put c.state u₃, c.procs ++ ps ++ [⟨.post body uuid, L.put c.state u',
          .await (.health u₃.active) fun answers =>
            wrapped P u'.created (preflightRest P env u'.created (fields.request u'.now) u₃.active
              answers) >>= fun _ =>
              pure ⟨202, object [("requestId", some (.str fields.requestId))]⟩⟩]⟩ := by
  obtain ⟨u', ps, hreach, hflooded, hf'⟩ := flood (fun _ _ => trivial) REQUEST_CAP h hf
  have hhits' : (((u'.reserve.2).merchantHits.get (trim fields.merchantId)).getD []).length <
      RATE_MAX_PER_WINDOW := by
    rw [show (u'.reserve.2).merchantHits = u'.merchantHits from rfl, hflooded.hits _ hmerchantId]
    exact hhits
  obtain ⟨hits, hlimit⟩ := rateLimitOk_of_lt hhits'
  refine ⟨u', hits, ps, hflooded, hf'.table, ?_⟩
  have hmerchant' : u'.getMerchant (trim fields.merchantId) = some merchant := by
    rw [Store.getMerchant, show u'.merchants = _ from congrArg Untouched.merchants
      hflooded.untouched]
    exact hmerchant
  have hsettle := settle_postRequest_asks P env hfields
    (hflooded.forgotten hf'.table hnd hid) hlimit hmerchant' hrevoked
  intro u₃
  have hview := (congrArg (serve P env (.post body uuid)).settle (L.view_put c.state u')).trans
    hsettle
  have hspawn := hreach.spawn (.post body uuid) trivial hview
  rw [show (coordinatorGame P env L answers moves).place (.post body uuid) = L from rfl,
    L.put_put] at hspawn
  exact hspawn

/-- A request that was accepted is accepted again after a flood. -/
theorem accepted_again {answers : Store cfg → (q : CoordinatorCall cfg) → q.Answer → Prop}
    {moves : Store cfg → Store cfg → Prop} {s : Store cfg} {c : CoordinatorPool (Store cfg) cfg}
    (h : (coordinatorGame P env (Lens.whole _) answers moves).Reaches (fun _ _ => True) s c)
    (hf : Floodable 0 c.state) {body : Option Json} {uuid : String} {fields : RequestFields}
    {merchant : Merchant} (hfields : requestFields (bodyOrEmpty body) uuid = .ok fields)
    (hid : ∀ k, fields.requestId ≠ floodId k)
    (hmerchantId : ∀ k, trim fields.merchantId ≠ floodId k)
    (hhits : ((c.state.merchantHits.get (trim fields.merchantId)).getD []).length <
      RATE_MAX_PER_WINDOW)
    (hmerchant : c.state.getMerchant (trim fields.merchantId) = some merchant)
    (hrevoked : merchant.revoked = false) (hmem : fields.requestId ∈ c.state.acceptedIds) :
    ∃ c' : CoordinatorPool (Store cfg) cfg,
      (coordinatorGame P env (Lens.whole _) answers moves).Reaches (fun _ _ => True) s c' ∧
      ¬ c'.state.acceptedIds.Nodup := by
  by_cases hnd : c.state.acceptedIds.Nodup
  · obtain ⟨u', hits, ps, hflooded, -, hreach⟩ :=
      resubmitted h hf hnd hfields hid hmerchantId hhits hmerchant hrevoked
    obtain ⟨new, hnew, -, -⟩ := hflooded.accepted
    have htwice : (u'.asking hits (fields.request u'.now)).acceptedIds =
        fields.requestId :: u'.acceptedIds := acceptedIds_asking ..
    refine ⟨_, hreach, fun hnd' => ?_⟩
    change (Store.acceptedIds (Store.asking _ _ _)).Nodup at hnd'
    rw [htwice, List.nodup_cons, Store.acceptedIds, hnew, List.map_append] at hnd'
    exact hnd'.1 (List.mem_append_right _ hmem)
  · exact ⟨c, h, hnd⟩

/-! ### Small instances -/

/-- No identifier of the flood is a text that begins otherwise. -/
theorem ne_floodId {x : String} (h : x.toList.head? ≠ some 'x') (k : ℕ) : x ≠ floodId k := by
  rintro rfl
  simp [floodId, List.replicate_succ] at h

/-- After the small purchase, the flood may start. -/
theorem floodable_small {u : Store config} (ht : Table u) (hids : u.acceptedIds = ["REQ-1"])
    (hhits : u.merchantHits = [("MER-001", [0])])
    (hmerchants : u.merchants = Store.seededMerchants) :
    Floodable 0 u := by
  refine ⟨ht, fun k => ?_, fun k _ => ?_, fun k _ => ?_⟩
  · rw [Store.getMerchant, List.find?_eq_none]
    intro m hm
    rw [hmerchants] at hm
    simp only [Store.seededMerchants, List.mem_cons, List.not_mem_nil, or_false] at hm
    rcases hm with rfl | rfl | rfl <;> simpa using ne_floodId (by decide) k
  · rw [hids]
    simpa using (ne_floodId (by decide) k).symm
  · rw [hhits]
    exact JsMap.get_eq_none fun e he => by
      obtain rfl := List.mem_singleton.mp he
      exact beq_eq_false_iff_ne.mpr (ne_floodId (by decide) k)

/-- The small purchase has accepted one identifier. -/
theorem acceptedIds_small {u : Store config} (haccepted : u.accepted = [(0, "REQ-1")]) :
    u.acceptedIds = ["REQ-1"] := by
  rw [Store.acceptedIds, haccepted]
  rfl

/-- The small request, the flood, and the small request again: it is accepted twice. -/
theorem accepted_twice : ¬ ∀ c : CoordinatorPool (Store config) config,
    (singleGame Small.platform Small.coordinatorEnv fun _ _ => True).Reaches (fun _ _ => True)
      (Store.boot config "2025-01-01T00:00:00.000Z" []) c → c.state.acceptedIds.Nodup := by
  intro hall
  obtain ⟨-, -, haccepted, hhits, hmerchants, -⟩ := small_bought_delivered
  have hids := acceptedIds_small haccepted
  obtain ⟨hb, -⟩ := single_sound (small_bought (fun _ _ => True) trivial)
  obtain ⟨c, hreach, htwice⟩ := accepted_again
    (coordinatorGame_mono (fun _ _ _ _ => trivial) (fun _ _ h => h) (fun _ _ h => h)
      (small_bought (fun _ _ => True) trivial))
    (floodable_small hb.table hids hhits hmerchants)
    (show requestFields (bodyOrEmpty (some (.obj [("requestId", .str "REQ-1"),
      ("meterId", .str "MTR-1001"), ("merchantId", .str "MER-001"),
      ("amountKwh", .num (.fin 10))]))) "" = .ok ⟨"REQ-1", "MTR-1001", 10, "MER-001"⟩ by
        decide +kernel) (ne_floodId (by decide)) (ne_floodId (by decide +kernel))
    (by rw [hhits]; decide +kernel)
    (show Small.bought.state.getMerchant (trim "MER-001") =
      some ⟨"MER-001", "Thabo's Spaza", true, false⟩ by
        rw [Store.getMerchant, hmerchants]; decide +kernel) rfl
    (by rw [hids]; exact List.mem_singleton.mpr rfl)
  exact htwice (hall c hreach)

end NoGhost
