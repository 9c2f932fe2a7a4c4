import NoGhost.Coordinator.Settlement

/-!
# A Walk Through the Pipeline

The run of `runPipeline` from the policy gate to the signature, and from there on by the rules
of `NoGhost.Coordinator.Settlement`.

## Main results

* `wp_ceremonyLoop`: the loop of ceremonies ends in a token that is signed for, or the run is
  abandoned.
* `wp_claimDebit`: a debit is charged once it is claimed.
* `wp_runPipeline`: every write of a run is a move, and the run ends in one of three ways.
-/

open Js Async

namespace NoGhost

variable {cfg : Config} {σ : Type} {L : Lens σ (Store cfg)} {P : Platform}
  {env : CoordinatorEnv cfg} {O : Outside L} {rid : ℕ}

/-! ### The ceremony -/

section Ceremony

variable {k : ℕ} {r : PipelineRecord cfg} {publication : Publication}
  {t : CoordinatorTrace σ cfg} {s : σ}

/-- Members of the registry, without repetition. -/
structure Registered (signers : List (SignerInfo cfg.SignerId)) : Prop where
  nodup : signers.Nodup
  mem : ∀ i ∈ signers, i ∈ cfg.SIGNERS

/-- A part of such a list is one, too. -/
theorem Registered.sublist {signers signers' : List (SignerInfo cfg.SignerId)}
    (h : Registered signers) (hs : signers'.Sublist signers) : Registered signers' :=
  ⟨h.nodup.sublist hs, fun i hi => h.mem i (hs.subset hi)⟩

/-- A poll finds members of the registry, each once. -/
theorem wp_poll {W : Rules σ (CoordinatorCall cfg) CoordinatorCall.Answer}
    {J : CoordinatorTrace σ cfg → σ → Prop}
    {post : List (SignerInfo cfg.SignerId) → CoordinatorTrace σ cfg → σ → Prop}
    {exn : String → CoordinatorTrace σ cfg → σ → Prop} (hrest : W.rest t s)
    (hresume : ∀ signers a s', W.resume (.health signers) s a s' →
      J (t ++ [.answered (.health signers) a]) s')
    (hpost : ∀ online t s, J t s → Registered online → post online t s) :
    wp W L (pollOnlineActiveSigners P) post exn t s := by
  rw [pollOnlineActiveSigners]
  simp only [wp_bind, wp_gets, wp_call, wp_pure]
  refine ⟨hrest, fun answers s' hr => hpost _ _ _ (hresume _ _ _ hr) ?_⟩
  have hregistry : Registered cfg.SIGNERS := ⟨cfg.nodup_signerId.of_map _, fun _ h => h⟩
  have hactive := hregistry.sublist
    (List.filter_sublist (p := fun i => (L.view s).isMemberActive i.signerId))
  have honline := hactive.sublist
    (List.filter_sublist (p := fun i => signerIsOnline P (answers i.signerId)))
  have hperm := List.perm_insertionSort (fun a b : SignerInfo cfg.SignerId =>
    a.identifier ≤ b.identifier) ((cfg.SIGNERS.filter fun i =>
      (L.view s).isMemberActive i.signerId).filter fun i => signerIsOnline P (answers i.signerId))
  exact ⟨hperm.nodup_iff.mpr honline.nodup, fun i hi => honline.mem i (hperm.mem_iff.mp hi)⟩

variable (L P env O rid) in
/-- The run has its debit confirmed, and has no token yet: it stands at one of the places between
the two. -/
structure Standing (k : ℕ) (r : PipelineRecord cfg) (t : CoordinatorTrace σ cfg) (s : σ) :
    Prop where
  on : On L rid r (.of r.request none none none none) t s
  place : At P env O rid k t r
  pos : 1 ≤ k
  le : k ≤ 3

/-- A run that has confirmed its debit and has no token yet is at its place of the chain. -/
theorem Standing.phase (h : Standing L P env O rid k r t s) :
    Phase P env O rid t r (.of r.request none none none none) :=
  .running h.place (fits_early (h.le.trans (by omega)) fun _ => rfl)

/-- Such a run is not at its end. -/
theorem Standing.alive (h : Standing L P env O rid k r t s) : r.status ∉ TERMINAL :=
  h.place.alive (h.le.trans (by omega))

/-- It may await an answer. -/
theorem Standing.rest (h : Standing L P env O rid k r t s) : (walkRules P env O rid).rest t s :=
  h.on.rest rfl (.inl rfl)

/-- It stands where it was after an answer. -/
theorem Standing.answered (h : Standing L P env O rid k r t s) {q : CoordinatorCall cfg}
    {a : q.Answer} {s' : σ} (hr : (walkRules P env O rid).resume q s a s')
    (hq : isReverse (.answered q a : Entry σ _ _) = false) :
    Standing L P env O rid k r (t ++ [.answered q a]) s' :=
  ⟨h.on.answered hr hq, h.place.mono (List.prefix_append _ _), h.pos, h.le⟩

/-- A quiet write of a run that has no token yet, in the proof of a program. -/
theorem Standing.wp_quiet (h : Standing L P env O rid k r t s) {f : Store cfg → Store cfg}
    {post : Unit → CoordinatorTrace σ cfg → σ → Prop}
    {exn : String → CoordinatorTrace σ cfg → σ → Prop} (hq : Quiet (L.view s) (f (L.view s)))
    (hpost : ∀ t s, Standing L P env O rid k r t s → post () t s) :
    wp (walkRules P env O rid) L (.modify f) post exn t s :=
  ⟨gua_quiet h.on.account h.phase h.alive hq,
    hpost _ _ ⟨h.on.quiet hq, h.place.mono (List.prefix_append _ _), h.pos, h.le⟩⟩

/-- A run that stands holds its debit, and may be abandoned. -/
theorem Standing.holding (h : Standing L P env O rid k r t s) :
    Holding L P env O rid k r none none t s :=
  have hle := h.le
  have hpos := h.pos
  ⟨h.on, h.place, fits_early (by omega) fun _ => rfl, by omega, fun _ => absurd hle (by omega),
    .inl rfl, fun _ => absurd hpos (by omega)⟩

/-- The next step of a run, with the evidence for it. -/
theorem Standing.advance (h : Standing L P env O rid k r t s) {status : RequestStatus}
    {now note : String} {r' : PipelineRecord cfg} {u' : Store cfg}
    (hnext : CHAIN[k + 1]? = some status)
    (hw : Rewrites rid (Store.moved status now note r') (L.view s) u')
    (hsame : r'.statuses = r.statuses) (hrequest : r'.request = r.request)
    (hledger : r'.ledger = r.ledger) (hdebit : r'.debit = r.debit)
    (hbacked : Backed P env O rid (k + 1) t (Store.moved status now note r')) :
    (walkRules P env O rid).gua t s (L.put s u') ∧
      On L rid (Store.moved status now note r') (.of r.request none none none none)
        (t ++ [.wrote s (L.put s u')]) (L.put s u') ∧
      At P env O rid (k + 1) (t ++ [.wrote s (L.put s u')]) (Store.moved status now note r') := by
  have hk := h.le
  have hrejected : status ≠ .REJECTED := by
    rintro rfl
    interval_cases k <;> cases hnext
  have hplace := h.place.advance hnext hsame hbacked
  refine ⟨gua_rewrites h.on.account hw h.alive hrequest hledger ?_ (.inl hdebit)
    (fun hst => absurd hst hrejected) fun _ => .inl (h.place.charged h.pos), h.on.rewrites hw,
    hplace.mono (List.prefix_append _ _)⟩
  rw [← show (Store.moved status now note r').request = r.request from hrequest]
  exact .running hplace (fits_early (by omega) fun _ => rfl)

variable (L P env O rid) in
/-- The run has its approvals, and has been suspended since: if its debit is redeemed, another
run did it. -/
structure Polled (r : PipelineRecord cfg) (t : CoordinatorTrace σ cfg) (s : σ) : Prop
    extends Standing L P env O rid 3 r t s where
  guarded : ∀ payload, buildTokenPayload P r.debit = .ok payload →
    (L.view s).redeemed payload = true → Late P env O rid t

/-- An answer shows what the others have done, so that what a signer was promised still holds at the
next call. -/
theorem Standing.polled (h : Standing L P env O rid 3 r t s) {q : CoordinatorCall cfg}
    {a : q.Answer} {s' : σ} (hr : (walkRules P env O rid).resume q s a s')
    (hq : isReverse (.answered q a : Entry σ _ _) = false) :
    Polled L P env O rid r (t ++ [.answered q a]) s' := by
  refine ⟨h.answered hr hq, fun payload hpayload hspent =>
    .overtaken hr.2.1 hr.2.2 (.inl ?_) ?_ ?_ hspent⟩
  · rw [h.on.heap]
    exact (Option.some.inj h.place.status).symm
  · rw [h.on.deeds]
    rfl
  · rwa [h.on.heap]

/-- A quiet write between two ceremonies. -/
theorem Polled.wp_quiet (h : Polled L P env O rid r t s) {f : Store cfg → Store cfg}
    {post : Unit → CoordinatorTrace σ cfg → σ → Prop}
    {exn : String → CoordinatorTrace σ cfg → σ → Prop} (hq : Quiet (L.view s) (f (L.view s)))
    (hpost : ∀ t s, Polled L P env O rid r t s → post () t s) :
    wp (walkRules P env O rid) L (.modify f) post exn t s := by
  have ht := List.prefix_append t [.wrote s (L.put s (f (L.view s)))]
  refine ⟨gua_quiet h.on.account h.phase h.alive hq, hpost _ _
    ⟨⟨h.on.quiet hq, h.place.mono ht, h.pos,
    h.le⟩, fun payload hpayload hspent => ?_⟩⟩
  rw [L.view_put, Store.redeemed_of_common hq.common] at hspent
  exact (h.guarded payload hpayload hspent).mono ht

/-- The signature of the token, with its signer set, takes the run to the next place. -/
theorem Polled.sign (h : Polled L P env O rid r t s) {token : Token}
    {signerSet : List cfg.SignerId} (hsigned : Signed P env t r token signerSet) (note : String) :
    let s' := L.put s (Store.transition rid .SIGNED note ((L.view s).update rid fun r =>
      { r with token := some token, signerSet := some signerSet }))
    (walkRules P env O rid).gua t s s' ∧ ∃ r', r'.request = r.request ∧ r'.token = some token ∧
      On L rid r' (.of r'.request none none none none) (t ++ [.wrote s s']) s' ∧
      At P env O rid 4 (t ++ [.wrote s s']) r' ∧
      ((L.view s').redeemed token.toTokenPayload = true →
        Late P env O rid (t ++ [.wrote s s'])) := by
  intro s'
  set r₁ : PipelineRecord cfg := { r with token := some token, signerSet := some signerSet }
  have hw := @rewrites_step cfg .SIGNED (by decide) rid note (fun r : PipelineRecord cfg =>
    { r with token := some token, signerSet := some signerSet }) (L.view s)
  rw [h.on.heap] at hw
  have hb := h.place.backed
  have hbacked : Backed P env O rid 4 t (Store.moved .SIGNED (L.view s).now note r₁) :=
    ⟨hb.debited, fun _ => hb.published (by omega), fun _ => hb.approved (by omega),
      fun _ => ⟨token, signerSet, rfl, rfl, hsigned.payload, hsigned.verified, hsigned.ceremony⟩,
      fun hk => absurd hk (by omega), fun hk => absurd hk (by omega),
      fun _ => hb.unrecorded (by omega)⟩
  obtain ⟨hgua, hon, hplace⟩ := h.advance rfl hw rfl rfl rfl rfl hbacked
  refine ⟨hgua, Store.moved .SIGNED (L.view s).now note r₁, rfl, rfl, hon, hplace, fun hspent => ?_⟩
  rw [L.view_put, Store.redeemed_of_common hw.common] at hspent
  exact (h.guarded _ hsigned.payload hspent).mono (List.prefix_append _ _)

/-- What a ceremony of the run makes of the debit: a token that is signed over its payload, a
refusal, or an exception. -/
theorem wp_runCeremony_signed {chosen : List (SignerInfo cfg.SignerId)}
    {tokenPayload : TokenPayload} (h : Polled L P env O rid r t s)
    (hchosen : Registered chosen) (hlength : chosen.length = cfg.t)
    (hpayload : buildTokenPayload P r.debit = .ok tokenPayload) :
    wp (walkRules P env O rid) L (runCeremony P env rid chosen tokenPayload
        (tokenPayload.message P) (bytesToHex (tokenPayload.message P)))
      (fun outcome t s => Polled L P env O rid r t s ∧ ∀ token signerSet,
        outcome = .ok token signerSet → Signed P env t r token signerSet)
      (fun _ t s => Polled L P env O rid r t s) t s := by
  refine wp_runCeremony (J := Polled L P env O rid r) h (fun t s h => h.rest)
    (fun signers body a t s s' h hr => h.polled hr rfl)
    (fun signer body a t s s' h hr => h.polled hr rfl)
    (fun outcome t' s' _ h' hearly => ⟨h', fun token signerSet hok => ?_⟩)
    (fun commitments shares t' s' _ h' _ hkept => ⟨h', fun token signerSet hok => ?_⟩)
    fun e t' s' _ h' => h'
  · rw [hok] at hearly
    exact hearly.elim
  · obtain ⟨htoken, hset, hverified⟩ := concludeCeremony_ok hok
    subst htoken
    rw [h.on.heap] at hkept
    exact ⟨hpayload, hverified, chosen, commitments, shares, hset, hlength, hchosen.nodup,
      hchosen.mem, hkept⟩

/-- **The loop of ceremonies.** It ends in a token that is signed for, or the run is
abandoned. Induction on the fuel. -/
theorem wp_ceremonyLoop {online : List (SignerInfo cfg.SignerId)} {tokenPayload : TokenPayload}
    {fuel : ℕ} {refused : List cfg.SignerId} (h : Polled L P env O rid r t s)
    (hpublication : publication.requestHash = hashValue P (some r.request.toJson))
    (honline : Registered online) (hpayload : buildTokenPayload P r.debit = .ok tokenPayload) :
    wp (walkRules P env O rid) L (ceremonyLoop P env rid publication online tokenPayload
        (tokenPayload.message P) fuel refused)
      (fun _ => Ending L P env O rid) (fun _ => Raised L P env O rid) t s := by
  induction fuel generalizing refused t s with
  | zero => exact .holding h.holding
  | succ fuel ih =>
      rw [ceremonyLoop]
      split
      next => exact wp_abandon_raised h.holding _ _ _
      next hpool =>
        have hchosen : Registered ((online.filter fun s => s.signerId ∉ refused).take cfg.t) :=
          honline.sublist ((List.take_sublist _ _).trans List.filter_sublist)
        simp only [theRecord, wp_bind, wp_gets, h.on.heap]
        refine wp_mono (wp_runCeremony_signed h hchosen (List.length_take_of_le (not_lt.mp hpool))
          hpayload) (fun outcome t s hsigned => ?_) fun e t s h => .holding h.holding
        obtain ⟨h, hsigned⟩ := hsigned
        cases outcome with
        | refused signer reason =>
            rw [wp_bind]
            refine h.wp_quiet ⟨rfl, rfl⟩ fun t s h => ?_
            refine wp_ofExcept_bind (fun alert _ => ?_) fun e _ => .holding h.holding
            rw [wp_bind]
            exact h.wp_quiet ⟨rfl, rfl⟩ fun t s h => ih h
        | error e =>
            simp only
            split
            next signer _ =>
              rw [wp_bind]
              exact h.wp_quiet ⟨rfl, rfl⟩ fun t s h => wp_abandon_raised h.holding _ _ _
            next => exact wp_abandon_raised h.holding _ _ _
        | ok token signerSet =>
            simp only [wp_bind, wp_modify]
            obtain ⟨hgua, r', hrequest, htoken, hon, hplace, hspent⟩ :=
              h.sign (hsigned token signerSet rfl) _
            exact ⟨hgua, wp_settleReceipt hon hplace htoken (hrequest ▸ hpublication) hspent⟩

/-- Step 6, the ceremony: the run goes on with a token, or is abandoned. -/
theorem wp_ceremony (h : Standing L P env O rid 3 r t s)
    (hpublication : publication.requestHash = hashValue P (some r.request.toJson)) :
    wp (walkRules P env O rid) L (ceremony P env rid publication) (fun _ => Ending L P env O rid)
      (fun _ => Raised L P env O rid) t s := by
  rw [ceremony, wp_bind]
  refine h.wp_quiet ⟨rfl, rfl⟩ fun t s h => ?_
  rw [wp_bind]
  refine wp_poll (J := Polled L P env O rid r) h.rest (fun signers a s' hr => h.polled hr rfl)
    fun online t s h honline => ?_
  simp only [theRecord, wp_bind, wp_gets, h.on.heap]
  split
  next =>
    rw [wp_bind]
    exact h.wp_quiet ⟨rfl, rfl⟩ fun t s h => wp_abandon_raised h.holding _ _ _
  next =>
    refine wp_ofExcept_bind (fun tokenPayload hpayload => ?_) fun e _ => .holding h.holding
    exact wp_ceremonyLoop h hpublication honline hpayload

/-- A field that the step sets without a transition, where it stands. -/
theorem Standing.set (h : Standing L P env O rid k r t s) {r' : PipelineRecord cfg}
    {u' : Store cfg} (hw : Rewrites rid r' (L.view s) u') (hstatus : r'.status = r.status)
    (hstatuses : r'.statuses = r.statuses) (hrequest : r'.request = r.request)
    (hledger : r'.ledger = r.ledger) (hdebit : r'.debit = r.debit)
    (hbacked : Backed P env O rid k t r') :
    (walkRules P env O rid).gua t s (L.put s u') ∧
      Standing L P env O rid k r' (t ++ [.wrote s (L.put s u')]) (L.put s u') := by
  have hk := h.le
  have hplace : At P env O rid k t r' :=
    ⟨hbacked, by rw [hstatus, h.place.status], by rw [hstatuses, h.place.statuses]⟩
  refine ⟨gua_rewrites h.on.account hw h.alive hrequest hledger ?_ (.inl hdebit)
    (fun hst => .inl (hstatus ▸ hst)) fun _ => .inl (h.place.charged h.pos), ?_,
    hplace.mono (List.prefix_append _ _), h.pos, hk⟩
  · rw [← hrequest]
    exact .running hplace (fits_early (by omega) fun _ => rfl)
  · rw [hrequest]
    exact h.on.rewrites hw

/-- **The approvals** that the record is given are those that were read off the ledger, whatever the
signers have answered to the call. -/
theorem wp_gatherApprovals {online : List (SignerInfo cfg.SignerId)}
    {post : List (ApprovalRecord cfg) × ℕ → CoordinatorTrace σ cfg → σ → Prop}
    {exn : String → CoordinatorTrace σ cfg → σ → Prop} (h : Standing L P env O rid 2 r t s)
    (hpost : ∀ approvals M txs t s, Standing L P env O rid 2 { r with approvals := some approvals }
      t s → env.manifest = .ok M → O.Heard t (.accountTx M.authority) (.ok txs) →
      readApprovals P M publication.requestHash txs = .ok approvals →
      post (approvals, approveCount approvals) t s)
    (hexn : ∀ e t s, Standing L P env O rid 2 r t s → exn e t s) :
    wp (walkRules P env O rid) L (gatherApprovals P env rid publication online) post exn t s := by
  simp only [gatherApprovals, wp_bind, wp_call]
  refine ⟨h.rest, fun answers s₁ hr₁ => ?_⟩
  have h₁ := h.answered hr₁ rfl
  refine wp_ofExcept (fun M hM => ?_) fun e _ => hexn _ _ _ h₁
  simp only [wp_bind, wp_call]
  refine ⟨h₁.rest, fun txs s₂ hr₂ => ?_⟩
  have h₂ := h₁.answered hr₂ rfl
  cases txs with
  | error e => exact hexn _ _ _ h₂
  | ok txs =>
      simp only [wp_ofExcept_ok, wp_bind]
      refine wp_ofExcept (fun approvals hread => ?_) fun e _ => hexn _ _ _ h₂
      simp only [wp_bind, wp_modify, wp_pure]
      have hw := rewrites_update rid (fun r : PipelineRecord cfg =>
        { r with approvals := some approvals }) (L.view s₂)
      rw [h₂.on.heap] at hw
      have hb := h₂.place.backed
      obtain ⟨hgua, h₃⟩ := h₂.set hw rfl rfl rfl rfl rfl ⟨hb.debited, hb.published,
        fun hk => absurd hk (by omega), fun hk => absurd hk (by omega), hb.unsigned,
        fun hk => absurd hk (by omega), hb.unrecorded⟩
      exact ⟨hgua, hpost approvals M txs _ _ h₃ hM ⟨List.mem_append_left _ (List.mem_append_right _
        (List.mem_singleton_self _)), s₂, hr₂.1⟩ hread⟩

/-- Step 5, the approvals: the run goes on with those on the ledger, or is abandoned. -/
theorem wp_approve (h : Standing L P env O rid 2 r t s)
    (hpublication : publication.requestHash = hashValue P (some r.request.toJson)) :
    wp (walkRules P env O rid) L (approve P env rid publication) (fun _ => Ending L P env O rid)
      (fun _ => Raised L P env O rid) t s := by
  rw [approve, wp_bind]
  refine h.wp_quiet ⟨rfl, rfl⟩ fun t s h => ?_
  rw [wp_bind]
  refine wp_poll (J := Standing L P env O rid 2 r) h.rest (fun signers a s' hr => h.answered hr rfl)
    fun online t s h honline => ?_
  split
  next => exact wp_abandon_raised h.holding _ _ _
  next =>
    rw [wp_bind]
    refine wp_gatherApprovals h (fun approvals M txs t s h hM hheard hread => ?_)
      fun e t s h => .holding h.holding
    simp only [theRecord, wp_bind, wp_gets, h.on.heap]
    split
    next =>
      rw [wp_bind]
      exact h.wp_quiet ⟨rfl, rfl⟩ fun t s h => wp_abandon_raised h.holding _ _ _
    next hcount =>
      simp only [wp_bind, wp_modify]
      have hw := @rewrites_transition _ .APPROVED (by decide) rid ("on-chain approvals: " ++
        joinIds " + " ((approvals.filter (·.approves)).map (·.signerId))) (L.view s)
      rw [h.on.heap] at hw
      have hb := h.place.backed
      have happroved : Approved P env O t (hashValue P (some r.request.toJson)) approvals :=
        ⟨⟨M, txs, hM, hheard, hpublication ▸ hread⟩, not_lt.mp hcount⟩
      obtain ⟨hgua, hon, hplace⟩ := h.advance rfl hw rfl rfl rfl rfl
        ⟨hb.debited, fun _ => hb.published le_rfl,
        fun _ => ⟨approvals, rfl, happroved⟩, fun hk => absurd hk (by omega),
        fun _ => hb.unsigned (by omega), fun hk => absurd hk (by omega),
        fun _ => hb.unrecorded (by omega)⟩
      exact ⟨hgua, wp_ceremony ⟨hon, hplace, by omega, le_rfl⟩ hpublication⟩

/-- The request is published under its hash. -/
theorem wp_publishOnChain {post : Publication → CoordinatorTrace σ cfg → σ → Prop}
    {exn : String → CoordinatorTrace σ cfg → σ → Prop} (h : Standing L P env O rid 1 r t s)
    (hpost : ∀ publication t s, Standing L P env O rid 1 r t s →
      publication.requestHash = hashValue P (some r.request.toJson) → post publication t s)
    (hexn : ∀ e t s, Standing L P env O rid 1 r t s → exn e t s) :
    wp (walkRules P env O rid) L (publishOnChain P env rid) post exn t s := by
  rw [publishOnChain]
  split
  next => exact hexn _ _ _ h
  next publisher _ =>
    simp only [theRecord, wp_bind, wp_gets, h.on.heap]
    refine wp_ofExcept (fun M _ => ?_) fun e _ => hexn _ _ _ h
    rw [wp_bind]
    refine wp_ofExcept (fun encKey _ => ?_) fun e _ => hexn _ _ _ h
    simp only [wp_bind, wp_gets, wp_call]
    refine ⟨h.rest, fun txHash s₁ hr => ?_⟩
    have h₁ := h.answered hr rfl
    exact wp_ofExcept (fun txHash _ => hpost _ _ _ h₁ rfl) fun e _ => hexn _ _ _ h₁

/-- Step 4, the publication: the run goes on once it has succeeded, or is abandoned. -/
theorem wp_publish (h : Standing L P env O rid 1 r t s) :
    wp (walkRules P env O rid) L (publish P env rid) (fun _ => Ending L P env O rid)
      (fun _ => Raised L P env O rid) t s := by
  rw [publish, wp_bind]
  refine h.wp_quiet ⟨rfl, rfl⟩ fun t s h => ?_
  simp only [wp_bind, wp_tryCatch, wp_map]
  refine wp_publishOnChain h (fun publication t s h hpublication => ?_)
    fun e t s h => wp_abandon_raised h.holding _ _ _
  simp only [wp_bind, wp_modify]
  have hw := @rewrites_step cfg .PUBLISHED (by decide) rid
    ("request on-chain (encrypted): " ++ publication.requestTxHash)
    (fun r : PipelineRecord cfg => { r with publication := some publication }) (L.view s)
  rw [h.on.heap] at hw
  have hb := h.place.backed
  obtain ⟨hgua, hon, hplace⟩ := h.advance rfl hw rfl rfl rfl rfl ⟨hb.debited,
    fun _ => ⟨publication, rfl, hpublication⟩, fun hk => absurd hk (by omega),
    fun hk => absurd hk (by omega), fun _ => hb.unsigned (by omega),
    fun hk => absurd hk (by omega), fun _ => hb.unrecorded (by omega)⟩
  exact ⟨hgua, wp_approve ⟨hon, hplace, by omega, by omega⟩ hpublication⟩

end Ceremony

/-! ### Wall 1 -/

section Wall1

variable {r : PipelineRecord cfg} {e : Deeds} {t : CoordinatorTrace σ cfg} {s : σ}

/-- A reason for a rejection stands through a quiet write. -/
theorem Refused.quiet {a : Account cfg} {u' : Store cfg} (h : Refused P env O rid s a)
    (hq : Quiet (L.view s) u') : Refused P env O rid (L.put s u') a := by
  cases h with
  | unasked h => exact .unasked h
  | unconfirmed heard h => exact .unconfirmed (O.tells_put u' heard) h
  | consumed heard h howner hne =>
      refine .consumed (O.tells_put u' heard) h ?_ hne
      rw [L.view_put, show u'.consumedDebitRefs = (L.view s).consumedDebitRefs from
        congrArg Common.consumedDebitRefs hq.common]
      exact howner

variable (L P env O rid) in
/-- The run has come to a reason to reject the record, which is pending and for which nothing was
done but asking the bank. -/
structure Doomed (r : PipelineRecord cfg) (e : Deeds) (t : CoordinatorTrace σ cfg) (s : σ) :
    Prop where
  on : On L rid r e t s
  phase : Phase P env O rid t r e
  status : r.status = .PENDING
  statuses : r.statuses = [.PENDING]
  token : r.token = none
  ledger : r.ledger = none
  asked : e = .none ∨ e = .of r.request none none none none
  refused : Refused P env O rid s ⟨r, e⟩

/-- A quiet write before the rejection. -/
theorem Doomed.wp_quiet (h : Doomed L P env O rid r e t s) {f : Store cfg → Store cfg}
    {post : Unit → CoordinatorTrace σ cfg → σ → Prop}
    {exn : String → CoordinatorTrace σ cfg → σ → Prop} (hq : Quiet (L.view s) (f (L.view s)))
    (hpost : ∀ t s, Doomed L P env O rid r e t s → post () t s) :
    wp (walkRules P env O rid) L (.modify f) post exn t s := by
  refine ⟨gua_quiet h.on.account h.phase (alive_of_pending h.status) hq, hpost _ _
    ⟨h.on.quiet hq, ?_, h.status, h.statuses, h.token, h.ledger, h.asked, h.refused.quiet hq⟩⟩
  exact h.phase.mono (List.prefix_append _ _)

/-- **Rejection**: a record that there is a reason to reject is rejected, and the run is at its
end. -/
theorem wp_reject (h : Doomed L P env O rid r e t s) {wall : Wall} {reason attribution : String}
    {exn : String → CoordinatorTrace σ cfg → σ → Prop} :
    wp (walkRules P env O rid) L (reject rid wall reason attribution)
      (fun _ => Ending L P env O rid) exn t s := by
  simp only [reject, wp_modify]
  have hw := @rewrites_step cfg .REJECTED (by decide) rid reason
    (fun r : PipelineRecord cfg =>
      { r with rejection := some ⟨wall, reason, (L.view s).now, attribution⟩ }) (L.view s)
  rw [h.on.heap] at hw
  have hstatuses : (Store.moved .REJECTED (L.view s).now reason
      { r with rejection := some ⟨wall, reason, (L.view s).now, attribution⟩ }).statuses =
      [.PENDING, .REJECTED] := by
    rw [statuses_moved]
    exact congrArg (· ++ [RequestStatus.REJECTED]) h.statuses
  refine ⟨gua_rewrites h.on.account hw (alive_of_pending h.status) rfl rfl
    (.rejected rfl hstatuses h.token h.ledger h.asked) (.inl rfl) (fun _ => .inr h.refused)
    fun hch => ?_, .rejected (h.on.rewrites hw) rfl hstatuses h.token
      h.ledger h.asked⟩
  rcases hch with ⟨-, hch⟩ | hch
  · exact absurd rfl hch
  · rcases h.asked with rfl | rfl <;> exact absurd rfl hch

/-- A record before its debit has no reason to be rejected but one: that it is not paid. -/
theorem Doomed.raised (h : Doomed L P env O rid r e t s) (hdebit : r.debit = none) :
    Raised L P env O rid t s :=
  .unpaid h.on ⟨h.status, h.statuses, hdebit, h.token, h.ledger⟩ h.asked h.refused

variable (L P env O rid) in
/-- The bank has confirmed the debit of the record, which is not claimed yet: the one point from
which the run may still reject it. -/
structure Paid (r : PipelineRecord cfg) (answer : HttpResult) (t : CoordinatorTrace σ cfg)
    (s : σ) : Prop where
  on : On L rid r (.of r.request none none none none) t s
  place : At P env O rid 0 t r
  debit : r.debit = some (answer.body P)
  tells : O.tells (.debit rid (debitRequest r.request)) (some answer) s
  confirms : Confirms P env r.request (some answer)

/-- A run that was just paid has done nothing else yet. -/
theorem Paid.fits (_ : Paid L P env O rid r answer t s) : Fits P 0 r none none none none :=
  fits_early (by omega) fun _ => rfl

/-- A run that was paid may be abandoned where its debit is odd or claimed. -/
theorem Paid.holding {answer : HttpResult} (h : Paid L P env O rid r answer t s)
    (hodd : (∃ e, toStr P.numeral (prop? r.debit "debitRef") = .error e) ∨
      Claimed (L.view s) r ∧ ∃ e, toStr P.numeral (prop? r.debit "amount") = .error e) :
    Holding L P env O rid 0 r none none t s :=
  ⟨h.on, h.place, h.fits, by omega, fun hk => absurd hk (by omega), .inl rfl, fun _ => hodd⟩

/-- Its record is still pending. -/
theorem Paid.status {answer : HttpResult} (h : Paid L P env O rid r answer t s) :
    r.status = .PENDING := (Option.some.inj h.place.status).symm

/-- A debit that another request has consumed is a reason to reject this one. -/
theorem Paid.doomed {answer : HttpResult} {owner : String} (h : Paid L P env O rid r answer t s)
    (howner : (L.view s).consumedDebitRefs.get ((answer.body P).get? "debitRef") = some owner)
    (hne : owner ≠ r.request.requestId) :
    Doomed L P env O rid r (.of r.request none none none none) t s :=
  ⟨h.on, .running h.place h.fits, h.status, h.place.statuses, h.place.backed.unsigned (by omega),
    h.place.backed.unrecorded (by omega), .inr rfl, .consumed h.tells h.confirms howner hne⟩

/-- The debit is registered as consumed by the request of the record. -/
theorem Paid.claim {answer : HttpResult} (h : Paid L P env O rid r answer t s) {u' : Store cfg}
    (hclaim : (L.view s).claimDebitRef ((answer.body P).get? "debitRef") r.request.requestId =
      (none, u')) :
    (walkRules P env O rid).gua t s (L.put s u') ∧
      Paid L P env O rid r answer (t ++ [.wrote s (L.put s u')]) (L.put s u') ∧ Claimed u' r := by
  set ref := (answer.body P).get? "debitRef" with href
  have hclaims : u' = { L.view s with
      consumedDebitRefs := (L.view s).consumedDebitRefs.set ref r.request.requestId } := by
    rcases claimDebitRef_cases ref r.request.requestId (L.view s) with ⟨owner, heq, -⟩ | ⟨heq, -⟩
    · rw [hclaim] at heq
      cases heq
    · exact congrArg Prod.snd (hclaim.symm.trans heq)
  have hall : ∀ i, u'.account i = (L.view s).account i := fun i => by
    rw [hclaims]
    rfl
  have hheap : u'.heap rid = r := by
    rw [hclaims]
    exact h.on.heap
  have hclaimed : Claimed u' r := by
    intro d hd hrefl
    obtain rfl : answer.body P = d := Option.some.inj (h.debit.symm.trans hd)
    rw [hclaims]
    exact JsMap.get_set_self hrefl
  refine ⟨⟨u', rfl, h.on.heap.symm ▸ alive_of_pending h.status, fun i _ => hall i,
    by rw [hheap, h.on.heap], ?_, .claim (h.on.heap.symm ▸ h.debit)
    (by rw [h.on.heap]; exact hclaim),
    .inl (by rw [hheap, h.on.heap]), fun hst => ?_, fun hch => .inl ?_⟩,
    ⟨h.on.wrote ((hall rid).trans h.on.account), h.place.mono (List.prefix_append _ _), h.debit,
      O.tells_put u' h.tells, h.confirms⟩, hclaimed⟩
  · rw [hheap, show u'.deeds rid = _ from congrArg Account.deeds ((hall rid).trans h.on.account)]
    exact .running h.place h.fits
  · rw [hheap, h.status] at hst
    cases hst
  · rwa [hall] at hch

/-- The debit is confirmed, once it is claimed. -/
theorem Paid.confirm {answer : HttpResult} (h : Paid L P env O rid r answer t s)
    (hclaimed : Claimed (L.view s) r) (note : String) :
    let s' := L.put s (Store.transition rid .DEBIT_CONFIRMED note (L.view s))
    (walkRules P env O rid).gua t s s' ∧ Standing L P env O rid 1
      (Store.moved .DEBIT_CONFIRMED (L.view s).now note r) (t ++ [.wrote s s']) s' := by
  intro s'
  have hw := @rewrites_transition _ .DEBIT_CONFIRMED (by decide) rid note (L.view s)
  rw [h.on.heap] at hw
  have hb := h.place.backed
  have hplace : At P env O rid 1 t (Store.moved .DEBIT_CONFIRMED (L.view s).now note r) :=
    h.place.advance rfl rfl ⟨hb.debited, fun hk => absurd hk (by omega),
      fun hk => absurd hk (by omega), fun hk => absurd hk (by omega),
      fun _ => hb.unsigned (by omega), fun hk => absurd hk (by omega),
      fun _ => hb.unrecorded (by omega)⟩
  refine ⟨gua_rewrites h.on.account hw (alive_of_pending h.status) rfl rfl ?_ (.inl rfl)
    (fun hst => nomatch hst) fun _ => .inr hclaimed,
    h.on.rewrites hw, hplace.mono (List.prefix_append _ _), le_rfl, by omega⟩
  exact .running hplace (fits_early (by omega) fun _ => rfl)

/-- The debit of a confirmation is claimed, and the run goes on. -/
theorem wp_claimDebit {answer : HttpResult} (h : Paid L P env O rid r answer t s) :
    wp (walkRules P env O rid) L (claimDebit P env rid r.request (answer.body P))
      (fun _ => Ending L P env O rid) (fun _ => Raised L P env O rid) t s := by
  have href : prop? r.debit "debitRef" = (answer.body P).get? "debitRef" := by
    rw [h.debit]
    rfl
  have hamount : prop? r.debit "amount" = (answer.body P).get? "amount" := by
    rw [h.debit]
    rfl
  simp only [claimDebit, wp_bind, wp_modifyGet]
  rcases claimDebitRef_cases ((answer.body P).get? "debitRef") r.request.requestId (L.view s) with
    ⟨owner, heq, howner, -, hne⟩ | ⟨heq, -⟩
  · rw [heq]
    have hq : Quiet (L.view s) (L.view s) := ⟨rfl, rfl⟩
    have hdoomed := h.doomed howner hne
    refine ⟨gua_quiet h.on.account hdoomed.phase (alive_of_pending h.status) hq, ?_⟩
    have h₁ : Paid L P env O rid r answer (t ++ [.wrote s (L.put s (L.view s))])
        (L.put s (L.view s)) :=
      ⟨h.on.quiet hq, h.place.mono (List.prefix_append _ _), h.debit, O.tells_put _ h.tells,
        h.confirms⟩
    refine wp_ofExcept_bind (fun ref _ => ?_) fun e he =>
      .holding (h₁.holding (.inl ⟨e, href ▸ he⟩))
    rw [wp_bind]
    refine (h₁.doomed (by rwa [L.view_put]) hne).wp_quiet ⟨rfl, rfl⟩ fun t s h => ?_
    exact wp_reject h
  · obtain ⟨hgua, h₁, hclaimed⟩ := h.claim heq
    rw [heq]
    refine ⟨hgua, ?_⟩
    refine wp_ofExcept_bind (fun ref _ => ?_) fun e he =>
      .holding (h₁.holding (.inl ⟨e, href ▸ he⟩))
    refine wp_ofExcept_bind (fun amount _ => ?_) fun e he =>
      .holding (h₁.holding (.inr ⟨by rwa [L.view_put], e, hamount ▸ he⟩))
    rw [wp_bind, wp_modify]
    obtain ⟨hgua₁, h₂⟩ := h₁.confirm (by rwa [L.view_put])
      ("debitRef " ++ ref ++ " · R" ++ amount ++
      " confirmed & verified")
    exact ⟨hgua₁, wp_publish h₂⟩

variable (L rid) in
/-- The run holds no debit yet: its record is unpaid, whether or not it has asked for the debit. -/
structure Before (r : PipelineRecord cfg) (e : Deeds) (t : CoordinatorTrace σ cfg) (s : σ) :
    Prop where
  on : On L rid r e t s
  unpaid : Unpaid r
  asked : e = .none ∨ e = .of r.request none none none none

/-- A run before its debit is at one of the two first phases. -/
theorem Before.phase (h : Before L rid r e t s) : Phase P env O rid t r e := by
  rcases h.asked with rfl | rfl
  · exact .idle h.unpaid
  · exact .asked h.unpaid

/-- It may await an answer. -/
theorem Before.rest (h : Before L rid r e t s) : (walkRules P env O rid).rest t s := by
  rcases h.asked with rfl | rfl
  · exact h.on.rest rfl (.inl rfl)
  · exact h.on.rest rfl (.inl rfl)

/-- It is still before its debit after an answer. -/
theorem Before.answered (h : Before L rid r e t s) {q : CoordinatorCall cfg} {a : q.Answer} {s' : σ}
    (hr : (walkRules P env O rid).resume q s a s')
    (hq : isReverse (.answered q a : Entry σ _ _) = false) :
    Before L rid r e (t ++ [.answered q a]) s' :=
  ⟨h.on.answered hr hq, h.unpaid, h.asked⟩

/-- A quiet write before the debit. -/
theorem Before.wp_quiet (h : Before L rid r e t s) {f : Store cfg → Store cfg}
    {post : Unit → CoordinatorTrace σ cfg → σ → Prop}
    {exn : String → CoordinatorTrace σ cfg → σ → Prop} (hq : Quiet (L.view s) (f (L.view s)))
    (hpost : Before L rid r e (t ++ [.wrote s (L.put s (f (L.view s)))])
        (L.put s (f (L.view s))) →
      post () (t ++ [.wrote s (L.put s (f (L.view s)))]) (L.put s (f (L.view s)))) :
    wp (walkRules P env O rid) L (.modify f) post exn t s :=
  ⟨gua_quiet h.on.account h.phase (alive_of_pending h.unpaid.status) hq,
    hpost ⟨h.on.quiet hq, h.unpaid, h.asked⟩⟩

/-- A run before its debit is rejected where there is a reason. -/
theorem Before.doomed (h : Before L rid r e t s) (hrefused : Refused P env O rid s ⟨r, e⟩) :
    Doomed L P env O rid r e t s :=
  ⟨h.on, h.phase, h.unpaid.status, h.unpaid.statuses, h.unpaid.token, h.unpaid.ledger, h.asked,
    hrefused⟩

/-- The bank's confirmation becomes the debit of the record. -/
theorem Before.pay {answer : HttpResult}
    (h : Before L rid r (.of r.request none none none none) t s)
    (hheard : .answered (.debit rid (debitRequest r.request)) (some answer) ∈ t)
    (htells : O.tells (.debit rid (debitRequest r.request)) (some answer) s)
    (hconfirms : Confirms P env r.request (some answer)) :
    let s' := L.put s ((L.view s).update rid fun r => { r with debit := some (answer.body P) })
    (walkRules P env O rid).gua t s s' ∧
      Paid L P env O rid { r with debit := some (answer.body P) } answer
      (t ++ [.wrote s s']) s' := by
  intro s'
  have hw := rewrites_update rid
    (fun r : PipelineRecord cfg => { r with debit := some (answer.body P) }) (L.view s)
  rw [h.on.heap] at hw
  obtain ⟨answer', heq, hok, hverified, hrequestId⟩ := hconfirms
  cases heq
  have hdebited : Debited P env O rid t r.request (answer.body P) :=
    ⟨⟨answer, ⟨hheard, s, htells⟩, hok, rfl⟩, hverified, strictEq_str.mp hrequestId⟩
  have hplace : At P env O rid 0 t { r with debit := some (answer.body P) } :=
    ⟨⟨⟨_, rfl, hdebited⟩, fun hk => absurd hk (by omega), fun hk => absurd hk (by omega),
      fun hk => absurd hk (by omega), fun _ => h.unpaid.token, fun hk => absurd hk (by omega),
      fun _ => h.unpaid.ledger⟩, congrArg some h.unpaid.status.symm, h.unpaid.statuses⟩
  refine ⟨gua_rewrites h.on.account hw (alive_of_pending h.unpaid.status) rfl rfl
    (.running hplace (fits_early (by omega) fun _ => rfl))
    (.inr ⟨h.unpaid.debit, answer, htells, ⟨answer, rfl, hok, hverified, hrequestId⟩, rfl⟩) .inl
    .inl, h.on.rewrites hw, hplace.mono (List.prefix_append _ _), rfl,
    O.tells_put _ htells, _, rfl, hok, hverified, hrequestId⟩

/-- A confirmation is checked, and claimed where it holds. -/
theorem wp_confirmed {answer : HttpResult}
    (h : Before L rid r (.of r.request none none none none) t s)
    (hheard : .answered (.debit rid (debitRequest r.request)) (some answer) ∈ t)
    (htells : O.tells (.debit rid (debitRequest r.request)) (some answer) s)
    (hok : answer.ok = true) :
    wp (walkRules P env O rid) L (confirmed P env rid r.request (answer.body P))
      (fun _ => Ending L P env O rid) (fun _ => Raised L P env O rid) t s := by
  rw [confirmed]
  split
  next hbad =>
    have hno : ¬ Confirms P env r.request (some answer) := by
      rintro ⟨answer', heq, -, hverified, hrequestId⟩
      cases heq
      simp [hverified, hrequestId] at hbad
    have hdoomed := h.doomed (.unconfirmed htells hno)
    rw [wp_bind]
    refine hdoomed.wp_quiet ⟨rfl, rfl⟩ fun t s hdoomed => ?_
    rw [wp_bind]
    exact hdoomed.wp_quiet ⟨rfl, rfl⟩ fun t s hdoomed => wp_reject hdoomed
  next hgood =>
    have hconfirms : Confirms P env r.request (some answer) := by
      simp only [Bool.or_eq_true, Bool.not_eq_true', not_or, Bool.not_eq_false] at hgood
      exact ⟨answer, rfl, hok, hgood.1, hgood.2⟩
    rw [wp_bind]
    refine h.wp_quiet ⟨rfl, rfl⟩ fun h => ?_
    obtain ⟨hgua, h⟩ := h.pay (List.mem_append_left _ hheard) (O.tells_put _ htells) hconfirms
    rw [wp_bind, wp_modify]
    exact ⟨hgua, wp_claimDebit (r := { r with debit := some (answer.body P) }) h⟩

/-- The account of a run that has asked for its debit. -/
theorem Before.account_ask (h : Before L rid r .none t s) :
    ((L.view s).requestDebit rid (debitRequest r.request)).account rid =
      ⟨r, .of r.request none none none none⟩ := by
  rw [account_requestDebit, h.on.heap, h.on.deeds]
  rfl

/-- The run asks for its debit, which is a move. -/
theorem Before.ask (h : Before L rid r .none t s) :
    (walkRules P env O rid).gua t s
      (L.put s ((L.view s).requestDebit rid (debitRequest r.request))) := by
  refine ⟨_, rfl, h.on.heap.symm ▸ alive_of_pending h.unpaid.status,
    fun i hi => (account_entries_of_ne _ hi).1 _, rfl, ?_, .ask _ rfl, .inl rfl, .inl,
    fun hch => .inl ?_⟩
  · rw [show ((L.view s).requestDebit rid (debitRequest r.request)).deeds rid = _ from
      congrArg Account.deeds h.account_ask]
    exact h.on.heap.symm ▸ Phase.asked h.unpaid
  · rw [h.account_ask] at hch
    rw [h.on.account]
    exact hch

/-- After that it has asked, and is still before its debit. -/
theorem Before.asked_next (h : Before L rid r .none t s) :
    let s' := L.put s ((L.view s).requestDebit rid (debitRequest r.request))
    Before L rid r (.of r.request none none none none) (t ++ [.wrote s s']) s' :=
  ⟨h.on.wrote h.account_ask, h.unpaid, .inr rfl⟩

/-- An answer that is no confirmation is a reason for the rejection. -/
theorem Before.unconfirmed {answer : Option HttpResult}
    (h : Before L rid r (.of r.request none none none none) t s)
    (htells : O.tells (.debit rid (debitRequest r.request)) answer s)
    (hno : ∀ r' : HttpResult, answer = some r' → r'.ok = false) :
    Doomed L P env O rid r (.of r.request none none none none) t s :=
  h.doomed (.unconfirmed htells fun ⟨r', heq, hok, _⟩ => by
    rw [hno r' heq] at hok
    cases hok)

/-- Step 3, the debit: the run goes on with a confirmation, or is rejected. -/
theorem wp_debit (h : Before L rid r .none t s) :
    wp (walkRules P env O rid) L (debit P env rid r.request)
      (fun _ => Ending L P env O rid) (fun _ => Raised L P env O rid) t s := by
  rw [debit, wp_bind]
  refine h.wp_quiet ⟨rfl, rfl⟩ fun h => ?_
  simp only [wp_bind, wp_modify, wp_call]
  refine ⟨h.ask, h.asked_next.rest, fun answer s' hr => ?_⟩
  have h₁ := h.asked_next.answered hr rfl
  cases answer with
  | none =>
      have hdoomed : Doomed L P env O rid r _ _ _ := h₁.unconfirmed hr.1 fun _ heq => by cases heq
      rw [wp_bind]
      refine hdoomed.wp_quiet ⟨rfl, rfl⟩ fun t s hdoomed => ?_
      rw [wp_bind]
      refine hdoomed.wp_quiet ⟨rfl, rfl⟩ fun t s hdoomed => ?_
      rw [wp_bind]
      exact hdoomed.wp_quiet ⟨rfl, rfl⟩ fun t s hdoomed => wp_reject hdoomed
  | some answer =>
      simp only
      rw [wp_bind]
      refine h₁.wp_quiet ⟨rfl, rfl⟩ fun h₂ => ?_
      split
      next hok =>
        have hdoomed : Doomed L P env O rid r _ _ _ := h₂.unconfirmed (O.tells_put _ hr.1)
          fun r' heq => by
          cases heq
          simpa using hok
        rw [wp_bind]
        refine hdoomed.wp_quiet ⟨rfl, rfl⟩ fun t s hdoomed => ?_
        refine wp_ofExcept_bind (fun reason _ => ?_) fun e _ => hdoomed.raised h.unpaid.debit
        rw [wp_bind]
        exact hdoomed.wp_quiet ⟨rfl, rfl⟩ fun t s hdoomed => wp_reject hdoomed
      next hok =>
        exact wp_confirmed h₂ (List.mem_append_left _ (List.mem_append_right _
          (List.mem_singleton_self _))) (O.tells_put _ hr.1) (by simpa using hok)

/-- Step 2, the pre-flight: the run goes on with a quorum of signers online, or is rejected. -/
theorem wp_preflight (h : Before L rid r .none t s) :
    wp (walkRules P env O rid) L (preflight P env rid r.request)
      (fun _ => Ending L P env O rid) (fun _ => Raised L P env O rid) t s := by
  rw [preflight, wp_bind]
  refine h.wp_quiet ⟨rfl, rfl⟩ fun h => ?_
  rw [wp_bind]
  refine wp_poll (J := Before L rid r .none) h.rest (fun signers a s' hr => h.answered hr rfl)
    fun online t s h _ => ?_
  split
  next =>
    have hdoomed : Doomed L P env O rid r .none t s := h.doomed (.unasked rfl)
    rw [wp_bind]
    exact hdoomed.wp_quiet ⟨rfl, rfl⟩ fun t s hdoomed => wp_reject hdoomed
  next => exact wp_debit h

/-- Step 1, the policy gate: the run goes on for a merchant that is known and not revoked, or is
rejected. -/
theorem wp_policyGate (h : Before L rid r .none t s) :
    wp (walkRules P env O rid) L (policyGate P env rid)
      (fun _ => Ending L P env O rid) (fun _ => Raised L P env O rid) t s := by
  have hdoomed : Doomed L P env O rid r .none t s := h.doomed (.unasked rfl)
  simp only [policyGate, theRecord, wp_bind, wp_gets, h.on.heap]
  split
  next =>
    rw [wp_bind]
    exact hdoomed.wp_quiet ⟨rfl, rfl⟩ fun t s hdoomed => wp_reject hdoomed
  next =>
    split
    next =>
      rw [wp_bind]
      exact hdoomed.wp_quiet ⟨rfl, rfl⟩ fun t s hdoomed => wp_reject hdoomed
    next => exact wp_preflight h

/-- A debit that names its request is truthy. -/
theorem Debited.truthy {request : GenerationRequest} {d : Json}
    (h : Debited P env O rid t request d) : truthy (some d) = true := by
  have hid := h.requestId
  cases d <;> first | rfl | cases hid

/-- The catch-all: a run that has raised is rejected or abandoned, by what it holds. -/
theorem wp_backstop (h : Raised L P env O rid t s) (err : String) :
    wp (walkRules P env O rid) L (backstop P rid err) (fun _ => Ending L P env O rid)
      (fun _ => Stuck L P env O rid) t s := by
  rw [backstop, wp_bind]
  cases h with
  | @holding k r receipt redeemed h =>
      simp only [theRecord, wp_gets, h.on.heap, h.place.alive h.le, if_false, wp_bind]
      obtain ⟨d, hd, hdebited⟩ := h.place.backed.debited
      rw [hd, if_pos hdebited.truthy]
      exact wp_abandon h
  | @unpaid r e hon h he hrefused =>
      have hterminal : r.status ∉ TERMINAL := by
        rw [h.status]
        decide
      simp only [theRecord, wp_gets, hon.heap, hterminal, if_false, wp_bind, h.debit]
      exact wp_reject (Before.doomed ⟨hon, h, he⟩ hrefused)

/-- **The run.** Whatever the answers, every write is a move, and the run ends in one of the
three ways, or holds a debit whose reference has no text. -/
theorem wp_runPipeline (haccount : (L.view s).account rid = ⟨r, .none⟩) (hunpaid : Unpaid r) :
    wp (walkRules P env O rid) L (runPipeline P env rid) (fun _ => Ending L P env O rid)
      (fun _ => Stuck L P env O rid) [] s := by
  have h : Before L rid r .none [] s := ⟨⟨haccount, rfl⟩, hunpaid, .inl rfl⟩
  rw [runPipeline, wp_bind]
  refine h.wp_quiet ⟨rfl, rfl⟩ fun h => ?_
  rw [wp_tryCatch]
  exact wp_mono (wp_policyGate h) (fun _ _ _ h => h) fun e t s h => wp_backstop h e

end Wall1

end NoGhost
