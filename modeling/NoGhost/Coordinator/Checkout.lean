import NoGhost.Coordinator.Purchase
import NoGhost.Coordinator.Runs
import NoGhost.Picking

/-!
# How a Purchase Ends

The end of a run among services that follow the code, from its four causes: how many active members
are online, how many approvals the ledger shows, which members refuse to sign, and their order.

## Main results

* `wp_ceremonyLoop_picks`: the loop of ceremonies picks a quorum with spares.
* `purchase_concludes`: a purchase is served as soon as there are enough willing signers; else it is
  refunded, or was never charged.
-/

open Js Async Picking

namespace NoGhost

section Checkout

variable {cfg : Config} {P : Platform} {env : CoordinatorEnv cfg} {key : BankKey}
  {member : cfg.SignerId → SignerEnv cfg} {M : ConsortiumManifest cfg} {keys : Frost.KeygenOutput}
  {c : Attendance cfg} {rid : ℕ} {request : GenerationRequest} {d : DebitConfirmation}
  {r r' : PipelineRecord cfg} {names : List cfg.SignerId} {n : ℕ}
  {t : CoordinatorTrace (Services cfg) cfg} {s : Services cfg}

/-! ### The loop of ceremonies -/

variable (P env c rid request) in
/-- How a loop of ceremonies ends that has picked a quorum, or none. -/
def Closed (d : DebitConfirmation) (picked : Option (List (SignerInfo cfg.SignerId)))
    (names : List cfg.SignerId) (n : ℕ) (t : CoordinatorTrace (Services cfg) cfg)
    (s : Services cfg) : Prop :=
  match picked with
  | some chosen => Vended P env c rid request d chosen names (n + 1) t s
  | none => Refunded c rid request d
      ("SIGNERS_REFUSED (" ++ joinIds ", " names ++ ") · no spare signer available") names n t s

/-- A member that has refused is named. -/
theorem Secured.named (h : Secured P c rid request d r names n t s) (i : cfg.SignerId)
    (detail : Option Json) :
    let u' := s.store.addGovernanceEntry "SIGNER_REFUSED" (cfg.idText i) (cfg.idText i) detail
    Secured P c rid request d r (names ++ [i]) n (t ++ [.wrote s { s with store := u' }])
      { s with store := u' } :=
  ⟨⟨h.record, h.request_eq, h.active, h.online, h.ledger, ceremonies_wrote.trans h.ceremonies,
    h.refusals.named rfl⟩, h.debit, h.logged, h.unspent⟩

/-- The pool without a member is what was before and behind it. -/
theorem filter_spares {front back : List (SignerInfo cfg.SignerId)} {i : SignerInfo cfg.SignerId}
    (hnd : ((front ++ i :: back).map (·.signerId)).Nodup) :
    (front ++ i :: back).filter (fun j => j.signerId ≠ i.signerId) = front ++ back := by
  rw [List.map_append, List.map_cons] at hnd
  obtain ⟨-, hback, hfront⟩ := List.nodup_append.mp hnd
  obtain ⟨hnew, -⟩ := List.nodup_cons.mp hback
  have hkept : front.filter (fun j => j.signerId ≠ i.signerId) = front :=
    List.filter_eq_self.mpr fun j hj => decide_eq_true fun heq =>
      hfront _ (List.mem_map_of_mem hj) _ List.mem_cons_self heq
  have hkept' : back.filter (fun j => j.signerId ≠ i.signerId) = back :=
    List.filter_eq_self.mpr fun j hj => decide_eq_true fun heq =>
      hnew (heq ▸ List.mem_map_of_mem hj)
  rw [List.filter_append, List.filter_cons_of_neg (by simp), hkept, hkept']

/-- A member that has refused is no longer in the pool, and those that are left pick as before. -/
theorem picks_of_refusal {pool : List (SignerInfo cfg.SignerId)} {i : SignerInfo cfg.SignerId}
    (hpool : (c.roster.filter fun j => j.signerId ∉ names) = pool) (hlong : cfg.t ≤ pool.length)
    (hfind : (pool.take cfg.t).find? (fun j => c.refuses j.signerId) = some i) :
    i.signerId ∉ names ∧ ∃ rest, (c.roster.filter fun j => j.signerId ∉ names ++
      [i.signerId]) = rest ∧
      rest.length < pool.length ∧ ∀ dropped picked,
        Picks (fun j => c.refuses j.signerId) cfg.t rest dropped picked →
          Picks (fun j => c.refuses j.signerId) cfg.t pool (i :: dropped) picked := by
  obtain ⟨front, back, hsplit, hfront, hfit, hrefuses⟩ := exists_front_of_find? hlong hfind
  have hnew : i.signerId ∉ names := by
    have hmem : i ∈ pool := hsplit ▸ List.mem_append_right _ List.mem_cons_self
    rw [← hpool] at hmem
    simpa using (List.mem_filter.mp hmem).2
  have hrest : (c.roster.filter fun j => j.signerId ∉ names ++ [i.signerId]) = front ++ back := by
    have hsub : pool.Sublist c.roster := hpool ▸ List.filter_sublist
    have hnd := (c.registered.sublist hsub).nodup_signerId
    rw [hsplit] at hnd
    rw [← filter_spares hnd, ← hsplit, ← hpool, List.filter_filter]
    refine List.filter_congr fun j _ => ?_
    simp [and_comm]
  refine ⟨hnew, _, hrest, ?_, fun dropped picked hpicks => ?_⟩
  · rw [hsplit, List.length_append, List.length_append, List.length_cons]
    omega
  · rw [hsplit] at hlong ⊢
    exact .drop hfront hlong hfit hrefuses hpicks

section Loop

variable {exn : String → CoordinatorTrace (Services cfg) cfg → Services cfg → Prop}
  {publication : Publication} {chosen : List (SignerInfo cfg.SignerId)}

/-- **An attempt** of a purchase holds one ceremony, and ends as the first refuser among the chosen
members has it. -/
theorem Secured.wp_attempt (h : Secured P c rid request d r names n t s)
    (hprovisioned : Provisioned P env key member M keys)
    (hconfirmed : ConfirmedBy P key request d) (hnamed : request.requestId ≠ "")
    (hflags : ∀ i, (s.member i).refuse = c.refuses i) (hchosen : Registered chosen)
    (hlength : cfg.t ≤ chosen.length) (honline : ∀ i ∈ chosen, c.online i.signerId = true) :
    wp (purchaseRules P key member M c request rid) (Services.lens cfg)
      (runCeremony P env rid chosen (d.tokenPayload P) ((d.tokenPayload P).message P)
        (bytesToHex ((d.tokenPayload P).message P)))
      (fun outcome t s => (Secured P c rid request d r names (n + 1) t s ∧
          ∀ i, (s.member i).refuse = c.refuses i) ∧
        Attempted P env c.refuses (d.tokenPayload P) chosen outcome)
      (fun _ _ _ => False) t s := by
  refine wp_runCeremony_following
    (J := fun t s => Secured P c rid request d r names (n + 1) t s ∧
      ∀ i, (s.member i).refuse = c.refuses i)
    (K := fun t s => Secured P c rid request d r names n t s ∧
      ∀ i, (s.member i).refuse = c.refuses i)
    hprovisioned.toStaffed hchosen hlength h.record h.debit (h.request_eq ▸ hconfirmed)
    (h.request_eq ▸ hnamed) (fun _ _ _ => trivial) (fun _ _ _ => trivial)
    (fun body a t s s' hK hr => ?_) (fun signer body a t s s' hJ hr => ?_)
    (fun t s hJ i hi => ⟨(hJ.1.online _).trans (honline i hi), hJ.2 _⟩)
    (fun i hi => (h.online _).trans (honline i hi)) ⟨h, hflags⟩
  · obtain ⟨hcoop, hkept⟩ := hr.2
    rw [h.request_eq]
    exact ⟨⟨hK.1.committed hr, fun i => (hkept i).trans (hK.2 i)⟩, hcoop⟩
  · obtain ⟨hcoop, hkept⟩ := hr.2
    rw [h.request_eq]
    exact ⟨⟨hJ.1.answered hr rfl, fun i => (hkept i).trans (hJ.2 i)⟩, hcoop⟩

/-- An attempt that made a token: it is kept in the record, and the purchase is served. -/
theorem Secured.wp_signed (h : Secured P c rid request d r names n t s)
    (hprovisioned : Provisioned P env key member M keys) (hchosen : Registered chosen)
    (honline : ∀ i ∈ chosen, c.online i.signerId = true)
    (hhash : publication.requestHash = hashValue P (some request.toJson)) {token : Token}
    (hpayload : token.toTokenPayload = d.tokenPayload P)
    (hverified : Frost.verifySignature P.toCurve token.signature ((d.tokenPayload P).message P)
      env.GROUP.groupPublicKey = true) (note : String) :
    wp (purchaseRules P key member M c request rid) (Services.lens cfg)
      (do
        Prog.modify fun u => Store.transition rid .SIGNED note (u.update rid fun r =>
          { r with token := some token, signerSet := some (chosen.map (·.signerId)) })
        settleReceipt P env rid publication token (chosen.map (·.signerId)))
      (fun _ => Vended P env c rid request d chosen names n) exn t s := by
  rw [wp_bind, wp_modify]
  refine ⟨trivial, ?_⟩
  have hstep := setsOnlyRecord_step rid .SIGNED note (fun r : PipelineRecord cfg =>
    { r with token := some token, signerSet := some (chosen.map (·.signerId)) }) s.store
  rw [h.record] at hstep
  exact wp_settleReceipt_vended hprovisioned hchosen honline hhash
    ⟨h.wrote hstep rfl rfl, rfl, hpayload, hverified, rfl⟩

/-- An attempt that was refused: the refuser is named, an alert is raised, and the loop goes on. -/
theorem Secured.wp_refused (h : Secured P c rid request d r names n t s)
    (hflags : ∀ i, (s.member i).refuse = c.refuses i) (i : cfg.SignerId) (text : String)
    {rest : CoordinatorProg cfg Unit}
    {post : Unit → CoordinatorTrace (Services cfg) cfg → Services cfg → Prop}
    (hrest : ∀ t s, Secured P c rid request d r (names ++ [i]) n t s →
      (∀ i, (s.member i).refuse = c.refuses i) →
        wp (purchaseRules P key member M c request rid) (Services.lens cfg) rest post exn t s) :
    wp (purchaseRules P key member M c request rid) (Services.lens cfg)
      (do
        Prog.modify (Store.addGovernanceEntry "SIGNER_REFUSED" (cfg.idText i) (cfg.idText i)
          (some (.str text)))
        let alert ← Prog.ofExcept (refusalAlert P r.request.requestId i (some (.str text)))
        Prog.modify (Store.addAlert alert)
        rest)
      post exn t s := by
  obtain ⟨alert, halert⟩ : ∃ alert,
      refusalAlert P r.request.requestId i (some (.str text)) = .ok alert := ⟨_, rfl⟩
  simp only [wp_bind, wp_modify, Services.lens_view, Services.lens_put, halert, wp_ofExcept_ok]
  have h₁ := h.named i (some (.str text))
  exact ⟨trivial, trivial, hrest _ _ (h₁.wrote ⟨⟨h₁.record, rfl, rfl⟩, rfl, rfl, rfl⟩ rfl rfl)
    hflags⟩

/-- **The loop of ceremonies** picks a quorum with spares: the signers that refuse are named in the
governance log, one ceremony each. Induction on the fuel. -/
theorem wp_ceremonyLoop_picks (hprovisioned : Provisioned P env key member M keys)
    (hconfirmed : ConfirmedBy P key request d) (hnamed : request.requestId ≠ "")
    (hhash : publication.requestHash = hashValue P (some request.toJson)) {fuel : ℕ}
    {pool : List (SignerInfo cfg.SignerId)}
    (hpool : (c.roster.filter fun i => i.signerId ∉ names) = pool) (hfuel : pool.length < fuel)
    (h : Secured P c rid request d r names n t s)
    (hflags : ∀ i, (s.member i).refuse = c.refuses i) :
    wp (purchaseRules P key member M c request rid) (Services.lens cfg)
      (ceremonyLoop P env rid publication c.roster (d.tokenPayload P) ((d.tokenPayload P).message P)
        fuel names)
      (fun _ t s => ∃ dropped picked,
        Picks (fun i => c.refuses i.signerId) cfg.t pool dropped picked ∧
          Closed P env c rid request d picked (names ++ dropped.map (·.signerId))
            (n + dropped.length) t s)
      exn t s := by
  induction fuel generalizing names n pool t s with
  | zero => omega
  | succ fuel ih =>
      rw [ceremonyLoop, hpool]
      split
      next hshort =>
        refine wp_mono (wp_abandon_refunded h hconfirmed.named _ _) (fun _ t s h => ?_)
          fun _ _ _ h => h
        exact ⟨[], none, .short hshort, by rw [List.map_nil, List.append_nil]; exact h⟩
      next hlong =>
        have hlong := not_lt.mp hlong
        have hsub : pool.Sublist c.roster := hpool ▸ List.filter_sublist
        have hchosen : Registered (pool.take cfg.t) :=
          (c.registered.sublist hsub).sublist (List.take_sublist _ _)
        have honline : ∀ i ∈ pool.take cfg.t, c.online i.signerId = true := fun i hi =>
          Attendance.online_of_mem (hsub.subset (List.mem_of_mem_take hi))
        simp only [theRecord, wp_bind, wp_gets, Services.lens_view, h.record]
        refine wp_mono (h.wp_attempt hprovisioned hconfirmed hnamed hflags hchosen
          (List.length_take_of_le hlong).ge honline) (fun outcome t s hend => ?_)
          fun e t s hfalse => hfalse.elim
        obtain ⟨⟨h, hflags⟩, hattempted⟩ := hend
        rw [Attempted] at hattempted
        cases hfind : (pool.take cfg.t).find? fun i => c.refuses i.signerId with
        | none =>
            rw [hfind] at hattempted
            obtain ⟨token, rfl, hpayload, hverified⟩ := hattempted
            have hfit : ∀ i ∈ pool.take cfg.t, c.refuses i.signerId = false := fun i hi =>
              Bool.not_eq_true _ ▸ List.find?_eq_none.mp hfind i hi
            refine wp_mono (h.wp_signed hprovisioned hchosen honline hhash hpayload hverified _)
              (fun _ t s h => ?_) fun _ _ _ h => h
            exact ⟨[], some (pool.take cfg.t), .found hlong hfit, by
              rw [List.map_nil, List.append_nil]
              exact h⟩
        | some i =>
            rw [hfind] at hattempted
            obtain ⟨text, rfl⟩ := hattempted
            obtain ⟨hnew, rest, hrest, hlength, hdrop⟩ := picks_of_refusal hpool hlong hfind
            refine h.wp_refused hflags i.signerId text fun t s h hflags => ?_
            rw [if_neg hnew]
            refine wp_mono (ih hrest (by omega) h hflags) (fun _ t s hend => ?_) fun _ _ _ h => h
            obtain ⟨dropped, picked, hpicks, hclosed⟩ := hend
            refine ⟨i :: dropped, picked, hdrop _ _ hpicks, ?_⟩
            rw [List.map_cons, List.length_cons]
            rwa [List.append_assoc, List.singleton_append, Nat.add_assoc, Nat.add_comm 1] at hclosed

end Loop

/-! ### From the debit to the quorum -/

section Steps

variable {exn : String → CoordinatorTrace (Services cfg) cfg → Services cfg → Prop}
  {publication : Publication}

variable (P env c rid request) in
/-- How a purchase ends that has a debit: without enough approvals it is refunded, and else by the
picking of the quorum. -/
def Settled (d : DebitConfirmation) (t : CoordinatorTrace (Services cfg) cfg)
    (s : Services cfg) : Prop :=
  if c.approvals < cfg.XRPL_MULTISIGN_QUORUM then
    Refunded c rid request d ("ONCHAIN_APPROVAL_SHORT (" ++ toString c.approvals ++ "/" ++
      toString cfg.XRPL_MULTISIGN_QUORUM ++ ")") [] 0 t s
  else ∃ dropped picked, Picks (fun i => c.refuses i.signerId) cfg.t c.roster dropped picked ∧
    Closed P env c rid request d picked (dropped.map (·.signerId)) dropped.length t s

/-- Step 6: the ceremonies end as the willing members among the roster have it. -/
theorem wp_ceremony_settled (hprovisioned : Provisioned P env key member M keys)
    (hconfirmed : ConfirmedBy P key request d) (hnamed : request.requestId ≠ "")
    (hhash : publication.requestHash = hashValue P (some request.toJson))
    (hroster : cfg.t ≤ c.roster.length) (happroved : cfg.XRPL_MULTISIGN_QUORUM ≤ c.approvals)
    (h : Secured P c rid request d r [] 0 t s) :
    wp (purchaseRules P key member M c request rid) (Services.lens cfg)
    (ceremony P env rid publication)
      (fun _ => Settled P env c rid request d) exn t s := by
  rw [ceremony, wp_bind]
  refine h.wp_write (v := r) ⟨⟨h.record, rfl, rfl⟩, rfl, rfl, rfl⟩ rfl rfl fun t s h => ?_
  rw [wp_bind]
  refine wp_poll_roster h.toCourse fun signers a s' hr => ?_
  have h₁ := h.answered hr rfl
  simp only [theRecord, wp_bind, wp_gets, Services.lens_view, h₁.record,
    not_lt.mpr hroster, if_false,
    h₁.debit, d.buildTokenPayload_toJson, wp_ofExcept_ok]
  refine wp_mono (wp_ceremonyLoop_picks hprovisioned hconfirmed hnamed
    hhash (List.filter_eq_self.mpr fun i _ => decide_eq_true List.not_mem_nil)
    (Nat.lt_succ_self _) h₁
    hr.2.2) (fun _ t s hend => ?_) fun _ _ _ h => h
  obtain ⟨dropped, picked, hpicks, hclosed⟩ := hend
  rw [Settled, if_neg (not_lt.mpr happroved)]
  rw [List.nil_append, Nat.zero_add] at hclosed
  exact ⟨dropped, picked, hpicks, hclosed⟩

/-- Step 5: with enough approvals on the ledger the run goes on to the ceremonies. -/
theorem wp_approve_settled (hprovisioned : Provisioned P env key member M keys)
    (hconfirmed : ConfirmedBy P key request d) (hnamed : request.requestId ≠ "")
    (hhash : publication.requestHash = hashValue P (some request.toJson))
    (hroster : cfg.t ≤ c.roster.length) (h : Secured P c rid request d r [] 0 t s) :
    wp (purchaseRules P key member M c request rid) (Services.lens cfg)
    (approve P env rid publication)
      (fun _ => Settled P env c rid request d) exn t s := by
  rw [approve, wp_bind]
  refine h.wp_write (v := r) ⟨⟨h.record, rfl, rfl⟩, rfl, rfl, rfl⟩ rfl rfl fun t s h => ?_
  rw [wp_bind]
  refine wp_poll_roster h.toCourse fun signers a s' hr => ?_
  have h₁ := h.answered hr rfl
  rw [if_neg (not_lt.mpr hroster)]
  simp only [gatherApprovals, wp_bind, wp_call, hprovisioned.readable, wp_ofExcept_ok]
  refine ⟨trivial, fun a s' hr => ⟨trivial, fun a' s'' hr' => ?_⟩⟩
  have h₂ := (h₁.answered hr rfl).answered hr' rfl
  obtain ⟨txs, approvals, rfl, hread, hcount⟩ := hr'.2
  rw [← hhash] at hread
  simp only [wp_ofExcept_ok, hread, wp_bind, wp_modify, wp_pure, theRecord, wp_gets,
    Services.lens_view,
    Services.lens_put, hcount]
  refine ⟨trivial, ?_⟩
  have hupdate := setsOnlyRecord_update rid (fun r : PipelineRecord cfg =>
    { r with approvals := some approvals })
    s''.store
  rw [h₂.record] at hupdate
  have h₃ := h₂.wrote hupdate rfl rfl
  split
  next hshort =>
    rw [wp_bind]
    refine h₃.wp_write ⟨⟨h₃.record, rfl, rfl⟩, rfl, rfl, rfl⟩ rfl rfl fun t s h => ?_
    refine wp_mono (wp_abandon_refunded h hconfirmed.named _ _) (fun _ t s h => ?_)
      fun _ _ _ h => h
    rw [Settled, if_pos hshort]
    exact h
  next hlong =>
    rw [wp_bind]
    have hmoved := setsOnlyRecord_transition rid .APPROVED ("on-chain approvals: " ++
      joinIds " + " ((approvals.filter (·.approves)).map (·.signerId)))
      (s''.store.update rid fun r : PipelineRecord cfg => { r with approvals := some approvals })
    rw [hupdate.own] at hmoved
    exact h₃.wp_write hmoved rfl rfl fun t s h =>
      wp_ceremony_settled hprovisioned hconfirmed hnamed hhash hroster (not_lt.mp hlong) h

/-- Step 4: the request is published, and the run goes on. -/
theorem wp_publish_settled (hprovisioned : Provisioned P env key member M keys)
    (hconfirmed : ConfirmedBy P key request d) (hnamed : request.requestId ≠ "")
    (hroster : cfg.t ≤ c.roster.length) (h : Secured P c rid request d r [] 0 t s) :
    wp (purchaseRules P key member M c request rid) (Services.lens cfg) (publish P env rid)
      (fun _ => Settled P env c rid request d) exn t s := by
  obtain ⟨publisher, hpublisher⟩ := hprovisioned.publisher
  obtain ⟨encKey, hkey⟩ := hprovisioned.encKey
  rw [publish, wp_bind]
  refine h.wp_write (v := r) ⟨⟨h.record, rfl, rfl⟩, rfl, rfl, rfl⟩ rfl rfl fun t s h => ?_
  simp only [wp_bind, wp_tryCatch, wp_map, publishOnChain, hpublisher, theRecord,
    wp_gets, Services.lens_view,
    h.record, hprovisioned.readable, hkey, wp_ofExcept_ok, wp_call]
  refine ⟨trivial, fun a s' hr => ?_⟩
  obtain ⟨txHash, rfl⟩ := hr.2
  have h₁ := h.answered hr rfl
  simp only [wp_ofExcept_ok, wp_pure, wp_modify, wp_bind, Services.lens_view, Services.lens_put]
  refine ⟨trivial, ?_⟩
  have hstep := setsOnlyRecord_step rid .PUBLISHED ("request on-chain (encrypted): " ++ txHash)
    (fun r' : PipelineRecord cfg => { r' with
      publication := some ⟨hashValue P (some r.request.toJson), txHash⟩ }) s'.store
  rw [h₁.record] at hstep
  exact wp_approve_settled hprovisioned hconfirmed hnamed (by rw [h.request_eq]) hroster
    (h₁.wrote hstep rfl rfl)

/-! ### The debit -/

variable (P c rid request) in
/-- The bank has confirmed the debit `d`, which is in its log, and the run has not claimed it yet,
nor has any other. -/
structure Told (d : DebitConfirmation) (r : PipelineRecord cfg)
    (t : CoordinatorTrace (Services cfg) cfg)
    (s : Services cfg) : Prop extends Course c rid request r [] 0 t s where
  logged : ∃ e ∈ s.bank.debitLog, e.debit = d
  unclaimed : Unclaimed P s.store d.toJson

/-- A write of its own record leaves the purchase as it was told. -/
theorem Told.wrote (h : Told P c rid request d r t s) {w : Store cfg}
    (ha : SetsOnlyRecord rid r' s.store w)
    (hrequest : r'.request = r.request) :
    Told P c rid request d r' (t ++ [.wrote s { s with store := w }]) { s with store := w } :=
  ⟨h.toCourse.wrote ha.toSetsRecord hrequest, h.logged, by
    rw [ha.claims]
    exact h.unclaimed.claims, fun payload hpayload => (ha.redeemed payload).trans
      (h.unclaimed.unspent payload hpayload)⟩

/-- Such a write, in the proof of a program. -/
theorem Told.wp_write (h : Told P c rid request d r t s) {v : PipelineRecord cfg}
    {f : Store cfg → Store cfg}
    {post : Unit → CoordinatorTrace (Services cfg) cfg → Services cfg → Prop}
    (ha : SetsOnlyRecord rid v s.store (f s.store)) (hrequest : v.request = r.request)
    (hpost : ∀ t s, Told P c rid request d v t s → post () t s) :
    wp (purchaseRules P key member M c request rid) (Services.lens cfg) (.modify f) post exn t s :=
  ⟨trivial, hpost _ _ (h.wrote ha hrequest)⟩

/-- The debit is claimed, since nobody else holds its reference. -/
theorem wp_claimDebit_settled (hprovisioned : Provisioned P env key member M keys)
    (hconfirmed : ConfirmedBy P key request d) (hnamed : request.requestId ≠ "")
    (hroster : cfg.t ≤ c.roster.length) (h : Told P c rid request d r t s)
    (hdebit : r.debit = some d.toJson) :
    wp (purchaseRules P key member M c request rid) (Services.lens cfg)
      (claimDebit P env rid request d.toJson) (fun _ => Settled P env c rid request d) exn t s := by
  have href : d.toJson.get? "debitRef" = some (.str d.debitRef) := by
    rw [← d.sent_toJson, d.get?_debitRef]
  have hamount : d.toJson.get? "amount" = some (.num (.fin d.amount)) := by
    rw [← d.sent_toJson, d.get?_amount]
  have hclaims := h.unclaimed.claims
  have hunspent := h.unclaimed.unspent _ d.buildTokenPayload_toJson
  set u : Store cfg := { s.store with
    consumedDebitRefs :=
      s.store.consumedDebitRefs.set (some (.str d.debitRef)) request.requestId } with hu
  have hclaim : s.store.claimDebitRef (some (.str d.debitRef)) request.requestId = (none, u) := by
    rw [href] at hclaims
    rw [Store.claimDebitRef, hclaims]
  obtain ⟨amount, htext⟩ : ∃ amount, toStr P.numeral (some (.num (.fin d.amount))) =
    .ok amount := ⟨_, rfl⟩
  obtain ⟨ref, htext'⟩ : ∃ ref, toStr P.numeral (some (.str d.debitRef)) = .ok ref := ⟨_, rfl⟩
  simp only [claimDebit, wp_bind, wp_modifyGet, Services.lens_view, Services.lens_put, href,
    hamount, hclaim, htext,
    htext', wp_ofExcept_ok]
  refine ⟨trivial, ?_⟩
  have h₁ : Secured P c rid request d r [] 0 _ { s with store := u } :=
    ⟨h.toCourse.wrote ⟨h.record, rfl, rfl⟩ rfl, hdebit, h.logged, hunspent⟩
  have hmoved := setsOnlyRecord_transition rid .DEBIT_CONFIRMED
    ("debitRef " ++ ref ++ " · R" ++ amount ++
    " confirmed & verified") u
  rw [show u.heap rid = r from h.record] at hmoved
  exact h₁.wp_write hmoved rfl rfl fun t s h =>
    wp_publish_settled hprovisioned hconfirmed hnamed hroster h

/-- The confirmation is accepted, since the bank has signed it for the request. -/
theorem wp_confirmed_settled (hprovisioned : Provisioned P env key member M keys)
    (hconfirmed : ConfirmedBy P key request d) (hnamed : request.requestId ≠ "")
    (hroster : cfg.t ≤ c.roster.length) (h : Told P c rid request d r t s) :
    wp (purchaseRules P key member M c request rid) (Services.lens cfg)
      (confirmed P env rid request d.toJson) (fun _ => Settled P env c rid request d) exn t s := by
  have hverified : verifyAttestation P env d.toJson = true := by
    rw [verifyAttestation, hprovisioned.bankKey, ← d.sent_toJson]
    exact d.verified_confirmation hconfirmed.signed
  have hid : strictEq (d.toJson.get? "requestId") (some (.str request.requestId)) = true := by
    rw [← d.sent_toJson, d.get?_requestId, hconfirmed.requestId]
    exact strictEq_str.mpr rfl
  rw [confirmed, hverified, hid]
  simp only [Bool.not_true, Bool.or_self, Bool.false_eq_true, if_false]
  rw [wp_bind]
  refine h.wp_write (v := r) ⟨⟨h.record, rfl, rfl⟩, rfl, rfl, rfl⟩ rfl fun t s h => ?_
  have hupdate := setsOnlyRecord_update rid (fun r : PipelineRecord cfg =>
    { r with debit := some d.toJson })
    s.store
  rw [h.record] at hupdate
  rw [wp_bind]
  exact h.wp_write hupdate rfl fun t s h =>
    wp_claimDebit_settled hprovisioned hconfirmed hnamed hroster h rfl

/-- Step 3: the bank confirms the debit, and the run goes on with it. -/
theorem wp_debit_settled (hprovisioned : Provisioned P env key member M keys)
    (hnamed : request.requestId ≠ "") (hmetered : request.meterId ≠ "")
    (hroster : cfg.t ≤ c.roster.length) (h : Course c rid request r [] 0 t s) :
    wp (purchaseRules P key member M c request rid) (Services.lens cfg) (debit P env rid request)
      (fun _ t s => ∃ d, ConfirmedBy P key request d ∧ Settled P env c rid request d t s)
      exn t s := by
  rw [debit, wp_bind]
  refine h.wp_write (v := r) ⟨h.record, rfl, rfl⟩ rfl fun t s h => ?_
  rw [wp_bind]
  refine h.wp_write (v := r) ⟨h.record, rfl, rfl⟩ rfl fun t s h => ?_
  simp only [wp_bind, wp_call]
  refine ⟨trivial, fun a s' hr => ?_⟩
  have h₁ := h.answered hr rfl
  obtain ⟨b, b', random, answer, hmode, hprior, -, hsettle, rfl, hgrows, hunclaimed⟩ := hr.2
  obtain ⟨d, hconfirmed, hok, hbody, hlogged⟩ :=
    confirmedBy_postDebit hnamed hmetered hmode hprior hsettle
  rw [hbody] at hunclaimed
  have h₂ : Told P c rid request d r _ s' := ⟨h₁, hgrows.logged hlogged, hunclaimed⟩
  simp only [hok, hbody, Bool.not_true, Bool.false_eq_true, if_false]
  rw [wp_bind]
  refine h₂.wp_write (v := r) ⟨⟨h₂.record, rfl, rfl⟩, rfl, rfl, rfl⟩ rfl fun t s h => ?_
  exact wp_mono (wp_confirmed_settled hprovisioned hconfirmed hnamed hroster h)
    (fun _ t s hend => ⟨d, hconfirmed, hend⟩) fun _ _ _ h => h

end Steps

/-! ### The whole run -/

/-- Where a purchase starts: with a new record, for a merchant that is not revoked, and with the
consortium as the purchase finds it. -/
structure Opening (c : Attendance cfg) (rid : ℕ) (request : GenerationRequest) (s : Services cfg) :
    Prop where
  record : s.store.heap rid = .new cfg request
  requestId : request.requestId ≠ ""
  meterId : request.meterId ≠ ""
  merchant : ∃ merchant, s.store.getMerchant request.merchantId = some merchant ∧
    merchant.revoked = false
  active : ∀ i, s.store.isMemberActive i = c.active i
  online : ∀ i, (s.member i).online = c.online i
  ledger : Ledger s.bank

/-- The purchase was declined: its record is rejected, and no debit was asked for, so that nobody
has paid. -/
structure Declined (rid : ℕ) (t : CoordinatorTrace (Services cfg) cfg) (s : Services cfg) :
    Prop where
  status : (s.store.heap rid).status = .REJECTED
  debit : (s.store.heap rid).debit = none
  unasked : ∀ body a, .answered (.debit rid body) a ∉ t

/-- **How a purchase ends.** Below the threshold it is declined. Short of approvals, or of willing
signers, it is refunded. With enough of both it is served: `m` is the least number of signers from
the roster among whom enough are willing; these sign, and the others among them have refused and are
named, one ceremony each. -/
structure Concluded (P : Platform) (env : CoordinatorEnv cfg) (key : BankKey) (c : Attendance cfg)
    (rid : ℕ) (request : GenerationRequest) (t : CoordinatorTrace (Services cfg) cfg)
    (s : Services cfg) :
    Prop where
  declined : c.roster.length < cfg.t → Declined rid t s
  short : cfg.t ≤ c.roster.length → c.approvals < cfg.XRPL_MULTISIGN_QUORUM →
    ∃ d, ConfirmedBy P key request d ∧ Refunded c rid request d ("ONCHAIN_APPROVAL_SHORT (" ++
      toString c.approvals ++ "/" ++ toString cfg.XRPL_MULTISIGN_QUORUM ++ ")") [] 0 t s
  refused : cfg.t ≤ c.roster.length → cfg.XRPL_MULTISIGN_QUORUM ≤ c.approvals →
    (c.roster.filter fun i => !c.refuses i.signerId).length < cfg.t →
    ∃ d names, ConfirmedBy P key request d ∧
      names = ((c.roster.filter fun i => c.refuses i.signerId).take
        (c.roster.length + 1 - cfg.t)).map (·.signerId) ∧
      Refunded c rid request d ("SIGNERS_REFUSED (" ++ joinIds ", " names ++
        ") · no spare signer available") names names.length t s
  served : cfg.XRPL_MULTISIGN_QUORUM ≤ c.approvals →
    cfg.t ≤ (c.roster.filter fun i => !c.refuses i.signerId).length →
    ∃ d m, ConfirmedBy P key request d ∧
      IsLeast {m | cfg.t ≤ ((c.roster.take m).filter fun i => !c.refuses i.signerId).length} m ∧
      Vended P env c rid request d ((c.roster.take m).filter fun i => !c.refuses i.signerId)
        (((c.roster.take m).filter fun i => c.refuses i.signerId).map (·.signerId))
        (m - cfg.t + 1) t s

variable (c rid request) in
/-- A run on its course that has not asked for a debit, up to the pre-flight. -/
structure Early (r : PipelineRecord cfg) (t : CoordinatorTrace (Services cfg) cfg)
    (s : Services cfg) : Prop
    extends Course c rid request r [] 0 t s where
  debit : r.debit = none
  unasked : ∀ body a, .answered (.debit rid body) a ∉ t

/-- A write of its own record before the debit, in the proof of a program. -/
theorem Early.wp_write (h : Early c rid request r t s) {v : PipelineRecord cfg}
    {f : Store cfg → Store cfg}
    {post : Unit → CoordinatorTrace (Services cfg) cfg → Services cfg → Prop}
    {exn : String → CoordinatorTrace (Services cfg) cfg → Services cfg → Prop}
    (hb : SetsRecord rid v s.store (f s.store)) (hrequest : v.request = r.request)
    (hdebit : v.debit = r.debit) (hpost : ∀ t s, Early c rid request v t s → post () t s) :
    wp (purchaseRules P key member M c request rid) (Services.lens cfg)
    (.modify f) post exn t s := by
  refine ⟨trivial, hpost _ _ ⟨h.toCourse.wrote hb hrequest, hdebit.trans h.debit,
    fun body a hmem => ?_⟩⟩
  rcases List.mem_append.mp hmem with hmem | hmem
  · exact h.unasked body a hmem
  · cases List.mem_singleton.mp hmem

/-- Step 2, with enough signers or not. -/
theorem wp_preflight_concluded {exn : String → CoordinatorTrace (Services cfg) cfg →
    Services cfg → Prop}
    (hprovisioned : Provisioned P env key member M keys) (hnamed : request.requestId ≠ "")
    (hmetered : request.meterId ≠ "") (h : Early c rid request r t s) :
    wp (purchaseRules P key member M c request rid) (Services.lens cfg)
    (preflight P env rid request)
      (fun _ => Concluded P env key c rid request) exn t s := by
  rw [preflight, wp_bind]
  refine h.wp_write (v := r) ⟨h.record, rfl, rfl⟩ rfl rfl fun t s h => ?_
  rw [wp_bind]
  refine wp_poll_roster h.toCourse fun signers a s' hr => ?_
  have h₁ : Early c rid request r (t ++ [.answered (.health signers) a]) s' :=
    ⟨h.toCourse.answered hr rfl, h.debit, fun body a' hmem => by
      rcases List.mem_append.mp hmem with hmem | hmem
      · exact h.unasked body a' hmem
      · cases List.mem_singleton.mp hmem⟩
  split
  next hshort =>
    rw [wp_bind]
    refine h₁.wp_write (v := r) ⟨h₁.record, rfl, rfl⟩ rfl rfl fun t s h => ?_
    rw [reject]
    have hstep := setsOnlyRecord_step rid .REJECTED (belowThreshold cfg c.roster.length)
      (fun r : PipelineRecord cfg => { r with rejection := some ⟨.WALL_2_CONSORTIUM,
        belowThreshold cfg c.roster.length, s.store.now, "consortium"⟩ }) s.store
    rw [h.record] at hstep
    refine h.wp_write hstep.toSetsRecord rfl rfl fun t s h => ?_
    refine ⟨fun _ => ⟨congrArg (·.status) h.record, (congrArg (·.debit) h.record).trans h.debit,
      h.unasked⟩,
      fun hlong => by omega, fun hlong => by omega, fun _ hwilling => ?_⟩
    have := List.length_filter_le (fun i => !c.refuses i.signerId) c.roster
    omega
  next hlong =>
    refine wp_mono (wp_debit_settled hprovisioned hnamed hmetered (not_lt.mp hlong)
      h₁.toCourse) (fun _ t s hend => ?_) fun _ _ _ h => h
    obtain ⟨d, hconfirmed, hsettled⟩ := hend
    rw [Settled] at hsettled
    refine ⟨fun hshort => absurd hshort hlong, fun _ hshort => ⟨d, hconfirmed, ?_⟩,
      fun _ happroved hfew => ?_, fun happroved henough => ?_⟩
    · rwa [if_pos hshort] at hsettled
    · rw [if_neg (not_lt.mpr happroved)] at hsettled
      obtain ⟨dropped, picked, hpicks, hclosed⟩ := hsettled
      obtain ⟨rfl, hdropped⟩ := hpicks.of_few hfew
      rw [Closed, ← List.length_map (·.signerId)] at hclosed
      exact ⟨d, _, hconfirmed, by rw [hdropped], hclosed⟩
    · rw [if_neg (not_lt.mpr happroved)] at hsettled
      obtain ⟨dropped, picked, hpicks, hclosed⟩ := hsettled
      obtain ⟨m, hleast, rfl, hdropped, hm⟩ := hpicks.of_enough henough
      refine ⟨d, m, hconfirmed, hleast, ?_⟩
      rw [Closed] at hclosed
      rwa [← hdropped, show m - cfg.t = dropped.length by omega]

/-- **A purchase among services that work**, as `Provisioned` and `Serviced` have them, while the
others leave it alone: the run returns, and it ends as the consortium stands. -/
theorem purchase_concludes (P : Platform) (env : CoordinatorEnv cfg) (key : BankKey)
    (member : cfg.SignerId → SignerEnv cfg) (M : ConsortiumManifest cfg) (keys : Frost.KeygenOutput)
    (c : Attendance cfg) (rid : ℕ) (request : GenerationRequest) (s : Services cfg)
    (world : Env (Services cfg) (CoordinatorCall cfg) CoordinatorCall.Answer)
    (hprovisioned : Provisioned P env key member M keys) (hopening : Opening c rid request s)
    (hworld : ((runPipeline P env rid).on (Services.lens cfg)).Along world
      (fun q s a s' => LeavesRun P rid s s' ∧ Serviced P key member M c request s s' q a) [] s) :
    let o := ((runPipeline P env rid).on (Services.lens cfg)).run world [] s
    o.result = .ok () ∧ Concluded P env key c rid request o.trace o.final := by
  intro o
  have hwp : wp (purchaseRules P key member M c request rid) (Services.lens cfg)
    (runPipeline P env rid)
      (fun _ => Concluded P env key c rid request) (fun _ _ _ => False) [] s := by
    have hearly : Early c rid request (.new cfg request) [] s :=
      ⟨⟨hopening.record, rfl, hopening.active, hopening.online, hopening.ledger, rfl, .nil⟩, rfl,
        fun _ _ => List.not_mem_nil⟩
    obtain ⟨merchant, hmerchant, hrevoked⟩ := hopening.merchant
    rw [runPipeline, wp_bind, wp_modify]
    refine ⟨trivial, ?_⟩
    rw [wp_tryCatch, policyGate]
    simp only [theRecord, wp_bind, wp_gets, Services.lens_view, Services.lens_put]
    have hrecord : (s.store.setStage rid .POLICY).heap rid = .new cfg request := hopening.record
    have hmerchant' :
        (s.store.setStage rid .POLICY).getMerchant request.merchantId = some merchant := hmerchant
    rw [hrecord]
    simp only [PipelineRecord.new, hmerchant', hrevoked, Bool.false_eq_true, if_false]
    refine wp_preflight_concluded hprovisioned hopening.requestId hopening.meterId
      ⟨hearly.toCourse.wrote (w := s.store.setStage rid .POLICY) ⟨hopening.record, rfl, rfl⟩ rfl,
        rfl, fun body a hmem => ?_⟩
    cases List.mem_singleton.mp hmem
  have hmeets := run_of_wp (W := purchaseRules P key member M c request rid) hworld (wp_on.mpr hwp)
  cases hresult : o.result with
  | ok a => exact ⟨rfl, hmeets.returned a hresult⟩
  | error e => exact (hmeets.raised e hresult).elim
end Checkout

/-! ### A small purchase -/

deriving instance DecidableEq for BankState

namespace Small

/-- The members of the small consortium, with their wallets. -/
def holder (signerId : config.SignerId) : SignerEnv config :=
  { member ⟨signerId, match signerId with
      | SignerId.utility => 1
      | SignerId.cityA => 2
      | SignerId.cityB => 3⟩ with xrplWallet := some ⟨"rMember", fun _ => .ok "F"⟩ }

/-- All members are online, and the first refuses to sign. -/
def attendance : Attendance config where
  active _ := true
  online _ := true
  refuses
    | SignerId.utility => true
    | _ => false
  approvals := 2

/-- The small bank before the purchase. -/
def vault : BankState := .boot "2025-01-01T00:00:00.000Z"

/-- The stage is set for the small purchase. -/
def scene : Services config where
  store := opened
  member i := { SignerState.boot 0 with refuse := attendance.refuses i }
  bank := vault

/-- What a handler answers that reads the small ledger once at most. -/
def answering (p : SignerProg Response) (m : SignerState) : Option (Response × SignerState) :=
  match p.settle m with
  | (.ret r, m') => some (r, m')
  | (.await (.accountTx _) k, m') => match (k approvals).settle m' with
      | (.ret r, m'') => some (r, m'')
      | _ => none
  | _ => none

/-- What round 1 answers, where the handler returns at once. -/
def committing (body : Json) (i : config.SignerId) (m : SignerState) :
    Option (Response × SignerState) :=
  match (round1 platform (holder i) (some (sent body)) [[1], [2], [3], [4], [5], [6]]).settle m with
  | (.ret r, m') => some (r, m')
  | _ => none

/-- What the bank answers, where the handler returns at once. -/
def confirming (body : Json) (b : BankState) : Option (Response × BankState) :=
  match (postDebit platform bankSecret (some (sent body)) [1, 2, 3, 4, 5, 6]).settle b with
  | (.ret r, b') => some (r, b')
  | _ => none

/-- The services at work, all with their handlers. -/
def shop : Env (Services config) (CoordinatorCall config) CoordinatorCall.Answer := fun _ q s =>
  match q with
  | .health _ => (fun i => some (ok (.obj [("online", .bool (s.member i).online)])), s)
  | .debit _ body => match confirming body s.bank with
      | some (r, b) => (some (r.arrived platform), { s with bank := b })
      | none => ((none : Option HttpResult), s)
  | .reverse _ _ => ((none : Option HttpResult), s)
  | .publish _ => ((.ok "T1" : Except String String), s)
  | .validate _ _ => (fun _ => none, s)
  | .accountTx _ => (approvals, s)
  | .round1 signers body =>
      (fun i => (committing body i (s.member i)).map fun out => out.1.arrived platform,
        { s with member := fun i => if i ∈ signers.map (·.signerId) then
            ((committing body i (s.member i)).map (·.2)).getD (s.member i) else s.member i })
  | .round2 i body => match answering (round2 platform (holder i.signerId) (some (sent body)))
        (s.member i.signerId) with
      | some (r, m) => (some (r.arrived platform),
          { s with member := fun j => if j = i.signerId then m else s.member j })
      | none => ((none : Option HttpResult), s)
  | .prepare _ _ => ((.ok (.obj []) : Except String Json), s)
  | .signReceipt i body =>
      ((answering (signReceipt platform (holder i.signerId) (some (sent body)))
        (s.member i.signerId)).map fun out => out.1.arrived platform, s)
  | .submitReceipt _ => ((.ok "T4" : Except String String), s)

/-- The small bank after the purchase. -/
def debited : BankState :=
  ((confirming (debitRequest generationRequest) vault).map (·.2)).getD vault

/-- What is checked of a resumption of the purchase. -/
def fair (q : CoordinatorCall config) (s s' : Services config) : Bool :=
  (config.SIGNERS.all fun i => (s.member i.signerId).online && (s'.member i.signerId).online &&
    (s.member i.signerId).refuse == attendance.refuses i.signerId &&
    (s'.member i.signerId).refuse == attendance.refuses i.signerId) &&
  (s.bank = vault && (s'.bank = vault || s'.bank = debited) ||
    s.bank = debited && s'.bank = debited) &&
  match q with
  | .debit _ body => s.bank = vault && (match confirming body s.bank with
      | some (r, _) => (truthyText (s'.store.consumedDebitRefs.get
          (((r.arrived platform).body platform).get? "debitRef"))).isNone &&
          (match buildTokenPayload platform (some ((r.arrived platform).body platform)) with
            | .ok payload => !s'.store.redeemed payload
            | .error _ => true)
      | none => false)
  | .reverse _ _ => false
  | .round1 signers body => signers.all fun i =>
      (committing body i.signerId (s.member i.signerId)).isSome
  | .round2 i body => (answering (round2 platform (holder i.signerId) (some (sent body)))
        (s.member i.signerId)).isSome &&
      ((s.member i.signerId).sessions.get "REQ-1").all fun session =>
        (s.member i.signerId).clock - SESSION_TTL_MS ≤ session.createdAt
  | .signReceipt i body => (answering (signReceipt platform (holder i.signerId) (some (sent body)))
        (s.member i.signerId)).isSome
  | _ => true

end Small

/-- Every resumption of the small purchase passes the check. -/
theorem small_along :
    ((runPipeline Small.platform Small.coordinatorEnv 0).on (Services.lens config)).Along
      Small.shop (fun q s _ s' => Small.fair q s s' = true) [] Small.scene := by
  decide +kernel

/-- The small ledger shows both approvals. -/
theorem small_quorum : ∃ txs approvals, Small.approvals = .ok txs ∧
    readApprovals Small.platform Small.manifest
      (hashValue Small.platform (some Small.generationRequest.toJson)) txs = .ok approvals ∧
    approveCount approvals = 2 := by
  have hcount : ((Small.approvals.bind (readApprovals Small.platform Small.manifest
      (hashValue Small.platform (some Small.generationRequest.toJson)))).toOption.map
        approveCount) = some 2 := by decide +kernel
  obtain ⟨approvals, hread, hn⟩ := Option.map_eq_some_iff.mp hcount
  obtain ⟨txs, htxs⟩ : ∃ txs, Small.approvals = .ok txs := ⟨_, rfl⟩
  rw [htxs] at hread
  refine ⟨txs, approvals, htxs, ?_, hn⟩
  cases hcase : readApprovals Small.platform Small.manifest
    (hashValue Small.platform (some Small.generationRequest.toJson)) txs with
  | ok a =>
      simp only [Except.bind, hcase] at hread
      exact congrArg Except.ok (Option.some.inj hread)
  | error e =>
      simp only [Except.bind, hcase] at hread
      cases hread

/-- A handler that reads the small ledger is told of them. -/
theorem small_serves {p : SignerProg Response} {m m' : SignerState} {r : Response}
    (h : Small.answering p m = some (r, m')) : Serves (ShowsQuorum Small.platform Small.manifest
      (hashValue Small.platform (some Small.generationRequest.toJson))) p m r := by
  rw [Small.answering] at h
  split at h
  next hp =>
    cases h
    exact .done hp
  next account k u hp =>
    split at h
    next hk =>
      cases h
      obtain ⟨txs, approvals, htxs, hread, hcount⟩ := small_quorum
      exact .told hp ⟨txs, approvals, htxs, hread, hcount.ge⟩ (.done hk)
    next => cases h
  next => cases h

/-- The bank confirms the small purchase. -/
theorem small_debited : Ledger Small.debited ∧ Grows Small.vault Small.debited := by
  have hbody : debitRequestOf (some (sent (debitRequest Small.generationRequest))) =
      some ⟨"REQ-1", "MER-001", "MTR-1001", 10, 25, CURRENCY⟩ := by decide +kernel
  have hsettle := settle_postDebit_new Small.platform Small.bankSecret [1, 2, 3, 4, 5, 6] hbody
    (show Small.vault.prior "REQ-1" = none from rfl)
  have hdebited : Small.debited = Small.vault.push (Small.vault.entryOf Small.platform
      Small.bankSecret ⟨"REQ-1", "MER-001", "MTR-1001", 10, 25, CURRENCY⟩ [1, 2, 3, 4, 5, 6]
      true) := by
    rw [Small.debited, Small.confirming, hsettle]
    rfl
  rw [hdebited]
  exact (ledger_boot _).confirm List.not_mem_nil List.not_mem_nil rfl

/-- What the bank answers is what its handler returns. -/
theorem confirming_some {body : Json} {b b' : BankState} {r : Response}
    (h : Small.confirming body b = some (r, b')) :
    (postDebit Small.platform Small.bankSecret (some (sent body)) [1, 2, 3, 4, 5, 6]).settle b =
      (.ret r, b') := by
  rw [Small.confirming] at h
  split at h
  next hp =>
    cases h
    exact hp
  next => cases h

/-- What round 1 answers is what its handler returns. -/
theorem committing_some {body : Json} {i : config.SignerId} {m m' : SignerState} {r : Response}
    (h : Small.committing body i m = some (r, m')) :
    (round1 Small.platform (Small.holder i) (some (sent body))
      [[1], [2], [3], [4], [5], [6]]).settle m = (.ret r, m') := by
  rw [Small.committing] at h
  split at h
  next hp =>
    cases h
    exact hp
  next => cases h

/-- The flags of a member, before and after a resumption that passes the check. -/
theorem small_flags {q : CoordinatorCall config} {s s' : Services config}
    (h : Small.fair q s s' = true) (i : config.SignerId) :
    (s.member i).online = true ∧ (s'.member i).online = true ∧
      (s.member i).refuse = Small.attendance.refuses i ∧
      (s'.member i).refuse = Small.attendance.refuses i := by
  obtain ⟨k, hk⟩ : ∃ k, ⟨i, k⟩ ∈ config.SIGNERS := by
    cases i
    · exact ⟨1, List.mem_cons_self⟩
    · exact ⟨2, List.mem_cons_of_mem _ List.mem_cons_self⟩
    · exact ⟨3, List.mem_cons_of_mem _ (List.mem_cons_of_mem _ List.mem_cons_self)⟩
  simp only [Small.fair, Bool.and_eq_true] at h
  have hflags := List.all_eq_true.mp h.1.1 _ hk
  simp only [Bool.and_eq_true, beq_iff_eq] at hflags
  exact ⟨hflags.1.1.1, hflags.1.1.2, hflags.1.2, hflags.2⟩

/-- A resumption that passes the check leaves the run alone: the services write nothing to the
store, and the bank only ever confirms the purchase. -/
theorem small_leavesRun (t : CoordinatorTrace (Services config) config)
    (q : CoordinatorCall config) (s : Services config)
    (h : Small.fair q s (Small.shop t q s).2 = true) :
    LeavesRun Small.platform 0 s (Small.shop t q s).2 := by
  have hstore : (Small.shop t q s).2.store = s.store := by
    cases q <;> simp only [Small.shop] <;> split <;> rfl
  have hflags := small_flags h
  simp only [Small.fair, Bool.and_eq_true] at h
  have hledger : Ledger (Small.shop t q s).2.bank ∧ Grows s.bank (Small.shop t q s).2.bank := by
    have hbank := h.1.2
    simp only [Bool.or_eq_true, Bool.and_eq_true, decide_eq_true_eq] at hbank
    obtain ⟨hdebited, hgrows⟩ := small_debited
    rcases hbank with ⟨hs, hs' | hs'⟩ | ⟨hs, hs'⟩ <;> rw [hs, hs']
    · exact ⟨ledger_boot _, .refl _⟩
    · exact ⟨hdebited, hgrows⟩
    · exact ⟨hdebited, .refl _⟩
  exact ⟨by rw [hstore], fun i => by rw [hstore],
    fun i => (hflags i).2.1.trans (hflags i).1.symm, hledger.1, hledger.2,
    fun payload _ hpayload => by rwa [hstore]⟩

/-- What is checked is enough for the rules of a purchase. The cases are the calls of the run. -/
theorem small_serviced (t : CoordinatorTrace (Services config) config) (q : CoordinatorCall config)
    (s : Services config) (h : Small.fair q s (Small.shop t q s).2 = true) :
    LeavesRun Small.platform 0 s (Small.shop t q s).2 ∧
      Serviced Small.platform Small.bankSecret Small.holder Small.manifest Small.attendance
        Small.generationRequest s (Small.shop t q s).2 q (Small.shop t q s).1 := by
  have hmembers := small_flags h
  refine ⟨small_leavesRun t q s h, ?_⟩
  simp only [Small.fair, Bool.and_eq_true] at h
  have hcall := h.2
  cases q with
  | health signers =>
      refine ⟨fun i _ => ?_, fun i => (hmembers i).2.2.2⟩
      have hbody :
          (Small.ok (.obj [("online", .bool (s.member i.signerId).online)])).body Small.platform =
            sent (.obj [("online", .bool (s.member i.signerId).online)]) := small_body _
      change signerIsOnline Small.platform (some (Small.ok _)) = _
      rw [signerIsOnline, Option.any_some, hbody]
      cases (s.member i.signerId).online <;> rfl
  | debit rid body =>
      simp only [Bool.and_eq_true, decide_eq_true_eq] at hcall
      obtain ⟨hvault, hcall⟩ := hcall
      cases hconfirming : Small.confirming body s.bank with
      | none =>
          rw [hconfirming] at hcall
          cases hcall
      | some out =>
          obtain ⟨r, b'⟩ := out
          rw [hconfirming] at hcall
          simp only [Bool.and_eq_true, Option.isNone_iff_eq_none] at hcall
          have hshop : Small.shop t (.debit rid body) s =
              (some (r.arrived Small.platform), { s with bank := b' }) := by
            simp only [Small.shop, hconfirming]
          rw [hshop] at hcall ⊢
          refine ⟨s.bank, b', [1, 2, 3, 4, 5, 6], r,
            by rw [hvault]; rfl, by rw [hvault]; rfl, .refl _,
            confirming_some hconfirming, rfl, .refl _, hcall.1, fun payload hpayload => ?_⟩
          rw [hpayload] at hcall
          simpa using hcall.2
  | reverse rid ref => cases hcall
  | publish tx => exact ⟨"T1", rfl⟩
  | validate signers body => trivial
  | accountTx account => exact small_quorum
  | round1 signers body =>
      refine ⟨fun i hi => ?_, fun i => (hmembers i).2.2.2.trans (hmembers i).2.2.1.symm⟩
      have hsome := List.all_eq_true.mp hcall i hi
      obtain ⟨⟨r, m'⟩, hout⟩ := Option.isSome_iff_exists.mp hsome
      refine ⟨s.member i.signerId, _, r, m', .refl _ _, committing_some hout, ?_, ?_⟩
      · simp only [Small.shop, hout, Option.map_some]
      · have hmem : i.signerId ∈ signers.map (·.signerId) := List.mem_map_of_mem hi
        simp only [Small.shop, hmem, if_true, hout, Option.map_some, Option.getD_some]
        exact .refl _ _
  | round2 i body =>
      simp only [Bool.and_eq_true] at hcall
      obtain ⟨hsome, hfresh⟩ := hcall
      obtain ⟨⟨r, m'⟩, hout⟩ := Option.isSome_iff_exists.mp hsome
      have hshop : Small.shop t (.round2 i body) s = (some (r.arrived Small.platform),
          { s with member := fun j => if j = i.signerId then m' else s.member j }) := by
        simp only [Small.shop, hout]
      refine ⟨⟨⟨s.member i.signerId, r, .refl _ _, fun session hsession => ?_, small_serves hout,
        ?_⟩, fun j hj => ?_⟩, fun i => (hmembers i).2.2.2.trans (hmembers i).2.2.1.symm⟩
      · change (s.member i.signerId).sessions.get "REQ-1" = some session at hsession
        rw [hsession] at hfresh
        exact of_decide_eq_true hfresh
      · rw [hshop]
      · rw [hshop]
        simp only [hj, if_false]
        exact .refl _ _
  | prepare tx quorum => exact ⟨.obj [], rfl, rfl⟩
  | signReceipt i body =>
      obtain ⟨⟨r, m'⟩, hout⟩ := Option.isSome_iff_exists.mp hcall
      refine ⟨s.member i.signerId, r, rfl, small_serves hout, ?_⟩
      simp only [Small.shop, hout, Option.map_some]
  | submitReceipt fragments => exact ⟨"T4", rfl⟩

/-- The small consortium is provisioned. -/
theorem small_provisioned : Provisioned Small.platform Small.coordinatorEnv Small.bankSecret
    Small.holder Small.manifest Frost.smallKeys where
  dealt := ⟨3, [[3], [1]], by decide, Frost.small_dealt⟩
  group := small_dealtBy
  share := List.forall_mem_cons.mpr ⟨⟨rfl, _, List.mem_cons_self, rfl, rfl⟩,
    List.forall_mem_cons.mpr ⟨⟨rfl, _, List.mem_cons_of_mem _ List.mem_cons_self, rfl, rfl⟩,
      List.forall_mem_cons.mpr ⟨⟨rfl, _, List.mem_cons_of_mem _ (List.mem_cons_of_mem _
        List.mem_cons_self), rfl, rfl⟩, fun _ h => absurd h List.not_mem_nil⟩⟩⟩
  pinned _ _ := rfl
  manifest _ _ := rfl
  wallet _ _ := ⟨_, rfl, fun _ _ => ⟨"F", rfl⟩⟩
  publisher := ⟨_, rfl⟩
  readable := rfl
  encKey := ⟨_, rfl⟩
  bankKey := rfl

/-- The small purchase keeps to the rules. -/
theorem small_fair :
    ((runPipeline Small.platform Small.coordinatorEnv 0).on (Services.lens config)).Along
      Small.shop (fun q s a s' => LeavesRun Small.platform 0 s s' ∧
        Serviced Small.platform Small.bankSecret Small.holder Small.manifest Small.attendance
          Small.generationRequest s s' q a) [] Small.scene := by
  refine (small_along.and (Prog.along_of_forall
    (A := fun q s a s' => ∃ t, Small.shop t q s = (a, s')) (fun t q s => ⟨t, rfl⟩)
    _ _ _)).mono ?_
  rintro q s a s' ⟨hfair, t, heq⟩
  have hserviced := small_serviced t q s
  rw [heq] at hserviced
  exact hserviced hfair

/-- **The small purchase** is served: the utility refuses and is named, and the two cities sign. -/
theorem purchase_concludes_small : ∃ o : Outcome (Services config) String (CoordinatorCall config)
      CoordinatorCall.Answer Unit,
    o.result = .ok () ∧ (o.final.store.heap 0).status = .DELIVERED ∧
      (o.final.store.heap 0).signerSet = some [SignerId.cityA, SignerId.cityB] ∧
      Refusals o.trace [SignerId.utility] ∧ ceremonies o.trace = 2 := by
  obtain ⟨hresult, hend⟩ := purchase_concludes Small.platform Small.coordinatorEnv Small.bankSecret
    Small.holder Small.manifest Frost.smallKeys Small.attendance 0 Small.generationRequest
    Small.scene Small.shop small_provisioned
    ⟨rfl, by decide, by decide, ⟨_, rfl, rfl⟩, fun i => by cases i <;> rfl,
      fun i => rfl, ledger_boot _⟩ small_fair
  obtain ⟨d, m, -, ⟨hm, hleast⟩, hvended⟩ := hend.served (by decide) (by decide)
  have hle : m ≤ 3 := hleast (show (2 : ℕ) ≤ _ by decide)
  obtain rfl : m = 3 := by
    by_contra hne
    have hcases : m = 0 ∨ m = 1 ∨ m = 2 := by omega
    rcases hcases with rfl | rfl | rfl <;> exact absurd hm (by decide)
  exact ⟨_, hresult, hvended.status, hvended.signerSet, hvended.course.refusals,
    hvended.course.ceremonies⟩

end NoGhost
