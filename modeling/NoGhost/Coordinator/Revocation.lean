import NoGhost.Coordinator.Flood

/-!
# Revoked Members

The members of a ceremony are those that answered the health probes, and the probes go to the
members that are active when the probes are sent. The ceremony may be attempted several times, and
governance may act at every await in between: nobody asks again whether a member is active when
the calls of round 1 are sent.

## Main results

* `wp_ceremonyLoop_watched`: who is in the signer set was probed as an active member.
* `revoked_excluded`: when the signers of a token are active as round 1 begins.
* `revoked_included`: a member that is revoked during the probes signs.
-/

open Js Async

namespace NoGhost

variable {cfg : Config} {P : Platform} {env : CoordinatorEnv cfg} {rid : ℕ}

/-! ### A watch over the run -/

/-- The store, who was active when the run last sent its health probes, and who was active when
it last sent its round-1 calls. -/
structure Watched (cfg : Config) where
  store : Store cfg
  polled : List (SignerInfo cfg.SignerId)
  sent : List (SignerInfo cfg.SignerId)

/-- The store of the coordinator as a part of the watched system, which also notes who was polled
and who was sent for. -/
@[simps] def Watched.lens (cfg : Config) : Lens (Watched cfg) (Store cfg) where
  view s := s.store
  put s u := { s with store := u }
  view_put _ _ := rfl
  put_view _ := rfl
  put_put _ _ _ := rfl

/-- A call that was sent in `s`, and is over in `s'`, is noted. -/
def Watches (s s' : Watched cfg) : CoordinatorCall cfg → Prop
  | .health _ => s'.polled = s.store.active ∧ s'.sent = s.sent
  | .round1 _ _ => s'.polled = s.polled ∧ s'.sent = s.store.active
  | _ => s'.polled = s.polled ∧ s'.sent = s.sent

/-- The signers that the record of a run names as those of its token, once there are any. -/
def Store.signerSet (rid : ℕ) (u : Store cfg) : Option (List cfg.SignerId) := (u.heap rid).signerSet

/-- The signers of the record were active when round 1 was sent. -/
def Excluding (rid : ℕ) (s : Watched cfg) : Prop :=
  ∀ set, s.store.signerSet rid = some set → ∀ id ∈ set, id ∈ s.sent.map (·.signerId)

/-- Whoever was active when the health probes were sent is active when round 1 is sent. -/
def Steady (s : Watched cfg) : CoordinatorCall cfg → Prop
  | .round1 _ _ => s.polled ⊆ s.store.active
  | _ => True

/-- Governance does what it likes, as long as it is steady. -/
def Governs (rid : ℕ) (q : CoordinatorCall cfg) (s s' : Watched cfg) : Prop :=
  s'.store.signerSet rid = s.store.signerSet rid ∧ Watches s s' q ∧ Steady s q

/-- The rules of a watched run: the others leave the signers of its record alone, and at every point
these signers were active when they were sent for. -/
def watchRules (cfg : Config) (rid : ℕ) :
    Rules (Watched cfg) (CoordinatorCall cfg) CoordinatorCall.Answer where
  resume q s _ s' := Governs rid q s s'
  gua _ _ s' := Excluding rid s'
  rest _ s := Excluding rid s

section Watch

variable {s s' : Watched cfg} {t : CoordinatorTrace (Watched cfg) cfg} {u : Store cfg}

/-- The record of the run names no signers yet, which is so until its ceremony has made a token. -/
def Unsigned (rid : ℕ) (s : Watched cfg) : Prop := s.store.signerSet rid = none

/-- A record without signers names none that was not active when it was sent for. -/
theorem Unsigned.excluding (h : Unsigned rid s) : Excluding rid s := fun set hset => by
  rw [show s.store.signerSet rid = none from h] at hset
  cases hset

/-! ### What leaves the signers alone -/

/-- A write of any record to other fields leaves the signers of the record of the run as they are.
-/
theorem signerSet_update {i : ℕ} {f : PipelineRecord cfg → PipelineRecord cfg}
    (hf : ∀ r, (f r).signerSet = r.signerSet) : (u.update i f).signerSet rid = u.signerSet rid := by
  rw [Store.signerSet, Store.update]
  rcases eq_or_ne rid i with rfl | hi
  · simp [hf, Store.signerSet]
  · simp [hi, Store.signerSet]

/-- A transition of any record, with its broadcasts and counts, leaves the signers as they are. -/
theorem signerSet_transition {i : ℕ} {status : RequestStatus} {note : String} :
    (u.transition i status note).signerSet rid = u.signerSet rid := by
  have hheap : (u.transition i status note).heap i = Store.moved status u.now note (u.heap i) ∧
      ∀ j ≠ i, (u.transition i status note).heap j = u.heap j := by
    by_cases hdelivered : status = .DELIVERED
    · subst hdelivered
      obtain ⟨hown, hothers, -⟩ := transition_delivered i note u
      exact ⟨hown, hothers⟩
    · have h := rewrites_transition hdelivered i note u
      exact ⟨h.own, h.others⟩
  rcases eq_or_ne rid i with rfl | hi
  · rw [Store.signerSet, hheap.1]
    rfl
  · rw [Store.signerSet, hheap.2 rid hi]
    rfl

/-- A step that sets other fields of a record and moves it leaves the signers as they are. -/
theorem signerSet_step {i : ℕ} {status : RequestStatus} {note : String}
    {f : PipelineRecord cfg → PipelineRecord cfg} (hf : ∀ r, (f r).signerSet = r.signerSet) :
    ((u.update i f).transition i status note).signerSet rid = u.signerSet rid :=
  signerSet_transition.trans (signerSet_update hf)

/-- What holds of the signers of a record holds in every store with the same signers. -/
theorem Excluding.put (h : Excluding rid s) (hu : u.signerSet rid = s.store.signerSet rid) :
    Excluding rid { s with store := u } := fun set hset => h set (hu.symm.trans hset)

section Writes

variable {f : Store cfg → Store cfg} {post : Unit → CoordinatorTrace (Watched cfg) cfg →
  Watched cfg → Prop}
  {exn : String → CoordinatorTrace (Watched cfg) cfg → Watched cfg → Prop}

/-- A write that does not touch the signers of the record, before the token: the record still has
none after it. -/
theorem Unsigned.wp_modify (h : Unsigned rid s)
    (hf : (f s.store).signerSet rid = s.store.signerSet rid)
    (hpost : ∀ t s', Unsigned rid s' → post () t s') :
    wp (watchRules cfg rid) (Watched.lens cfg) (.modify f) post exn t s := by
  have h' : Unsigned rid { s with store := f s.store } := hf.trans h
  exact ⟨h'.excluding, hpost _ _ h'⟩

/-- A write that does not touch the signers of the record, once there are any: they are still active
ones after it. -/
theorem Excluding.wp_modify (h : Excluding rid s)
    (hf : (f s.store).signerSet rid = s.store.signerSet rid)
    (hpost : ∀ t s', Excluding rid s' → post () t s') :
    wp (watchRules cfg rid) (Watched.lens cfg) (.modify f) post exn t s :=
  ⟨h.put hf, hpost _ _ (h.put hf)⟩

/-- The record gets its signers: they are some of those that the last round 1 was sent to, and so
were active then. -/
theorem wp_modify_sign {signerSet : List cfg.SignerId}
    (hset : ∀ id ∈ signerSet, id ∈ s.sent.map (·.signerId))
    (hf : (f s.store).signerSet rid = some signerSet)
    (hpost : ∀ t s', Excluding rid s' → post () t s') :
    wp (watchRules cfg rid) (Watched.lens cfg) (.modify f) post exn t s := by
  have h : Excluding rid { s with store := f s.store } := fun set hset' => by
    obtain rfl := Option.some.inj (hf.symm.trans hset')
    exact hset
  exact ⟨h, hpost _ _ h⟩

end Writes

section Calls

variable {q : CoordinatorCall cfg}

/-- An answer leaves a record without signers, since only its own run names them. -/
theorem Unsigned.answered (h : Unsigned rid s) (hr : Governs rid q s s') : Unsigned rid s' :=
  hr.1.trans h

/-- Only a call of round 1 changes who was sent for last. -/
theorem Governs.sent (h : Governs rid q s s') (hq : ∀ signers body, q ≠ .round1 signers body) :
    s'.sent = s.sent := by
  obtain ⟨-, hwatches, -⟩ := h
  cases q with
  | round1 signers body => exact absurd rfl (hq signers body)
  | _ => exact hwatches.2

/-- An answer to any call but round 1 keeps the signers of the record among those that were sent
for. -/
theorem Excluding.answered (h : Excluding rid s) (hr : Governs rid q s s')
    (hq : ∀ signers body, q ≠ .round1 signers body) : Excluding rid s' := fun set hset => by
  rw [hr.sent hq]
  exact h set (hr.1.symm.trans hset)

end Calls

/-! ### The ends of a run -/

/-- A program that does no harm to a run whose signers, if any, were active. -/
abbrev Harmless (rid : ℕ) {α : Type} (p : CoordinatorProg cfg α) : Prop :=
  ∀ t s, Excluding rid s → wp (watchRules cfg rid) (Watched.lens cfg) p
    (fun _ _ => Excluding rid) (fun _ _ => Excluding rid) t s

/-- A rejection names no signers. -/
theorem harmless_reject {wall : Wall} {reason attribution : String} :
    Harmless rid (reject rid wall reason attribution : CoordinatorProg cfg Unit) := fun t s h => by
  rw [reject]
  exact h.wp_modify (signerSet_step fun _ => rfl) fun _ _ h => h

/-- The end of an abandoned run leaves the signers of its record as they are. -/
theorem harmless_closeAbandoned {wall : Wall} {reason attribution requestId : String}
    {debitRef : Option Json} {reversed : Bool} : Harmless rid
      (closeAbandoned P rid wall reason attribution requestId debitRef reversed :
        CoordinatorProg cfg Unit) := fun t s h => by
  rw [closeAbandoned, wp_bind]
  refine h.wp_modify (signerSet_update fun _ => rfl) fun t s h => ?_
  refine wp_ofExcept_bind (fun alert _ => ?_) fun e _ => h
  exact h.wp_modify signerSet_transition fun _ _ h => h

/-- So does its reversal, whatever the bank answers. -/
theorem harmless_abandon {wall : Wall} {reason attribution : String} :
    Harmless rid (abandon P rid wall reason attribution : CoordinatorProg cfg Unit) :=
  fun t s h => by
  rw [abandon]
  simp only [theRecord, wp_bind, wp_gets]
  split
  · rw [reverseDebit]
    split
    · exact harmless_closeAbandoned t s h
    · simp only [wp_bind]
      refine h.wp_modify rfl fun t s h => ⟨h, fun r s' hr => ?_⟩
      exact harmless_closeAbandoned _ s' (h.answered hr fun _ _ heq => by cases heq)
  · exact harmless_closeAbandoned t s h

/-- The backstop of a run that has raised rejects or abandons, and so names no signers. -/
theorem harmless_backstop {err : String} :
    Harmless rid (backstop P rid err : CoordinatorProg cfg Unit) := fun t s h => by
  rw [backstop]
  simp only [theRecord, wp_bind, wp_gets]
  split
  · exact h
  · rw [wp_bind, wp_gets]
    split
    · exact harmless_abandon t s h
    · exact harmless_reject t s h

/-! ### The delivery -/

/-- A credit at a meter is not about the signers of a record. -/
theorem harmless_creditMeter {token : Token} :
    Harmless rid (creditMeter P rid token : CoordinatorProg cfg Unit) := fun t s h => by
  rw [creditMeter, wp_bind]
  refine h.wp_modify ?_ fun t s h => ?_
  · rw [Store.ensureMeter]
    split <;> rfl
  · simp only [wp_bind, wp_gets]
    refine wp_ofExcept (fun balance _ => ?_) fun e _ => h
    exact h.wp_modify rfl fun _ _ h => h

/-- The delivery of the token moves the record to its end with the signers that it has. -/
theorem harmless_deliver {token : Token} :
    Harmless rid (deliver P env rid token) := fun t s h => by
  rw [deliver]
  simp only [theRecord, wp_bind, wp_gets, deliverToken]
  split
  · rw [wp_pure]
    exact harmless_abandon t s h
  · simp only [wp_bind]
    refine h.wp_modify rfl fun t s h => ?_
    rw [wp_bind]
    refine wp_mono (harmless_creditMeter t s h) (fun _ t s h => ?_) fun _ _ _ h => h
    rw [wp_pure]
    exact h.wp_modify (signerSet_step fun _ => rfl) fun _ _ h => h

/-- The fragments of the receipt are collected from the signers that the record names. Induction on
those left. -/
theorem harmless_collectFragments {body : Json} {signers : List (SignerInfo cfg.SignerId)} :
    Harmless rid (collectFragments P body signers) := by
  induction signers with
  | nil => exact fun t s h => h
  | cons signer signers ih =>
      intro t s h
      rw [collectFragments]
      simp only [wp_bind, wp_call]
      refine ⟨h, fun r s' hr => ?_⟩
      have h := h.answered hr fun _ _ heq => by cases heq
      refine wp_ofExcept (fun fragment _ => ?_) fun e _ => h
      rw [wp_bind]
      exact wp_mono (ih _ s' h) (fun _ _ _ h => h) fun _ _ _ h => h

/-- The receipt that is prepared and submitted changes no signers. -/
theorem harmless_multisignReceipt {publication : Publication} {token : Token}
    {signerSet : List cfg.SignerId} :
    Harmless rid (multisignReceipt P env rid publication token signerSet) :=
  fun t s h => by
  rw [multisignReceipt]
  simp only [theRecord, wp_bind, wp_gets]
  refine wp_ofExcept (fun debitRefHash _ => ?_) fun e _ => h
  simp only [wp_bind, wp_gets]
  refine wp_ofExcept (fun M _ => ?_) fun e _ => h
  simp only [wp_bind, wp_call]
  refine ⟨h, fun r s' hr => ?_⟩
  have h := h.answered hr fun _ _ heq => by cases heq
  refine wp_ofExcept (fun prepared _ => ?_) fun e _ => h
  rw [wp_bind]
  refine wp_mono (harmless_collectFragments _ s' h) (fun fragments t s h => ?_) fun _ _ _ h => h
  simp only [wp_bind, wp_call]
  refine ⟨h, fun r s' hr => ?_⟩
  have h := h.answered hr fun _ _ heq => by cases heq
  refine wp_ofExcept (fun txHash _ => ?_) fun e _ => h
  rw [wp_bind]
  exact h.wp_modify rfl fun t s h => h

/-- From the token to the end of the run the signers of the record stay the same. -/
theorem harmless_settleReceipt {publication : Publication} {token : Token}
    {signerSet : List cfg.SignerId} :
    Harmless rid (settleReceipt P env rid publication token signerSet) :=
  fun t s h => by
  rw [settleReceipt]
  simp only [theRecord, wp_bind, wp_gets]
  split
  · exact harmless_abandon t s h
  · rw [wp_bind]
    refine h.wp_modify rfl fun t s h => ?_
    rw [wp_bind, wp_tryCatch, wp_map]
    refine wp_mono (harmless_multisignReceipt t s h) (fun ledger t s h => ?_) fun e t s h => ?_
    · have hsame : ∀ u : Store cfg, (u.addAudit ledger).signerSet rid = u.signerSet rid :=
        fun _ => rfl
      rw [wp_bind]
      refine h.wp_modify ?_ fun t s h => harmless_deliver t s h
      exact (signerSet_transition.trans (hsame _)).trans (signerSet_update fun _ => rfl)
    · exact harmless_abandon t s h

/-! ### The ceremony -/

/-- Whoever is online was probed as an active member. -/
def Invited (rid : ℕ) (online : List (SignerInfo cfg.SignerId)) (s : Watched cfg) : Prop :=
  Unsigned rid s ∧ online ⊆ s.polled

/-- A write that touches neither the signers nor the members keeps the invitation of those that the
poll has found. -/
theorem Invited.wp_modify {online : List (SignerInfo cfg.SignerId)} (h : Invited rid online s)
    {f : Store cfg → Store cfg}
    {post : Unit → CoordinatorTrace (Watched cfg) cfg → Watched cfg → Prop}
    {exn : String → CoordinatorTrace (Watched cfg) cfg → Watched cfg → Prop}
    (hf : (f s.store).signerSet rid = s.store.signerSet rid)
    (hpost : ∀ t s', Invited rid online s' → post () t s') :
    wp (watchRules cfg rid) (Watched.lens cfg) (.modify f) post exn t s :=
  have h' : Invited rid online { s with store := f s.store } := ⟨hf.trans h.1, h.2⟩
  ⟨h'.1.excluding, hpost _ _ h'⟩

/-- A poll finds members that are active when they are probed, and these are the ones that may be
sent for. -/
theorem wp_poll_watched (h : Unsigned rid s)
    {post : List (SignerInfo cfg.SignerId) → CoordinatorTrace (Watched cfg) cfg →
      Watched cfg → Prop}
    {exn : String → CoordinatorTrace (Watched cfg) cfg → Watched cfg → Prop}
    (hpost : ∀ online t s, Invited rid online s → post online t s) :
    wp (watchRules cfg rid) (Watched.lens cfg) (pollOnlineActiveSigners P) post exn t s := by
  rw [pollOnlineActiveSigners]
  simp only [wp_bind, wp_gets, wp_call, wp_pure]
  refine ⟨h.excluding, fun answers s' hr => hpost _ _ s' ⟨h.answered hr, fun i hi => ?_⟩⟩
  rw [hr.2.1.1]
  exact List.mem_of_mem_filter ((List.perm_insertionSort _ _).mem_iff.mp hi)

/-- Whoever is invited was active as round 1 was sent. -/
theorem Invited.called {online : List (SignerInfo cfg.SignerId)} (h : Invited rid online s)
    {signers : List (SignerInfo cfg.SignerId)} {body : Json}
    (hr : Governs rid (.round1 signers body) s s') :
    Invited rid online s' ∧ online ⊆ s'.sent := by
  obtain ⟨hsame, ⟨hpolled, hsent⟩, hactive⟩ := hr
  refine ⟨⟨hsame.trans h.1, hpolled ▸ h.2⟩, fun i hi => ?_⟩
  rw [hsent]
  exact hactive (h.2 hi)

/-- One attempt: whoever signs was active as its round 1 was sent. -/
theorem wp_runCeremony_watched {online chosen : List (SignerInfo cfg.SignerId)}
    {tokenPayload : TokenPayload} {message : Bytes} {messageHex : String}
    (h : Invited rid online s) (hchosen : chosen ⊆ online) :
    wp (watchRules cfg rid) (Watched.lens cfg)
      (runCeremony P env rid chosen tokenPayload message messageHex)
      (fun outcome _ s => Invited rid online s ∧ ∀ token signerSet, outcome = .ok token signerSet →
        ∀ id ∈ signerSet, id ∈ s.sent.map (·.signerId)) (fun _ _ => Excluding rid) t s := by
  rw [runCeremony]
  simp only [theRecord, wp_bind, wp_gets, wp_call]
  refine ⟨h.1.excluding, fun answers s' hr => ?_⟩
  have h' := h.called hr
  split
  · exact ⟨h'.1, fun token signerSet hok => by cases hok⟩
  · rw [wp_bind]
    refine wp_collectShares (J := fun _ s => Invited rid online s ∧ online ⊆ s.sent) h'
      (fun t s h => h.1.1.excluding) (fun signer r t s s' h hr => ?_)
      (fun shares t' s' _ h _ => ?_) (fun outcome t' s' _ h hearly => ?_)
      fun e t' s' _ h => h.1.1.excluding
    · obtain ⟨hsame, ⟨hpolled, hsent⟩, -⟩ := hr
      exact ⟨⟨hsame.trans h.1.1, hpolled ▸ h.1.2⟩, hsent ▸ h.2⟩
    · refine ⟨h.1, fun token signerSet hok id hid => ?_⟩
      obtain ⟨-, rfl, -⟩ := concludeCeremony_ok hok
      obtain ⟨i, hi, rfl⟩ := List.mem_map.mp hid
      exact List.mem_map_of_mem (h.2 (hchosen hi))
    · refine ⟨h.1, fun token signerSet hok => ?_⟩
      rw [hok] at hearly
      exact hearly.elim

/-- **The ceremony loop.** Whoever signs was active as round 1 was sent. Induction on the fuel. -/
theorem wp_ceremonyLoop_watched {publication : Publication}
    {online : List (SignerInfo cfg.SignerId)} {tokenPayload : TokenPayload} {message : Bytes}
    {fuel : ℕ} {refused : List cfg.SignerId} (h : Invited rid online s) :
    wp (watchRules cfg rid) (Watched.lens cfg)
      (ceremonyLoop P env rid publication online tokenPayload message fuel refused)
      (fun _ _ => Excluding rid) (fun _ _ => Excluding rid) t s := by
  induction fuel generalizing refused t s with
  | zero => exact h.1.excluding
  | succ fuel ih =>
      rw [ceremonyLoop]
      split
      · exact harmless_abandon t s h.1.excluding
      · simp only [theRecord, wp_bind, wp_gets]
        have hchosen : (online.filter fun s => s.signerId ∉ refused).take cfg.t ⊆ online :=
          fun i hi => List.mem_of_mem_filter (List.mem_of_mem_take hi)
        refine wp_mono (wp_runCeremony_watched h hchosen) (fun outcome t s hset => ?_)
          fun _ _ _ h => h
        obtain ⟨h, hset⟩ := hset
        cases outcome with
        | refused signer reason =>
            rw [wp_bind]
            refine h.wp_modify rfl fun t s h => ?_
            refine wp_ofExcept_bind (fun alert _ => ?_) fun e _ => h.1.excluding
            rw [wp_bind]
            exact h.wp_modify rfl fun t s h => ih h
        | error e =>
            simp only
            split
            next signer _ =>
              rw [wp_bind]
              exact h.wp_modify rfl fun t s h => harmless_abandon t s h.1.excluding
            next => exact harmless_abandon t s h.1.excluding
        | ok token signerSet =>
            simp only [wp_bind]
            refine wp_modify_sign (hset token signerSet rfl) ?_ fun t s h =>
              harmless_settleReceipt t s h
            refine signerSet_transition.trans ?_
            simp [Store.signerSet, Store.update]

/-! ### The run -/

/-- Step 6 names as signers only members that were active when the ceremony sent for them. -/
theorem wp_ceremony_watched {publication : Publication} (h : Unsigned rid s) :
    wp (watchRules cfg rid) (Watched.lens cfg) (ceremony P env rid publication)
      (fun _ _ => Excluding rid) (fun _ _ => Excluding rid) t s := by
  rw [ceremony, wp_bind]
  refine h.wp_modify rfl fun t s h => ?_
  rw [wp_bind]
  refine wp_poll_watched h fun online t s h => ?_
  simp only [theRecord, wp_bind, wp_gets]
  split
  · rw [wp_bind]
    exact h.wp_modify rfl fun t s h => harmless_abandon t s h.1.excluding
  · refine wp_ofExcept_bind (fun tokenPayload _ => ?_) fun e _ => h.1.excluding
    exact wp_ceremonyLoop_watched h

/-- So does the run from the gathering of approvals on. -/
theorem wp_approve_watched {publication : Publication} (h : Unsigned rid s) :
    wp (watchRules cfg rid) (Watched.lens cfg) (approve P env rid publication)
      (fun _ _ => Excluding rid) (fun _ _ => Excluding rid) t s := by
  rw [approve, wp_bind]
  refine h.wp_modify rfl fun t s h => ?_
  rw [wp_bind]
  refine wp_poll_watched h fun approvers t s h => ?_
  have h := h.1
  split
  · exact harmless_abandon t s h.excluding
  · simp only [gatherApprovals, wp_bind, wp_call]
    refine ⟨h.excluding, fun answers s hr => ?_⟩
    have h := h.answered hr
    refine wp_ofExcept (fun M _ => ?_) fun e _ => h.excluding
    simp only [wp_bind, wp_call]
    refine ⟨h.excluding, fun txs s hr => ?_⟩
    have h := h.answered hr
    refine wp_ofExcept (fun txs _ => ?_) fun e _ => h.excluding
    rw [wp_bind]
    refine wp_ofExcept (fun approvals _ => ?_) fun e _ => h.excluding
    rw [wp_bind]
    refine h.wp_modify (signerSet_update fun _ => rfl) fun t s h => ?_
    simp only [theRecord, wp_bind, wp_pure, wp_gets]
    split
    · rw [wp_bind]
      exact h.wp_modify rfl fun t s h => harmless_abandon t s h.excluding
    · rw [wp_bind]
      exact h.wp_modify signerSet_transition fun t s h => wp_ceremony_watched h

/-- So does the run from its publication on, whether or not that succeeds. -/
theorem wp_publish_watched (h : Unsigned rid s) :
    wp (watchRules cfg rid) (Watched.lens cfg) (publish P env rid)
      (fun _ _ => Excluding rid) (fun _ _ => Excluding rid) t s := by
  rw [publish, wp_bind]
  refine h.wp_modify rfl fun t s h => ?_
  rw [wp_bind, wp_tryCatch, wp_map]
  have hfailed : ∀ (e : String) t s, Unsigned rid s → wp (watchRules cfg rid) (Watched.lens cfg)
      (abandon P rid .LEDGER ("PUBLISH_FAILED: " ++ e) "xrpl-testnet")
      (fun _ _ => Excluding rid) (fun _ _ => Excluding rid) t s :=
    fun e t s h => harmless_abandon t s h.excluding
  rw [publishOnChain]
  split
  · exact hfailed _ _ _ h
  · simp only [theRecord, wp_bind, wp_gets]
    refine wp_ofExcept (fun M _ => ?_) fun e _ => hfailed e _ _ h
    rw [wp_bind]
    refine wp_ofExcept (fun encKey _ => ?_) fun e _ => hfailed e _ _ h
    simp only [wp_bind, wp_gets, wp_call]
    refine ⟨h.excluding, fun r s hr => ?_⟩
    have h := h.answered hr
    refine wp_ofExcept (fun txHash _ => ?_) fun e _ => hfailed e _ _ h
    rw [wp_pure, wp_bind]
    exact h.wp_modify (signerSet_step fun _ => rfl) fun t s h => wp_approve_watched h

/-- So does the run from the claim of its debit on. -/
theorem wp_claimDebit_watched {request : GenerationRequest} {debit : Json} (h : Unsigned rid s) :
    wp (watchRules cfg rid) (Watched.lens cfg) (claimDebit P env rid request debit)
      (fun _ _ => Excluding rid) (fun _ _ => Excluding rid) t s := by
  rw [claimDebit]
  simp only [wp_bind, wp_modifyGet]
  have h' :
    Unsigned rid
    { s with store := (s.store.claimDebitRef (debit.get? "debitRef") request.requestId).2 } := by
    rcases claimDebitRef_cases (debit.get? "debitRef") request.requestId s.store with
      ⟨owner, heq, -⟩ | ⟨heq, -⟩ <;> rw [heq] <;> exact h
  refine ⟨h'.excluding, ?_⟩
  split
  · refine wp_ofExcept_bind (fun ref _ => ?_) fun e _ => h'.excluding
    rw [wp_bind]
    exact h'.wp_modify rfl fun t s h => harmless_reject t s h.excluding
  · refine wp_ofExcept_bind (fun ref _ => ?_) fun e _ => h'.excluding
    refine wp_ofExcept_bind (fun amount _ => ?_) fun e _ => h'.excluding
    rw [wp_bind]
    exact h'.wp_modify signerSet_transition fun t s h => wp_publish_watched h

/-- So does the run from the answer of the bank on. -/
theorem wp_confirmed_watched {request : GenerationRequest} {debit : Json} (h : Unsigned rid s) :
    wp (watchRules cfg rid) (Watched.lens cfg) (confirmed P env rid request debit)
      (fun _ _ => Excluding rid) (fun _ _ => Excluding rid) t s := by
  rw [confirmed]
  split
  · simp only [wp_bind]
    refine h.wp_modify rfl fun t s h => ?_
    rw [wp_bind]
    exact h.wp_modify rfl fun t s h => harmless_reject t s h.excluding
  · simp only [wp_bind]
    refine h.wp_modify rfl fun t s h => ?_
    rw [wp_bind]
    exact h.wp_modify (signerSet_update fun _ => rfl) fun t s h => wp_claimDebit_watched h

/-- So does the run from its debit request on, whatever the bank answers. -/
theorem wp_debit_watched {request : GenerationRequest} (h : Unsigned rid s) :
    wp (watchRules cfg rid) (Watched.lens cfg) (debit P env rid request)
      (fun _ _ => Excluding rid) (fun _ _ => Excluding rid) t s := by
  rw [debit, wp_bind]
  refine h.wp_modify rfl fun t s h => ?_
  rw [wp_bind]
  refine h.wp_modify rfl fun t s h => ?_
  rw [wp_bind, wp_call]
  refine ⟨h.excluding, fun r s hr => ?_⟩
  have h := h.answered hr
  rcases r with - | r
  · simp only [wp_bind]
    refine h.wp_modify rfl fun t s h => ?_
    rw [wp_bind]
    refine h.wp_modify rfl fun t s h => ?_
    rw [wp_bind]
    exact h.wp_modify rfl fun t s h => harmless_reject t s h.excluding
  · simp only [wp_bind]
    refine h.wp_modify rfl fun t s h => ?_
    split
    · rw [wp_bind]
      refine h.wp_modify rfl fun t s h => ?_
      refine wp_ofExcept_bind (fun reason _ => ?_) fun e _ => h.excluding
      rw [wp_bind]
      exact h.wp_modify rfl fun t s h => harmless_reject t s h.excluding
    · exact wp_confirmed_watched h

/-- So does the whole run, which starts with a record without signers. -/
theorem wp_policyGate_watched (h : Unsigned rid s) :
    wp (watchRules cfg rid) (Watched.lens cfg) (policyGate P env rid)
      (fun _ _ => Excluding rid) (fun _ _ => Excluding rid) t s := by
  rw [policyGate]
  simp only [theRecord, wp_bind, wp_gets]
  split
  · rw [wp_bind]
    exact h.wp_modify rfl fun t s h => harmless_reject t s h.excluding
  · split
    · rw [wp_bind]
      exact h.wp_modify rfl fun t s h => harmless_reject t s h.excluding
    · rw [preflight, wp_bind]
      refine h.wp_modify rfl fun t s h => ?_
      rw [wp_bind]
      refine wp_poll_watched h fun online t s h => ?_
      split
      · rw [wp_bind]
        exact h.1.wp_modify rfl fun t s h => harmless_reject t s h.excluding
      · exact wp_debit_watched h.1

variable (P env) in
/-- **A watched run.** At every point of it, and at its end, the signers of its record were active
when round 1 was sent to them. -/
theorem wp_runPipeline_watched (h : Unsigned rid s) :
    wp (watchRules cfg rid) (Watched.lens cfg) (runPipeline P env rid)
      (fun _ _ => Excluding rid) (fun _ _ => Excluding rid) t s := by
  rw [runPipeline, wp_bind]
  refine h.wp_modify rfl fun t s h => ?_
  rw [wp_tryCatch]
  exact wp_mono (wp_policyGate_watched h) (fun _ _ _ h => h)
    fun err t s h => harmless_backstop t s h

end Watch

/-! ### Who signs -/

/-- **Revoked members do not sign**, as long as whoever was active when the health probes were
sent is active when round 1 is sent: in every state that the run leaves behind, the signers of its
record are members that were active as the round 1 of their ceremony was sent. -/
theorem revoked_excluded
    {world : Env (Watched cfg) (CoordinatorCall cfg) CoordinatorCall.Answer} {s : Watched cfg}
    (hnew : s.store.signerSet rid = none)
    (hworld : ((runPipeline P env rid).on (Watched.lens cfg)).Along world
      (fun q s _ s' => Governs rid q s s') [] s) :
    let out := ((runPipeline P env rid).on (Watched.lens cfg)).run world [] s
    Excluding rid out.final ∧
      ∀ t s₁ s₂, t ++ [.wrote s₁ s₂] <+: out.trace → Excluding rid s₂ := by
  intro out
  have hmeets : out.Meets (watchRules cfg rid) _ _ [] := run_of_wp hworld
    (wp_on.mpr (wp_runPipeline_watched P env hnew))
  refine ⟨?_, fun t s₁ s₂ hpre => hmeets.wrote t s₁ s₂ hpre⟩
  cases hresult : out.result with
  | ok a => exact hmeets.returned a hresult
  | error e => exact hmeets.raised e hresult

/-! ### A small revocation -/

/-- `setMemberStatus`, for a member of the given name. -/
def Store.setMemberStatus (signerId : cfg.SignerId) (name : String) (status : MemberStatus)
    (actor : String) (u : Store cfg) : Store cfg :=
  if (u.members.lookup signerId).isSome then
    addGovernanceEntry (if status = .REVOKED then "MEMBER_REVOKED" else "MEMBER_REINSTATED")
      (cfg.idText signerId) actor (some (.str name))
      { u with members := u.members.map fun m => if m.1 = signerId then (m.1, status) else m }
  else u

instance (s s' : Watched cfg) (q : CoordinatorCall cfg) : Decidable (Watches s s' q) := by
  cases q <;> exact inferInstanceAs (Decidable (_ ∧ _))

instance (s : Watched cfg) (q : CoordinatorCall cfg) : Decidable (Steady s q) := by
  cases q with
  | round1 signers body => exact inferInstanceAs (Decidable (∀ i ∈ s.polled, i ∈ s.store.active))
  | _ => exact inferInstanceAs (Decidable True)

instance (q : CoordinatorCall cfg) (s s' : Watched cfg) : Decidable (Governs rid q s s') :=
  inferInstanceAs (Decidable (_ ∧ _ ∧ _))

namespace Small

/-- The governance while a call is under way: a member is revoked during the calls that `when`
selects. -/
def governed (when : CoordinatorCall config → RequestStatus → Bool)
    (q : CoordinatorCall config) (s : Watched config) : Watched config :=
  let store := if when q (s.store.heap 0).status then
      s.store.setMemberStatus SignerId.utility "Utility" .REVOKED "operator"
    else s.store
  match q with
  | .health _ => ⟨store, s.store.active, s.sent⟩
  | .round1 _ _ => ⟨store, s.polled, s.store.active⟩
  | _ => { s with store }

/-- The services answer as ever, and the operator revokes a member during the calls that `when`
picks out. -/
def revoking (when : CoordinatorCall config → RequestStatus → Bool) :
    Env (Watched config) (CoordinatorCall config) CoordinatorCall.Answer :=
  fun _ q s => (working q, governed when q s)

/-- The health probes of the ceremony, which come when the record is approved. -/
def probes : CoordinatorCall config → RequestStatus → Bool
  | .health _, .APPROVED => true
  | _, _ => false

/-- The calls of round 1, during which a revocation comes too late to change who was sent for. -/
def commits : CoordinatorCall config → RequestStatus → Bool
  | .round1 _ _, _ => true
  | _, _ => false

/-- The run on the new record with its watcher, under an operator that revokes a member when `when`
says so. -/
def watched (when : CoordinatorCall config → RequestStatus → Bool) :
    Outcome (Watched config) String (CoordinatorCall config) CoordinatorCall.Answer Unit :=
  ((runPipeline platform coordinatorEnv 0).on (Watched.lens config)).run (revoking when) []
    ⟨opened, [], []⟩

/-- The record has a signer that was not active as round 1 was sent. -/
def Intruded (s : Watched config) : Bool :=
  (s.store.signerSet 0).any fun set => set.any fun id => !(s.sent.any fun i => i.signerId = id)

end Small

/-- A change in the status of a member leaves the signers of every record as they are. -/
theorem signerSet_setMemberStatus {signerId : cfg.SignerId} {name actor : String}
    {status : MemberStatus} {u : Store cfg} :
    (u.setMemberStatus signerId name status actor).signerSet rid = u.signerSet rid := by
  rw [Store.setMemberStatus]
  split <;> rfl

/-- The small governance leaves the signers of the record alone, and is watched. -/
theorem small_governed (when : CoordinatorCall config → RequestStatus → Bool)
    (q : CoordinatorCall config) (s : Watched config) :
    (Small.governed when q s).store.signerSet 0 = s.store.signerSet 0 ∧
      Watches s (Small.governed when q s) q := by
  have hstore : (if when q (s.store.heap 0).status then
      s.store.setMemberStatus SignerId.utility "Utility" .REVOKED "operator"
      else s.store).signerSet 0 = s.store.signerSet 0 := by
    split
    · exact signerSet_setMemberStatus
    · rfl
  cases q <;> exact ⟨hstore, rfl, rfl⟩

/-- What the system becomes during a call depends on the operator alone, not on the answers that
were given before. -/
theorem Small.revoking_snd (when : CoordinatorCall config → RequestStatus → Bool)
    (past : Trace (Watched config) (CoordinatorCall config) CoordinatorCall.Answer)
    (q : CoordinatorCall config) (s : Watched config) :
    (Small.revoking when past q s).2 = Small.governed when q s := rfl

/-- A record with a signer that was not active when it was sent for is what the condition has to
rule out. -/
theorem Small.Intruded.not_excluding {s : Watched config} (h : Small.Intruded s = true) :
    ¬ Excluding 0 s := by
  intro hexcluding
  obtain ⟨set, hset, hany⟩ := (Option.any_eq_true _ _).mp h
  obtain ⟨id, hid, hout⟩ := List.any_eq_true.mp hany
  obtain ⟨i, hi, rfl⟩ := List.mem_map.mp (hexcluding set hset id hid)
  rw [Bool.not_eq_true'] at hout
  have hin := List.any_eq_false.mp hout i hi
  simp only [decide_true, not_true_eq_false] at hin

/-- A member that is revoked during the probes of the ceremony is sent for all the same, and signs.
-/
theorem small_intruded : Small.Intruded (Small.watched Small.probes).final = true := by
  decide +kernel

/-- With the revocation during round 1 the condition holds at every await, and the run gets its
signers. -/
theorem small_steady : ((runPipeline Small.platform Small.coordinatorEnv 0).on
      (Watched.lens config)).Along (Small.revoking Small.commits)
      (fun q s _ s' => Governs 0 q s s') [] ⟨Small.opened, [], []⟩ ∧
    ((Small.watched Small.commits).final.store.signerSet 0).isSome = true := by
  decide +kernel

/-- A member that is revoked once it was asked for a commitment signs all the same, and was active
when it was asked. -/
theorem revoked_excluded_small : ∃ set,
    (Small.watched Small.commits).final.store.signerSet 0 = some set ∧
      ∀ id ∈ set, id ∈ (Small.watched Small.commits).final.sent.map (·.signerId) := by
  obtain ⟨hsteady, hsigned⟩ := small_steady
  unfold Small.watched at hsigned ⊢
  obtain ⟨set, hset⟩ := Option.isSome_iff_exists.mp hsigned
  have hexcluding := revoked_excluded (s := ⟨Small.opened, [], []⟩) (by rfl) hsteady
  exact ⟨set, hset, hexcluding.1 set hset⟩

/-- **A revoked member signs**: it is revoked while the health probes are under way, and nobody
asks again. -/
theorem revoked_included : ¬ ∀ world : Env (Watched config) (CoordinatorCall config)
    CoordinatorCall.Answer, ((runPipeline Small.platform Small.coordinatorEnv 0).on
      (Watched.lens config)).Along world (fun q s _ s' =>
        s'.store.signerSet 0 = s.store.signerSet 0 ∧ Watches s s' q) [] ⟨Small.opened, [], []⟩ →
    Excluding 0 (((runPipeline Small.platform Small.coordinatorEnv 0).on
      (Watched.lens config)).run world [] ⟨Small.opened, [], []⟩).final := by
  intro hall
  have hintruded := small_intruded
  rw [Small.watched] at hintruded
  have halong := hall (Small.revoking Small.probes) (Prog.along_of_forall (fun past q s => by
    rw [Small.revoking_snd]
    exact small_governed Small.probes q s) _ _ _)
  exact Small.Intruded.not_excluding hintruded halong

end NoGhost
