import NoGhost.Dashboard.Mirror

/-!
# What the Coordinator Broadcasts

Every write of the handlers is a log of lawful mutations, so what the coordinator has done by any
state is the log of what it has broadcast.

## Main results

* `writes_runCeremony`, `finishes_runPipeline`: a run writes its own record by lawful mutations, and
  not once it is at its end.
-/

open Js Async Replica

namespace NoGhost

variable {cfg : Config} {P : Platform} {env : CoordinatorEnv cfg} {rid : ℕ}

/-! ### The mutations of a run -/

/-- A mutation of the run on a record: it makes no record, and moves and assigns its own. -/
def Mutation.Of (rid : ℕ) : Mutation cfg → Prop
  | createRecord _ _ => False
  | transition i _ _ => i = rid
  | assign i _ => i = rid
  | _ => True

/-- The run on a record goes from one store to another. -/
def RunsTo (rid : ℕ) (u u' : Store cfg) : Prop :=
  ∃ log, (mutations cfg).Along (fun m u => m.Lawful u ∧ m.Of rid) log u ∧
    (mutations cfg).replay log u = u'

/-- What the mutations of one run leave alone: the records of the others and the list of accepted
requests, while serial numbers are only added. -/
structure SparesOthers (rid : ℕ) (u u' : Store cfg) : Prop where
  heap : ∀ i ≠ rid, u'.heap i = u.heap i
  accepted : u'.accepted = u.accepted
  created : u.created ≤ u'.created

/-- A run that has written nothing spares the others, so that a log can be followed from its
beginning. -/
theorem SparesOthers.refl (u : Store cfg) : SparesOthers rid u u := ⟨fun _ _ => rfl, rfl, le_rfl⟩

/-- Two writes that spare the others do so one after the other, which is the step along a log. -/
theorem SparesOthers.trans {u u' u'' : Store cfg} (h : SparesOthers rid u u')
    (h' : SparesOthers rid u' u'') :
    SparesOthers rid u u'' :=
  ⟨fun i hi => (h'.heap i hi).trans (h.heap i hi), h'.accepted.trans h.accepted,
    h.created.trans h'.created⟩

/-- The end of a record, with its point in the series and its broadcasts, spares the other records.
-/
theorem sparesOthers_onTerminal (status : RequestStatus) (u : Store cfg) :
    SparesOthers rid u (u.onTerminal status) := by
  rw [onTerminal_eq, counted_eq]
  split <;> exact ⟨fun _ _ => rfl, rfl, le_rfl⟩

/-- One mutation of a run spares the others. The cases are the mutations that a run may make: on its
own record, on its claims and at the meters. -/
theorem Mutation.Of.sparesOthers {m : Mutation cfg} {u : Store cfg} (h : m.Of rid)
    (hm : m.Lawful u) :
    SparesOthers rid u (m.apply u) := by
  cases m with
  | createRecord i request => exact h.elim
  | transition i status note =>
      obtain rfl : i = rid := h
      have hannounce : SparesOthers i u (u.announce i status note) :=
        ⟨fun j hj => heap_update_of_ne hj, rfl, le_rfl⟩
      rw [Mutation.apply, transition_eq]
      split
      · exact hannounce.trans (sparesOthers_onTerminal status _)
      · exact hannounce
  | assign i f =>
      obtain rfl : i = rid := h
      exact ⟨fun j hj => heap_update_of_ne hj, rfl, le_rfl⟩
  | setMerchantRevoked merchantId revoked actor =>
      rw [Mutation.apply, Store.setMerchantRevoked]
      split <;> exact ⟨fun _ _ => rfl, rfl, le_rfl⟩
  | setMemberStatus signerId name status actor =>
      rw [Mutation.apply, Store.setMemberStatus]
      split <;> exact ⟨fun _ _ => rfl, rfl, le_rfl⟩
  | ensureMeter meterId =>
      rw [Mutation.apply, Store.ensureMeter]
      split <;> exact ⟨fun _ _ => rfl, rfl, le_rfl⟩
  | unseen u' =>
      have hheap : u'.heap = u.heap := congrArg Seen.heap hm.seen
      exact ⟨fun i _ => congrFun hheap i, congrArg Seen.accepted hm.seen, hm.created⟩
  | addAlert a => exact ⟨fun _ _ => rfl, rfl, le_rfl⟩
  | addGovernanceEntry action subject actor detail => exact ⟨fun _ _ => rfl, rfl, le_rfl⟩
  | credit i token balance => exact ⟨fun _ _ => rfl, rfl, le_rfl⟩

/-- All the mutations of a run spare the others, by the invariant along their log. -/
theorem RunsTo.sparesOthers {u u' : Store cfg} (h : RunsTo rid u u') : SparesOthers rid u u' := by
  obtain ⟨log, halong, rfl⟩ := h
  exact halong.keeps (I := fun v => SparesOthers rid u v)
    (fun m v hv hm => hv.trans (hm.2.sparesOthers hm.1)) (SparesOthers.refl u)

/-- The record of a run that is not at its end: the request was accepted, and the status of the
record is none of the terminal ones. -/
structure Alive (rid : ℕ) (u : Store cfg) : Prop where
  accepted : rid ∈ u.accepters
  status : (u.heap rid).status ∉ TERMINAL

/-! ### The rules of a run -/

/-- The others leave the record of a run alone, and the run writes by lawful mutations. -/
def logRules (cfg : Config) (rid : ℕ) :
    Rules (Store cfg) (CoordinatorCall cfg) CoordinatorCall.Answer where
  resume _ u _ u' := u'.heap rid = u.heap rid ∧ (rid ∈ u.accepters → rid ∈ u'.accepters)
  gua _ u u' := RunsTo rid u u'

section Writes

variable {t : CoordinatorTrace (Store cfg) cfg} {u u' : Store cfg}
  {post : Unit → CoordinatorTrace (Store cfg) cfg → Store cfg → Prop}
  {exn : String → CoordinatorTrace (Store cfg) cfg → Store cfg → Prop}

/-- An answer of the services leaves the record of the suspended run alive, since the others do not
write it. -/
theorem Alive.answered (h : Alive rid u) {q : CoordinatorCall cfg} {a : q.Answer}
    (hr : (logRules cfg rid).resume q u a u') : Alive rid u' :=
  ⟨hr.2 h.accepted, hr.1 ▸ h.status⟩

/-- A write that is a log of lawful mutations of the run and leaves its record alive: the proof goes
on in the state after it. -/
theorem Alive.wp_log (h : Alive rid u) {f : Store cfg → Store cfg} (log : List (Mutation cfg))
    (hlog : (mutations cfg).replay log u = f u)
    (halong : (mutations cfg).Along (fun m u => m.Lawful u ∧ m.Of rid) log u)
    (hstatus : ((f u).heap rid).status ∉ TERMINAL)
    (hpost : ∀ t u, Alive rid u → post () t u) :
    wp (logRules cfg rid) (Lens.whole _) (.modify f) post exn t u := by
  have hruns : RunsTo rid u (f u) := ⟨log, halong, hlog⟩
  refine ⟨hruns, hpost _ _ ⟨?_, hstatus⟩⟩
  rw [Lens.whole_put, Lens.whole_view, Store.accepters, hruns.sparesOthers.accepted]
  exact h.accepted

/-- The last write of a record, after which the record may be at its end and only its acceptance is
still known. -/
theorem Alive.wp_close (h : Alive rid u) {f : Store cfg → Store cfg} (log : List (Mutation cfg))
    (hlog : (mutations cfg).replay log u = f u)
    (halong : (mutations cfg).Along (fun m u => m.Lawful u ∧ m.Of rid) log u)
    (hpost : ∀ t u, rid ∈ u.accepters → post () t u) :
    wp (logRules cfg rid) (Lens.whole _) (.modify f) post exn t u := by
  have hruns : RunsTo rid u (f u) := ⟨log, halong, hlog⟩
  refine ⟨hruns, hpost _ _ ?_⟩
  rw [Lens.whole_put, Lens.whole_view, Store.accepters, hruns.sparesOthers.accepted]
  exact h.accepted

/-- A write of what no client is shown, such as the stage or the window of debit attempts, is a log
of one mutation. -/
theorem Alive.wp_unseen (h : Alive rid u) {f : Store cfg → Store cfg} (hf : Unseen u (f u))
    (hpost : ∀ t u, Alive rid u → post () t u) :
    wp (logRules cfg rid) (Lens.whole _) (.modify f) post exn t u := by
  refine h.wp_log [.unseen (f u)] rfl ⟨⟨hf, trivial⟩, trivial⟩ ?_ hpost
  rw [show (f u).heap = u.heap from congrArg Seen.heap hf.seen]
  exact h.status

/-- An alert is one mutation, which shows in no record and leaves that of the run alive. -/
theorem Alive.wp_alert (h : Alive rid u) (a : AlertText) (hpost : ∀ t u, Alive rid u →
    post () t u) :
    wp (logRules cfg rid) (Lens.whole _) (.modify (Store.addAlert a)) post exn t u :=
  h.wp_log [.addAlert a] rfl ⟨⟨trivial, trivial⟩, trivial⟩ h.status hpost

/-- An assignment to fields of the record that its row in the list does not show is a mutation
without a broadcast. -/
theorem Alive.wp_assign (h : Alive rid u) {f : Store cfg → PipelineRecord cfg → PipelineRecord cfg}
    (hrow : (f u (u.heap rid)).row = (u.heap rid).row) (hpost : ∀ t u, Alive rid u → post () t u) :
    wp (logRules cfg rid) (Lens.whole _) (.modify fun u => u.update rid (f u)) post exn t u := by
  refine h.wp_log [.assign rid (f u)] rfl ⟨⟨⟨h.accepted, h.status, hrow⟩, rfl⟩, trivial⟩ ?_ hpost
  rw [heap_update_self, show (f u (u.heap rid)).status = (u.heap rid).status from
    congrArg (fun row => row.2.1) hrow]
  exact h.status

/-- An assignment and then a transition, the way every step of the pipeline writes its record, are
two lawful mutations of the run. -/
theorem along_step (h : Alive rid u) {f : PipelineRecord cfg → PipelineRecord cfg}
    (hrow : (f (u.heap rid)).row = (u.heap rid).row) (status : RequestStatus) (note : String) :
    (mutations cfg).Along (fun m u => m.Lawful u ∧ m.Of rid)
      [.assign rid f, .transition rid status note] u := by
  refine ⟨⟨⟨h.accepted, h.status, hrow⟩, rfl⟩, ⟨⟨h.accepted, ?_⟩, rfl⟩, trivial⟩
  change ((u.update rid f).heap rid).status ∉ TERMINAL
  rw [heap_update_self, show (f (u.heap rid)).status = (u.heap rid).status from
    congrArg (fun row => row.2.1) hrow]
  exact h.status

/-- A transition to a status that is not the end. -/
theorem status_transition {status : RequestStatus} (h : status ∉ TERMINAL) (note : String)
    (u : Store cfg) : ((u.transition rid status note).heap rid).status ∉ TERMINAL := by
  have hne : status ≠ .DELIVERED := by
    rintro rfl
    exact h (by decide)
  rw [(rewrites_transition hne rid note u).own]
  exact h

/-- A step of the record, with an assignment before it. -/
theorem Alive.wp_step (h : Alive rid u) {f : Store cfg → PipelineRecord cfg → PipelineRecord cfg}
    (hrow : (f u (u.heap rid)).row = (u.heap rid).row) {status : RequestStatus} {note : String}
    (hstatus : status ∉ TERMINAL) (hpost : ∀ t u, Alive rid u → post () t u) :
    wp (logRules cfg rid) (Lens.whole _)
      (.modify fun u => Store.transition rid status note (u.update rid (f u))) post exn t u := by
  exact h.wp_log [.assign rid (f u), .transition rid status note] rfl (along_step h hrow _ _)
    (status_transition hstatus note _) hpost

/-- A step of the record to a status that is not terminal: the transition is one mutation, and the
record stays alive. -/
theorem Alive.wp_move (h : Alive rid u) {status : RequestStatus} {note : String}
    (hstatus : status ∉ TERMINAL) (hpost : ∀ t u, Alive rid u → post () t u) :
    wp (logRules cfg rid) (Lens.whole _) (.modify (Store.transition rid status note))
    post exn t u := by
  exact h.wp_log [.transition rid status note] rfl ⟨⟨⟨h.accepted, h.status⟩, rfl⟩, trivial⟩
    (status_transition hstatus note u) hpost

end Writes

/-- The claim of a debit reference shows in no record: it is a log of one mutation, whether or not
the claim succeeds. -/
theorem runsTo_claimDebitRef (h : Alive rid u) (debitRef : Option Json) (requestId : String) :
    RunsTo rid u (u.claimDebitRef debitRef requestId).2 ∧
      Alive rid (u.claimDebitRef debitRef requestId).2 := by
  rcases claimDebitRef_cases debitRef requestId u with ⟨owner, heq, -⟩ | ⟨heq, -⟩ <;> rw [heq]
  · exact ⟨⟨[], trivial, rfl⟩, h⟩
  · exact ⟨⟨[.unseen { u with consumedDebitRefs := u.consumedDebitRefs.set debitRef requestId }],
      ⟨⟨⟨rfl, le_rfl, fun h => ⟨h.1, h.2⟩⟩, trivial⟩, trivial⟩, rfl⟩, h.accepted, h.status⟩

/-- The stage that a run has come to is shown to no client. -/
theorem unseen_setStage (wall : Wall) (u : Store cfg) : Unseen u (u.setStage rid wall) :=
  ⟨rfl, le_rfl, fun h => ⟨h.1, h.2⟩⟩

/-- Nor is the window of debit attempts, from which only the health of the bank is derived. -/
theorem unseen_recordDebitAttempt (confirmed : Bool) (u : Store cfg) :
    Unseen u (u.recordDebitAttempt confirmed) := by
  refine ⟨rfl, le_rfl, fun h => ⟨?_, h.2⟩⟩
  have hlength := h.debitOutcomes
  rw [Store.recordDebitAttempt]
  dsimp only
  split
  next =>
    rw [List.length_tail, List.length_append, List.length_singleton]
    exact hlength
  next hle => exact Nat.le_of_not_lt hle

/-- From a record that is alive the program only makes lawful mutations of its run, and leaves the
record alive however it ends. -/
abbrev Writes (rid : ℕ) {α : Type} (p : CoordinatorProg cfg α) : Prop :=
  ∀ t u, Alive rid u → wp (logRules cfg rid) (Lens.whole _) p (fun _ _ => Alive rid)
    (fun _ _ => Alive rid) t u

/-- From a record that is alive the program only makes lawful mutations of its run, however it ends;
the record may then be at its end. -/
abbrev Finishes (rid : ℕ) {α : Type} (p : CoordinatorProg cfg α) : Prop :=
  ∀ t u, Alive rid u → wp (logRules cfg rid) (Lens.whole _) p (fun _ _ u => rid ∈ u.accepters)
    (fun _ _ u => rid ∈ u.accepters) t u

/-! ### The ends of a run -/

/-- A rejection sets the reason and moves the record to its end. -/
theorem finishes_reject {wall : Wall} {reason attribution : String} :
    Finishes rid (reject rid wall reason attribution : CoordinatorProg cfg Unit) := fun t u h => by
  rw [reject]
  exact h.wp_close [.assign rid _, .transition rid .REJECTED reason] rfl (along_step h rfl _ _)
    fun _ _ h => h

/-- The end of an abandoned run notes the reversal, raises an alert and moves the record to its end.
-/
theorem finishes_closeAbandoned {wall : Wall} {reason attribution requestId : String}
    {debitRef : Option Json} {reversed : Bool} : Finishes rid
      (closeAbandoned P rid wall reason attribution requestId debitRef reversed :
        CoordinatorProg cfg Unit) := fun t u h => by
  rw [closeAbandoned, wp_bind]
  refine h.wp_assign rfl fun t u h => ?_
  refine wp_ofExcept_bind (fun alert _ => ?_) fun e _ => h.accepted
  exact h.wp_close [.addAlert alert, .transition rid .REJECTED_ABANDONED _] rfl
    ⟨⟨trivial, trivial⟩, ⟨⟨h.accepted, h.status⟩, rfl⟩, trivial⟩ fun _ _ h => h

/-- An abandoned run asks for the reversal of its debit, if it has one, and then ends its record. -/
theorem finishes_abandon {wall : Wall} {reason attribution : String} :
    Finishes rid (abandon P rid wall reason attribution : CoordinatorProg cfg Unit) :=
    fun t u h => by
  rw [abandon]
  simp only [theRecord, wp_bind, wp_gets]
  split
  · rw [reverseDebit]
    split
    · exact finishes_closeAbandoned t u h
    · simp only [wp_bind]
      refine h.wp_unseen ⟨rfl, le_rfl, fun h => ⟨h.1, h.2⟩⟩ fun t u h =>
        ⟨trivial, fun r u' hr => ?_⟩
      exact finishes_closeAbandoned _ u' (h.answered hr)
  · exact finishes_closeAbandoned t u h

/-- The backstop of a run that has raised writes nothing when the record is at its end, and else
rejects or abandons it. -/
theorem finishes_backstop {err : String} (t : CoordinatorTrace (Store cfg) cfg) (u : Store cfg)
    (h : rid ∈ u.accepters) : wp (logRules cfg rid) (Lens.whole _)
      (backstop P rid err : CoordinatorProg cfg Unit) (fun _ _ u => rid ∈ u.accepters)
      (fun _ _ u => rid ∈ u.accepters) t u := by
  rw [backstop]
  simp only [theRecord, wp_bind, wp_gets]
  split
  · exact h
  next hstatus =>
    have halive : Alive rid u := ⟨h, hstatus⟩
    rw [wp_bind, wp_gets]
    split
    · exact finishes_abandon t u halive
    · exact finishes_reject t u halive

/-! ### The delivery -/

/-- A credit makes sure that there is a meter and adds to its balance; the record of the run is not
moved. -/
theorem writes_creditMeter {token : Token} :
    Writes rid (creditMeter P rid token : CoordinatorProg cfg Unit) := fun t u h => by
  rw [creditMeter, wp_bind]
  refine h.wp_log [.ensureMeter token.meterId] rfl ⟨⟨trivial, trivial⟩, trivial⟩ ?_ fun t u h => ?_
  · have hspares : (u.ensureMeter token.meterId).heap = u.heap := by
      rw [Store.ensureMeter]
      split <;> rfl
    rw [hspares]
    exact h.status
  · simp only [wp_bind, wp_gets]
    refine wp_ofExcept (fun balance _ => ?_) fun e _ => h
    exact h.wp_log [.credit rid token balance] rfl ⟨⟨trivial, trivial⟩, trivial⟩
      h.status fun _ _ h => h

/-- The delivery redeems the token at the meter, credits it and ends the record, or abandons the
run. -/
theorem finishes_deliver {token : Token} : Finishes rid (deliver P env rid token) := fun t u h => by
  rw [deliver]
  simp only [theRecord, wp_bind, wp_gets, deliverToken]
  split
  · rw [wp_pure]
    exact finishes_abandon t u h
  · simp only [wp_bind]
    refine h.wp_unseen ⟨rfl, le_rfl, fun h => ⟨h.1, h.2⟩⟩ fun t u h => ?_
    rw [wp_bind]
    refine wp_mono (writes_creditMeter t u h) (fun _ t u h => ?_) fun _ _ _ h => h.accepted
    rw [wp_pure]
    exact h.wp_close [.assign rid _, .transition rid .DELIVERED _] rfl (along_step h rfl _ _)
      fun _ _ h => h

/-- The collection of the receipt's fragments writes nothing. Induction on the signers that are
left. -/
theorem writes_collectFragments {body : Json} {signers : List (SignerInfo cfg.SignerId)} :
    Writes rid (collectFragments P body signers) := by
  induction signers with
  | nil => exact fun t u h => h
  | cons signer signers ih =>
      intro t u h
      rw [collectFragments]
      simp only [wp_bind, wp_call]
      refine ⟨trivial, fun r u' hr => ?_⟩
      have h := h.answered hr
      refine wp_ofExcept (fun fragment _ => ?_) fun e _ => h
      rw [wp_bind]
      exact wp_mono (ih _ u' h) (fun _ _ _ h => h) fun _ _ _ h => h

/-- The receipt is prepared, signed and submitted; of the store only the history of receipts grows.
-/
theorem writes_multisignReceipt {publication : Publication} {token : Token}
    {signerSet : List cfg.SignerId} :
    Writes rid (multisignReceipt P env rid publication token signerSet) := fun t u h => by
  rw [multisignReceipt]
  simp only [theRecord, wp_bind, wp_gets]
  refine wp_ofExcept (fun debitRefHash _ => ?_) fun e _ => h
  simp only [wp_bind, wp_gets]
  refine wp_ofExcept (fun M _ => ?_) fun e _ => h
  simp only [wp_bind, wp_call]
  refine ⟨trivial, fun r u' hr => ?_⟩
  have h := h.answered hr
  refine wp_ofExcept (fun prepared _ => ?_) fun e _ => h
  rw [wp_bind]
  refine wp_mono (writes_collectFragments _ u' h) (fun fragments t u h => ?_) fun _ _ _ h => h
  simp only [wp_bind, wp_call]
  refine ⟨trivial, fun r u' hr => ?_⟩
  have h := h.answered hr
  refine wp_ofExcept (fun txHash _ => ?_) fun e _ => h
  rw [wp_bind]
  exact h.wp_unseen ⟨rfl, le_rfl, fun h => ⟨h.1, h.2⟩⟩ fun t u h => h

/-- The receipt is settled on the ledger and noted in the record, and the token is delivered; if it
raises, the run is abandoned. -/
theorem finishes_settleReceipt {publication : Publication} {token : Token}
    {signerSet : List cfg.SignerId} :
    Finishes rid (settleReceipt P env rid publication token signerSet) := fun t u h => by
  rw [settleReceipt]
  simp only [theRecord, wp_bind, wp_gets]
  split
  · exact finishes_abandon t u h
  · rw [wp_bind]
    refine h.wp_unseen (unseen_setStage _ _) fun t u h => ?_
    rw [wp_bind, wp_tryCatch, wp_map]
    refine wp_mono (writes_multisignReceipt t u h) (fun ledger t u h => ?_) fun e t u h => ?_
    · rw [wp_bind]
      have h' : Alive rid (u.addAudit ledger) := ⟨h.accepted, h.status⟩
      refine h.wp_log [.unseen (u.addAudit ledger), .assign rid fun r =>
        { r with ledger := some ledger },
        .transition rid .RECORDED _] rfl ⟨⟨⟨rfl, le_rfl, fun h => ⟨h.1, h.2⟩⟩, trivial⟩,
          along_step h' rfl _ _⟩ ?_ fun t u h => finishes_deliver t u h
      exact status_transition (by decide) _ _
    · exact finishes_abandon t u h

/-! ### The ceremony -/

/-- The poll of the active members reads the store and asks for their health, and writes nothing. -/
theorem writes_poll : Writes rid (pollOnlineActiveSigners P : CoordinatorProg cfg _) :=
    fun t u h => by
  rw [pollOnlineActiveSigners]
  simp only [wp_bind, wp_gets, wp_call, wp_pure]
  exact ⟨trivial, fun r u' hr => h.answered hr⟩

/-- A ceremony is two rounds of calls: whatever the signers answer, the store is not written. -/
theorem writes_runCeremony {chosen : List (SignerInfo cfg.SignerId)} {tokenPayload : TokenPayload}
    {message : Bytes} {messageHex : String} :
    Writes rid (runCeremony P env rid chosen tokenPayload message messageHex) := fun _ _ h =>
  wp_runCeremony (J := fun _ u => Alive rid u) h (fun _ _ _ => trivial)
    (fun _ _ _ _ _ _ h hr => h.answered hr) (fun _ _ _ _ _ _ h hr => h.answered hr)
    (fun _ _ _ _ h' _ => h') (fun _ _ _ _ _ h' _ _ => h') fun _ _ _ _ h' => h'

/-- The loop of ceremonies logs each refusal with its alert, and ends with a token to settle or
abandons. Induction on the fuel. -/
theorem finishes_ceremonyLoop {publication : Publication} {online : List (SignerInfo cfg.SignerId)}
    {tokenPayload : TokenPayload} {message : Bytes} {fuel : ℕ} {refused : List cfg.SignerId} :
    Finishes rid (ceremonyLoop P env rid publication online tokenPayload message fuel refused) := by
  induction fuel generalizing refused with
  | zero => exact fun t u h => h.accepted
  | succ fuel ih =>
      intro t u h
      rw [ceremonyLoop]
      dsimp only
      split
      · exact finishes_abandon t u h
      · simp only [theRecord, wp_bind, wp_gets]
        refine wp_mono (writes_runCeremony t u h) (fun outcome t u h => ?_) fun _ _ _ h =>
          h.accepted
        cases outcome with
        | refused signer reason =>
            rw [wp_bind]
            refine h.wp_log [.addGovernanceEntry _ _ _ _] rfl ⟨⟨rfl, trivial⟩, trivial⟩ h.status
              fun t u h => ?_
            refine wp_ofExcept_bind (fun alert _ => ?_) fun e _ => h.accepted
            rw [wp_bind]
            exact h.wp_alert alert fun t u h => ih t u h
        | error e =>
            dsimp only
            split
            · rw [wp_bind]
              exact h.wp_alert _ fun t u h => finishes_abandon t u h
            · exact finishes_abandon t u h
        | ok token signers =>
            rw [wp_bind]
            exact h.wp_step rfl (by decide) fun t u h => finishes_settleReceipt t u h

/-- Step 6: the poll, the quorum that may be lost, and the loop of ceremonies. -/
theorem finishes_ceremony {publication : Publication} :
    Finishes rid (ceremony P env rid publication) := fun t u h => by
  rw [ceremony, wp_bind]
  refine h.wp_unseen (unseen_setStage _ _) fun t u h => ?_
  rw [wp_bind]
  refine wp_mono (writes_poll t u h) (fun online t u h => ?_) fun _ _ _ h => h.accepted
  simp only [theRecord, wp_bind, wp_gets]
  split
  · rw [wp_bind]
    exact h.wp_alert _ fun t u h => finishes_abandon t u h
  · exact wp_ofExcept_bind (fun tokenPayload _ => finishes_ceremonyLoop t u h) fun e _ => h.accepted

/-! ### The consensus and the debit -/

/-- Step 5: the approvals are gathered on the ledger and noted, and the run goes on or is abandoned.
-/
theorem finishes_approve {publication : Publication} :
    Finishes rid (approve P env rid publication) := fun t u h => by
  rw [approve, wp_bind]
  refine h.wp_unseen (unseen_setStage _ _) fun t u h => ?_
  rw [wp_bind]
  refine wp_mono (writes_poll t u h) (fun online t u h => ?_) fun _ _ _ h => h.accepted
  split
  · exact finishes_abandon t u h
  · simp only [gatherApprovals, wp_bind, wp_call]
    refine ⟨trivial, fun answers u hr => ?_⟩
    have h := h.answered hr
    refine wp_ofExcept (fun M _ => ?_) fun e _ => h.accepted
    simp only [wp_bind, wp_call]
    refine ⟨trivial, fun txs u hr => ?_⟩
    have h := h.answered hr
    refine wp_ofExcept (fun txs _ => ?_) fun e _ => h.accepted
    rw [wp_bind]
    refine wp_ofExcept (fun approvals _ => ?_) fun e _ => h.accepted
    rw [wp_bind]
    refine h.wp_assign rfl fun t u h => ?_
    simp only [theRecord, wp_bind, wp_pure, wp_gets]
    split
    · rw [wp_bind]
      exact h.wp_alert _ fun t u h => finishes_abandon t u h
    · rw [wp_bind]
      exact h.wp_move (by decide) fun t u h => finishes_ceremony t u h

/-- Step 4: the request is published and the publication noted; a publication that fails abandons
the run. -/
theorem finishes_publish : Finishes rid (publish P env rid) := fun t u h => by
  rw [publish, wp_bind]
  refine h.wp_unseen (unseen_setStage _ _) fun t u h => ?_
  rw [wp_bind, wp_tryCatch, wp_map]
  rw [publishOnChain]
  split
  · exact finishes_abandon t u h
  · simp only [theRecord, wp_bind, wp_gets]
    refine wp_ofExcept (fun M _ => ?_) fun e _ => finishes_abandon _ _ h
    rw [wp_bind]
    refine wp_ofExcept (fun encKey _ => ?_) fun e _ => finishes_abandon _ _ h
    simp only [wp_bind, wp_gets, wp_call]
    refine ⟨trivial, fun r u hr => ?_⟩
    have h := h.answered hr
    refine wp_ofExcept (fun txHash _ => ?_) fun e _ => finishes_abandon _ _ h
    rw [wp_pure, wp_bind]
    exact h.wp_step rfl (by decide) fun t u h => finishes_approve t u h

/-- The claim of a confirmed debit either goes on to the publication or rejects the request for a
reused reference. -/
theorem finishes_claimDebit {request : GenerationRequest} {debit : Json} :
    Finishes rid (claimDebit P env rid request debit) := fun t u h => by
  rw [claimDebit]
  simp only [wp_bind, wp_modifyGet]
  obtain ⟨hunseen, hlive⟩ := runsTo_claimDebitRef h (debit.get? "debitRef") request.requestId
  refine ⟨hunseen, ?_⟩
  split
  · refine wp_ofExcept_bind (fun ref _ => ?_) fun e _ => hlive.accepted
    rw [wp_bind]
    exact hlive.wp_alert _ fun t u h => finishes_reject t u h
  · refine wp_ofExcept_bind (fun ref _ => ?_) fun e _ => hlive.accepted
    refine wp_ofExcept_bind (fun amount _ => ?_) fun e _ => hlive.accepted
    rw [wp_bind]
    exact hlive.wp_move (by decide) fun t u h => finishes_publish t u h

/-- Step 3 with a confirmation in hand: an attestation that does not verify is rejected, and else
its debit is claimed. -/
theorem finishes_confirmed {request : GenerationRequest} {debit : Json} :
    Finishes rid (confirmed P env rid request debit) := fun t u h => by
  rw [confirmed]
  split
  · simp only [wp_bind]
    refine h.wp_unseen (unseen_recordDebitAttempt _ _) fun t u h => ?_
    rw [wp_bind]
    exact h.wp_alert _ fun t u h => finishes_reject t u h
  · simp only [wp_bind]
    refine h.wp_unseen (unseen_recordDebitAttempt _ _) fun t u h => ?_
    rw [wp_bind]
    exact h.wp_assign rfl fun t u h => finishes_claimDebit t u h

/-- Step 3: the bank is asked, and an answer that is lost, late or negative is a rejection with its
alert. -/
theorem finishes_debit {request : GenerationRequest} :
    Finishes rid (debit P env rid request) := fun t u h => by
  rw [debit, wp_bind]
  refine h.wp_unseen (unseen_setStage _ _) fun t u h => ?_
  rw [wp_bind]
  refine h.wp_unseen ⟨rfl, le_rfl, fun h => ⟨h.1, h.2⟩⟩ fun t u h => ?_
  rw [wp_bind, wp_call]
  refine ⟨trivial, fun r u hr => ?_⟩
  have h := h.answered hr
  rcases r with - | r
  · simp only [wp_bind]
    refine h.wp_unseen (unseen_recordDebitAttempt _ _) fun t u h => ?_
    rw [wp_bind]
    refine h.wp_unseen ⟨rfl, le_rfl, fun h => ⟨h.1, h.2⟩⟩ fun t u h => ?_
    rw [wp_bind]
    exact h.wp_alert _ fun t u h => finishes_reject t u h
  · simp only [wp_bind]
    refine h.wp_unseen ⟨rfl, le_rfl, fun h => ⟨h.1, h.2⟩⟩ fun t u h => ?_
    split
    · rw [wp_bind]
      refine h.wp_unseen (unseen_recordDebitAttempt _ _) fun t u h => ?_
      refine wp_ofExcept_bind (fun reason _ => ?_) fun e _ => h.accepted
      rw [wp_bind]
      exact h.wp_alert _ fun t u h => finishes_reject t u h
    · exact finishes_confirmed t u h

/-- Steps 1 and 2: the checks of the merchant and of the quorum reject without a debit, or go on to
the bank. -/
theorem finishes_policyGate : Finishes rid (policyGate P env rid) := fun t u h => by
  rw [policyGate]
  simp only [theRecord, wp_bind, wp_gets]
  split
  · rw [wp_bind]
    exact h.wp_alert _ fun t u h => finishes_reject t u h
  · split
    · rw [wp_bind]
      exact h.wp_alert _ fun t u h => finishes_reject t u h
    · rw [preflight, wp_bind]
      refine h.wp_unseen (unseen_setStage _ _) fun t u h => ?_
      rw [wp_bind]
      refine wp_mono (writes_poll t u h) (fun online t u h => ?_) fun _ _ _ h => h.accepted
      split
      · rw [wp_bind]
        exact h.wp_alert _ fun t u h => finishes_reject t u h
      · exact finishes_debit t u h

/-- **A run writes by lawful mutations of its own record**, and never once it is at its end. -/
theorem finishes_runPipeline : Finishes rid (runPipeline P env rid) := fun t u h => by
  rw [runPipeline, wp_bind]
  refine h.wp_unseen (unseen_setStage _ _) fun t u h => ?_
  rw [wp_tryCatch]
  exact wp_mono (finishes_policyGate t u h) (fun _ _ _ h => h)
    fun err t u h => finishes_backstop t u h

end NoGhost
