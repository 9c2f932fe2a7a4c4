import NoGhost.Coordinator.Broadcasts
import NoGhost.Coordinator.Service

/-!
# The Logbook of the Coordinator

Whatever the handlers and the operator do, in any order, the store goes from one await to the next
by a log of lawful mutations. So what a client is shown in any state, and what the tables look like
there, is a matter of logs alone.

## Main results

* `log_sound`: every run of the coordinator is a lawful log.
* `dashboard_tracks`: a dashboard that connects in any state stays in step over the log of whatever
  happens next exactly if no evicted record moves.
* `tables_bounded`: the tables stay within their caps.
-/

open Js Async Replica

namespace NoGhost

variable {cfg : Config} {P : Platform} {env : CoordinatorEnv cfg} {n : ℕ} {b u u' : Store cfg}

/-! ### Logs -/

/-- A lawful log leads from one store to the other: each mutation is lawful where it is made, and
the replay ends at the other. -/
def Logged (u u' : Store cfg) : Prop :=
  ∃ log, (mutations cfg).Along Mutation.Lawful log u ∧ (mutations cfg).replay log u = u'

/-- The empty log leads from a store to itself. -/
theorem Logged.refl (u : Store cfg) : Logged u u := ⟨[], trivial, rfl⟩

/-- Two logs are one, the later after the earlier. -/
theorem Logged.trans {u'' : Store cfg} (h : Logged u u') (h' : Logged u' u'') : Logged u u'' := by
  obtain ⟨log, halong, rfl⟩ := h
  obtain ⟨log', halong', rfl⟩ := h'
  exact ⟨log ++ log', Source.along_append.mpr ⟨halong, halong'⟩, Source.replay_append⟩

/-- A log of one mutation, which is lawful where it is made. -/
theorem Mutation.Lawful.logged {m : Mutation cfg} (h : m.Lawful u) : Logged u (m.apply u) :=
  ⟨[m], ⟨h, trivial⟩, rfl⟩

/-- What the run on a record has written is a lawful log. -/
theorem RunsTo.logged (h : RunsTo n u u') : Logged u u' := by
  obtain ⟨log, halong, rfl⟩ := h
  exact ⟨log, halong.mono fun m u hm => hm.1, rfl⟩

/-- What every lawful mutation keeps, a lawful log keeps, by induction along it. -/
theorem Logged.keeps {I : Store cfg → Prop} (h : Logged u u')
    (hstep : ∀ (m : Mutation cfg) u, I u → m.Lawful u → I (m.apply u)) (hu : I u) : I u' := by
  obtain ⟨log, halong, rfl⟩ := h
  exact halong.keeps hstep hu

/-! ### The discipline of the handlers -/

/-- What happens to the store beside the handlers: the governance endpoints, whose actor is the
operator, the watchdog of a scenario, whose actor is the demo, and the polls and the clock, which
write what no client is shown. -/
inductive Operates : Store cfg → Store cfg → Prop
  | setMerchantRevoked (u : Store cfg) (merchantId : String) (revoked : Bool) (actor : String) :
      Operates u (u.setMerchantRevoked merchantId revoked actor)
  | setMemberStatus (u : Store cfg) (signerId : cfg.SignerId) (name : String)
      (status : MemberStatus) (actor : String) :
      Operates u (u.setMemberStatus signerId name status actor)
  | unseen {u u' : Store cfg} (h : Unseen u u') : Operates u u'

/-- The coordinator under its operator, with services that answer anything. -/
abbrev operatedGame (P : Platform) (env : CoordinatorEnv cfg) :=
  coordinatorGame P env (Lens.whole (Store cfg)) (fun _ _ _ => True) Operates

/-- Every record was made by a handler that has its number, and so by one that has started. -/
def Numbered (u : Store cfg) : Prop := ∀ i ∈ u.accepters, i < u.created

/-- What the handler of a number has done since `b`: a lawful log that leaves the records of all
other numbers alone. -/
structure Wrote (n : ℕ) (b u : Store cfg) : Prop where
  logged : Logged b u
  heap : ∀ i ≠ n, u.heap i = b.heap i
  accepters : ∀ i ≠ n, i ∈ u.accepters ↔ i ∈ b.accepters
  created : b.created ≤ u.created
  taken : n < u.created
  numbered : Numbered u

/-- What the others do while a handler is suspended: its record is left alone, and no record is made
under its number. -/
structure LeavesHandler (n : ℕ) (u u' : Store cfg) : Prop where
  heap : u'.heap n = u.heap n
  accepters : n ∈ u'.accepters ↔ n ∈ u.accepters
  created : u.created ≤ u'.created

variable (P env) in
/-- The discipline of the handlers: all that they do since boot is a lawful log. -/
def logDiscipline (boot : Store cfg) : Discipline (operatedGame P env) where
  inv u := Logged boot u ∧ Numbered u
  evolves := Logged
  rely l := LeavesHandler l.2.created
  gua l := Wrote l.2.created
  compatible l l' := l.2.created ≠ l'.2.created
  post _ _ _ := True
  exn _ _ _ := False
  marked l u := l.2.created < u.created

/-- A mutation that leaves the records of the others alone goes on with what the handler has done.
-/
theorem Wrote.apply (h : Wrote n b u) {m : Mutation cfg} (hm : m.Lawful u)
    (hs : SparesOthers n u (m.apply u)) :
    Wrote n b (m.apply u) := by
  have haccepters : (m.apply u).accepters = u.accepters := congrArg (List.map Prod.fst) hs.accepted
  refine ⟨h.logged.trans hm.logged, fun i hi => (hs.heap i hi).trans (h.heap i hi), fun i hi => ?_,
    h.created.trans hs.created, h.taken.trans_le hs.created, fun i hi => ?_⟩
  · rw [haccepters, h.accepters i hi]
  · rw [haccepters] at hi
    exact (h.numbered i hi).trans_le hs.created

/-- A write of what no client is shown is a mutation without a broadcast, and spares the others. -/
theorem Wrote.unseen (h : Wrote n b u) (hu : Unseen u u') : Wrote n b u' :=
  h.apply (m := .unseen u') hu (Mutation.Of.sparesOthers (m := .unseen u') trivial hu)

/-- The handler makes its record, under its own number, and the record is not at its end. -/
theorem Wrote.createRecord (h : Wrote n b u) (hn : n ∉ u.accepters) (request : GenerationRequest) :
    Wrote n b (u.createRecord n request) ∧ Alive n (u.createRecord n request) := by
  have haccepters : (u.createRecord n request).accepters = n :: u.accepters := by
    rw [Store.accepters, createRecord_eq]
    rfl
  have hcreated : (u.createRecord n request).created = u.created := by rw [createRecord_eq]
  refine ⟨⟨h.logged.trans (Mutation.Lawful.logged (m := .createRecord n request) hn),
    fun i hi => ?_,
    fun i hi => ?_, ?_, ?_, fun i hi => ?_⟩, ?_, ?_⟩
  · rw [heap_createRecord hi, h.heap i hi]
  · rw [haccepters, List.mem_cons, or_iff_right hi, h.accepters i hi]
  · rw [hcreated]
    exact h.created
  · rw [hcreated]
    exact h.taken
  · rw [haccepters] at hi
    rw [hcreated]
    rcases List.mem_cons.mp hi with rfl | hi
    · exact h.taken
    · exact h.numbered i hi
  · rw [haccepters]
    exact List.mem_cons_self
  · rw [heap_createRecord_self]
    exact show RequestStatus.PENDING ∉ TERMINAL by decide

/-- Nothing leaves the record alone. -/
theorem LeavesHandler.refl (u : Store cfg) : LeavesHandler n u u := ⟨rfl, Iff.rfl, le_rfl⟩

/-- Two steps that leave the record alone do so together. -/
theorem LeavesHandler.trans {u'' : Store cfg} (h : LeavesHandler n u u')
    (h' : LeavesHandler n u' u'') :
    LeavesHandler n u u'' :=
  ⟨h'.heap.trans h.heap, h'.accepters.trans h.accepters, h.created.trans h'.created⟩

/-- A serial number that is taken is seen by no client. -/
theorem unseen_reserve (u : Store cfg) : Unseen u u.reserve.2 :=
  ⟨rfl, Nat.le_succ _, fun h => ⟨h.1, h.2⟩⟩

/-- Nor is the choice of the next demo merchant. -/
theorem unseen_rotate (u : Store cfg) : Unseen u u.rotate.2 :=
  ⟨rfl, le_rfl, fun h => ⟨h.1, h.2⟩⟩

/-- The rate limit keeps no more hits than it lets through, and shows them to no client. -/
theorem unseen_rateLimitOk (merchantId : String) (u : Store cfg) :
    Unseen u (u.rateLimitOk merchantId).2 := by
  have hset : ∀ hits : List ℤ, hits.length ≤ RATE_MAX_PER_WINDOW → u.Buffered →
      ∀ e ∈ u.merchantHits.set merchantId hits, e.2.length ≤ RATE_MAX_PER_WINDOW := by
    intro hits hlength h e he
    rcases JsMap.value_set he with he | ⟨hvalue, -⟩
    · exact h.merchantHits e he
    · rw [hvalue]
      exact hlength
  have hkept : u.Buffered → (((u.merchantHits.get merchantId).getD []).filter
      (u.clock - RATE_WINDOW_MS < ·)).length ≤ RATE_MAX_PER_WINDOW := by
    intro h
    refine (List.length_filter_le _ _).trans ?_
    cases hget : u.merchantHits.get merchantId with
    | none => exact Nat.zero_le _
    | some hits => exact h.merchantHits _ (JsMap.mem_of_get hget)
  rw [Store.rateLimitOk]
  split
  next => exact ⟨rfl, le_rfl, fun h => ⟨h.debitOutcomes, hset _ (hkept h) h⟩⟩
  next hroom =>
    refine ⟨rfl, le_rfl, fun h => ⟨h.debitOutcomes, hset _ ?_ h⟩⟩
    rw [List.length_append, List.length_singleton]
    exact Nat.lt_of_not_le hroom

section Handlers

variable {boot : Store cfg} {l : CoordinatorRequest × Store cfg}

/-- A handler at the start of a segment has done nothing in it yet, while its record is as it was
left. -/
theorem Wrote.resume (h : Wrote l.2.created b u) {q : CoordinatorCall cfg} {r : q.Answer}
    (hr : ((logDiscipline P env boot).contract l).resume q u r u') : Wrote l.2.created u' u' :=
  ⟨.refl u', fun _ _ => rfl, fun _ _ => Iff.rfl, le_rfl, h.taken.trans_le
    hr.2.2.1.created, hr.2.1.2⟩

/-- The run of a record that was just made writes by lawful mutations in every segment. -/
theorem wpa_launch_logged (h : Wrote l.2.created b u) (halive : Alive l.2.created u) :
    wpa ((logDiscipline P env boot).contract l) (Lens.whole _) (launch P env l.2.created)
      (fun _ b u => Wrote l.2.created b u) (fun _ _ _ => False) b u := by
  rw [launch, wpa_tryCatch]
  refine wpa_mono (wpa_of_wp (W := logRules cfg l.2.created) (t := [])
    (S := fun b u => Wrote l.2.created b u) (fun q u r u' hr =>
      ⟨hr.2.2.1.heap, hr.2.2.1.accepters.mpr⟩)
    (fun t b u u' hw hruns => ?_) (fun t b u hw _ => hw) (fun b q u r u' hw hr => hw.resume hr)
    (finishes_runPipeline [] u halive) h) (fun a b u hend => hend.1) fun e b u hend => hend.1
  have hs := hruns.sparesOthers
  have haccepters : u'.accepters = u.accepters := congrArg (List.map Prod.fst) hs.accepted
  refine ⟨hw.logged.trans hruns.logged, fun i hi => (hs.heap i hi).trans (hw.heap i hi),
    fun i hi => ?_, hw.created.trans hs.created, hw.taken.trans_le hs.created, fun i hi => ?_⟩
  · rw [haccepters, hw.accepters i hi]
  · rw [haccepters] at hi
    exact (hw.numbered i hi).trans_le hs.created

/-- So does a submission that is accepted: it makes the record, and starts the run. -/
theorem wpa_accept_logged (h : Wrote l.2.created b u) (hn : l.2.created ∉ u.accepters)
    (request : GenerationRequest) :
    wpa ((logDiscipline P env boot).contract l) (Lens.whole _) (launch P env l.2.created)
      (fun _ b u => Wrote l.2.created b u) (fun _ _ _ => False) b
      (u.createRecord l.2.created request) := by
  obtain ⟨hwrote, halive⟩ := h.createRecord hn request
  exact wpa_launch_logged hwrote halive

/-- A handler takes its number first, under which no record was made. -/
theorem wrote_reserve (hu : Numbered u) :
    Wrote u.created u u.reserve.2 ∧ u.created ∉ u.reserve.2.accepters :=
  ⟨⟨Mutation.Lawful.logged (m := .unseen u.reserve.2) (unseen_reserve u), fun _ _ => rfl,
    fun _ _ => Iff.rfl, Nat.le_succ _, Nat.lt_succ_self _,
    fun i hi => Nat.lt_succ_of_lt (hu i hi)⟩, fun hmem => absurd (hu _ hmem) (lt_irrefl _)⟩

/-- The handler of a submission writes by lawful mutations, whether it accepts the request or turns
it down. -/
theorem postRequest_logged {body : Option Json} {uuid : String} (hu : Numbered u) :
    wpa ((logDiscipline P env boot).contract (.post body uuid, u)) (Lens.whole _)
      (postRequest P env body uuid) (fun _ b u' => Wrote u.created b u' ∧ True)
      (fun _ b u' => Wrote u.created b u' ∧ False) u u := by
  obtain ⟨hwrote, hn⟩ := wrote_reserve hu
  simp only [postRequest, wpa_bind, wpa_modifyGet, Lens.whole_view, Lens.whole_put]
  cases requestFields (bodyOrEmpty body) uuid with
  | error message => exact ⟨hwrote, trivial⟩
  | ok fields =>
      simp only [wpa_bind, wpa_gets, Lens.whole_view]
      cases u.reserve.2.getRequest fields.requestId with
      | some i => exact ⟨hwrote, trivial⟩
      | none =>
          simp only [wpa_bind, wpa_modifyGet, Lens.whole_view, Lens.whole_put]
          have hlimit := hwrote.unseen (unseen_rateLimitOk (trim fields.merchantId) _)
          split
          next => exact ⟨hlimit, trivial⟩
          next =>
            simp only [wpa_bind, wpa_modify, Lens.whole_view, Lens.whole_put]
            refine wpa_mono (wpa_accept_logged (l := (.post body uuid, u)) hlimit ?_
              (fields.request _))
              (fun _ b u' h => ⟨h, trivial⟩) fun _ _ _ h => h.elim
            have haccepted : (u.reserve.2.rateLimitOk (trim fields.merchantId)).2.accepted =
                u.reserve.2.accepted :=
              congrArg Seen.accepted (unseen_rateLimitOk (trim fields.merchantId) u.reserve.2).seen
            rw [Store.accepters, haccepted]
            exact hn

/-- A revocation, or a reinstatement, is one mutation that leaves all records alone. -/
theorem Wrote.setMerchantRevoked (h : Wrote n b u) (merchantId : String) (revoked : Bool)
    (actor : String) : Wrote n b (u.setMerchantRevoked merchantId revoked actor) ∧
      (u.setMerchantRevoked merchantId revoked actor).accepters = u.accepters := by
  have hs : SparesOthers n u (u.setMerchantRevoked merchantId revoked actor) :=
    Mutation.Of.sparesOthers (m := .setMerchantRevoked merchantId revoked actor) trivial trivial
  exact ⟨h.apply (m := .setMerchantRevoked merchantId revoked actor) trivial hs,
    congrArg (List.map Prod.fst) hs.accepted⟩

/-- The preconditions of a scenario are at most a revocation, by the demo as the actor. -/
theorem Wrote.applyPreconditions (h : Wrote n b u) (kind : ScenarioKind) (merchantId : String) :
    Wrote n b (u.applyPreconditions kind merchantId) ∧
      (u.applyPreconditions kind merchantId).accepters = u.accepters := by
  rw [Store.applyPreconditions]
  split
  · exact h.setMerchantRevoked ..
  · exact ⟨h, rfl⟩

/-- The end of a scenario is at most a reinstatement, of the merchant that the scenario has revoked.
-/
theorem Wrote.settle (h : Wrote n b u) (rid : ℕ) (kind : ScenarioKind) (merchantId : String)
    (watchdog : Bool) : Wrote n b (u.settle rid kind merchantId watchdog) := by
  rw [Store.settle, Store.restorePreconditions]
  split
  · split
    · exact (h.setMerchantRevoked ..).1
    · exact h
  · exact h

/-- The handler of a scenario writes by lawful mutations from its preconditions to their
restoration. -/
theorem runScenario_logged {kind : ScenarioKind} {uuid : String} {watchdog : Bool}
    (hu : Numbered u) :
    wpa ((logDiscipline P env boot).contract (.scenario kind uuid watchdog, u)) (Lens.whole _)
      (runScenario P env kind uuid watchdog) (fun _ b u' => Wrote u.created b u' ∧ True)
      (fun _ b u' => Wrote u.created b u' ∧ False) u u := by
  set l : CoordinatorRequest × Store cfg := (.scenario kind uuid watchdog, u) with hl
  obtain ⟨hwrote, hn⟩ := wrote_reserve hu
  simp only [runScenario, wpa_bind, wpa_modifyGet, wpa_call, Lens.whole_view, Lens.whole_put]
  have hrotate := hwrote.unseen (unseen_rotate u.reserve.2)
  refine ⟨hrotate, fun _ u₁ hr => ?_⟩
  have h₁ := Wrote.resume (l := l) hrotate hr
  have hn₁ : u.created ∉ u₁.accepters := fun hmem => hn (hr.2.2.1.accepters.mp hmem)
  obtain ⟨h₂, haccepters⟩ := h₁.applyPreconditions kind
    (MERCHANT_IDS.getD (u.reserve.2.rotate.1 % MERCHANT_IDS.length) "")
  simp only [wpa_bind, wpa_modify, wpa_call, Lens.whole_view, Lens.whole_put]
  refine ⟨h₂, fun _ u₃ hr₃ => ?_⟩
  have h₃ := Wrote.resume (l := l) h₂ hr₃
  refine wpa_mono (wpa_accept_logged (l := l) h₃ (fun hmem => hn₁ ?_)
    ⟨demoRequestId uuid, _, _, _, _⟩) (fun _ b u' h => ⟨h.settle .., trivial⟩) fun _ _ _ h => h.elim
  rw [← haccepters]
  exact hr₃.2.2.1.accepters.mp hmem

/-- Every handler of the coordinator writes by lawful mutations. The cases are the requests. -/
theorem serve_logged (req : CoordinatorRequest) (hu : Numbered u) :
    wpa ((logDiscipline P env boot).contract (req, u)) (Lens.whole _) (serve P env req)
      (fun _ b u' => Wrote u.created b u' ∧ True)
      (fun _ b u' => Wrote u.created b u' ∧ False) u u := by
  cases req with
  | post body uuid => exact postRequest_logged hu
  | scenario kind uuid watchdog => exact runScenario_logged hu

end Handlers

/-! ### The operator -/

/-- What the operator does is a log, too, and touches no record. -/
theorem Operates.logged (h : Operates u u') :
    Logged u u' ∧ u'.heap = u.heap ∧ u'.accepters = u.accepters ∧ u.created ≤ u'.created := by
  cases h with
  | setMerchantRevoked merchantId revoked actor =>
      refine ⟨Mutation.Lawful.logged (m := .setMerchantRevoked merchantId revoked actor)
        trivial, ?_⟩
      rw [Store.setMerchantRevoked]
      split <;> exact ⟨rfl, rfl, le_rfl⟩
  | setMemberStatus signerId name status actor =>
      refine ⟨Mutation.Lawful.logged (m := .setMemberStatus signerId name status actor) trivial, ?_⟩
      rw [Store.setMemberStatus]
      split <;> exact ⟨rfl, rfl, le_rfl⟩
  | unseen h =>
      exact ⟨Mutation.Lawful.logged (m := .unseen u') h, congrArg Seen.heap h.seen,
        congrArg (fun seen => seen.accepted.map Prod.fst) h.seen, h.created⟩

/-! ### Every run -/

/-- At the boot no record was made. -/
theorem numbered_boot (now : String) (randomBytes : Bytes) :
    Numbered (Store.boot cfg now randomBytes) := fun _ hi => absurd hi List.not_mem_nil

variable (P env) in
/-- The discipline of the log holds of the coordinator: each handler keeps to its own record and to
lawful mutations. -/
theorem logDiscipline_valid (boot : Store cfg) : (logDiscipline P env boot).Valid where
  evolves_refl := .refl
  evolves_trans h h' := h.trans h'
  rely_refl _ u := .refl u
  rely_trans h h' := h.trans h'
  handler_spec req u hu _ := serve_logged req hu.2
  gua_inv hu h := ⟨⟨hu.1.trans h.logged, h.numbered⟩, h.logged⟩
  gua_rely hne _ h := ⟨h.heap _ hne.symm, h.accepters _ hne.symm, h.created⟩
  moves_inv hu h := by
    obtain ⟨hlogged, -, haccepters, hcreated⟩ := Operates.logged h
    refine ⟨⟨hu.1.trans hlogged, fun i hi => ?_⟩, hlogged⟩
    rw [haccepters] at hi
    exact (hu.2 i hi).trans_le hcreated
  moves_rely _ h := by
    obtain ⟨-, hheap, haccepters, hcreated⟩ := Operates.logged h
    exact ⟨congrFun hheap _, by rw [haccepters], hcreated⟩
  gua_marked _ h := h.taken

/-- A new handler has a number of its own, since the numbers only grow. -/
theorem logDiscipline_admits {boot : Store cfg} {c : CoordinatorPool (Store cfg) cfg}
    (hgood : (logDiscipline P env boot).Good c) (req : CoordinatorRequest) :
    (logDiscipline P env boot).Admits c req := by
  refine ⟨trivial, fun p hp _ => ?_⟩
  obtain ⟨u₀, -, hmarked, hev, -⟩ := hgood.keeps p hp
  have hcreated : u₀.created ≤ c.state.created :=
    Logged.keeps (I := fun u => u₀.created ≤ u.created) hev
      (fun m u hu hm => hu.trans (created_apply hm)) le_rfl
  have hlt : p.label.2.created < c.state.created := hmarked.trans_le hcreated
  exact ⟨hlt.ne, hlt.ne'⟩

variable {now : String} {randomBytes : Bytes} {c : CoordinatorPool (Store cfg) cfg}

/-- **Every run is a lawful log** from the boot on, whatever the handlers, the operator and the
services do. -/
theorem log_sound
    (h : (operatedGame P env).Reaches (fun _ _ => True) (.boot cfg now randomBytes) c) :
    (logDiscipline P env (.boot cfg now randomBytes)).Good c :=
  Discipline.sound (logDiscipline_valid P env _) ⟨.refl _, numbered_boot now randomBytes⟩
    (fun _ req hgood _ => logDiscipline_admits hgood req) h

/-- The tables are in order in every state, and every listed request is kept if no identifier is
accepted twice. -/
theorem filed_of_reaches
    (h : (operatedGame P env).Reaches (fun _ _ => True) (.boot cfg now randomBytes) c) :
    Filed c.state ∧ (c.state.acceptedIds.Nodup → Listed c.state) := by
  obtain ⟨⟨⟨log, hlawful, hreplay⟩, -⟩, -, -⟩ := log_sound h
  have hboot : Filed (.boot cfg now randomBytes) := filed_boot now randomBytes
  rw [← hreplay]
  refine ⟨hlawful.keeps (fun m u hu hm => hu.apply hm) hboot, fun hnodup => ?_⟩
  have hunlisted := Dashboard.along_unlisted hlawful hboot hnodup
  have hkept := (hlawful.and hunlisted).keeps (I := fun u => Filed u ∧ Listed u)
    (fun m u hu hm => ⟨hu.1.apply hm.1, hu.2.apply hu.1 hm.1 hm.2⟩)
    ⟨hboot, listed_boot now randomBytes⟩
  exact hkept.2

variable {B C : Type}

/-- **The tables stay within their caps**, however many requests there are and however they
interleave: no list that a client is shown grows without bound, nor does a window of recent events.
-/
theorem tables_bounded
    (h : (operatedGame P env).Reaches (fun _ _ => True) (.boot cfg now randomBytes) c) :
    c.state.requestOrder.length ≤ REQUEST_CAP ∧ c.state.requests.length ≤ REQUEST_CAP ∧
      c.state.alerts.length ≤ ALERT_CAP ∧ c.state.governanceLog.length ≤ GOVLOG_CAP ∧
      c.state.series.length ≤ SERIES_CAP ∧ c.state.debitOutcomes.length ≤ DEBIT_OUTCOME_WINDOW ∧
      ∀ e ∈ c.state.merchantHits, e.2.length ≤ RATE_MAX_PER_WINDOW := by
  have hf := (filed_of_reaches h).1
  have hlogged := (log_sound h).inv.1
  have hbuffered : c.state.Buffered := hlogged.keeps (fun m u hu hm => hu.apply hm)
    ⟨Nat.zero_le _, fun _ he => absurd he List.not_mem_nil⟩
  have horder : c.state.requestOrder.length ≤ REQUEST_CAP := by
    rw [hf.table.order]
    exact List.length_take_le _ _
  refine ⟨horder, le_trans ?_ horder, hf.alerts, hf.governanceLog, hf.series,
    hbuffered.debitOutcomes, hbuffered.merchantHits⟩
  -- every key is listed, and none comes twice
  have hkeys : (c.state.requests.map Prod.fst).Nodup :=
    List.pairwise_map.mpr (hf.table.keys.imp fun hne => beq_eq_false_iff_ne.mp hne)
  have hsub : c.state.requests.map Prod.fst ⊆ c.state.requestOrder := fun x hx => by
    obtain ⟨e, he, rfl⟩ := List.mem_map.mp hx
    exact hf.listed e he
  calc c.state.requests.length = (c.state.requests.map Prod.fst).length := (List.length_map _).symm
    _ ≤ c.state.requestOrder.length := (List.subperm_of_subset hkeys hsub).length_le

/-- A list within its cap grows by one until it is full. -/
theorem length_capped_cons {α : Type} {cap : ℕ} {list : List α} (h : list.length ≤ cap) (a : α) :
    (capped cap (a :: list)).length = min (list.length + 1) cap := by
  rw [capped]
  split
  next hlong =>
    rw [List.length_cons] at hlong
    rw [List.length_dropLast, List.length_cons]
    omega
  next hshort =>
    rw [List.length_cons] at hshort ⊢
    omega

/-- A revocation of a merchant that there is writes one entry, and the merchant stays. -/
theorem length_setMerchantRevoked {merchantId : String} (revoked : Bool) (actor : String)
    (hlog : u.governanceLog.length ≤ GOVLOG_CAP)
    (hmerchant : ∃ m ∈ u.merchants, m.merchantId = merchantId) :
    let u' := u.setMerchantRevoked merchantId revoked actor
    u'.governanceLog.length = min (u.governanceLog.length + 1) GOVLOG_CAP ∧
      ∃ m ∈ u'.merchants, m.merchantId = merchantId := by
  obtain ⟨m, hm, hid⟩ := hmerchant
  intro u'
  have hsome : (u.getMerchant merchantId).isSome = true := by
    rw [Store.getMerchant, List.find?_isSome]
    exact ⟨m, hm, by simpa using hid⟩
  obtain ⟨found, hfound⟩ := Option.isSome_iff_exists.mp hsome
  have hu' : u' = u.setMerchantRevoked merchantId revoked actor := rfl
  rw [Store.setMerchantRevoked, hfound] at hu'
  rw [hu']
  refine ⟨?_, _, List.mem_map_of_mem hm, ?_⟩
  · exact length_capped_cons hlog _
  · rw [if_pos hid]
    exact hid

/-- A store at boot after the operator has revoked a merchant so many times. -/
def Small.revocations : ℕ → Store config
  | 0 => .boot config "2025-01-01T00:00:00.000Z" []
  | n + 1 => (Small.revocations n).setMerchantRevoked "MER-001" true "operator"

/-- The operator may revoke a merchant as often as he likes. -/
theorem reaches_revocations (n : ℕ) :
    (operatedGame Small.platform Small.coordinatorEnv).Reaches (fun _ _ => True)
      (.boot config "2025-01-01T00:00:00.000Z" []) ⟨Small.revocations n, []⟩ := by
  induction n with
  | zero => exact .init
  | succ n ih => exact ih.world (.setMerchantRevoked _ "MER-001" true "operator")

/-- Each revocation is an entry of the governance log until the log is full, and the merchant stays
known. -/
theorem length_revocations (n : ℕ) :
    (Small.revocations n).governanceLog.length = min n GOVLOG_CAP ∧
      ∃ m ∈ (Small.revocations n).merchants, m.merchantId = "MER-001" := by
  induction n with
  | zero => exact ⟨rfl, _, List.mem_cons_self, rfl⟩
  | succ n ih =>
      obtain ⟨hlength, hmerchant⟩ := ih
      obtain ⟨hnext, hkept⟩ := length_setMerchantRevoked true "operator"
        (hlength.trans_le (Nat.min_le_right _ _)) hmerchant
      refine ⟨hnext.trans ?_, hkept⟩
      rw [hlength]
      omega

/-- The operator writes one entry more than the governance log takes: the log is full, and within
its cap all the same. -/
theorem tables_bounded_small :
    GOVLOG_CAP ≤ (Small.revocations (GOVLOG_CAP + 1)).governanceLog.length ∧
      (Small.revocations (GOVLOG_CAP + 1)).governanceLog.length ≤ GOVLOG_CAP := by
  obtain ⟨-, -, -, hlog, -⟩ := tables_bounded (reaches_revocations (GOVLOG_CAP + 1))
  obtain ⟨hlength, -⟩ := length_revocations (GOVLOG_CAP + 1)
  exact ⟨by rw [hlength, Nat.min_eq_right (Nat.le_succ _)], hlog⟩

end NoGhost
