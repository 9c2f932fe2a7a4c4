import NoGhost.Signer.Nonces

/-!
# Consumption of Sessions

What one round-2 handler does to the sessions of its member, while requests of round 1 are served
and time passes. The pair of nonces that the handler finds is named by its serial, as every pair
is. The handler looks its session up once, after the expired ones have been swept, and deletes by
the identifier of the session; so the pair stays where the handler ends without deleting, and a
newer pair under the same identifier goes where it is stored while the handler waits for the
ledger.

## Main results

* `catalogued`: in every reachable state the pairs are stored under the identifiers that they
  were stored for.
* `consumed_iff`: exactly when the handler consumes the pair it found, and no other.
* `session_lingers`: a handler that cannot read the ledger leaves its pair behind.
-/

open Js Async

namespace NoGhost

variable (P : Platform) {cfg : Config} (env : SignerEnv cfg)

/-! ### The catalogue of pairs -/

/-- Every pair is stored under the identifier that it was stored for, which has no other session at
the same time. -/
structure Catalogued (s : SignerState) : Prop where
  distinct : s.sessions.Distinct
  stored : ∀ e ∈ s.sessions, s.stored[e.2.serial]? = some e.1

variable {P env} {s t : SignerState}

/-- At the boot no pair was stored. -/
theorem catalogued_boot (clock : ℤ) : Catalogued (.boot clock) :=
  ⟨List.Pairwise.nil, fun _ he => nomatch he⟩

/-- Sessions that are dropped leave the catalogue in order. -/
theorem Forgets.catalogued (ht : Forgets s t) (h : Catalogued s) : Catalogued t := by
  obtain ⟨keep, rfl⟩ := ht
  exact ⟨h.distinct.filter _, fun e he => h.stored e (List.mem_filter.mp he).1⟩

/-- A session that is stored has the next number in the catalogue. -/
theorem Catalogued.storeSession (h : Catalogued s) (sessionId : String) (nonces : Frost.Nonces) :
    Catalogued (storeSession sessionId nonces s) := by
  refine ⟨h.distinct.set, fun e he => ?_⟩
  rcases JsMap.mem_set he with rfl | ⟨he, -⟩
  · simp [NoGhost.storeSession]
  · have hget := h.stored e he
    obtain ⟨hlt, -⟩ := List.getElem?_eq_some_iff.mp hget
    simp only [NoGhost.storeSession]
    rw [List.getElem?_append_left hlt, hget]

variable (P env) in
/-- The discipline of the catalogue: it is in order between segments, and every segment keeps it. -/
def catalogueDiscipline : Discipline (signerGame P env) where
  inv := Catalogued
  evolves _ _ := True
  rely _ _ _ := True
  gua _ s s' := Catalogued s → Catalogued s'
  compatible _ _ := True
  post _ _ _ := True
  exn _ _ _ := True

/-- Every handler keeps the catalogue: only round 1 adds to it, and the others only drop sessions.
-/
theorem catalogue_handler_spec (req : SignerRequest) (s : SignerState) (hs : Catalogued s) :
    wpa ((catalogueDiscipline P env).contract (req, s)) (Lens.whole SignerState)
      (signerHandler P env req)
      (fun _ b s' => (Catalogued b → Catalogued s') ∧ True)
      (fun _ b s' => (Catalogued b → Catalogued s') ∧ True) s s := by
  have hresume : ∀ q s₁ r s₂, Catalogued s₁ →
      ((catalogueDiscipline P env).contract (req, s)).resume q s₁ r s₂ →
      Catalogued s₂ ∧ (Catalogued s₂ → Catalogued s₂) := fun q s₁ r s₂ _ hr => ⟨hr.2.1, id⟩
  cases req with
  | sweep => exact ⟨(forgets_sweep s).catalogued, trivial⟩
  | online body => exact (wpa_admin fun _ _ _ _ _ => ⟨fun h => ⟨h.distinct, h.stored⟩, trivial⟩).1
  | refuse body => exact (wpa_admin fun _ _ _ _ _ => ⟨fun h => ⟨h.distinct, h.stored⟩, trivial⟩).2
  | round1 body draws =>
      exact wpa_round1 (fun _ t ht _ => ⟨ht.catalogued, trivial⟩)
        (fun _ t sessionId nonces ht _ =>
          ⟨fun h => (ht.catalogued h).storeSession sessionId nonces, trivial⟩)
        (fun _ t ht => ⟨ht.catalogued, trivial⟩)
  | validate body =>
      exact wpa_validate (J := Catalogued) id hs hresume (fun _ _ _ hseg _ _ => ⟨hseg, trivial⟩)
        (fun _ _ h _ => ⟨fun _ => ⟨h.distinct, h.stored⟩, ⟨h.distinct, h.stored⟩⟩)
        (fun _ _ _ _ _ h _ => ⟨fun _ => ⟨h.distinct, h.stored⟩, trivial⟩)
  | signReceipt body =>
      exact wpa_signReceipt (J := Catalogued) id hs hresume
        (fun _ _ _ hseg _ _ => ⟨hseg, trivial⟩) (fun _ _ _ hseg _ => ⟨hseg, trivial⟩)
  | round2 body =>
      refine wpa_round2 (fun _ t ht _ => ⟨ht.catalogued, trivial⟩)
        (fun _ t ht => ⟨ht.catalogued, trivial⟩) fun p _ => ?_
      exact wpa_round2Gate (J := Catalogued) (forgets_sweep s).catalogued
        ((forgets_sweep s).catalogued hs) hresume
        (fun _ s' _ _ => ⟨(forgets_delete _ s').catalogued, trivial⟩)
        (fun _ s' _ _ _ _ => ⟨fun h => (forgets_delete _ (recordPartial _ s')).catalogued
          ⟨h.distinct, h.stored⟩, trivial⟩)
        (fun _ _ _ hseg _ => ⟨hseg, trivial⟩)

/-- The discipline of the catalogue holds of a member. -/
theorem catalogueDiscipline_valid : (catalogueDiscipline P env).Valid where
  evolves_refl _ := trivial
  evolves_trans _ _ := trivial
  rely_refl _ _ := trivial
  rely_trans _ _ := trivial
  handler_spec req s hs _ := catalogue_handler_spec req s hs
  gua_inv hs h := ⟨h hs, trivial⟩
  gua_rely _ _ _ := trivial
  moves_inv hs h := by
    obtain ⟨clock, rfl⟩ := h
    exact ⟨⟨hs.distinct, hs.stored⟩, trivial⟩
  moves_rely _ _ := trivial

/-- Every reachable state is catalogued, by the soundness of the discipline. -/
theorem catalogued {admitted : SignerPool → SignerRequest → Prop} {clock : ℤ} {c : SignerPool}
    (h : (signerGame P env).Reaches admitted (.boot clock) c) : Catalogued c.state :=
  (Discipline.sound catalogueDiscipline_valid (catalogued_boot clock)
    (fun _ _ _ _ => ⟨trivial, fun _ _ _ => ⟨trivial, trivial⟩⟩) h).inv

/-! ### While a handler waits -/

variable (P env) in
/-- Requests of round 1 are served, and time passes, while a round 2 waits at its gate. -/
inductive Round1s (s : SignerState) : SignerState → Prop
  | refl : Round1s s s
  | round1 {s' : SignerState} (h : Round1s s s') (body : Option Json) (draws : List Bytes) :
      Round1s s ((NoGhost.round1 P env body draws).settle s').2
  | elapse {s' : SignerState} (h : Round1s s s') (clock : ℤ) : Round1s s { s' with clock }

/-- One more pair may be stored, and sessions may be dropped. -/
def Stores (s s' : SignerState) : Prop :=
  Forgets s s' ∨ ∃ t sessionId nonces, Forgets s t ∧ s' = storeSession sessionId nonces t

variable (P env) in
/-- A request of round 1 is served at once, and stores at most one more pair. -/
theorem settle_round1 (body : Option Json) (draws : List Bytes) (s : SignerState) :
    Stores s ((round1 P env body draws).settle s).2 := by
  have hspec : wpa (⟨fun _ _ _ _ => False, Stores⟩ :
      Contract SignerState SignerCall SignerCall.Answer) (Lens.whole SignerState)
      (round1 P env body draws) (fun _ b s' => Stores b s' ∧ True)
      (fun _ b s' => Stores b s' ∧ True) s s :=
    wpa_round1 (fun _ t ht _ => ⟨.inl ht, trivial⟩)
      (fun _ t sessionId nonces ht _ => ⟨.inr ⟨t, sessionId, nonces, ht, rfl⟩, trivial⟩)
      (fun _ t ht => ⟨.inl ht, trivial⟩)
  exact (settle_spec (F := fun _ _ => True) (E := fun _ _ => True) hspec).1

/-- Such a step keeps the catalogue in order, and takes nothing out of it. -/
theorem Stores.catalogued (h : Stores s t) (hs : Catalogued s) :
    Catalogued t ∧ s.stored <+: t.stored := by
  rcases h with ht | ⟨u, sessionId, nonces, hu, rfl⟩
  · refine ⟨ht.catalogued hs, ?_⟩
    obtain ⟨keep, rfl⟩ := ht
    exact List.prefix_rfl
  · refine ⟨(hu.catalogued hs).storeSession sessionId nonces, ?_⟩
    obtain ⟨keep, rfl⟩ := hu
    exact List.prefix_append _ _

/-- The catalogue is kept, and only grows, through any number of rounds 1. -/
theorem Round1s.catalogued (h : Round1s P env s t) (hs : Catalogued s) :
    Catalogued t ∧ s.stored <+: t.stored := by
  induction h with
  | refl => exact ⟨hs, List.prefix_rfl⟩
  | round1 _ body draws ih =>
      obtain ⟨hcat, hgrows⟩ := (settle_round1 P env body draws _).catalogued ih.1
      exact ⟨hcat, ih.2.trans hgrows⟩
  | elapse _ clock ih => exact ⟨⟨ih.1.distinct, ih.1.stored⟩, ih.2⟩

/-! ### One handler -/

/-- The session that a round-2 handler finds under the identifier of its body. -/
def foundSession (s : SignerState) (body : Option Json) : Option (String × Session) :=
  if s.online then
    (sessionIdOf body).bind fun sessionId =>
      ((sweepExpiredSessions s).sessions.get sessionId).map (sessionId, ·)
  else none

/-- What the execution of a handler leaves of a session that it found: the pair is gone, and no
other pair that is stored once the expired ones have been swept was removed. -/
structure Consumed (session : Session)
    (out : Outcome SignerState String SignerCall SignerCall.Answer Response) : Prop where
  gone : ∀ e ∈ out.final.sessions, e.2.serial ≠ session.serial
  kept : ∀ before after, .wrote before after ∈ out.trace.tail →
    ∀ e ∈ before.sessions, e.2.serial ≠ session.serial → e ∈ after.sessions

/-- The count of approvals that the handler of a body awaits, started in `s`. -/
abbrev gateCount (P : Platform) (env : SignerEnv cfg)
    (world : Env SignerState SignerCall SignerCall.Answer) (s : SignerState) (json : Json) :
    Outcome SignerState String SignerCall SignerCall.Answer ℕ :=
  (onChainApproveCount P env (hashValue P (json.get? "request"))).run world
    [.wrote s (sweepExpiredSessions s)] (sweepExpiredSessions s)

/-- The counted approvals come while no newer pair is stored under the identifier; a count that
fails comes when the pair itself is not stored any more. -/
def GateOrderly (gate : Outcome SignerState String SignerCall SignerCall.Answer ℕ)
    (sessionId : String) (session : Session) : Prop :=
  match gate.result with
  | .ok _ => ∀ e ∈ gate.final.sessions, e.1 = sessionId → e.2.serial = session.serial
  | .error _ => ∀ e ∈ gate.final.sessions, e.2.serial ≠ session.serial

/-- The handler consumes the session behind its lookup: the keys are there, the body is well formed,
and the checks come to an end; one of them fails, or the count of approvals is orderly. -/
def ChecksOrderly (P : Platform) (env : SignerEnv cfg)
    (world : Env SignerState SignerCall SignerCall.Answer) (s : SignerState) (json : Json)
    (sessionId : String) (session : Session) : Prop :=
  match env.share, truthyText env.pinnedBankPublicKey, round2Body json with
  | some _, some key, some _ =>
      match runWall1TokenChecks P (some json) key with
      | .ok (some _) => True
      | .ok none => GateOrderly (gateCount P env world s json) sessionId session
      | .error _ => False
  | _, _, _ => False

/-- When a handler consumes the session that it found: the member refuses, or all is in order. -/
def Orderly (P : Platform) (env : SignerEnv cfg)
    (world : Env SignerState SignerCall SignerCall.Answer) (s : SignerState) (body : Option Json)
    (sessionId : String) (session : Session) : Prop :=
  s.refuse = true ∨ ∃ json, body = some json ∧ ChecksOrderly P env world s json sessionId session

section Execution

variable {world : Env SignerState SignerCall SignerCall.Answer} {session : Session}
  {sessionId : String} {body : Option Json}

/-- A count of approvals keeps what the others keep, since it writes nothing itself. Induction on
the attempts. -/
theorem wp_countAttempts {W : Rules SignerState SignerCall SignerCall.Answer}
    {J : SignerState → Prop} {requestHash : String} {attempts : ℕ}
    {tr : Trace SignerState SignerCall SignerCall.Answer} (hJ : J s) (hrest : ∀ t s, W.rest t s)
    (hresume : ∀ q s r s', J s → W.resume q s r s' → J s') :
    wp W (Lens.whole SignerState) (countAttempts P env requestHash attempts) (fun _ _ s => J s)
      (fun _ _ s => J s) tr s := by
  have hread : ∀ (t : Trace SignerState SignerCall SignerCall.Answer) s, J s →
      wp W (Lens.whole SignerState) (readApproveCount P env requestHash) (fun _ _ s => J s)
        (fun _ _ s => J s) t s := fun t s hJ => by
    rw [readApproveCount]
    refine wp_ofExcept_bind (fun M _ => ?_) fun e _ => hJ
    rw [wp_bind, wp_call]
    refine ⟨hrest t s, fun r s' hr => ?_⟩
    have hJ' := hresume _ _ _ _ hJ hr
    exact wp_ofExcept_bind (fun txs _ => wp_ofExcept_bind (fun approvals _ => hJ') fun e _ => hJ')
      fun e _ => hJ'
  induction attempts generalizing tr s with
  | zero => exact hread tr s hJ
  | succ attempts ih =>
      rw [countAttempts, wp_bind]
      refine wp_mono (hread tr s hJ) (fun n t' s' hJ' => ?_) fun _ _ _ h => h
      split
      · exact hJ'
      · rw [wp_bind, wp_call]
        exact ⟨hrest _ _, fun r s'' hr => ih (hresume _ _ _ _ hJ' hr)⟩

/-- What is known when the count is over: the catalogue has only grown, and the handler itself has
written nothing. -/
theorem gateCount_spec {json : Json} (hs : Catalogued (sweepExpiredSessions s))
    (hworld : (onChainApproveCount P env (hashValue P (json.get? "request"))).Along world
      (fun _ s _ s' => Round1s P env s s') [.wrote s (sweepExpiredSessions s)]
      (sweepExpiredSessions s)) :
    let gate := gateCount P env world s json
    Catalogued gate.final ∧ (sweepExpiredSessions s).stored <+: gate.final.stored ∧
      ∃ u, gate.trace = .wrote s (sweepExpiredSessions s) :: u ∧
        ∀ before after, .wrote before after ∉ u := by
  intro gate
  let W : Rules SignerState SignerCall SignerCall.Answer :=
    { resume := fun _ s _ s' => Round1s P env s s', gua := fun _ _ _ => False }
  let J : SignerState → Prop := fun s' =>
    Catalogued s' ∧ (sweepExpiredSessions s).stored <+: s'.stored
  have hmeets : gate.Meets W (fun _ _ s => J s) (fun _ _ s => J s)
      [.wrote s (sweepExpiredSessions s)] :=
    run_of_wp hworld (wp_countAttempts (J := J) ⟨hs, List.prefix_rfl⟩ (fun _ _ => trivial)
      fun q s₁ r s₂ h₁ hr => by
        obtain ⟨hcat, hgrows⟩ := Round1s.catalogued hr h₁.1
        exact ⟨hcat, h₁.2.trans hgrows⟩)
  have hfinal : J gate.final := by
    cases hresult : gate.result with
    | ok n => exact hmeets.returned n hresult
    | error e => exact hmeets.raised e hresult
  obtain ⟨u, hu⟩ := hmeets.prefix_trace
  refine ⟨hfinal.1, hfinal.2, u, hu.symm, fun before after hmem => ?_⟩
  obtain ⟨u₁, u₂, rfl⟩ := List.append_of_mem hmem
  exact hmeets.wrote u₁ before after ⟨u₂, by rw [← hu]; simp⟩

/-- An execution that writes nothing after the sweep consumes what the others have removed. -/
theorem consumed_silent {out : Outcome SignerState String SignerCall SignerCall.Answer Response}
    (h : ∀ before after, .wrote before after ∉ out.trace.tail) :
    Consumed session out ↔ ∀ e ∈ out.final.sessions, e.2.serial ≠ session.serial :=
  ⟨fun hc => hc.gone, fun hgone => ⟨hgone, fun before after hmem => absurd hmem (h before after)⟩⟩

/-- An execution that ends with a deletion consumes its session, and no other unless one was
stored under the same identifier. -/
theorem consumed_delete {out : Outcome SignerState String SignerCall SignerCall.Answer Response}
    {u : Trace SignerState SignerCall SignerCall.Answer} {m : SignerState}
    (htrace : out.trace.tail = u ++ [.wrote m out.final])
    (hu : ∀ before after, .wrote before after ∉ u)
    (hfinal : out.final.sessions = m.sessions.delete sessionId) (hm : Catalogued m)
    (hstored : m.stored[session.serial]? = some sessionId) :
    Consumed session out ↔ ∀ e ∈ m.sessions, e.1 = sessionId → e.2.serial = session.serial := by
  constructor
  · intro hc e he hid
    by_contra hne
    have hmem := hc.kept m out.final (by rw [htrace]; simp) e he hne
    rw [hfinal] at hmem
    exact (JsMap.mem_delete.mp hmem).2 hid
  · intro hsame
    refine ⟨fun e he hserial => ?_, fun before after hmem e he hne => ?_⟩
    · rw [hfinal] at he
      obtain ⟨he, hid⟩ := JsMap.mem_delete.mp he
      have hget := hm.stored e he
      rw [hserial, hstored] at hget
      exact hid (Option.some.inj hget).symm
    · rw [htrace] at hmem
      rcases List.mem_append.mp hmem with hmem | hmem
      · exact absurd hmem (hu before after)
      · cases List.mem_singleton.mp hmem
        rw [hfinal]
        exact JsMap.mem_delete.mpr ⟨he, fun hid => hne (hsame e he hid)⟩

/-- What is known of a session that was found: the member is online, and the body names the session.
-/
theorem foundSession_eq_some (h : foundSession s body = some (sessionId, session)) :
    s.online = true ∧ (∃ json, body = some json) ∧ sessionIdOf body = some sessionId ∧
      (sweepExpiredSessions s).sessions.get sessionId = some session := by
  rw [foundSession] at h
  split at h
  next honline =>
    obtain ⟨id, hid, hget⟩ := Option.bind_eq_some_iff.mp h
    obtain ⟨session', hsession, heq⟩ := Option.map_eq_some_iff.mp hget
    cases heq
    cases body with
    | none => cases hid
    | some json => exact ⟨honline, ⟨json, rfl⟩, hid, hsession⟩
  next => cases h

/-- The execution of a handler that finds a session, as a decision on what it finds next. -/
theorem run_round2 {json : Json} (h : foundSession s (some json) = some (sessionId, session)) :
    (round2 P env (some json)).run world [] s =
      if s.refuse then (round2Refused env (some json)).run world
        [.wrote s (sweepExpiredSessions s)] (sweepExpiredSessions s)
      else (round2Checks P env sessionId session json).run world
        [.wrote s (sweepExpiredSessions s)] (sweepExpiredSessions s) := by
  obtain ⟨honline, -, hid, hget⟩ := foundSession_eq_some h
  have hrefuse : (sweepExpiredSessions s).refuse = s.refuse := rfl
  simp only [round2, bind, Prog.bind, Prog.gets, Prog.modify, Prog.run, honline, Bool.not_true,
    Bool.false_eq_true, if_false, hrefuse, hid, List.nil_append]
  split
  · rfl
  · simp only [Prog.run, hget]

/-- What holds along such an execution, by the same decisions. -/
theorem along_round2 {json : Json}
    {A : (q : SignerCall) → SignerState → q.Answer → SignerState → Prop}
    (h : foundSession s (some json) = some (sessionId, session)) (hrefuse : s.refuse = false)
    (hworld : (round2 P env (some json)).Along world A [] s) :
    (round2Checks P env sessionId session json).Along world A
      [.wrote s (sweepExpiredSessions s)] (sweepExpiredSessions s) := by
  obtain ⟨honline, -, hid, hget⟩ := foundSession_eq_some h
  have hrefuse : (sweepExpiredSessions s).refuse = false := hrefuse
  simpa only [round2, bind, Prog.bind, Prog.gets, Prog.modify, Prog.Along, honline, Bool.not_true,
    Bool.false_eq_true, if_false, hrefuse, hid, List.nil_append, hget] using hworld


variable (env s world) in
/-- A handler of a member that refuses deletes, and does nothing else. -/
theorem run_round2Refused (tr : Trace SignerState SignerCall SignerCall.Answer)
    (hid : sessionIdOf body = some sessionId) :
    let out := (round2Refused env body).run world tr s
    out.trace = tr ++ [.wrote s out.final] ∧ out.final = deleteSession sessionId s := by
  simp only [round2Refused, bind, Prog.bind, Prog.gets, Prog.modify, Prog.run, hid]
  exact ⟨rfl, rfl⟩

variable (P env s world session sessionId) in
/-- Behind the gate the session is deleted, however the signing comes out. -/
theorem run_round2Gate (share : ShareFile) (parsed : Round2Body)
    (tr : Trace SignerState SignerCall SignerCall.Answer) :
    let gate := (onChainApproveCount P env (hashValue P (parsed.json.get? "request"))).run
      world tr s
    let out := (round2Gate P env share sessionId session parsed).run world tr s
    match gate.result with
    | .ok _ => out.trace = gate.trace ++ [.wrote gate.final out.final] ∧
        out.final.sessions = gate.final.sessions.delete sessionId
    | .error _ => out.trace = gate.trace ∧ out.final = gate.final := by
  intro gate out
  cases hresult : gate.result with
  | error e =>
      have hout : out = ⟨.error e, gate.trace, gate.final⟩ := Prog.run_bind_error hresult
      rw [hout]
      exact ⟨rfl, rfl⟩
  | ok n =>
      simp only [out, round2Gate]
      rw [Prog.run_bind_ok hresult]
      split
      · exact ⟨rfl, rfl⟩
      · split <;> exact ⟨rfl, rfl⟩


/-- The parsed body keeps the JSON it was read from. -/
theorem round2Body_json {json : Json} {parsed : Round2Body} (h : round2Body json = some parsed) :
    parsed.json = json := by
  unfold round2Body at h
  split at h
  · dsimp only at h
    split at h
    · cases h
      rfl
    · cases h
  · cases h

/-- **Consumption, exactly.** In every reachable state, for every body, and whatever requests of
round 1 are served while the handler waits: the session it found is consumed, and no other, if and
only if all is in order. -/
theorem consumed_iff {clock : ℤ} {c : SignerPool}
    (hreach : (signerGame P env).Reaches (fun _ _ => True) (.boot clock) c)
    (hfound : foundSession c.state body = some (sessionId, session))
    (hworld : (round2 P env body).Along world (fun _ s _ s' => Round1s P env s s') [] c.state) :
    Consumed session ((round2 P env body).run world [] c.state) ↔
      Orderly P env world c.state body sessionId session := by
  obtain ⟨honline, ⟨json, rfl⟩, hid, hget⟩ := foundSession_eq_some hfound
  set s := c.state with hs
  have hsweep : Catalogued (sweepExpiredSessions s) :=
    (forgets_sweep s).catalogued (catalogued hreach)
  have hmem := JsMap.mem_of_get hget
  have hstored := hsweep.stored _ hmem
  -- where nothing newer can be stored, deleting takes the session and no other
  have honly : ∀ e ∈ (sweepExpiredSessions s).sessions, e.1 = sessionId →
      e.2.serial = session.serial := fun e he heq => by
    have hget' := hsweep.distinct.get_of_mem (k := e.1) (v := e.2) he
    rw [heq, hget] at hget'
    rw [Option.some.inj hget']
  have hlinger : ∀ out : Outcome SignerState String SignerCall SignerCall.Answer Response,
      out.final = sweepExpiredSessions s → ¬ Consumed session out :=
    fun out hfinal hc => hc.gone _ (hfinal ▸ hmem) rfl
  have hdelete : ∀ out : Outcome SignerState String SignerCall SignerCall.Answer Response,
      out.trace = [.wrote s (sweepExpiredSessions s)] ++
        [.wrote (sweepExpiredSessions s) out.final] →
      out.final = deleteSession sessionId (sweepExpiredSessions s) → Consumed session out :=
    fun out htrace hfinal => (consumed_delete (u := []) (by rw [htrace]; rfl)
      (fun _ _ h => nomatch h) (by rw [hfinal]; rfl) hsweep hstored).mpr honly
  rw [run_round2 hfound, Orderly]
  cases hrefuse : s.refuse with
  | true =>
      obtain ⟨htrace, hfinal⟩ := run_round2Refused env (sweepExpiredSessions s) world
        [.wrote s (sweepExpiredSessions s)] hid
      exact iff_of_true (hdelete _ htrace hfinal) (.inl rfl)
  | false =>
      have halong := along_round2 hfound hrefuse hworld
      have hcond : (false = true ∨ ∃ json', some json = some json' ∧
          ChecksOrderly P env world s json' sessionId session) ↔
          ChecksOrderly P env world s json sessionId session := by simp
      rw [hcond]
      simp only [Bool.false_eq_true, if_false]
      unfold round2Checks at halong ⊢
      unfold ChecksOrderly
      cases hshare : env.share with
      | none => exact iff_of_false (hlinger _ rfl) id
      | some share =>
      cases hkey : truthyText env.pinnedBankPublicKey with
      | none => exact iff_of_false (hlinger _ rfl) id
      | some key =>
      cases hparsed : round2Body json with
      | none => exact iff_of_false (hlinger _ rfl) id
      | some parsed =>
      simp only [hshare, hkey, hparsed] at halong ⊢
      cases hchecks : runWall1TokenChecks P (some json) key with
      | error e => exact iff_of_false (hlinger _ rfl) id
      | ok failure =>
      cases failure with
      | some failure => exact iff_of_true (hdelete _ rfl rfl) trivial
      | none =>
          rw [hchecks] at halong
          obtain rfl : parsed.json = json := round2Body_json hparsed
          change (round2Gate P env share sessionId session parsed).Along world _ _ _ at halong
          change Consumed session
            ((round2Gate P env share sessionId session parsed).run world _ _) ↔ _
          obtain ⟨hcat, ⟨rest, hrest⟩, u, hu, hquiet⟩ := gateCount_spec hsweep halong.of_bind
          have hrun := run_round2Gate P env (sweepExpiredSessions s) world session sessionId share
            parsed [.wrote s (sweepExpiredSessions s)]
          rw [GateOrderly]
          cases hresult : (gateCount P env world s parsed.json).result with
          | error e =>
              simp only [hresult] at hrun
              rw [consumed_silent (by rw [hrun.1, hu]; exact hquiet), hrun.2]
          | ok n =>
              simp only [hresult] at hrun
              refine consumed_delete (u := u) ?_ hquiet hrun.2 hcat ?_
              · rw [hrun.1, hu]
                rfl
              · rw [← hrest, List.getElem?_append_left (List.getElem?_eq_some_iff.mp hstored).1]
                exact hstored


end Execution

/-! ### A lost session -/

instance (gate : Outcome SignerState String SignerCall SignerCall.Answer ℕ) (sessionId : String)
    (session : Session) : Decidable (GateOrderly gate sessionId session) :=
  match h : gate.result with
  | .ok _ => decidable_of_iff (∀ e ∈ gate.final.sessions, e.1 = sessionId →
      e.2.serial = session.serial) (by rw [GateOrderly, h])
  | .error _ => decidable_of_iff (∀ e ∈ gate.final.sessions, e.2.serial ≠ session.serial)
      (by rw [GateOrderly, h])

instance (P : Platform) (env : SignerEnv cfg) (world : Env SignerState SignerCall SignerCall.Answer)
    (s : SignerState) (json : Json) (sessionId : String) (session : Session) :
    Decidable (ChecksOrderly P env world s json sessionId session) := by
  unfold ChecksOrderly
  repeat' split
  all_goals infer_instance

namespace Small

/-- The member after its round 1, with a pair of nonces in a session. -/
def paired : SignerPool :=
  (signerGame platform signerEnv).play ⟨.boot 0, []⟩
    [.spawn (.round1 (sessionBody []) [[1], [2]])]

/-- The body of its round 2, over its own commitments. -/
def paidBody : Option Json := ceremonyBody [commitmentJson 1 ownRound1]

/-- The ledger answers, and nothing else happens meanwhile. -/
def attending : Env SignerState SignerCall SignerCall.Answer := fun _ q s => (answers q, s)

/-- The answers of a ledger that cannot be reached: every call of it fails. -/
def disconnected : (q : SignerCall) → q.Answer
  | .accountTx _ => .error "disconnected"
  | .tx _ => .error "disconnected"
  | .submit _ => .error "disconnected"
  | .sleep _ => ()

/-- The ledger cannot be reached, and nothing else happens. -/
def cutOff : Env SignerState SignerCall SignerCall.Answer := fun _ q s => (disconnected q, s)

end Small

/-- The member after its round 1 is reached. -/
theorem small_paired : (signerGame Small.platform Small.signerEnv).Reaches (fun _ _ => True)
    (.boot 0) Small.paired :=
  Game.Reaches.init.play ⟨trivial, fun _ _ => trivial, trivial⟩

/-- The checks of its round 2 come out in their order. -/
theorem small_orderly : ((foundSession Small.paired.state Small.paidBody).any fun p =>
    Small.paidBody.any fun json => decide (ChecksOrderly Small.platform Small.signerEnv
      Small.attending Small.paired.state json p.1 p.2)) = true := by
  decide +kernel

/-- Nobody else is served while the ledger answers. -/
theorem small_attending (p : SignerProg Response) (s : SignerState) : p.Along Small.attending
    (fun _ s _ s' => Round1s Small.platform Small.signerEnv s s') [] s :=
  Prog.along_of_forall (fun _ _ _ => .refl) p [] s

/-- Nobody else is served while the ledger cannot be reached. -/
theorem small_cutOff (p : SignerProg Response) (s : SignerState) : p.Along Small.cutOff
    (fun _ s _ s' => Round1s Small.platform Small.signerEnv s s') [] s :=
  Prog.along_of_forall (fun _ _ _ => .refl) p [] s

/-- A handler that signs consumes the session it found. -/
theorem consumed_small : ∃ sessionId session,
    foundSession Small.paired.state Small.paidBody = some (sessionId, session) ∧
      Consumed session ((round2 Small.platform Small.signerEnv Small.paidBody).run
        Small.attending [] Small.paired.state) := by
  obtain ⟨⟨sessionId, session⟩, hfound, hany⟩ := (Option.any_eq_true _ _).mp small_orderly
  obtain ⟨json, hjson, horderly⟩ := (Option.any_eq_true _ _).mp hany
  refine ⟨sessionId, session, hfound, ?_⟩
  have hreach := small_paired
  have hjson' := of_decide_eq_true horderly
  generalize Small.paired = c at hreach hfound hjson' ⊢
  exact (consumed_iff hreach hfound (small_attending _ c.state)).mpr (.inr ⟨json, hjson, hjson'⟩)

/-- A handler that cannot read the ledger ends with its session in the map. -/
theorem small_lingering : ((foundSession Small.paired.state Small.paidBody).any fun p =>
    ((round2 Small.platform Small.signerEnv Small.paidBody).run Small.cutOff []
      Small.paired.state).final.sessions.any fun e => e.2.serial = p.2.serial) = true := by
  decide +kernel

/-- A session that is consumed is not there any more. -/
theorem Consumed.not_lingering
    {out : Outcome SignerState String SignerCall SignerCall.Answer Response} {session : Session}
    (h : Consumed session out) :
    (out.final.sessions.any fun e => e.2.serial = session.serial) = false :=
  List.any_eq_false.mpr fun e he => by simpa using h.gone e he

/-- **The pair lingers** where the ledger cannot be read: the handler raises at its gate, and the
session stays with its nonces. -/
theorem session_lingers : ¬ ∀ (c : SignerPool) (body : Option Json) (sessionId : String)
    (session : Session) (world : Env SignerState SignerCall SignerCall.Answer),
    (signerGame Small.platform Small.signerEnv).Reaches (fun _ _ => True) (.boot 0) c →
    foundSession c.state body = some (sessionId, session) →
    (round2 Small.platform Small.signerEnv body).Along world
      (fun _ s _ s' => Round1s Small.platform Small.signerEnv s s') [] c.state →
    Consumed session ((round2 Small.platform Small.signerEnv body).run world [] c.state) := by
  intro hall
  obtain ⟨⟨sessionId, session⟩, hfound, hany⟩ := (Option.any_eq_true _ _).mp small_lingering
  have hreach := small_paired
  generalize Small.paired = c at hreach hfound hany
  have hconsumed := hall c Small.paidBody sessionId session Small.cutOff hreach hfound
    (small_cutOff _ c.state)
  rw [hconsumed.not_lingering] at hany
  cases hany

end NoGhost
