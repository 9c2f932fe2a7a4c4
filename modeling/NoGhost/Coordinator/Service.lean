import NoGhost.Async.Pool
import NoGhost.Coordinator.Books
import NoGhost.Coordinator.Walk

/-!
# The Coordinator as a Service

Any number of requests and scenarios at once, in a system of which the coordinator's store is a
part. A `Setting` is what surrounds the coordinator: how its calls are answered, how the rest of
the system moves, an invariant on top of the books, and which identifiers a request may be
accepted under. Every handler keeps the books, whatever the others do.

## Main results

* `Midway.sameBooks`, `Midway.accept`, `Midway.move`: what a handler does between two awaits.
* `wpa_launch`, `serve_spec`: every handler keeps the books at its awaits and when it ends.
* `Setting.sound`: the books are in order in every state that is reached.
-/

open Js Async

namespace NoGhost

variable {cfg : Config} {σ : Type}

/-- The handlers of a coordinator in a system, of which its store is a part and the rest answers its
calls and moves by itself. -/
def coordinatorGame (P : Platform) (env : CoordinatorEnv cfg) (L : Lens σ (Store cfg))
    (answers : σ → (q : CoordinatorCall cfg) → q.Answer → Prop) (moves : σ → σ → Prop) :
    Game σ (Store cfg) String (CoordinatorCall cfg) CoordinatorCall.Answer Response
      CoordinatorRequest where
  handler := serve P env
  place _ := L
  answers := answers
  moves := moves

/-- A pool of handlers of a coordinator, with the state of the system. -/
abbrev CoordinatorPool (σ : Type) (cfg : Config) :=
  Pool σ (Store cfg) String (CoordinatorCall cfg) CoordinatorCall.Answer Response CoordinatorRequest

/-- The more the world may do, the more is reached. -/
theorem coordinatorGame_mono {P : Platform} {env : CoordinatorEnv cfg} {L : Lens σ (Store cfg)}
    {answers answers' : σ → (q : CoordinatorCall cfg) → q.Answer → Prop}
    {moves moves' : σ → σ → Prop}
    {admitted admitted' : CoordinatorPool σ cfg → CoordinatorRequest → Prop}
    (hanswers : ∀ s q r, answers s q r → answers' s q r) (hmoves : ∀ s s', moves s s' → moves' s s')
    (hadm : ∀ c req, admitted c req → admitted' c req) {s : σ} {c : CoordinatorPool σ cfg}
    (h : (coordinatorGame P env L answers moves).Reaches admitted s c) :
    (coordinatorGame P env L answers' moves').Reaches admitted' s c := by
  induction h with
  | init => exact .init
  | @step c a _ hlegal hok ih =>
      refine ih.step (a := a) ?_ fun req heq => hadm _ _ (hok req heq)
      cases a with
      | spawn req => trivial
      | resume i answer =>
          exact fun req start q k hget => hanswers _ _ _ (hlegal req start q k hget)
      | world s => exact hmoves _ _ hlegal

/-- What surrounds a coordinator: how its calls may be answered, what moves by itself, and what is
known of the rest. -/
structure Setting (cfg : Config) (σ : Type) where
  L : Lens σ (Store cfg)
  answers : σ → (q : CoordinatorCall cfg) → q.Answer → Prop
  answers_put : ∀ {s : σ} {q : CoordinatorCall cfg} {r : q.Answer} (u : Store cfg),
    answers s q r → answers (L.put s u) q r
  moves : σ → σ → Prop
  /-- The invariant on top of the books. -/
  extra : σ → Prop := fun _ => True
  /-- A request may be accepted under the identifier. -/
  fit : σ → String → Prop := fun _ _ => True
  /-- The identifiers matter. -/
  strict : Prop := False

namespace Setting

variable (S : Setting cfg σ) (P : Platform) (env : CoordinatorEnv cfg)

/-- The game of a setting, over all handlers of the coordinator. -/
abbrev game := coordinatorGame P env S.L S.answers S.moves

/-- What a run sees of the system: the answers, and moves that keep the core of the books. -/
def outside : Outside S.L where
  tells q r s := S.answers s q r
  moves _ s' := Core P (S.L.view s') ∧ S.extra s'
  tells_put u h := S.answers_put u h

/-- What a setting has to keep: that which is known of the rest, under each kind of step. -/
structure Valid : Prop where
  free : ¬ S.strict → ∀ s x, S.fit s x
  sameBooks : ∀ {s : σ} {u' : Store cfg}, S.extra s → SameBooks (S.L.view s) u' →
  S.extra (S.L.put s u')
  accept : ∀ {s : σ} {rid : ℕ} {request : GenerationRequest},
    Books P env (S.outside P) (S.L.view s) → S.extra s → rid ∉ (S.L.view s).accepters →
      S.fit s request.requestId → S.extra (S.L.put s ((S.L.view s).createRecord rid request))
  move : ∀ {s : σ} {rid : ℕ} {t : CoordinatorTrace σ cfg} {u' : Store cfg},
    Books P env (S.outside P) (S.L.view s) → S.extra s → rid ∈ (S.L.view s).accepters →
      Move P env (S.outside P) rid t s (S.L.view s) u' → S.extra (S.L.put s u')
  world : ∀ {s s' : σ}, S.extra s → S.moves s s' → S.extra s' ∧ SameBooks (S.L.view s) (S.L.view s')
  fit_sameBooks : ∀ {s : σ} {u' : Store cfg} {x : String}, S.fit s x → SameBooks (S.L.view s) u' →
    S.fit (S.L.put s u') x
  fit_accept : ∀ {s : σ} {rid : ℕ} {request : GenerationRequest} {x : String},
    Books P env (S.outside P) (S.L.view s) → rid ∉ (S.L.view s).accepters → S.fit s x →
      request.requestId ≠ x → S.fit (S.L.put s ((S.L.view s).createRecord rid request)) x
  fit_move : ∀ {s : σ} {rid : ℕ} {t : CoordinatorTrace σ cfg} {u' : Store cfg} {x : String},
    Books P env (S.outside P) (S.L.view s) → S.fit s x → rid ∈ (S.L.view s).accepters →
      Move P env (S.outside P) rid t s (S.L.view s) u' → S.fit (S.L.put s u') x
  fit_world : ∀ {s s' : σ} {x : String}, S.fit s x → S.moves s s' → S.fit s' x

end Setting

/-! ### Between two awaits -/

section Rests

variable {L : Lens σ (Store cfg)} (P : Platform) (env : CoordinatorEnv cfg) (O : Outside L)

/-- A run that is suspended, or over: what it has dispensed it has delivered, and its receipt too,
unless it came too late. -/
structure Rests (i : ℕ) (a : Account cfg) : Prop where
  dispensed : a.deeds.dispensed = [] ∨ a.record.status = .DELIVERED
  receipts : a.deeds.receipts = [] ∨ a.record.status = .DELIVERED ∨ ∃ t, Late P env O i t

variable {P env O} {i : ℕ} {t : CoordinatorTrace σ cfg} {s : σ}

/-- A record that nothing was done of may rest. -/
theorem rests_blank : Rests P env O i (.blank cfg) := ⟨.inl rfl, .inl rfl⟩

/-- At an await, the account of the run may rest. -/
theorem rests_of_rest (h : (walkRules P env O i).rest t s) :
    Rests P env O i ((L.view s).account i) :=
  ⟨.inl h.1, h.2.imp_right fun hlate => .inr ⟨t, hlate⟩⟩

/-- A receipt that is there is one of a run that cannot deliver any more. -/
theorem rests_of_receipt {receipt : Option String} (h : receipt = none ∨ Late P env O i t) :
    receipt.toList = [] ∨ ∃ t, Late P env O i t := by
  rcases h with rfl | h
  · exact .inl rfl
  · exact .inr ⟨t, h⟩

/-- At the end of a run its account may rest. -/
theorem rests_of_ending (h : Ending L P env O i t s) : Rests P env O i ((L.view s).account i) := by
  cases h with
  | rejected hon hstatus hstatuses htoken hledger he =>
      rw [hon.account]
      rcases he with rfl | rfl
      · exact ⟨.inl rfl, .inl rfl⟩
      · exact ⟨.inl rfl, .inl rfl⟩
  | delivered hon hplace htoken hreceipt =>
      have hstatus := (Option.some.inj hplace.status).symm
      rw [hon.account]
      exact ⟨.inr hstatus, .inr (.inl hstatus)⟩
  | abandoned haccount hcalls hbacked hk hstatus hstatuses hfits hreversal hcause hlate hodd =>
      rw [haccount]
      exact ⟨.inl rfl, (rests_of_receipt hlate).imp_right .inr⟩

/-- A run that is stuck with its debit may rest. -/
theorem rests_of_stuck (h : Stuck L P env O i t s) : Rests P env O i ((L.view s).account i) := by
  obtain ⟨k, r, receipt, redeemed, h, -⟩ := h
  rw [h.on.account]
  exact ⟨.inl rfl, (rests_of_receipt h.late).imp_right .inr⟩

end Rests

namespace Setting

variable (S : Setting cfg σ) (P : Platform) (env : CoordinatorEnv cfg)

/-- The invariant of the service: the books are in order, the rest is as it is known to be, and
every account may rest. -/
structure Inv (s : σ) : Prop where
  books : Books P env (S.outside P) (S.L.view s)
  extra : S.extra s
  rests : ∀ i, Rests P env (S.outside P) i ((S.L.view s).account i)

/-- What the handler with the number `rid` has done since `b`, for a request that draws `own`. -/
structure Midway (rid : ℕ) (own : Option String) (b s : σ) : Prop where
  books : Books P env (S.outside P) (S.L.view s)
  extra : S.extra s
  others : ∀ i ≠ rid, (S.L.view s).account i = (S.L.view b).account i
  rests : ∀ i ≠ rid, Rests P env (S.outside P) i ((S.L.view s).account i)
  grows : (S.L.view b).accepted <:+ (S.L.view s).accepted
  accepters : ∀ i ≠ rid, i ∈ (S.L.view s).accepters → i ∈ (S.L.view b).accepters
  created : (S.L.view b).created ≤ (S.L.view s).created
  fit : ∀ x, own ≠ some x ∨ rid ∈ (S.L.view b).accepters → S.fit b x → S.fit s x

variable {S P env} {rid : ℕ} {own : Option String} {b s : σ}

/-- A handler that has done nothing yet is midway from where it started. -/
theorem Inv.midway (h : S.Inv P env s) : S.Midway P env rid own s s :=
  ⟨h.books, h.extra, fun _ _ => rfl, fun i _ => h.rests i, List.suffix_rfl, fun _ _ h => h, le_rfl,
    fun _ _ h => h⟩

/-- A handler that leaves its own account at rest leaves the invariant. -/
theorem Midway.inv (h : S.Midway P env rid own b s)
    (hrests : Rests P env (S.outside P) rid ((S.L.view s).account rid)) : S.Inv P env s := by
  refine ⟨h.books, h.extra, fun i => ?_⟩
  rcases eq_or_ne i rid with rfl | hi
  · exact hrests
  · exact h.rests i hi

/-- What was accepted before is among what is accepted later. -/
theorem accepters_of_suffix {u u' : Store cfg} (h : u.accepted <:+ u'.accepted) {i : ℕ}
    (hi : i ∈ u.accepters) : i ∈ u'.accepters :=
  (h.map Prod.fst).subset hi

/-- A write that is not about the books is one of a handler midway. -/
theorem Midway.sameBooks (hv : S.Valid P env) (h : S.Midway P env rid own b s) {u' : Store cfg}
    (hd : SameBooks (S.L.view s) u') : S.Midway P env rid own b (S.L.put s u') := by
  have haccepters : u'.accepters = (S.L.view s).accepters := by
    rw [Store.accepters, hd.accepted]
    rfl
  refine ⟨?_, hv.sameBooks h.extra hd, ?_, ?_, ?_, ?_, ?_, fun x hx hfit =>
    hv.fit_sameBooks (h.fit x hx hfit) hd⟩ <;>
    rw [S.L.view_put]
  · exact hd.books h.books
  · exact fun i hi => (hd.account i).trans (h.others i hi)
  · intro i hi
    rw [hd.account]
    exact h.rests i hi
  · rw [hd.accepted]
    exact h.grows
  · rw [haccepters]
    exact h.accepters
  · exact h.created.trans hd.created

/-- The request is accepted, under the number of the handler. -/
theorem Midway.accept (hv : S.Valid P env) (h : S.Midway P env rid own b s)
    {request : GenerationRequest} (hrid : rid < (S.L.view s).created)
    (hnew : rid ∉ (S.L.view s).accepters) (hid : request.requestId ≠ "")
    (hown : own = some request.requestId) (hfit : S.fit s request.requestId) :
    S.Midway P env rid own b (S.L.put s ((S.L.view s).createRecord rid request)) := by
  have haccepted : ((S.L.view s).createRecord rid request).accepted =
      (rid, request.requestId) :: (S.L.view s).accepted := by rw [createRecord_eq]
  have hothers : ∀ i ≠ rid, ((S.L.view s).createRecord rid request).account i =
      (S.L.view s).account i := fun i hi => account_createRecord hi
  refine ⟨?_, hv.accept h.books h.extra hnew hfit, ?_, ?_, ?_, ?_, ?_, fun x hx hfitx => ?_⟩
  · rw [S.L.view_put]
    exact h.books.createRecord hrid hnew hid
  · rw [S.L.view_put]
    exact fun i hi => (hothers i hi).trans (h.others i hi)
  · rw [S.L.view_put]
    intro i hi
    rw [hothers i hi]
    exact h.rests i hi
  · rw [S.L.view_put, haccepted]
    exact h.grows.trans (List.suffix_cons _ _)
  · rw [S.L.view_put, Store.accepters, haccepted]
    intro i hi hmem
    exact h.accepters i hi ((List.mem_cons.mp hmem).resolve_left hi)
  · rw [S.L.view_put, createRecord_eq]
    exact h.created
  · refine hv.fit_accept h.books hnew (h.fit x hx hfitx) fun heq => ?_
    rcases hx with hx | hx
    · exact hx (hown.trans (congrArg some heq))
    · exact hnew (accepters_of_suffix h.grows hx)

/-- A write of the run is one of its handler midway. -/
theorem Midway.move (hv : S.Valid P env) (h : S.Midway P env rid own b s)
    (hrid : rid ∈ (S.L.view s).accepters) {t : CoordinatorTrace σ cfg} {u' : Store cfg}
    (hm : Move P env (S.outside P) rid t s (S.L.view s) u') :
    S.Midway P env rid own b (S.L.put s u') := by
  obtain ⟨hcreated, -, -, haccepted⟩ := hm.effect.table
  refine ⟨?_, hv.move h.books h.extra hrid hm, ?_, ?_, ?_, ?_, ?_,
    fun x hx hfit => hv.fit_move h.books (h.fit x hx hfit) hrid hm⟩ <;> rw [S.L.view_put]
  · exact hm.books hrid h.books
  · exact fun i hi => (hm.others i hi).trans (h.others i hi)
  · intro i hi
    rw [hm.others i hi]
    exact h.rests i hi
  · rw [haccepted]
    exact h.grows
  · rw [Store.accepters, haccepted]
    exact h.accepters
  · rw [hcreated]
    exact h.created

/-! ### The discipline of the handlers -/

variable (S) in
/-- The serial number of a handler, which it takes first. -/
def number (l : CoordinatorRequest × σ) : ℕ := (S.L.view l.2).created

variable (S P env) in
/-- What a handler has done from one await to the next: it is midway, and its account may rest. -/
structure Segment (l : CoordinatorRequest × σ) (b s : σ) : Prop where
  midway : S.Midway P env (S.number l) l.1.requestId? b s
  rests : Rests P env (S.outside P) (S.number l) ((S.L.view s).account (S.number l))
  taken : S.number l < (S.L.view s).created
  since : (S.L.view l.2).accepted <:+ (S.L.view b).accepted

variable (S) in
/-- What the others do while a handler is suspended: its account stays, and what is accepted only
grows. -/
structure Leaves (l : CoordinatorRequest × σ) (s s' : σ) : Prop where
  account : (S.L.view s').account (S.number l) = (S.L.view s).account (S.number l)
  grows : (S.L.view s).accepted <:+ (S.L.view s').accepted
  accepters : S.number l ∈ (S.L.view s').accepters → S.number l ∈ (S.L.view s).accepters
  created : (S.L.view s).created ≤ (S.L.view s').created
  fit : ∀ kind uuid watchdog, l.1 = .scenario kind uuid watchdog →
    (S.L.view l.2).accepted <:+ (S.L.view s).accepted → S.number l ∉ (S.L.view s).accepters →
      S.fit s (demoRequestId uuid) → S.fit s' (demoRequestId uuid)

variable (S) in
/-- A request that is accepted in the state would be fit for it. -/
def Fits (req : CoordinatorRequest) (s : σ) : Prop :=
  ∀ x, req.requestId? = some x →
    ((∃ kind uuid watchdog, req = .scenario kind uuid watchdog) ∨
      (S.L.view s).getRequest x = none) → S.fit s x

variable (S P env) in
/-- The discipline of the handlers: the invariant between segments, what each segment does, and what
it may rely on. -/
def discipline : Discipline (S.game P env) where
  inv := S.Inv P env
  admits := S.Fits
  evolves s s' := (S.L.view s).accepted <:+ (S.L.view s').accepted ∧
    (S.L.view s).created ≤ (S.L.view s').created
  rely := S.Leaves
  gua := S.Segment P env
  compatible l l' := S.number l ≠ S.number l' ∧ (S.strict → ∀ kind uuid watchdog,
    l'.1 = .scenario kind uuid watchdog → S.number l' ∉ (S.L.view l.2).accepters →
      l.1.requestId? = some (demoRequestId uuid) → S.number l ∈ (S.L.view l'.2).accepters)
  post l a _ := ∀ body uuid x, l.1 = .post body uuid → l.1.requestId? = some x →
    (S.L.view l.2).getRequest x ≠ none → a = existing x
  exn _ _ _ := False
  marked l s := S.number l < (S.L.view s).created

/-- A request that is in progress is known, or has an identifier of its own. -/
def Admitted (S : Setting cfg σ) (c : CoordinatorPool σ cfg) (req : CoordinatorRequest) : Prop :=
  S.Fits req c.state ∧ (S.strict → ∀ p ∈ c.procs, p.Suspended → ∀ x, req.requestId? = some x →
    p.req.requestId? = some x → S.number p.label ∈ (S.L.view c.state).accepters)

variable {l : CoordinatorRequest × σ}

/-- Nothing leaves a handler as it is. -/
theorem Leaves.refl (s : σ) : S.Leaves l s s :=
  ⟨rfl, List.suffix_rfl, id, le_rfl, fun _ _ _ _ _ _ h => h⟩

/-- Two steps of the others leave a handler as it is together. -/
theorem Leaves.trans {s s' s'' : σ} (h : S.Leaves l s s') (h' : S.Leaves l s' s'') :
    S.Leaves l s s'' :=
  ⟨h'.account.trans h.account, h.grows.trans h'.grows, fun hmem => h.accepters (h'.accepters hmem),
    h.created.trans h'.created, fun kind uuid watchdog hl hsince hnew hfit =>
      h'.fit kind uuid watchdog hl (hsince.trans h.grows) (fun hmem => hnew (h.accepters hmem))
        (h.fit kind uuid watchdog hl hsince hnew hfit)⟩

/-- The moves of the world are not about the books. -/
theorem Inv.world (hv : S.Valid P env) {s s' : σ} (h : S.Inv P env s) (hm : S.moves s s') :
    S.Inv P env s' := by
  obtain ⟨hextra, hd⟩ := hv.world h.extra hm
  refine ⟨hd.books h.books, hextra, fun i => ?_⟩
  rw [hd.account]
  exact h.rests i

/-- A run that is launched keeps to the discipline until it ends. -/
theorem wpa_launch (hv : S.Valid P env) (request : GenerationRequest)
    (h : S.Midway P env (S.number l) l.1.requestId? b s)
    (hsince : (S.L.view l.2).accepted <:+ (S.L.view b).accepted)
    (hrid : S.number l ∈ (S.L.view s).accepters)
    (haccount : (S.L.view s).account (S.number l) = ⟨.new cfg request, .none⟩) :
    wpa ((S.discipline P env).contract l) S.L (launch P env (S.number l))
      (fun _ b s => S.Segment P env l b s) (fun _ _ _ => False) b s := by
  have htaken : ∀ {s : σ}, Books P env (S.outside P) (S.L.view s) →
      S.number l ∈ (S.L.view s).accepters → S.number l < (S.L.view s).created := by
    intro s hb hmem
    obtain ⟨x, hx⟩ := mem_accepters.mp hmem
    exact hb.ownRecords.lt _ hx
  rw [launch, wpa_tryCatch]
  refine wpa_mono (wpa_of_wp (W := walkRules P env (S.outside P) (S.number l)) (t := [])
    (S := fun b s => S.Midway P env (S.number l) l.1.requestId? b s ∧
      S.number l ∈ (S.L.view s).accepters ∧ (S.L.view l.2).accepted <:+ (S.L.view b).accepted)
    (fun q s r s' hr => ⟨hr.2.2.2, ⟨hr.2.1.books.core, hr.2.1.extra⟩, hr.2.2.1.account⟩)
    (fun t b s s' hseg hgua => ?_) (fun t b s hseg hrest => ?_) (fun b q s r s' hseg hr => ?_)
    (wp_runPipeline haccount ⟨rfl, rfl, rfl, rfl, rfl⟩) ⟨h, hrid, hsince⟩)
    (fun a b s hend => ?_) fun e b s hend => ?_
  · obtain ⟨u', rfl, hm⟩ := hgua
    refine ⟨hseg.1.move hv hseg.2.1 hm, ?_, hseg.2.2⟩
    rw [S.L.view_put, Store.accepters, hm.effect.table.accepted]
    exact hseg.2.1
  · exact ⟨hseg.1, rests_of_rest hrest, htaken hseg.1.books hseg.2.1, hseg.2.2⟩
  · obtain ⟨-, hinv, hleaves, -⟩ := hr
    exact ⟨hinv.midway, accepters_of_suffix hleaves.grows hseg.2.1,
      hseg.2.2.trans (hseg.1.grows.trans hleaves.grows)⟩
  · obtain ⟨hseg, t, hend⟩ := hend
    exact ⟨hseg.1, rests_of_ending hend, htaken hseg.1.books hseg.2.1, hseg.2.2⟩
  · obtain ⟨hseg, t, hend⟩ := hend
    exact ⟨hseg.1, rests_of_stuck hend, htaken hseg.1.books hseg.2.1, hseg.2.2⟩

/-- A serial number that is taken is not about the books. -/
theorem sameBooks_reserve (u : Store cfg) : SameBooks u u.reserve.2 := ⟨rfl, Nat.le_succ _, rfl⟩

/-- The rate limit is not about the books. -/
theorem sameBooks_rateLimitOk (merchantId : String) (u : Store cfg) :
    SameBooks u (u.rateLimitOk merchantId).2 := by
  rw [Store.rateLimitOk]
  split
  · exact ⟨rfl, le_rfl, rfl⟩
  · exact ⟨rfl, le_rfl, rfl⟩

/-- Governance over merchants is not about the books. -/
theorem sameBooks_setMerchantRevoked (merchantId : String) (revoked : Bool) (actor : String)
    (u : Store cfg) : SameBooks u (u.setMerchantRevoked merchantId revoked actor) := by
  rw [Store.setMerchantRevoked]
  split
  · exact .refl u
  · exact ⟨rfl, le_rfl, rfl⟩

/-- The preconditions of a scenario are not about the books. -/
theorem sameBooks_applyPreconditions (kind : ScenarioKind) (merchantId : String) (u : Store cfg) :
    SameBooks u (u.applyPreconditions kind merchantId) := by
  rw [Store.applyPreconditions]
  split
  · exact sameBooks_setMerchantRevoked ..
  · exact .refl u

/-- The restoration after a scenario is not about the books. -/
theorem sameBooks_settle (rid : ℕ) (kind : ScenarioKind) (merchantId : String) (watchdog : Bool)
    (u : Store cfg) : SameBooks u (u.settle rid kind merchantId watchdog) := by
  rw [Store.settle, Store.restorePreconditions]
  split
  · split
    · exact sameBooks_setMerchantRevoked ..
    · exact .refl u
  · exact .refl u

variable (S P env) in
/-- A handler that has its number, and has not made its record: what is read and answered before the
request is accepted. -/
structure Waiting (l : CoordinatorRequest × σ) (b s : σ) : Prop where
  midway : S.Midway P env (S.number l) l.1.requestId? b s
  since : (S.L.view l.2).accepted <:+ (S.L.view b).accepted
  taken : S.number l < (S.L.view s).created
  unaccepted : S.number l ∉ (S.L.view s).accepters

/-- A number that no handler has taken yet has no record. -/
theorem not_mem_accepters_of_le {u : Store cfg} (hr : OwnRecords u) {i : ℕ} (hi : u.created ≤ i) :
    i ∉ u.accepters := fun hmem => by
  obtain ⟨x, hx⟩ := mem_accepters.mp hmem
  exact absurd (hr.lt _ hx) (by simpa using hi)

/-- A handler takes its number first, and then has no record yet. -/
theorem Inv.reserve (hv : S.Valid P env) (req : CoordinatorRequest) {s : σ} (h : S.Inv P env s) :
    S.Waiting P env (req, s) s (S.L.put s (S.L.view s).reserve.2) := by
  refine ⟨h.midway.sameBooks hv (sameBooks_reserve _), List.suffix_rfl, ?_, ?_⟩
    <;> rw [S.L.view_put]
  · exact Nat.lt_succ_self _
  · exact not_mem_accepters_of_le h.books.ownRecords le_rfl

/-- A write that is not about the books leaves the handler waiting. -/
theorem Waiting.sameBooks (hv : S.Valid P env) (h : S.Waiting P env l b s) {u' : Store cfg}
    (hd : SameBooks (S.L.view s) u') : S.Waiting P env l b (S.L.put s u') := by
  refine ⟨h.midway.sameBooks hv hd, h.since, ?_, ?_⟩ <;> rw [S.L.view_put]
  · exact h.taken.trans_le hd.created
  · rw [Store.accepters, hd.accepted]
    exact h.unaccepted

/-- A waiting handler has done what a segment may do. -/
theorem Waiting.segment (h : S.Waiting P env l b s) : S.Segment P env l b s := by
  refine ⟨h.midway, ?_, h.taken, h.since⟩
  rw [h.midway.books.ownRecords.blank _ h.unaccepted]
  exact rests_blank

/-- An answer leaves the handler waiting. -/
theorem Waiting.resume (h : S.Waiting P env l b s) {q : CoordinatorCall cfg} {r : q.Answer} {s' : σ}
    (hr : ((S.discipline P env).contract l).resume q s r s') : S.Waiting P env l s' s' := by
  obtain ⟨-, hinv, hleaves, -⟩ := hr
  exact ⟨hinv.midway, h.since.trans (h.midway.grows.trans hleaves.grows),
    h.taken.trans_le hleaves.created, fun hmem => h.unaccepted (hleaves.accepters hmem)⟩

/-- The request is accepted, and its run launched, by a handler that was waiting. -/
theorem Waiting.launch (hv : S.Valid P env) (h : S.Waiting P env l b s)
    (request : GenerationRequest) (hown : l.1.requestId? = some request.requestId)
    (hid : request.requestId ≠ "") (hfit : S.fit s request.requestId) :
    wpa ((S.discipline P env).contract l) S.L (NoGhost.launch P env (S.number l))
      (fun _ b s => S.Segment P env l b s) (fun _ _ _ => False) b
      (S.L.put s ((S.L.view s).createRecord (S.number l) request)) := by
  refine wpa_launch hv request
    (h.midway.accept hv h.taken h.unaccepted hid hown hfit) h.since ?_ ?_ <;> rw [S.L.view_put]
  · rw [Store.accepters, createRecord_eq]
    exact List.mem_cons_self
  · rw [account_createRecord_self, show (S.L.view s).deeds (S.number l) = _ from
      congrArg Account.deeds (h.midway.books.ownRecords.blank _ h.unaccepted)]
    rfl

/-- A handler whose run is over may still write what is not about the books. -/
theorem Segment.sameBooks (hv : S.Valid P env) (h : S.Segment P env l b s) {u' : Store cfg}
    (hd : SameBooks (S.L.view s) u') : S.Segment P env l b (S.L.put s u') := by
  refine ⟨h.midway.sameBooks hv hd, ?_, ?_, h.since⟩ <;> rw [S.L.view_put]
  · rw [hd.account]
    exact h.rests
  · exact h.taken.trans_le hd.created

/-- What passes the check for a text is not blank. -/
theorem trim_ne_of_nonEmpty {v : Option Json} {message text : String}
    (h : nonEmpty v message = .ok text) : trim text ≠ "" := by
  unfold nonEmpty at h
  split at h
  · split at h
    next => cases h
    next hne =>
      cases h
      exact hne
  · cases h

/-- The identifier of a request is not empty, whether it was sent or drawn. -/
theorem requestIdOf_named {v : Option Json} {uuid requestId : String}
    (h : requestIdOf v uuid = .ok requestId) : requestId ≠ "" := by
  unfold requestIdOf at h
  split at h
  next =>
    cases h
    simp [String.ext_iff]
  next v =>
    cases htext : nonEmpty (some v) "requestId, when given, must be a non-empty string" with
    | error e =>
        rw [htext] at h
        cases h
    | ok text =>
        rw [htext] at h
        cases h
        exact trim_ne_of_nonEmpty htext

/-- The identifier among the fields of a request is not empty. -/
theorem requestFields_named {body : Json} {uuid : String} {fields : RequestFields}
    (h : requestFields body uuid = .ok fields) : fields.requestId ≠ "" := by
  obtain ⟨meterId, -, h⟩ := bind_eq_ok.mp h
  obtain ⟨merchantId, -, h⟩ := bind_eq_ok.mp h
  obtain ⟨amountKwh, -, h⟩ := bind_eq_ok.mp h
  obtain ⟨requestId, hid, h⟩ := bind_eq_ok.mp h
  cases h
  exact requestIdOf_named hid

/-- The identifier that a submission is admitted under is the one its handler reads. -/
theorem post_requestId? {body : Option Json} {uuid : String} {fields : RequestFields}
    (h : requestFields (bodyOrEmpty body) uuid = .ok fields) :
    (CoordinatorRequest.post body uuid).requestId? = some fields.requestId := by
  simp only [CoordinatorRequest.requestId?, h]

/-- A submission keeps to the discipline, whether it is accepted or turned down. -/
theorem postRequest_spec (hv : S.Valid P env) {body : Option Json} {uuid : String} {s : σ}
    (h : S.Inv P env s) (hadm : S.Fits (.post body uuid) s) :
    wpa ((S.discipline P env).contract (.post body uuid, s)) S.L (postRequest P env body uuid)
      (fun a b s' => S.Segment P env (.post body uuid, s) b s' ∧
        (S.discipline P env).post (.post body uuid, s) a s')
      (fun e b s' => S.Segment P env (.post body uuid, s) b s' ∧
        (S.discipline P env).exn (.post body uuid, s) e s') s s := by
  have hwaiting := h.reserve hv (.post body uuid)
  simp only [postRequest, wpa_bind, wpa_modifyGet]
  set s₁ := S.L.put s (S.L.view s).reserve.2 with hs₁
  have hget : ∀ x, (S.L.view s₁).getRequest x = (S.L.view s).getRequest x := fun x => by
    rw [hs₁, S.L.view_put]
    rfl
  cases hf : requestFields (bodyOrEmpty body) uuid with
  | error message =>
      refine ⟨hwaiting.segment, fun body' uuid' x hreq hx => ?_⟩
      simp only [CoordinatorRequest.requestId?, hf] at hx
      cases hx
  | ok fields =>
      have hown := post_requestId? hf
      simp only [wpa_bind, wpa_gets]
      cases hknown : (S.L.view s₁).getRequest fields.requestId with
      | some i =>
          refine ⟨hwaiting.segment, fun body' uuid' x hreq hx _ => ?_⟩
          obtain rfl : fields.requestId = x := Option.some.inj (hown.symm.trans hx)
          rfl
      | none =>
          have hnew : (S.L.view s).getRequest fields.requestId = none := (hget _).symm.trans hknown
          have hpost : ∀ (a : Response) (s' : σ), (S.discipline P env).post (.post body uuid, s) a
              s' := fun a s' body' uuid' x _ hx hsome => by
            obtain rfl : fields.requestId = x := Option.some.inj (hown.symm.trans hx)
            exact absurd hnew hsome
          simp only [wpa_bind, wpa_modifyGet]
          have hlimit := hwaiting.sameBooks hv (sameBooks_rateLimitOk (trim fields.merchantId) _)
          split
          next => exact ⟨hlimit.segment, hpost _ _⟩
          next =>
            simp only [wpa_bind, wpa_modify]
            have hfit : S.fit s fields.requestId := hadm _ hown (.inr hnew)
            have hfit₁ := hv.fit_sameBooks (hv.fit_sameBooks hfit (sameBooks_reserve _))
              (sameBooks_rateLimitOk (trim fields.merchantId) _)
            exact wpa_mono (hlimit.launch hv (fields.request _) hown
              (requestFields_named hf) hfit₁) (fun _ b s' hseg => ⟨hseg, hpost _ _⟩)
              fun _ _ _ hfalse => hfalse.elim

/-- A scenario keeps to the discipline, from its preconditions to their restoration. -/
theorem runScenario_spec (hv : S.Valid P env) {kind : ScenarioKind} {uuid : String}
    {watchdog : Bool} {s : σ} (h : S.Inv P env s)
    (hadm : S.Fits (.scenario kind uuid watchdog) s) :
    wpa ((S.discipline P env).contract (.scenario kind uuid watchdog, s)) S.L
      (runScenario P env kind uuid watchdog)
      (fun a b s' => S.Segment P env (.scenario kind uuid watchdog, s) b s' ∧
        (S.discipline P env).post (.scenario kind uuid watchdog, s) a s')
      (fun e b s' => S.Segment P env (.scenario kind uuid watchdog, s) b s' ∧
        (S.discipline P env).exn (.scenario kind uuid watchdog, s) e s') s s := by
  set l : CoordinatorRequest × σ := (.scenario kind uuid watchdog, s) with hl
  have hfit₀ : S.fit s (demoRequestId uuid) := hadm _ rfl (.inl ⟨kind, uuid, watchdog, rfl⟩)
  have hw₀ : S.Waiting P env l s _ := h.reserve hv (.scenario kind uuid watchdog)
  have hsame : ∀ u : Store cfg, SameBooks u u.rotate.2 := fun u => ⟨rfl, le_rfl, rfl⟩
  simp only [runScenario, wpa_bind, wpa_modifyGet, wpa_call]
  have hw₁ := hw₀.sameBooks hv (hsame _)
  have hfit₁ := hv.fit_sameBooks (hv.fit_sameBooks hfit₀ (sameBooks_reserve _)) (hsame _)
  refine ⟨hw₁.segment, fun _ s₂ hr₂ => ?_⟩
  have hw₂ := hw₁.resume hr₂
  have hfit₂ : S.fit s₂ (demoRequestId uuid) :=
    hr₂.2.2.1.fit kind uuid watchdog rfl (hw₁.since.trans hw₁.midway.grows) hw₁.unaccepted hfit₁
  set merchantId := MERCHANT_IDS.getD
    ((S.L.view (S.L.put s (S.L.view s).reserve.2)).rotate.1 % MERCHANT_IDS.length) ""
  simp only [wpa_bind, wpa_modify, wpa_call]
  have hw₃ := hw₂.sameBooks hv (sameBooks_applyPreconditions kind merchantId _)
  have hfit₃ := hv.fit_sameBooks hfit₂ (sameBooks_applyPreconditions kind merchantId _)
  refine ⟨hw₃.segment, fun _ s₄ hr₄ => ?_⟩
  have hw₄ := hw₃.resume hr₄
  have hfit₄ : S.fit s₄ (demoRequestId uuid) :=
    hr₄.2.2.1.fit kind uuid watchdog rfl (hw₃.since.trans hw₃.midway.grows) hw₃.unaccepted hfit₃
  have hid : demoRequestId uuid ≠ "" := by simp [demoRequestId, String.ext_iff]
  exact wpa_mono (hw₄.launch hv ⟨demoRequestId uuid, _, _, _, _⟩ rfl hid hfit₄)
    (fun _ b s' hseg => ⟨hseg.sameBooks hv (sameBooks_settle ..), fun _ _ _ hreq => by cases hreq⟩)
    fun _ _ _ hfalse => hfalse.elim

/-- Every handler keeps to the discipline. The cases are the requests. -/
theorem serve_spec (hv : S.Valid P env) (req : CoordinatorRequest) {s : σ} (h : S.Inv P env s)
    (hadm : S.Fits req s) :
    wpa ((S.discipline P env).contract (req, s)) S.L (serve P env req)
      (fun a b s' => S.Segment P env (req, s) b s' ∧ (S.discipline P env).post (req, s) a s')
      (fun e b s' => S.Segment P env (req, s) b s' ∧ (S.discipline P env).exn (req, s) e s')
      s s := by
  cases req with
  | post body uuid => exact postRequest_spec hv h hadm
  | scenario kind uuid watchdog => exact runScenario_spec hv h hadm

/-- What one handler does is what another one expects of the others. -/
theorem Segment.leaves (hv : S.Valid P env) {l l' : CoordinatorRequest × σ} {s s' : σ}
    (hcomp : (S.discipline P env).compatible l l') (h : S.Segment P env l s s') :
    S.Leaves l' s s' := by
  obtain ⟨hne, hids⟩ := hcomp
  refine ⟨h.midway.others _ hne.symm, h.midway.grows, h.midway.accepters _ hne.symm,
    h.midway.created, fun kind uuid watchdog hl hsince hnew hfit => ?_⟩
  by_cases hstrict : S.strict
  · refine h.midway.fit _ ?_ hfit
    by_cases hown : l.1.requestId? = some (demoRequestId uuid)
    · refine .inr
        (accepters_of_suffix hsince (hids hstrict kind uuid watchdog hl (fun hmem => hnew ?_) hown))
      exact accepters_of_suffix h.since hmem
    · exact .inl hown
  · exact hv.free hstrict _ _

/-- **The discipline holds** of every setting that is valid. -/
theorem discipline_valid (hv : S.Valid P env) : (S.discipline P env).Valid where
  evolves_refl _ := ⟨List.suffix_rfl, le_rfl⟩
  evolves_trans h h' := ⟨h.1.trans h'.1, h.2.trans h'.2⟩
  rely_refl _ s := Leaves.refl s
  rely_trans h h' := h.trans h'
  handler_spec req s hs hadm := serve_spec hv req hs hadm
  gua_inv _ h := ⟨h.midway.inv h.rests, h.midway.grows, h.midway.created⟩
  gua_rely hcomp _ h := h.leaves hv hcomp
  moves_inv hs h := by
    have hd := (hv.world hs.extra h).2
    exact ⟨hs.world hv h, by rw [hd.accepted], hd.created⟩
  moves_rely {l s s'} hs h := by
    have hd := (hv.world hs.extra h).2
    refine ⟨hd.account _, by rw [hd.accepted], fun hmem => ?_, hd.created,
      fun _ _ _ _ _ _ hfit => hv.fit_world hfit h⟩
    rwa [Store.accepters, hd.accepted] at hmem
  gua_marked _ h := h.taken

/-- A new handler is compatible with those in progress. -/
theorem Admitted.admits {c : CoordinatorPool σ cfg} {req : CoordinatorRequest}
    (hgood : (S.discipline P env).Good c) (h : S.Admitted c req) :
    (S.discipline P env).Admits c req := by
  refine ⟨h.1, fun p hp hsusp => ?_⟩
  obtain ⟨s₀, -, hmarked, hev, -, -⟩ := hgood.keeps p hp
  have hlt : S.number p.label < S.number (req, c.state) := hmarked.trans_le hev.2
  refine ⟨⟨hlt.ne, fun hstrict kind uuid watchdog hreq _ hown => ?_⟩,
    ⟨hlt.ne', fun hstrict kind uuid watchdog hreq hnew hown => ?_⟩⟩
  · exact h.2 hstrict p hp hsusp _ (by rw [show req = _ from hreq]; rfl) hown
  · refine absurd (h.2 hstrict p hp hsusp _ hown ?_) hnew
    rw [show p.req = _ from hreq]
    rfl

/-- **The service.** In every state that is reached the books are in order, and every handler
keeps to the discipline. -/
theorem sound (hv : S.Valid P env) {s : σ} (hs : S.Inv P env s)
    {admitted : CoordinatorPool σ cfg → CoordinatorRequest → Prop}
    (hadm : ∀ c req, (S.discipline P env).Good c → admitted c req → S.Admitted c req)
    {c : CoordinatorPool σ cfg} (h : (S.game P env).Reaches admitted s c) :
    (S.discipline P env).Good c :=
  Discipline.sound (discipline_valid hv) hs
    (fun c req hgood hok => (hadm c req hgood hok).admits hgood) h

/-- The invariant holds at boot. -/
theorem inv_boot {s : σ} {now : String} {randomBytes : Bytes}
    (hview : S.L.view s = Store.boot cfg now randomBytes) (hextra : S.extra s) : S.Inv P env s := by
  refine ⟨?_, hextra, fun i => ?_⟩ <;> rw [hview]
  · exact books_boot now randomBytes
  · exact rests_blank

end Setting

end NoGhost
