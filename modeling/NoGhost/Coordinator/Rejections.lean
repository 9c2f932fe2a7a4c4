import NoGhost.Coordinator.Banking

/-!
# Plain Rejections

A run that ends in `REJECTED` has not heard of a debit. That no money moved is another matter: the
bank may have confirmed a debit whose answer was lost, or may serve the request after the run has
given up. Where neither happens, a rejected request has no open debit.

## Main results

* `Cleared.move`: a run that rejects its request has no open debit at the bank.
* `rejected_without_debit`: when no rejected request has one.
* `rejected_with_debit`: an answer that is lost.
-/

open Js Async

namespace NoGhost

variable {cfg : Config} {P : Platform} {env : CoordinatorEnv cfg} {key : BankKey}

/-! ### Open debits -/

/-- Money has moved, and has not come back: the entry is confirmed and was not reversed. -/
def DebitLogEntry.Open (e : DebitLogEntry) : Prop := e.outcome = .CONFIRMED ∧ e.reversed = false

instance (e : DebitLogEntry) : Decidable e.Open := inferInstanceAs (Decidable (_ ∧ _))

/-- A debit call ends without an answer only while the bank has no open debit of the request, and
the bank does not confirm a request that was rejected. -/
def Network.timely : Network cfg where
  loses bank body := ∀ e ∈ bank.debitLog,
    body.get? "requestId" = some (.str e.debit.requestId) → ¬ e.Open
  serves s rid bank := (s.store.heap rid).status = .REJECTED →
    ∀ e ∈ bank.debitLog, e ∈ s.bank.debitLog ∨ ¬ e.Open

/-- No identifier has two records, which is so as long as none is submitted again after its
eviction. -/
def Store.Singly (u : Store cfg) : Prop := ∀ i ∈ u.accepters, ∀ j ∈ u.accepters,
  (u.heap i).request.requestId = (u.heap j).request.requestId → i = j

/-- **A request that is rejected has no open debit** in the ledger of the bank. -/
def Cleared (s : Banking cfg) : Prop := ∀ i ∈ s.store.accepters,
  (s.store.heap i).status = .REJECTED → ∀ e ∈ s.bank.debitLog,
    e.debit.requestId = (s.store.heap i).request.requestId → ¬ e.Open

section Singly

variable {u u' : Store cfg} {rid : ℕ}

/-- Whether identifiers are single is read off the accepted records and their requests. -/
theorem Store.Singly.of_same (h : u.Singly) (haccepters : u'.accepters = u.accepters)
    (hrequest : ∀ i, (u'.heap i).request = (u.heap i).request) : u'.Singly := by
  intro i hi j hj
  rw [haccepters] at hi hj
  rw [hrequest, hrequest]
  exact h i hi j hj

/-- The same books have the same identifiers. -/
theorem SameBooks.singly (hd : SameBooks u u') (h : u.Singly) : u'.Singly :=
  h.of_same hd.records.1 fun i => congrArg (·.request) (hd.records.2 i)

/-- A record for an identifier that was not accepted before keeps them single. -/
theorem Store.Singly.createRecord (h : u.Singly) {request : GenerationRequest}
    (hr : OwnRecords u) (hnew : rid ∉ u.accepters) (hid : request.requestId ∉ u.acceptedIds) :
    (u.createRecord rid request).Singly := by
  have hne : ∀ i ∈ u.accepters, i ≠ rid := fun i hi heq => hnew (heq ▸ hi)
  have hother : ∀ i ∈ u.accepters, (u.heap i).request.requestId ≠ request.requestId := by
    intro i hi heq
    obtain ⟨x, hx⟩ := mem_accepters.mp hi
    exact hid (heq ▸ hr.requestId _ hx ▸ List.mem_map_of_mem (f := Prod.snd) hx)
  intro i hi j hj heq
  rw [accepters_createRecord, List.mem_cons] at hi hj
  rcases hi with rfl | hi <;> rcases hj with rfl | hj
  · rfl
  · rw [heap_createRecord_self, heap_createRecord (hne j hj)] at heq
    exact absurd heq.symm (hother j hj)
  · rw [heap_createRecord_self, heap_createRecord (hne i hi)] at heq
    exact absurd heq (hother i hi)
  · rw [heap_createRecord (hne i hi), heap_createRecord (hne j hj)] at heq
    exact h i hi j hj heq

end Singly

/-! ### A run that rejects its request -/

section Moves

variable {s s' : Banking cfg} {u' : Store cfg} {rid : ℕ}

/-- The entry of a request is what its run was answered: nobody else has asked the bank under its
identifier. -/
theorem Exchanged.answered (h : Exchanged P key s) (hsingly : s.store.Singly)
    (hrid : rid ∈ s.store.accepters) {e : DebitLogEntry} (he : e ∈ s.bank.debitLog)
    (hid : e.debit.requestId = (s.store.heap rid).request.requestId) :
    (rid, Response.json e.debit.toJson) ∈ s.debitReplies ∧
      rid ∈ s.store.debitRequests.map (·.1) := by
  obtain ⟨⟨i, answer⟩, hm, rfl, hid'⟩ := h.served e he
  have hasked := (h.replies _ hm).1
  obtain ⟨m, hm', rfl⟩ := List.mem_map.mp hasked
  obtain rfl := hsingly m.1 (h.asked m hm').1 rid hrid (hid'.symm.trans hid)
  exact ⟨hm, hasked⟩

/-- A run gets one answer to its debit request, since it asks once. -/
theorem Exchanged.reply_unique (h : Exchanged P key s) {r r' : Response}
    (hr : (rid, r) ∈ s.debitReplies) (hr' : (rid, r') ∈ s.debitReplies) : r = r' :=
  congrArg Prod.snd (List.inj_on_of_nodup_map h.once hr hr' rfl)

/-- An open debit confirms the request where it arrives: it was signed by the bank over the fields
of that request. -/
theorem Exchanged.confirms (h : Exchanged P key s) (hkey : env.BANK_PUBLIC_KEY = key.publicKey P)
    {e : DebitLogEntry} (he : e ∈ s.bank.debitLog) (houtcome : e.outcome = .CONFIRMED)
    {request : GenerationRequest} (hid : e.debit.requestId = request.requestId) :
    Confirms P env request (some ((Response.json e.debit.toJson).arrived P)) := by
  refine ⟨_, rfl, rfl, ?_, ?_⟩ <;> rw [body_arrived]
  · rw [verifyAttestation, hkey]
    exact e.debit.verified_confirmation (h.signed e he houtcome)
  · exact strictEq_str.mpr (e.debit.get?_requestId.trans (by rw [hid]))

/-- The run of a request that is refused has no open debit: its answer would have confirmed the
request. -/
theorem Exchanged.refused (h : Exchanged P key s) (hkey : env.BANK_PUBLIC_KEY = key.publicKey P)
    {O : Outside (Banking.lens cfg)} (hb : Books P env O s.store) (hsingly : s.store.Singly)
    (hrid : rid ∈ s.store.accepters)
    (htells : ∀ {body answer}, O.tells (.debit rid body) answer s →
      Banking.answers P .timely s (.debit rid body) answer)
    (hrefused : Refused P env O rid s (s.store.account rid)) {e : DebitLogEntry}
    (he : e ∈ s.bank.debitLog) (hid : e.debit.requestId = (s.store.heap rid).request.requestId) :
    ¬ e.Open := by
  rintro ⟨houtcome, hreversed⟩
  obtain ⟨hreply, hasked⟩ := h.answered hsingly hrid he hid
  cases hrefused with
  | unasked hnone =>
      obtain ⟨⟨i, body⟩, hm, rfl⟩ := List.mem_map.mp hasked
      have hmem : body ∈ (s.store.deeds i).debits := mem_ofRun.mpr hm
      rw [show (s.store.deeds i).debits = [] from hnone] at hmem
      cases hmem
  | @unconfirmed answer heard hnot =>
      rcases htells heard with ⟨rfl, hloses⟩ | ⟨r, hr, rfl⟩
      · refine hloses e he ?_ ⟨houtcome, hreversed⟩
        rw [debitRequest, get?_object (by simp), hid]
        rfl
      · obtain rfl := h.reply_unique hr hreply
        exact hnot (h.confirms hkey he houtcome hid)
  | @consumed answer owner heard hconfirms howner hne =>
      obtain ⟨e', he', hbody, hr, hid'⟩ := h.heard (htells heard)
        (by obtain ⟨r, hr, hok, -⟩ := hconfirms; cases hr; exact hok)
      rw [hbody, e'.debit.get?_debitRef] at howner
      obtain ⟨i, d, hd, href, rfl⟩ := hb.claims.owners _ _ howner
      obtain ⟨e'', he'', rfl, hid''⟩ := h.debited i d hd
      rw [e''.debit.get?_debitRef, Option.some.injEq, Json.str.injEq] at href
      obtain rfl := List.inj_on_of_nodup_map h.ledger.byDebitRef.nodup he'' he' href
      exact hne (hid''.symm.trans hid')

/-- A write of a run keeps rejected requests without an open debit. -/
theorem Cleared.move (h : Cleared s) (hexchanged : Exchanged P key s)
    (hkey : env.BANK_PUBLIC_KEY = key.publicKey P) {O : Outside (Banking.lens cfg)}
    (hb : Books P env O s.store) (hsingly : s.store.Singly) (hrid : rid ∈ s.store.accepters)
    (htells : ∀ {body answer}, O.tells (.debit rid body) answer s →
      Banking.answers P .timely s (.debit rid body) answer)
    {t : CoordinatorTrace (Banking cfg) cfg} (hm : Move P env O rid t s s.store u') :
    Cleared { s with store := u' } := by
  obtain ⟨haccepters, hrequest⟩ := hm.records
  intro i hi hstatus e he hid
  change i ∈ u'.accepters at hi
  change (u'.heap i).status = _ at hstatus
  change e.debit.requestId = (u'.heap i).request.requestId at hid
  rw [haccepters] at hi
  rw [hrequest] at hid
  rcases eq_or_ne i rid with rfl | hne
  · rcases hm.refused hstatus with hrejected | hrefused
    · exact h i hi hrejected e he hid
    · exact hexchanged.refused hkey hb hsingly hrid htells hrefused he hid
  · rw [hm.heap_of_ne hne] at hstatus
    exact h i hi hstatus e he hid

/-- A write that leaves the books alone rejects nothing. -/
theorem Cleared.sameBooks (h : Cleared s) (hd : SameBooks s.store u') :
    Cleared { s with store := u' } := by
  obtain ⟨haccepters, hheap⟩ := hd.records
  intro i hi
  change i ∈ u'.accepters at hi
  change (u'.heap i).status = _ → ∀ e ∈ s.bank.debitLog, _ = (u'.heap i).request.requestId → _
  rw [haccepters] at hi
  rw [hheap]
  exact h i hi

/-- A record that is made is pending, and so not rejected. -/
theorem Cleared.createRecord (h : Cleared s) {request : GenerationRequest}
    (hnew : rid ∉ s.store.accepters) :
    Cleared { s with store := s.store.createRecord rid request } := by
  intro i hi
  change i ∈ (s.store.createRecord rid request).accepters at hi
  change ((s.store.createRecord rid request).heap i).status = _ → ∀ e ∈ s.bank.debitLog,
    _ = ((s.store.createRecord rid request).heap i).request.requestId → _
  rw [accepters_createRecord, List.mem_cons] at hi
  rcases hi with rfl | hi
  · rw [heap_createRecord_self]
    exact fun hstatus => (nomatch hstatus)
  · have hne : i ≠ rid := fun heq => hnew (heq ▸ hi)
    rw [heap_createRecord hne]
    exact h i hi

/-- What the bank does keeps them so, too: a debit that it records is answered to a run that is not
at its end. -/
theorem Cleared.world (h : Cleared s) (hexchanged : Exchanged P key s) (hsingly : s.store.Singly)
    (hmoves : Banking.Moves P key .timely s s') : Cleared s' := by
  cases hmoves with
  | quiet hq => exact h.sameBooks hq.sameBooks
  | @debit rid body random answer bank hsent hnew hfresh hserved hserves =>
      intro i hi hstatus e he hid
      rcases hserved.replied.new he with hold | ⟨-, hreq, -⟩
      · exact h i hi hstatus e hold hid
      · obtain ⟨hrid, hbody⟩ := hexchanged.asked _ hsent
        obtain rfl : body = debitRequest (s.store.heap rid).request := hbody
        rw [Exchanged.requestId_sent, Option.some.injEq, Json.str.injEq] at hreq
        obtain rfl := hsingly rid hrid i hi (hreq.trans hid)
        exact (hserves hstatus e he).elim (fun hold => h rid hi hstatus e hold hid) fun hnot => hnot
  | @reverse rid debitRef answer bank hsent _ hserved =>
      obtain ⟨-, -, hentries⟩ := hserved.reversed hexchanged.ledger
      intro i hi hstatus e' he' hid
      obtain ⟨e, he, hdebit, houtcome, hreversed⟩ := hentries e' he'
      rintro ⟨hconfirmed, hopen⟩
      refine h i hi hstatus e he (hdebit ▸ hid) ⟨houtcome ▸ hconfirmed, ?_⟩
      by_contra hne
      rw [hreversed (by simpa using hne)] at hopen
      cases hopen
  | mode mode now => exact h

end Moves

/-! ### Rejected requests -/

/-- The system, where messages are timely: the identifiers are single, and nothing rejected is open,
at every point. -/
def Setting.timely (P : Platform) (key : BankKey) : Setting cfg (Banking cfg) :=
  { Setting.banking P key .timely with
    extra := fun s => s.store.Singly ∧ Exchanged P key s ∧ Cleared s }

/-- The rules of that system are kept by every step of a run that asks for its debit once. -/
theorem Setting.timely_validOnce (hkey : env.BANK_PUBLIC_KEY = key.publicKey P) :
    (Setting.timely P key).ValidOnce P env where
  sameBooks hextra hd := ⟨hd.singly hextra.1, hextra.2.1.sameBooks hd, hextra.2.2.sameBooks hd⟩
  accept hb _ hextra hnew hid := ⟨hextra.1.createRecord hb.ownRecords hnew hid,
    hextra.2.1.createRecord hnew, hextra.2.2.createRecord hnew⟩
  move hb _ hextra hrid hm := ⟨hextra.1.of_same hm.records.1 hm.records.2,
    hextra.2.1.move hb hrid id hm, hextra.2.2.move hextra.2.1 hkey hb hextra.1 hrid id hm⟩
  world hextra hmoves := by
    obtain ⟨h, hd⟩ := hextra.2.1.world hmoves
    exact ⟨hd.singly hextra.1, h, hextra.2.2.world hextra.2.1 hextra.1 hmoves⟩
  moves_sameBooks hmoves := hmoves.sameBooks

/-- **A plain rejection.** With identifiers that come once, and messages that are timely, a request
that is rejected has no open debit at the bank. -/
theorem rejected_without_debit (hkey : env.BANK_PUBLIC_KEY = key.publicKey P) {now : String}
    {randomBytes : Bytes} {c : CoordinatorPool (Banking cfg) cfg}
    (h : (bankingGame P env key .timely).Reaches (Once (Banking.lens cfg))
      (.boot cfg now randomBytes) c) :
    ∀ i, (c.state.store.heap i).status = .REJECTED → ∀ e ∈ c.state.bank.debitLog,
      e.debit.requestId = (c.state.store.heap i).request.requestId → ¬ e.Open := by
  have hinv := Setting.once_sound (S := Setting.timely P key) (Setting.timely_validOnce hkey) rfl
    ⟨fun _ hi => absurd hi List.not_mem_nil, .boot now randomBytes,
      fun _ hi => absurd hi List.not_mem_nil⟩ (fun _ _ _ honce => honce) h
  intro i hstatus
  have hmem : i ∈ c.state.store.accepters := hinv.books.ownRecords.mem_of_ne_blank fun hblank => by
    rw [show c.state.store.heap i = _ from congrArg Account.record hblank] at hstatus
    cases hstatus
  exact hinv.extra.2.2.2 i hmem hstatus

/-! ### Small rejections -/

namespace Small

/-- The bank has confirmed the debit, and the run has not heard of it. -/
def lost : CoordinatorPool (Banking config) config :=
  (bankingGame platform coordinatorEnv bankSecret .any).play asked
    [.world (serveDebit asked.state),
      .resume 0 (told (.boot config "2025-01-01T00:00:00.000Z" []))]

/-- The bank leaves out its signature, in the mode by which the demo shows a bank that is not to be
trusted. -/
def forging (s : Banking config) : Banking config :=
  { s with bank := { s.bank with mode := .OMIT_SIGNATURE, now := "2025-01-01T00:00:00.000Z" } }

/-- The bank has confirmed the debit without a signature, and the run has heard of it. -/
def unsigned : CoordinatorPool (Banking config) config :=
  (bankingGame platform coordinatorEnv bankSecret .timely).play asked
    [.world (forging asked.state), .world (serveDebit (forging asked.state)),
      .resume 0 (told (serveDebit (forging asked.state)))]

/-- The first request is rejected, under its own identifier. -/
abbrev Turned (s : Banking config) : Prop :=
  (s.store.heap 0).status = .REJECTED ∧ (s.store.heap 0).request.requestId = "REQ-1"

end Small

/-- A debit whose answer is lost: the request is rejected, and the debit is open. -/
theorem small_lost_rejected : Small.Turned Small.lost.state ∧
    Small.lost.state.bank.debitLog.any (fun e => e.debit.requestId = "REQ-1" ∧ e.Open) = true := by
  decide +kernel

/-- A debit that is not signed is rejected as well, and what the bank notes of it is not open. -/
theorem small_unsigned_rejected : Small.Turned Small.unsigned.state ∧
    Small.unsigned.state.bank.debitLog.map (fun e => (e.debit.requestId, e.outcome)) =
      [("REQ-1", .OMIT_SIGNATURE)] ∧
    (Small.serveDebit (Small.forging Small.asked.state)).bank.debitLog.all
      (fun e => e.outcome ≠ .CONFIRMED) = true ∧
    Small.asked.state.store.debitRequests.all
      (fun m => (Small.asked.state.store.heap m.1).status ≠ .REJECTED) = true := by
  decide +kernel

/-- The requests of the example have identifiers of their own. -/
theorem small_once : Once (Banking.lens config)
    (⟨.boot config "2025-01-01T00:00:00.000Z" [], []⟩ : CoordinatorPool (Banking config) config)
    Small.shopping := fun _ _ =>
  ⟨fun _ => List.not_mem_nil, fun _ hp => absurd hp List.not_mem_nil⟩

/-- The run with the bank that leaves out its signature is one of the system. -/
theorem small_unsigned :
    (bankingGame Small.platform Small.coordinatorEnv Small.bankSecret .timely).Reaches
      (Once (Banking.lens config)) (.boot config "2025-01-01T00:00:00.000Z" []) Small.unsigned := by
  obtain ⟨-, -, hunsigned, hasked⟩ := small_unsigned_rejected
  obtain ⟨hreach, hbank, hreplies⟩ := small_asked .timely small_once
    fun _ _ he => absurd he List.not_mem_nil
  have hserves : ∀ m ∈ (Small.forging Small.asked.state).store.debitRequests, ∀ bank,
      Network.timely.serves (Small.forging Small.asked.state) m.1 bank :=
      fun m hm bank hrejected => by
    have := List.all_eq_true.mp hasked m hm
    simp only [decide_eq_true_eq] at this
    exact absurd hrejected this
  refine hreach.play ⟨.mode .OMIT_SIGNATURE "2025-01-01T00:00:00.000Z",
    fun _ heq => (nomatch heq), small_serveDebit ?_ hreplies hserves,
    fun _ heq => (nomatch heq), small_told (fun body e he _ hopen => ?_) (fun _ hm => hm) 0,
    fun _ heq => (nomatch heq), trivial⟩
  · change Small.asked.state.bank.debitLog = []
    rw [hbank]
    rfl
  · have := List.all_eq_true.mp hunsigned e he
    simp only [decide_eq_true_eq] at this
    exact this hopen.1

/-- The small request is rejected, and its entry is no open debit. -/
theorem rejected_without_debit_small : ∃ e ∈ Small.unsigned.state.bank.debitLog,
    e.debit.requestId = "REQ-1" ∧ ¬ e.Open := by
  obtain ⟨⟨hstatus, hid⟩, hlog, -⟩ := small_unsigned_rejected
  obtain ⟨e, hlog, heq⟩ := List.map_eq_singleton_iff.mp hlog
  have hentry : e.debit.requestId = "REQ-1" := congrArg Prod.fst heq
  have he : e ∈ Small.unsigned.state.bank.debitLog := hlog ▸ List.mem_singleton.mpr rfl
  exact ⟨e, he, hentry, rejected_without_debit rfl small_unsigned 0 hstatus e he
    (hentry.trans hid.symm)⟩

/-- **A rejection with a debit.** The bank confirms, its answer is lost, and the request is
rejected. -/
theorem rejected_with_debit : ¬ ∀ c : CoordinatorPool (Banking config) config,
    (bankingGame Small.platform Small.coordinatorEnv Small.bankSecret .any).Reaches
      (Once (Banking.lens config)) (.boot config "2025-01-01T00:00:00.000Z" []) c →
    ∀ i, (c.state.store.heap i).status = .REJECTED → ∀ e ∈ c.state.bank.debitLog,
      e.debit.requestId = (c.state.store.heap i).request.requestId → ¬ e.Open := by
  intro hall
  obtain ⟨⟨hstatus, hid⟩, hopen⟩ := small_lost_rejected
  obtain ⟨e, he, hentry⟩ := List.any_eq_true.mp hopen
  rw [decide_eq_true_eq] at hentry
  obtain ⟨hreach, hbank, hreplies⟩ := small_asked .any small_once fun _ => trivial
  have hlost : (bankingGame Small.platform Small.coordinatorEnv Small.bankSecret .any).Reaches
      (Once (Banking.lens config)) (.boot config "2025-01-01T00:00:00.000Z" []) Small.lost :=
    hreach.play ⟨small_serveDebit (by rw [hbank]; rfl) hreplies fun _ _ _ => trivial,
      fun _ heq => (nomatch heq), small_told (fun _ => trivial) (List.nil_subset _) 0,
      fun _ heq => (nomatch heq), trivial⟩
  exact hall _ hlost 0 hstatus e he (hentry.1.trans hid.symm) hentry.2

end NoGhost
