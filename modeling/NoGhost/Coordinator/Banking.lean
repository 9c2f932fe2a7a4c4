import NoGhost.Confirmation
import NoGhost.Coordinator.Flood

/-!
# Coordinator and Bank

The coordinator and the bank as two parties that exchange messages. A run sends its debit request
and its reverse call once, and what it has sent is in the histories of the store; the bank serves
a message at most once, and at any time, or never; its answer arrives, or is lost, or comes too
late. The answers of signers and ledger are anything.

## Main results

* `Exchanged`: what the log of the bank has to do with the records, whatever is lost or late.
* `Setting.afresh`: identifiers that come again after rejections only.
* `spent_or_refunded`: when a debit is not both spent and refunded.
* `spent_and_refunded`: a debit that is.
-/

open Js Async

namespace NoGhost

variable {cfg : Config} {P : Platform} {env : CoordinatorEnv cfg} {key : BankKey}

/-! ### The system -/

/-- A coordinator, a bank, and the answers that the bank has sent, each with the record of the run
that asked. -/
structure Banking (cfg : Config) where
  store : Store cfg
  bank : BankState
  debitReplies : List (ℕ × Response)
  reverseReplies : List (ℕ × Response)

/-- The part of the coordinator, which its handlers read and write. -/
@[simps] def Banking.lens (cfg : Config) : Lens (Banking cfg) (Store cfg) where
  view s := s.store
  put s u := { s with store := u }
  view_put _ _ := rfl
  put_view _ := rfl
  put_put _ _ _ := rfl

/-- Both parties at boot, with nothing on the way between them. -/
def Banking.boot (cfg : Config) (now : String) (randomBytes : Bytes) : Banking cfg :=
  ⟨.boot cfg now randomBytes, .boot now, [], []⟩

/-- What arrives of an answer: its status, and the text of its body. -/
def Response.arrived (P : Platform) (r : Response) : HttpResult :=
  ⟨r.status, stringify P.numeral r.body⟩

/-- The body of what arrives is the body that was sent, as sending leaves it. -/
theorem body_arrived (r : Response) : (r.arrived P).body P = sent r.body := by
  rw [HttpResult.body, Response.arrived, parse_stringify]
  rfl

/-- What the network does to the messages of the debits: it may lose the answer to a call, and it
decides when the bank serves a request. -/
structure Network (cfg : Config) where
  /-- A debit call may end without an answer. -/
  loses : BankState → Json → Prop
  /-- The bank may serve the debit request of a run, with this outcome. -/
  serves : Banking cfg → ℕ → BankState → Prop

/-- Messages may be lost, or come late. -/
def Network.any : Network cfg := ⟨fun _ _ => True, fun _ _ _ => True⟩

/-- What happens beside the runs: messages are served, the bank's mode and the time change, and so
does what no run reads back. -/
inductive Banking.Moves (P : Platform) (key : BankKey) (net : Network cfg) (s : Banking cfg) :
    Banking cfg → Prop
  | quiet {u : Store cfg} (h : Quiet s.store u) : Moves P key net s { s with store := u }
  | debit {rid : ℕ} {body : Json} {random : Bytes} {answer : Response} {bank : BankState}
      (hsent : (rid, body) ∈ s.store.debitRequests) (hnew : rid ∉ s.debitReplies.map (·.1))
      (hfresh : debitRefOf random ∉ s.bank.debitRefs)
      (h : Served (postDebit P key (some (sent body)) random) s.bank answer bank)
      (hserves : net.serves s rid bank) : Moves P key net s
        { s with bank, debitReplies := s.debitReplies ++ [(rid, answer)] }
  | reverse {rid : ℕ} {debitRef : String} {answer : Response} {bank : BankState}
      (hsent : (rid, debitRef) ∈ s.store.reversals) (hnew : rid ∉ s.reverseReplies.map (·.1))
      (h : Served (postReverse debitRef) s.bank answer bank) : Moves P key net s
        { s with bank, reverseReplies := s.reverseReplies ++ [(rid, answer)] }
  | mode (mode : BankMode) (now : String) :
      Moves P key net s { s with bank := { s.bank with mode, now } }

/-- How a call of the coordinator may be answered: a call of the bank by what the bank has answered
to it, or not at all, and any other call in any way. -/
def Banking.answers (P : Platform) (net : Network cfg) (s : Banking cfg) :
    (q : CoordinatorCall cfg) → q.Answer → Prop
  | .debit rid body, answer => (answer = none ∧ net.loses s.bank body) ∨
      ∃ r, (rid, r) ∈ s.debitReplies ∧ answer = some (r.arrived P)
  | .reverse rid _, answer => answer = none ∨
      ∃ r, (rid, r) ∈ s.reverseReplies ∧ answer = some (r.arrived P)
  | _, _ => True

/-- How a call may be answered does not depend on the store of the coordinator. -/
theorem Banking.answers_put (P : Platform) (net : Network cfg) {s : Banking cfg}
    {q : CoordinatorCall cfg} {r : q.Answer} (u : Store cfg) (h : Banking.answers P net s q r) :
    Banking.answers P net ((Banking.lens cfg).put s u) q r := by
  cases q <;> exact h

/-- The coordinator in its system with the bank and the network between them. -/
def Setting.banking (P : Platform) (key : BankKey) (net : Network cfg) :
    Setting cfg (Banking cfg) where
  L := Banking.lens cfg
  answers := Banking.answers P net
  answers_put {s q r} u h := by cases q <;> exact h
  moves := Banking.Moves P key net

/-! ### What the log has to do with the records -/

/-- The debit request of a purchase passes the checks of the bank. -/
theorem debitRequestOf_sent (request : GenerationRequest) (hid : request.requestId ≠ "")
    (hmeter : request.meterId ≠ "") :
    ∃ amount, priceZar (.fin request.amountKwh) = .fin amount ∧
      debitRequestOf (some (sent (debitRequest request))) = some ⟨request.requestId,
        request.merchantId, request.meterId, request.amountKwh, amount, CURRENCY⟩ := by
  obtain ⟨amount, hamount⟩ : ∃ amount, priceZar (.fin request.amountKwh) = .fin amount := ⟨_, rfl⟩
  refine ⟨amount, hamount, ?_⟩
  have hprop : ∀ k, prop? (some (sent (debitRequest request))) k =
      (List.lookup k [("requestId", some (.str request.requestId)),
        ("merchantId", some (.str request.merchantId)), ("meterId", some (.str request.meterId)),
        ("amountKwh", some (.num (.fin request.amountKwh))), ("amount", some (.num (.fin amount))),
        ("currency", some (.str CURRENCY))]).join.map sent := fun k => by
    rw [prop?_some, debitRequest, hamount, get?_sent_object (by simp)]
  have hfields : prop? (some (sent (debitRequest request))) "requestId" =
        some (.str request.requestId) ∧
      prop? (some (sent (debitRequest request))) "merchantId" = some (.str request.merchantId) ∧
      prop? (some (sent (debitRequest request))) "meterId" = some (.str request.meterId) ∧
      prop? (some (sent (debitRequest request))) "amountKwh" =
        some (.num (.fin request.amountKwh)) ∧
      prop? (some (sent (debitRequest request))) "amount" = some (.num (.fin amount)) ∧
      prop? (some (sent (debitRequest request))) "currency" = some (.str CURRENCY) :=
    ⟨hprop _, hprop _, hprop _, hprop _, hprop _, hprop _⟩
  obtain ⟨h₁, h₂, h₃, h₄, h₅, h₆⟩ := hfields
  rw [debitRequestOf, h₁, h₂, h₃, h₄, h₅, h₆]
  simp [hid, hmeter]

/-- The debit requests of the bank's log were sent by runs, its answers say what the log says, and
the debits of the records, and the reversals, are those of the log. -/
structure Exchanged (P : Platform) (key : BankKey) (s : Banking cfg) : Prop where
  ledger : Ledger s.bank
  signed : ∀ e ∈ s.bank.debitLog, e.outcome = .CONFIRMED →
    e.debit.bankSignature = signDebitPayload P key e.debit.toDebitSignedPayload
  asked : ∀ m ∈ s.store.debitRequests, m.1 ∈ s.store.accepters ∧
    m.2 = debitRequest (s.store.heap m.1).request
  once : (s.debitReplies.map (·.1)).Nodup
  replies : ∀ m ∈ s.debitReplies, m.1 ∈ s.store.debitRequests.map (·.1) ∧ (m.2.status < 300 →
    ∃ e ∈ s.bank.debitLog, m.2 = .json e.debit.toJson ∧
      e.debit.requestId = (s.store.heap m.1).request.requestId)
  served : ∀ e ∈ s.bank.debitLog, ∃ m ∈ s.debitReplies, m.2 = .json e.debit.toJson ∧
    e.debit.requestId = (s.store.heap m.1).request.requestId
  debited : ∀ i d, (s.store.heap i).debit = some d → ∃ e ∈ s.bank.debitLog,
    d = sent e.debit.toJson ∧ e.debit.requestId = (s.store.heap i).request.requestId
  reversed : ∀ ref ∈ s.bank.reversedRefs, ∃ i, (i, ref) ∈ s.store.reversals

section Messages

variable {L : Lens (Banking cfg) (Store cfg)} {O : Outside L} {u u' : Store cfg} {rid i : ℕ}

/-- What a run has asked the bank for: nothing, or the debit of its request. -/
theorem Phase.debits {σ : Type} {L : Lens σ (Store cfg)} {O : Outside L}
    {t : CoordinatorTrace σ cfg} {r : PipelineRecord cfg} {e : Deeds}
    (h : Phase P env O i t r e) : e.debits = [] ∨ e.debits = [debitRequest r.request] := by
  cases h with
  | idle => exact .inl rfl
  | asked | running | abandoned => exact .inr rfl
  | rejected _ _ _ _ he =>
      rcases he with rfl | rfl
      · exact .inl rfl
      · exact .inr rfl

/-- Every debit request was sent by the run of an accepted record, for its request. -/
theorem Books.asked {σ : Type} {L : Lens σ (Store cfg)} {O : Outside L} (hb : Books P env O u) :
    ∀ m ∈ u.debitRequests, m.1 ∈ u.accepters ∧ m.2 = debitRequest (u.heap m.1).request := by
  intro m hm
  have hmem : m.2 ∈ (u.deeds m.1).debits := mem_ofRun.mpr hm
  refine ⟨hb.ownRecords.mem_of_ne_blank fun hblank => ?_, ?_⟩
  · rw [show u.deeds m.1 = .none from congrArg Account.deeds hblank] at hmem
    cases hmem
  · obtain ⟨t, hphase⟩ := hb.phase m.1
    rcases hphase.debits with hnone | hone
    · rw [hnone] at hmem
      cases hmem
    · rw [hone] at hmem
      exact List.mem_singleton.mp hmem

/-- What a run has sent to the bank is not forgotten. -/
theorem Effect.sent (h : Effect P rid u u') :
    u.debitRequests <+: u'.debitRequests ∧ u.reversals <+: u'.reversals := by
  have hsame : u'.debitRequests = u.debitRequests → u'.reversals = u.reversals →
      u.debitRequests <+: u'.debitRequests ∧ u.reversals <+: u'.reversals := fun h h' =>
    ⟨h ▸ List.prefix_rfl, h' ▸ List.prefix_rfl⟩
  cases h with
  | still _ h | record _ _ h | deliver _ _ h =>
      exact hsame (congrArg Common.debitRequests h) (congrArg Common.reversals h)
  | claim _ h =>
      obtain ⟨rfl, -⟩ := claimDebitRef_ok h
      exact hsame rfl rfl
  | meter meterId h =>
      have h' := h ▸ common_ensureMeter meterId u
      exact hsame (congrArg Common.debitRequests h') (congrArg Common.reversals h')
  | ask _ h =>
      subst h
      exact ⟨List.prefix_append _ _, List.prefix_rfl⟩
  | reverse _ h =>
      subst h
      exact ⟨List.prefix_rfl, List.prefix_append _ _⟩
  | redeem _ _ h | credit _ _ h | receive _ h =>
      subst h
      exact hsame rfl rfl

end Messages

namespace Exchanged

variable {s s' : Banking cfg} {u' : Store cfg} {rid : ℕ}

/-- At the boot nothing was sent, served or answered. -/
theorem boot (now : String) (randomBytes : Bytes) :
    Exchanged P key (.boot cfg now randomBytes) :=
  ⟨ledger_boot now, fun _ he => (nomatch he), fun _ hm => (nomatch hm), List.nodup_nil,
    fun _ hm => (nomatch hm), fun _ he => (nomatch he), fun _ _ hd => (nomatch hd),
    fun _ href => (nomatch href)⟩

/-- The store changes, but no request or debit of a record, and no message. -/
theorem store (h : Exchanged P key s) (hrequest : ∀ i ∈ s.store.accepters,
      (u'.heap i).request = (s.store.heap i).request)
    (hdebit : ∀ i d, (u'.heap i).debit = some d → ∃ e ∈ s.bank.debitLog,
      d = Js.sent e.debit.toJson ∧ e.debit.requestId = (u'.heap i).request.requestId)
    (hasked : ∀ m ∈ u'.debitRequests, m.1 ∈ u'.accepters ∧
      m.2 = debitRequest (u'.heap m.1).request)
    (hdebits : s.store.debitRequests <+: u'.debitRequests)
    (hreversals : s.store.reversals <+: u'.reversals) :
    Exchanged P key { s with store := u' } where
  ledger := h.ledger
  signed := h.signed
  asked := hasked
  once := h.once
  replies m hm := by
    obtain ⟨hmem, hok⟩ := h.replies m hm
    obtain ⟨m', hm', heq⟩ := List.mem_map.mp hmem
    refine ⟨(hdebits.map _).subset hmem, fun hstatus => ?_⟩
    obtain ⟨e, he, hbody, hid⟩ := hok hstatus
    exact ⟨e, he, hbody, hid.trans (congrArg (·.requestId)
      (hrequest m.1 (heq ▸ (h.asked m' hm').1)).symm)⟩
  served e he := by
    obtain ⟨m, hm, hbody, hid⟩ := h.served e he
    obtain ⟨m', hm', heq⟩ := List.mem_map.mp (h.replies m hm).1
    exact ⟨m, hm, hbody, hid.trans (congrArg (·.requestId)
      (hrequest m.1 (heq ▸ (h.asked m' hm').1)).symm)⟩
  debited := hdebit
  reversed ref href := by
    obtain ⟨i, hi⟩ := h.reversed ref href
    exact ⟨i, hreversals.subset hi⟩

/-- A write of the coordinator that is not about its books leaves the exchange alone. -/
theorem sameBooks (h : Exchanged P key s) (hd : SameBooks s.store u') :
    Exchanged P key { s with store := u' } := by
  have hdebits : u'.debitRequests = s.store.debitRequests := congrArg Common.debitRequests hd.common
  have hreversals : u'.reversals = s.store.reversals := congrArg Common.reversals hd.common
  have haccepters : u'.accepters = s.store.accepters := congrArg (List.map Prod.fst) hd.accepted
  refine h.store (fun i _ => by rw [hd.heap]) (fun i d => ?_) ?_ (hdebits ▸ List.prefix_rfl)
    (hreversals ▸ List.prefix_rfl)
  · rw [hd.heap]
    exact h.debited i d
  · rw [hdebits, haccepters, hd.heap]
    exact h.asked

/-- A record that is made has sent nothing yet. -/
theorem createRecord (h : Exchanged P key s) {request : GenerationRequest}
    (hnew : rid ∉ s.store.accepters) :
    Exchanged P key { s with store := s.store.createRecord rid request } := by
  have haccepters : (s.store.createRecord rid request).accepters = rid :: s.store.accepters := by
    rw [Store.accepters, createRecord_eq]
    rfl
  have hsent : (s.store.createRecord rid request).debitRequests = s.store.debitRequests ∧
      (s.store.createRecord rid request).reversals = s.store.reversals := by
    rw [createRecord_eq]
    exact ⟨rfl, rfl⟩
  have hne : ∀ i ∈ s.store.accepters, i ≠ rid := fun i hi heq => hnew (heq ▸ hi)
  refine h.store (fun i hi => by rw [heap_createRecord (hne i hi)]) (fun i d hd => ?_)
    (fun m hm => ?_) (hsent.1 ▸ List.prefix_rfl) (hsent.2 ▸ List.prefix_rfl)
  · rcases eq_or_ne i rid with rfl | hi
    · rw [heap_createRecord_self] at hd
      cases hd
    · rw [heap_createRecord hi] at hd ⊢
      exact h.debited i d hd
  · rw [hsent.1] at hm
    obtain ⟨hacc, hbody⟩ := h.asked m hm
    rw [haccepters, heap_createRecord (hne m.1 hacc)]
    exact ⟨List.mem_cons_of_mem _ hacc, hbody⟩

/-- What the coordinator has heard of the bank is what the bank has answered. -/
theorem heard (h : Exchanged P key s) {net : Network cfg} {body : Json} {answer : HttpResult}
    (htold : Banking.answers P net s (.debit rid body) (some answer)) (hok : answer.ok = true) :
    ∃ e ∈ s.bank.debitLog, answer.body P = Js.sent e.debit.toJson ∧
      (rid, Response.json e.debit.toJson) ∈ s.debitReplies ∧
      e.debit.requestId = (s.store.heap rid).request.requestId := by
  rcases htold with ⟨hnone, -⟩ | ⟨r, hr, heq⟩
  · cases hnone
  · obtain rfl := Option.some.inj heq
    have hstatus : r.status < 300 := by
      rw [HttpResult.ok, Bool.and_eq_true, decide_eq_true_iff, decide_eq_true_iff] at hok
      exact hok.2
    obtain ⟨e, he, hbody, hid⟩ := (h.replies _ hr).2 hstatus
    obtain rfl : r = .json e.debit.toJson := hbody
    exact ⟨e, he, body_arrived _, hr, hid⟩

/-- A write of a run adds at most one message to the bank, under its own number. -/
theorem move {net : Network cfg} {O : Outside (Banking.lens cfg)}
    {t : CoordinatorTrace (Banking cfg) cfg}
    (h : Exchanged P key s) (hb : Books P env O s.store) (hrid : rid ∈ s.store.accepters)
    (htells : ∀ {body answer}, O.tells (.debit rid body) answer s →
      Banking.answers P net s (.debit rid body) answer)
    (hm : NoGhost.Move P env O rid t s s.store u') : Exchanged P key { s with store := u' } := by
  obtain ⟨hdebits, hreversals⟩ := hm.effect.sent
  have hrequest : ∀ i, (u'.heap i).request = (s.store.heap i).request := fun i => by
    rcases eq_or_ne i rid with rfl | hi
    · exact hm.request
    · rw [hm.heap_of_ne hi]
  refine h.store (fun i _ => hrequest i) (fun i d hd => ?_) (hm.books hrid hb).asked
    hdebits hreversals
  rw [hrequest]
  rcases eq_or_ne i rid with rfl | hi
  · rcases hm.paid with hsame | ⟨-, answer, htold, ⟨r, hr, hok, -⟩, hpaid⟩
    · exact h.debited i d (hsame.symm.trans hd)
    · obtain rfl : answer = r := Option.some.inj hr
      obtain rfl : answer.body P = d := Option.some.inj (hpaid.symm.trans hd)
      obtain ⟨e, he, hbody, -, hid⟩ := h.heard (htells htold) hok
      exact ⟨e, he, hbody, hid⟩
  · exact h.debited i d (by rwa [hm.heap_of_ne hi] at hd)

/-- An entry of the log keeps its confirmation as the log grows. -/
theorem grown {b b' : BankState} (hg : Grows b b') {e : DebitLogEntry} (he : e ∈ b.debitLog) :
    ∃ e' ∈ b'.debitLog, e'.debit = e.debit := by
  obtain ⟨i, hi⟩ := List.mem_iff_getElem?.mp he
  obtain ⟨e', he', hdebit, -⟩ := hg.entries i e hi
  exact ⟨e', List.mem_of_getElem? he', hdebit⟩

/-- The identifier that a debit request arrives with is that of its request. -/
theorem requestId_sent (request : GenerationRequest) :
    prop? (some (Js.sent (debitRequest request))) "requestId" = some (.str request.requestId) := by
  rw [prop?_some, debitRequest, get?_sent_object (by simp)]
  rfl

/-- A message is served, or the bank's mode changes, and the exchange stays in order. -/
theorem world {net : Network cfg} (h : Exchanged P key s) (hmoves : Banking.Moves P key net s s') :
    Exchanged P key s' ∧ SameBooks s.store s'.store := by
  cases hmoves with
  | quiet hq => exact ⟨h.sameBooks hq.sameBooks, hq.sameBooks⟩
  | @debit rid body random answer bank hsent hnew hfresh hserved _ =>
      refine ⟨?_, .refl _⟩
      have hr := hserved.replied
      obtain ⟨hledger, hgrows⟩ := hr.ledger h.ledger hfresh
      obtain rfl : body = debitRequest (s.store.heap rid).request := (h.asked _ hsent).2
      have hid : ∀ {e : DebitLogEntry}, prop? (some (Js.sent (debitRequest
          (s.store.heap rid).request))) "requestId" = some (.str e.debit.requestId) →
          e.debit.requestId = (s.store.heap rid).request.requestId := fun heq => by
        rw [requestId_sent] at heq
        simpa using heq.symm
      refine ⟨hledger, fun e he houtcome => ?_, h.asked, ?_, fun m hm => ?_, fun e he => ?_,
        fun i d hd => ?_, fun ref href => h.reversed ref (hr.reversedRefs ▸ href)⟩
      · rcases hr.new he with hold | ⟨-, -, hsigned⟩
        · exact h.signed e hold houtcome
        · exact hsigned houtcome
      · change ((s.debitReplies ++ [(rid, answer)]).map Prod.fst).Nodup
        rw [List.map_append]
        exact List.nodup_append.mpr ⟨h.once, List.nodup_singleton _, fun x hx y hy heq =>
          hnew (show rid ∈ _ from
            (show x = rid from heq.trans (List.mem_singleton.mp hy)) ▸ hx)⟩
      · rcases List.mem_append.mp hm with hold | hnew
        · obtain ⟨hmem, hok⟩ := h.replies m hold
          refine ⟨hmem, fun hstatus => ?_⟩
          obtain ⟨e, he, hbody, hreq⟩ := hok hstatus
          obtain ⟨e', he', hdebit⟩ := grown hgrows he
          exact ⟨e', he', by rw [hbody, hdebit], by rw [hdebit, hreq]⟩
        · obtain rfl := List.mem_singleton.mp hnew
          refine ⟨List.mem_map_of_mem (f := Prod.fst) hsent, fun hstatus => ?_⟩
          obtain ⟨e, he, hbody, hreq⟩ := hr.entry h.ledger hstatus
          exact ⟨e, he, hbody, hid hreq⟩
      · rcases hr.new he with hold | ⟨hbody, hreq, -⟩
        · obtain ⟨m, hm, hbody, hreq⟩ := h.served e hold
          exact ⟨m, List.mem_append_left _ hm, hbody, hreq⟩
        · exact ⟨_, List.mem_append_right _ (List.mem_singleton.mpr rfl), hbody, hid hreq⟩
      · obtain ⟨e, he, hbody, hreq⟩ := h.debited i d hd
        obtain ⟨e', he', hdebit⟩ := grown hgrows he
        exact ⟨e', he', by rw [hbody, hdebit], by rw [hdebit, hreq]⟩
  | @reverse rid debitRef answer bank hsent _ hserved =>
      refine ⟨?_, .refl _⟩
      obtain ⟨⟨hledger, hgrows⟩, hrefs, hentries⟩ := hserved.reversed h.ledger
      refine ⟨hledger, fun e' he' houtcome => ?_, h.asked, h.once, fun m hm => ?_, fun e' he' => ?_,
        fun i d hd => ?_, fun ref href => ?_⟩
      · obtain ⟨e, he, hdebit, heq, -⟩ := hentries e' he'
        rw [hdebit]
        exact h.signed e he (heq ▸ houtcome)
      · obtain ⟨hmem, hok⟩ := h.replies m hm
        refine ⟨hmem, fun hstatus => ?_⟩
        obtain ⟨e, he, hbody, hreq⟩ := hok hstatus
        obtain ⟨e', he', hdebit⟩ := grown hgrows he
        exact ⟨e', he', by rw [hbody, hdebit], by rw [hdebit, hreq]⟩
      · obtain ⟨e, he, hdebit, -⟩ := hentries e' he'
        rw [hdebit]
        exact h.served e he
      · obtain ⟨e, he, hbody, hreq⟩ := h.debited i d hd
        obtain ⟨e', he', hdebit⟩ := grown hgrows he
        exact ⟨e', he', by rw [hbody, hdebit], by rw [hdebit, hreq]⟩
      · rcases hrefs ref href with hold | rfl
        · exact h.reversed ref hold
        · exact ⟨rid, hsent⟩
  | mode mode now =>
      exact ⟨⟨(h.ledger.shift mode now).1, h.signed, h.asked, h.once, h.replies,
        h.served, h.debited,
        h.reversed⟩, .refl _⟩

end Exchanged

/-! ### Identifiers that come again -/

/-- Of two records of one identifier, one is rejected. -/
def Store.Apart (u : Store cfg) : Prop := ∀ i ∈ u.accepters, ∀ j ∈ u.accepters, i ≠ j →
  (u.heap i).request.requestId = (u.heap j).request.requestId →
    (u.heap i).status = .REJECTED ∨ (u.heap j).status = .REJECTED

/-- The records of an identifier are all rejected. -/
def Store.Spent (u : Store cfg) (x : String) : Prop :=
  ∀ i ∈ u.accepters, (u.heap i).request.requestId = x → (u.heap i).status = .REJECTED

/-- A request is made under an identifier whose records are rejected, unless it is known; and no
request in progress may yet be accepted under it. -/
def Afresh {σ : Type} (L : Lens σ (Store cfg)) (c : CoordinatorPool σ cfg)
    (req : CoordinatorRequest) : Prop :=
  ∀ x, req.requestId? = some x →
    ((∃ kind uuid watchdog, req = .scenario kind uuid watchdog) ∨
      (L.view c.state).getRequest x = none →
      (L.view c.state).Spent x) ∧
    ∀ p ∈ c.procs, p.Suspended → p.req.requestId? = some x →
      (L.view p.start).created ∈ (L.view c.state).accepters

section Afresh

variable {u u' : Store cfg} {rid i j : ℕ} {x : String}

/-- The same books have the same accepted records. -/
theorem SameBooks.records (hd : SameBooks u u') :
    u'.accepters = u.accepters ∧ ∀ i, u'.heap i = u.heap i :=
  ⟨congrArg (List.map Prod.fst) hd.accepted, fun _ => congrFun hd.heap _⟩

/-- Whether identifiers are apart is read off the books. -/
theorem SameBooks.apart (hd : SameBooks u u') (h : u.Apart) : u'.Apart := by
  obtain ⟨haccepters, hheap⟩ := hd.records
  intro i hi j hj
  rw [haccepters] at hi hj
  simp only [hheap]
  exact h i hi j hj

/-- Whether an identifier is spent is read off the books. -/
theorem SameBooks.spent (hd : SameBooks u u') (h : u.Spent x) : u'.Spent x := by
  obtain ⟨haccepters, hheap⟩ := hd.records
  intro i hi
  rw [haccepters] at hi
  simp only [hheap]
  exact h i hi

/-- A record that is made is the newest of the accepted ones. -/
theorem accepters_createRecord {request : GenerationRequest} :
    (u.createRecord rid request).accepters = rid :: u.accepters := by
  rw [Store.accepters, createRecord_eq]
  rfl

/-- A record for an identifier that is spent keeps the identifiers apart. -/
theorem Store.Apart.createRecord (h : u.Apart) {request : GenerationRequest}
    (hnew : rid ∉ u.accepters) (hspent : u.Spent request.requestId) :
    (u.createRecord rid request).Apart := by
  have hne : ∀ i ∈ u.accepters, i ≠ rid := fun i hi heq => hnew (heq ▸ hi)
  intro i hi j hj hij hid
  rw [accepters_createRecord, List.mem_cons] at hi hj
  rcases hi with rfl | hi <;> rcases hj with rfl | hj
  · exact absurd rfl hij
  · rw [heap_createRecord_self, heap_createRecord (hne j hj)] at hid
    rw [heap_createRecord (hne j hj)]
    exact .inr (hspent j hj hid.symm)
  · rw [heap_createRecord_self, heap_createRecord (hne i hi)] at hid
    rw [heap_createRecord (hne i hi)]
    exact .inl (hspent i hi hid)
  · rw [heap_createRecord (hne i hi), heap_createRecord (hne j hj)] at hid ⊢
    exact h i hi j hj hij hid

/-- A record for another identifier leaves an identifier spent. -/
theorem Store.Spent.createRecord (h : u.Spent x) {request : GenerationRequest}
    (hnew : rid ∉ u.accepters) (hne : request.requestId ≠ x) :
    (u.createRecord rid request).Spent x := by
  intro i hi hid
  rw [accepters_createRecord, List.mem_cons] at hi
  rcases hi with rfl | hi
  · rw [heap_createRecord_self] at hid
    exact absurd hid hne
  · have hi' : i ≠ rid := fun heq => hnew (heq ▸ hi)
    rw [heap_createRecord hi'] at hid ⊢
    exact h i hi hid

section Moves

variable {σ : Type} {L : Lens σ (Store cfg)} {O : Outside L} {t : CoordinatorTrace σ cfg} {s : σ}

/-- A record that is rejected stays so. -/
theorem Move.rejected (hm : Move P env O rid t s u u') (h : (u.heap i).status = .REJECTED) :
    (u'.heap i).status = .REJECTED := by
  rw [hm.heap_of_ne fun heq => hm.alive (heq ▸ h ▸ by decide)]
  exact h

/-- A move adds no record, and keeps every request. -/
theorem Move.records (hm : Move P env O rid t s u u') :
    u'.accepters = u.accepters ∧ ∀ i, (u'.heap i).request = (u.heap i).request := by
  refine ⟨congrArg (List.map Prod.fst) hm.effect.table.accepted, fun i => ?_⟩
  rcases eq_or_ne i rid with rfl | hi
  · exact hm.request
  · rw [hm.heap_of_ne hi]

/-- A move keeps the identifiers apart, since what is rejected stays so. -/
theorem Move.apart (hm : Move P env O rid t s u u') (h : u.Apart) : u'.Apart := by
  obtain ⟨haccepters, hrequest⟩ := hm.records
  intro i hi j hj hij hid
  rw [haccepters] at hi hj
  rw [hrequest, hrequest] at hid
  exact (h i hi j hj hij hid).imp hm.rejected hm.rejected

/-- A move leaves an identifier spent. -/
theorem Move.spent (hm : Move P env O rid t s u u') (h : u.Spent x) : u'.Spent x := by
  obtain ⟨haccepters, hrequest⟩ := hm.records
  intro i hi hid
  rw [haccepters] at hi
  rw [hrequest] at hid
  exact hm.rejected (h i hi hid)

/-- What is charged is not rejected. -/
theorem Phase.charged_alive {r : PipelineRecord cfg} {e : Deeds} (h : Phase P env O i t r e)
    (hch : (⟨r, e⟩ : Account cfg).Charged) : r.status ≠ .REJECTED := by
  intro hrejected
  rcases hch with ⟨-, hne⟩ | hreversals
  · exact hne hrejected
  · cases h with
    | idle | asked => exact hreversals rfl
    | @running k _ _ _ _ h _ =>
        have hk := h.status
        rw [hrejected] at hk
        have hmem := List.mem_of_getElem? hk
        simp [CHAIN] at hmem
    | rejected _ _ _ _ he => rcases he with rfl | rfl <;> exact hreversals rfl
    | abandoned _ _ hstatus => cases hrejected.symm.trans hstatus

end Moves

end Afresh

/-! ### Spent or refunded -/

/-- What the bank and the network do is not about the books of the coordinator. -/
theorem Banking.Moves.sameBooks {net : Network cfg} {s s' : Banking cfg}
    (h : Banking.Moves P key net s s') : SameBooks s.store s'.store := by
  cases h with
  | quiet hq => exact hq.sameBooks
  | debit | reverse | mode => exact .refl _

/-- The system, with identifiers that come again after rejections only. -/
def Setting.afresh (P : Platform) (key : BankKey) (net : Network cfg) : Setting cfg (Banking cfg) :=
  { Setting.banking P key net with
    extra := fun s => s.store.Apart ∧ Exchanged P key s
    fit := fun s x => s.store.Spent x
    strict := True }

/-- Such a setting is valid: what is known of bank and network is kept by every kind of step. -/
theorem Setting.afresh_valid {net : Network cfg} : (Setting.afresh P key net).Valid P env where
  free hstrict := absurd trivial hstrict
  sameBooks hextra hd := ⟨hd.apart hextra.1, hextra.2.sameBooks hd⟩
  accept _ hextra hnew hfit := ⟨hextra.1.createRecord hnew hfit, hextra.2.createRecord hnew⟩
  move hb hextra hrid hm := ⟨hm.apart hextra.1, hextra.2.move hb hrid id hm⟩
  world hextra hmoves := by
    obtain ⟨h, hd⟩ := hextra.2.world hmoves
    exact ⟨⟨hd.apart hextra.1, h⟩, hd⟩
  fit_sameBooks hfit hd := hd.spent hfit
  fit_accept _ hnew hfit hne := hfit.createRecord hnew hne
  fit_move _ hfit _ hm := hm.spent hfit
  fit_world hfit hmoves := hmoves.sameBooks.spent hfit

/-- The game of the coordinator and its bank, over such a network. -/
abbrev bankingGame (P : Platform) (env : CoordinatorEnv cfg) (key : BankKey) (net : Network cfg) :=
  (Setting.banking P key net).game P env

/-- A run that has dispensed a token has charged the debit of the token, and has not asked for its
reversal. -/
theorem Phase.dispenser {σ : Type} {L : Lens σ (Store cfg)} {O : Outside L} {i : ℕ}
    {t : CoordinatorTrace σ cfg} {r : PipelineRecord cfg} {e : Deeds} (h : Phase P env O i t r e)
    {token : Token} (hmem : token ∈ e.dispensed) : e.reversals = [] ∧ token ∈ e.redemptions := by
  cases h with
  | idle | asked => cases hmem
  | running _ hfits =>
      rw [Deeds.of, Option.mem_toList] at hmem
      rcases hfits.dispensed_eq with hnone | ⟨htoken, hredeemed, -, hreversal⟩
      · cases hnone.symm.trans hmem
      · refine ⟨by rw [Deeds.of, hreversal]; rfl, ?_⟩
        rw [Deeds.of, Option.mem_toList, hredeemed, ← htoken]
        exact hmem
  | rejected _ _ _ _ he => rcases he with rfl | rfl <;> cases hmem
  | abandoned => cases hmem

/-- A run that has asked for a reversal has a debit of that reference. -/
theorem Phase.reverser {σ : Type} {L : Lens σ (Store cfg)} {O : Outside L} {i : ℕ}
    {t : CoordinatorTrace σ cfg} {r : PipelineRecord cfg} {e : Deeds} (h : Phase P env O i t r e)
    {ref : String} (hmem : ref ∈ e.reversals) : ReverseRef P r ref := by
  cases h with
  | idle | asked => exact nomatch hmem
  | running _ hfits | abandoned _ _ _ _ hfits =>
      rw [Deeds.of, Option.mem_toList] at hmem
      exact (hfits.of_reversal ref hmem).2
  | rejected _ _ _ _ he => rcases he with rfl | rfl <;> exact nomatch hmem

/-- What holds wherever such a system comes to. -/
theorem afresh_sound {net : Network cfg} {now : String} {randomBytes : Bytes}
    {c : CoordinatorPool (Banking cfg) cfg} (h : (bankingGame P env key net).Reaches
      (Afresh (Banking.lens cfg)) (.boot cfg now randomBytes) c) :
    Books P env ((Setting.afresh P key net).outside P) c.state.store ∧ c.state.store.Apart ∧
      Exchanged P key c.state := by
  have hinv := (Setting.sound (S := Setting.afresh P key net) Setting.afresh_valid
    (Setting.inv_boot rfl ⟨fun _ hi => absurd hi List.not_mem_nil, .boot now randomBytes⟩)
    (fun c req _ hafresh => ⟨fun x hx hnew => (hafresh x hx).1 hnew,
      fun _ p hp hsusp x hx hpx => (hafresh x hx).2 p hp hsusp hpx⟩) h).inv
  exact ⟨hinv.books, hinv.extra⟩

/-- **Spent or refunded.** However messages are lost or late and runs fail or interleave: as long as
an identifier comes again after rejections only, no debit for which a token was dispensed is
reversed at the bank. -/
theorem spent_or_refunded {now : String} {randomBytes : Bytes}
    {c : CoordinatorPool (Banking cfg) cfg}
    (h : (bankingGame P env key .any).Reaches (Afresh (Banking.lens cfg))
      (.boot cfg now randomBytes) c) :
    ∀ p ∈ c.state.store.dispensed, ∀ e ∈ c.state.bank.debitLog,
      p.2.debitRef = some (.str e.debit.debitRef) → e.reversed = false := by
  obtain ⟨hb, hapart, hexchanged⟩ := afresh_sound h
  rintro ⟨i, token⟩ hspent e he href
  by_contra hreversed
  rw [Bool.not_eq_false] at hreversed
  -- the run on `i` has dispensed the token, the run on `j` has asked for the reversal
  obtain ⟨j, hj⟩ := hexchanged.reversed _ ((hexchanged.ledger.reversed _).mpr
    ⟨e, he, rfl, hreversed⟩)
  obtain ⟨t, hphase⟩ := hb.phase i
  obtain ⟨t', hphase'⟩ := hb.phase j
  have hmem : token ∈ (c.state.store.deeds i).dispensed := mem_ofRun.mpr hspent
  have hmem' : e.debit.debitRef ∈ (c.state.store.deeds j).reversals := mem_ofRun.mpr hj
  obtain ⟨hunreversed, hredeemed⟩ := hphase.dispenser hmem
  obtain ⟨hcharged, -, d, hd, hpayload⟩ := hphase.redeemer hredeemed
  have hcharged' : (c.state.store.account j).Charged := .inr (List.ne_nil_of_mem hmem')
  obtain ⟨d', hd', -⟩ := hphase'.debited hcharged'
  have hdref : d.get? "debitRef" = some (.str e.debit.debitRef) :=
    (buildTokenPayload_ok hpayload).2.2.symm.trans href
  have hdref' : d'.get? "debitRef" = some (.str e.debit.debitRef) := by
    obtain ⟨e', -, rfl, -⟩ := hexchanged.debited j d' hd'
    obtain ⟨-, htext⟩ := hphase'.reverser hmem'
    rw [hd', prop?_some, e'.debit.get?_debitRef] at htext
    rw [e'.debit.get?_debitRef, show e'.debit.debitRef = _ from Except.ok.inj htext]
  have hid := hb.claims.apart hcharged hcharged' hd hd' (by rw [hdref, hdref', beq_ref_str])
  obtain rfl : i = j := by
    by_contra hij
    rcases hapart i (hb.ownRecords.mem_of_charged hcharged) j
      (hb.ownRecords.mem_of_charged hcharged')
      hij hid with
      hrejected | hrejected
    · exact hphase.charged_alive hcharged hrejected
    · exact hphase'.charged_alive hcharged' hrejected
  rw [hunreversed] at hmem'
  cases hmem'

/-! ### A purchase that is made again -/

section Again

variable {u : Store cfg} {rid : ℕ} {request : GenerationRequest}

variable (P env u rid request) in
/-- A run that finds enough signers online asks the bank, and goes on when it confirms. -/
theorem settle_preflightRest (active : List (SignerInfo cfg.SignerId))
    (answers : cfg.SignerId → Option HttpResult) (honline : cfg.t ≤
      (sortByIdentifier (active.filter fun i => signerIsOnline P (answers i.signerId))).length) :
    ∃ k : Option HttpResult → CoordinatorProg cfg Unit,
      (preflightRest P env rid request active answers).settle u =
        (.await (.debit rid (debitRequest request)) k,
          (u.setStage rid .WALL_1_BANK).requestDebit rid (debitRequest request)) ∧
      ∀ (r : HttpResult) (v : Store cfg), r.ok = true → (k (some r)).settle v =
        (confirmed P env rid request (r.body P)).settle (v.updateBankHealth true) := by
  refine ⟨?k, ?hasks, ?hgoes⟩
  case hasks =>
    rw [preflightRest]
    simp only [if_neg (Nat.not_lt.mpr honline)]
    rfl
  case hgoes =>
    intro r v hok
    change Prog.settle (if !r.ok then _ else _ : CoordinatorProg cfg Unit) _ = _
    rw [hok]
    rfl

/-- A publication that fails raises, with the reason that the ledger gave. -/
theorem settle_publishOnChain {publisher : String} {encKey : Bytes}
    {manifest : ConsortiumManifest cfg} (hpublisher : env.publisherWallet = some publisher)
    (hmanifest : env.manifest = .ok manifest) (hkey : env.encKey = .ok encKey) :
    ∃ (tx : Tx) (k : Except String String → CoordinatorProg cfg Publication),
      (publishOnChain P env rid).settle u = (.await (.publish tx) k, u) ∧
      ∀ e, k (.error e) = .throw e := by
  set body := (u.heap rid).request.toJson with hbody
  set requestHash := hashValue P (some body) with hhash
  refine ⟨requestTx P publisher (packRequest P encKey u.randomBytes requestHash
      (object [("request", some body), ("debit", (u.heap rid).debit)])), fun answer => do
    let txHash ← Prog.ofExcept answer
    pure ⟨requestHash, txHash⟩, ?_, fun e => rfl⟩
  rw [publishOnChain, hpublisher]
  dsimp only
  rw [hmanifest, hkey]
  rfl

variable (rid) in
/-- A confirmation that verifies and is not claimed by another request leads to the publication. -/
theorem settle_confirmed {d : Json} {ref : String} {amount publisher : String} {encKey : Bytes}
    {manifest : ConsortiumManifest cfg} (hverified : verifyAttestation P env d = true)
    (hid : d.get? "requestId" = some (.str request.requestId))
    (hclaim : ∀ owner, u.consumedDebitRefs.get (d.get? "debitRef") = some owner →
      owner = request.requestId)
    (href : toStr P.numeral (d.get? "debitRef") = .ok ref)
    (hamount : toStr P.numeral (d.get? "amount") = .ok amount)
    (hpublisher : env.publisherWallet = some publisher) (hmanifest : env.manifest = .ok manifest)
    (hkey : env.encKey = .ok encKey) :
    ∃ (tx : Tx) (k : Except String String → CoordinatorProg cfg Unit) (v : Store cfg),
      (confirmed P env rid request d).settle u = (.await (.publish tx) k, v) ∧
      v.dispensed = u.dispensed ∧ (v.heap rid).debit = some d ∧
      ∀ e w, (k (.error e)).settle w =
        (abandon P rid .LEDGER ("PUBLISH_FAILED: " ++ e) "xrpl-testnet").settle w := by
  set debitRef := d.get? "debitRef" with hdebitRef
  set u₁ := (u.recordDebitAttempt true).update rid (fun r => { r with debit := some d }) with hu₁
  set u₂ : Store cfg :=
    { u₁ with consumedDebitRefs := u₁.consumedDebitRefs.set debitRef request.requestId } with hu₂
  set note := "debitRef " ++ ref ++ " · R" ++ amount ++ " confirmed & verified" with hnote
  set u₃ := u₂.transition rid .DEBIT_CONFIRMED note with hu₃
  have hclaimed : u₁.claimDebitRef debitRef request.requestId = (none, u₂) := by
    rcases claimDebitRef_cases debitRef request.requestId u₁ with ⟨owner, -, hget, -, hne⟩
      | ⟨heq, -⟩
    · exact absurd (hclaim owner hget) hne
    · exact heq
  have hstep := rewrites_transition (show RequestStatus.DEBIT_CONFIRMED ≠ .DELIVERED by decide)
    rid note u₂
  have hsettle : (confirmed P env rid request d).settle u = (publish P env rid).settle u₃ := by
    have hguard : (!verifyAttestation P env d ||
        !strictEq (d.get? "requestId") (some (.str request.requestId))) = false := by
      rw [hverified, strictEq_str.mpr hid]
      rfl
    rw [confirmed, hguard, if_neg Bool.false_ne_true,
      Prog.settle_bind_ret (a := ()) (t := u.recordDebitAttempt true) _ rfl,
      Prog.settle_bind_ret (a := ()) (t := u₁) _ rfl, claimDebit]
    have hclaims : (Prog.modifyGet (Store.claimDebitRef debitRef request.requestId) :
        CoordinatorProg cfg (Option String)).settle u₁ = (.ret none, u₂) := by
      change (Prog.ret (Store.claimDebitRef debitRef request.requestId u₁).1,
        (Store.claimDebitRef debitRef request.requestId u₁).2) = _
      rw [hclaimed]
    rw [← hdebitRef, Prog.settle_bind_ret _ hclaims, href, hamount]
    rfl
  rw [hsettle, publish,
    Prog.settle_bind_ret (a := ()) (t := u₃.setStage rid .LEDGER) _ rfl]
  obtain ⟨tx, k, hasks, hfails⟩ := settle_publishOnChain (u := u₃.setStage rid .LEDGER) hpublisher
    hmanifest hkey
  refine ⟨tx, _, _, Prog.settle_bind_await _ (Prog.settle_tryCatch_await _
    (Prog.settle_bind_await _ hasks)), congrArg Common.dispensed hstep.common, ?_, fun e w => ?_⟩
  · change (u₃.heap rid).debit = some d
    rw [hstep.own]
    simp [hu₂, hu₁, Store.update, Store.moved]
  · rw [hfails]
    rfl

variable (P u rid) in
/-- A run that is abandoned asks for the reversal of its debit. -/
theorem settle_abandon (wall : Wall) (reason attribution : String) {ref : String}
    (href : prop? (u.heap rid).debit "debitRef" = some (.str ref)) (hne : ref ≠ "") :
    ∃ k : Option HttpResult → CoordinatorProg cfg Unit,
      (abandon P rid wall reason attribution).settle u =
        (.await (.reverse rid ref) k, u.requestReversal rid ref) := by
  have hreverse : (reverseDebit P rid (some (.str ref)) : CoordinatorProg cfg Bool).settle u =
      (.await (.reverse rid ref) fun r => pure (Option.any (·.ok) r),
        u.requestReversal rid ref) := rfl
  have htruthy : truthy (some (.str ref)) = true := by
    simpa [truthy, Json.truthy] using hne
  rw [abandon, Prog.settle_bind_ret (a := u.heap rid) (t := u) _ rfl]
  dsimp only
  rw [href, if_pos htruthy]
  exact ⟨_, Prog.settle_bind_await _ hreverse⟩

/-- Answers, of which the one to a debit request is replaced. -/
def debitAnswered (r : Option HttpResult) (answer : (q : CoordinatorCall cfg) → q.Answer) :
    (q : CoordinatorCall cfg) → q.Answer
  | .debit _ _ => r
  | q => answer q

/-- Answers, of which the one to a publication is replaced. -/
def publishFailed (message : String) (answer : (q : CoordinatorCall cfg) → q.Answer) :
    (q : CoordinatorCall cfg) → q.Answer
  | .publish _ => (.error message : Except String String)
  | q => answer q

variable (P env key) in
/-- The handler that a pool has added last is the run on `rid`, which is suspended as `p`. -/
def Suspended (s st : Banking cfg) (rid : ℕ) (p : CoordinatorProg cfg Unit) : Prop :=
  ∃ ps req start k, (bankingGame P env key .any).Reaches (fun _ _ => True) s
    ⟨st, ps ++ [⟨req, start, wrapped P rid p >>= k⟩]⟩

section Suspended

variable {s st : Banking cfg} {e : DebitLogEntry}

/-- The call of a suspended run is answered, and it goes on to the next one. -/
theorem Suspended.resume {q q' : CoordinatorCall cfg} {k : q.Answer → CoordinatorProg cfg Unit}
    {k' : q'.Answer → CoordinatorProg cfg Unit} {u' : Store cfg}
    (h : Suspended P env key s st rid (.await q k)) (answer : (q : CoordinatorCall cfg) → q.Answer)
    (hanswer : Banking.answers P .any st q (answer q))
    (hset : (k (answer q)).settle st.store = (.await q' k', u')) :
    Suspended P env key s { st with store := u' } rid (.await q' k') := by
  obtain ⟨ps, req, start, g, hreach⟩ := h
  exact ⟨ps, req, start, g, hreach.resume_last answer hanswer
    (Prog.settle_bind_await _ (settle_wrapped_await hset))⟩

/-- The bank moves meanwhile, and the run is still suspended. -/
theorem Suspended.world {p : CoordinatorProg cfg Unit} {st' : Banking cfg}
    (h : Suspended P env key s st rid p) (hmove : Banking.Moves P key .any st st') :
    Suspended P env key s st' rid p := by
  obtain ⟨ps, req, start, g, hreach⟩ := h
  exact ⟨ps, req, start, g, hreach.world hmove⟩

/-- A handler that is not there yet has no answer of the bank. -/
theorem Exchanged.unreplied (h : Exchanged P key st) (hrecords : OwnRecords st.store)
    (hnew : st.store.created ≤ rid) : rid ∉ st.debitReplies.map (·.1) := fun hmem => by
  obtain ⟨m, hm, heq⟩ := List.mem_map.mp hmem
  obtain ⟨m', hm', heq'⟩ := List.mem_map.mp (h.replies m hm).1
  obtain ⟨x, hx⟩ := mem_accepters.mp (h.asked m' hm').1
  have hlt := hrecords.lt _ hx
  dsimp only at hlt heq heq'
  omega

/-- **A request that comes again** after a flood is made again, and its run asks the bank for the
debit a second time, under the same identifier. -/
theorem asked_again {c : CoordinatorPool (Banking cfg) cfg}
    (h : (bankingGame P env key .any).Reaches (fun _ _ => True) s c)
    (hf : Floodable 0 c.state.store) (hnd : c.state.store.acceptedIds.Nodup) {body : Option Json}
    {uuid : String} {fields : RequestFields} {merchant : Merchant}
    (hfields : requestFields (bodyOrEmpty body) uuid = .ok fields)
    (hid : ∀ k, fields.requestId ≠ floodId k)
    (hmerchantId : ∀ k, trim fields.merchantId ≠ floodId k)
    (hhits : ((c.state.store.merchantHits.get (trim fields.merchantId)).getD []).length <
      RATE_MAX_PER_WINDOW)
    (hmerchant : c.state.store.getMerchant (trim fields.merchantId) = some merchant)
    (hrevoked : merchant.revoked = false) (answer : (q : CoordinatorCall cfg) → q.Answer)
    (honline : cfg.t ≤ (sortByIdentifier (c.state.store.active.filter fun i =>
      signerIsOnline P ((answer (.health c.state.store.active) :
        cfg.SignerId → Option HttpResult) i.signerId))).length) :
    ∃ (rid : ℕ) (u : Store cfg) (now : String)
      (k : Option HttpResult → CoordinatorProg cfg Unit),
      c.state.store.created ≤ rid ∧ u.consumedDebitRefs = c.state.store.consumedDebitRefs ∧
        u.dispensed = c.state.store.dispensed ∧
        (rid, debitRequest (fields.request now)) ∈ u.debitRequests ∧
        (∀ (r : HttpResult) (v : Store cfg), r.ok = true → (k (some r)).settle v =
          (confirmed P env rid (fields.request now) (r.body P)).settle (v.updateBankHealth true)) ∧
        Suspended P env key s { c.state with store := u } rid
          (.await (.debit rid (debitRequest (fields.request now))) k) := by
  obtain ⟨u', hits, ps, hflooded, -, hreach⟩ :=
    resubmitted h hf hnd hfields hid hmerchantId hhits hmerchant hrevoked
  change Flooded REQUEST_CAP c.state.store u' at hflooded
  set request := fields.request u'.now with hrequest
  set u₃ := u'.asking hits request with hu₃
  have huntouched : u₃.untouched = c.state.store.untouched := by
    rw [← hflooded.untouched, hu₃, Store.asking, createRecord_eq]
    rfl
  have hactive : u₃.active = c.state.store.active := by
    unfold Store.active Store.isMemberActive
    rw [show u₃.members = c.state.store.members from congrArg Untouched.members huntouched]
  obtain ⟨k, hasks, hgoes⟩ := settle_preflightRest P env u₃ u'.created request u₃.active
    (answer (.health u₃.active) : cfg.SignerId → Option HttpResult) (by rw [hactive]; exact honline)
  set u₄ := (u₃.setStage u'.created .WALL_1_BANK).requestDebit u'.created (debitRequest request)
    with hu₄
  have hpolling : Suspended P env key s { c.state with store := u₃ } u'.created
      (.await (.health u₃.active) (preflightRest P env u'.created request u₃.active)) :=
    ⟨_, _, _, _, hreach⟩
  have hasked : Suspended P env key s { c.state with store := u₄ } u'.created
      (.await (.debit u'.created (debitRequest request)) k) :=
    hpolling.resume answer trivial hasks
  have hnew : c.state.store.created ≤ u'.created := by
    have := hflooded.created
    omega
  refine ⟨u'.created, u₄, u'.now, k, hnew, ?_, ?_, ?_, hgoes, hasked⟩
  · exact congrArg Untouched.consumedDebitRefs huntouched
  · exact congrArg Untouched.dispensed huntouched
  · exact List.mem_append_right _ (List.mem_singleton.mpr rfl)

/-- The bank returns the confirmation that it has, and the run publishes its request. -/
theorem Suspended.confirmed_again {k : Option HttpResult → CoordinatorProg cfg Unit}
    (h : Suspended P env key s st rid (.await (.debit rid (debitRequest request)) k))
    (hgoes : ∀ (r : HttpResult) (v : Store cfg), r.ok = true → (k (some r)).settle v =
      (confirmed P env rid request (r.body P)).settle (v.updateBankHealth true))
    (hsent : (rid, debitRequest request) ∈ st.store.debitRequests)
    (hnew : rid ∉ st.debitReplies.map (·.1)) (hfresh : debitRefOf [] ∉ st.bank.debitRefs)
    (hledger : Ledger st.bank) (hnamed : request.requestId ≠ "") (hmeter : request.meterId ≠ "")
    (he : e ∈ st.bank.debitLog) (hentry : e.debit.requestId = request.requestId)
    (hsigned : e.debit.bankSignature = signDebitPayload P key e.debit.toDebitSignedPayload)
    (hclaims : ∀ owner, st.store.consumedDebitRefs.get ((sent e.debit.toJson).get? "debitRef") =
      some owner → owner = request.requestId)
    (answer : (q : CoordinatorCall cfg) → q.Answer) {publisher : String} {encKey : Bytes}
    {manifest : ConsortiumManifest cfg} (hbank : env.BANK_PUBLIC_KEY = key.publicKey P)
    (hpublisher : env.publisherWallet = some publisher) (hmanifest : env.manifest = .ok manifest)
    (hkey : env.encKey = .ok encKey) :
    ∃ (tx : Tx) (k' : Except String String → CoordinatorProg cfg Unit) (v : Store cfg)
      (replies : List (ℕ × Response)),
      v.dispensed = st.store.dispensed ∧ (v.heap rid).debit = some (sent e.debit.toJson) ∧
        (∀ message w, (k' (.error message)).settle w =
          (abandon P rid .LEDGER ("PUBLISH_FAILED: " ++ message) "xrpl-testnet").settle w) ∧
        Suspended P env key s { st with store := v, debitReplies := replies } rid
          (.await (.publish tx) k') := by
  obtain ⟨amount, -, hbody⟩ := debitRequestOf_sent request hnamed hmeter
  have hserved := h.world (.debit hsent hnew hfresh
    (.atOnce (settle_postDebit_again hledger hbody he hentry)) trivial)
  have hverified : verifyAttestation P env (sent e.debit.toJson) = true := by
    rw [verifyAttestation, hbank]
    exact e.debit.verified_confirmation hsigned
  obtain ⟨tx, k', v, hpublishes, hdispensed, hdebit, hfails⟩ :=
    settle_confirmed (u := st.store.updateBankHealth true) rid hverified
      (e.debit.get?_requestId.trans (by rw [hentry])) hclaims
      (by rw [e.debit.get?_debitRef]; rfl) (by rw [e.debit.get?_amount]; rfl)
      hpublisher hmanifest hkey
  refine ⟨tx, k', v, _, hdispensed, hdebit, hfails, hserved.resume
    (debitAnswered (some ((Response.json e.debit.toJson).arrived P)) answer)
    (.inr ⟨_, List.mem_append_right _ (List.mem_singleton.mpr rfl), rfl⟩) ?_⟩
  change (k (some ((Response.json e.debit.toJson).arrived P))).settle st.store = _
  rw [hgoes _ _ rfl, body_arrived]
  exact hpublishes

/-- The publication fails, and the run has the bank reverse the debit. -/
theorem Suspended.refunded {tx : Tx} {k : Except String String → CoordinatorProg cfg Unit}
    (h : Suspended P env key s st rid (.await (.publish tx) k))
    (hdebit : (st.store.heap rid).debit = some (sent e.debit.toJson)) {message : String}
    (hfails : ∀ w, (k (.error message)).settle w =
      (abandon P rid .LEDGER ("PUBLISH_FAILED: " ++ message) "xrpl-testnet").settle w)
    (href : e.debit.debitRef ≠ "") (hledger : Ledger st.bank) (hunreplied : st.reverseReplies = [])
    (he : e ∈ st.bank.debitLog) (hreversed : e.reversed = false)
    (answer : (q : CoordinatorCall cfg) → q.Answer) :
    ∃ c' : CoordinatorPool (Banking cfg) cfg,
      (bankingGame P env key .any).Reaches (fun _ _ => True) s c' ∧
      c'.state.store.dispensed = st.store.dispensed ∧
      ∃ e' ∈ c'.state.bank.debitLog, e'.debit = e.debit ∧ e'.reversed = true := by
  obtain ⟨k', hreverses⟩ := settle_abandon P st.store rid .LEDGER ("PUBLISH_FAILED: " ++ message)
    "xrpl-testnet" (by rw [hdebit, prop?_some, e.debit.get?_debitRef]) href
  have hasked := h.resume (publishFailed message answer) trivial ((hfails st.store).trans hreverses)
  obtain ⟨i, hi⟩ := List.mem_iff_getElem?.mp he
  obtain ⟨ps, req, start, g, hreach⟩ := hasked.world (.reverse
    (List.mem_append_right _ (List.mem_singleton.mpr rfl))
    (by rw [hunreplied]; exact List.not_mem_nil)
    (.atOnce (settle_postReverse hledger hi hreversed)))
  refine ⟨_, hreach, rfl, { e with reversed := true }, List.mem_iff_getElem?.mpr ⟨i, ?_⟩, rfl, rfl⟩
  change (st.bank.debitLog.modify i _)[i]? = _
  rw [List.getElem?_modify, hi]
  simp

end Suspended

/-- **A purchase that is made again** after a flood, and cannot be published this time, is refunded,
although its token was spent. -/
theorem refunded {s : Banking cfg} {c : CoordinatorPool (Banking cfg) cfg}
    (h : (bankingGame P env key .any).Reaches (fun _ _ => True) s c)
    (hexchanged : Exchanged P key c.state) (hf : Floodable 0 c.state.store)
    (hnd : c.state.store.acceptedIds.Nodup) {body : Option Json} {uuid : String}
    {fields : RequestFields} {merchant : Merchant}
    (hfields : requestFields (bodyOrEmpty body) uuid = .ok fields)
    (hid : ∀ k, fields.requestId ≠ floodId k)
    (hmerchantId : ∀ k, trim fields.merchantId ≠ floodId k)
    (hhits : ((c.state.store.merchantHits.get (trim fields.merchantId)).getD []).length <
      RATE_MAX_PER_WINDOW)
    (hmerchant : c.state.store.getMerchant (trim fields.merchantId) = some merchant)
    (hrevoked : merchant.revoked = false) (hnamed : fields.requestId ≠ "")
    (hmeter : trim fields.meterId ≠ "") (answer : (q : CoordinatorCall cfg) → q.Answer)
    (message : String)
    (honline : cfg.t ≤ (sortByIdentifier (c.state.store.active.filter fun i =>
      signerIsOnline P ((answer (.health c.state.store.active) :
        cfg.SignerId → Option HttpResult) i.signerId))).length)
    {publisher : String} {encKey : Bytes} {manifest : ConsortiumManifest cfg}
    (hbank : env.BANK_PUBLIC_KEY = key.publicKey P)
    (hpublisher : env.publisherWallet = some publisher)
    (hmanifest : env.manifest = .ok manifest) (hkey : env.encKey = .ok encKey)
    {e : DebitLogEntry} (he : e ∈ c.state.bank.debitLog) (hreversed : e.reversed = false)
    (houtcome : e.outcome = .CONFIRMED) (hentry : e.debit.requestId = fields.requestId)
    (href : e.debit.debitRef ≠ "") (hfresh : debitRefOf [] ∉ c.state.bank.debitRefs)
    (hclaims : ∀ ref owner, c.state.store.consumedDebitRefs.get ref = some owner →
      owner = fields.requestId) (hrecords : OwnRecords c.state.store)
    (hunreplied : c.state.reverseReplies = []) :
    ∃ c' : CoordinatorPool (Banking cfg) cfg,
      (bankingGame P env key .any).Reaches (fun _ _ => True) s c' ∧
      c'.state.store.dispensed = c.state.store.dispensed ∧
      ∃ e' ∈ c'.state.bank.debitLog, e'.debit = e.debit ∧ e'.reversed = true := by
  obtain ⟨rid, u, now, k, hnew, hconsumed, hdispensed, hsent, hgoes, hasked⟩ :=
    asked_again h hf hnd hfields hid hmerchantId hhits hmerchant hrevoked answer honline
  obtain ⟨tx, k', v, replies, hdispensed', hdebit, hfails, hpublishes⟩ :=
    hasked.confirmed_again hgoes hsent (hexchanged.unreplied hrecords hnew) hfresh hexchanged.ledger
      hnamed hmeter he hentry (hexchanged.signed e he houtcome)
      (fun owner hget => hclaims _ owner (hconsumed ▸ hget)) answer hbank hpublisher hmanifest hkey
  obtain ⟨c', hreach, hkept, hrefunded⟩ := hpublishes.refunded hdebit (hfails message) href
    hexchanged.ledger hunreplied he hreversed answer
  exact ⟨c', hreach, hkept.trans (hdispensed'.trans hdispensed), hrefunded⟩

end Again

/-! ### A small purchase, with the bank -/

namespace Small

/-- The bank serves the one debit request that there is. -/
def serveDebit (s : Banking config) : Banking config :=
  match s.store.debitRequests with
  | [(rid, body)] =>
      match (postDebit platform bankSecret (some (sent body)) [1, 2, 3, 4, 5, 6]).settle s.bank with
      | (.ret answer, bank) => { s with bank, debitReplies := [(rid, answer)] }
      | _ => s
  | _ => s

/-- The services at work, and what the bank has answered. -/
def told (s : Banking config) : (q : CoordinatorCall config) → q.Answer
  | .debit rid _ => ((s.debitReplies.lookup rid).map (·.arrived platform) : Option HttpResult)
  | .reverse _ _ => (none : Option HttpResult)
  | q => working q

/-- The coordinator with its bank, as the run asks for the debit. -/
def asked : CoordinatorPool (Banking config) config :=
  (bankingGame platform coordinatorEnv bankSecret .any).play
    ⟨.boot config "2025-01-01T00:00:00.000Z" [], []⟩
    [.spawn shopping, .resume 0 (told (.boot config "2025-01-01T00:00:00.000Z" []))]

/-- The bank has confirmed, and the purchase is delivered. -/
def charged : CoordinatorPool (Banking config) config :=
  (bankingGame platform coordinatorEnv bankSecret .any).play asked
    (.world (serveDebit asked.state) :: List.replicate 15
      (.resume 0 (told (serveDebit asked.state))))

/-- A purchase is delivered, and the bank has its debit. -/
abbrev Sold (s : Banking config) : Prop :=
  s.store.accepted = [(0, "REQ-1")] ∧ s.store.merchantHits = [("MER-001", [0])] ∧
    s.store.merchants = Store.seededMerchants ∧
    config.t ≤ (sortByIdentifier (s.store.active.filter fun i => signerIsOnline platform
      ((working (.health s.store.active) : SignerId → Option HttpResult) i.signerId))).length ∧
    s.store.dispensed.any (fun p => strictEq p.2.debitRef (some (.str "DBT-010203040506"))) = true ∧
    s.bank.debitLog.map (fun e => (e.debit.debitRef, e.debit.requestId, e.reversed, e.outcome)) =
      [("DBT-010203040506", "REQ-1", false, .CONFIRMED)] ∧ s.reverseReplies.length = 0

end Small

/-- Only the world has to do with the bank: the handlers of the coordinator write its store alone.
-/
theorem bank_act {net : Network cfg} {c : CoordinatorPool (Banking cfg) cfg}
    {a : Action (Banking cfg) (CoordinatorCall cfg) CoordinatorCall.Answer CoordinatorRequest}
    (ha : ∀ s, a ≠ .world s) :
    let c' := (bankingGame P env key net).act c a
    c'.state.bank = c.state.bank ∧ c'.state.debitReplies = c.state.debitReplies ∧
      c'.state.reverseReplies = c.state.reverseReplies := by
  cases a with
  | spawn req => exact ⟨rfl, rfl, rfl⟩
  | resume i answer =>
      intro c'
      simp only [c', Game.act]
      split <;> exact ⟨rfl, rfl, rfl⟩
  | world s => exact absurd rfl (ha s)

/-- What the bank has answered may arrive. -/
theorem small_told {net : Network config} {s : Banking config}
    {c : CoordinatorPool (Banking config) config} (hloses : ∀ body, net.loses c.state.bank body)
    (h : s.debitReplies ⊆ c.state.debitReplies) (i : ℕ) :
    (bankingGame Small.platform Small.coordinatorEnv Small.bankSecret net).Legal c
      (.resume i (Small.told s)) := by
  intro req start q k hget
  cases q with
  | debit rid body =>
      change ((s.debitReplies.lookup rid).map _ = none ∧ _) ∨
        ∃ r, (rid, r) ∈ c.state.debitReplies ∧ _
      cases hreply : s.debitReplies.lookup rid with
      | none => exact .inl ⟨rfl, hloses body⟩
      | some r => exact .inr ⟨r, h (JsMap.mem_of_get hreply), congrArg (Option.map _) hreply⟩
  | reverse rid ref => exact .inl rfl
  | _ => trivial

/-- The answers of a working system may all be given. -/
theorem small_playable
    {admitted : CoordinatorPool (Banking config) config → CoordinatorRequest → Prop}
    {s : Banking config} (n : ℕ) : ∀ {c : CoordinatorPool (Banking config) config},
      c.state.debitReplies = s.debitReplies →
      (bankingGame Small.platform Small.coordinatorEnv Small.bankSecret .any).Playable admitted c
        (List.replicate n (.resume 0 (Small.told s))) := by
  induction n with
  | zero => exact fun _ => trivial
  | succ n ih =>
      intro c h
      refine ⟨small_told (fun _ => trivial) (fun _ hm => h ▸ hm) 0, fun _ heq =>
        (nomatch heq), ih ?_⟩
      exact (bank_act (a := .resume 0 (Small.told s)) fun _ heq => (nomatch heq)).2.1.trans h

/-- The one debit request may be served. -/
theorem small_serveDebit {net : Network config} {s : Banking config}
    (hlog : s.bank.debitLog = []) (hreplies : s.debitReplies = [])
    (hserves : ∀ m ∈ s.store.debitRequests, ∀ bank, net.serves s m.1 bank) :
    Banking.Moves Small.platform Small.bankSecret net s (Small.serveDebit s) := by
  have hquiet : Banking.Moves Small.platform Small.bankSecret net s s := .quiet ⟨rfl, rfl⟩
  unfold Small.serveDebit
  split
  next rid body hsent =>
    have hmem : (rid, body) ∈ s.store.debitRequests := hsent ▸ List.mem_singleton.mpr rfl
    split
    next answer bank hsettle =>
      have hmove : Banking.Moves _ _ net _ _ := Banking.Moves.debit hmem
        (by rw [hreplies]; exact List.not_mem_nil)
        (by rw [BankState.debitRefs, hlog]; exact List.not_mem_nil) (.atOnce hsettle)
        (hserves _ hmem bank)
      rwa [hreplies] at hmove
    next => exact hquiet
  next => exact hquiet

/-- The run asks for the debit; the bank has not done anything yet. -/
theorem small_asked (net : Network config)
    {admitted : CoordinatorPool (Banking config) config → CoordinatorRequest → Prop}
    (hadm : admitted ⟨.boot config "2025-01-01T00:00:00.000Z" [], []⟩ Small.shopping)
    (hloses : ∀ body, net.loses (.boot "2025-01-01T00:00:00.000Z") body) :
    (bankingGame Small.platform Small.coordinatorEnv Small.bankSecret net).Reaches admitted
        (.boot config "2025-01-01T00:00:00.000Z" []) Small.asked ∧
      Small.asked.state.bank = .boot "2025-01-01T00:00:00.000Z" ∧
      Small.asked.state.debitReplies = [] := by
  set G := bankingGame Small.platform Small.coordinatorEnv Small.bankSecret net with hG
  set s : Banking config := .boot config "2025-01-01T00:00:00.000Z" [] with hs
  set c := G.act ⟨s, []⟩ (.spawn Small.shopping) with hc
  obtain ⟨hbank, hreplies, -⟩ :
      c.state.bank = s.bank ∧ c.state.debitReplies = [] ∧ c.state.reverseReplies = [] :=
    bank_act (a := .spawn Small.shopping) fun _ heq => (nomatch heq)
  obtain ⟨hbank', hreplies', -⟩ : Small.asked.state.bank = c.state.bank ∧
      Small.asked.state.debitReplies = c.state.debitReplies ∧
      Small.asked.state.reverseReplies = c.state.reverseReplies :=
    bank_act (c := c) (a := .resume 0 (Small.told s)) fun _ heq => (nomatch heq)
  refine ⟨Game.Reaches.init.play (show G.Playable admitted ⟨s, []⟩
      [.spawn Small.shopping, .resume 0 (Small.told s)] from
    ⟨trivial, fun req heq => ?_, small_told (fun body => ?_) (List.nil_subset _) 0,
      fun _ heq => (nomatch heq), trivial⟩), hbank'.trans hbank, hreplies'.trans hreplies⟩
  · cases heq
    exact hadm
  · exact hbank ▸ hloses body

/-- The run is charged after its request was served and confirmed. -/
theorem small_charged
    {admitted : CoordinatorPool (Banking config) config → CoordinatorRequest → Prop}
    (hadm : admitted ⟨.boot config "2025-01-01T00:00:00.000Z" [], []⟩ Small.shopping) :
    (bankingGame Small.platform Small.coordinatorEnv Small.bankSecret .any).Reaches admitted
      (.boot config "2025-01-01T00:00:00.000Z" []) Small.charged := by
  obtain ⟨hreach, hbank, hreplies⟩ := small_asked .any hadm fun _ => trivial
  exact hreach.play ⟨small_serveDebit (by rw [hbank]; rfl) hreplies fun _ _ _ => trivial,
    fun _ heq => (nomatch heq), small_playable 15 rfl⟩

/-- The token of the small purchase is dispensed, and the bank has its debit. -/
theorem small_charged_sold : Small.Sold Small.charged.state := by
  decide +kernel

section Sold

variable {s : Banking config}

/-- What was sold is in the log of the bank. -/
theorem Small.Sold.entry (h : Small.Sold s) : ∃ p ∈ s.store.dispensed, ∃ e ∈ s.bank.debitLog,
    p.2.debitRef = some (.str e.debit.debitRef) ∧ e.debit.debitRef = "DBT-010203040506" ∧
      e.debit.requestId = "REQ-1" ∧ e.reversed = false ∧ e.outcome = .CONFIRMED := by
  obtain ⟨-, -, -, -, hdispensed, hlog, -⟩ := h
  obtain ⟨p, hp, href⟩ := List.any_eq_true.mp hdispensed
  obtain ⟨e, hlog, heq⟩ := List.map_eq_singleton_iff.mp hlog
  obtain ⟨hentry, hid, hreversed, houtcome⟩ : e.debit.debitRef = "DBT-010203040506" ∧
      e.debit.requestId = "REQ-1" ∧ e.reversed = false ∧ e.outcome = .CONFIRMED := by
    simpa using heq
  refine ⟨p, hp, e, hlog ▸ List.mem_singleton.mpr rfl, ?_, hentry, hid, hreversed, houtcome⟩
  rw [strictEq_str.mp href, hentry]

/-- A purchase that is delivered, and made again after a flood, is spent and refunded. -/
theorem Small.Sold.refunded {c : CoordinatorPool (Banking config) config}
    (h : (bankingGame Small.platform Small.coordinatorEnv Small.bankSecret .any).Reaches
      (Afresh (Banking.lens config)) (.boot config "2025-01-01T00:00:00.000Z" []) c)
    (hsold : Small.Sold c.state) : ∃ c' : CoordinatorPool (Banking config) config,
      (bankingGame Small.platform Small.coordinatorEnv Small.bankSecret .any).Reaches
        (fun _ _ => True) (.boot config "2025-01-01T00:00:00.000Z" []) c' ∧
      ∃ p ∈ c'.state.store.dispensed, ∃ e ∈ c'.state.bank.debitLog,
        p.2.debitRef = some (.str e.debit.debitRef) ∧ e.reversed = true := by
  obtain ⟨hb, -, hexchanged⟩ := afresh_sound h
  obtain ⟨p, hp, e, he, href, hentry, hid, hreversed, houtcome⟩ := hsold.entry
  obtain ⟨haccepted, hhits, hmerchants, honline, -, hlog, hreplies⟩ := hsold
  have hids := acceptedIds_small haccepted
  have hclaims : ∀ ref owner, c.state.store.consumedDebitRefs.get ref = some owner →
      owner = "REQ-1" := by
    intro ref owner hget
    obtain ⟨i, d, hd, -, rfl⟩ := hb.claims.owners ref owner hget
    have hmem : i ∈ c.state.store.accepters := hb.ownRecords.mem_of_ne_blank fun hblank => by
      rw [show c.state.store.heap i = _ from congrArg Account.record hblank] at hd
      cases hd
    obtain ⟨x, hx⟩ := mem_accepters.mp hmem
    rw [hb.ownRecords.requestId _ hx]
    rw [haccepted] at hx
    exact congrArg Prod.snd (List.mem_singleton.mp hx)
  have hfresh : debitRefOf [] ∉ c.state.bank.debitRefs := by
    have hrefs : c.state.bank.debitRefs = ["DBT-010203040506"] := by
      have := congrArg (List.map fun x => x.1) hlog
      rw [List.map_map] at this
      exact this
    rw [hrefs]
    decide
  obtain ⟨c', hreach, hdispensed, e', he', hdebit, hrefunded⟩ := NoGhost.refunded
    (coordinatorGame_mono (fun _ _ _ h => h) (fun _ _ h => h) (fun _ _ _ => trivial) h) hexchanged
    (floodable_small hb.table hids hhits hmerchants) (by rw [hids]; exact List.nodup_singleton _)
    (show requestFields (bodyOrEmpty (some (.obj [("requestId", .str "REQ-1"),
      ("meterId", .str "MTR-1001"), ("merchantId", .str "MER-001"),
      ("amountKwh", .num (.fin 10))]))) "" = .ok ⟨"REQ-1", "MTR-1001", 10, "MER-001"⟩ by
        decide +kernel) (ne_floodId (by decide)) (ne_floodId (by decide +kernel))
    (by rw [hhits]; decide +kernel)
    (show c.state.store.getMerchant (trim "MER-001") = some
      ⟨"MER-001", "Thabo's Spaza", true, false⟩ by
      rw [Store.getMerchant, hmerchants]; decide +kernel) rfl
    (by decide) (by decide +kernel) Small.working "disconnected" honline rfl rfl
    rfl rfl he hreversed
    houtcome hid (by rw [hentry]; decide) hfresh hclaims hb.ownRecords
    (List.length_eq_zero_iff.mp hreplies)
  exact ⟨c', hreach, p, hdispensed ▸ hp, e', he', by rw [href, hdebit], hrefunded⟩

end Sold

/-- The submission comes afresh at the boot. -/
theorem small_afresh : Afresh (Banking.lens config)
    (⟨.boot config "2025-01-01T00:00:00.000Z" [], []⟩ : CoordinatorPool (Banking config) config)
    Small.shopping := fun _ _ =>
  ⟨fun _ _ hi => absurd hi List.not_mem_nil, fun _ hp => absurd hp List.not_mem_nil⟩

/-- After the small purchase: the token is dispensed, and its debit is not reversed. -/
theorem spent_or_refunded_small : ∃ p ∈ Small.charged.state.store.dispensed,
    ∃ e ∈ Small.charged.state.bank.debitLog, p.2.debitRef = some (.str e.debit.debitRef) ∧
      e.reversed = false := by
  obtain ⟨p, hp, e, he, href, -⟩ := small_charged_sold.entry
  exact ⟨p, hp, e, he, href, spent_or_refunded (small_charged small_afresh) p hp e he href⟩

/-- **Spent and refunded.** The small purchase, the flood, and the small purchase again: its second
run gets the first debit, fails to publish it, and has it reversed. -/
theorem spent_and_refunded : ¬ ∀ c : CoordinatorPool (Banking config) config,
    (bankingGame Small.platform Small.coordinatorEnv Small.bankSecret .any).Reaches
      (fun _ _ => True) (.boot config "2025-01-01T00:00:00.000Z" []) c →
    ∀ p ∈ c.state.store.dispensed, ∀ e ∈ c.state.bank.debitLog,
      p.2.debitRef = some (.str e.debit.debitRef) → e.reversed = false := by
  intro hall
  obtain ⟨c, hreach, p, hp, e, he, href, hreversed⟩ :=
    Small.Sold.refunded (small_charged small_afresh) small_charged_sold
  rw [hall c hreach p hp e he href] at hreversed
  cases hreversed

end NoGhost
