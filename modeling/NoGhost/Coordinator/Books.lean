import NoGhost.Coordinator.Reconciliation
import NoGhost.Coordinator.Requests
import NoGhost.Coordinator.Settlement

/-!
# The Books of the Coordinator

The invariant of the store that all runs share. Its parts tie the tables of the store to the
accounts of the runs: which requests are kept and which were accepted, which request consumed a
debit, what the replay guards of the meter know, what the meters and the audit trail add up to.

A write is of one of three kinds: it leaves the books alone, it accepts a request, or it is a
`Move` of a run. Every kind keeps the books.

## Main results

* `Table.createRecord`: the table of requests holds the newest ones.
* `SameBooks.books`, `Books.createRecord`, `Move.books`: every write keeps the books.
* `Claims.apart`: equal debits that are charged belong to requests of one identifier.
-/

open Js Async

namespace NoGhost

variable {cfg : Config}

/-! ### What an effect changes -/

section Effects

variable {P : Platform} {rid : ℕ} {u u' : Store cfg}

/-- A claim that succeeds registers the debit, which no other request had registered before. -/
theorem claimDebitRef_ok {ref : Option Json} {requestId : String}
    (h : u.claimDebitRef ref requestId = (none, u')) :
    u' = { u with consumedDebitRefs := u.consumedDebitRefs.set ref requestId } ∧
      ∀ owner, u.consumedDebitRefs.get ref = some owner → owner = "" ∨ owner = requestId := by
  rcases claimDebitRef_cases ref requestId u with ⟨owner, heq, -⟩ | ⟨heq, howner⟩
  · rw [h] at heq
    cases heq
  · rw [h] at heq
    exact ⟨congrArg Prod.snd heq, howner⟩

/-- The parts of the store that only the handlers of requests change: the table of requests with its
order, the acceptances and the serial numbers. -/
structure SameTable (u u' : Store cfg) : Prop where
  created : u'.created = u.created
  requests : u'.requests = u.requests
  requestOrder : u'.requestOrder = u.requestOrder
  accepted : u'.accepted = u.accepted

/-- The table of requests is part of what all runs share, so where that is the same the table is. -/
theorem SameTable.of_common (h : u'.common = u.common) : SameTable u u' :=
  ⟨congrArg Common.created h, congrArg Common.requests h, congrArg Common.requestOrder h,
    congrArg Common.accepted h⟩

/-- A meter that is put into service changes the meters, and nothing else of what the runs share. -/
theorem common_ensureMeter (meterId : Option Json) (u : Store cfg) :
    (u.ensureMeter meterId).common =
      { u.common with meters := (u.ensureMeter meterId).meters } := by
  rw [Store.ensureMeter]
  split <;> rfl

/-- What a run does to its own record and to the shared tables leaves the table of requests alone.
-/
theorem Effect.table (h : Effect P rid u u') : SameTable u u' := by
  cases h with
  | still _ h => exact .of_common h
  | claim _ h =>
      obtain ⟨rfl, -⟩ := claimDebitRef_ok h
      exact ⟨rfl, rfl, rfl, rfl⟩
  | record _ _ h =>
      exact ⟨congrArg Common.created h, congrArg Common.requests h,
        congrArg Common.requestOrder h, congrArg Common.accepted h⟩
  | deliver _ _ h =>
      exact ⟨congrArg Common.created h, congrArg Common.requests h,
        congrArg Common.requestOrder h, congrArg Common.accepted h⟩
  | meter meterId h =>
      have h' := h ▸ common_ensureMeter meterId u
      exact ⟨congrArg Common.created h', congrArg Common.requests h',
        congrArg Common.requestOrder h', congrArg Common.accepted h'⟩
  | ask _ h | receive _ h | redeem _ _ h | credit _ _ h | reverse _ h =>
      subst h
      exact ⟨rfl, rfl, rfl, rfl⟩

/-- Only a claim registers a debit, and it is the debit of the record whose run makes the claim. -/
theorem Effect.claims (h : Effect P rid u u') : u'.consumedDebitRefs = u.consumedDebitRefs ∨
    ∃ d, (u.heap rid).debit = some d ∧
      u.claimDebitRef (d.get? "debitRef") (u.heap rid).request.requestId = (none, u') := by
  cases h with
  | still _ h => exact .inl (congrArg Common.consumedDebitRefs h)
  | claim hdebit h => exact .inr ⟨_, hdebit, h⟩
  | record _ _ h => exact .inl (congrArg Common.consumedDebitRefs h)
  | deliver _ _ h => exact .inl (congrArg Common.consumedDebitRefs h)
  | meter meterId h =>
      exact .inl (congrArg Common.consumedDebitRefs (h ▸ common_ensureMeter meterId u))
  | ask _ h | receive _ h | redeem _ _ h | credit _ _ h | reverse _ h => exact .inl (by rw [h]; rfl)

/-- A store with the same replay guards, and the same history of what was redeemed. -/
structure SameGuards (u u' : Store cfg) : Prop where
  usedNonces : u'.usedNonces = u.usedNonces
  usedDebitRefs : u'.usedDebitRefs = u.usedDebitRefs
  redemptions : u'.redemptions = u.redemptions

/-- The replay guards are part of what all runs share. -/
theorem SameGuards.of_common (h : u'.common = u.common) : SameGuards u u' :=
  ⟨congrArg Common.usedNonces h, congrArg Common.usedDebitRefs h, congrArg Common.redemptions h⟩

/-- Only a redemption changes the replay guards, and it redeems the token of its own record, which
was not known before. -/
theorem Effect.guards (h : Effect P rid u u') : SameGuards u u' ∨
    ∃ token, (u.heap rid).token = some token ∧ u.redeemed token.toTokenPayload = false ∧
      u' = u.redeem rid token := by
  cases h with
  | still _ h => exact .inl (.of_common h)
  | claim _ h =>
      obtain ⟨rfl, -⟩ := claimDebitRef_ok h
      exact .inl ⟨rfl, rfl, rfl⟩
  | record _ _ h =>
      exact .inl ⟨congrArg Common.usedNonces h, congrArg Common.usedDebitRefs h,
        congrArg Common.redemptions h⟩
  | deliver _ _ h =>
      exact .inl ⟨congrArg Common.usedNonces h, congrArg Common.usedDebitRefs h,
        congrArg Common.redemptions h⟩
  | meter meterId h =>
      have h' := h ▸ common_ensureMeter meterId u
      exact .inl ⟨congrArg Common.usedNonces h', congrArg Common.usedDebitRefs h',
        congrArg Common.redemptions h'⟩
  | redeem htoken hfresh h => exact .inr ⟨_, htoken, hfresh, h⟩
  | ask _ h | receive _ h | credit _ _ h | reverse _ h =>
      subst h
      exact .inl ⟨rfl, rfl, rfl⟩

/-- Only the two halves of `creditMeter` change the meters: the first makes a meter, the second
counts the dispense of a token. -/
theorem Effect.meters (h : Effect P rid u u') :
    (u'.meters = u.meters ∧ u'.dispensed = u.dispensed) ∨
      (∃ meterId, u' = u.ensureMeter meterId) ∨
      ∃ token balance, (u.heap rid).token = some token ∧ (rid, token) ∈ u.redemptions ∧
        u' = u.credit rid token balance := by
  cases h with
  | still _ h => exact .inl ⟨congrArg Common.meters h, congrArg Common.dispensed h⟩
  | claim _ h =>
      obtain ⟨rfl, -⟩ := claimDebitRef_ok h
      exact .inl ⟨rfl, rfl⟩
  | record _ _ h => exact .inl ⟨congrArg Common.meters h, congrArg Common.dispensed h⟩
  | deliver _ _ h => exact .inl ⟨congrArg Common.meters h, congrArg Common.dispensed h⟩
  | meter meterId h => exact .inr (.inl ⟨meterId, h⟩)
  | credit htoken hredeemed h => exact .inr (.inr ⟨_, _, htoken, hredeemed, h⟩)
  | ask _ h | receive _ h | redeem _ _ h | reverse _ h =>
      subst h
      exact .inl ⟨rfl, rfl⟩

/-- Only a receipt that is recorded changes the audit trail, and a record gets its receipt once. -/
theorem Effect.audited (h : Effect P rid u u') :
    (u'.audit = u.audit ∧ (u'.heap rid).ledger = (u.heap rid).ledger) ∨
      ∃ ledger, (u.heap rid).ledger = none ∧ (u'.heap rid).ledger = some ledger ∧
        u'.audit = ledger :: u.audit := by
  cases h with
  | still hledger h => exact .inl ⟨congrArg Common.audit h, hledger⟩
  | claim _ h =>
      obtain ⟨rfl, -⟩ := claimDebitRef_ok h
      exact .inl ⟨rfl, rfl⟩
  | record hbefore hafter h => exact .inr ⟨_, hbefore, hafter, congrArg Common.audit h⟩
  | deliver _ hledger h => exact .inl ⟨congrArg Common.audit h, hledger⟩
  | meter meterId h =>
      have hheap : u'.heap rid = u.heap rid :=
        h ▸ congrArg Account.record (account_ensureMeter (i := rid) u meterId)
      exact .inl ⟨congrArg Common.audit (h ▸ common_ensureMeter meterId u), by rw [hheap]⟩
  | ask _ h | receive _ h | redeem _ _ h | credit _ _ h | reverse _ h =>
      subst h
      exact .inl ⟨rfl, rfl⟩

end Effects

/-! ### The table of requests -/

/-- The table and its order hold requests that were accepted: the order the newest ones, and
the table the same, as long as no identifier comes twice. -/
structure Table (u : Store cfg) : Prop where
  order : u.requestOrder = u.acceptedIds.take REQUEST_CAP
  keys : u.requests.Distinct
  entries : ∀ e ∈ u.requests, e.swap ∈ u.accepted
  newest : u.acceptedIds.Nodup →
    u.requests = ((u.accepted.take REQUEST_CAP).reverse).map Prod.swap

section Requests

variable {u u' : Store cfg} {rid : ℕ} {request : GenerationRequest}

/-- Whether the table of requests is in order is read off the table alone. -/
theorem SameTable.table (h : SameTable u u') (ht : Table u) : Table u' := by
  obtain ⟨-, hrequests, horder, haccepted⟩ := h
  have hids : u'.acceptedIds = u.acceptedIds := by rw [Store.acceptedIds, haccepted]; rfl
  exact ⟨by rw [horder, hids, ht.order], hrequests ▸ ht.keys,
    by rw [hrequests, haccepted]; exact ht.entries,
    fun hnd => by rw [hrequests, haccepted, ht.newest (hids ▸ hnd)]⟩

/-- The loop of `createRecord` takes requests out of the table, and changes nothing else of the
store. -/
theorem evict_eq (cap fuel : ℕ) (u : Store cfg) : Store.evict cap fuel u =
    { u with
      requests := (Store.evict cap fuel u).requests
      requestOrder := (Store.evict cap fuel u).requestOrder } := by
  induction fuel generalizing u with
  | zero => rfl
  | succ fuel ih =>
      rw [Store.evict]
      split
      · rw [ih]
      · rfl

/-- One request too many: the loop takes out the oldest one and stops. -/
theorem evict_one {cap fuel : ℕ} {evicted : String} (hlen : u.requestOrder.length = cap + 1)
    (hlast : u.requestOrder.getLast? = some evicted) :
    Store.evict cap (fuel + 1) u = { u with
      requestOrder := u.requestOrder.dropLast
      requests := u.requests.delete evicted } := by
  rw [Store.evict, if_pos (by omega), hlast]
  cases fuel with
  | zero => rfl
  | succ fuel => rw [Store.evict, if_neg (by rw [List.length_dropLast]; omega)]

/-- A table that is within its bound is left as it is. -/
theorem evict_none {cap fuel : ℕ} (hlen : u.requestOrder.length ≤ cap) :
    Store.evict cap fuel u = u := by
  cases fuel with
  | zero => rfl
  | succ fuel => rw [Store.evict, if_neg (by omega)]

/-- What is made of the store by a new record, but for its table. -/
theorem createRecord_eq (rid : ℕ) (request : GenerationRequest) (u : Store cfg) :
    u.createRecord rid request = { u with
      heap := Function.update u.heap rid (.new cfg request)
      accepted := (rid, request.requestId) :: u.accepted
      broadcasts := u.broadcasts ++ [.requestUpdated (.new cfg request)]
      requests := (u.createRecord rid request).requests
      requestOrder := (u.createRecord rid request).requestOrder } := by
  conv_lhs => rw [Store.createRecord, evict_eq]
  rfl

/-- The identifiers that were accepted are read off the list of acceptances. -/
theorem acceptedIds_of_accepted {u u' : Store cfg} (h : u'.accepted = u.accepted) :
    u'.acceptedIds = u.acceptedIds := by
  rw [Store.acceptedIds, h]
  rfl

/-- A record that is made puts its identifier in front of those that were accepted before. -/
theorem acceptedIds_createRecord (rid : ℕ) (request : GenerationRequest) (u : Store cfg) :
    (u.createRecord rid request).acceptedIds = request.requestId :: u.acceptedIds := by
  rw [Store.acceptedIds, createRecord_eq]
  rfl

variable (rid request) in
/-- The table after a new record: the request is set, and one request too many is deleted. -/
theorem createRecord_table (ht : Table u) :
    let ids := request.requestId :: u.acceptedIds
    (u.createRecord rid request).requestOrder = ids.take REQUEST_CAP ∧
      ((ids.length ≤ REQUEST_CAP ∧
        (u.createRecord rid request).requests = u.requests.set request.requestId rid) ∨
      ∃ evicted, ids[REQUEST_CAP]? = some evicted ∧
        (u.createRecord rid request).requests =
          (u.requests.set request.requestId rid).delete evicted) := by
  intro ids
  set u₁ : Store cfg := { u with
    heap := Function.update u.heap rid (.new cfg request)
    requests := u.requests.set request.requestId rid
    requestOrder := request.requestId :: u.requestOrder
    accepted := (rid, request.requestId) :: u.accepted } with hu₁
  have horder : u₁.requestOrder = ids.take (REQUEST_CAP + 1) := by
    rw [hu₁, List.take_succ_cons]
    exact congrArg (request.requestId :: ·) ht.order
  obtain ⟨hlisted, hkept⟩ : (u.createRecord rid request).requestOrder =
        (Store.evict REQUEST_CAP (u.requestOrder.length + 1) u₁).requestOrder ∧
      (u.createRecord rid request).requests =
        (Store.evict REQUEST_CAP (u.requestOrder.length + 1) u₁).requests := ⟨rfl, rfl⟩
  rcases Nat.lt_or_ge REQUEST_CAP ids.length with hlt | hle
  · have hlen : u₁.requestOrder.length = REQUEST_CAP + 1 := by
      rw [horder, List.length_take]
      omega
    have hlast : u₁.requestOrder.getLast? = some ids[REQUEST_CAP] := by
      rw [horder, List.getLast?_take, if_neg (by omega), Nat.add_sub_cancel,
        List.getElem?_eq_getElem hlt]
      rfl
    rw [hlisted, hkept, evict_one hlen hlast]
    refine ⟨?_, .inr ⟨_, List.getElem?_eq_getElem hlt, rfl⟩⟩
    change u₁.requestOrder.dropLast = _
    rw [horder, List.take_add_one, List.getElem?_eq_getElem hlt]
    exact List.dropLast_concat
  · have hshort : u₁.requestOrder = ids := by rw [horder, List.take_of_length_le (by omega)]
    rw [hlisted, hkept, evict_none (by rw [hshort]; exact hle), hshort,
      List.take_of_length_le hle]
    exact ⟨rfl, .inl ⟨hle, rfl⟩⟩

/-- **The table holds the newest requests.** The request that is made goes in at the front, and
where that is one too many the oldest goes out, so the table is the newest part of what was
accepted, up to its bound. -/
theorem Table.createRecord (ht : Table u) : Table (u.createRecord rid request) := by
  obtain ⟨horder, hrequests⟩ := createRecord_table rid request ht
  have haccepted : (u.createRecord rid request).accepted =
      (rid, request.requestId) :: u.accepted := by rw [createRecord_eq]
  have hids : (u.createRecord rid request).acceptedIds = request.requestId :: u.acceptedIds := by
    rw [Store.acceptedIds, haccepted]
    rfl
  have hset : ∀ e ∈ u.requests.set request.requestId rid,
      e.swap ∈ (rid, request.requestId) :: u.accepted := fun e he => by
    rcases JsMap.mem_set he with rfl | ⟨he, -⟩
    · exact List.mem_cons_self
    · exact List.mem_cons_of_mem _ (ht.entries e he)
  refine ⟨by rw [horder, hids], ?_, fun e he => ?_, fun hnd => ?_⟩
  · rcases hrequests with ⟨-, h⟩ | ⟨evicted, -, h⟩ <;> rw [h]
    · exact ht.keys.set
    · exact ht.keys.set.delete
  · rw [haccepted]
    rcases hrequests with ⟨-, h⟩ | ⟨evicted, -, h⟩ <;> rw [h] at he
    · exact hset e he
    · exact hset e (JsMap.mem_delete.mp he).1
  · rw [hids, List.nodup_cons] at hnd
    obtain ⟨hfresh, hnodup⟩ := hnd
    have hold := ht.newest hnodup
    have hnew : ∀ e ∈ u.requests, (e.1 == request.requestId) = false := fun e he => by
      rw [beq_eq_false_iff_ne]
      rintro heq
      exact hfresh (heq ▸ List.mem_map_of_mem (f := Prod.snd) (ht.entries e he))
    have happend : u.requests.set request.requestId rid =
        (((rid, request.requestId) :: u.accepted).take (REQUEST_CAP + 1)).reverse.map
        Prod.swap := by
      rw [JsMap.set_new hnew, hold, List.take_succ_cons, List.reverse_cons, List.map_append]
      rfl
    rw [haccepted]
    rcases hrequests with ⟨hlen, h⟩ | ⟨evicted, hevicted, h⟩
    · have hlen' : ((rid, request.requestId) :: u.accepted).length ≤ REQUEST_CAP := by
        simpa [Store.acceptedIds] using hlen
      rw [h, happend, List.take_of_length_le (by omega), List.take_of_length_le hlen']
    · -- the oldest of the newest comes first in the table
      have hmap : (request.requestId :: u.acceptedIds) =
          ((rid, request.requestId) :: u.accepted).map (·.2) := rfl
      rw [hmap, List.getElem?_map, Option.map_eq_some_iff] at hevicted
      obtain ⟨e, he, rfl⟩ := hevicted
      have hdistinct := ht.keys.set (k := request.requestId) (v := rid)
      rw [h]
      rw [happend, List.take_add_one, he, Option.toList_some, List.reverse_append,
        List.reverse_singleton, List.singleton_append, List.map_cons] at hdistinct ⊢
      exact hdistinct.delete_head

end Requests

/-! ### The parts of the books -/

/-- The account of a run that has not been started: an empty record, of which nothing was done. -/
def Account.blank (cfg : Config) : Account cfg := ⟨.new cfg ⟨"", "", 0, "", ""⟩, .none⟩

/-- The records of the requests that were accepted, the newest first. -/
def Store.accepters (u : Store cfg) : List ℕ := u.accepted.map (·.1)

/-- Every request that was accepted has its own record, under the number of the handler that
accepted it, and the other records are blank. -/
structure OwnRecords (u : Store cfg) : Prop where
  nodup : u.accepters.Nodup
  lt : ∀ e ∈ u.accepted, e.1 < u.created
  requestId : ∀ e ∈ u.accepted, (u.heap e.1).request.requestId = e.2
  named : ∀ e ∈ u.accepted, e.2 ≠ ""
  blank : ∀ i, i ∉ u.accepters → u.account i = .blank cfg

/-- The debits that are charged are registered as consumed by their requests, and nothing else is:
an entry of the register has a record with that debit. -/
structure Claims (u : Store cfg) : Prop where
  claimed : ∀ i, (u.account i).Charged → Claimed u (u.heap i)
  owners : ∀ ref owner, u.consumedDebitRefs.get ref = some owner →
    ∃ i d, (u.heap i).debit = some d ∧ d.get? "debitRef" = ref ∧
      (u.heap i).request.requestId = owner

/-- The replay guards know what was redeemed, by nonce and by debit reference, and no two
redemptions share either of them. -/
structure Guards (u : Store cfg) : Prop where
  nonces : ∀ n, n ∈ u.usedNonces ↔ ∃ e ∈ u.redemptions, e.2.nonce = n
  refs : ∀ ref, u.usedDebitRefs.contains ref = u.redemptions.any fun e => ref == e.2.debitRef
  distinct : u.redemptions.Pairwise fun e f =>
    e.2.nonce ≠ f.2.nonce ∧ (e.2.debitRef == f.2.debitRef) = false

/-- The dispenses of the meters, added up over all of them, are as many as the tokens that were
dispensed. -/
structure Metered (u : Store cfg) : Prop where
  distinct : u.meters.Distinct
  sum : (u.meters.map fun e => e.2.dispenses).sum = u.dispensed.length

/-- The audit trail has the receipt of every record that has one, once. -/
def Audited (u : Store cfg) : Prop :=
  ∃ l : List ℕ, l.Nodup ∧ (∀ i, i ∈ l ↔ (u.heap i).ledger ≠ none) ∧
    u.audit.map some = l.map fun i => (u.heap i).ledger

section Parts

variable {u u' : Store cfg} {rid i : ℕ} {request : GenerationRequest}

/-- A record with anything in its account belongs to a request that was accepted. -/
theorem OwnRecords.mem_of_ne_blank (hr : OwnRecords u) (h : u.account i ≠ .blank cfg) :
    i ∈ u.accepters := by
  by_contra hi
  exact h (hr.blank i hi)

/-- A record is among those of the accepted requests where it was accepted under some identifier. -/
theorem mem_accepters : i ∈ u.accepters ↔ ∃ x, (i, x) ∈ u.accepted := by
  simp [Store.accepters]

/-- A request that was accepted is listed under the identifier that its record bears. -/
theorem OwnRecords.mem (hr : OwnRecords u) (hi : i ∈ u.accepters) :
    (i, (u.heap i).request.requestId) ∈ u.accepted := by
  obtain ⟨x, hx⟩ := mem_accepters.mp hi
  rwa [show (u.heap i).request.requestId = x from hr.requestId _ hx]

/-- No accepted request has the empty identifier, which the handler refuses. -/
theorem OwnRecords.id_ne (hr : OwnRecords u) (hi : i ∈ u.accepters) :
    (u.heap i).request.requestId ≠ "" := hr.named _ (hr.mem hi)

/-- Where no identifier was accepted twice, it tells the record. -/
theorem OwnRecords.eq_of_id (hr : OwnRecords u) (hnd : u.acceptedIds.Nodup) {j : ℕ}
    (hi : i ∈ u.accepters)
    (hj : j ∈ u.accepters)
    (h : (u.heap i).request.requestId = (u.heap j).request.requestId) : i = j := by
  have heq := List.inj_on_of_nodup_map hnd (hr.mem hi) (hr.mem hj) h
  exact congrArg Prod.fst heq

/-- A token is known where its nonce or its debit reference is that of a token that was redeemed. -/
theorem Guards.redeemed_iff (hg : Guards u) {p : TokenPayload} : u.redeemed p = true ↔
    ∃ e ∈ u.redemptions, e.2.nonce = p.nonce ∨ (p.debitRef == e.2.debitRef) = true := by
  rw [Store.redeemed, Bool.or_eq_true, List.contains_iff_mem, hg.nonces, hg.refs, List.any_eq_true]
  constructor
  · rintro (⟨e, he, h⟩ | ⟨e, he, h⟩)
    · exact ⟨e, he, .inl h⟩
    · exact ⟨e, he, .inr h⟩
  · rintro ⟨e, he, h | h⟩
    · exact .inl ⟨e, he, h⟩
    · exact .inr ⟨e, he, h⟩

/-- The replay guards agree with the history wherever both are the same. -/
theorem SameGuards.guards (h : SameGuards u u') (hg : Guards u) : Guards u' := by
  obtain ⟨hnonces, hrefs, hredemptions⟩ := h
  exact ⟨by rw [hnonces, hredemptions]; exact hg.nonces, by rw [hrefs, hredemptions]; exact hg.refs,
    by rw [hredemptions]; exact hg.distinct⟩

/-- A token that is not known is redeemed: its nonce and its debit reference are now among the
guards. -/
theorem Guards.redeem (hg : Guards u) {token : Token}
    (hfresh : u.redeemed token.toTokenPayload = false) : Guards (u.redeem rid token) := by
  rw [Store.redeemed, Bool.or_eq_false_iff] at hfresh
  obtain ⟨hnonce, href⟩ := hfresh
  refine ⟨fun n => ?_, fun ref => ?_, ?_⟩
  · simp only [Store.redeem, List.mem_insert_iff, hg.nonces, List.mem_append, List.mem_singleton]
    constructor
    · rintro (rfl | ⟨e, he, h⟩)
      · exact ⟨_, .inr rfl, rfl⟩
      · exact ⟨e, .inl he, h⟩
    · rintro ⟨e, he | rfl, h⟩
      · exact .inr ⟨e, he, h⟩
      · exact .inl h.symm
  · simp only [Store.redeem, contains_insertRef, hg.refs, List.any_append, List.any_cons,
      List.any_nil, Bool.or_false]
  · refine List.pairwise_append.mpr ⟨hg.distinct, List.pairwise_singleton _ _, fun e he f hf => ?_⟩
    obtain rfl := List.mem_singleton.mp hf
    have hfirst : u.usedNonces.contains e.2.nonce = true :=
      List.contains_iff_mem.mpr ((hg.nonces _).mpr ⟨e, he, rfl⟩)
    refine ⟨fun heq => ?_, ?_⟩
    · rw [heq, hnonce] at hfirst
      cases hfirst
    · rw [hg.refs, List.any_eq_false] at href
      rw [beq_ref_comm]
      simpa using href e he

/-- A dispense is counted once, at the meter of its token. -/
theorem Metered.credit (hm : Metered u) (token : Token) (balance : Number) :
    Metered (u.credit rid token balance) := by
  refine ⟨hm.distinct.set, ?_⟩
  have hsum : ((u.credit rid token balance).meters.map fun e => e.2.dispenses).sum +
      u.dispensesOf token.meterId = (u.meters.map fun e => e.2.dispenses).sum +
        (u.dispensesOf token.meterId + 1) := hm.distinct.sum_set fun m => m.dispenses
  rw [hm.sum] at hsum
  simp only [Store.credit, Store.broadcast, List.length_append, List.length_singleton] at hsum ⊢
  omega

/-- A meter that is put into service has dispensed nothing, so the counts of all meters add up as
before. -/
theorem Metered.ensureMeter (hm : Metered u) (meterId : Option Json) :
    Metered (u.ensureMeter meterId) := by
  rw [Store.ensureMeter]
  split
  next => exact hm
  next hget =>
    refine ⟨hm.distinct.set, ?_⟩
    have hsum := hm.distinct.sum_set (k := meterId) (v := ⟨meterId, .fin 0, none, 0⟩)
      (f := MeterState.dispenses)
    rw [hm.sum, hget] at hsum
    simpa using hsum

/-- A record that is made leaves the accounts of the others as they are. -/
theorem account_createRecord (hi : i ≠ rid) :
    (u.createRecord rid request).account i = u.account i := by
  rw [createRecord_eq]
  simp only [Store.account, Store.deeds, Function.update_of_ne hi]

/-- The account of a record that is made is the new record, with what was done of it before:
nothing. -/
theorem account_createRecord_self :
    (u.createRecord rid request).account rid = ⟨.new cfg request, u.deeds rid⟩ := by
  rw [createRecord_eq]
  simp only [Store.account, Store.deeds, Function.update_self]

/-- The records of the others stay as they are. -/
theorem heap_createRecord (hi : i ≠ rid) : (u.createRecord rid request).heap i = u.heap i :=
  congrArg Account.record (account_createRecord hi)

/-- The record that is made is the new one of its request. -/
theorem heap_createRecord_self :
    (u.createRecord rid request).heap rid = .new cfg request :=
  congrArg Account.record account_createRecord_self

/-- Nothing was done for it that was not done before. -/
theorem deeds_createRecord_self : (u.createRecord rid request).deeds rid = u.deeds rid :=
  congrArg Account.deeds account_createRecord_self

end Parts

/-! ### The books are kept -/

section Books

variable {σ : Type} {L : Lens σ (Store cfg)} (P : Platform) (env : CoordinatorEnv cfg)
  (O : Outside L)

/-- **The books of the coordinator.** In every state that is reached each record is at some phase of
its run, with the evidence for it in the trace, and the tables that the runs share agree with what
the records say. -/
structure Books (u : Store cfg) : Prop where
  phase : ∀ i, ∃ t, Phase P env O i t (u.heap i) (u.deeds i)
  ownRecords : OwnRecords u
  table : Table u
  claims : Claims u
  guards : Guards u
  metered : Metered u
  audited : Audited u

/-- A change that is not about the books: one of fields that no run reads back, or a new serial
number. -/
structure SameBooks (u u' : Store cfg) : Prop where
  heap : u'.heap = u.heap
  created : u.created ≤ u'.created
  common : u'.common = { u.common with created := u'.created }

variable {P env O} {u u' : Store cfg} {rid i : ℕ} {t : CoordinatorTrace σ cfg} {s : σ}

/-- The meters that the store is seeded with have identifiers of their own. -/
theorem seededMeters_distinct : Store.seededMeters.Distinct := by
  rw [JsMap.Distinct]
  decide +kernel

/-- The books are in order at the boot: there is no record, and nothing was claimed, redeemed or
dispensed. -/
theorem books_boot (now : String) (randomBytes : Bytes) :
    Books P env O (Store.boot cfg now randomBytes) where
  phase i := ⟨[], .idle ⟨rfl, rfl, rfl, rfl, rfl⟩⟩
  ownRecords := ⟨List.nodup_nil, fun _ he => (nomatch he), fun _ he => (nomatch he),
    fun _ he => (nomatch he), fun _ _ => rfl⟩
  table := ⟨rfl, List.Pairwise.nil, fun _ he => (nomatch he), fun _ => rfl⟩
  claims := by
    refine ⟨fun i hch => ?_, fun ref owner h => nomatch h⟩
    rcases hch with ⟨hpending, -⟩ | hreversals
    · exact absurd rfl hpending
    · exact absurd rfl hreversals
  guards := ⟨fun n => by simp [Store.boot], fun _ => rfl, List.Pairwise.nil⟩
  metered := ⟨seededMeters_distinct, rfl⟩
  audited := ⟨[], List.nodup_nil, fun i => by simp [Store.boot, PipelineRecord.new], rfl⟩

/-- The same store has the same books. -/
theorem SameBooks.refl (u : Store cfg) : SameBooks u u := ⟨rfl, le_rfl, rfl⟩

/-- What the rest of the system does in the background writes none of the books. -/
theorem Quiet.sameBooks (h : Quiet u u') : SameBooks u u' := by
  have hcreated : u'.created = u.created := congrArg Common.created h.common
  refine ⟨h.heap, hcreated.ge, ?_⟩
  rw [h.common, hcreated]
  rfl

/-- What was done of a record is read off the shared part of the store. -/
theorem SameBooks.deeds (h : SameBooks u u') (i : ℕ) : u'.deeds i = u.deeds i := by
  have hcommon := h.common
  simp only [Store.common, Common.mk.injEq] at hcommon
  obtain ⟨-, -, -, -, -, -, -, -, -, -, hdebits, hreversals, hreceipts, hredemptions, hdispensed⟩ :=
    hcommon
  simp only [Store.deeds, hdebits, hreversals, hreceipts, hredemptions, hdispensed]

/-- The same books have the same accounts. -/
theorem SameBooks.account (h : SameBooks u u') (i : ℕ) : u'.account i = u.account i := by
  rw [Store.account, Store.account, h.heap, h.deeds]

/-- The same books have the same acceptances. -/
theorem SameBooks.accepted (h : SameBooks u u') : u'.accepted = u.accepted :=
  congrArg Common.accepted h.common

/-- Whether the books are in order is read off them alone. -/
theorem SameBooks.books (h : SameBooks u u') (hb : Books P env O u) : Books P env O u' := by
  have haccepted := h.accepted
  have hids : u'.acceptedIds = u.acceptedIds := by rw [Store.acceptedIds, haccepted]; rfl
  have haccepters : u'.accepters = u.accepters := by rw [Store.accepters, haccepted]; rfl
  have hrequests : u'.requests = u.requests := congrArg Common.requests h.common
  have horder : u'.requestOrder = u.requestOrder := congrArg Common.requestOrder h.common
  have hclaims : u'.consumedDebitRefs = u.consumedDebitRefs :=
    congrArg Common.consumedDebitRefs h.common
  have hmeters : u'.meters = u.meters := congrArg Common.meters h.common
  have hdispensed : u'.dispensed = u.dispensed := congrArg Common.dispensed h.common
  refine ⟨fun i => ?_, ⟨?_, fun e he => ?_, ?_, ?_, fun i hi => ?_⟩, ⟨?_, ?_, ?_, fun hnd => ?_⟩,
    ⟨fun i hch => ?_, ?_⟩, ?_, ⟨?_, ?_⟩, ?_⟩
  · rw [h.heap, h.deeds]
    exact hb.phase i
  · exact haccepters ▸ hb.ownRecords.nodup
  · rw [haccepted] at he
    exact (hb.ownRecords.lt e he).trans_le h.created
  · rw [haccepted, h.heap]
    exact hb.ownRecords.requestId
  · exact haccepted ▸ hb.ownRecords.named
  · rw [h.account]
    exact hb.ownRecords.blank i (haccepters ▸ hi)
  · rw [horder, hids, hb.table.order]
  · exact hrequests ▸ hb.table.keys
  · rw [hrequests, haccepted]
    exact hb.table.entries
  · rw [hrequests, haccepted, hb.table.newest (hids ▸ hnd)]
  · rw [h.account] at hch
    rw [Claimed, h.heap, hclaims]
    exact hb.claims.claimed i hch
  · rw [hclaims, h.heap]
    exact hb.claims.owners
  · exact SameGuards.guards ⟨congrArg Common.usedNonces h.common,
      congrArg Common.usedDebitRefs h.common, congrArg Common.redemptions h.common⟩ hb.guards
  · exact hmeters ▸ hb.metered.distinct
  · rw [hmeters, hdispensed]
    exact hb.metered.sum
  · rw [Audited, show u'.audit = u.audit from congrArg Common.audit h.common, h.heap]
    exact hb.audited

/-- What is charged is a debit of the record, for which the trace has the confirmation of the bank.
-/
theorem Phase.debited {r : PipelineRecord cfg} {e : Deeds} (h : Phase P env O i t r e)
    (hch : (⟨r, e⟩ : Account cfg).Charged) : ∃ d, r.debit = some d ∧
      Debited P env O i t r.request d := by
  cases h with
  | idle h | asked h =>
      rcases hch with ⟨hpending, -⟩ | hreversals
      · exact absurd h.status hpending
      · exact absurd rfl hreversals
  | running h => exact h.backed.debited
  | rejected hstatus _ _ _ he =>
      rcases hch with ⟨-, hrejected⟩ | hreversals
      · exact absurd hstatus hrejected
      · rcases he with rfl | rfl <;> exact absurd rfl hreversals
  | abandoned h => exact h.debited

/-- A record that is charged belongs to a request that was accepted. -/
theorem OwnRecords.mem_of_charged (hr : OwnRecords u) (hch : (u.account i).Charged) :
    i ∈ u.accepters := by
  refine hr.mem_of_ne_blank fun hblank => ?_
  rw [hblank] at hch
  rcases hch with ⟨hpending, -⟩ | hreversals
  · exact hpending rfl
  · exact hreversals rfl

/-- A record that is charged has an identifier, since it was accepted under it. -/
theorem Books.id_ne_of_charged (hb : Books P env O u) (hch : (u.account i).Charged) :
    (u.heap i).request.requestId ≠ "" := hb.ownRecords.id_ne (hb.ownRecords.mem_of_charged hch)

/-- A debit that a record has got is never replaced. -/
theorem Move.debit (h : Move P env O rid t s u u') {d : Json} (hd : (u.heap rid).debit = some d) :
    (u'.heap rid).debit = some d := by
  rcases h.paid with hsame | ⟨hnone, -⟩
  · exact hsame.trans hd
  · rw [hd] at hnone
    cases hnone

/-- A move of one run leaves the records of the others as they are. -/
theorem Move.heap_of_ne (h : Move P env O rid t s u u') (hi : i ≠ rid) : u'.heap i = u.heap i :=
  congrArg Account.record (h.others i hi)

/-- A debit that is registered stays registered, and for the same request. -/
theorem Effect.consumed (h : Effect P rid u u') {ref : Option Json} {owner : String}
    (howner : owner ≠ "") (hget : u.consumedDebitRefs.get ref = some owner) :
    u'.consumedDebitRefs.get ref = some owner := by
  rcases h.claims with hsame | ⟨d, -, hclaim⟩
  · rwa [hsame]
  · obtain ⟨rfl, hfree⟩ := claimDebitRef_ok hclaim
    cases hkey : ref == d.get? "debitRef" with
    | true =>
        rw [JsMap.get_congr hkey] at hget ⊢
        have hrefl := BEq.trans (BEq.symm hkey) hkey
        rw [JsMap.get_set_self hrefl]
        exact congrArg some ((hfree owner hget).resolve_left howner).symm
    | false => rwa [JsMap.get_set_of_ne hkey]

/-- A move keeps the register of debits: a claim registers the debit of its own record, and the
others stand. -/
theorem Move.claims (h : Move P env O rid t s u u') (hb : Books P env O u) : Claims u' := by
  refine ⟨fun i hch => ?_, fun ref owner hget => ?_⟩
  · rcases eq_or_ne i rid with rfl | hi
    · rcases h.claimed hch with hold | hnew
      · obtain ⟨t₀, hphase⟩ := hb.phase i
        obtain ⟨d₀, hd₀, -⟩ := hphase.debited hold
        intro d hd hrefl
        obtain rfl : d₀ = d := Option.some.inj ((h.debit hd₀).symm.trans hd)
        rw [h.request]
        exact h.effect.consumed (hb.id_ne_of_charged hold) (hb.claims.claimed i hold d₀ hd₀ hrefl)
      · exact hnew
    · rw [h.others i hi] at hch
      rw [h.heap_of_ne hi]
      exact fun d hd hrefl =>
        h.effect.consumed (hb.id_ne_of_charged hch) (hb.claims.claimed i hch d hd hrefl)
  · have hold : ∀ {ref owner}, u.consumedDebitRefs.get ref = some owner →
        ∃ i d, (u'.heap i).debit = some d ∧ d.get? "debitRef" = ref ∧
          (u'.heap i).request.requestId = owner := fun {ref owner} hget => by
      obtain ⟨i, d, hd, href, hid⟩ := hb.claims.owners ref owner hget
      rcases eq_or_ne i rid with rfl | hi
      · exact ⟨i, d, h.debit hd, href, h.request ▸ hid⟩
      · exact ⟨i, d, h.heap_of_ne hi ▸ hd, href, h.heap_of_ne hi ▸ hid⟩
    rcases h.effect.claims with hsame | ⟨d, hd, hclaim⟩
    · exact hold (hsame ▸ hget)
    · cases hkey : ref == d.get? "debitRef" with
      | true =>
          rw [(claimDebitRef_ok hclaim).1, JsMap.get_congr hkey,
            JsMap.get_set_self (BEq.trans (BEq.symm hkey) hkey)] at hget
          exact ⟨rid, d, h.debit hd, (eq_of_beq_ref hkey).symm, by
            rw [h.request]
            exact Option.some.inj hget⟩
      | false =>
          rw [(claimDebitRef_ok hclaim).1, JsMap.get_set_of_ne hkey] at hget
          exact hold hget

/-- A move keeps the audit trail: the receipt that it records is that of its own record. -/
theorem Move.audited (h : Move P env O rid t s u u') (ha : Audited u) : Audited u' := by
  obtain ⟨l, hnd, hmem, haudit⟩ := ha
  have hothers : ∀ i, i ≠ rid → (u'.heap i).ledger = (u.heap i).ledger := fun i hi => by
    rw [h.heap_of_ne hi]
  rcases h.effect.audited with ⟨hsame, hledger⟩ | ⟨ledger, hbefore, hafter, hnew⟩
  · have hall : ∀ i, (u'.heap i).ledger = (u.heap i).ledger := fun i => by
      rcases eq_or_ne i rid with rfl | hi
      · exact hledger
      · exact hothers i hi
    refine ⟨l, hnd, fun i => by rw [hmem, hall], ?_⟩
    simp only [hsame, haudit, hall]
  · have hrid : rid ∉ l := fun hin => (hmem rid).mp hin hbefore
    refine ⟨rid :: l, List.nodup_cons.mpr ⟨hrid, hnd⟩, fun i => ?_, ?_⟩
    · rw [List.mem_cons]
      rcases eq_or_ne i rid with rfl | hi
      · simp [hafter]
      · rw [hmem, hothers i hi]
        exact or_iff_right hi
    · rw [hnew, List.map_cons, List.map_cons, hafter, haudit]
      congr 1
      refine List.map_congr_left fun i hi => (hothers i ?_).symm
      rintro rfl
      exact hrid hi

/-- A move of a run whose record was accepted adds no record, and leaves the list of acceptances
alone. -/
theorem Move.ownRecords (h : Move P env O rid t s u u') (hrid : rid ∈ u.accepters)
    (hr : OwnRecords u) :
    OwnRecords u' := by
  obtain ⟨hcreated, -, -, haccepted⟩ := h.effect.table
  have haccepters : u'.accepters = u.accepters := by rw [Store.accepters, haccepted]; rfl
  refine ⟨haccepters ▸ hr.nodup, by rw [haccepted, hcreated]; exact hr.lt, fun e he => ?_,
    by rw [haccepted]; exact hr.named, fun i hi => ?_⟩
  · rw [haccepted] at he
    rcases eq_or_ne e.1 rid with heq | hne
    · rw [heq, h.request, ← heq]
      exact hr.requestId e he
    · rw [h.heap_of_ne hne]
      exact hr.requestId e he
  · rw [haccepters] at hi
    rw [h.others i fun heq => hi (heq ▸ hrid)]
    exact hr.blank i hi

/-- **A move keeps the books.** The phase of its own record goes on, the phases of the others stand,
and each shared table is kept by the lemma about it. -/
theorem Move.books (h : Move P env O rid t s u u') (hrid : rid ∈ u.accepters)
    (hb : Books P env O u) : Books P env O u' where
  phase i := by
    rcases eq_or_ne i rid with rfl | hi
    · exact ⟨t, h.phase⟩
    · obtain ⟨t₀, hphase⟩ := hb.phase i
      refine ⟨t₀, ?_⟩
      rw [h.heap_of_ne hi, show u'.deeds i = u.deeds i from congrArg Account.deeds (h.others i hi)]
      exact hphase
  ownRecords := h.ownRecords hrid hb.ownRecords
  table := h.effect.table.table hb.table
  claims := h.claims hb
  guards := by
    rcases h.effect.guards with hsame | ⟨token, -, hfresh, rfl⟩
    · exact hsame.guards hb.guards
    · exact hb.guards.redeem hfresh
  metered := by
    rcases h.effect.meters with ⟨hmeters, hdispensed⟩ | ⟨meterId, rfl⟩ | ⟨token, balance, -, -, rfl⟩
    · exact ⟨hmeters ▸ hb.metered.distinct, by rw [hmeters, hdispensed]; exact hb.metered.sum⟩
    · exact hb.metered.ensureMeter meterId
    · exact hb.metered.credit token balance
  audited := h.audited hb.audited

section CreateRecord

variable {request : GenerationRequest}

/-- A record that is made for a request is listed as its own, and the others stay as they are. -/
theorem OwnRecords.createRecord (h : OwnRecords u) (hrid : rid < u.created)
    (hnew : rid ∉ u.accepters) (hid : request.requestId ≠ "") :
    OwnRecords (u.createRecord rid request) := by
  have haccepted : (u.createRecord rid request).accepted =
      (rid, request.requestId) :: u.accepted := by
    rw [createRecord_eq]
  have hcreated : (u.createRecord rid request).created = u.created := by
    rw [createRecord_eq]
  have haccepters : (u.createRecord rid request).accepters = rid :: u.accepters := by
    rw [Store.accepters, haccepted]
    rfl
  refine ⟨?_, ?_, ?_, ?_, fun i hi => ?_⟩
  · rw [haccepters]
    exact List.nodup_cons.mpr ⟨hnew, h.nodup⟩
  · rw [haccepted, hcreated]
    exact List.forall_mem_cons.mpr ⟨hrid, h.lt⟩
  · rw [haccepted]
    refine List.forall_mem_cons.mpr ⟨by rw [heap_createRecord_self]; rfl, fun e he => ?_⟩
    have hne : e.1 ≠ rid := fun heq => hnew (heq ▸ List.mem_map_of_mem (f := Prod.fst) he)
    rw [heap_createRecord hne]
    exact h.requestId e he
  · rw [haccepted]
    exact List.forall_mem_cons.mpr ⟨hid, h.named⟩
  · rw [haccepters, List.mem_cons, not_or] at hi
    rw [account_createRecord hi.1]
    exact h.blank i hi.2

/-- A record that is made for a request claims nothing, and owns nothing that was claimed. -/
theorem Claims.createRecord (h : Claims u) (hblank : u.account rid = .blank cfg) :
    Claims (u.createRecord rid request) := by
  have hconsumed : (u.createRecord rid request).consumedDebitRefs = u.consumedDebitRefs := by
    rw [createRecord_eq]
  refine ⟨fun i hch => ?_, fun ref owner hget => ?_⟩
  · rcases eq_or_ne i rid with rfl | hi
    · rw [account_createRecord_self, show u.deeds i = _ from congrArg Account.deeds hblank] at hch
      rcases hch with ⟨hpending, -⟩ | hreversals
      · exact absurd rfl hpending
      · exact absurd rfl hreversals
    · rw [account_createRecord hi] at hch
      rw [Claimed, heap_createRecord hi, hconsumed]
      exact h.claimed i hch
  · rw [hconsumed] at hget
    obtain ⟨i, d, hd, href, howner⟩ := h.owners ref owner hget
    have hi : i ≠ rid := by
      rintro rfl
      rw [show u.heap i = _ from congrArg Account.record hblank] at hd
      cases hd
    exact ⟨i, d, by rw [heap_createRecord hi, hd], href, by rw [heap_createRecord hi, howner]⟩

/-- **A record that is made for a request** keeps the books: it begins at the first phase, the table
has it in front, and no other record is written. -/
theorem Books.createRecord (hb : Books P env O u) (hrid : rid < u.created)
    (hnew : rid ∉ u.accepters) (hid : request.requestId ≠ "") :
    Books P env O (u.createRecord rid request) := by
  have hblank := hb.ownRecords.blank rid hnew
  have hguards : SameGuards u (u.createRecord rid request) := by
    rw [createRecord_eq]
    exact ⟨rfl, rfl, rfl⟩
  have hmeters : (u.createRecord rid request).meters = u.meters ∧
      (u.createRecord rid request).dispensed = u.dispensed ∧
      (u.createRecord rid request).audit = u.audit := by
    rw [createRecord_eq]
    exact ⟨rfl, rfl, rfl⟩
  refine ⟨fun i => ?_, hb.ownRecords.createRecord hrid hnew hid, hb.table.createRecord,
    hb.claims.createRecord hblank, hguards.guards hb.guards, ⟨?_, ?_⟩, ?_⟩
  · rcases eq_or_ne i rid with rfl | hi
    · refine ⟨[], ?_⟩
      rw [heap_createRecord_self, deeds_createRecord_self,
        show u.deeds i = .none from congrArg Account.deeds hblank]
      exact .idle ⟨rfl, rfl, rfl, rfl, rfl⟩
    · obtain ⟨t, hphase⟩ := hb.phase i
      refine ⟨t, ?_⟩
      rw [heap_createRecord hi, show (u.createRecord rid request).deeds i = _ from
        congrArg Account.deeds (account_createRecord hi)]
      exact hphase
  · rw [hmeters.1]
    exact hb.metered.distinct
  · rw [hmeters.1, hmeters.2.1]
    exact hb.metered.sum
  · obtain ⟨l, hnd, hmem, haudit⟩ := hb.audited
    have hledger : ∀ i, ((u.createRecord rid request).heap i).ledger = (u.heap i).ledger := by
      intro i
      rcases eq_or_ne i rid with rfl | hi
      · rw [heap_createRecord_self, show u.heap i = _ from congrArg Account.record hblank]
        rfl
      · rw [heap_createRecord hi]
    refine ⟨l, hnd, fun i => by rw [hmem, hledger], ?_⟩
    simp only [hmeters.2.2, haudit, hledger]

end CreateRecord

/-- Two charged debits that are equal belong to requests of one identifier. -/
theorem Claims.apart (hc : Claims u) {j : ℕ} (hi : (u.account i).Charged)
    (hj : (u.account j).Charged) {d d' : Json} (hd : (u.heap i).debit = some d)
    (hd' : (u.heap j).debit = some d')
    (h : (d.get? "debitRef" == d'.get? "debitRef") = true) :
    (u.heap i).request.requestId = (u.heap j).request.requestId := by
  have howner := hc.claimed i hi d hd (BEq.trans h (BEq.symm h))
  have howner' := hc.claimed j hj d' hd' (BEq.trans (BEq.symm h) h)
  rw [JsMap.get_congr h] at howner
  exact Option.some.inj (howner.symm.trans howner')

/-- A token that is redeemed is the one its debit authorises, and the debit is charged. -/
theorem Phase.redeemer {r : PipelineRecord cfg} {e : Deeds} (h : Phase P env O i t r e)
    {token : Token} (hmem : token ∈ e.redemptions) : (⟨r, e⟩ : Account cfg).Charged ∧
      r.token = some token ∧ ∃ d, r.debit = some d ∧
        buildTokenPayload P (some d) = .ok token.toTokenPayload := by
  have hbacked : ∀ {k : ℕ}, Backed P env O i k t r → 5 ≤ k → r.token = some token →
      ∃ d, r.debit = some d ∧ buildTokenPayload P (some d) = .ok token.toTokenPayload := by
    intro k hb hk htoken
    obtain ⟨d, hd, -⟩ := hb.debited
    obtain ⟨token', signerSet, htoken', -, hsigned⟩ := hb.signed (by omega)
    obtain rfl : token = token' := Option.some.inj (htoken.symm.trans htoken')
    exact ⟨d, hd, hd ▸ hsigned.payload⟩
  cases h with
  | idle h | asked h => exact nomatch hmem
  | @running k _ _ redeemed _ h hfits =>
      rw [Deeds.of, Option.mem_toList] at hmem
      rcases hfits.redeemed_eq with hnone | ⟨heq, hk⟩
      · exact nomatch hnone.symm.trans hmem
      · have htoken := heq.symm.trans hmem
        exact ⟨h.charged (by omega), htoken, hbacked h.backed hk htoken⟩
  | rejected _ _ _ _ he => rcases he with rfl | rfl <;> exact nomatch hmem
  | @abandoned k _ _ redeemed h hk hstatus _ hfits =>
      rw [Deeds.of, Option.mem_toList] at hmem
      rcases hfits.redeemed_eq with hnone | ⟨heq, hk⟩
      · exact nomatch hnone.symm.trans hmem
      · have htoken := heq.symm.trans hmem
        refine ⟨.inl ⟨?_, ?_⟩, htoken, hbacked h hk htoken⟩ <;> simp [hstatus]

/-- What the books say of a store by itself, without the evidence of the runs: this is what the
other parties of a system may rely on. -/
structure Core (P : Platform) (u : Store cfg) : Prop where
  ownRecords : OwnRecords u
  claims : Claims u
  guards : Guards u
  redeemers : ∀ e ∈ u.redemptions, (u.account e.1).Charged ∧ (u.heap e.1).token = some e.2 ∧
    ∃ d, (u.heap e.1).debit = some d ∧ buildTokenPayload P (some d) = .ok e.2.toTokenPayload

/-- The books have it as a part. -/
theorem Books.core (hb : Books P env O u) : Core P u := by
  refine ⟨hb.ownRecords, hb.claims, hb.guards, fun e he => ?_⟩
  obtain ⟨t, hphase⟩ := hb.phase e.1
  exact hphase.redeemer (mem_ofRun.mpr he)

end Books

end NoGhost
