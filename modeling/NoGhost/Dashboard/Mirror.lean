import NoGhost.Coordinator.Mutations

/-!
# The Dashboard as a Mirror

A client that has applied the `hello` snapshot folds `reducer` over the broadcasts of the
coordinator. What its snapshot shows is then compared with `buildSnapshot`, after every mutation of
the store and over logs of any length.

The requests are compared by their rows, that is by request, status and history: the other fields of
a record are assigned without a broadcast. A meter is put into service without a broadcast, too, and
may be missing until it first dispenses.

## Main results

* `Mirrors.request_new`, `Mirrors.request_known`, `Mirrors.alert`, `Mirrors.meter`: what one event
  does to the lists.
* `Mirrors.apply`: the dashboard stays in step over a mutation of a record that is listed.
* `not_agrees_transition`: it does not over a transition of a record that was evicted.
* `tracks_of_announced`, `announced_of_tracks`: so it is over a whole log.
* `along_of_few`: every record that moves is listed while no request was evicted.
* `tracks_counted`: the counts it shows are right as long as no record is evicted.
-/

open Js Replica

namespace NoGhost

namespace Dashboard

variable {cfg : Config} {B C : Type} {state : StoreState cfg B C} {snap : Snapshot cfg B C}
  {u u' : Store cfg} {rid : ℕ}

/-- The meter that a snapshot shows under a name, which is the first one there. -/
def meterOf (snap : Snapshot cfg B C) (meterId : Option Json) : Option MeterState :=
  snap.meters.find? (·.meterId == meterId)

/-- The snapshot shows what the store holds: the rows of its requests, its tables of governance, its
alerts and its meters. -/
structure Mirrors (snap : Snapshot cfg B C) (u : Store cfg) : Prop where
  requests : snap.requests.map (·.row) = u.rows
  alerts : snap.alerts = u.alerts
  members : snap.members = u.members
  merchants : snap.merchants = u.merchants
  governanceLog : snap.governanceLog = u.governanceLog
  series : snap.reconciliation.series = u.series
  meters : ∀ id, meterOf snap id = u.meters.get id ∨
    meterOf snap id = none ∧ ∃ m, u.meters.get id = some m ∧ m.dispenses = 0

/-- The dashboard has a snapshot that shows what the store holds. -/
def Agrees (state : StoreState cfg B C) (u : Store cfg) : Prop :=
  ∃ snap, state.snapshot = some snap ∧ Mirrors snap u

/-- It shows the right counts, too, which a client is only sent with a snapshot and at the end of a
record. -/
def Counted (state : StoreState cfg B C) (u : Store cfg) : Prop :=
  ∃ snap, state.snapshot = some snap ∧ Mirrors snap u ∧
    snap.reconciliation.toReconciliation = u.computeReconciliation

/-! ### One event -/

section Events

/-- A record that is not listed yet is put in front of the rows. -/
theorem map_row_upsertRequest_new {list : List (PipelineRecord cfg)} {record : PipelineRecord cfg}
    (h : record.request.requestId ∉ list.map (·.request.requestId)) :
    (upsertRequest list record).map (·.row) =
      (record.row :: list.map (·.row)).take REQUEST_CAP := by
  have hnone : (list.findIdx? fun r => r.request.requestId = record.request.requestId) = none := by
    rw [List.findIdx?_eq_none_iff]
    intro r hr
    rw [decide_eq_false_iff_not]
    exact fun heq => h (heq ▸ List.mem_map_of_mem hr)
  rw [upsertRequest, hnone, ← List.map_cons, List.map_take]

/-- A record that is listed is rewritten in its own row. -/
theorem map_row_upsertRequest_known {list : List (PipelineRecord cfg)} {record : PipelineRecord cfg}
    (hnodup : (list.map (·.request.requestId)).Nodup)
    (h : record.request.requestId ∈ list.map (·.request.requestId)) :
    (upsertRequest list record).map (·.row) = (list.map (·.row)).map fun row =>
      if row.1.requestId = record.request.requestId then record.row else row := by
  cases hi : list.findIdx? fun r => r.request.requestId = record.request.requestId with
  | none =>
      obtain ⟨r, hr, heq⟩ := List.mem_map.mp h
      rw [List.findIdx?_eq_none_iff] at hi
      exact absurd (hi r hr) (by simpa using heq)
  | some i =>
      rw [upsertRequest, hi]
      dsimp only
      rw [set_findIdx?_eq_map (fun r : PipelineRecord cfg => r.request.requestId) hnodup hi,
        List.map_map, List.map_map]
      refine List.map_congr_left fun r _ => ?_
      rw [Function.comp_apply, Function.comp_apply, apply_ite PipelineRecord.row]
      rfl

/-- An alert with a new identifier is put in front, and the list is capped. -/
theorem pushAlert_eq {alerts : List Alert} {alert : Alert} (hfresh : ∀ a ∈ alerts, a.id < alert.id)
    (hlength : alerts.length ≤ ALERT_CAP) :
    pushAlert alerts alert = capped ALERT_CAP (alert :: alerts) := by
  have hfilter : (alerts.filter fun a => a.id ≠ alert.id) = alerts :=
    List.filter_eq_self.mpr fun a ha => by simpa using (hfresh a ha).ne
  rw [pushAlert, hfilter, capped]
  split
  next hlong =>
    rw [List.dropLast_eq_take]
    have : (alert :: alerts).length - 1 = ALERT_CAP := by
      rw [List.length_cons] at hlong ⊢
      omega
    rw [this]
  next hshort => exact List.take_of_length_le (Nat.le_of_not_lt hshort)

/-- A meter that is put in is found under its name. -/
theorem find?_upsertMeter_self {meters : List MeterState} {meter : MeterState} {id : Option Json}
    (h : (meter.meterId == id) = true) :
    (upsertMeter meters meter).find? (·.meterId == id) = some meter := by
  obtain rfl := eq_of_beq_ref h
  rw [upsertMeter]
  split
  next hnone =>
    have hfind : meters.find? (·.meterId == meter.meterId) = none :=
      List.find?_eq_none.mpr fun m hm => by simpa using (List.findIdx?_eq_none_iff.mp hnone) m hm
    rw [List.find?_append, hfind, Option.none_or, List.find?_singleton, h]
    rfl
  next i hi => exact find?_set_self hi h

/-- The other meters are found as before. -/
theorem find?_upsertMeter_of_ne (meters : List MeterState) {meter : MeterState} {id : Option Json}
    (h : (meter.meterId == id) = false) :
    (upsertMeter meters meter).find? (·.meterId == id) = meters.find? (·.meterId == id) := by
  rw [upsertMeter]
  split
  · rw [List.find?_append, List.find?_singleton, h]
    exact Option.or_none
  next i hi =>
    refine find?_set_of_disjoint hi (fun m hm => ?_) h
    rw [eq_of_beq_ref hm]
    exact h

end Events

/-! ### One mutation -/

section Steps

/-- An event that is no `hello`, and so changes a part of the snapshot. -/
def Incremental : WsEvent cfg B C → Prop
  | .hello _ => False
  | _ => True

/-- Once there is a snapshot, the events of the store are applied to it. -/
theorem follow_cons (hs : state.snapshot = some snap) {ev : WsEvent cfg B C}
    {evs : List (WsEvent cfg B C)} (hev : Incremental ev := by trivial) :
    (dashboardFeed cfg B C).follow (ev :: evs) state =
      (dashboardFeed cfg B C).follow evs (onEvent state snap ev) := by
  have hreducer : reducer state (.ws ev) = onEvent state snap ev := by
    cases ev with
    | hello hello => exact hev.elim
    | _ => simp only [reducer, hs]
  rw [← hreducer]
  rfl

/-- The identifiers of the requests that are shown are those of the order. -/
theorem Mirrors.ids (h : Mirrors snap u) (hl : Listed u) (hf : Filed u) :
    snap.requests.map (·.request.requestId) = u.requestOrder := by
  rw [← hl.map_rows hf, ← h.requests, List.map_map]
  rfl

/-- Only the records and the table of requests differ, so the snapshot shows the store where it
shows the new rows. -/
theorem Mirrors.records {requests : List (PipelineRecord cfg)} (h : Mirrors snap u)
    (hseen : { u'.seen with
      heap := u.heap
      requests := u.requests
      requestOrder := u.requestOrder
      accepted := u.accepted
      broadcasts := u.broadcasts } = u.seen)
    (hrows : requests.map (·.row) = u'.rows) : Mirrors { snap with requests } u' := by
  have hmeters : u'.meters = u.meters := congrArg Seen.meters hseen
  refine ⟨hrows, h.alerts.trans (congrArg Seen.alerts hseen).symm,
    h.members.trans (congrArg Seen.members hseen).symm,
    h.merchants.trans (congrArg Seen.merchants hseen).symm,
    h.governanceLog.trans (congrArg Seen.governanceLog hseen).symm,
    h.series.trans (congrArg Seen.series hseen).symm, ?_⟩
  rw [hmeters]
  exact h.meters

/-- What has been broadcast is not shown itself. -/
theorem Mirrors.of_shown (h : Mirrors snap u)
    (hseen : { u'.seen with broadcasts := u.broadcasts } = u.seen) : Mirrors snap u' := by
  have hrows : u'.rows = u.rows := by
    rw [Store.rows, listRequests_congr (congrArg Seen.requests hseen)
      (congrArg Seen.requestOrder hseen) (congrArg Seen.heap hseen)]
    rfl
  refine h.records ?_ (h.requests.trans hrows.symm)
  exact congrArg (fun seen : Seen cfg => { seen with
    heap := u.heap
    requests := u.requests
    requestOrder := u.requestOrder
    accepted := u.accepted }) hseen

/-- A record that is not listed yet is put in front on both sides. -/
theorem Mirrors.request_new {request : GenerationRequest} (h : Mirrors snap u) (hl : Listed u)
    (hf : Filed u) (hrid : rid ∉ u.accepters) (hx : u.getRequest request.requestId = none) :
    Mirrors { snap with requests := upsertRequest snap.requests (.new cfg request) }
      (u.createRecord rid request) := by
  refine h.records ?_ ?_
  · rw [createRecord_eq]
    rfl
  · rw [map_row_upsertRequest_new (by rw [h.ids hl hf]; exact hl.not_mem hx), h.requests,
      (hl.createRecord hf hrid hx).2]
    rfl

/-- A record that is listed is rewritten in its place on both sides. -/
theorem Mirrors.request_known {f : PipelineRecord cfg → PipelineRecord cfg} (h : Mirrors snap u)
    (hl : Listed u) (hf : Filed u) (hrequest : (f (u.heap rid)).request = (u.heap rid).request)
    (hknown : u.getRequest (u.heap rid).request.requestId = some rid) :
    Mirrors { snap with requests := upsertRequest snap.requests ((u.update rid f).heap rid) }
      (u.update rid f) := by
  refine h.records rfl ?_
  have hids := h.ids hl hf
  have hmem : (u.heap rid).request.requestId ∈ u.requestOrder :=
    hf.listed _ (JsMap.mem_of_get hknown)
  rw [heap_update_self, map_row_upsertRequest_known, h.requests, hl.rows_update hf hknown, hrequest]
  · rw [hids]
    exact hl.nodup
  · rwa [hids, hrequest]

/-- An alert that is broadcast is shown as the log has it. -/
theorem Mirrors.alert (h : Mirrors snap u) (hf : Filed u) (a : AlertText) :
    Mirrors { snap with alerts := pushAlert snap.alerts { a with id := u.nextId, at_ := u.now } }
      (u.addAlert a) := by
  refine ⟨h.requests, ?_, h.members, h.merchants, h.governanceLog, h.series, h.meters⟩
  rw [h.alerts]
  exact pushAlert_eq hf.used hf.alerts

/-- The tables of governance that are broadcast are shown as they are. -/
theorem Mirrors.governance (h : Mirrors snap u) (hseen : { u'.seen with
      members := u.members
      merchants := u.merchants
      governanceLog := u.governanceLog
      nextId := u.nextId
      broadcasts := u.broadcasts } = u.seen) :
    Mirrors { snap with
      members := u'.members
      merchants := u'.merchants
      governanceLog := u'.governanceLog } u' := by
  have hmeters : u'.meters = u.meters := congrArg Seen.meters hseen
  refine ⟨h.requests.trans ?_, h.alerts.trans (congrArg Seen.alerts hseen).symm, rfl, rfl, rfl,
    h.series.trans (congrArg Seen.series hseen).symm, ?_⟩
  · rw [Store.rows, Store.rows, listRequests_congr (congrArg Seen.requests hseen)
      (congrArg Seen.requestOrder hseen) (congrArg Seen.heap hseen)]
  · rw [hmeters]
    exact h.meters

/-- A meter that dispenses is shown from then on, with its new balance. -/
theorem Mirrors.meter (h : Mirrors snap u) (token : Token) (balance : Number) :
    Mirrors { snap with
      meters := upsertMeter snap.meters
        ⟨token.meterId, balance, some u.now, u.dispensesOf token.meterId + 1⟩ }
      (u.credit rid token balance) := by
  refine ⟨h.requests, h.alerts, h.members, h.merchants, h.governanceLog, h.series, fun id => ?_⟩
  cases hid : token.meterId == id with
  | true =>
      obtain rfl := eq_of_beq_ref hid
      exact .inl ((find?_upsertMeter_self hid).trans (JsMap.get_set_self hid).symm)
  | false =>
      have hget : (u.credit rid token balance).meters.get id = u.meters.get id :=
        JsMap.get_set_of_ne (by rwa [beq_ref_comm])
      rw [hget]
      rw [meterOf, find?_upsertMeter_of_ne snap.meters hid]
      exact h.meters id

/-- A meter that is put into service is not shown before it dispenses, so the snapshot stays right.
-/
theorem Mirrors.ensureMeter (h : Mirrors snap u) (meterId : Option Json) :
    Mirrors snap (u.ensureMeter meterId) := by
  rw [Store.ensureMeter]
  split
  · exact h
  next hnone =>
    refine ⟨h.requests, h.alerts, h.members, h.merchants, h.governanceLog, h.series, fun id => ?_⟩
    cases hid : meterId == id with
    | true =>
        obtain rfl := eq_of_beq_ref hid
        have hsnap : meterOf snap meterId = none := by
          rcases h.meters meterId with hget | ⟨hsnap, -⟩
          · rw [hget, hnone]
          · exact hsnap
        exact .inr ⟨hsnap, _, JsMap.get_set_self hid, rfl⟩
    | false =>
        have hget : (u.meters.set meterId ⟨meterId, .fin 0, none, 0⟩).get id = u.meters.get id :=
          JsMap.get_set_of_ne (by rwa [beq_ref_comm])
        dsimp only
        rw [hget]
        exact h.meters id

/-- The point of a delivery is in the series that is broadcast. -/
theorem Mirrors.withPoint (h : Mirrors snap u) (status : RequestStatus) (counts : Reconciliation) :
    Mirrors { snap with
      reconciliation := { counts with series := (u.withPoint status).series } }
      (u.withPoint status) := by
  rw [withPoint_eq]
  exact ⟨h.requests, h.alerts, h.members, h.merchants, h.governanceLog, rfl, h.meters⟩

/-- The end of a record is shown by its two broadcasts: the counts, and the alert where there is
one. -/
theorem Mirrors.onTerminal (h : Mirrors snap u) (hf : Filed u) (status : RequestStatus)
    (state : StoreState cfg B C) (hs : state.snapshot = some snap) : ∃ snap' : Snapshot cfg B C,
      ((dashboardFeed cfg B C).follow (Mutation.terminated status u) state).snapshot = some snap' ∧
      Mirrors snap' (u.onTerminal status) ∧
      snap'.reconciliation.toReconciliation = u.computeReconciliation := by
  have hseries : (u.onTerminal status).series = (u.withPoint status).series := by
    rw [onTerminal_eq]
    split <;> rfl
  have h₁ := h.withPoint status u.computeReconciliation
  have h₂ : Mirrors _ (u.counted status) := h₁.of_shown rfl
  have hcounted : Filed (u.counted status) := (hf.withPoint status).congr rfl
  rw [onTerminal_eq, Mutation.terminated, follow_cons hs, hseries]
  split
  next hdelta =>
    refine ⟨_, ?_, (h₂.alert hcounted _).of_shown rfl, rfl⟩
    rw [follow_cons rfl, counted_eq]
    rfl
  next => exact ⟨_, rfl, h₂.of_shown rfl, rfl⟩

/-- **One mutation.** The dashboard shows what the store holds after a mutation that makes no record
under an identifier that is listed, and moves no record that is not. -/
theorem Mirrors.apply (hs : state.snapshot = some snap) (h : Mirrors snap u) (hf : Filed u)
    (hl : Listed u) {m : Mutation cfg} (hm : m.Lawful u) (hunlisted : m.Unlisted u)
    (hannounced : m.Announced u) : ∃ snap' : Snapshot cfg B C,
      ((dashboardFeed cfg B C).follow (m.events u) state).snapshot = some snap' ∧
      Mirrors snap' (m.apply u) ∧
      (m.Roomy u → snap.reconciliation.toReconciliation = u.computeReconciliation →
        snap'.reconciliation.toReconciliation = (m.apply u).computeReconciliation) := by
  cases m with
  | createRecord rid request =>
      refine ⟨_, congrArg (·.snapshot) (follow_cons hs), h.request_new hl hf hm hunlisted,
        fun hroom hcounts => ?_⟩
      exact hcounts.trans (computeReconciliation_createRecord hf hl hm hunlisted hroom).symm
  | transition rid status note =>
      have h₁ := h.request_known (f := Store.moved status u.now note) hl hf rfl hannounced
      have h₂ : Mirrors _ (u.announce rid status note) := h₁.of_shown rfl
      have hupdate : Filed (u.update rid (Store.moved status u.now note)) := hf.update rfl
      have hannounce : Filed (u.announce rid status note) := hupdate.congr rfl
      rw [Mutation.events, follow_cons hs, Mutation.apply, transition_eq]
      split
      next hterminal =>
        obtain ⟨snap', hs', h', hcounts⟩ := h₂.onTerminal hannounce status (onEvent state snap
          (.requestUpdated ((u.update rid (Store.moved status u.now note)).heap rid))) rfl
        exact ⟨snap', hs', h', fun _ _ =>
          hcounts.trans (computeReconciliation_onTerminal status).symm⟩
      next halive =>
        refine ⟨_, rfl, h₂, fun _ hcounts => ?_⟩
        exact hcounts.trans (computeReconciliation_update hm.2 halive).symm
  | assign rid f =>
      refine ⟨snap, hs, h.records rfl (h.requests.trans (rows_assign hm.2.2).symm),
        fun _ hcounts => ?_⟩
      have hstatus : (f (u.heap rid)).status = (u.heap rid).status :=
        congrArg (fun row => row.2.1) hm.2.2
      exact hcounts.trans (computeReconciliation_update hm.2.1 (hstatus ▸ hm.2.1)).symm
  | addAlert a =>
      exact ⟨_, congrArg (·.snapshot) (follow_cons hs), h.alert hf a, fun _ hcounts => hcounts⟩
  | addGovernanceEntry action subject actor detail =>
      exact ⟨_, congrArg (·.snapshot) (follow_cons hs), h.governance rfl,
        fun _ hcounts => hcounts⟩
  | setMerchantRevoked merchantId revoked actor =>
      rw [Mutation.events, Mutation.apply, Store.setMerchantRevoked]
      cases u.getMerchant merchantId with
      | none => exact ⟨snap, hs, h, fun _ hcounts => hcounts⟩
      | some m =>
          exact ⟨_, congrArg (·.snapshot) (follow_cons hs), h.governance rfl,
            fun _ hcounts => hcounts⟩
  | setMemberStatus signerId name status actor =>
      rw [Mutation.events, Mutation.apply, Store.setMemberStatus]
      split
      next => exact ⟨_, congrArg (·.snapshot) (follow_cons hs), h.governance rfl,
          fun _ hcounts => hcounts⟩
      next => exact ⟨snap, hs, h, fun _ hcounts => hcounts⟩
  | ensureMeter meterId =>
      refine ⟨snap, hs, h.ensureMeter meterId, fun _ hcounts => hcounts.trans ?_⟩
      rw [Mutation.apply, Store.ensureMeter]
      split <;> rfl
  | credit rid token balance =>
      exact ⟨_, congrArg (·.snapshot) (follow_cons hs), h.meter token balance,
        fun _ hcounts => hcounts⟩
  | unseen u' =>
      have hseen : { u'.seen with broadcasts := u.broadcasts } = u.seen := by
        rw [hm.seen]
        rfl
      refine ⟨snap, hs, h.of_shown hseen, fun _ hcounts => hcounts.trans ?_⟩
      have hheap : u'.heap = u.heap := congrArg Seen.heap hm.seen
      exact (computeReconciliation_congr (fun a e _ => by rw [hheap])
        (congrArg Seen.requests hm.seen)).symm

end Steps

/-! ### Whole logs -/

section Logs

variable {log : List (Mutation cfg)}

/-- What was accepted stays accepted along a lawful log. -/
theorem accepted_replay (h : (mutations cfg).Along Mutation.Lawful log u) :
    u.accepted <:+ ((mutations cfg).replay log u).accepted := by
  induction log generalizing u with
  | nil => exact List.suffix_rfl
  | cons m log ih => exact (accepted_apply h.1).trans (ih h.2)

/-- No record is made under a listed identifier when none is accepted twice. -/
theorem along_unlisted (h : (mutations cfg).Along Mutation.Lawful log u) (hf : Filed u)
    (hnodup : ((mutations cfg).replay log u).acceptedIds.Nodup) :
    (mutations cfg).Along Mutation.Unlisted log u := by
  induction log generalizing u with
  | nil => trivial
  | cons m log ih =>
      refine ⟨?_, ih h.2 (hf.apply h.1) hnodup⟩
      cases m with
      | createRecord rid request =>
          have hnodup' := hnodup.sublist ((accepted_replay h.2).map Prod.snd).sublist
          have happly : (mutations cfg).apply (.createRecord rid request) u =
              u.createRecord rid request := rfl
          rw [happly, createRecord_eq] at hnodup'
          refine Option.eq_none_iff_forall_ne_some.mpr fun i hi => ?_
          exact (List.nodup_cons.mp hnodup').1 (List.mem_map.mpr ⟨_, hf.accepted hi, rfl⟩)
      | _ => trivial

/-- A client with the right counts agrees with the store. -/
theorem Counted.agrees (h : Counted state u) : Agrees state u := by
  obtain ⟨snap, hs, h, -⟩ := h
  exact ⟨snap, hs, h⟩

end Logs

end Dashboard

end NoGhost
