import NoGhost.Coordinator.Store

/-!
# The Dashboard's Store

The model of the reducer of `dashboard/store.ts`: what the dashboard holds, and what an action makes
of it. A record, an alert or a meter is what the coordinator sent. The status of the bank and that
of the consortium are handed on as they come, so their types are parameters.

## Main definitions

* `Snapshot`, `WsEvent`: what the coordinator sends.
* `Dashboard.reducer`: what the dashboard makes of it.
-/

namespace NoGhost

/-- `Snapshot`: all that the dashboard shows, with the requests, the alerts and the governance log
newest first. -/
structure Snapshot (cfg : Config) (B C : Type) where
  requests : List (PipelineRecord cfg)
  bank : B
  consortium : C
  reconciliation : ReconciliationSeries
  alerts : List Alert
  members : List (cfg.SignerId × MemberStatus)
  merchants : List Merchant
  governanceLog : List GovernanceLogEntry
  meters : List MeterState

/-- `WsEvent`: what the coordinator sends. A message of another type is one too, for all that
`onmessage` checks. -/
inductive WsEvent (cfg : Config) (B C : Type)
  | hello (state : Snapshot cfg B C)
  | requestUpdated (record : PipelineRecord cfg)
  | bankStatus (bank : B)
  | consortiumStatus (consortium : C)
  | reconciliation (reconciliation : ReconciliationSeries)
  | alert (alert : Alert)
  | governanceUpdated (members : List (cfg.SignerId × MemberStatus)) (merchants : List Merchant)
      (governanceLog : List GovernanceLogEntry)
  | meterUpdated (meter : MeterState)
  | other

namespace Dashboard

variable {cfg : Config} {B C : Type}

/-- `ConnState`: how the dashboard is connected with the coordinator. -/
inductive ConnState
  | connecting
  | live
  | polling
  | offline
  deriving DecidableEq

/-- `StoreState`: the last snapshot, the state of the connection and the toasts on show. -/
structure StoreState (cfg : Config) (B C : Type) where
  snapshot : Option (Snapshot cfg B C)
  conn : ConnState
  toasts : List Alert

/-- `StoreAction`: a snapshot, an event of the socket, a new state of the connection, or a toast
that is dismissed. -/
inductive StoreAction (cfg : Config) (B C : Type)
  | snapshot (state : Snapshot cfg B C)
  | ws (event : WsEvent cfg B C)
  | conn (conn : ConnState)
  | toastDismiss (id : ℕ)

/-- `REQUEST_CAP`, the bound of the list of requests. -/
def REQUEST_CAP : ℕ := 200

/-- `ALERT_CAP`, the bound of the list of alerts. -/
def ALERT_CAP : ℕ := 100

/-- `TOAST_CAP`, the bound of the toasts on show. -/
def TOAST_CAP : ℕ := 4

/-- `upsertRequest`: a record replaces the one with its identifier, or is put in front. -/
def upsertRequest (list : List (PipelineRecord cfg)) (record : PipelineRecord cfg) :
    List (PipelineRecord cfg) :=
  match list.findIdx? fun r => r.request.requestId = record.request.requestId with
  | none => (record :: list).take REQUEST_CAP
  | some i => list.set i record

/-- `pushToast`: an alert that is not on show yet is put in front. -/
def pushToast (toasts : List Alert) (alert : Alert) : List Alert :=
  if toasts.any (·.id = alert.id) then toasts else (alert :: toasts).take TOAST_CAP

/-- `applySnapshot`: the newest alerts that are no news are toasted, the oldest of them first. -/
def applySnapshot (state : StoreState cfg B C) (snap : Snapshot cfg B C) : StoreState cfg B C :=
  { state with
    snapshot := some snap
    toasts := match state.snapshot with
      | none => state.toasts
      | some old =>
          let fresh := snap.alerts.filter fun a =>
            !old.alerts.any (·.id = a.id) && a.severity ≠ .info
          (fresh.take 3).reverse.foldl pushToast state.toasts }

/-- An alert is put in front, and taken out where it was. -/
def pushAlert (alerts : List Alert) (alert : Alert) : List Alert :=
  (alert :: alerts.filter fun a => a.id ≠ alert.id).take ALERT_CAP

/-- A meter is replaced where it is, or put at the end. -/
def upsertMeter (meters : List MeterState) (meter : MeterState) : List MeterState :=
  match meters.findIdx? fun m => m.meterId == meter.meterId with
  | none => meters ++ [meter]
  | some i => meters.set i meter

/-- The branch of the reducer for an event that is no `hello`, once there is a snapshot. -/
def onEvent (state : StoreState cfg B C) (snap : Snapshot cfg B C) (ev : WsEvent cfg B C) :
    StoreState cfg B C :=
  match ev with
  | .requestUpdated record =>
      { state with snapshot := some { snap with requests := upsertRequest snap.requests record } }
  | .bankStatus bank => { state with snapshot := some { snap with bank } }
  | .consortiumStatus consortium => { state with snapshot := some { snap with consortium } }
  | .reconciliation reconciliation =>
      { state with snapshot := some { snap with reconciliation } }
  | .alert alert =>
      { state with
        snapshot := some { snap with alerts := pushAlert snap.alerts alert }
        toasts := pushToast state.toasts alert }
  | .governanceUpdated members merchants governanceLog =>
      { state with snapshot := some { snap with members, merchants, governanceLog } }
  | .meterUpdated meter =>
      { state with snapshot := some { snap with meters := upsertMeter snap.meters meter } }
  | .hello _ | .other => state

/-- `reducer`: the state after an action. -/
def reducer (state : StoreState cfg B C) : StoreAction cfg B C → StoreState cfg B C
  | .conn conn => { state with conn }
  | .snapshot snap => applySnapshot state snap
  | .toastDismiss id => { state with toasts := state.toasts.filter (·.id ≠ id) }
  | .ws (.hello snap) => applySnapshot state snap
  | .ws ev =>
      match state.snapshot with
      | none => state
      | some snap => onEvent state snap ev

/-- `initialState`: nothing is known yet, and the connection is being made. -/
def initialState : StoreState cfg B C := ⟨none, .connecting, []⟩

/-! ### The connection state -/

section Conn

variable {state : StoreState cfg B C} {snap : Snapshot cfg B C}

@[simp] theorem conn_applySnapshot : (applySnapshot state snap).conn = state.conn := rfl

/-- An event of the socket leaves the state of the connection alone. -/
@[simp] theorem conn_onEvent {ev : WsEvent cfg B C} :
    (onEvent state snap ev).conn = state.conn := by
  cases ev <;> rfl

/-- Only an action that says so changes the connection state. -/
theorem conn_reducer {action : StoreAction cfg B C} (h : ∀ conn, action ≠ .conn conn) :
    (reducer state action).conn = state.conn := by
  cases action with
  | conn conn => exact absurd rfl (h conn)
  | snapshot snap => rfl
  | toastDismiss id => rfl
  | ws ev =>
      cases hsnap : state.snapshot with
      | none => cases ev <;> simp only [reducer, hsnap, conn_applySnapshot]
      | some snap => cases ev <;> simp only [reducer, hsnap, conn_applySnapshot, conn_onEvent]

end Conn

end Dashboard

end NoGhost
