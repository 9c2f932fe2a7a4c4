import NoGhost.Coordinator.Pipeline
import NoGhost.Signer

/-!
# Requests

The model of the endpoints that start a run: `POST /api/requests` of `coordinator/index.ts`, and
the scenarios of `coordinator/demo.ts`. A handler goes on as the run that it starts, so it is a
program that ends when the run does; the source sends its response before that. What escapes a
run is logged, and changes nothing.

Random identifiers are part of the request that draws them. Of the controls that a scenario sets
at the bank and at the signers, and puts back, only the awaits before the record is made are left.
A listener of the record's last transition undoes the revocation of the merchant; here that comes
when the run is over, in the same segment. Where the watchdog comes first, which the request says,
the run's end undoes nothing, and the reinstatement is a move like those of the operator.

## Main definitions

* `postRequest`, `runScenario`: the handlers.
* `CoordinatorRequest`, `serve`: what a coordinator is asked to do.
-/

open Js Async

namespace NoGhost

variable (P : Platform) {cfg : Config} (env : CoordinatorEnv cfg)

/-! ### Fields -/

/-- What the body of a submission says, once it is checked. -/
structure RequestFields where
  requestId : String
  meterId : String
  amountKwh : ℚ
  merchantId : String
  deriving DecidableEq

/-- `typeof v !== 'string' || v.trim() === ''`, or the string. -/
def nonEmpty (v : Option Json) (message : String) : Except String String :=
  match v with
  | some (.str text) => if trim text = "" then .error message else .ok text
  | _ => .error message

/-- `typeof v !== 'number' || !Number.isFinite(v) || v <= 0`, or the number. -/
def positive (v : Option Json) (message : String) : Except String ℚ :=
  match v with
  | some (.num (.fin q)) => if q ≤ 0 then .error message else .ok q
  | _ => .error message

/-- The identifier of a submission: the one that is given, or a new one. -/
def requestIdOf (v : Option Json) (uuid : String) : Except String String :=
  match v with
  | none => .ok ("REQ-" ++ uuid)
  | some v => trim <$> nonEmpty (some v) "requestId, when given, must be a non-empty string"

/-- The checks of `POST /api/requests`, in their order, with the message of each. -/
def requestFields (body : Json) (uuid : String) : Except String RequestFields := do
  let meterId ← nonEmpty (body.get? "meterId") "meterId must be a non-empty string"
  let merchantId ← nonEmpty (body.get? "merchantId") "merchantId must be a non-empty string"
  let amountKwh ← positive (body.get? "amountKwh") "amountKwh must be a finite number > 0"
  let requestId ← requestIdOf (body.get? "requestId") uuid
  pure { requestId, meterId, amountKwh, merchantId }

/-- `req.body ?? {}`, for bodies that are missing or null. -/
def bodyOrEmpty : Option Json → Json
  | none | some .null => .obj []
  | some body => body

/-- `RATE_WINDOW_MS`: the length of the window of the rate limit, ten seconds. -/
def RATE_WINDOW_MS : ℤ := 10000

/-- `RATE_MAX_PER_WINDOW`: the submissions of a merchant that are let through in a window. -/
def RATE_MAX_PER_WINDOW : ℕ := 20

/-- `rateLimitOk`: the hits that have left the window are dropped, and a submission is counted where
it is let through. -/
def Store.rateLimitOk (merchantId : String) (s : Store cfg) : Bool × Store cfg :=
  let hits := ((s.merchantHits.get merchantId).getD []).filter (s.clock - RATE_WINDOW_MS < ·)
  if RATE_MAX_PER_WINDOW ≤ hits.length then
    (false, { s with merchantHits := s.merchantHits.set merchantId hits })
  else (true, { s with merchantHits := s.merchantHits.set merchantId (hits ++ [s.clock]) })

/-- The body of a refusal by the rate limit. -/
def rateLimited (merchantId : String) : Json :=
  object [("error", some (.str "RATE_LIMITED")),
    ("detail", some (.str ("merchant " ++ merchantId ++ " exceeded " ++
      toString RATE_MAX_PER_WINDOW ++ " requests / " ++ toString (RATE_WINDOW_MS / 1000) ++
      "s (FR-14 anti-spam)")))]

/-- The request that is made of the fields, with the time of its submission. -/
def RequestFields.request (fields : RequestFields) (now : String) : GenerationRequest where
  requestId := fields.requestId
  meterId := trim fields.meterId
  amountKwh := fields.amountKwh
  merchantId := trim fields.merchantId
  timestamp := now

/-- `void runPipeline(record)`: what escapes the run is logged. -/
def launch (rid : ℕ) : CoordinatorProg cfg Unit :=
  (runPipeline P env rid).tryCatch fun _ => pure ()

/-- The response to a submission that is known. -/
def existing (requestId : String) : Response :=
  .json (object [("requestId", some (.str requestId)), ("existing", some (.bool true))])

/-- `POST /api/requests`: the fields are checked, an identifier that is known is answered without
another run, and a new request is accepted under the rate limit and run. -/
def postRequest (body : Option Json) (uuid : String) : CoordinatorProg cfg Response := do
  let rid ← Prog.modifyGet Store.reserve
  match requestFields (bodyOrEmpty body) uuid with
  | .error message => pure (.error 400 message)
  | .ok fields =>
      match ← Prog.gets (·.getRequest fields.requestId) with
      | some _ => pure (existing fields.requestId)
      | none =>
          if !(← Prog.modifyGet (Store.rateLimitOk (trim fields.merchantId))) then
            pure ⟨429, rateLimited fields.merchantId⟩
          else do
            Prog.modify fun s => s.createRecord rid (fields.request s.now)
            launch P env rid
            pure ⟨202, object [("requestId", some (.str fields.requestId))]⟩

/-! ### Scenarios -/

/-- `ScenarioKind`: the scenarios of the demo, of which `legit` is the one that is to succeed. -/
inductive ScenarioKind
  | legit
  | ghost
  | collusionShort
  | forgedAttestation
  | revokedMerchant
  deriving DecidableEq

/-- The text of a kind, as the body of the endpoint has it. -/
def ScenarioKind.text : ScenarioKind → String
  | legit => "legit"
  | ghost => "ghost"
  | collusionShort => "collusion-short"
  | forgedAttestation => "forged-attestation"
  | revokedMerchant => "revoked-merchant"

/-- `METER_IDS`, the meters that the demo takes in turn. -/
def METER_IDS : List String :=
  ["MTR-1001", "MTR-1002", "MTR-1003", "MTR-1004", "MTR-1005", "MTR-1006"]

/-- `MERCHANT_IDS`, the merchants that the demo takes in turn. -/
def MERCHANT_IDS : List String := ["MER-001", "MER-002", "MER-003"]

/-- `AMOUNT_KWH`: the amount that a scenario asks for. -/
def AMOUNT_KWH : ScenarioKind → ℚ
  | .legit => 50
  | .ghost => 30
  | .collusionShort => 40
  | .forgedAttestation => 60
  | .revokedMerchant => 25

/-- The identifier that a scenario draws, of which eight characters are kept. -/
def demoRequestId (uuid : String) : String := "REQ-DEMO-" ++ .ofList (uuid.toList.take 8)

/-- `rotation`, before it is increased for the next scenario. -/
def Store.rotate (s : Store cfg) : ℕ × Store cfg :=
  (s.rotation, { s with rotation := s.rotation + 1 })

/-- The part of `applyPreconditions` that is the coordinator's own. -/
def Store.applyPreconditions (kind : ScenarioKind) (merchantId : String) (s : Store cfg) :
    Store cfg :=
  if kind = .revokedMerchant then s.setMerchantRevoked merchantId true "demo" else s

/-- The part of `restorePreconditions` that is the coordinator's own. -/
def Store.restorePreconditions (kind : ScenarioKind) (merchantId : String) (s : Store cfg) :
    Store cfg :=
  if kind = .revokedMerchant then s.setMerchantRevoked merchantId false "demo" else s

/-- `settle`, as the listener calls it once the record is at its end. The watchdog may have
called it before, and it restores only once. The listener is called from within the broadcast of
the last transition, in front of the broadcast of the reconciliation; here it comes behind that, in
the same step. -/
def Store.settle (rid : ℕ) (kind : ScenarioKind) (merchantId : String) (watchdog : Bool)
    (s : Store cfg) : Store cfg :=
  if (s.heap rid).status ∈ TERMINAL ∧ watchdog = false then
    s.restorePreconditions kind merchantId
  else s

/-- `runScenario`. The identifier is not looked up before the record is made. -/
def runScenario (kind : ScenarioKind) (uuid : String) (watchdog : Bool) :
    CoordinatorProg cfg Response := do
  let rid ← Prog.modifyGet Store.reserve
  let rotation ← Prog.modifyGet Store.rotate
  let meterId := METER_IDS.getD (rotation % METER_IDS.length) ""
  let merchantId := MERCHANT_IDS.getD (rotation % MERCHANT_IDS.length) ""
  let requestId := demoRequestId uuid
  let _ ← Prog.call (.health cfg.SIGNERS)
  Prog.modify (Store.applyPreconditions kind merchantId)
  let _ ← Prog.call (.health cfg.SIGNERS)
  Prog.modify fun s =>
    s.createRecord rid ⟨requestId, meterId, AMOUNT_KWH kind, merchantId, s.now⟩
  launch P env rid
  Prog.modify (Store.settle rid kind merchantId watchdog)
  pure ⟨202, object [("requestId", some (.str requestId)), ("kind", some (.str kind.text))]⟩

/-! ### The service -/

/-- What starts a run, with the identifier that is drawn if one is. A scenario says whether its
watchdog fires before the run is at its end. -/
inductive CoordinatorRequest
  | post (body : Option Json) (uuid : String)
  | scenario (kind : ScenarioKind) (uuid : String) (watchdog : Bool)

/-- The handlers, by what is asked of the coordinator. -/
def serve : CoordinatorRequest → CoordinatorProg cfg Response
  | .post body uuid => postRequest P env body uuid
  | .scenario kind uuid watchdog => runScenario P env kind uuid watchdog

/-- The identifier of a request that is well formed. -/
def CoordinatorRequest.requestId? : CoordinatorRequest → Option String
  | post body uuid => match requestFields (bodyOrEmpty body) uuid with
    | .ok fields => some fields.requestId
    | .error _ => none
  | scenario _ uuid _ => some (demoRequestId uuid)

/-- The identifiers of the requests that were accepted, newest first. -/
def Store.acceptedIds (s : Store cfg) : List String := s.accepted.map (·.2)

end NoGhost
