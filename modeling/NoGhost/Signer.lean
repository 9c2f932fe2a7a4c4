import NoGhost.Async.Pool
import NoGhost.Chain
import NoGhost.Js.JsMap
import NoGhost.Verify

/-!
# The Signer Service

The model of `signer/index.ts`: the state of one consortium member, and a handler for each of
its endpoints. A handler runs without interruption up to an await: reading the ledger,
submitting a transaction, or sleeping between two reads.

A body has no known shape. What a handler raises is left to the web framework, which answers
nothing or an internal error; nothing reads that answer, so an exception just ends the
handler.

Three fields of the state are history, and no handler reads them: which session each stored
pair of nonces was stored for, which pairs a returned partial was signed with, and which
attestations were submitted.
-/

open Js Async

namespace NoGhost

/-! ### What a member has -/

/-- A wallet of the ledger client: its address, and its multisign signature of a prepared
transaction, which may raise. -/
structure Wallet where
  address : String
  sign : Json → Except String String

/-- The key share of a member, as far as it is read: the share itself, and the key of the group it
belongs to. -/
structure ShareFile where
  secretShare : String
  groupPublicKey : String

/-- What a member loads from disk: its share, the key of the bank, the manifest and its wallet. -/
structure SignerEnv (cfg : Config) where
  info : SignerInfo cfg.SignerId
  share : Option ShareFile
  /-- The bank's public key, pinned at boot. -/
  pinnedBankPublicKey : Option String
  xrplWallet : Option Wallet
  /-- Two files that are read on first use, which may raise. -/
  manifest : Except String (ConsortiumManifest cfg)
  encKey : Except String Bytes
  /-- `round2Sign` on a commitment list of the wrong types. JavaScript coerces an identifier
  such as `"2"` in some places and not in others; what comes out is left open. -/
  round2SignUntyped : Frost.Nonces → Bytes → List Json → Except String String

/-- A stored pair of nonces, with the time of its making. `serial` is its place in the history of
stored pairs. -/
structure Session where
  nonces : Frost.Nonces
  createdAt : ℤ
  serial : ℕ

/-- A submitted attestation, with the payload it was based on, which the source does not keep. -/
structure Submission where
  requestHash : String
  payload : Json
  verdict : Verdict
  tx : Tx

/-- The variables of a member's module, and the histories that its results are about. -/
structure SignerState where
  online : Bool
  refuse : Bool
  refuseReason : Option String
  lastPartialAt : Option ℤ
  sessions : JsMap String Session
  /-- Verdict and transaction hash of the attestations made, by request hash. -/
  approvedOnChain : JsMap String (Verdict × String)
  /-- `Date.now()`. -/
  clock : ℤ
  /-- History: the session of every stored pair of nonces, oldest first. -/
  stored : List String
  /-- History: the serials of the pairs that a returned partial was signed with. -/
  partials : List ℕ
  /-- History: the attestations that were submitted. -/
  submitted : List Submission

/-- A member at boot: online, willing, and without a session. -/
def SignerState.boot (clock : ℤ) : SignerState where
  online := true
  refuse := false
  refuseReason := none
  lastPartialAt := none
  sessions := []
  approvedOnChain := []
  clock := clock
  stored := []
  partials := []
  submitted := []

/-! ### Calls and responses -/

/-- What a handler awaits: the ledger, or time. -/
inductive SignerCall
  | accountTx (account : String)
  | tx (hash : String)
  | submit (tx : Tx)
  | sleep (ms : ℕ)

/-- The answers: a request to the ledger may raise. -/
abbrev SignerCall.Answer : SignerCall → Type
  | accountTx _ => Except String (List LedgerTx)
  | tx _ => Except String LedgerTx
  | submit _ => Except String String
  | sleep _ => Unit

/-- The handlers of a member, over its variables. -/
abbrev SignerProg (α : Type) := Prog SignerState String SignerCall SignerCall.Answer α

/-- What a handler answers: a status and a body. -/
structure Response where
  status : ℕ
  body : Json

/-- `res.json(body)`, with the status 200. -/
def Response.json (body : Json) : Response := ⟨200, body⟩

/-- `res.status(status).json({ error })`, the form of every refusal. -/
def Response.error (status : ℕ) (error : String) : Response :=
  ⟨status, object [("error", some (.str error))]⟩

/-! ### Sessions -/

/-- `SESSION_TTL_MS`: for how long a session is kept. -/
def SESSION_TTL_MS : ℤ := 5 * 60 * 1000

/-- `sweepExpiredSessions`: the sessions that are too old are dropped. -/
def sweepExpiredSessions (s : SignerState) : SignerState :=
  { s with sessions := s.sessions.filter fun e => !(e.2.createdAt < s.clock - SESSION_TTL_MS) }

/-- `sessions.delete(sessionId)`, by which its nonces are gone. -/
def deleteSession (sessionId : String) (s : SignerState) : SignerState :=
  { s with sessions := s.sessions.delete sessionId }

/-- `sessions.set(sessionId, { nonces, createdAt: Date.now() })`. -/
def storeSession (sessionId : String) (nonces : Frost.Nonces) (s : SignerState) : SignerState :=
  { s with
    sessions := s.sessions.set sessionId ⟨nonces, s.clock, s.stored.length⟩
    stored := s.stored ++ [sessionId] }

/-- A partial signature is returned: `lastPartialAt = new Date().toISOString()`. -/
def recordPartial (session : Session) (s : SignerState) : SignerState :=
  { s with lastPartialAt := some s.clock, partials := s.partials ++ [session.serial] }

/-- An attestation is submitted, which a history keeps. -/
def recordSubmission (sub : Submission) (s : SignerState) : SignerState :=
  { s with submitted := s.submitted ++ [sub] }

/-- `approvedOnChain.set(requestHash, { verdict, txHash })`. -/
def recordApproval (requestHash : String) (verdict : Verdict) (txHash : String)
    (s : SignerState) : SignerState :=
  { s with approvedOnChain := s.approvedOnChain.set requestHash (verdict, txHash) }

/-- `body?.sessionId`, when it is a string; the handlers turn an empty one down. -/
def sessionIdOf (body : Option Json) : Option String := (prop? body "sessionId").bind (·.asString)

section

variable (P : Platform) {cfg : Config} (env : SignerEnv cfg)

/-- `info.signerId` and `info.identifier` in a response. -/
def signerField : String × Option Json := ("signerId", some (.str (cfg.idText env.info.signerId)))

/-- The identifier of the member, as its answers have it. -/
def identifierField : String × Option Json :=
  ("identifier", some (.num (.fin env.info.identifier)))

/-! ### Administration -/

/-- `POST /api/admin/online`: the member is taken on or off line. -/
def adminOnline (body : Option Json) : SignerProg Response := do
  match prop? body "online" with
  | some (.bool next) => do
      Prog.modify fun s => { s with online := next }
      pure (.json (object [("online", some (.bool next))]))
  | _ => pure (.error 400 "online must be a boolean")

/-- `POST /api/admin/refuse`: the member is told to refuse, with a reason, or to stop refusing. -/
def adminRefuse (body : Option Json) : SignerProg Response := do
  match prop? body "refuse" with
  | some (.bool refuse) => do
      let reason := (prop? body "reason").bind (·.asString)
      Prog.modify fun s => { s with refuse := refuse, refuseReason := reason }
      pure (.json (object [("refuse", some (.bool refuse)),
        ("reason", some ((reason.map .str).getD .null))]))
  | _ => pure (.error 400 "refuse must be a boolean")

/-! ### Round 1 -/

/-- `POST /api/ceremony/round1`, with the random draws it makes. When they give no two nonces
the loop would go on drawing; that ends the handler here. -/
def round1 (body : Option Json) (draws : List Bytes) : SignerProg Response := do
  if !(← Prog.gets (·.online)) then pure (.error 503 "signer offline")
  else
    match env.share, truthyText (sessionIdOf body) with
    | none, _ => pure (.error 503 "secret share unavailable")
    | _, none => pure (.error 400 "sessionId required")
    | some share, some sessionId => do
        Prog.modify sweepExpiredSessions
        match Frost.round1 P.toCurve share.secretShare draws with
        | none => throw "still drawing"
        | some out => do
            let out ← Prog.ofExcept out
            Prog.modify (storeSession sessionId out.nonces)
            pure (.json (object [signerField env, identifierField env,
              ("commitment", some (object [("hiding", some (.str out.hidingHex)),
                ("binding", some (.str out.bindingHex))]))]))

/-! ### Attestations -/

/-- The verdict on a payload that was read off the ledger under `requestHash`. -/
def judge (s : SignerState) (key requestHash : String) (payload : Json) :
    Except String (Verdict × Option String) := do
  let request ← prop (some payload) "request"
  if hashValue P request ≠ requestHash then pure (.REJECT, some "REQUEST_HASH_MISMATCH")
  else if s.refuse then
    let suffix := match truthyText s.refuseReason with
      | some reason => ": " ++ reason
      | none => ""
    pure (.REJECT, some ("GOVERNANCE_REFUSAL" ++ suffix))
  else do
    match ← validateDebitForRequest P request (← prop (some payload) "debit") key with
    | some failure => pure (.REJECT, some failure.error)
    | none => pure (.APPROVE, none)

/-- `postApproval`: the submission, and the hash of the transaction once it is validated. -/
def postApproval (wallet : Wallet) (requestHash : String) (payload : Json) (verdict : Verdict)
    (reason : Option String) : SignerProg String := do
  let _ ← Prog.ofExcept env.manifest
  let tx := approvalTx P wallet.address (cfg.idText env.info.signerId) requestHash verdict reason
  Prog.modify (recordSubmission ⟨requestHash, payload, verdict, tx⟩)
  Prog.ofExcept (← Prog.call (.submit tx))

/-- The part of `/api/consensus/validate` inside its `try`. -/
def attest (wallet : Wallet) (key requestTxHash : String) : SignerProg Response := do
  let tx ← Prog.ofExcept (← Prog.call (.tx requestTxHash))
  match ← Prog.ofExcept (readRequest P env.encKey tx.toTx) with
  | none => pure (.error 400 "REQUEST_NOT_ON_CHAIN")
  | some (requestHash, payload) => do
      match ← Prog.gets (·.approvedOnChain.get requestHash) with
      | some (verdict, txHash) =>
          pure (.json (object [signerField env, ("verdict", some (.str verdict.text)),
            ("txHash", some (.str txHash)), ("requestHash", some (.str requestHash)),
            ("cached", some (.bool true))]))
      | none => do
          let (verdict, reason) ← Prog.ofExcept (judge P (← Prog.gets id) key requestHash payload)
          let txHash ← postApproval P env wallet requestHash payload verdict reason
          Prog.modify (recordApproval requestHash verdict txHash)
          pure (.json (object [signerField env, ("verdict", some (.str verdict.text)),
            ("reason", reason.map .str), ("txHash", some (.str txHash)),
            ("requestHash", some (.str requestHash))]))

/-- `POST /api/consensus/validate`: the member reads a published request, and attests its verdict to
the ledger. -/
def validate (body : Option Json) : SignerProg Response := do
  if !(← Prog.gets (·.online)) then pure (.error 503 "signer offline")
  else
    match env.share, truthyText env.pinnedBankPublicKey, env.xrplWallet with
    | some _, some key, some wallet =>
        match truthyText ((prop? body "requestTxHash").bind (·.asString)) with
        | none => pure (.error 400 "requestTxHash required")
        | some requestTxHash =>
            (attest P env wallet key requestTxHash).tryCatch fun e =>
              pure ⟨500, object [("error", some (.str "validate failed")),
                ("detail", some (.str e))]⟩
    | _, _, _ => pure (.error 503 "signer keys unavailable")

/-! ### The on-chain gate -/

/-- One count of `onChainApproveCount`, over the transactions of the authority. -/
def readApproveCount (requestHash : String) : SignerProg ℕ := do
  let M ← Prog.ofExcept env.manifest
  let txs ← Prog.ofExcept (← Prog.call (.accountTx M.authority))
  let approvals ← Prog.ofExcept (readApprovals P M requestHash txs)
  pure (approveCount approvals)

/-- The loop of `onChainApproveCount`, with the number of attempts that may follow this one. -/
def countAttempts (requestHash : String) : ℕ → SignerProg ℕ
  | 0 => readApproveCount P env requestHash
  | attempts + 1 => do
      let n ← readApproveCount P env requestHash
      if n ≥ cfg.XRPL_MULTISIGN_QUORUM then pure n
      else do
        Prog.call (SignerCall.sleep 1500)
        countAttempts requestHash attempts

/-- `onChainApproveCount`: four attempts, with a sleep before each but the first. -/
def onChainApproveCount (requestHash : String) : SignerProg ℕ :=
  countAttempts P env requestHash 3

/-- `POST /api/consensus/sign-receipt`: the member signs the receipt of a request that has enough
approvals. -/
def signReceipt (body : Option Json) : SignerProg Response := do
  if !(← Prog.gets (·.online)) then pure (.error 503 "signer offline")
  else
    match env.xrplWallet with
    | none => pure (.error 503 "signer XRPL key unavailable")
    | some wallet =>
        match (prop? body "prepared").filter Json.truthy,
            (prop? body "requestHash").bind (·.asString) with
        | some prepared, some requestHash => do
            let n ← onChainApproveCount P env requestHash
            if n < cfg.XRPL_MULTISIGN_QUORUM then
              pure ⟨409, object [("error", some (.str "NO_ONCHAIN_QUORUM")),
                ("approveCount", some (.num (.fin n)))]⟩
            else
              match wallet.sign prepared with
              | .ok fragment =>
                  pure (.json (object [signerField env, ("fragment", some (.str fragment))]))
              | .error e => pure ⟨500, object [("error", some (.str "fragment signing failed")),
                  ("detail", some (.str e))]⟩
        | _, _ => pure (.error 400 "prepared tx and requestHash required")

/-! ### Round 2 -/

/-- The parts of a round-2 body that signing reads, besides those that the checks read. -/
structure Round2Body where
  json : Json
  messageHex : String
  commitments : List Json

/-- The shape test of a round-2 body, and what it reads off the body. -/
def round2Body (body : Json) : Option Round2Body :=
  let isObject (key : String) : Bool := (body.get? key).any Json.isObject
  match body.get? "messageHex", body.get? "commitments" with
  | some (.str messageHex), some (.arr commitments) =>
      if isObject "debit" && isObject "request" && isObject "tokenPayload" then
        some ⟨body, messageHex, commitments⟩
      else none
  | _, _ => none

/-- A commitment with fields of the right types. -/
def commitmentOf (c : Json) : Option Frost.Commitment :=
  match c.get? "identifier", c.get? "hiding", c.get? "binding" with
  | some (.num (.fin q)), some (.str hidingHex), some (.str bindingHex) =>
      if q.den = 1 then some ⟨q.num, hidingHex, bindingHex⟩ else none
  | _, _, _ => none

/-- The partial signature for the message of a body. -/
def signPartial (share : ShareFile) (nonces : Frost.Nonces) (body : Round2Body) :
    Except String String := do
  let message ← hexToBytes body.messageHex
  match body.commitments.mapM commitmentOf with
  | some commitments =>
      Frost.round2Sign P.toCurve
        { identifier := env.info.identifier, secretShare := share.secretShare, nonces, message,
          commitments, groupPublicKey := share.groupPublicKey }
  | none => env.round2SignUntyped nonces message body.commitments

/-- The on-chain gate of round 2 and what follows it, for a session that passed every check. -/
def round2Gate (share : ShareFile) (sessionId : String) (session : Session)
    (body : Round2Body) : SignerProg Response := do
  let n ← onChainApproveCount P env (hashValue P (body.json.get? "request"))
  if n < cfg.XRPL_MULTISIGN_QUORUM then do
    Prog.modify (deleteSession sessionId)
    pure ⟨409, object [("error", some (.str "NO_ONCHAIN_QUORUM")),
      ("detail", some (.str ("only " ++ toString n ++ " on-chain approvals; need " ++
        toString cfg.XRPL_MULTISIGN_QUORUM)))]⟩
  else
    match signPartial P env share session.nonces body with
    | .ok zi => do
        Prog.modify fun s => deleteSession sessionId (recordPartial session s)
        pure (.json (object [signerField env, identifierField env, ("zi", some (.str zi))]))
    | .error e => do
        Prog.modify (deleteSession sessionId)
        pure ⟨500, object [("error", some (.str "signing failed")), ("detail", some (.str e))]⟩

/-- The checks of round 2 on a session that was found. A body that fails one of checks 3 to 6
consumes the session. -/
def round2Checks (sessionId : String) (session : Session) (body : Json) :
    SignerProg Response := do
  match env.share, truthyText env.pinnedBankPublicKey with
  | some share, some key =>
      match round2Body body with
      | none => pure (.error 400 "invalid Round2Request")
      | some parsed => do
          match ← Prog.ofExcept (runWall1TokenChecks P (some body) key) with
          | some failure => do
              Prog.modify (deleteSession sessionId)
              pure ⟨failure.status, object [("error", some (.str failure.error)),
                ("detail", some (.str failure.detail))]⟩
          | none => round2Gate P env share sessionId session parsed
  | _, _ => pure (.error 503 "signer keys unavailable")

/-- Round 2 of a member that refuses: the session is consumed. -/
def round2Refused (body : Option Json) : SignerProg Response := do
  Prog.modify fun s =>
    match sessionIdOf body with
    | some sessionId => deleteSession sessionId s
    | none => s
  let reason ← Prog.gets (·.refuseReason)
  pure ⟨403, object [("refused", some (.bool true)), signerField env,
    ("reason", some (.str (reason.getD "refusing to sign")))]⟩

/-- `POST /api/ceremony/round2`: the session is found, the checks are made, the approvals are
counted, and the share is signed. -/
def round2 (body : Option Json) : SignerProg Response := do
  if !(← Prog.gets (·.online)) then pure (.error 503 "signer offline")
  else do
    Prog.modify sweepExpiredSessions
    if ← Prog.gets (·.refuse) then round2Refused env body
    else
      match body, sessionIdOf body with
      | some json, some sessionId => do
          match ← Prog.gets (·.sessions.get sessionId) with
          | none => pure (.error 400 "unknown session")
          | some session => round2Checks P env sessionId session json
      | _, _ => pure (.error 400 "unknown session")

/-! ### The service -/

/-- A request to a member, or the tick of its sweeping timer; round 1 comes with the random bytes
that it draws. -/
inductive SignerRequest
  | sweep
  | online (body : Option Json)
  | refuse (body : Option Json)
  | round1 (body : Option Json) (draws : List Bytes)
  | validate (body : Option Json)
  | signReceipt (body : Option Json)
  | round2 (body : Option Json)

/-- The handler of a request; sweeping the sessions is one of its own. -/
def signerHandler : SignerRequest → SignerProg Response
  | .sweep => do
      Prog.modify sweepExpiredSessions
      pure (.json .null)
  | .online body => adminOnline body
  | .refuse body => adminRefuse body
  | .round1 body draws => NoGhost.round1 P env body draws
  | .validate body => NoGhost.validate P env body
  | .signReceipt body => NoGhost.signReceipt P env body
  | .round2 body => NoGhost.round2 P env body

end

end NoGhost
