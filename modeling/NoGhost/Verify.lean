import NoGhost.Config
import NoGhost.Frost

/-!
# Debits, Tokens and the Checks between Them

The model of `common/token.ts` and `signer/verify.ts`: the token payload that a debit
determines, and the checks a signer makes on its own before it approves or signs. Everything
the checks look at came over the wire, so it has no known shape: a debit may lack fields, or
carry objects where a number is expected, and reading or printing it may raise.

## Main results

* `runWall1TokenChecks_ok`: what an accepted request satisfies.
* `signsDebitMessage_iff`: an accepted request signs the message of its debit exactly when its
  token payload has no property beyond the four of a token.
-/

open Js

namespace NoGhost

variable (P : Platform)

/-! ### Token payloads -/

/-- The fields of a token, as they were read off a debit; they may be of any type, since the debit
may be anything that verifies. -/
structure TokenPayload where
  meterId : Option Json
  amountKwh : Option Json
  debitRef : Option Json
  nonce : String

/-- The names of a token payload, which the checks go through. -/
def tokenFields : List String := ["meterId", "amountKwh", "debitRef", "nonce"]

/-- The token payload as an object literal, in the order of its fields. -/
def TokenPayload.toJson (p : TokenPayload) : Json :=
  object [("meterId", p.meterId), ("amountKwh", p.amountKwh), ("debitRef", p.debitRef),
    ("nonce", some (.str p.nonce))]

/-- `deriveTokenNonce`: the concatenation converts the reference to a string. -/
def deriveTokenNonce (debitRef : Option Json) : Except String String := do
  let ref ← toStr P.numeral debitRef
  pure (String.ofList ((chars (sha256HexStr P ("twowalls/token-nonce/v1/" ++ ref))).take 32))

/-- `buildTokenPayload`: the fields of the debit, and the nonce derived from its reference. -/
def buildTokenPayload (debit : Option Json) : Except String TokenPayload := do
  let meterId ← prop debit "meterId"
  let amountKwh ← prop debit "amountKwh"
  let debitRef ← prop debit "debitRef"
  pure { meterId, amountKwh, debitRef, nonce := ← deriveTokenNonce P debitRef }

/-! ### The bank attestation -/

/-- The fields the bank signs, by which the payload is made again from a confirmation. -/
def signedFields : List String :=
  ["debitRef", "requestId", "meterId", "amountKwh", "amount", "currency", "confirmedAt"]

/-- The payload that is rebuilt from a debit, field by field. -/
def signedPayload (debit : Option Json) : Except String Json := do
  let fields ← signedFields.mapM fun k => do pure (k, ← prop debit k)
  pure (object fields)

/-- The payload the bank signs, `DebitSignedPayload`: the fields of a confirmation without its
signature. -/
structure DebitSignedPayload where
  debitRef : String
  requestId : String
  meterId : String
  amountKwh : ℚ
  amount : ℚ
  currency : String
  confirmedAt : String
  deriving DecidableEq

/-- `debitSignedPayload`, as an object literal. -/
def DebitSignedPayload.toJson (d : DebitSignedPayload) : Json :=
  object [("debitRef", some (.str d.debitRef)), ("requestId", some (.str d.requestId)),
    ("meterId", some (.str d.meterId)), ("amountKwh", some (.num (.fin d.amountKwh))),
    ("amount", some (.num (.fin d.amount))), ("currency", some (.str d.currency)),
    ("confirmedAt", some (.str d.confirmedAt))]

/-- `verifyBankSignature`: whatever is raised on the way counts as unverified. -/
def verifyBankSignature (debit : Option Json) (bankPublicKeyHex : String) : Bool :=
  let verified : Except String Bool := do
    let payload ← signedPayload debit
    let signature ← hexToBytesOf (← prop debit "bankSignature")
    let key ← hexToBytes bankPublicKeyHex
    pure (P.verify signature (canonicalBytes P (some payload)) key)
  match verified with
  | .ok b => b
  | .error _ => false

/-! ### The checks of a signer -/

/-- What a failed check answers: the status, the error and the detail. -/
structure CheckFailure where
  status : ℕ
  error : String
  detail : String
  deriving DecidableEq

/-- The detail text of a mismatch, which raises where a field has no text. -/
def mismatchDetail (request debit : Option Json) : Except String String := do
  let show_ (v : Option Json) (key : String) : Except String String := do
    toStr P.numeral (← prop v key)
  let price ← priceZarOf P.numeral (← prop request "amountKwh")
  pure ("debit \x7brequestId: " ++ (← show_ debit "requestId") ++ ", meterId: " ++
    (← show_ debit "meterId") ++ ", amountKwh: " ++ (← show_ debit "amountKwh") ++
    ", amount: " ++ (← show_ debit "amount") ++ " " ++ (← show_ debit "currency") ++
    "\x7d does not match request \x7brequestId: " ++ (← show_ request "requestId") ++
    ", meterId: " ++ (← show_ request "meterId") ++ ", amountKwh: " ++
    (← show_ request "amountKwh") ++ ", expected: " ++ price.toStr P.numeral ++ " " ++
    CURRENCY ++ "\x7d")

/-- The failure of check 4, the debit that is not for the request. -/
def mismatch (request debit : Option Json) : Except String (Option CheckFailure) := do
  pure (some ⟨401, "WALL_1_MISMATCH", ← mismatchDetail P request debit⟩)

/-- `validateDebitForRequest`: checks 3 and 4. -/
def validateDebitForRequest (request debit : Option Json) (bankPublicKeyHex : String) :
    Except String (Option CheckFailure) :=
  if verifyBankSignature P debit bankPublicKeyHex = false then
    .ok (some ⟨401, "WALL_1_UNVERIFIED",
      "bank signature failed verification against the pinned bank public key"⟩)
  else do
    let amountKwh ← prop request "amountKwh"
    if !strictEq (← prop debit "requestId") (← prop request "requestId") ||
        !strictEq (← prop debit "meterId") (← prop request "meterId") ||
        !strictEq (← prop debit "amountKwh") amountKwh then
      mismatch P request debit
    else do
      let price ← priceZarOf P.numeral amountKwh
      if !strictEq (← prop debit "amount") (some (.num price)) ||
          !strictEq (← prop debit "currency") (some (.str CURRENCY)) then
        mismatch P request debit
      else pure none

/-- `runWall1TokenChecks`: checks 3 to 6; `none` is acceptance. -/
def runWall1TokenChecks (req : Option Json) (bankPublicKeyHex : String) :
    Except String (Option CheckFailure) := do
  match ← validateDebitForRequest P (← prop req "request") (← prop req "debit")
      bankPublicKeyHex with
  | some failure => pure (some failure)
  | none => do
    let expected ← buildTokenPayload P (← prop req "debit")
    let tokenPayload ← prop req "tokenPayload"
    if !strictEq (← prop tokenPayload "meterId") expected.meterId ||
        !strictEq (← prop tokenPayload "amountKwh") expected.amountKwh ||
        !strictEq (← prop tokenPayload "debitRef") expected.debitRef ||
        !strictEq (← prop tokenPayload "nonce") (some (.str expected.nonce)) then
      pure (some ⟨400, "TOKEN_NOT_DEBIT_BOUND",
        "tokenPayload is not the unique token authorised by this debit " ++
          "(buildTokenPayload(debit))"⟩)
    else if !strictEq (← prop req "messageHex")
        (some (.str (bytesToHex (canonicalBytes P tokenPayload)))) then
      pure (some ⟨400, "MESSAGE_MISMATCH", "messageHex is not canonicalBytes(tokenPayload)"⟩)
    else pure none

/-! ### What acceptance means -/

/-- What a debit that passes checks 3 and 4 satisfies: the bank has signed it, and it is for the
request by identifier, meter and amount. -/
structure Validated (request debit : Option Json) (key : String) : Prop where
  verified : verifyBankSignature P debit key = true
  requestId : strictEq (prop? debit "requestId") (prop? request "requestId") = true
  meterId : strictEq (prop? debit "meterId") (prop? request "meterId") = true
  amountKwh : strictEq (prop? debit "amountKwh") (prop? request "amountKwh") = true
  amount : ∃ price, priceZarOf P.numeral (prop? request "amountKwh") = .ok price ∧
    strictEq (prop? debit "amount") (some (.num price)) = true
  currency : prop? debit "currency" = some (.str CURRENCY)

/-- What an accepted round-2 request satisfies: its debit is valid for its request, and its token
payload and message are those of the debit. -/
structure Accepted (req : Json) (key : String) (expected : TokenPayload) : Prop where
  validated : Validated P (req.get? "request") (req.get? "debit") key
  expected_eq : buildTokenPayload P (req.get? "debit") = .ok expected
  meterId : strictEq (prop? (req.get? "tokenPayload") "meterId") expected.meterId = true
  amountKwh : strictEq (prop? (req.get? "tokenPayload") "amountKwh") expected.amountKwh = true
  debitRef : strictEq (prop? (req.get? "tokenPayload") "debitRef") expected.debitRef = true
  nonce : prop? (req.get? "tokenPayload") "nonce" = some (.str expected.nonce)
  messageHex : req.get? "messageHex" =
    some (.str (bytesToHex (canonicalBytes P (req.get? "tokenPayload"))))

variable {P}

/-- What the rebuilt payload has under a name. -/
theorem signedPayload_ok {debit : Option Json} {payload : Json}
    (h : signedPayload debit = .ok payload) :
    payload = object (signedFields.map fun k => (k, prop? debit k)) := by
  rw [signedPayload] at h
  obtain ⟨fields, hfields, h⟩ := bind_eq_ok.mp h
  rw [← Except.ok.inj h]
  congr 1
  have hall : ∀ (l : List String) (fs : List (String × Option Json)),
      (l.mapM fun k => do pure (k, ← prop debit k) : Except String _) = .ok fs →
      fs = l.map fun k => (k, prop? debit k) := by
    intro l
    induction l with
    | nil => exact fun fs h => (Except.ok.inj h).symm
    | cons k l ih =>
        intro fs h
        rw [List.mapM_cons, bind_eq_ok] at h
        obtain ⟨f, hf, h⟩ := h
        obtain ⟨rest, hrest, h⟩ := bind_eq_ok.mp h
        obtain ⟨v, hv, hf⟩ := bind_eq_ok.mp hf
        rw [← Except.ok.inj h, ← Except.ok.inj hf, prop_ok hv, ih rest hrest, List.map_cons]
  exact hall signedFields fields hfields

/-- A debit whose rebuilt payload has the canonical bytes of a signed one carries its fields. -/
theorem prop?_of_canonicalBytes {debit : Option Json} {payload : Json}
    (h : signedPayload debit = .ok payload) {d : DebitSignedPayload}
    (hbytes : canonicalBytes P (some payload) = canonicalBytes P (some d.toJson)) {k : String}
    (hk : k ∈ signedFields) : prop? debit k = d.toJson.get? k := by
  obtain rfl := signedPayload_ok h
  have hnd : ((signedFields.map fun k => (k, prop? debit k)).map Prod.fst).Nodup := by
    change signedFields.Nodup
    decide
  have hsolid : ∃ x : Json, x.Solid ∧ d.toJson.get? k = some x := by
    simp only [signedFields, List.mem_cons, List.not_mem_nil, or_false] at hk
    rcases hk with rfl | rfl | rfl | rfl | rfl | rfl | rfl <;>
      first | exact ⟨_, .str _, rfl⟩ | exact ⟨_, .num _, rfl⟩
  obtain ⟨x, hx, hget⟩ := hsolid
  have hproto : k ≠ "__proto__" := by
    rintro rfl
    exact absurd hk (by decide)
  have hlookup : (signedFields.map fun k => (k, prop? debit k)).lookup k = some (prop? debit k) :=
    (lookup_eq_some_iff_mem hnd).mpr (List.mem_map.mpr ⟨k, hk, rfl⟩)
  have hnames : ∀ fs, d.toJson = .obj fs → (fs.map Prod.fst).Nodup := by
    rintro fs ⟨⟩
    change signedFields.Nodup
    decide
  have h := (get?_of_canonicalBytes P (fun _ => nodup_object hnd) hnames hbytes hproto hx).mpr hget
  rw [get?_object hnd, hlookup] at h
  exact h.trans hget.symm

/-- A debit that verifies can be rebuilt into what the bank has signed. -/
theorem signedPayload_of_verified {debit : Option Json} {key : String}
    (h : verifyBankSignature P debit key = true) :
    ∃ payload, signedPayload debit = .ok payload := by
  rw [verifyBankSignature] at h
  cases hpayload : signedPayload debit with
  | ok payload => exact ⟨payload, rfl⟩
  | error e =>
      rw [hpayload] at h
      cases h

/-- A mismatch is never taken for a success. -/
theorem mismatch_ne_none {request debit : Option Json} :
    mismatch P request debit ≠ .ok none := by
  intro h
  obtain ⟨detail, -, h⟩ := bind_eq_ok.mp h
  cases h

theorem validateDebitForRequest_ok {request debit : Option Json} {key : String}
    (h : validateDebitForRequest P request debit key = .ok none) :
    Validated P request debit key := by
  rw [validateDebitForRequest] at h
  split at h
  · cases h
  next hv =>
    obtain ⟨kwh, hkwh, h⟩ := bind_eq_ok.mp h
    obtain ⟨drid, hdrid, h⟩ := bind_eq_ok.mp h
    obtain ⟨rrid, hrrid, h⟩ := bind_eq_ok.mp h
    obtain ⟨dmet, hdmet, h⟩ := bind_eq_ok.mp h
    obtain ⟨rmet, hrmet, h⟩ := bind_eq_ok.mp h
    obtain ⟨dkwh, hdkwh, h⟩ := bind_eq_ok.mp h
    split at h
    · exact absurd h mismatch_ne_none
    next hfirst =>
      obtain ⟨price, hprice, h⟩ := bind_eq_ok.mp h
      obtain ⟨damt, hdamt, h⟩ := bind_eq_ok.mp h
      obtain ⟨dcur, hdcur, h⟩ := bind_eq_ok.mp h
      split at h
      · exact absurd h mismatch_ne_none
      next hsecond =>
        simp only [Bool.or_eq_true, Bool.not_eq_true', not_or, Bool.not_eq_false] at hfirst hsecond
        rw [prop_ok hkwh] at hfirst hprice
        rw [prop_ok hdrid, prop_ok hrrid, prop_ok hdmet, prop_ok hrmet, prop_ok hdkwh] at hfirst
        rw [prop_ok hdamt, prop_ok hdcur] at hsecond
        exact ⟨by simpa using hv, hfirst.1.1, hfirst.1.2, hfirst.2, ⟨price, hprice, hsecond.1⟩,
          strictEq_str.mp hsecond.2⟩

/-- **Acceptance.** What `runWall1TokenChecks` has checked when it returns null, as facts about the
request. -/
theorem runWall1TokenChecks_ok {req : Json} {key : String}
    (h : runWall1TokenChecks P (some req) key = .ok none) :
    ∃ expected, Accepted P req key expected := by
  have hprop : ∀ {k w}, prop (some req) k = .ok w → w = req.get? k := fun h => prop_ok h
  obtain ⟨request, hreq, h⟩ := bind_eq_ok.mp h
  obtain ⟨debit, hdeb, h⟩ := bind_eq_ok.mp h
  obtain ⟨failure, hval, h⟩ := bind_eq_ok.mp h
  rw [hprop hreq, hprop hdeb] at hval
  cases failure with
  | some failure => cases h
  | none =>
      obtain ⟨debit', hdeb', h⟩ := bind_eq_ok.mp h
      obtain ⟨expected, hexp, h⟩ := bind_eq_ok.mp h
      rw [hprop hdeb'] at hexp
      obtain ⟨tp, htp, h⟩ := bind_eq_ok.mp h
      obtain ⟨tmet, htmet, h⟩ := bind_eq_ok.mp h
      obtain ⟨tkwh, htkwh, h⟩ := bind_eq_ok.mp h
      obtain ⟨tref, htref, h⟩ := bind_eq_ok.mp h
      obtain ⟨tnon, htnon, h⟩ := bind_eq_ok.mp h
      rw [hprop htp] at htmet htkwh htref htnon h
      split at h
      · cases h
      next hfields =>
        obtain ⟨msg, hmsg, h⟩ := bind_eq_ok.mp h
        split at h
        · cases h
        next hmessage =>
          simp only [Bool.or_eq_true, Bool.not_eq_true', not_or, Bool.not_eq_false] at hfields
          rw [prop_ok htmet, prop_ok htkwh, prop_ok htref, prop_ok htnon] at hfields
          have hm : strictEq msg (some (.str (bytesToHex
              (canonicalBytes P (req.get? "tokenPayload"))))) = true := by simpa using hmessage
          rw [hprop hmsg] at hm
          exact ⟨expected, validateDebitForRequest_ok hval, hexp, hfields.1.1.1, hfields.1.1.2,
            hfields.1.2, strictEq_str.mp hfields.2, strictEq_str.mp hm⟩

/-! ### One debit, one message -/

/-- The fields of the literal that `TokenPayload.toJson` writes. -/
def TokenPayload.fields (p : TokenPayload) : List (String × Json) :=
  [("meterId", p.meterId), ("amountKwh", p.amountKwh), ("debitRef", p.debitRef),
    ("nonce", some (.str p.nonce))].filterMap fun f => f.2.map (f.1, ·)

theorem TokenPayload.toJson_eq (p : TokenPayload) : p.toJson = .obj p.fields := rfl

theorem TokenPayload.mem_fields {p : TokenPayload} {k : String} {v : Json} :
    (k, v) ∈ p.fields ↔ (k = "meterId" ∧ p.meterId = some v) ∨
      (k = "amountKwh" ∧ p.amountKwh = some v) ∨ (k = "debitRef" ∧ p.debitRef = some v) ∨
      (k = "nonce" ∧ v = .str p.nonce) := by
  simp [TokenPayload.fields, Option.map_eq_some_iff, eq_comm, and_comm]

theorem TokenPayload.nodup_fields (p : TokenPayload) : (p.fields.map Prod.fst).Nodup := by
  obtain ⟨m, a, d, n⟩ := p
  cases m <;> cases a <;> cases d <;> simp [TokenPayload.fields]

theorem TokenPayload.fields_ne_nil (p : TokenPayload) : p.fields ≠ [] := by
  have h : ("nonce", .str p.nonce) ∈ p.fields := by simp [TokenPayload.mem_fields]
  exact List.ne_nil_of_mem h

/-- No property but the four of a token payload; one named `__proto__` does not count. -/
def NoOtherProperty (tokenPayload : Option Json) : Prop :=
  ∀ fields, tokenPayload = some (.obj fields) → ∀ f ∈ fields,
    f.1 ∈ tokenFields ∨ f.1 = "__proto__"

/-- The request signs the message of its own debit. -/
def SignsDebitMessage (P : Platform) (req : Json) : Prop :=
  ∃ expected, buildTokenPayload P (req.get? "debit") = .ok expected ∧
    req.get? "messageHex" = some (.str (bytesToHex (canonicalBytes P (some expected.toJson))))

section Message

variable {req : Json} {key : String} {expected : TokenPayload}

/-- The token payload of an accepted request is an object that carries the fields of its
debit's payload, all of them primitive, and possibly more. -/
theorem Accepted.fields (h : Accepted P req key expected) (hreq : req.Distinct) :
    ∃ fields, req.get? "tokenPayload" = some (.obj fields) ∧ (fields.map Prod.fst).Nodup ∧
      (∀ f ∈ expected.fields, f.2.isObject = false) ∧
      (fields.filter fun f => f.1 ∈ tokenFields).Perm expected.fields := by
  have hnonce := h.nonce
  cases htp : req.get? "tokenPayload" with
  | none => simp [htp, prop?] at hnonce
  | some tp =>
      cases tp with
      | obj fields =>
          have hnd : (fields.map Prod.fst).Nodup := (hreq.get? htp).1
          have hm := h.meterId
          have ha := h.amountKwh
          have hd := h.debitRef
          have hprop : ∀ k, prop? (req.get? "tokenPayload") k = fields.lookup k := fun k => by
            rw [htp]
            rfl
          rw [hprop] at hm ha hd hnonce
          refine ⟨fields, rfl, hnd, fun f hf => ?_, ?_⟩
          · obtain ⟨k, v⟩ := f
            rcases TokenPayload.mem_fields.mp hf with ⟨-, hv⟩ | ⟨-, hv⟩ | ⟨-, hv⟩ | ⟨-, hv⟩
            · rw [strictEq_comm, hv] at hm
              exact isObject_eq_false_of_strictEq hm
            · rw [strictEq_comm, hv] at ha
              exact isObject_eq_false_of_strictEq ha
            · rw [strictEq_comm, hv] at hd
              exact isObject_eq_false_of_strictEq hd
            · exact hv ▸ rfl
          · have hm := eq_of_strictEq hm
            have ha := eq_of_strictEq ha
            have hd := eq_of_strictEq hd
            refine (List.perm_ext_iff_of_nodup ((hnd.of_map _).filter _)
              (expected.nodup_fields.of_map _)).mpr fun f => ?_
            obtain ⟨k, v⟩ := f
            rw [TokenPayload.mem_fields, List.mem_filter, ← hm, ← ha, ← hd]
            simp only [decide_eq_true_eq, lookup_eq_some_iff_mem hnd]
            have hn : v = .str expected.nonce ↔ ("nonce", v) ∈ fields := by
              rw [← lookup_eq_some_iff_mem hnd, hnonce, Option.some.injEq, eq_comm]
            rw [hn]
            constructor
            · rintro ⟨hmem, hk⟩
              simp only [tokenFields, List.mem_cons, List.not_mem_nil, or_false] at hk
              rcases hk with rfl | rfl | rfl | rfl <;> simp [hmem]
            · rintro (⟨rfl, hmem⟩ | ⟨rfl, hmem⟩ | ⟨rfl, hmem⟩ | ⟨rfl, hmem⟩) <;>
                exact ⟨hmem, by simp [tokenFields]⟩
      | _ =>
          rw [htp] at hnonce
          cases hnonce

/-- Sorting changes nothing in the fields of a debit's payload but their order. -/
theorem map_sortValue_of_primitive (fields : List (String × Json))
    (h : ∀ f ∈ fields, f.2.isObject = false) :
    (fields.map fun f => (f.1, sortValue f.2)) = fields := by
  rw [List.map_congr_left fun f hf => by rw [sortValue_of_primitive (h f hf)], List.map_id'']
  exact fun f => rfl

/-- The canonical form of a debit's payload. -/
theorem sortValue_toJson (hprim : ∀ f ∈ expected.fields, f.2.isObject = false) :
    sortValue expected.toJson = .obj (ownOrder (sortFields expected.fields)) := by
  have hname : ∀ f ∈ expected.fields, f.1 ∈ tokenFields := by
    rintro ⟨k, v⟩ hf
    rcases TokenPayload.mem_fields.mp hf with ⟨rfl, -⟩ | ⟨rfl, -⟩ | ⟨rfl, -⟩ | ⟨rfl, -⟩ <;>
      simp [tokenFields]
  have hcons : (expected.fields.lookup "constructor").isSome = false := by
    rw [Option.isSome_eq_false_iff, Option.isNone_iff_eq_none, List.lookup_eq_none_iff]
    intro f hf
    have := hname f hf
    rw [bne_iff_ne]
    rintro heq
    rw [← heq] at this
    exact absurd this (by decide)
  have hfilter : (expected.fields.filter fun f => f.1 ≠ "__proto__") = expected.fields := by
    rw [List.filter_eq_self]
    intro f hf
    have := hname f hf
    rw [decide_eq_true_eq]
    rintro heq
    rw [heq] at this
    exact absurd this (by decide)
  rw [TokenPayload.toJson_eq, sortValue, hcons, if_neg (by decide), sortedValues_eq_map, hfilter,
    map_sortValue_of_primitive _ hprim]

/-- The canonical form of an accepted token payload without further properties is that of
its debit's payload. -/
theorem sortValue_of_noOtherProperty {fields : List (String × Json)}
    (hnd : (fields.map Prod.fst).Nodup)
    (hprim : ∀ f ∈ expected.fields, f.2.isObject = false)
    (hperm : (fields.filter fun f => f.1 ∈ tokenFields).Perm expected.fields)
    (h : ∀ f ∈ fields, f.1 ∈ tokenFields ∨ f.1 = "__proto__") :
    sortValue (.obj fields) = sortValue expected.toJson := by
  have hcons : (fields.lookup "constructor").isSome = false := by
    rw [Option.isSome_eq_false_iff, Option.isNone_iff_eq_none, List.lookup_eq_none_iff]
    intro f hf
    have := h f hf
    rw [bne_iff_ne]
    rintro heq
    rw [← heq] at this
    exact absurd this (by decide)
  have hfilter : (fields.filter fun f => f.1 ≠ "__proto__") =
      fields.filter fun f => f.1 ∈ tokenFields := by
    refine List.filter_congr fun f hf => ?_
    rcases h f hf with hmem | heq
    · have hne : f.1 ≠ "__proto__" := by
        rintro heq
        rw [heq] at hmem
        exact absurd hmem (by decide)
      simp [hne, hmem]
    · simp [heq, tokenFields]
  have hmap := map_sortValue_of_primitive (fields.filter fun f => f.1 ∈ tokenFields)
    fun f hf => hprim f (hperm.mem_iff.mp hf)
  have hnd' : ((fields.filter fun f => f.1 ∈ tokenFields).map Prod.fst).Nodup :=
    (List.filter_sublist.map _).nodup hnd
  rw [sortValue_toJson hprim, sortValue, hcons, if_neg (by decide), sortedValues_eq_map, hfilter,
    hmap, sortFields_perm hperm hnd']

/-- The canonical text of an accepted token payload with a further property is longer than
that of its debit's payload. -/
theorem length_lt_of_otherProperty {fields : List (String × Json)} {f : String × Json}
    (hprim : ∀ f ∈ expected.fields, f.2.isObject = false)
    (hperm : (fields.filter fun f => f.1 ∈ tokenFields).Perm expected.fields)
    (hf : f ∈ fields) (hname : f.1 ∉ tokenFields) (hproto : f.1 ≠ "__proto__") :
    (canonicalJson P expected.toJson).length < (canonicalJson P (.obj fields)).length := by
  have hsorted := (perm_ownOrder (sortFields expected.fields)).trans
    (perm_sortFields expected.fields)
  have hne : ownOrder (sortFields expected.fields) ≠ [] := fun h =>
    expected.fields_ne_nil (List.nil_perm.mp (h ▸ hsorted))
  rw [canonicalJson, sortValue_toJson hprim, canonicalJson, sortValue]
  split
  · have hsplit := List.filter_append_perm (fun f : String × Json => f.1 ∈ tokenFields) fields
    refine length_stringify_lt P.numeral (hsplit.symm.trans
      ((hperm.trans hsorted.symm).append_right _)) hne (List.ne_nil_of_mem (a := f) ?_)
    simp [hf, hname]
  · set kept := fields.filter fun f => f.1 ≠ "__proto__" with hkept
    have hsplit := List.filter_append_perm (fun f : String × Json => f.1 ∈ tokenFields) kept
    have htoken : kept.filter (fun f => f.1 ∈ tokenFields) =
        fields.filter fun f => f.1 ∈ tokenFields := by
      rw [hkept, List.filter_filter]
      refine List.filter_congr fun g _ => ?_
      by_cases hg : g.1 = "__proto__"
      · simp [hg, tokenFields]
      · simp [hg]
    rw [htoken] at hsplit
    have hmap := map_sortValue_of_primitive (fields.filter fun f => f.1 ∈ tokenFields)
      fun f hf => hprim f (hperm.mem_iff.mp hf)
    have hall := (hsplit.symm.map fun f => (f.1, sortValue f.2))
    rw [List.map_append, hmap] at hall
    have hgs := (perm_ownOrder (sortFields (sortedValues fields))).trans
      (perm_sortFields (sortedValues fields))
    rw [sortedValues_eq_map fields, ← hkept] at hgs ⊢
    refine length_stringify_lt P.numeral (hgs.trans (hall.trans
      ((hperm.trans hsorted.symm).append_right _))) hne ?_
    simp only [ne_eq, List.map_eq_nil_iff]
    refine List.ne_nil_of_mem (a := f) ?_
    simp [hkept, hf, hname, hproto]

/-- **One debit, one message.** An accepted request signs the message of its debit exactly
when its token payload has no property beyond the four of a token. -/
theorem signsDebitMessage_iff (hreq : req.Distinct)
    (h : runWall1TokenChecks P (some req) key = .ok none) :
    SignsDebitMessage P req ↔ NoOtherProperty (req.get? "tokenPayload") := by
  obtain ⟨expected, hacc⟩ := runWall1TokenChecks_ok h
  obtain ⟨fields, htp, hnd, hprim, hperm⟩ := hacc.fields hreq
  have hbytes : SignsDebitMessage P req ↔
      canonicalJson P (.obj fields) = canonicalJson P expected.toJson := by
    have hmsg := hacc.messageHex
    rw [htp] at hmsg
    rw [SignsDebitMessage, hmsg]
    constructor
    · rintro ⟨expected', heq, hhex⟩
      obtain rfl := Except.ok.inj (hacc.expected_eq.symm.trans heq)
      simp only [Option.some.injEq, Json.str.injEq] at hhex
      exact utf8_injective (bytesToHex_injective hhex)
    · intro heq
      refine ⟨expected, hacc.expected_eq, ?_⟩
      rw [canonicalBytes, canonicalBytes, heq]
  rw [hbytes, htp]
  constructor
  · intro heq fields' hfields' f hf
    cases hfields'
    by_contra hname
    rw [not_or] at hname
    have hlt := length_lt_of_otherProperty (P := P) hprim hperm hf hname.1 hname.2
    rw [heq] at hlt
    exact lt_irrefl _ hlt
  · intro hno
    rw [canonicalJson, canonicalJson,
      sortValue_of_noOtherProperty hnd hprim hperm (hno fields rfl)]

/-- The payload of a debit depends on its signed fields only. -/
theorem buildTokenPayload_congr {debit debit' : Json}
    (h : ∀ k ∈ signedFields, prop (some debit) k = prop (some debit') k) :
    buildTokenPayload P (some debit) = buildTokenPayload P (some debit') := by
  rw [buildTokenPayload, buildTokenPayload, h "meterId" (by decide), h "amountKwh" (by decide),
    h "debitRef" (by decide)]

end Message

/-- **One debit, one message.** An accepted request signs the message of its debit exactly
when its token payload has no property beyond the four of a token; among such requests the
signed fields of the debit determine the message. -/
theorem one_message (P : Platform) (key : String) :
    (∀ req : Json, req.Distinct → runWall1TokenChecks P (some req) key = .ok none →
      (SignsDebitMessage P req ↔ NoOtherProperty (req.get? "tokenPayload"))) ∧
    ∀ (req req' debit debit' : Json), req.Distinct → req'.Distinct →
      runWall1TokenChecks P (some req) key = .ok none →
      runWall1TokenChecks P (some req') key = .ok none →
      NoOtherProperty (req.get? "tokenPayload") → NoOtherProperty (req'.get? "tokenPayload") →
      req.get? "debit" = some debit → req'.get? "debit" = some debit' →
      (∀ k ∈ signedFields, prop (some debit) k = prop (some debit') k) →
      req.get? "messageHex" = req'.get? "messageHex" := by
  refine ⟨fun req hreq h => signsDebitMessage_iff hreq h, ?_⟩
  intro req req' debit debit' hreq hreq' h h' hno hno' hdebit hdebit' hsame
  obtain ⟨expected, hexp, hmsg⟩ := (signsDebitMessage_iff hreq h).mpr hno
  obtain ⟨expected', hexp', hmsg'⟩ := (signsDebitMessage_iff hreq' h').mpr hno'
  rw [hdebit, buildTokenPayload_congr hsame] at hexp
  rw [hdebit', hexp] at hexp'
  rw [hmsg, hmsg', Except.ok.inj hexp']

/-! ### Requests over the small platform -/

namespace Small

/-- The bank key of the secret 3. -/
def bankKey : String := Frost.pointToHex curve ((3 : ℕ) : ZMod 7)

/-- The request of 10 kWh for meter `MTR-1001`. -/
def request : Json :=
  object [("requestId", some (.str "REQ-1")), ("meterId", some (.str "MTR-1001")),
    ("amountKwh", some (.num (.fin 10))), ("merchantId", some (.str "MER-001")),
    ("timestamp", some (.str "2025-01-01T00:00:00.000Z"))]

/-- The fields the bank signs for it. -/
def debitFields : List (String × Option Json) :=
  [("debitRef", some (.str "DBT-1")), ("requestId", some (.str "REQ-1")),
    ("meterId", some (.str "MTR-1001")), ("amountKwh", some (.num (.fin 10))),
    ("amount", some (.num (.fin 25))), ("currency", some (.str "ZAR")),
    ("confirmedAt", some (.str "2025-01-01T00:00:00.000Z"))]

/-- The bank's signature. -/
def bankSignature : String :=
  bytesToHex (sign (canonicalBytes platform (some (object debitFields))) [3])

/-- The debit of the request. -/
def debit : Json := object (debitFields ++ [("bankSignature", some (.str bankSignature))])

/-- The token payload of the debit, with further properties. -/
def tokenPayload (extra : List (String × Option Json)) : Json :=
  object ([("meterId", some (.str "MTR-1001")), ("amountKwh", some (.num (.fin 10))),
    ("debitRef", some (.str "DBT-1")),
    ("nonce", (deriveTokenNonce platform (some (.str "DBT-1"))).toOption.map .str)] ++ extra)

/-- The round-2 request for it. -/
def round2Request (extra : List (String × Option Json)) : Json :=
  object [("request", some request), ("debit", some debit),
    ("tokenPayload", some (tokenPayload extra)), ("messageHex",
      some (.str (bytesToHex (canonicalBytes platform (some (tokenPayload extra))))))]

end Small

theorem small_round2Request_distinct {extra : List (String × Option Json)}
    (h : (Small.tokenPayload extra).Distinct) : (Small.round2Request extra).Distinct := by
  refine ⟨show ["request", "debit", "tokenPayload", "messageHex"].Nodup by decide, ?_, ?_, h,
    trivial, trivial⟩
  · exact ⟨by decide, trivial, trivial, trivial, trivial, trivial, trivial⟩
  · exact ⟨by decide, trivial, trivial, trivial, trivial, trivial, trivial, trivial, trivial,
      trivial⟩

theorem small_accepted : runWall1TokenChecks Small.platform (some (Small.round2Request []))
    Small.bankKey = .ok none := by
  decide +kernel

theorem small_distinct : (Small.tokenPayload []).Distinct :=
  ⟨by decide, trivial, trivial, trivial, trivial, trivial⟩

/-- A request over the small platform that signs the message of its debit. -/
theorem one_message_small : SignsDebitMessage Small.platform (Small.round2Request []) := by
  refine ((one_message Small.platform Small.bankKey).1 _
    (small_round2Request_distinct small_distinct) small_accepted).mpr fun fields h => ?_
  cases h
  decide

/-- Two accepted requests over the small platform with one debit and two messages: the
token payload of one has a property `memo`. -/
theorem two_messages_small : ∃ req req' : Json, req.Distinct ∧ req'.Distinct ∧
    runWall1TokenChecks Small.platform (some req) Small.bankKey = .ok none ∧
    runWall1TokenChecks Small.platform (some req') Small.bankKey = .ok none ∧
    req.get? "debit" = req'.get? "debit" ∧ req.get? "messageHex" ≠ req'.get? "messageHex" ∧
    ¬ SignsDebitMessage Small.platform req' := by
  set extra : List (String × Option Json) := [("memo", some (.str "x"))] with hextra
  have hd' : (Small.tokenPayload extra).Distinct :=
    ⟨by decide, trivial, trivial, trivial, trivial, trivial, trivial⟩
  have hacc' : runWall1TokenChecks Small.platform (some (Small.round2Request extra))
      Small.bankKey = .ok none := by decide +kernel
  have hno : ¬ SignsDebitMessage Small.platform (Small.round2Request extra) := by
    rw [signsDebitMessage_iff (small_round2Request_distinct hd') hacc']
    intro h
    exact absurd (h _ rfl ("memo", .str "x") (by simp [hextra])) (by decide)
  have hyes : SignsDebitMessage Small.platform (Small.round2Request []) :=
    (signsDebitMessage_iff (small_round2Request_distinct small_distinct) small_accepted).mpr
    fun fields h => by
      cases h
      decide
  refine ⟨_, _, small_round2Request_distinct small_distinct, small_round2Request_distinct hd',
    small_accepted, hacc', rfl, fun heq => hno ?_, hno⟩
  obtain ⟨expected, hexp, hmsg⟩ := hyes
  exact ⟨expected, hexp, heq ▸ hmsg⟩

end NoGhost
