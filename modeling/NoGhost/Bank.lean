import NoGhost.Signer

/-!
# The Bank

The model of `bank/index.ts` and `bank/sign.ts`: the debit log of the mock bank, its two indices,
and the reversal log. An entry of the log is an object that the log and both indices share, so
the indices hold places in the log. A handler runs without interruption, but for the demo mode
in which it sleeps before it answers.

The random bytes of a debit reference are part of the request that draws them. One field of the
state is history, and no handler reads it: the payloads that were signed.

## Main results

* `Ledger.confirm`, `Ledger.reverse`: what a confirmation and a reversal leave of the ledger.
* `bank_ledger`: the ledger is in order in every state that is reached, and only grows.
-/

open Js Async

namespace NoGhost

/-! ### What a bank has -/

/-- `BankMode`: how the bank treats debit requests; all but `CONFIRM` are for demonstrations. -/
inductive BankMode
  | CONFIRM
  | DECLINE
  | OMIT_SIGNATURE
  | TIMEOUT
  deriving DecidableEq

/-- `MODES`, with the text of each mode. -/
def MODES : List (String × BankMode) :=
  [("CONFIRM", .CONFIRM), ("DECLINE", .DECLINE), ("OMIT_SIGNATURE", .OMIT_SIGNATURE),
    ("TIMEOUT", .TIMEOUT)]

/-- The outcome of a debit that is logged: it was confirmed, or confirmed without a signature that
verifies. -/
inductive DebitOutcome
  | CONFIRMED
  | OMIT_SIGNATURE
  deriving DecidableEq

/-- `DebitConfirmation`: the payload that the bank signs, with the signature, as it is sent in
answer to a debit request. -/
structure DebitConfirmation extends DebitSignedPayload where
  bankSignature : String
  deriving DecidableEq

/-- `{ ...payload, bankSignature }`, the body of a confirmation. -/
def DebitConfirmation.toJson (d : DebitConfirmation) : Json :=
  object [("debitRef", some (.str d.debitRef)), ("requestId", some (.str d.requestId)),
    ("meterId", some (.str d.meterId)), ("amountKwh", some (.num (.fin d.amountKwh))),
    ("amount", some (.num (.fin d.amount))), ("currency", some (.str d.currency)),
    ("confirmedAt", some (.str d.confirmedAt)), ("bankSignature", some (.str d.bankSignature))]

/-- An entry of the bank's ledger: the confirmation that was sent, how it came about, and whether
the debit was reversed since. -/
structure DebitLogEntry where
  debit : DebitConfirmation
  reversed : Bool
  outcome : DebitOutcome
  deriving DecidableEq

/-- The variables of the bank's module, and what the world sets between two segments: the time,
which the entries bear. -/
structure BankState where
  mode : BankMode
  /-- Oldest first. -/
  debitLog : List DebitLogEntry
  /-- Places in the log. -/
  byRequestId : JsMap String ℕ
  byDebitRef : JsMap String ℕ
  /-- Debit references, each with the time of its reversal. -/
  reversalLog : List (String × String)
  /-- `new Date().toISOString()`. -/
  now : String
  /-- History: the payloads that were signed. -/
  signed : List DebitSignedPayload

/-- A bank at boot, with an empty ledger. -/
def BankState.boot (now : String) : BankState where
  mode := .CONFIRM
  debitLog := []
  byRequestId := []
  byDebitRef := []
  reversalLog := []
  now := now
  signed := []

/-- The key that the bank signs its confirmations with, as the bytes of its secret; the curve
library derives the scalar from them. -/
structure BankKey where
  secretKey : Bytes

/-- `ZERO_SIGNATURE`, which no key verifies. -/
def ZERO_SIGNATURE : String := .ofList (List.replicate 128 '0')

section

variable (P : Platform) (key : BankKey)

/-- `signDebitPayload`: the signature over the canonical bytes of the payload. -/
def signDebitPayload (payload : DebitSignedPayload) : String :=
  bytesToHex (P.sign (canonicalBytes P (some payload.toJson)) key.secretKey)

/-! ### Handlers -/

/-- `DebitRequest`: the fields of a body that passes the checks. -/
structure DebitRequest where
  requestId : String
  merchantId : String
  meterId : String
  amountKwh : ℚ
  amount : ℚ
  currency : String
  deriving DecidableEq

/-- The checks of `POST /api/debits`, and what they read off the body. -/
def debitRequestOf (body : Option Json) : Option DebitRequest :=
  match prop? body "requestId", prop? body "merchantId", prop? body "meterId",
      prop? body "amountKwh", prop? body "amount", prop? body "currency" with
  | some (.str requestId), some (.str merchantId), some (.str meterId),
      some (.num (.fin amountKwh)), some (.num (.fin amount)), some (.str currency) =>
      if requestId = "" ∨ meterId = "" then none
      else some ⟨requestId, merchantId, meterId, amountKwh, amount, currency⟩
  | _, _, _, _, _, _ => none

/-- `'DBT-' + bytesToHex(randomBytes(6))`, for the bytes that were drawn. -/
def debitRefOf (random : Bytes) : String := "DBT-" ++ bytesToHex random

namespace BankState

/-- `byRequestId.get(requestId)`: the entry that was made for a request before. -/
def prior (s : BankState) (requestId : String) : Option DebitLogEntry :=
  (s.byRequestId.get requestId).bind (s.debitLog[·]?)

/-- The entry of a request that is confirmed, with a signature or without. -/
def entryOf (request : DebitRequest) (random : Bytes) (signed : Bool) (s : BankState) :
    DebitLogEntry :=
  let payload : DebitSignedPayload :=
    { debitRef := debitRefOf random
      requestId := request.requestId
      meterId := request.meterId
      amountKwh := request.amountKwh
      amount := request.amount
      currency := request.currency
      confirmedAt := s.now }
  { debit := { payload with
      bankSignature := if signed then signDebitPayload P key payload else ZERO_SIGNATURE }
    reversed := false
    outcome := if signed then .CONFIRMED else .OMIT_SIGNATURE }

/-- An entry is put into the log and the indices. -/
def push (entry : DebitLogEntry) (s : BankState) : BankState :=
  { s with
    debitLog := s.debitLog ++ [entry]
    byRequestId := s.byRequestId.set entry.debit.requestId s.debitLog.length
    byDebitRef := s.byDebitRef.set entry.debit.debitRef s.debitLog.length
    signed := if entry.outcome = .CONFIRMED then s.signed ++ [entry.debit.toDebitSignedPayload]
      else s.signed }

/-- The entry at a place of the log is reversed. -/
def reverseAt (i : ℕ) (debitRef : String) (s : BankState) : BankState :=
  { s with
    debitLog := s.debitLog.modify i fun e => { e with reversed := true }
    reversalLog := s.reversalLog ++ [(debitRef, s.now)] }

end BankState

/-- A bank awaits nothing but time, in its mode `TIMEOUT`. -/
inductive BankCall
  | sleep (ms : ℕ)

/-- The time that has passed says nothing. -/
abbrev BankCall.Answer : BankCall → Type
  | sleep _ => Unit

/-- The handlers of the bank, over its variables. -/
abbrev BankProg (α : Type) := Prog BankState String BankCall BankCall.Answer α

/-- The answer to a debit request that is declined. -/
def declinedResponse : Response :=
  ⟨402, object [("declined", some (.bool true)),
    ("reason", some (.str "Debit declined: no funds movement authorised."))]⟩

/-- The answer of the mode `TIMEOUT`, after the sleep. -/
def timeoutResponse : Response := ⟨504, object [("timeout", some (.bool true))]⟩

/-- `POST /api/debits`: a request that was served before gets the confirmation of then, and a new
one is treated by the mode. -/
def postDebit (body : Option Json) (random : Bytes) : BankProg Response :=
  match debitRequestOf body with
  | none => pure (.error 400 "invalid DebitRequest")
  | some request => do
      -- a prior confirmation is returned verbatim, whatever the mode
      match ← Prog.gets (·.prior request.requestId) with
      | some entry => pure (.json entry.debit.toJson)
      | none =>
          match ← Prog.gets (·.mode) with
          | .DECLINE => pure declinedResponse
          | .TIMEOUT => do
              let _ ← Prog.call (BankCall.sleep 8000)
              pure timeoutResponse
          | .CONFIRM => do
              let entry ← Prog.gets (BankState.entryOf P key request random true)
              Prog.modify (BankState.push entry)
              pure (.json entry.debit.toJson)
          | .OMIT_SIGNATURE => do
              let entry ← Prog.gets (BankState.entryOf P key request random false)
              Prog.modify (BankState.push entry)
              pure (.json entry.debit.toJson)

/-- `POST /api/debits/:debitRef/reverse`: a debit that is known is reversed once. -/
def postReverse (debitRef : String) : BankProg Response := do
  match ← Prog.gets fun s => (s.byDebitRef.get debitRef).bind fun i =>
      s.debitLog[i]?.map fun entry => (i, entry) with
  | none => pure (.error 404 "unknown debitRef")
  | some (i, entry) => do
      if !entry.reversed then
        Prog.modify (BankState.reverseAt i debitRef)
      pure (.json (object [("reversed", some (.bool true)), ("debitRef", some (.str debitRef))]))

/-- `POST /api/admin/mode`: one of the modes is set, by its text. -/
def postMode (body : Option Json) : BankProg Response :=
  match ((prop? body "mode").bind (·.asString)).bind fun text => List.lookup text MODES with
  | none => pure (.error 400 ("mode must be one of " ++ ", ".intercalate (MODES.map (·.1))))
  | some mode => do
      Prog.modify fun s => { s with mode }
      pure (.json (object [("mode", (prop? body "mode"))]))

end

/-- What a bank is asked, with the random bytes that its handler draws for the reference of a new
debit. -/
inductive BankRequest
  | debit (body : Option Json) (random : Bytes)
  | reverse (debitRef : String)
  | mode (body : Option Json)

/-- The handlers of a bank, whose world only moves the clock. -/
def bankGame (P : Platform) (key : BankKey) :
    Game BankState BankState String BankCall BankCall.Answer Response BankRequest where
  handler
    | .debit body random => postDebit P key body random
    | .reverse debitRef => postReverse debitRef
    | .mode body => postMode body
  place _ := Lens.whole BankState
  answers _ _ _ := True
  moves s s' := ∃ now, s' = { s with now }

/-! ### The ledger -/

namespace BankState

/-- The identifiers of the requests that have an entry, oldest first. -/
def requestIds (s : BankState) : List String := s.debitLog.map (·.debit.requestId)

/-- The references of the debits in the ledger, the oldest first. -/
def debitRefs (s : BankState) : List String := s.debitLog.map (·.debit.debitRef)

/-- The references that were reversed, in their order. -/
def reversedRefs (s : BankState) : List String := s.reversalLog.map (·.1)

end BankState

/-- **The ledger is in order.** The log has one entry for a request and for a reference, and the
indices tell where; the reversal log has the reversed ones, once; and what was signed is what was
confirmed. -/
structure Ledger (s : BankState) : Prop where
  byRequestId : s.byRequestId.Indexes s.requestIds
  byDebitRef : s.byDebitRef.Indexes s.debitRefs
  once : s.reversedRefs.Nodup
  reversed : ∀ ref, ref ∈ s.reversedRefs ↔
    ∃ e ∈ s.debitLog, e.debit.debitRef = ref ∧ e.reversed = true
  signed : s.signed = (s.debitLog.filter (·.outcome = .CONFIRMED)).map
    (·.debit.toDebitSignedPayload)

/-- The log only grows: an entry keeps its place, its confirmation and its outcome, and once it is
reversed it stays so. -/
structure Grows (s s' : BankState) : Prop where
  entries : ∀ (i : ℕ) (e : DebitLogEntry), s.debitLog[i]? = some e →
    ∃ e', s'.debitLog[i]? = some e' ∧ e'.debit = e.debit ∧ e'.outcome = e.outcome ∧
      (e.reversed = true → e'.reversed = true)
  reversals : s.reversalLog <+: s'.reversalLog
  signed : s.signed <+: s'.signed

/-- Nothing is lost where nothing happens. -/
theorem Grows.refl (s : BankState) : Grows s s :=
  ⟨fun _ e he => ⟨e, he, rfl, rfl, id⟩, List.prefix_rfl, List.prefix_rfl⟩

/-- What was not lost by one step is not lost by the next. -/
theorem Grows.trans {s s' s'' : BankState} (h : Grows s s') (h' : Grows s' s'') : Grows s s'' := by
  refine ⟨fun i e he => ?_, h.reversals.trans h'.reversals, h.signed.trans h'.signed⟩
  obtain ⟨e', he', hdebit, houtcome, hreversed⟩ := h.entries i e he
  obtain ⟨e'', he'', hdebit', houtcome', hreversed'⟩ := h'.entries i e' he'
  exact ⟨e'', he'', hdebit'.trans hdebit, houtcome'.trans houtcome, hreversed' ∘ hreversed⟩

/-- What is read off the entries and not changed stays. -/
theorem map_filter_modify {α β : Type} {f : α → α} {g : α → β} {p : α → Bool}
    (hg : ∀ a, g (f a) = g a) (hp : ∀ a, p (f a) = p a) (l : List α) (i : ℕ) :
    ((l.modify i f).filter p).map g = (l.filter p).map g := by
  induction l generalizing i with
  | nil => simp
  | cons a l ih =>
      cases i with
      | zero =>
          rw [List.modify_zero_cons, List.filter_cons, List.filter_cons, hp]
          split <;> simp [hg]
      | succ i =>
          rw [List.modify_succ_cons, List.filter_cons, List.filter_cons]
          split <;> simp [ih]

section Ledger

variable {s : BankState} {P : Platform} {key : BankKey}

/-- The ledger is in order at the boot. -/
theorem ledger_boot (now : String) : Ledger (.boot now) :=
  ⟨.nil, .nil, List.nodup_nil, fun ref => by simp [BankState.boot, BankState.reversedRefs], rfl⟩

/-- There is at most one signature for a request. -/
theorem Ledger.signed_nodup (h : Ledger s) : (s.signed.map (·.requestId)).Nodup := by
  rw [h.signed, List.map_map]
  exact h.byRequestId.nodup.sublist (List.filter_sublist.map _)

/-- What is found under an identifier is the entry of the log. -/
theorem Ledger.prior_iff (h : Ledger s) {requestId : String} {e : DebitLogEntry} :
    s.prior requestId = some e ↔ e ∈ s.debitLog ∧ e.debit.requestId = requestId := by
  rw [BankState.prior, Option.bind_eq_some_iff]
  constructor
  · rintro ⟨i, hget, hi⟩
    have hid := h.byRequestId.get_iff.mp hget
    rw [BankState.requestIds, List.getElem?_map, hi] at hid
    exact ⟨List.mem_of_getElem? hi, Option.some.inj hid⟩
  · rintro ⟨hmem, rfl⟩
    obtain ⟨i, hi⟩ := List.mem_iff_getElem?.mp hmem
    refine ⟨i, h.byRequestId.get_iff.mpr ?_, hi⟩
    rw [BankState.requestIds, List.getElem?_map, hi]
    rfl

/-- A request that is not found has no entry. -/
theorem Ledger.prior_eq_none (h : Ledger s) {requestId : String}
    (hnone : s.prior requestId = none) :
    requestId ∉ s.requestIds := fun hmem => by
  obtain ⟨e, he, hid⟩ := List.mem_map.mp hmem
  rw [h.prior_iff.mpr ⟨he, hid⟩] at hnone
  cases hnone

/-- **A confirmation** keeps the ledger in order: the entry is new under its request and its
reference. -/
theorem Ledger.confirm (h : Ledger s) {entry : DebitLogEntry}
    (hid : entry.debit.requestId ∉ s.requestIds) (href : entry.debit.debitRef ∉ s.debitRefs)
    (hreversed : entry.reversed = false) : Ledger (s.push entry) ∧ Grows s (s.push entry) := by
  have hids : (s.push entry).requestIds = s.requestIds ++ [entry.debit.requestId] := List.map_append
  have hrefs : (s.push entry).debitRefs = s.debitRefs ++ [entry.debit.debitRef] := List.map_append
  refine ⟨⟨?_, ?_, h.once, fun ref => ?_, ?_⟩, fun i e he => ?_, List.prefix_rfl, ?_⟩
  · rw [hids]
    have := h.byRequestId.push hid
    rwa [BankState.requestIds, List.length_map] at this
  · rw [hrefs]
    have := h.byDebitRef.push href
    rwa [BankState.debitRefs, List.length_map] at this
  · rw [show (s.push entry).reversedRefs = s.reversedRefs from rfl, h.reversed]
    simp only [BankState.push, List.mem_append, List.mem_singleton, or_and_right, exists_or]
    refine (or_iff_left ?_).symm
    rintro ⟨e, rfl, -, hrev⟩
    rw [hreversed] at hrev
    cases hrev
  · rw [BankState.push]
    simp only [List.filter_append, List.map_append, ← h.signed]
    split
    next houtcome => simp [houtcome]
    next houtcome => simp [houtcome]
  · obtain ⟨hlen, -⟩ := List.getElem?_eq_some_iff.mp he
    exact ⟨e, by rw [BankState.push, List.getElem?_append_left hlen, he], rfl, rfl, id⟩
  · rw [BankState.push]
    dsimp only
    split
    · exact List.prefix_append _ _
    · exact List.prefix_rfl

/-- **A reversal** keeps the ledger in order: the entry is marked, and its reference is in the log
of reversals once. -/
theorem Ledger.reverse (h : Ledger s) {i : ℕ} {entry : DebitLogEntry} {debitRef : String}
    (hentry : s.debitLog[i]? = some entry) (href : entry.debit.debitRef = debitRef)
    (hreversed : entry.reversed = false) :
    Ledger (s.reverseAt i debitRef) ∧ Grows s (s.reverseAt i debitRef) := by
  have hmap : ∀ {β : Type} (g : DebitLogEntry → β), (∀ e, g { e with reversed := true } = g e) →
      (s.reverseAt i debitRef).debitLog.map g = s.debitLog.map g := fun g hg => by
    have := map_filter_modify hg (p := fun _ => true) (fun _ => rfl) s.debitLog i
    rwa [List.filter_true, List.filter_true] at this
  have hids : (s.reverseAt i debitRef).requestIds = s.requestIds := hmap _ fun _ => rfl
  have hrefs : (s.reverseAt i debitRef).debitRefs = s.debitRefs := hmap _ fun _ => rfl
  have hget : ∀ j, (s.reverseAt i debitRef).debitLog[j]? =
      if i = j then s.debitLog[j]?.map fun e => { e with reversed := true } else s.debitLog[j]? :=
    fun j => by
      rw [BankState.reverseAt, List.getElem?_modify]
      split <;> simp
  have hplace : ∀ {j : ℕ} {e : DebitLogEntry}, s.debitLog[j]? = some e →
      e.debit.debitRef = debitRef → j = i := fun {j e} hj he => by
    have hj' := h.byDebitRef.get_iff (k := debitRef) (i := j)
    have hi' := h.byDebitRef.get_iff (k := debitRef) (i := i)
    simp only [BankState.debitRefs, List.getElem?_map, hj, hentry, Option.map_some, he, href,
      iff_true] at hj' hi'
    exact Option.some.inj (hj'.symm.trans hi')
  have hunlisted : debitRef ∉ s.reversedRefs := fun hmem => by
    obtain ⟨e, he, hid, hrev⟩ := (h.reversed debitRef).mp hmem
    obtain ⟨j, hj⟩ := List.mem_iff_getElem?.mp he
    obtain rfl := hplace hj hid
    rw [hentry] at hj
    cases hj
    rw [hreversed] at hrev
    cases hrev
  refine ⟨⟨hids ▸ h.byRequestId, hrefs ▸ h.byDebitRef, ?_, fun ref => ?_, ?_⟩, fun j e he => ?_,
    List.prefix_append _ _, List.prefix_rfl⟩
  · rw [BankState.reversedRefs, BankState.reverseAt, List.map_append]
    refine List.nodup_append.mpr ⟨h.once, List.pairwise_singleton _ _, ?_⟩
    rintro x hx y hy rfl
    obtain rfl : x = debitRef := List.mem_singleton.mp hy
    exact hunlisted hx
  · rw [BankState.reversedRefs, BankState.reverseAt, List.map_append, List.mem_append]
    change ref ∈ s.reversedRefs ∨ ref ∈ [debitRef] ↔ _
    rw [h.reversed, List.mem_singleton]
    constructor
    · rintro (⟨e, he, hid, hrev⟩ | rfl)
      · obtain ⟨j, hj⟩ := List.mem_iff_getElem?.mp he
        have hj' := hget j
        rw [hj] at hj'
        split at hj'
        · exact ⟨_, List.mem_of_getElem? hj', hid, rfl⟩
        · exact ⟨e, List.mem_of_getElem? hj', hid, hrev⟩
      · have hi' := hget i
        rw [if_pos rfl, hentry] at hi'
        exact ⟨_, List.mem_of_getElem? hi', href, rfl⟩
    · rintro ⟨e, he, hid, hrev⟩
      obtain ⟨j, hj⟩ := List.mem_iff_getElem?.mp he
      change (s.reverseAt i debitRef).debitLog[j]? = some e at hj
      rw [hget] at hj
      split at hj
      next hij =>
        subst hij
        rw [hentry] at hj
        cases hj
        exact .inr (hid.symm.trans href)
      next => exact .inl ⟨e, List.mem_of_getElem? hj, hid, hrev⟩
  · rw [BankState.reverseAt]
    dsimp only
    rw [h.signed]
    exact (map_filter_modify (f := fun e : DebitLogEntry => { e with reversed := true })
      (fun _ => rfl) (fun _ => rfl) s.debitLog i).symm
  · have hj := hget j
    rw [he] at hj
    split at hj
    · exact ⟨_, hj, rfl, rfl, fun _ => rfl⟩
    · exact ⟨e, hj, rfl, rfl, id⟩

/-- The mode and the time are not about the ledger. -/
theorem Ledger.shift (h : Ledger s) (mode : BankMode) (now : String) :
    Ledger { s with mode, now } ∧ Grows s { s with mode, now } :=
  ⟨⟨h.byRequestId, h.byDebitRef, h.once, h.reversed, h.signed⟩,
    fun _ e he => ⟨e, he, rfl, rfl, id⟩, List.prefix_rfl, List.prefix_rfl⟩

end Ledger

/-! ### The handlers -/

section Handlers

variable {P : Platform} {key : BankKey}

/-- The random bytes of a debit reference are fresh. -/
def FreshRef (req : BankRequest) (s : BankState) : Prop :=
  match req with
  | .debit _ random => debitRefOf random ∉ s.debitRefs
  | _ => True

/-- The discipline of the handlers: they keep the ledger, which only grows. -/
def bankDiscipline (P : Platform) (key : BankKey) : Discipline (bankGame P key) where
  inv := Ledger
  admits := FreshRef
  evolves := Grows
  rely _ _ _ := True
  gua _ s s' := Ledger s' ∧ Grows s s'
  compatible _ _ := True
  post _ _ _ := True
  exn _ _ _ := False

/-- A submission keeps to the discipline of the ledger, where the reference that it draws is fresh.
-/
theorem postDebit_spec {body : Option Json} {random : Bytes} {s : BankState} (h : Ledger s)
    (hfresh : debitRefOf random ∉ s.debitRefs) :
    wpa ((bankDiscipline P key).contract (.debit body random, s)) (Lens.whole BankState)
      (postDebit P key body random) (fun _ b s => (Ledger s ∧ Grows b s) ∧ True)
      (fun _ b s => (Ledger s ∧ Grows b s) ∧ False) s s := by
  rw [postDebit]
  split
  next => exact ⟨⟨h, .refl s⟩, trivial⟩
  next request _ =>
    simp only [wpa_bind, wpa_gets, Lens.whole_view]
    split
    next => exact ⟨⟨h, .refl s⟩, trivial⟩
    next hnone =>
      have hpush : ∀ signed, Ledger (s.push (s.entryOf P key request random signed)) ∧
          Grows s (s.push (s.entryOf P key request random signed)) := fun signed =>
        h.confirm (h.prior_eq_none hnone) hfresh rfl
      simp only [wpa_bind, wpa_gets, Lens.whole_view]
      split
      next => exact ⟨⟨h, .refl s⟩, trivial⟩
      next =>
        simp only [wpa_bind, wpa_call, wpa_pure]
        exact ⟨⟨h, .refl s⟩, fun _ s' hr => ⟨⟨hr.2.1, .refl s'⟩, trivial⟩⟩
      next =>
        simp only [wpa_bind, wpa_gets, wpa_modify, wpa_pure, Lens.whole_view]
        exact ⟨hpush true, trivial⟩
      next =>
        simp only [wpa_bind, wpa_gets, wpa_modify, wpa_pure, Lens.whole_view]
        exact ⟨hpush false, trivial⟩

/-- A reversal keeps to the discipline of the ledger. -/
theorem postReverse_spec {debitRef : String} {s : BankState} (h : Ledger s) :
    wpa ((bankDiscipline P key).contract (.reverse debitRef, s)) (Lens.whole BankState)
      (postReverse debitRef) (fun _ b s => (Ledger s ∧ Grows b s) ∧ True)
      (fun _ b s => (Ledger s ∧ Grows b s) ∧ False) s s := by
  rw [postReverse]
  simp only [wpa_bind, wpa_gets, Lens.whole_view]
  split
  next => exact ⟨⟨h, .refl s⟩, trivial⟩
  next i entry hentry =>
    rw [Option.bind_eq_some_iff] at hentry
    obtain ⟨j, hget, hj⟩ := hentry
    obtain ⟨e, he, heq⟩ := Option.map_eq_some_iff.mp hj
    cases heq
    have hid := h.byDebitRef.get_iff.mp hget
    rw [BankState.debitRefs, List.getElem?_map, he] at hid
    have hr : entry.reversed = false → Ledger (s.reverseAt i debitRef) ∧
      Grows s (s.reverseAt i debitRef) :=
      h.reverse he (Option.some.inj hid)
    cases hreversed : entry.reversed with
    | true => exact ⟨⟨h, .refl s⟩, trivial⟩
    | false => exact ⟨hr hreversed, trivial⟩

/-- A change of the mode leaves the ledger alone. -/
theorem postMode_spec {body : Option Json} {s : BankState} (h : Ledger s) :
    wpa ((bankDiscipline P key).contract (.mode body, s)) (Lens.whole BankState)
      (postMode body) (fun _ b s => (Ledger s ∧ Grows b s) ∧ True)
      (fun _ b s => (Ledger s ∧ Grows b s) ∧ False) s s := by
  rw [postMode]
  split
  next => exact ⟨⟨h, .refl s⟩, trivial⟩
  next mode _ => exact ⟨h.shift mode s.now, trivial⟩

/-- **The discipline of the ledger holds** of the bank. -/
theorem bankDiscipline_valid : (bankDiscipline P key).Valid where
  evolves_refl := Grows.refl
  evolves_trans h h' := h.trans h'
  rely_refl _ _ := trivial
  rely_trans _ _ := trivial
  handler_spec req s hs hadm := by
    cases req with
    | debit body random => exact postDebit_spec hs hadm
    | reverse debitRef => exact postReverse_spec hs
    | mode body => exact postMode_spec hs
  gua_inv _ h := h
  gua_rely _ _ _ := trivial
  moves_inv {s s'} hs h := by
    obtain ⟨now, rfl⟩ := h
    exact hs.shift s.mode now
  moves_rely _ _ := trivial

/-- A request that comes again is answered with what was confirmed. -/
theorem settle_postDebit_again {body : Option Json} {random : Bytes} {s : BankState}
    {request : DebitRequest} {entry : DebitLogEntry} (h : Ledger s)
    (hbody : debitRequestOf body = some request) (hentry : entry ∈ s.debitLog)
    (hid : entry.debit.requestId = request.requestId) :
    (postDebit P key body random).settle s = (.ret (.json entry.debit.toJson), s) := by
  have hprior := h.prior_iff.mpr ⟨hentry, hid⟩
  rw [postDebit, hbody]
  dsimp only
  rw [Prog.settle_bind_ret (a := s.prior request.requestId) _ rfl, hprior]
  rfl

/-- A debit that is not reversed yet is reversed. -/
theorem settle_postReverse {s : BankState} (h : Ledger s) {i : ℕ} {e : DebitLogEntry}
    (he : s.debitLog[i]? = some e) (hreversed : e.reversed = false) :
    (postReverse e.debit.debitRef).settle s = (.ret (.json (object [("reversed", some (.bool true)),
      ("debitRef", some (.str e.debit.debitRef))])), s.reverseAt i e.debit.debitRef) := by
  have hget : s.byDebitRef.get e.debit.debitRef = some i := h.byDebitRef.get_iff.mpr (by
    rw [BankState.debitRefs, List.getElem?_map, he]
    rfl)
  rw [postReverse, Prog.settle_bind_ret (a := some (i, e)) (t := s) _ (by
    change (Prog.ret ((s.byDebitRef.get e.debit.debitRef).bind fun i =>
      s.debitLog[i]?.map fun entry => (i, entry)), s) = _
    rw [hget, Option.bind_some, he]
    rfl)]
  dsimp only
  rw [hreversed]
  rfl

/-- A request is admitted if the reference that it may draw is fresh. -/
def DrawsFresh (c : Pool BankState BankState String BankCall BankCall.Answer Response BankRequest)
    (req : BankRequest) : Prop := FreshRef req c.state

/-- A request that draws a fresh reference is admitted by the discipline. -/
theorem DrawsFresh.admits
    {c : Pool BankState BankState String BankCall BankCall.Answer Response BankRequest}
    {req : BankRequest} (h : DrawsFresh c req) : (bankDiscipline P key).Admits c req :=
  ⟨h, fun _ _ _ => ⟨trivial, trivial⟩⟩

/-- **The bank's ledger.** In every state that is reached the ledger is in order; a well-formed
request under an identifier that has an entry is answered with its confirmation, whatever the mode
and the other fields are; and whatever happens next, the log only grows. -/
theorem bank_ledger {now : String}
    {c : Pool BankState BankState String BankCall BankCall.Answer Response BankRequest}
    (h : (bankGame P key).Reaches DrawsFresh (.boot now) c) :
    Ledger c.state ∧ (c.state.signed.map (·.requestId)).Nodup ∧
      (∀ body random request, debitRequestOf body = some request →
        ∀ entry ∈ c.state.debitLog, entry.debit.requestId = request.requestId →
          (postDebit P key body random).settle c.state = (.ret (.json entry.debit.toJson),
            c.state)) ∧
      ∀ as, (bankGame P key).Playable DrawsFresh c as →
        Grows c.state ((bankGame P key).play c as).state := by
  have hadm : ∀ c req, (bankDiscipline P key).Good c → DrawsFresh c req →
      (bankDiscipline P key).Admits c req := fun _ _ _ hfresh => hfresh.admits
  have hgood := Discipline.sound bankDiscipline_valid (ledger_boot now) hadm h
  exact ⟨hgood.inv, hgood.inv.signed_nodup, fun body random request hbody entry hentry hid =>
    settle_postDebit_again hgood.inv hbody hentry hid,
    fun as has => (hgood.play bankDiscipline_valid hadm has).2⟩

end Handlers

/-! ### A small bank -/

namespace Small

/-- The key of the small bank, the secret scalar 3. -/
def bankSecret : BankKey := ⟨[3]⟩

/-- The debit request of the small purchase, at an amount. -/
def debitBody (amount : ℚ) : Json :=
  object [("requestId", some (.str "REQ-1")), ("merchantId", some (.str "MER-001")),
    ("meterId", some (.str "MTR-1001")), ("amountKwh", some (.num (.fin 10))),
    ("amount", some (.num (.fin amount))), ("currency", some (.str "ZAR"))]

/-- A debit, and its reversal, one after the other. -/
def banking : List (Action BankState BankCall BankCall.Answer BankRequest) :=
  [.spawn (.debit (some (debitBody 25)) [1, 2, 3, 4, 5, 6]), .spawn (.reverse "DBT-010203040506")]

/-- The bank after both. -/
def banked : Pool BankState BankState String BankCall BankCall.Answer Response BankRequest :=
  (bankGame platform bankSecret).play ⟨.boot "2025-01-01T00:00:00.000Z", []⟩ banking

end Small

/-- A debit that was reversed is returned again, whatever the amount is now. -/
theorem bank_ledger_small : ∃ entry, Small.banked.state.debitLog = [entry] ∧
    entry.reversed = true ∧ Small.banked.state.reversedRefs = [entry.debit.debitRef] ∧
    (postDebit Small.platform Small.bankSecret (some (Small.debitBody 7)) []).settle
      Small.banked.state = (.ret (.json entry.debit.toJson), Small.banked.state) := by
  have hreach : (bankGame Small.platform Small.bankSecret).Reaches DrawsFresh
      (.boot "2025-01-01T00:00:00.000Z") Small.banked := by
    refine .play .init ?_
    rw [Small.banking]
    refine ⟨trivial, fun req heq => ?_, trivial, fun req heq => ?_, trivial⟩
    · cases heq
      exact List.not_mem_nil
    · cases heq
      trivial
  obtain ⟨-, -, hagain, -⟩ := bank_ledger hreach
  have hlog : Small.banked.state.debitLog.map (fun e => (e.reversed, e.debit.requestId)) =
      [(true, "REQ-1")] ∧ Small.banked.state.reversedRefs =
        Small.banked.state.debitLog.map (·.debit.debitRef) := by decide +kernel
  obtain ⟨hentries, hrefs⟩ := hlog
  obtain ⟨entry, hentry, heq⟩ := List.map_eq_singleton_iff.mp hentries
  obtain ⟨hreversed, hid⟩ := Prod.ext_iff.mp heq
  refine ⟨entry, hentry, hreversed, by rw [hrefs, hentry]; rfl, ?_⟩
  exact hagain _ _ ⟨"REQ-1", "MER-001", "MTR-1001", 10, 7, "ZAR"⟩ (by decide +kernel) entry
    (hentry ▸ List.mem_singleton.mpr rfl) hid

end NoGhost
