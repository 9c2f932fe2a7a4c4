import NoGhost.Bank
import NoGhost.Frost.Rounds

/-!
# Confirmations

What the bank answers, and what of it arrives. A confirmation that the bank has signed verifies
under the public key of the bank, as every reader of it checks; one handler of the bank either
confirms a debit, or finds one that it has confirmed, or confirms nothing.

## Main results

* `verified_confirmation`: a signed confirmation verifies where it arrives.
* `Replied`: the ways in which a debit request may be answered.
-/

open Js Async

namespace NoGhost

variable {P : Platform} {key : BankKey}

/-! ### Confirmations on the wire -/

/-- The public key of the bank in hexadecimal, as `bank.pub.json` has it and the others read it. -/
def BankKey.publicKey (P : Platform) (key : BankKey) : String :=
  bytesToHex (P.getPublicKey key.secretKey)

namespace DebitConfirmation

variable (d : DebitConfirmation)

/-- The fields of a confirmation that arrives are those that the bank has set, each under its own
name. -/
theorem get?_sent (k : String) : (sent d.toJson).get? k =
    (List.lookup k [("debitRef", some (.str d.debitRef)), ("requestId", some (.str d.requestId)),
      ("meterId", some (.str d.meterId)), ("amountKwh", some (.num (.fin d.amountKwh))),
      ("amount", some (.num (.fin d.amount))), ("currency", some (.str d.currency)),
      ("confirmedAt", some (.str d.confirmedAt)),
      ("bankSignature", some (.str d.bankSignature))]).join.map sent := by
  rw [toJson]
  refine get?_sent_object ?_ k
  simp

@[simp] theorem get?_debitRef : (sent d.toJson).get? "debitRef" = some (.str d.debitRef) :=
  d.get?_sent "debitRef"

@[simp] theorem get?_requestId : (sent d.toJson).get? "requestId" = some (.str d.requestId) :=
  d.get?_sent "requestId"

@[simp] theorem get?_meterId : (sent d.toJson).get? "meterId" = some (.str d.meterId) :=
  d.get?_sent "meterId"

@[simp] theorem get?_amountKwh :
    (sent d.toJson).get? "amountKwh" = some (.num (.fin d.amountKwh)) := d.get?_sent "amountKwh"

@[simp] theorem get?_amount : (sent d.toJson).get? "amount" = some (.num (.fin d.amount)) :=
  d.get?_sent "amount"

@[simp] theorem get?_currency : (sent d.toJson).get? "currency" = some (.str d.currency) :=
  d.get?_sent "currency"

@[simp] theorem get?_confirmedAt : (sent d.toJson).get? "confirmedAt" = some (.str d.confirmedAt) :=
  d.get?_sent "confirmedAt"

@[simp] theorem get?_bankSignature :
    (sent d.toJson).get? "bankSignature" = some (.str d.bankSignature) :=
    d.get?_sent "bankSignature"

/-- The payload that a reader rebuilds is the one that the bank had. -/
theorem signedPayload_sent :
    signedPayload (some (sent d.toJson)) = .ok d.toDebitSignedPayload.toJson := by
  have hprop : ∀ k, prop (some (sent d.toJson)) k = .ok ((sent d.toJson).get? k) := fun k => by
    rw [toJson, object]
    rfl
  simp only [signedPayload, signedFields, List.mapM_cons, List.mapM_nil, hprop, get?_debitRef,
    get?_requestId, get?_meterId, get?_amountKwh, get?_amount, get?_currency, get?_confirmedAt]
  rfl

/-- **A signed confirmation verifies** where it arrives: the body that is signed is made again from
its fields, and has the same canonical text. -/
theorem verified_confirmation (hsigned : d.bankSignature =
    signDebitPayload P key d.toDebitSignedPayload) :
    verifyBankSignature P (some (sent d.toJson)) (key.publicKey P) = true := by
  have hprop : prop (some (sent d.toJson)) "bankSignature" = .ok (some (.str d.bankSignature)) :=
    congrArg Except.ok d.get?_bankSignature
  simp only [verifyBankSignature, d.signedPayload_sent, hprop, hsigned, signDebitPayload,
    BankKey.publicKey, hexToBytesOf, hexToBytes_bytesToHex, bind, Except.bind, pure, Except.pure,
    P.verify_sign]

end DebitConfirmation

/-! ### Replies -/

/-- A handler of the bank answers at once, or after a sleep and without doing anything more; these
are the only two ways in which it awaits. -/
inductive Served (p : BankProg Response) (s : BankState) (answer : Response) (s' : BankState) : Prop
  | atOnce (h : p.settle s = (.ret answer, s'))
  | later {ms : ℕ} {k : Unit → BankProg Response} (h : p.settle s = (.await (.sleep ms) k, s'))
      (hk : ∀ u, (k ()).settle u = (.ret answer, u))

/-- How a debit request is answered: nothing is confirmed, or what was confirmed before is returned,
or the debit is confirmed. -/
inductive Replied (P : Platform) (key : BankKey) (body : Option Json) (random : Bytes)
    (s : BankState) (answer : Response) (s' : BankState) : Prop
  | refused (hsame : s' = s) (hstatus : 300 ≤ answer.status)
  | again {request : DebitRequest} {entry : DebitLogEntry}
      (hbody : debitRequestOf body = some request)
      (hprior : s.prior request.requestId = some entry) (hsame : s' = s)
      (hanswer : answer = .json entry.debit.toJson)
  | confirmed {request : DebitRequest} {signed : Bool} (hbody : debitRequestOf body = some request)
      (hprior : s.prior request.requestId = none)
      (hpush : s' = s.push (s.entryOf P key request random signed))
      (hanswer : answer = .json (s.entryOf P key request random signed).debit.toJson)

section Replies

variable {body : Option Json} {random : Bytes} {s s' : BankState} {answer : Response}

/-- A handler that returns in its first segment has served the request with that answer and state.
-/
theorem Served.ret {p : BankProg Response} {a : Response} {u : BankState}
    (h : Served p s answer s') (hp : p.settle s = (.ret a, u)) : answer = a ∧ s' = u := by
  cases h with
  | atOnce h =>
      rw [h, Prod.mk.injEq, Prog.ret.injEq] at hp
      exact hp
  | later h _ =>
      rw [h] at hp
      cases hp

/-- A handler that sleeps has served the request where it goes on from the sleep in the state of
then. -/
theorem Served.slept {p : BankProg Response} {ms : ℕ} {k : Unit → BankProg Response} {a : Response}
    {u : BankState} (h : Served p s answer s') (hp : p.settle s = (.await (.sleep ms) k, u))
    (hk : ∀ u, (k ()).settle u = (.ret a, u)) : answer = a ∧ s' = u := by
  cases h with
  | atOnce h =>
      rw [h] at hp
      cases hp
  | later h hk' =>
      rw [h] at hp
      cases hp
      have := (hk' s).symm.trans (hk s)
      simp only [Prod.mk.injEq, Prog.ret.injEq] at this
      exact ⟨this.1, rfl⟩

/-- The part of `postDebit` that serves a new request in each of the modes of the bank: it declines,
or it confirms at once or after the sleep. -/
def serveNew (P : Platform) (key : BankKey) (request : DebitRequest) (random : Bytes) :
    BankMode → BankProg Response
  | .DECLINE => pure declinedResponse
  | .TIMEOUT => do
      let _ ← Prog.call (BankCall.sleep 8000)
      pure timeoutResponse
  | mode => do
      let entry ← Prog.gets (BankState.entryOf P key request random (mode = .CONFIRM))
      Prog.modify (BankState.push entry)
      pure (.json entry.debit.toJson)

variable (P key random) in
/-- A request that the bank has not served before comes to that part. -/
theorem settle_postDebit_new {request : DebitRequest} (hbody : debitRequestOf body = some request)
    (hprior : s.prior request.requestId = none) :
    (postDebit P key body random).settle s = (serveNew P key request random s.mode).settle s := by
  rw [postDebit, hbody]
  dsimp only
  rw [Prog.settle_bind_ret (a := s.prior request.requestId) _ rfl, hprior]
  dsimp only
  refine (Prog.settle_bind_ret (a := s.mode) _ rfl).trans ?_
  cases s.mode <;> rfl

/-- **A debit request** is answered in one of the three ways: with a refusal that leaves the ledger
alone, with the confirmation of before, or with a new entry that is recorded. -/
theorem Served.replied (h : Served (postDebit P key body random) s answer s') :
    Replied P key body random s answer s' := by
  cases hbody : debitRequestOf body with
  | none =>
      obtain ⟨rfl, rfl⟩ := h.ret (a := .error 400 "invalid DebitRequest")
        (by rw [postDebit, hbody]; rfl)
      exact .refused rfl (by decide)
  | some request =>
      cases hprior : s.prior request.requestId with
      | some entry =>
          obtain ⟨rfl, rfl⟩ := h.ret (a := .json entry.debit.toJson) (u := s) (by
            rw [postDebit, hbody]
            dsimp only
            rw [Prog.settle_bind_ret (a := s.prior request.requestId) _ rfl, hprior]
            rfl)
          exact .again hbody hprior rfl rfl
      | none =>
          have hsettle := settle_postDebit_new P key random hbody hprior
          cases hmode : s.mode with
          | DECLINE =>
              rw [hmode] at hsettle
              obtain ⟨rfl, rfl⟩ := h.ret hsettle
              exact .refused rfl (by decide)
          | TIMEOUT =>
              rw [hmode] at hsettle
              obtain ⟨rfl, rfl⟩ := h.slept (a := timeoutResponse) hsettle fun u => rfl
              exact .refused rfl (by decide)
          | CONFIRM =>
              rw [hmode] at hsettle
              obtain ⟨rfl, rfl⟩ := h.ret hsettle
              exact .confirmed hbody hprior rfl rfl
          | OMIT_SIGNATURE =>
              rw [hmode] at hsettle
              obtain ⟨rfl, rfl⟩ := h.ret hsettle
              exact .confirmed hbody hprior rfl rfl

/-- The request that is read off a body that passes the checks has the identifier of the body. -/
theorem requestId_of_debitRequestOf {request : DebitRequest}
    (h : debitRequestOf body = some request) :
    prop? body "requestId" = some (.str request.requestId) := by
  unfold debitRequestOf at h
  split at h
  next hid _ _ _ _ _ =>
    split at h
    · cases h
    · cases h
      exact hid
  next => cases h

/-- What the answer to a debit request leaves of the ledger: it is in order, and has only grown,
where the new reference is fresh. -/
theorem Replied.ledger (h : Replied P key body random s answer s') (hl : Ledger s)
    (hfresh : debitRefOf random ∉ s.debitRefs) : Ledger s' ∧ Grows s s' := by
  cases h with
  | refused hsame _ | again _ _ hsame _ =>
      subst hsame
      exact ⟨hl, .refl s'⟩
  | confirmed _ hprior hpush _ => exact hpush ▸ hl.confirm (hl.prior_eq_none hprior) hfresh rfl

/-- A debit request reverses nothing, whichever way it is answered. -/
theorem Replied.reversedRefs (h : Replied P key body random s answer s') :
    s'.reversedRefs = s.reversedRefs := by
  cases h with
  | refused hsame _ | again _ _ hsame _ => rw [hsame]
  | confirmed _ _ hpush _ => rw [hpush]; rfl

/-- An answer that confirms has an entry under the identifier that was asked for. -/
theorem Replied.entry (h : Replied P key body random s answer s') (hl : Ledger s)
    (hok : answer.status < 300) : ∃ entry ∈ s'.debitLog, answer = .json entry.debit.toJson ∧
      prop? body "requestId" = some (.str entry.debit.requestId) := by
  cases h with
  | refused _ hstatus => omega
  | again hbody hprior hsame hanswer =>
      obtain ⟨hmem, hid⟩ := hl.prior_iff.mp hprior
      exact ⟨_, hsame ▸ hmem, hanswer, hid ▸ requestId_of_debitRequestOf hbody⟩
  | confirmed hbody _ hpush hanswer =>
      refine ⟨_, ?_, hanswer, requestId_of_debitRequestOf hbody⟩
      rw [hpush]
      exact List.mem_append_right _ (List.mem_singleton.mpr rfl)

/-- A new entry is what the request is answered with, and it is for the request of the body. -/
theorem Replied.new (h : Replied P key body random s answer s') {entry : DebitLogEntry}
    (hentry : entry ∈ s'.debitLog) : entry ∈ s.debitLog ∨ answer = .json entry.debit.toJson ∧
      prop? body "requestId" = some (.str entry.debit.requestId) ∧ (entry.outcome = .CONFIRMED →
        entry.debit.bankSignature = signDebitPayload P key entry.debit.toDebitSignedPayload) := by
  cases h with
  | refused hsame _ | again _ _ hsame _ => exact .inl (hsame ▸ hentry)
  | @confirmed request signed hbody _ hpush hanswer =>
      rw [hpush] at hentry
      rcases List.mem_append.mp hentry with hold | hnew
      · exact .inl hold
      · obtain rfl := List.mem_singleton.mp hnew
        refine .inr ⟨hanswer, requestId_of_debitRequestOf hbody, fun houtcome => ?_⟩
        cases signed with
        | true => rfl
        | false => cases houtcome

/-- **A reverse call** reverses the entry of its reference, or nothing: the ledger stays in order,
and every other entry is as it was. -/
theorem Served.reversed {debitRef : String} (h : Served (postReverse debitRef) s answer s')
    (hl : Ledger s) : (Ledger s' ∧ Grows s s') ∧
      (∀ ref ∈ s'.reversedRefs, ref ∈ s.reversedRefs ∨ ref = debitRef) ∧
      ∀ e' ∈ s'.debitLog, ∃ e ∈ s.debitLog, e'.debit = e.debit ∧ e'.outcome = e.outcome ∧
        (e.reversed = true → e'.reversed = true) := by
  set found := (s.byDebitRef.get debitRef).bind fun i =>
    s.debitLog[i]?.map fun entry => (i, entry) with hfound
  have hsame : ∀ {t : BankState}, t = s → (Ledger t ∧ Grows s t) ∧
      (∀ ref ∈ t.reversedRefs, ref ∈ s.reversedRefs ∨ ref = debitRef) ∧
      ∀ e' ∈ t.debitLog, ∃ e ∈ s.debitLog, e'.debit = e.debit ∧ e'.outcome = e.outcome ∧
        (e.reversed = true → e'.reversed = true) := by
    rintro t rfl
    exact ⟨⟨hl, .refl t⟩, fun _ => .inl, fun e he => ⟨e, he, rfl, rfl, id⟩⟩
  cases hcase : found with
  | none =>
      obtain ⟨-, hs⟩ := h.ret (a := .error 404 "unknown debitRef") (u := s) (by
        rw [postReverse, Prog.settle_bind_ret (a := found) _ rfl, hcase]
        rfl)
      exact hsame hs
  | some out =>
      obtain ⟨i, entry⟩ := out
      rw [hfound, Option.bind_eq_some_iff] at hcase
      obtain ⟨j, hget, hj⟩ := hcase
      obtain ⟨e, he, heq⟩ := Option.map_eq_some_iff.mp hj
      cases heq
      have href := hl.byDebitRef.get_iff.mp hget
      rw [BankState.debitRefs, List.getElem?_map, he] at href
      have hfound' : found = some (i, entry) := by rw [hfound, hget, Option.bind_some, he]; rfl
      cases hreversed : entry.reversed with
      | true =>
          obtain ⟨-, hs⟩ := h.ret (u := s) (by
            rw [postReverse, Prog.settle_bind_ret (a := found) _ rfl, hfound']
            dsimp only
            rw [hreversed]
            rfl)
          exact hsame hs
      | false =>
          obtain ⟨-, hs⟩ := h.ret (u := s.reverseAt i debitRef) (by
            rw [postReverse, Prog.settle_bind_ret (a := found) _ rfl, hfound']
            dsimp only
            rw [hreversed]
            rfl)
          subst hs
          refine ⟨hl.reverse he (Option.some.inj href) hreversed,
            fun ref hmem => ?_, fun e' he' => ?_⟩
          · rw [BankState.reversedRefs, BankState.reverseAt, List.map_append] at hmem
            exact (List.mem_append.mp hmem).imp_right List.mem_singleton.mp
          · obtain ⟨k, hk⟩ := List.mem_iff_getElem?.mp he'
            rw [BankState.reverseAt, List.getElem?_modify,
              Option.map_eq_map, Option.map_eq_some_iff] at hk
            obtain ⟨e, hk, rfl⟩ := hk
            refine ⟨e, List.mem_of_getElem? hk, ?_⟩
            split
            · exact ⟨rfl, rfl, fun _ => rfl⟩
            · exact ⟨rfl, rfl, id⟩

end Replies

end NoGhost
