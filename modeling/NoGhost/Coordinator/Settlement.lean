import NoGhost.Coordinator.Stages

/-!
# Settlement

Where a run may be, how it may end, and its last steps: the receipt, the delivery at the meter,
and the abandonment that may come at any time after the debit. Every write is a `Move`, whatever
the answers. There is one rule for each step, the last step first, since a step ends in the
next one.

## Main results

* `wp_abandon`: an abandoned run asks for one reversal, if the reference can be printed.
* `wp_deliver`: the token is dispensed once, after it is marked as redeemed.
* `wp_settleReceipt`: a receipt is recorded after the ledger has accepted it.
-/

open Js Async

namespace NoGhost

variable {cfg : Config} {σ : Type} {L : Lens σ (Store cfg)} {P : Platform}
  {env : CoordinatorEnv cfg} {O : Outside L} {rid : ℕ}

/-! ### Reverse calls -/

/-- The entry is an answered reverse call. -/
def isReverse : Entry σ (CoordinatorCall cfg) CoordinatorCall.Answer → Bool
  | .answered (.reverse _ _) _ => true
  | _ => false

/-- The number of reverse calls of a run, counted by their answers. -/
def reverseCalls (t : CoordinatorTrace σ cfg) : ℕ := t.countP isReverse

@[simp] theorem reverseCalls_wrote (t : CoordinatorTrace σ cfg) (s s' : σ) :
    reverseCalls (t ++ [.wrote s s']) = reverseCalls t := by
  simp [reverseCalls, isReverse]

/-- An answer counts where it is that of a reverse call. -/
theorem reverseCalls_answered (t : CoordinatorTrace σ cfg) (q : CoordinatorCall cfg)
    (a : q.Answer) : reverseCalls (t ++ [.answered q a]) =
      reverseCalls t + if isReverse (.answered q a : Entry σ _ _) then 1 else 0 := by
  simp [reverseCalls, List.countP_append, List.countP_singleton]

/-! ### Where a run is -/

variable (L rid) in
/-- The account of the run at this point, and that it has asked for no reversal so far. -/
structure On (r : PipelineRecord cfg) (e : Deeds) (t : CoordinatorTrace σ cfg) (s : σ) :
    Prop where
  account : (L.view s).account rid = ⟨r, e⟩
  calls : reverseCalls t = 0

section On

variable {r r' : PipelineRecord cfg} {e e' : Deeds} {t : CoordinatorTrace σ cfg} {s s' : σ}
  {u' : Store cfg}

/-- The record of the run is that of its account. -/
theorem On.heap (h : On L rid r e t s) : (L.view s).heap rid = r :=
  congrArg Account.record h.account

/-- What the run has done is what its account says. -/
theorem On.deeds (h : On L rid r e t s) : (L.view s).deeds rid = e :=
  congrArg Account.deeds h.account

/-- An answer leaves the run where it is, since the others do not write its account. -/
theorem On.answered (h : On L rid r e t s) {q : CoordinatorCall cfg} {a : q.Answer}
    (hr : (walkRules P env O rid).resume q s a s')
    (hq : isReverse (.answered q a : Entry σ _ _) = false) :
    On L rid r e (t ++ [.answered q a]) s' := by
  refine ⟨hr.2.2.trans h.account, ?_⟩
  rw [reverseCalls_answered, h.calls, hq]
  rfl

/-- A write takes the run to another account. -/
theorem On.wrote (h : On L rid r e t s) (hu : u'.account rid = ⟨r', e'⟩) :
    On L rid r' e' (t ++ [.wrote s (L.put s u')]) (L.put s u') :=
  ⟨by rw [L.view_put, hu], by rw [reverseCalls_wrote, h.calls]⟩

/-- A quiet write leaves the run where it is. -/
theorem On.quiet (h : On L rid r e t s) (hq : Quiet (L.view s) u') :
    On L rid r e (t ++ [.wrote s (L.put s u')]) (L.put s u') :=
  h.wrote ((hq.account rid).trans h.account)

/-- A rewrite of its record takes the run to the new record, with the same deeds. -/
theorem On.rewrites (h : On L rid r e t s) (hw : Rewrites rid r' (L.view s) u') :
    On L rid r' e (t ++ [.wrote s (L.put s u')]) (L.put s u') :=
  h.wrote (by rw [hw.account_self, h.deeds])

/-- The obligation at an await: nothing is dispensed, and a receipt is there only where the run
cannot deliver any more. -/
theorem On.rest (h : On L rid r e t s) (hdispensed : e.dispensed = [])
    (hreceipts : e.receipts = [] ∨ Late P env O rid t) :
    (walkRules P env O rid).rest t s := by
  refine ⟨?_, ?_⟩
  · rw [h.deeds, hdispensed]
  · rw [h.deeds]
    exact hreceipts

/-- A place of the chain before the last is no end. -/
theorem At.alive {k : ℕ} (h : At P env O rid k t r) (hk : k ≤ 5) : r.status ∉ TERMINAL := by
  have hstatus := h.status
  intro hterminal
  simp only [TERMINAL, List.mem_cons, List.not_mem_nil, or_false] at hterminal
  rcases hterminal with heq | heq | heq <;> rw [heq] at hstatus <;> interval_cases k <;>
    cases hstatus

/-- A pending record is not at its end. -/
theorem alive_of_pending (h : r.status = .PENDING) : r.status ∉ TERMINAL := by
  rw [h]
  decide

/-- A quiet write is a move, which the rules of the run allow. -/
theorem gua_quiet (h : (L.view s).account rid = ⟨r, e⟩) (hphase : Phase P env O rid t r e)
    (halive : r.status ∉ TERMINAL) (hq : Quiet (L.view s) u') :
    (walkRules P env O rid).gua t s (L.put s u') := by
  have hheap : u'.heap rid = (L.view s).heap rid := congrFun hq.heap rid
  have hown : (L.view s).heap rid = r := congrArg Account.record h
  have hdeeds : (L.view s).deeds rid = e := congrArg Account.deeds h
  refine ⟨u', rfl, hown.symm ▸ halive, fun i _ => hq.account i, by rw [hheap], ?_,
    .still (by rw [hheap]) hq.common, .inl (by rw [hheap]), fun hst => .inl ?_, fun hch => .inl ?_⟩
  · rw [hheap, hown, Store.deeds_of_common hq.common, hdeeds]
    exact hphase
  · rwa [hheap] at hst
  · rwa [hq.account] at hch

/-- A change of the record is a move where it leads to another phase. -/
theorem gua_rewrites (h : (L.view s).account rid = ⟨r, e⟩) (hw : Rewrites rid r' (L.view s) u')
    (halive : r.status ∉ TERMINAL) (hrequest : r'.request = r.request)
    (hledger : r'.ledger = r.ledger) (hphase : Phase P env O rid t r' e)
    (hpaid : r'.debit = r.debit ∨ r.debit = none ∧ Pays P env O rid s r.request r'.debit)
    (hrefused : r'.status = .REJECTED → r.status = .REJECTED ∨ Refused P env O rid s ⟨r, e⟩)
    (hclaimed : (⟨r', e⟩ : Account cfg).Charged →
      (⟨r, e⟩ : Account cfg).Charged ∨ Claimed (L.view s) r') :
    (walkRules P env O rid).gua t s (L.put s u') := by
  have hclaims : u'.consumedDebitRefs = (L.view s).consumedDebitRefs :=
    congrArg Common.consumedDebitRefs hw.common
  have hheap : (L.view s).heap rid = r := congrArg Account.record h
  have hdeeds : (L.view s).deeds rid = e := congrArg Account.deeds h
  refine ⟨u', rfl, hheap.symm ▸ halive, fun i hi => hw.account_of_ne hi, ?_, ?_,
    .still (by rw [hw.own, hheap, hledger]) hw.common, ?_, fun hst => ?_, fun hch => ?_⟩
  · rw [hw.own, hrequest, hheap]
  · rw [hw.own, Store.deeds_of_common hw.common, hdeeds]
    exact hphase
  · rw [hw.own, hheap]
    exact hpaid
  · rw [hw.own] at hst
    rw [hheap, h]
    exact hrefused hst
  · rw [hw.account_self, hdeeds] at hch
    rw [h, hw.own, Claimed, hclaims]
    exact hclaimed hch

/-- A confirmed debit is charged. -/
theorem At.charged {k : ℕ} (h : At P env O rid k t r) (hk : 1 ≤ k) :
    (⟨r, e⟩ : Account cfg).Charged := by
  have hstatus := h.status
  obtain ⟨hlt, -⟩ := List.getElem?_eq_some_iff.mp hstatus
  change k < 7 at hlt
  refine .inl ⟨fun heq => ?_, fun heq => ?_⟩ <;> rw [heq] at hstatus <;> interval_cases k <;>
    cases hstatus

/-- The next place of the chain, with the evidence for the step to it. -/
theorem At.advance {k : ℕ} {status : RequestStatus} {now note : String}
    (h : At P env O rid k t r) (hnext : CHAIN[k + 1]? = some status)
    (hsame : r'.statuses = r.statuses)
    (hbacked : Backed P env O rid (k + 1) t (Store.moved status now note r')) :
    At P env O rid (k + 1) t (Store.moved status now note r') := by
  refine ⟨hbacked, hnext, ?_⟩
  rw [statuses_moved, hsame, h.statuses, List.take_add_one (i := k + 1), hnext]
  rfl

/-- What the histories may hold up to the signature: no redemption and no dispense, and a receipt
only at the last of these places. -/
theorem fits_early {k : ℕ} {receipt : Option String} (hk : k ≤ 4)
    (hreceipt : k < 4 → receipt = none) : Fits P k r none receipt none none where
  of_reversal _ heq := nomatch heq
  receipt_eq hk' := by omega
  receipt_none := hreceipt
  redeemed_eq := .inl rfl
  dispensed_eq := .inl rfl
  delivered_eq hk' := by omega

end On

/-! ### How a run ends -/

section Ends

variable (L P env O rid)

/-- The run holds a debit, and may be abandoned: it is at some place of the chain, with what it has
done so far. -/
structure Holding (k : ℕ) (r : PipelineRecord cfg) (receipt : Option String)
    (redeemed : Option Token) (t : CoordinatorTrace σ cfg) (s : σ) : Prop where
  on : On L rid r (.of r.request none receipt redeemed none) t s
  place : At P env O rid k t r
  fits : Fits P k r none receipt redeemed none
  le : k ≤ 5
  cause : 4 ≤ k → Cause P env O rid t
  late : receipt = none ∨ Late P env O rid t
  odd : k = 0 → (∃ e, toStr P.numeral (prop? r.debit "debitRef") = .error e) ∨
    Claimed (L.view s) r ∧ ∃ e, toStr P.numeral (prop? r.debit "amount") = .error e

/-- The run holds a debit whose reference has no text, so that even its abandonment raises. -/
def Stuck (t : CoordinatorTrace σ cfg) (s : σ) : Prop :=
  ∃ k r receipt redeemed, Holding L P env O rid k r receipt redeemed t s ∧
    ∃ e, toStr P.numeral (prop? r.debit "debitRef") = .error e

/-- The ends of a run: its record is rejected, abandoned or delivered, and its histories fit that
end. -/
inductive Ending (t : CoordinatorTrace σ cfg) (s : σ) : Prop
  | rejected {r : PipelineRecord cfg} {e : Deeds} (hon : On L rid r e t s)
      (hstatus : r.status = .REJECTED) (hstatuses : r.statuses = [.PENDING, .REJECTED])
      (htoken : r.token = none) (hledger : r.ledger = none)
      (he : e = .none ∨ e = .of r.request none none none none)
  | delivered {r : PipelineRecord cfg} {receipt : Option String} {token : Token}
      (hon : On L rid r (.of r.request none receipt (some token) (some token)) t s)
      (hplace : At P env O rid 6 t r) (htoken : r.token = some token)
      (hreceipt : receipt = r.ledger.map (·.txHash))
  | abandoned {k : ℕ} {r : PipelineRecord cfg} {reversal receipt : Option String}
      {redeemed : Option Token}
      (haccount : (L.view s).account rid = ⟨r, .of r.request reversal receipt redeemed none⟩)
      (hcalls : reverseCalls t = reversal.toList.length) (hbacked : Backed P env O rid k t r)
      (hk : k ≤ 5) (hstatus : r.status = .REJECTED_ABANDONED)
      (hstatuses : r.statuses = CHAIN.take (k + 1) ++ [.REJECTED_ABANDONED])
      (hfits : Fits P k r reversal receipt redeemed none)
      (hreversal : Reversal P O rid t r reversal)
      (hcause : 4 ≤ k → Cause P env O rid t) (hlate : receipt = none ∨ Late P env O rid t)
      (hodd : k = 0 → ∃ e, toStr P.numeral (prop? r.debit "amount") = .error e)

end Ends

/-! ### Abandonment -/

/-- A reference that has a text gives one, where it is there. -/
theorem textOr_ok {v : Option Json} {ref : String} (h : toStr P.numeral v = .ok ref)
    (default : String) : ∃ text, textOr P v default = .ok text := by
  unfold textOr
  split
  · exact ⟨_, rfl⟩
  · exact ⟨_, rfl⟩
  · exact ⟨ref, h⟩

/-- A reference that has no text raises. -/
theorem textOr_error {v : Option Json} {e : String} (h : toStr P.numeral v = .error e)
    (default : String) : textOr P v default = .error e := by
  unfold textOr
  split
  · cases h
  · cases h
  · exact h

/-- The alert for an abandoned run raises where its reference has no text. -/
theorem abandonAlert_error {v : Option Json} {e : String} (h : toStr P.numeral v = .error e)
    (wall : Wall) (requestId reason attribution : String) :
    abandonAlert P wall requestId reason attribution v false = .error e := by
  simp only [abandonAlert, textOr_error h]
  rfl

/-- The alert for an abandoned run is written where its reference has a text. -/
theorem abandonAlert_ok {v : Option Json} {ref : String} (h : toStr P.numeral v = .ok ref)
    (wall : Wall) (requestId reason attribution : String) (reversed : Bool) :
    ∃ alert, abandonAlert P wall requestId reason attribution v reversed = .ok alert := by
  obtain ⟨a, ha⟩ := textOr_ok h ""
  obtain ⟨b, hb⟩ := textOr_ok h "the debit"
  cases reversed
  · exact ⟨_, by simp only [abandonAlert, hb]; rfl⟩
  · exact ⟨_, by simp only [abandonAlert, ha]; rfl⟩

/-- What is falsy has a text, so only truthy references may be without one. -/
theorem toStr_of_falsy {N : Numeral} {v : Option Json} (h : truthy v = false) :
    ∃ text, toStr N v = .ok text := by
  rcases v with - | v
  · exact ⟨_, rfl⟩
  · cases v with
    | arr _ => cases h
    | obj _ => cases h
    | _ => exact ⟨_, by rw [toStr, Json.toStr]⟩

section Abandon

variable {k : ℕ} {r : PipelineRecord cfg} {reversal receipt : Option String}
  {redeemed : Option Token} {t : CoordinatorTrace σ cfg} {s : σ} {wall : Wall}
  {reason attribution : String}

/-- The end of an abandonment whose alert can be written. -/
theorem wp_closeAbandoned {requestId text : String} {reversed : Bool}
    {exn : String → CoordinatorTrace σ cfg → σ → Prop}
    (haccount : (L.view s).account rid = ⟨r, .of r.request reversal receipt redeemed none⟩)
    (hcalls : reverseCalls t = reversal.toList.length) (hplace : At P env O rid k t r) (hk : k ≤ 5)
    (hfits : Fits P k r reversal receipt redeemed none) (hcause : 4 ≤ k → Cause P env O rid t)
    (hlate : receipt = none ∨ Late P env O rid t)
    (hodd : k = 0 → ∃ e, toStr P.numeral (prop? r.debit "amount") = .error e)
    (hclaimed : (⟨r, .of r.request reversal receipt redeemed none⟩ : Account cfg).Charged ∨
      Claimed (L.view s) r)
    (htext : toStr P.numeral (prop? r.debit "debitRef") = .ok text)
    (hreversal : ∀ r' : PipelineRecord cfg, r'.debit = r.debit → r'.debitReversed = some reversed →
      Reversal P O rid t r' reversal) :
    wp (walkRules P env O rid) L (closeAbandoned P rid wall reason attribution requestId
      (prop? r.debit "debitRef") reversed) (fun _ => Ending L P env O rid) exn t s := by
  obtain ⟨alert, halert⟩ := abandonAlert_ok htext wall requestId reason attribution reversed
  have hheap : (L.view s).heap rid = r := congrArg Account.record haccount
  have hdeeds : (L.view s).deeds rid = .of r.request reversal receipt redeemed none :=
    congrArg Account.deeds haccount
  simp only [closeAbandoned, halert, Prog.ofExcept, wp_bind, wp_modify, wp_ret]
  set r₁ : PipelineRecord cfg := { r with
    debitReversed := some reversed
    rejection := some ⟨wall, reason, (L.view s).now, attribution⟩ } with hr₁
  have hw₁ : Rewrites rid r₁ (L.view s) ((L.view s).update rid fun r => { r with
      debitReversed := some reversed
      rejection := some ⟨wall, reason, (L.view s).now, attribution⟩ }) := by
    have := rewrites_update rid (fun r => { r with
      debitReversed := some reversed
      rejection := some ⟨wall, reason, (L.view s).now, attribution⟩ }) (L.view s)
    rwa [hheap] at this
  have hbacked₁ : Backed P env O rid k t r₁ := hplace.backed.congr rfl rfl rfl rfl rfl rfl rfl
  have hplace₁ : At P env O rid k t r₁ := ⟨hbacked₁, hplace.status, hplace.statuses⟩
  have hfits₁ : Fits P k r₁ reversal receipt redeemed none :=
    ⟨hfits.of_reversal, hfits.receipt_eq, hfits.receipt_none, hfits.redeemed_eq,
      hfits.dispensed_eq, hfits.delivered_eq⟩
  refine ⟨gua_rewrites haccount hw₁ (hplace.alive hk) rfl rfl (.running hplace₁ hfits₁) (.inl rfl)
    .inl .inl, ?_⟩
  set u₁ := (L.view s).update rid fun r => { r with
      debitReversed := some reversed
      rejection := some ⟨wall, reason, (L.view s).now, attribution⟩ } with hu₁
  set t₁ := t ++ [.wrote s (L.put s u₁)]
  have ht₁ : t <+: t₁ := List.prefix_append _ _
  have haccount₁ : (L.view (L.put s u₁)).account rid =
      ⟨r₁, .of r.request reversal receipt redeemed none⟩ := by
    rw [L.view_put, hw₁.account_self, hdeeds]
  simp only [L.view_put]
  set note := reason ++ (if reversed = true then " · debit reversed"
    else " · debit reversal FAILED")
  set r₂ : PipelineRecord cfg := Store.moved .REJECTED_ABANDONED u₁.now note r₁ with hr₂
  have hw₂ : Rewrites rid r₂ u₁ (Store.transition rid .REJECTED_ABANDONED note
      (u₁.addAlert alert)) := by
    have hq : Quiet u₁ (u₁.addAlert alert) := ⟨rfl, rfl⟩
    have := hq.rewrites (@rewrites_transition _ .REJECTED_ABANDONED (by decide) rid note _)
    rw [show (u₁.addAlert alert).heap rid = r₁ from hw₁.own] at this
    exact this
  have hstatuses₂ : r₂.statuses = CHAIN.take (k + 1) ++ [.REJECTED_ABANDONED] := by
    rw [hr₂, statuses_moved]
    exact congrArg (· ++ [RequestStatus.REJECTED_ABANDONED]) hplace.statuses
  have hbacked₂ : Backed P env O rid k t₁ r₂ :=
    (hplace.backed.mono ht₁).congr rfl rfl rfl rfl rfl rfl rfl
  have hfits₂ : Fits P k r₂ reversal receipt redeemed none :=
    ⟨hfits.of_reversal, hfits.receipt_eq, hfits.receipt_none, hfits.redeemed_eq,
      hfits.dispensed_eq, hfits.delivered_eq⟩
  have hreversal₂ : Reversal P O rid t₁ r₂ reversal := by
    cases hreversal r₂ rfl rfl with
    | unasked h hreversed => exact .unasked h hreversed
    | asked h heard hreversed => exact .asked h (heard.mono ht₁) hreversed
  refine ⟨gua_rewrites haccount₁ (by rwa [L.view_put]) (hplace₁.alive hk)
    (show r₂.request = r₁.request from rfl) (show r₂.ledger = r₁.ledger from rfl)
    (.abandoned hbacked₂ hk rfl hstatuses₂ hfits₂ hreversal₂ fun h => (hcause h).mono ht₁)
    (.inl rfl) (fun h => by cases h) fun _ => ?_, ?_⟩
  · rw [L.view_put]
    exact hclaimed
  · have ht₂ := List.prefix_append t₁ [.wrote (L.put s u₁) (L.put (L.put s u₁)
      (Store.transition rid .REJECTED_ABANDONED note (u₁.addAlert alert)))]
    refine .abandoned ?_ ?_ (hbacked₂.mono ht₂) hk rfl hstatuses₂ hfits₂ ?_
      (fun h => (hcause h).mono (ht₁.trans ht₂)) (hlate.imp_right fun h =>
        h.mono (ht₁.trans ht₂)) hodd
    · rw [L.view_put, hw₂.account_self, Store.deeds_of_common hw₁.common, hdeeds]
      rfl
    · rw [reverseCalls_wrote, reverseCalls_wrote, hcalls]
    · cases hreversal₂ with
      | unasked h hreversed => exact .unasked h hreversed
      | asked h heard hreversed => exact .asked h (heard.mono ht₂) hreversed

/-- A printable reference leaves one oddity before the confirmation: the amount. -/
theorem Holding.odd_ok (h : Holding L P env O rid k r receipt redeemed t s) {text : String}
    (htext : toStr P.numeral (prop? r.debit "debitRef") = .ok text) (hk : k = 0) :
    ∃ e, toStr P.numeral (prop? r.debit "amount") = .error e := by
  rcases h.odd hk with ⟨e, he⟩ | ⟨-, hamount⟩
  · rw [htext] at he
    cases he
  · exact hamount

/-- What is abandoned has been charged, or is registered as consumed. -/
theorem Holding.charged (h : Holding L P env O rid k r receipt redeemed t s) {text : String}
    (htext : toStr P.numeral (prop? r.debit "debitRef") = .ok text) {e : Deeds} :
    (⟨r, e⟩ : Account cfg).Charged ∨ Claimed (L.view s) r := by
  rcases Nat.eq_zero_or_pos k with rfl | hpos
  · rcases h.odd rfl with ⟨e, he⟩ | ⟨hclaimed, -⟩
    · rw [htext] at he
      cases he
    · exact .inr hclaimed
  · exact .inl (h.place.charged hpos)

/-- An alert that cannot be written leaves the run with its debit. -/
theorem Holding.refuse_alert (h : Holding L P env O rid k r receipt redeemed t s) {e : String}
    (htext : toStr P.numeral (prop? r.debit "debitRef") = .error e) {rejection : Rejection} :
    let u' := (L.view s).update rid fun r =>
      { r with debitReversed := some false, rejection := some rejection }
    (walkRules P env O rid).gua t s (L.put s u') ∧
      Stuck L P env O rid (t ++ [.wrote s (L.put s u')]) (L.put s u') := by
  intro u'
  set r₁ : PipelineRecord cfg :=
    { r with debitReversed := some false, rejection := some rejection } with hr₁
  have hw : Rewrites rid r₁ (L.view s) u' := by
    have := rewrites_update rid (fun r : PipelineRecord cfg =>
      { r with debitReversed := some false, rejection := some rejection }) (L.view s)
    rwa [h.on.heap] at this
  have hbacked : Backed P env O rid k t r₁ := h.place.backed.congr rfl rfl rfl rfl rfl rfl rfl
  have hplace : At P env O rid k t r₁ := ⟨hbacked, h.place.status, h.place.statuses⟩
  have hfits : Fits P k r₁ none receipt redeemed none :=
    ⟨h.fits.of_reversal, h.fits.receipt_eq, h.fits.receipt_none, h.fits.redeemed_eq,
      h.fits.dispensed_eq, h.fits.delivered_eq⟩
  have ht : t <+: t ++ [.wrote s (L.put s u')] := List.prefix_append _ _
  refine ⟨gua_rewrites h.on.account hw (h.place.alive h.le) rfl rfl (.running hplace hfits)
    (.inl rfl) .inl .inl, k, r₁, receipt,
    redeemed, ⟨h.on.rewrites hw, hplace.mono ht, hfits, h.le, fun hk => (h.cause hk).mono ht,
    h.late.imp_right fun hl => hl.mono ht, fun _ => .inl ⟨e, htext⟩⟩, e, htext⟩

/-- A reversal that is asked for fits every place at which a run is abandoned. -/
theorem Fits.reversing (h : Fits P k r none receipt redeemed none) (hk : k ≤ 5) {ref : String}
    (href : ReverseRef P r ref) : Fits P k r (some ref) receipt redeemed none where
  of_reversal ref' heq := by
    cases heq
    exact ⟨hk, href⟩
  receipt_eq := h.receipt_eq
  receipt_none := h.receipt_none
  redeemed_eq := h.redeemed_eq
  dispensed_eq := .inl rfl
  delivered_eq := h.delivered_eq

/-- The run asks for the reversal of its debit, which it does once. -/
theorem Holding.ask_reversal (h : Holding L P env O rid k r receipt redeemed t s) {ref : String}
    (href : ReverseRef P r ref) :
    let s' := L.put s ((L.view s).requestReversal rid ref)
    (walkRules P env O rid).gua t s s' ∧
      (L.view s').account rid = ⟨r, .of r.request (some ref) receipt redeemed none⟩ ∧
      (walkRules P env O rid).rest (t ++ [.wrote s s']) s' := by
  intro s'
  have haccount : ((L.view s).requestReversal rid ref).account rid =
      ⟨r, .of r.request (some ref) receipt redeemed none⟩ := by
    rw [account_requestReversal, h.on.heap, h.on.deeds]
    rfl
  have hdeeds := congrArg Account.deeds haccount
  refine ⟨⟨_, rfl, h.on.heap.symm ▸ h.place.alive h.le,
    fun i hi => (account_entries_of_ne _ hi).2.1 ref, rfl, ?_,
    .reverse (h.on.heap ▸ href) rfl, .inl rfl, fun hst => .inl hst, fun _ => ?_⟩,
    by rw [L.view_put, haccount], ?_, ?_⟩
  · have hphase : Phase P env O rid t r (.of r.request (some ref) receipt redeemed none) :=
      .running h.place (h.fits.reversing h.le href)
    rw [show ((L.view s).requestReversal rid ref).deeds rid = _ from hdeeds]
    exact h.on.heap.symm ▸ hphase
  · rw [h.on.account]
    exact (h.charged href.2).imp_right fun hclaimed => h.on.heap.symm ▸ hclaimed
  · rw [L.view_put]
    exact congrArg Deeds.dispensed hdeeds
  · rw [L.view_put, show ((L.view s).requestReversal rid ref).deeds rid = _ from hdeeds]
    exact h.late.imp (fun hr => by rw [hr]; rfl) fun hl => hl.mono (List.prefix_append _ _)

/-- **Abandonment.** A run that holds a debit is abandoned, with one reverse call if the
reference has a text; if printing it fails, the run keeps what it holds. -/
theorem wp_abandon (h : Holding L P env O rid k r receipt redeemed t s) :
    wp (walkRules P env O rid) L (abandon P rid wall reason attribution)
      (fun _ => Ending L P env O rid) (fun _ => Stuck L P env O rid) t s := by
  rw [abandon]
  simp only [theRecord, wp_bind, wp_gets, h.on.heap]
  set debitRef := prop? r.debit "debitRef" with href
  cases htext : toStr P.numeral debitRef with
  | error e =>
      have htruthy : truthy debitRef = true := by
        by_contra hfalsy
        obtain ⟨text, htext'⟩ := toStr_of_falsy (N := P.numeral) (by simpa using hfalsy)
        rw [htext] at htext'
        cases htext'
      simp only [htruthy, if_true, reverseDebit, htext, wp_pure, closeAbandoned,
        abandonAlert_error htext, Prog.ofExcept, wp_bind, wp_modify]
      exact h.refuse_alert htext
  | ok text =>
      by_cases htruthy : truthy debitRef = true
      · have hreverse : ReverseRef P r text := ⟨htruthy, htext⟩
        simp only [htruthy, if_true, reverseDebit, htext, wp_bind, wp_modify, wp_call, wp_pure]
        obtain ⟨hgua, haccount, hrest⟩ := h.ask_reversal hreverse
        refine ⟨hgua, hrest, fun answer s' hresume => ?_⟩
        have ht :=
          (List.prefix_append t [.wrote s (L.put s ((L.view s).requestReversal rid text))]).trans
          (List.prefix_append _ [.answered (CoordinatorCall.reverse rid text) answer])
        refine wp_closeAbandoned (hresume.2.2.trans haccount) ?_ (h.place.mono ht) h.le
          (h.fits.reversing h.le hreverse) (fun hk => (h.cause hk).mono ht)
          (h.late.imp_right fun hl => hl.mono ht) (h.odd_ok htext)
          (.inl (.inr (List.cons_ne_nil _ _)))
          htext fun r' hdebit hreversed => ?_
        · rw [reverseCalls_answered, reverseCalls_wrote, h.on.calls]
          rfl
        · refine .asked ?_ ⟨List.mem_append_right _ (List.mem_singleton_self _), s',
            hresume.1⟩ hreversed
          rw [ReverseRef, hdebit]
          exact hreverse
      · simp only [htruthy]
        refine wp_closeAbandoned h.on.account h.on.calls h.place h.le h.fits h.cause h.late
          (h.odd_ok htext) (h.charged htext) htext fun r' hdebit hreversed => ?_
        refine .unasked (fun ref href => htruthy ?_) hreversed
        have := href.1
        rwa [hdebit] at this

end Abandon

variable (L P env O rid) in
/-- Where an exception leaves a run: holding a debit, so that the backstop has to abandon it, or
without one, so that it rejects the request. -/
inductive Raised (t : CoordinatorTrace σ cfg) (s : σ) : Prop
  | holding {k : ℕ} {r : PipelineRecord cfg} {receipt : Option String} {redeemed : Option Token}
      (h : Holding L P env O rid k r receipt redeemed t s)
  | unpaid {r : PipelineRecord cfg} {e : Deeds} (hon : On L rid r e t s) (h : Unpaid r)
      (he : e = .none ∨ e = .of r.request none none none none)
      (hrefused : Refused P env O rid s ⟨r, e⟩)

/-- A run that is abandoned within `runPipeline` ends, or raises for want of a text and is then
stuck. -/
theorem wp_abandon_raised {k : ℕ} {r : PipelineRecord cfg} {receipt : Option String}
    {redeemed : Option Token} {t : CoordinatorTrace σ cfg} {s : σ}
    (h : Holding L P env O rid k r receipt redeemed t s) (wall : Wall)
    (reason attribution : String) :
    wp (walkRules P env O rid) L (abandon P rid wall reason attribution)
      (fun _ => Ending L P env O rid) (fun _ => Raised L P env O rid) t s :=
  wp_mono (wp_abandon h) (fun _ _ _ h => h) fun _ _ _ ⟨_, _, _, _, h, _⟩ => .holding h

/-! ### Delivery -/

section Deliver

variable {r : PipelineRecord cfg} {txHash : String} {token : Token}
  {t : CoordinatorTrace σ cfg} {s : σ}

variable (L P env O rid) in
/-- The run has its receipt, which is recorded, and has redeemed and dispensed so much of its token.
-/
structure Receipted (r : PipelineRecord cfg) (txHash : String) (token : Token)
    (redeemed dispensed : Option Token) (t : CoordinatorTrace σ cfg) (s : σ) : Prop where
  on : On L rid r (.of r.request none (some txHash) redeemed dispensed) t s
  place : At P env O rid 5 t r
  token_eq : r.token = some token
  receipt_eq : r.ledger.map (·.txHash) = some txHash
  redeemed_eq : redeemed = none ∨ redeemed = some token
  dispensed_eq : dispensed = none ∨ dispensed = some token ∧ redeemed = some token

/-- What the run has done fits the place of the receipt. -/
theorem Receipted.fits {redeemed dispensed : Option Token}
    (h : Receipted L P env O rid r txHash token redeemed dispensed t s) :
    Fits P 5 r none (some txHash) redeemed dispensed where
  of_reversal ref heq := nomatch heq
  receipt_eq _ := h.receipt_eq.symm
  receipt_none hk := by omega
  redeemed_eq := h.redeemed_eq.imp_right fun hr => ⟨hr.trans h.token_eq.symm, le_rfl⟩
  dispensed_eq := h.dispensed_eq.imp_right fun ⟨hd, hr⟩ =>
    ⟨hd.trans h.token_eq.symm, hr.trans h.token_eq.symm, le_rfl, rfl⟩
  delivered_eq hk := by omega

/-- A run with its receipt is at that place of the chain. -/
theorem Receipted.phase {redeemed dispensed : Option Token}
    (h : Receipted L P env O rid r txHash token redeemed dispensed t s) :
    Phase P env O rid t r (.of r.request none (some txHash) redeemed dispensed) :=
  .running h.place h.fits

/-- A run that cannot deliver may be abandoned. -/
theorem Receipted.holding {redeemed : Option Token}
    (h : Receipted L P env O rid r txHash token redeemed none t s) (hlate : Late P env O rid t) :
    Holding L P env O rid 5 r (some txHash) redeemed t s :=
  ⟨h.on, h.place, h.fits, le_rfl, fun _ => .late hlate, .inr hlate, fun h => nomatch h⟩

/-- The token of a record verifies, so the meter refuses it only if it was redeemed. -/
theorem verifyTokenForMeter_eq_none_iff {signerSet : List cfg.SignerId} {u : Store cfg}
    (h : Signed P env t r token signerSet) :
    verifyTokenForMeter P env token u = none ↔ u.redeemed token.toTokenPayload = false := by
  have hverified : Frost.verifySignature P.toCurve token.signature
      (canonicalBytes P (some token.toTokenPayload.toJson)) env.GROUP.groupPublicKey = true :=
    h.verified
  rw [verifyTokenForMeter]
  cases u.redeemed token.toTokenPayload <;> simp [hverified]

/-- The meter marks the token as redeemed, which was not known before. -/
theorem Receipted.redeem (h : Receipted L P env O rid r txHash token none none t s)
    (hfresh : (L.view s).redeemed token.toTokenPayload = false) :
    let s' := L.put s ((L.view s).redeem rid token)
    (walkRules P env O rid).gua t s s' ∧
      Receipted L P env O rid r txHash token (some token) none (t ++ [.wrote s s']) s' := by
  intro s'
  have haccount : ((L.view s).redeem rid token).account rid =
      ⟨r, .of r.request none (some txHash) (some token) none⟩ := by
    rw [account_redeem, h.on.heap, h.on.deeds]
    rfl
  have hnext : Receipted L P env O rid r txHash token (some token) none (t ++ [.wrote s s']) s' :=
    ⟨h.on.wrote haccount, h.place.mono (List.prefix_append _ _), h.token_eq, h.receipt_eq, .inr rfl,
      .inl rfl⟩
  refine ⟨⟨_, rfl, h.on.heap.symm ▸ h.place.alive le_rfl,
    fun i hi => (account_entries_of_ne _ hi).2.2.2.1 token, rfl, ?_,
    .redeem (by rw [h.on.heap, h.token_eq]) hfresh rfl, .inl rfl, .inl, fun hch => .inl ?_⟩, hnext⟩
  · rw [show ((L.view s).redeem rid token).deeds rid = _ from congrArg Account.deeds haccount]
    exact h.on.heap.symm ▸ Phase.running h.place hnext.fits
  · rw [haccount] at hch
    rw [h.on.account]
    exact hch

/-- The meter is put into service, which is in no account. -/
theorem Receipted.meter {redeemed : Option Token}
    (h : Receipted L P env O rid r txHash token redeemed none t s) (meterId : Option Json) :
    let s' := L.put s ((L.view s).ensureMeter meterId)
    (walkRules P env O rid).gua t s s' ∧
      Receipted L P env O rid r txHash token redeemed none (t ++ [.wrote s s']) s' := by
  intro s'
  have hall : ∀ i, ((L.view s).ensureMeter meterId).account i = (L.view s).account i := fun i =>
    account_ensureMeter _ meterId
  have haccount := (hall rid).trans h.on.account
  have hheap : ((L.view s).ensureMeter meterId).heap rid = (L.view s).heap rid :=
    congrArg Account.record (hall rid)
  refine ⟨⟨_, rfl, h.on.heap.symm ▸ h.place.alive le_rfl, fun i _ => hall i, by rw [hheap], ?_,
    .meter meterId rfl, .inl (by rw [hheap]), ?_, fun hch => .inl ?_⟩,
    h.on.wrote haccount, h.place.mono (List.prefix_append _ _), h.token_eq, h.receipt_eq,
    h.redeemed_eq, .inl rfl⟩
  · rw [hheap, h.on.heap, show ((L.view s).ensureMeter meterId).deeds rid = _ from
      congrArg Account.deeds haccount]
    exact h.phase
  · rw [hheap]
    exact .inl
  · rwa [hall] at hch

/-- The token is dispensed, once it is redeemed. -/
theorem Receipted.credit (h : Receipted L P env O rid r txHash token (some token) none t s)
    (balance : Number) :
    let s' := L.put s ((L.view s).credit rid token balance)
    (walkRules P env O rid).gua t s s' ∧
      Receipted L P env O rid r txHash token (some token) (some token) (t ++ [.wrote s s']) s' := by
  intro s'
  have haccount : ((L.view s).credit rid token balance).account rid =
      ⟨r, .of r.request none (some txHash) (some token) (some token)⟩ := by
    rw [account_credit, h.on.heap, h.on.deeds]
    rfl
  have hnext : Receipted L P env O rid r txHash token (some token) (some token)
      (t ++ [.wrote s s']) s' :=
    ⟨h.on.wrote haccount, h.place.mono (List.prefix_append _ _), h.token_eq, h.receipt_eq, .inr rfl,
      .inr ⟨rfl, rfl⟩⟩
  have hredeemed : (rid, token) ∈ (L.view s).redemptions := by
    rw [← mem_ofRun]
    have := congrArg Deeds.redemptions h.on.deeds
    rw [show ofRun rid (L.view s).redemptions = _ from this]
    exact List.mem_singleton_self _
  refine ⟨⟨_, rfl, h.on.heap.symm ▸ h.place.alive le_rfl,
    fun i hi => (account_entries_of_ne _ hi).2.2.2.2 token balance, rfl, ?_,
    .credit (by rw [h.on.heap, h.token_eq]) hredeemed rfl, .inl rfl, .inl, fun hch => .inl ?_⟩,
    hnext⟩
  · rw [show ((L.view s).credit rid token balance).deeds rid = _ from
      congrArg Account.deeds haccount]
    exact h.on.heap.symm ▸ Phase.running h.place hnext.fits
  · rw [haccount] at hch
    rw [h.on.account]
    exact hch

/-- The run is delivered, once its token is redeemed and dispensed. -/
theorem Receipted.delivered
    (h : Receipted L P env O rid r txHash token (some token) (some token) t s) (note : String)
    {delivery : MeterDelivery} :
    let s' := L.put s (Store.transition rid .DELIVERED note
      ((L.view s).update rid fun r => { r with meterDelivery := some delivery }))
    (walkRules P env O rid).gua t s s' ∧ Ending L P env O rid (t ++ [.wrote s s']) s' := by
  intro s'
  set u₁ := (L.view s).update rid fun r => { r with meterDelivery := some delivery } with hu₁
  set r₁ : PipelineRecord cfg := { r with meterDelivery := some delivery } with hr₁
  have hw : Rewrites rid r₁ (L.view s) u₁ := by
    have := rewrites_update rid (fun r : PipelineRecord cfg =>
      { r with meterDelivery := some delivery }) (L.view s)
    rwa [h.on.heap] at this
  obtain ⟨hown, hothers, hcommon⟩ := transition_delivered rid note u₁
  rw [hw.own] at hown
  set u₂ := u₁.transition rid .DELIVERED note with hu₂
  set r₂ : PipelineRecord cfg := Store.moved .DELIVERED u₁.now note r₁ with hr₂
  have hdeeds : ∀ i, u₂.deeds i = (L.view s).deeds i := fun i => by
    have : u₂.deeds i = u₁.deeds i := by
      simp only [Store.common, Common.mk.injEq] at hcommon
      obtain ⟨-, -, -, -, -, -, -, -, -, -, hd, hr, hc, hm, hp⟩ := hcommon
      simp only [Store.deeds, hd, hr, hc, hm, hp]
    rw [this, Store.deeds_of_common hw.common]
  have ht : t <+: t ++ [.wrote s s'] := List.prefix_append _ _
  have hbacked : Backed P env O rid 6 t r₂ := by
    have hb : Backed P env O rid 5 t r₂ := h.place.backed.congr rfl rfl rfl rfl rfl rfl rfl
    exact ⟨hb.debited, fun _ => hb.published (by omega), fun _ => hb.approved (by omega),
      fun _ => hb.signed (by omega), fun hk => absurd hk (by omega),
      fun _ => hb.recorded (by omega), fun hk => absurd hk (by omega)⟩
  have hstatuses : r₂.statuses = CHAIN.take 7 := by
    rw [hr₂, statuses_moved, show r₁.statuses = CHAIN.take 6 from h.place.statuses]
    rfl
  have hplace : At P env O rid 6 t r₂ := ⟨hbacked, rfl, hstatuses⟩
  have hfits : Fits P 6 r₂ none (some txHash) (some token) (some token) :=
    ⟨fun _ heq => (by cases heq), fun _ => h.receipt_eq.symm, fun hk => absurd hk (by omega),
      .inr ⟨h.token_eq.symm, by omega⟩, .inr ⟨h.token_eq.symm, h.token_eq.symm, by omega, rfl⟩,
      fun _ => h.token_eq.symm⟩
  have haccount : u₂.account rid =
      ⟨r₂, .of r₂.request none (some txHash) (some token) (some token)⟩ := by
    rw [Store.account, hown, hdeeds, h.on.deeds]
    rfl
  refine ⟨⟨u₂, rfl, h.on.heap.symm ▸ h.place.alive le_rfl, fun i hi => ?_, ?_, ?_,
    @Effect.deliver cfg P rid _ _ u₁.now ?_ ?_ ?_, .inl ?_, ?_, ?_⟩,
    .delivered (h.on.wrote haccount) (hplace.mono ht) h.token_eq h.receipt_eq.symm⟩
  · rw [Store.account, Store.account, hothers i hi, hw.others i hi, hdeeds]
  · rw [hown, h.on.heap]
    rfl
  · rw [hown, show u₂.deeds rid = _ from congrArg Account.deeds haccount]
    exact .running hplace hfits
  · rw [hown]
    rfl
  · rw [hown, h.on.heap]
    rfl
  · rw [hcommon, hw.common, show u₁.series = (L.view s).series from rfl]
  · rw [hown, h.on.heap]
    rfl
  · intro hst
    rw [hown] at hst
    cases hst
  · intro _
    rw [h.on.account]
    exact .inl (h.place.charged (by omega))

/-- **Delivery.** The token is dispensed once it is marked, unless it was redeemed in the
meantime or its amount cannot be added. -/
theorem wp_deliver (h : Receipted L P env O rid r txHash token none none t s)
    (hlate : (L.view s).redeemed token.toTokenPayload = true → Late P env O rid t) :
    wp (walkRules P env O rid) L (deliver P env rid token) (fun _ => Ending L P env O rid)
      (fun _ => Raised L P env O rid) t s := by
  obtain ⟨token', signerSet, htoken, -, hsigned⟩ := h.place.backed.signed (by omega)
  obtain rfl : token = token' := Option.some.inj (h.token_eq.symm.trans htoken)
  have hverify := verifyTokenForMeter_eq_none_iff (u := L.view s) hsigned
  simp only [deliver, deliverToken, theRecord, wp_bind, wp_gets, h.on.heap]
  cases hv : verifyTokenForMeter P env token (L.view s) with
  | some reason =>
      have hspent : (L.view s).redeemed token.toTokenPayload = true := by
        by_contra hfresh
        rw [hverify.mpr (by simpa using hfresh)] at hv
        cases hv
      exact wp_abandon_raised (h.holding (hlate hspent)) _ _ _
  | none =>
      obtain ⟨hgua, h₁⟩ := h.redeem (hverify.mp hv)
      simp only [creditMeter, wp_bind, wp_modify, wp_gets]
      obtain ⟨hgua₁, h₂⟩ := h₁.meter token.meterId
      refine ⟨hgua, hgua₁, wp_ofExcept (fun balance _ => ?_) fun e hbalance => ?_⟩
      · obtain ⟨hgua₂, h₃⟩ := h₂.credit balance
        obtain ⟨hgua₃, hend⟩ := h₃.delivered
          ("meter " ++ r.request.meterId ++ " verified token & credited " ++
            P.numeral.print r.request.amountKwh ++ " kWh")
        exact ⟨hgua₂, hgua₃, hend⟩
      · obtain ⟨d, hd, hdebited⟩ := h₂.place.backed.debited
        exact .holding (h₂.holding (.unaddable hdebited (hd ▸ hsigned.payload) hbalance))

end Deliver

/-! ### The receipt -/

section Receipt

variable {r : PipelineRecord cfg} {token : Token} {publication : Publication}
  {signerSet : List cfg.SignerId} {t : CoordinatorTrace σ cfg} {s : σ}

variable (L P env O rid) in
/-- The run has its token, which nobody has redeemed since it was looked at, unless the run cannot
deliver any more. -/
structure Tokened (r : PipelineRecord cfg) (token : Token) (t : CoordinatorTrace σ cfg) (s : σ) :
    Prop where
  on : On L rid r (.of r.request none none none none) t s
  place : At P env O rid 4 t r
  token_eq : r.token = some token
  late : (L.view s).redeemed token.toTokenPayload = true → Late P env O rid t

/-- A run with its token may await an answer. -/
theorem Tokened.rest (h : Tokened L P env O rid r token t s) :
    (walkRules P env O rid).rest t s := h.on.rest rfl (.inl rfl)

/-- While the run is suspended, another run may redeem its debit. -/
theorem Tokened.answered (h : Tokened L P env O rid r token t s) {q : CoordinatorCall cfg}
    {a : q.Answer} {s' : σ} (hr : (walkRules P env O rid).resume q s a s')
    (hq : isReverse (.answered q a : Entry σ _ _) = false) :
    Tokened L P env O rid r token (t ++ [.answered q a]) s' := by
  have ht := List.prefix_append t [.answered q a]
  obtain ⟨token', signerSet, htoken, -, hsigned⟩ := h.place.backed.signed le_rfl
  obtain rfl : token = token' := Option.some.inj (h.token_eq.symm.trans htoken)
  refine ⟨h.on.answered hr hq, h.place.mono ht, h.token_eq, fun hspent =>
    .overtaken hr.2.1 hr.2.2 (.inr ?_) ?_ ?_ hspent⟩
  · rw [h.on.heap]
    exact (Option.some.inj h.place.status).symm
  · rw [h.on.deeds]
    rfl
  · rw [h.on.heap]
    exact hsigned.payload

/-- A run with its token may be abandoned where there is a cause. -/
theorem Tokened.holding (h : Tokened L P env O rid r token t s)
    (hcause : Cause P env O rid t) : Holding L P env O rid 4 r none none t s :=
  ⟨h.on, h.place, fits_early le_rfl fun _ => rfl,
    by omega, fun _ => hcause, .inl rfl, fun h => nomatch h⟩

/-- The fragments of the members are collected, or the run has a cause to be abandoned. Induction on
the signers that are left. -/
theorem wp_collectFragments {body : Json} {signers : List (SignerInfo cfg.SignerId)}
    {post : List String → CoordinatorTrace σ cfg → σ → Prop}
    {exn : String → CoordinatorTrace σ cfg → σ → Prop} (h : Tokened L P env O rid r token t s)
    (hpost : ∀ fragments t s, Tokened L P env O rid r token t s → post fragments t s)
    (hexn : ∀ e t s, Tokened L P env O rid r token t s → Cause P env O rid t → exn e t s) :
    wp (walkRules P env O rid) L (collectFragments P body signers) post exn t s := by
  induction signers generalizing post t s with
  | nil => exact hpost [] t s h
  | cons signer signers ih =>
      rw [collectFragments]
      simp only [wp_bind, wp_call]
      refine ⟨h.rest, fun answer s' hr => ?_⟩
      have h' := h.answered hr rfl
      refine wp_ofExcept (fun fragment _ => ?_) fun e he => ?_
      · rw [wp_bind]
        exact ih h' fun fragments t s => hpost (fragment :: fragments) t s
      · exact hexn e _ _ h' (.fragment (List.mem_append_right _ (List.mem_singleton_self _)) he)

variable (L P env O rid) in
/-- The run has just got its receipt, which is not recorded yet. -/
structure Submitted (r : PipelineRecord cfg) (token : Token) (ledger : LedgerRecord cfg)
    (t : CoordinatorTrace σ cfg) (s : σ) : Prop where
  on : On L rid r (.of r.request none (some ledger.txHash) none none) t s
  place : At P env O rid 4 t r
  token_eq : r.token = some token
  late : (L.view s).redeemed token.toTokenPayload = true → Late P env O rid t
  recorded : Recorded P O t r ledger

/-- The receipt is accepted: its hash is in the history of the run. -/
theorem Tokened.receive (h : Tokened L P env O rid r token t s) (txHash : String) :
    let s' := L.put s ((L.view s).receive rid txHash)
    (walkRules P env O rid).gua t s s' ∧
      On L rid r (.of r.request none (some txHash) none none) (t ++ [.wrote s s']) s' ∧
      ((L.view s').redeemed token.toTokenPayload = true →
        Late P env O rid (t ++ [.wrote s s'])) := by
  intro s'
  have haccount : ((L.view s).receive rid txHash).account rid =
      ⟨r, .of r.request none (some txHash) none none⟩ := by
    rw [account_receive, h.on.heap, h.on.deeds]
    rfl
  refine ⟨⟨_, rfl, h.on.heap.symm ▸ h.place.alive (by omega),
    fun i hi => (account_entries_of_ne _ hi).2.2.1 txHash, rfl, ?_, .receive txHash rfl, .inl rfl,
    .inl, fun hch => .inl ?_⟩, h.on.wrote haccount, fun hspent => ?_⟩
  · rw [show ((L.view s).receive rid txHash).deeds rid = _ from congrArg Account.deeds haccount]
    exact h.on.heap.symm ▸ Phase.running h.place ((fits_early le_rfl fun h => absurd h (by omega)))
  · rw [haccount] at hch
    rw [h.on.account]
    exact hch
  · rw [L.view_put] at hspent
    exact (h.late hspent).mono (List.prefix_append _ _)

/-- What has a hash is a string, and its hash is that of the string. -/
theorem sha256HexOf_ok {v : Option Json} {hash : String} (h : sha256HexOf P v = .ok hash) :
    ∃ ref, v = some (.str ref) ∧ hash = sha256HexStr P ref := by
  unfold sha256HexOf at h
  split at h
  next ref => exact ⟨ref, rfl, (Except.ok.inj h).symm⟩
  next => cases h

/-- **The receipt.** The ledger accepts a receipt of the request, the debit and the token of
the record, or there is a cause for the run to be abandoned. -/
theorem wp_multisignReceipt {post : LedgerRecord cfg → CoordinatorTrace σ cfg → σ → Prop}
    {exn : String → CoordinatorTrace σ cfg → σ → Prop} (h : Tokened L P env O rid r token t s)
    (hpublication : publication.requestHash = hashValue P (some r.request.toJson))
    (hpost : ∀ ledger t s, Submitted L P env O rid r token ledger t s → post ledger t s)
    (hexn : ∀ e t s, Tokened L P env O rid r token t s → Cause P env O rid t → exn e t s) :
    wp (walkRules P env O rid) L (multisignReceipt P env rid publication token signerSet)
      post exn t s := by
  obtain ⟨approvals, -, ⟨M, txs, hM, -, -⟩, -⟩ := h.place.backed.approved (by omega)
  obtain ⟨d, hd, hdebited⟩ := h.place.backed.debited
  have href : prop? r.debit "debitRef" = d.get? "debitRef" := by
    rw [hd]
    rfl
  simp only [multisignReceipt, theRecord, wp_bind, wp_gets, h.on.heap, hM]
  refine wp_ofExcept (fun debitRefHash hhash => ?_) fun e he =>
    hexn e t s h (.unhashable hdebited (href ▸ he))
  simp only [wp_gets, wp_ofExcept_ok, wp_bind, wp_call]
  refine ⟨h.rest, fun prepared s₁ hr => ?_⟩
  have h₁ := h.answered hr rfl
  cases prepared with
  | error e =>
      exact hexn e _ _ h₁ (.prepare (List.mem_append_right _ (List.mem_singleton_self _)))
  | ok prepared =>
      simp only [wp_ofExcept_ok, wp_bind]
      refine wp_collectFragments h₁ (fun fragments t₂ s₂ h₂ => ?_) hexn
      simp only [wp_bind, wp_call]
      refine ⟨h₂.rest, fun submitted s₃ hr₃ => ?_⟩
      have h₃ := h₂.answered hr₃ rfl
      cases submitted with
      | error e =>
          exact hexn e _ _ h₃ (.submit (List.mem_append_right _ (List.mem_singleton_self _)))
      | ok txHash =>
          obtain ⟨hgua, hon, hlate⟩ := h₃.receive txHash
          simp only [wp_ofExcept_ok, wp_bind, wp_modify, wp_pure]
          refine ⟨hgua, hpost _ _ _ ⟨hon, h₃.place.mono (List.prefix_append _ _),
            h₃.token_eq, hlate,
            ⟨fragments,
              List.mem_append_left _ (List.mem_append_right _ (List.mem_singleton_self _)),
              s₃, hr₃.1⟩, hpublication, ?_, token, h₃.token_eq, rfl⟩⟩
          exact sha256HexOf_ok hhash

/-- The receipt is recorded, and the record goes on to `RECORDED`. -/
theorem Submitted.record {ledger : LedgerRecord cfg}
    (h : Submitted L P env O rid r token ledger t s) (note : String) :
    let s' := L.put s (Store.transition rid .RECORDED note (Store.addAudit ledger
      ((L.view s).update rid fun r => { r with ledger := some ledger })))
    (walkRules P env O rid).gua t s s' ∧
      (∃ r', Receipted L P env O rid r' ledger.txHash token none none (t ++ [.wrote s s']) s') ∧
      ((L.view s').redeemed token.toTokenPayload = true →
        Late P env O rid (t ++ [.wrote s s'])) := by
  intro s'
  set u₁ := Store.addAudit ledger
    ((L.view s).update rid fun r => { r with ledger := some ledger }) with hu₁
  set r₁ : PipelineRecord cfg := { r with ledger := some ledger } with hr₁
  have hown₁ : u₁.heap rid = r₁ := by
    have := (rewrites_update rid (fun r : PipelineRecord cfg => { r with ledger := some ledger })
      (L.view s)).own
    rwa [h.on.heap] at this
  have hothers₁ : ∀ i ≠ rid, u₁.heap i = (L.view s).heap i :=
    (rewrites_update rid (fun r : PipelineRecord cfg => { r with ledger := some ledger })
      (L.view s)).others
  have hw := @rewrites_transition _ .RECORDED (by decide) rid note u₁
  rw [hown₁] at hw
  set u₂ := u₁.transition rid .RECORDED note with hu₂
  set r₂ : PipelineRecord cfg := Store.moved .RECORDED u₁.now note r₁ with hr₂
  have ht : t <+: t ++ [.wrote s s'] := List.prefix_append _ _
  have hdeeds : ∀ i, u₂.deeds i = (L.view s).deeds i := fun i =>
    (Store.deeds_of_common hw.common i).trans rfl
  have hbacked : Backed P env O rid 5 t r₂ := by
    have hb := h.place.backed
    refine ⟨hb.debited, fun _ => hb.published (by omega), fun _ => hb.approved (by omega),
      fun _ => ?_, fun hk => absurd hk (by omega), fun _ => ⟨ledger, rfl, ?_⟩,
      fun hk => absurd hk (by omega)⟩
    · obtain ⟨token, signerSet, htoken, hset, hpayload, hverified, hceremony⟩ := hb.signed le_rfl
      exact ⟨token, signerSet, htoken, hset, hpayload, hverified, hceremony⟩
    · exact ⟨h.recorded.accepted, h.recorded.requestHash, h.recorded.debitRefHash,
        h.recorded.tokenHash⟩
  have hstatuses : r₂.statuses = CHAIN.take 6 := by
    rw [hr₂, statuses_moved, show r₁.statuses = CHAIN.take 5 from h.place.statuses]
    rfl
  have hplace : At P env O rid 5 t r₂ := ⟨hbacked, rfl, hstatuses⟩
  have haccount : u₂.account rid = ⟨r₂, .of r₂.request none (some ledger.txHash) none none⟩ := by
    rw [Store.account, hw.own, hdeeds, h.on.deeds]
    rfl
  have hnext : Receipted L P env O rid r₂ ledger.txHash token none none (t ++ [.wrote s s']) s' :=
    ⟨h.on.wrote haccount, hplace.mono ht, h.token_eq, rfl, .inl rfl, .inl rfl⟩
  refine ⟨⟨u₂, rfl, h.on.heap.symm ▸ h.place.alive (by omega), fun i hi => ?_, ?_, ?_,
    @Effect.record cfg P rid _ _ ledger ?_ ?_ ?_, .inl ?_, ?_, ?_⟩, ⟨r₂, hnext⟩, fun hspent => ?_⟩
  · rw [Store.account, Store.account, hw.others i hi, hothers₁ i hi, hdeeds]
  · rw [hw.own, h.on.heap]
    rfl
  · rw [hw.own, show u₂.deeds rid = _ from congrArg Account.deeds haccount]
    exact .running hplace hnext.fits
  · rw [h.on.heap]
    exact h.place.backed.unrecorded (by omega)
  · rw [hw.own]
    rfl
  · exact hw.common.trans rfl
  · rw [hw.own, h.on.heap]
    rfl
  · intro hst
    rw [hw.own] at hst
    cases hst
  · intro _
    rw [h.on.account]
    exact .inl (h.place.charged (by omega))
  · refine (h.late ?_).mono ht
    rw [L.view_put] at hspent
    exact (Store.redeemed_of_common hw.common token.toTokenPayload).symm.trans hspent

/-- Steps 7 and 8, and what follows: the receipt, its record and the delivery, or the abandonment.
-/
theorem wp_settleReceipt (hon : On L rid r (.of r.request none none none none) t s)
    (hplace : At P env O rid 4 t r) (htoken : r.token = some token)
    (hpublication : publication.requestHash = hashValue P (some r.request.toJson))
    (hspent : (L.view s).redeemed token.toTokenPayload = true → Late P env O rid t) :
    wp (walkRules P env O rid) L (settleReceipt P env rid publication token signerSet)
      (fun _ => Ending L P env O rid) (fun _ => Raised L P env O rid) t s := by
  obtain ⟨token', signerSet', htoken', -, hsigned⟩ := hplace.backed.signed le_rfl
  obtain rfl : token = token' := Option.some.inj (htoken.symm.trans htoken')
  have hverify := verifyTokenForMeter_eq_none_iff (u := L.view s) hsigned
  simp only [settleReceipt, theRecord, wp_bind, wp_gets, hon.heap]
  cases hv : verifyTokenForMeter P env token (L.view s) with
  | some reason =>
      have hredeemed : (L.view s).redeemed token.toTokenPayload = true := by
        by_contra hfresh
        rw [hverify.mpr (by simpa using hfresh)] at hv
        cases hv
      exact wp_abandon_raised ⟨hon, hplace, fits_early le_rfl fun _ => rfl, by omega,
        fun _ => .late (hspent hredeemed), .inl rfl, fun h => by cases h⟩ _ _ _
  | none =>
      have hfresh := hverify.mp hv
      have hq : Quiet (L.view s) ((L.view s).setStage rid .LEDGER) := ⟨rfl, rfl⟩
      have hphase : Phase P env O rid t r (.of r.request none none none none) :=
        .running hplace ((fits_early le_rfl fun _ => rfl))
      simp only [wp_bind, wp_modify, wp_tryCatch, wp_map]
      refine ⟨gua_quiet hon.account hphase (hplace.alive (by omega)) hq, ?_⟩
      have htokened : Tokened L P env O rid r token
          (t ++ [.wrote s (L.put s ((L.view s).setStage rid .LEDGER))])
          (L.put s ((L.view s).setStage rid .LEDGER)) := by
        refine ⟨hon.quiet hq, hplace.mono (List.prefix_append _ _), htoken, fun hredeemed => ?_⟩
        rw [L.view_put] at hredeemed
        exact absurd (hfresh.symm.trans hredeemed) Bool.false_ne_true
      refine wp_multisignReceipt htokened hpublication (fun ledger t s h => ?_)
        fun e t s h hcause => wp_abandon_raised (h.holding hcause) _ _ _
      obtain ⟨hgua, ⟨r', h'⟩, hlate⟩ := h.record ("2-of-3 multisign receipt: " ++ ledger.txHash)
      simp only [wp_bind, wp_modify]
      exact ⟨hgua, wp_deliver h' hlate⟩

end Receipt

end NoGhost
