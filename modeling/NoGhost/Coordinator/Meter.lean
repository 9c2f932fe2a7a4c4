import NoGhost.Coordinator.Books
import NoGhost.Coordinator.Runs

/-!
# Meter Redemption

The meter by itself: any sequence of calls of `verifyTokenForMeter` and `deliverToken`, on any
tokens, from the boot of the coordinator on. A token is what its type says, so the balance of a
meter can always be increased by its amount, and a call is answered in one of two ways: it is
refused and changes nothing, or it dispenses, which both replay guards and the meter record.

## Main results

* `deliverToken_refused`, `deliverToken_dispensed`: the two ways.
* `Metering.step`: what every call preserves.
* `redeemed_once`: what every sequence of calls leaves.
-/

open Js Async

namespace NoGhost

variable {cfg : Config}

/-- A `Token` whose fields are of their declared types, as every token is that the meter is handed.
-/
structure TypedToken where
  meterId : String
  amountKwh : Number
  debitRef : String
  nonce : String
  signature : String

/-- A token of checked types, as the functions of the meter take it. -/
def TypedToken.toToken (t : TypedToken) : Token where
  meterId := some (.str t.meterId)
  amountKwh := some (.num t.amountKwh)
  debitRef := some (.str t.debitRef)
  nonce := t.nonce
  signature := t.signature

/-- A call at the meter: a token is looked at, or delivered; a delivery is made by the run on a
record. -/
inductive MeterCall
  | verifyTokenForMeter (token : TypedToken)
  | deliverToken (rid : ℕ) (token : TypedToken)

section Calls

variable (P : Platform) (env : CoordinatorEnv cfg)

/-- The body of a call: its result is the reason of a refusal. -/
def MeterCall.body : MeterCall → CoordinatorProg cfg (Option String)
  | .verifyTokenForMeter token => Prog.gets (NoGhost.verifyTokenForMeter P env token.toToken)
  | .deliverToken rid token => NoGhost.deliverToken P env rid token.toToken

/-- The state after a sequence of calls, each with the time at which it is made. -/
def meterRun : List (String × MeterCall) → Store cfg → Store cfg
  | [], s => s
  | (now, call) :: calls, s => meterRun calls ((call.body P env).settle { s with now }).2

/-- `Σ meter.dispenses`, over all meters. -/
def Store.totalDispenses (s : Store cfg) : ℕ := (s.meters.map fun e => e.2.dispenses).sum

/-- The replay guards and the meters are left alone, and with them the balances. -/
structure SameMeters (s s' : Store cfg) : Prop where
  usedNonces : s'.usedNonces = s.usedNonces
  usedDebitRefs : s'.usedDebitRefs = s.usedDebitRefs
  meters : s'.meters = s.meters

/-- The signature of a token is one of the group, over the four fields of its payload. -/
def Token.Verified (token : Token) : Prop :=
  Frost.verifySignature P.toCurve token.signature
    (canonicalBytes P (some token.toTokenPayload.toJson)) env.GROUP.groupPublicKey = true

/-- **The meter's books**: the guards have what was redeemed, the dispenses add up, and every entry
is one delivery. -/
structure Metering (s : Store cfg) : Prop where
  guards : Guards s
  metered : Metered s
  nonces : s.usedNonces.length = s.redemptions.length
  refs : s.usedDebitRefs.length = s.redemptions.length
  credited : s.dispensed = s.redemptions
  verified : ∀ e ∈ s.dispensed, ∃ t : TypedToken, e.2 = t.toToken ∧ e.2.Verified P env

end Calls

section Steps

variable {P : Platform} {env : CoordinatorEnv cfg} {s : Store cfg} {rid : ℕ}

/-- The meter accepts a token that is new to both guards and verifies. -/
theorem verifyTokenForMeter_eq_none {token : Token} :
    verifyTokenForMeter P env token s = none ↔
      s.redeemed token.toTokenPayload = false ∧ token.Verified P env := by
  rw [verifyTokenForMeter, Token.Verified]
  cases s.redeemed token.toTokenPayload with
  | true => simp
  | false =>
      cases Frost.verifySignature P.toCurve token.signature
        (canonicalBytes P (some token.toTokenPayload.toJson)) env.GROUP.groupPublicKey <;> simp

/-- A delivery that is refused changes nothing. -/
theorem deliverToken_refused {token : Token} {reason : String}
    (h : verifyTokenForMeter P env token s = some reason) :
    (deliverToken P env rid token).settle s = (.ret (some reason), s) := by
  rw [deliverToken, Prog.settle_bind_ret (a := some reason) (t := s)]
  · rfl
  · rw [← h]
    rfl

/-- A delivery that is not refused dispenses: the token is redeemed and its amount credited. -/
theorem deliverToken_dispensed (rid : ℕ) {token : TypedToken}
    (h : verifyTokenForMeter P env token.toToken s = none) :
    ∃ balance, Store.newBalance P.numeral
        (((s.redeem rid token.toToken).ensureMeter token.toToken.meterId).balanceOf
          token.toToken.meterId) (some (.num token.amountKwh)) = .ok balance ∧
      (deliverToken P env rid token.toToken).settle s =
        (.ret none, (((s.redeem rid token.toToken).ensureMeter token.toToken.meterId).credit rid
          token.toToken balance)) := by
  obtain ⟨balance, hbalance⟩ := newBalance_num P.numeral
    (((s.redeem rid token.toToken).ensureMeter token.toToken.meterId).balanceOf
      token.toToken.meterId) token.amountKwh
  refine ⟨balance, hbalance, ?_⟩
  rw [deliverToken, Prog.settle_bind_ret (a := none) (t := s)]
  · change ((creditMeter P rid token.toToken >>= fun _ => pure none).settle
      (s.redeem rid token.toToken)) = _
    rw [Prog.settle_bind_ret (a := ()) (t := ((s.redeem rid token.toToken).ensureMeter
      token.toToken.meterId).credit rid token.toToken balance)]
    · rfl
    · change ((Prog.ofExcept (Store.newBalance P.numeral _ (some (.num token.amountKwh))) >>=
        fun balance => Prog.modify (Store.credit rid token.toToken balance)).settle _) = _
      rw [hbalance]
      rfl
  · rw [← h]
    rfl

/-- A reference that is new to a set makes it larger by one. -/
theorem length_insertRef {refs : List (Option Json)} {ref : Option Json}
    (h : refs.contains ref = false) :
    (Store.insertRef refs ref).length = refs.length + 1 := by
  rw [Store.insertRef, h]
  simp

/-- What a dispense does to the guards and the histories. -/
theorem dispense_eq (s : Store cfg) (rid : ℕ) (token : Token) (balance : Number) :
    let s' := ((s.redeem rid token).ensureMeter token.meterId).credit rid token balance
    s'.usedNonces = s.usedNonces.insert token.nonce ∧
      s'.usedDebitRefs = Store.insertRef s.usedDebitRefs token.debitRef ∧
      s'.redemptions = s.redemptions ++ [(rid, token)] ∧
      s'.dispensed = s.dispensed ++ [(rid, token)] := by
  have hcommon := common_ensureMeter token.meterId (s.redeem rid token)
  exact ⟨congrArg Common.usedNonces hcommon, congrArg Common.usedDebitRefs hcommon,
    congrArg Common.redemptions hcommon,
    congrArg (· ++ [(rid, token)]) (congrArg Common.dispensed hcommon)⟩

/-- A dispense is recorded by both guards and by the meter. -/
theorem Metering.dispense {token : TypedToken} {balance : Number} (h : Metering P env s)
    (hnone : verifyTokenForMeter P env token.toToken s = none) :
    Metering P env (((s.redeem rid token.toToken).ensureMeter token.toToken.meterId).credit rid
      token.toToken balance) := by
  obtain ⟨hfresh, hverified⟩ := verifyTokenForMeter_eq_none.mp hnone
  obtain ⟨hnonce, href⟩ := Bool.or_eq_false_iff.mp hfresh
  obtain ⟨hnonces, hrefs, hredemptions, hdispensed⟩ :=
    dispense_eq s rid token.toToken balance
  have hredeem : Metered (s.redeem rid token.toToken) := ⟨h.metered.distinct, h.metered.sum⟩
  have hguards : SameGuards (s.redeem rid token.toToken) _ := ⟨hnonces, hrefs, hredemptions⟩
  refine ⟨hguards.guards (h.guards.redeem hfresh),
    (hredeem.ensureMeter token.toToken.meterId).credit token.toToken balance, ?_, ?_, ?_,
    fun e he => ?_⟩
  · have hnot : token.toToken.nonce ∉ s.usedNonces := fun hmem => by
      rw [List.contains_iff_mem.mpr hmem] at hnonce
      cases hnonce
    rw [hnonces, hredemptions, List.length_insert_of_not_mem hnot, h.nonces, List.length_append,
      List.length_singleton]
  · rw [hrefs, hredemptions, length_insertRef href, h.refs, List.length_append,
      List.length_singleton]
  · rw [hdispensed, hredemptions, h.credited]
  · rw [hdispensed] at he
    rcases List.mem_append.mp he with he | he
    · exact h.verified e he
    · cases List.mem_singleton.mp he
      exact ⟨token, rfl, hverified⟩

/-- What a call comes to: it is refused, or a check, and leaves the meters and the guards alone, or
it dispenses. -/
theorem settle_meterCall (P : Platform) (env : CoordinatorEnv cfg) (call : MeterCall)
    (s : Store cfg) :
    ((∃ result, (call.body P env).settle s = (.ret result, s)) ∨
      ∃ rid token balance, call = .deliverToken rid token ∧
        verifyTokenForMeter P env token.toToken s = none ∧
        Store.newBalance P.numeral
          (((s.redeem rid token.toToken).ensureMeter token.toToken.meterId).balanceOf
            token.toToken.meterId) (some (.num token.amountKwh)) = .ok balance ∧
        (call.body P env).settle s = (.ret none,
          ((s.redeem rid token.toToken).ensureMeter token.toToken.meterId).credit rid token.toToken
            balance)) := by
  cases call with
  | verifyTokenForMeter token => exact .inl ⟨_, rfl⟩
  | deliverToken rid token =>
      cases h : NoGhost.verifyTokenForMeter P env token.toToken s with
      | some reason => exact .inl ⟨_, deliverToken_refused h⟩
      | none =>
          obtain ⟨balance, hbalance, hsettle⟩ := deliverToken_dispensed rid h
          exact .inr ⟨rid, token, balance, rfl, h, hbalance, hsettle⟩

/-- Every call at the meters keeps their books. -/
theorem Metering.step (h : Metering P env s) (call : MeterCall) :
    Metering P env ((call.body P env).settle s).2 := by
  rcases settle_meterCall P env call s with
    ⟨result, hsettle⟩ | ⟨rid, token, balance, -, hnone, -, hsettle⟩
  · rw [hsettle]
    exact h
  · rw [hsettle]
    exact h.dispense hnone

/-- The time that passes is not in the books. -/
theorem Metering.elapse (h : Metering P env s) (now : String) :
    Metering P env { s with now } :=
  ⟨⟨h.guards.nonces, h.guards.refs, h.guards.distinct⟩, ⟨h.metered.distinct, h.metered.sum⟩,
    h.nonces, h.refs, h.credited, h.verified⟩

/-- Every sequence of calls keeps the books of the meters. -/
theorem Metering.run (h : Metering P env s) (calls : List (String × MeterCall)) :
    Metering P env (meterRun P env calls s) := by
  induction calls generalizing s with
  | nil => exact h
  | cons c calls ih => exact ih ((h.elapse c.1).step c.2)

/-- The books of the meters are in order at the boot. -/
theorem metering_boot (now : String) (randomBytes : Bytes) :
    Metering P env (Store.boot cfg now randomBytes) :=
  ⟨⟨fun n => by simp [Store.boot], fun _ => rfl, List.Pairwise.nil⟩, ⟨seededMeters_distinct, rfl⟩,
    rfl, rfl, rfl, fun _ he => nomatch he⟩

/-- A call that is refused leaves the guards and the meters alone, and so does every check. -/
theorem meterCall_harmless {call : MeterCall} (h : (∃ token, call = .verifyTokenForMeter token) ∨
    ∃ reason s', (call.body P env).settle s = (.ret (some reason), s')) :
    ((call.body P env).settle s).2 = s := by
  rcases settle_meterCall P env call s with
    ⟨result, hsettle⟩ | ⟨rid, token, balance, rfl, -, -, hsettle⟩
  · rw [hsettle]
  · rcases h with ⟨token', heq⟩ | ⟨reason, s', hrefused⟩
    · cases heq
    · rw [hsettle] at hrefused
      cases hrefused

end Steps

/-- **One dispense a token**, after any sequence of calls: no nonce and no reference was dispensed
twice, both guards are as large as the number of dispenses over all meters, every credited token
verified over its own payload, and the next call returns; where it is a check or is refused, it
changes nothing. -/
theorem redeemed_once (P : Platform) (env : CoordinatorEnv cfg) (now : String)
    (randomBytes : Bytes) (calls : List (String × MeterCall)) :
    let s := meterRun P env calls (.boot cfg now randomBytes)
    (s.dispensed.map fun e => e.2.nonce).Nodup ∧ (s.dispensed.map fun e => e.2.debitRef).Nodup ∧
      s.usedNonces.length = s.totalDispenses ∧ s.usedDebitRefs.length = s.totalDispenses ∧
      s.dispensed.length = s.totalDispenses ∧ (∀ e ∈ s.dispensed, e.2.Verified P env) ∧
      ∀ call : MeterCall, (∃ result s', (call.body P env).settle s = (.ret result, s')) ∧
        ((∃ token, call = .verifyTokenForMeter token) ∨
            (∃ reason s', (call.body P env).settle s = (.ret (some reason), s')) →
          SameMeters s ((call.body P env).settle s).2) := by
  intro s
  have h : Metering P env s := (metering_boot now randomBytes).run calls
  have htotal : s.totalDispenses = s.dispensed.length := h.metered.sum
  have hdistinct : s.dispensed.Pairwise fun e f =>
      e.2.nonce ≠ f.2.nonce ∧ (e.2.debitRef == f.2.debitRef) = false := by
    rw [h.credited]
    exact h.guards.distinct
  refine ⟨List.pairwise_map.mpr (hdistinct.imp fun hne => hne.1), ?_, ?_, ?_, htotal.symm,
    fun e he => ?_, fun call => ⟨?_, fun hcall => ?_⟩⟩
  · refine List.pairwise_map.mpr (hdistinct.imp_of_mem fun {e f} he _ hne heq => ?_)
    obtain ⟨t, ht, -⟩ := h.verified e he
    have hself : (e.2.debitRef == e.2.debitRef) = true := by
      rw [ht]
      exact beq_ref_str t.debitRef
    rw [← heq, hself] at hne
    exact absurd hne.2 (by decide)
  · rw [h.nonces, htotal, h.credited]
  · rw [h.refs, htotal, h.credited]
  · obtain ⟨-, -, hverified⟩ := h.verified e he
    exact hverified
  · rcases settle_meterCall P env call s with
      ⟨result, hsettle⟩ | ⟨rid, token, balance, -, -, -, hsettle⟩
    · exact ⟨_, _, hsettle⟩
    · exact ⟨_, _, hsettle⟩
  · rw [meterCall_harmless hcall]
    exact ⟨rfl, rfl, rfl⟩

end NoGhost
