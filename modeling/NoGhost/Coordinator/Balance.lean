import NoGhost.Coordinator.Meter
import NoGhost.Rounding

/-!
# The Balance of a Meter

`creditMeter` rounds the balance to two decimals whenever a token is delivered. A balance that
is already rounded takes the rounding of the amount alone, so what a meter holds is the sum of the
amounts, each of them rounded: the order of the deliveries does not matter, but how a purchase is
split does. Amounts are exact, and halves are rounded up.

## Main results

* `Balanced.step`: what every delivery preserves.
* `balance_of_deliveries`: what a meter holds after any sequence of calls.
-/

open Js Async Rounding

namespace NoGhost

/-! ### Deliveries -/

variable {cfg : Config} {P : Platform} {env : CoordinatorEnv cfg} {s : Store cfg}

/-- The amount that a token brings to a meter: its own where the meter is the one it names, and
nothing else. -/
def Token.amountFor (token : Token) (meterId : String) : Option ℚ :=
  match token.meterId, token.amountKwh with
  | some (.str m), some (.num (.fin q)) => if m = meterId then some q else none
  | _, _ => none

/-- The amounts that were delivered to a meter, in the order of the deliveries. -/
def Store.deliveredTo (s : Store cfg) (meterId : String) : List ℚ :=
  s.dispensed.filterMap fun e => e.2.amountFor meterId

/-- The amount of a token of checked types is the one it has for its meter. -/
theorem amountFor_toToken {t : TypedToken} {q : ℚ} (h : t.amountKwh = .fin q) (m : String) :
    t.toToken.amountFor m = if t.meterId = m then some q else none := by
  rw [Token.amountFor, TypedToken.toToken, h]

/-- The credit of a finite amount to a finite balance is the sum, rounded to cents. -/
theorem newBalance_fin (N : Numeral) (b q : ℚ) :
    Store.newBalance N (.fin b) (some (.num (.fin q))) = .ok (.fin (rounded (b + q))) := by
  rw [rounded, hundredths, round_eq, div_eq_mul_inv]
  rfl

/-- A meter that is put into service has the balance that was read where there was none: 0. -/
theorem balanceOf_ensureMeter (s : Store cfg) (meterId meterId' : Option Json) :
    (s.ensureMeter meterId).balanceOf meterId' = s.balanceOf meterId' := by
  rw [Store.ensureMeter]
  split
  next => rfl
  next hget =>
    rw [Store.balanceOf, Store.balanceOf]
    cases hkey : meterId' == meterId with
    | true =>
        have hself : (meterId == meterId) = true := BEq.trans (BEq.symm hkey) hkey
        rw [JsMap.get_congr hkey, JsMap.get_congr hkey, hget, JsMap.get_set_self hself]
        rfl
    | false => rw [JsMap.get_set_of_ne hkey]

/-- **The invariant.** Every meter holds the sum of the amounts that were delivered to it, each
rounded when it was credited. -/
def Balanced (s : Store cfg) : Prop :=
  ∀ m : String, s.balanceOf (some (.str m)) = .fin ((s.deliveredTo m).map rounded).sum

/-- The amount of the token that a call delivers, if any, is finite. -/
def MeterCall.Finite (call : MeterCall) : Prop :=
  ∀ rid token, call = .deliverToken rid token → ∃ q, token.amountKwh = .fin q

/-- At the boot nothing was delivered since, and every meter has what it was seeded with. -/
theorem balanced_boot (now : String) (randomBytes : Bytes) :
    Balanced (Store.boot cfg now randomBytes) := by
  intro m
  have hzero : ∀ e ∈ (Store.boot cfg now randomBytes).meters, e.2.balanceKwh = .fin 0 := by
    intro e he
    obtain ⟨i, -, rfl⟩ := List.mem_map.mp he
    rfl
  have hread : ∀ l : JsMap (Option Json) MeterState, (∀ e ∈ l, e.2.balanceKwh = .fin 0) →
      ((l.get (some (.str m))).map (·.balanceKwh)).getD (.fin 0) = .fin 0 := fun l hl => by
    induction l with
    | nil => rfl
    | cons e l ih =>
        rw [JsMap.get, List.lookup_cons]
        split
        next => exact hl e List.mem_cons_self
        next => exact ih fun e' he' => hl e' (List.mem_cons_of_mem _ he')
  exact hread _ hzero

/-- A delivery adds the rounded amount: the balance before it is rounded already. -/
theorem Balanced.dispense {token : TypedToken} {q : ℚ} {rid : ℕ} {balance : Number}
    (h : Balanced s) (hq : token.amountKwh = .fin q)
    (hbalance : Store.newBalance P.numeral
      (((s.redeem rid token.toToken).ensureMeter token.toToken.meterId).balanceOf
        token.toToken.meterId) (some (.num token.amountKwh)) = .ok balance) :
    Balanced (((s.redeem rid token.toToken).ensureMeter token.toToken.meterId).credit rid
      token.toToken balance) := by
  intro m
  set u := (s.redeem rid token.toToken).ensureMeter token.toToken.meterId with hu
  have hold : ∀ x : String, u.balanceOf (some (.str x)) =
      .fin ((s.deliveredTo x).map rounded).sum := fun x =>
    (balanceOf_ensureMeter _ _ _).trans (h x)
  have hdelivered : (u.credit rid token.toToken balance).deliveredTo m =
      s.deliveredTo m ++ (if token.meterId = m then [q] else []) := by
    have hdispensed : u.dispensed = s.dispensed :=
      congrArg Common.dispensed (common_ensureMeter token.toToken.meterId
        (s.redeem rid token.toToken))
    rw [Store.deliveredTo, show (u.credit rid token.toToken balance).dispensed =
      u.dispensed ++ [(rid, token.toToken)] from rfl, hdispensed, List.filterMap_append,
      Store.deliveredTo]
    congr 1
    rw [List.filterMap_cons, amountFor_toToken hq]
    split <;> simp_all
  rw [hdelivered]
  by_cases hm : token.meterId = m
  · subst hm
    have hself : (u.credit rid token.toToken balance).balanceOf (some (.str token.meterId)) =
        balance := by
      rw [Store.balanceOf, Store.credit, Store.broadcast]
      dsimp only
      rw [show token.toToken.meterId = some (.str token.meterId) from rfl,
        JsMap.get_set_self (beq_ref_str token.meterId)]
      rfl
    rw [hq, show token.toToken.meterId = some (.str token.meterId) from rfl, hold, newBalance_fin,
      sum_rounded, rounded_add, ← sum_rounded] at hbalance
    rw [hself, if_pos rfl, List.map_append, List.sum_append, ← Except.ok.inj hbalance]
    simp
  · have hne : ((some (.str m) : Option Json) == some (.str token.meterId)) = false := by
      have hne : (m == token.meterId) = false := beq_false_of_ne fun heq => hm heq.symm
      exact hne
    have hother : (u.credit rid token.toToken balance).balanceOf (some (.str m)) =
        u.balanceOf (some (.str m)) := by
      rw [Store.balanceOf, Store.balanceOf, Store.credit, Store.broadcast]
      dsimp only
      rw [show token.toToken.meterId = some (.str token.meterId) from rfl, JsMap.get_set_of_ne hne]
    rw [hother, hold, if_neg hm, List.append_nil]

/-- What every call at the meters preserves, whether or not it is accepted. -/
theorem Balanced.step (h : Balanced s) {call : MeterCall} (hfinite : call.Finite) :
    Balanced ((call.body P env).settle s).2 := by
  rcases settle_meterCall P env call s with
    ⟨result, hsettle⟩ | ⟨rid, token, balance, rfl, -, hbalance, hsettle⟩
  · rw [hsettle]
    exact h
  · obtain ⟨q, hq⟩ := hfinite rid token rfl
    rw [hsettle]
    exact h.dispense hq hbalance

/-- What one call preserves, a sequence of calls preserves. -/
theorem Balanced.run (h : Balanced s) {calls : List (String × MeterCall)}
    (hfinite : ∀ c ∈ calls, c.2.Finite) : Balanced (meterRun P env calls s) := by
  induction calls generalizing s with
  | nil => exact h
  | cons c calls ih =>
      have helapse : Balanced { s with now := c.1 } := h
      exact ih (helapse.step (hfinite c List.mem_cons_self)) fun c' hc' =>
        hfinite c' (List.mem_cons_of_mem _ hc')

/-- **The balance of a meter**, after any sequence of calls: it is the sum of the amounts that
were delivered to the meter, each of them rounded to two decimals. So it does not depend on the
order of the deliveries, and it is the sum rounded once exactly when what rounding each amount
leaves out adds up to at least minus one half, and to less than one half, of a hundredth. -/
theorem balance_of_deliveries (P : Platform) (env : CoordinatorEnv cfg) (now : String)
    (randomBytes : Bytes) {calls : List (String × MeterCall)}
    (hfinite : ∀ c ∈ calls, c.2.Finite) (m : String) :
    let s := meterRun P env calls (.boot cfg now randomBytes)
    s.balanceOf (some (.str m)) = .fin ((s.deliveredTo m).map rounded).sum ∧
      (s.balanceOf (some (.str m)) = .fin (rounded (s.deliveredTo m).sum) ↔
        -(1 / 2) ≤ ((s.deliveredTo m).map residue).sum ∧
          ((s.deliveredTo m).map residue).sum < 1 / 2) ∧
      ∀ calls' : List (String × MeterCall), (∀ c ∈ calls', c.2.Finite) →
        let s' := meterRun P env calls' (.boot cfg now randomBytes)
        (s'.deliveredTo m).Perm (s.deliveredTo m) →
          s'.balanceOf (some (.str m)) = s.balanceOf (some (.str m)) := by
  intro s
  have hboot : Balanced (Store.boot cfg now randomBytes) := balanced_boot now randomBytes
  have hbalance : s.balanceOf (some (.str m)) = .fin ((s.deliveredTo m).map rounded).sum :=
    hboot.run hfinite m
  refine ⟨hbalance, ?_, fun calls' hfinite' hperm => ?_⟩
  · rw [hbalance, Number.fin.injEq, sum_rounded_iff]
  · rw [hbalance, hboot.run hfinite' m, (hperm.map rounded).sum_eq]

namespace Small

/-- A token of the small group, for four thousandths of a unit, which is less than half a cent. -/
def crumb (debitRef nonce : String) (R z : ℤ) : TypedToken where
  meterId := "MTR-1001"
  amountKwh := .fin (4 / 1000)
  debitRef := debitRef
  nonce := nonce
  signature := Frost.scalarToHex curve R ++ Frost.scalarToHex curve z

/-- Two of them are delivered, each under a debit reference and a nonce of its own. -/
def crumbs : List (String × MeterCall) :=
  [("", .deliverToken 0 (crumb "D-1" "N-1" 1 0)), ("", .deliverToken 1 (crumb "D-2" "N-2" 1 3))]

/-- The amounts of the two are finite. -/
theorem crumbs_finite : ∀ c ∈ crumbs, c.2.Finite := by
  have h : ∀ rid debitRef nonce R z,
      (MeterCall.deliverToken rid (crumb debitRef nonce R z)).Finite := by
    rintro rid debitRef nonce R z rid' token heq
    cases heq
    exact ⟨4 / 1000, rfl⟩
  intro c hc
  simp only [crumbs, List.mem_cons, List.not_mem_nil, or_false] at hc
  rcases hc with rfl | rfl
  · exact h _ _ _ _ _
  · exact h _ _ _ _ _

end Small

/-- Two deliveries of four thousandths leave nothing on the meter, where their sum rounded once
is one hundredth. -/
theorem balance_crumbs :
    let s := meterRun Small.platform Small.coordinatorEnv Small.crumbs (.boot config "" [])
    s.deliveredTo "MTR-1001" = [4 / 1000, 4 / 1000] ∧
      s.balanceOf (some (.str "MTR-1001")) = .fin 0 ∧
      rounded (s.deliveredTo "MTR-1001").sum = 1 / 100 ∧
      s.balanceOf (some (.str "MTR-1001")) ≠ .fin (rounded (s.deliveredTo "MTR-1001").sum) := by
  decide +kernel

/-- After two amounts below half a cent the balance is the sum of the rounded amounts. -/
theorem balance_of_deliveries_small :
    let s := meterRun Small.platform Small.coordinatorEnv Small.crumbs (.boot config "" [])
    s.balanceOf (some (.str "MTR-1001")) =
      .fin ((s.deliveredTo "MTR-1001").map rounded).sum :=
  (balance_of_deliveries Small.platform Small.coordinatorEnv "" [] Small.crumbs_finite
    "MTR-1001").1

end NoGhost
