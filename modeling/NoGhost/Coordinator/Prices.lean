import NoGhost.Coordinator.Banking
import NoGhost.Rounding

/-!
# Prices

A purchase is priced four times: the submission wants a positive amount of energy, the
coordinator prices it, the bank wants a finite amount of money, and the members price it again. All
of them round to hundredths, and nothing wants the price to be positive.

## Main results

* `priceZar_pos`: the price is positive from two thousandths of a unit on.
* `exchanged_sound`: the log of the bank and the records, in any run of coordinator and bank.
* `positive_debit_iff`: which deliveries have a debit of a positive amount.
* `free_delivery`: one that has not.
-/

open Js Async Rounding

namespace NoGhost

variable {cfg : Config} {P : Platform} {env : CoordinatorEnv cfg} {key : BankKey}

/-! ### The price -/

/-- The price of a finite amount is finite, and rounded to cents. -/
theorem priceZar_fin (q : ℚ) : priceZar (.fin q) = .fin (rounded (q * RATE_ZAR_PER_KWH)) := by
  rw [rounded, hundredths, round_eq, div_eq_mul_inv]
  rfl

/-- An amount is rounded to nothing below one half of a hundredth. -/
theorem rounded_pos {q : ℚ} : 0 < rounded q ↔ 1 / 200 ≤ q := by
  rw [rounded, hundredths, round_eq, div_pos_iff_of_pos_right (by norm_num), Int.cast_pos,
    Int.floor_pos]
  constructor <;> intro h <;> linarith

/-- **The price of an amount** is positive from two thousandths of a unit on, and 0 below, where it
is rounded away. -/
theorem priceZar_pos {q p : ℚ} (h : priceZar (.fin q) = .fin p) : 0 < p ↔ 1 / 500 ≤ q := by
  rw [priceZar_fin, Number.fin.injEq] at h
  rw [← h, rounded_pos, RATE_ZAR_PER_KWH]
  constructor <;> intro h <;> linarith

/-! ### Coordinator and bank -/

/-- The system, with any identifiers, of which only the exchange with the bank is known. -/
def Setting.exchanging (P : Platform) (key : BankKey) (net : Network cfg) :
    Setting cfg (Banking cfg) :=
  { Setting.banking P key net with
    extra := fun s => Exchanged P key s
    answers_put := @Banking.answers_put cfg P net }

/-- Such a setting is valid over every network. -/
theorem Setting.exchanging_valid {net : Network cfg} :
    (Setting.exchanging P key net).Valid P env where
  free _ _ _ := trivial
  sameBooks hextra hd := hextra.sameBooks hd
  accept _ hextra hnew _ := hextra.createRecord hnew
  move hb hextra hrid hm := hextra.move hb hrid id hm
  world hextra hmoves := hextra.world hmoves
  fit_sameBooks _ _ := trivial
  fit_accept _ _ _ _ := trivial
  fit_move _ _ _ _ := trivial
  fit_world _ _ := trivial

/-- What holds wherever coordinator and bank come to. -/
theorem exchanged_sound {net : Network cfg} {now : String} {randomBytes : Bytes}
    {admitted : CoordinatorPool (Banking cfg) cfg → CoordinatorRequest → Prop}
    {c : CoordinatorPool (Banking cfg) cfg}
    (h : (bankingGame P env key net).Reaches admitted (.boot cfg now randomBytes) c) :
    Books P env ((Setting.exchanging P key net).outside P) c.state.store ∧
      Exchanged P key c.state := by
  have hinv := (Setting.sound (S := Setting.exchanging P key net) Setting.exchanging_valid
    (Setting.inv_boot rfl (.boot now randomBytes))
    (fun c req _ _ => ⟨fun _ _ _ => trivial, fun hstrict => hstrict.elim⟩) h).inv
  exact ⟨hinv.books, hinv.extra⟩

/-! ### What a member accepts -/

/-- The check of a member accepts the debit of a record: in its validation of the publication, and
first of all checks of round 2. -/
def MemberAccepts (P : Platform) (pinned : String) (request : GenerationRequest)
    (d : Json) : Prop :=
  validateDebitForRequest P (some (sent request.toJson)) (some (sent d)) pinned = .ok none

/-- A member accepts a debit at the price of the request. -/
theorem MemberAccepts.price {pinned : String} {request : GenerationRequest} {d : Json}
    (h : MemberAccepts P pinned request d) (hd : d.Distinct) :
    d.get? "amount" = some (.num (priceZar (.fin request.amountKwh))) := by
  obtain ⟨-, -, -, -, ⟨price, hprice, hamount⟩, -⟩ := validateDebitForRequest_ok h
  rw [prop?_some, (get?_sent_request request).2] at hprice
  obtain rfl : priceZar (.fin request.amountKwh) = price := Except.ok.inj hprice
  exact prop?_sent_num hd (eq_of_strictEq hamount)

/-- A delivered request has a debit in the log of the bank, under its own identifier. -/
theorem delivered_debit {net : Network cfg} {now : String} {randomBytes : Bytes}
    {admitted : CoordinatorPool (Banking cfg) cfg → CoordinatorRequest → Prop}
    {c : CoordinatorPool (Banking cfg) cfg}
    (h : (bankingGame P env key net).Reaches admitted (.boot cfg now randomBytes) c) {i : ℕ}
    (hstatus : (c.state.store.heap i).status = .DELIVERED) :
    ∃ e ∈ c.state.bank.debitLog, (c.state.store.heap i).debit = some (sent e.debit.toJson) ∧
      e.debit.requestId = (c.state.store.heap i).request.requestId := by
  obtain ⟨hb, hexchanged⟩ := exchanged_sound h
  obtain ⟨t, hphase⟩ := hb.phase i
  obtain ⟨token, d, ledger, hdelivered⟩ := hphase.delivered hstatus
  have hd : (c.state.store.heap i).debit = some d := hdelivered.debited
  obtain ⟨e, he, rfl, hid⟩ := hexchanged.debited i d hd
  exact ⟨e, he, hd, hid⟩

/-- **Positive debits.** In any run of the coordinator and the bank, with any answers of signers
and ledger: a request that is delivered, with a debit that a member accepts, has a debit in the log
of the bank, under its own identifier and at its price; and the amount of that debit is positive if
and only if the request is for at least two thousandths of a unit. -/
theorem positive_debit_iff {net : Network cfg} {now : String} {randomBytes : Bytes}
    {admitted : CoordinatorPool (Banking cfg) cfg → CoordinatorRequest → Prop}
    {c : CoordinatorPool (Banking cfg) cfg}
    (h : (bankingGame P env key net).Reaches admitted (.boot cfg now randomBytes) c) {i : ℕ}
    (hstatus : (c.state.store.heap i).status = .DELIVERED) {pinned : String}
    (haccepts : ∀ d, (c.state.store.heap i).debit = some d →
      MemberAccepts P pinned (c.state.store.heap i).request d) :
    ∃ e ∈ c.state.bank.debitLog, (c.state.store.heap i).debit = some (sent e.debit.toJson) ∧
      e.debit.requestId = (c.state.store.heap i).request.requestId ∧
      .fin e.debit.amount = priceZar (.fin (c.state.store.heap i).request.amountKwh) ∧
      (0 < e.debit.amount ↔ 1 / 500 ≤ (c.state.store.heap i).request.amountKwh) := by
  obtain ⟨e, he, hd, hid⟩ := delivered_debit h hstatus
  have hprice := (haccepts _ hd).price (build_distinct _)
  rw [e.debit.get?_amount, Option.some.injEq, Json.num.injEq] at hprice
  exact ⟨e, he, hd, hid, hprice, priceZar_pos hprice.symm⟩

/-! ### A purchase for nothing -/

namespace Small

/-- The small request, for one thousandth of a unit. -/
def nibbleRequest : GenerationRequest := { generationRequest with amountKwh := 1 / 1000 }

/-- A submission of it. -/
def nibble : CoordinatorRequest :=
  .post (some (.obj [("requestId", .str "REQ-1"), ("meterId", .str "MTR-1001"),
    ("merchantId", .str "MER-001"), ("amountKwh", .num (.fin (1 / 1000)))])) ""

/-- The approvals of that request on the ledger. -/
def nibbleApprovals : Except String (List LedgerTx) :=
  let requestHash := hashValue platform (some nibbleRequest.toJson)
  .ok [⟨approvalTx platform "rUtility" "utility" requestHash .APPROVE none, "T2"⟩,
    ⟨approvalTx platform "rCityA" "city-a" requestHash .APPROVE none, "T3"⟩]

/-- The ledger, to a member. -/
def nibbleLedger : Env SignerState SignerCall SignerCall.Answer := fun t q s =>
  match q with
  | .accountTx _ => (nibbleApprovals, s)
  | q => ledger t q s

/-- The services at work, with those approvals. -/
def nibbled (s : Banking config) : (q : CoordinatorCall config) → q.Answer
  | .accountTx _ => nibbleApprovals
  | .round2 i body =>
      match ((round2 platform (member i) (some (sent body))).run nibbleLedger []
        committed).result with
      | .ok resp => (some (resp.arrived platform) : Option HttpResult)
      | .error _ => (none : Option HttpResult)
  | q => told s q

/-- The run asks for the debit. -/
def nibbleAsked : CoordinatorPool (Banking config) config :=
  (bankingGame platform coordinatorEnv bankSecret .any).play
    ⟨.boot config "2025-01-01T00:00:00.000Z" [], []⟩
    [.spawn nibble, .resume 0 (nibbled (.boot config "2025-01-01T00:00:00.000Z" []))]

/-- The bank has confirmed, and the purchase is delivered. -/
def nibbleSold : CoordinatorPool (Banking config) config :=
  (bankingGame platform coordinatorEnv bankSecret .any).play nibbleAsked
    (.world (serveDebit nibbleAsked.state) ::
      List.replicate 15 (.resume 0 (nibbled (serveDebit nibbleAsked.state))))

/-- A delivery of one thousandth of a unit, with a debit of nothing that the members accept. -/
abbrev Nibbled (s : Banking config) : Prop :=
  (s.store.heap 0).status = .DELIVERED ∧ (s.store.heap 0).request.amountKwh = 1 / 1000 ∧
    ((s.store.heap 0).debit.all fun d =>
      decide (validateDebitForRequest platform (some (sent (s.store.heap 0).request.toJson))
        (some (sent d)) bankKey = .ok none)) = true ∧
    s.bank.mode = .CONFIRM ∧ s.bank.debitLog.map (fun e => (e.debit.amount, e.outcome)) =
      [(0, .CONFIRMED)]

end Small

/-- What the bank has answered may arrive, and so may what the members and the ledger answer. -/
theorem small_nibbled {s : Banking config} {c : CoordinatorPool (Banking config) config}
    (h : s.debitReplies ⊆ c.state.debitReplies) (i : ℕ) :
    (bankingGame Small.platform Small.coordinatorEnv Small.bankSecret .any).Legal c
      (.resume i (Small.nibbled s)) := by
  intro req start q k hget
  have htold : (bankingGame Small.platform Small.coordinatorEnv Small.bankSecret .any).Legal c
      (.resume i (Small.told s)) := small_told (fun _ => trivial) h i
  cases q with
  | debit rid body => exact htold req start (.debit rid body) k hget
  | reverse rid ref => exact .inl rfl
  | _ => trivial

/-- The answers of these services may all be given. -/
theorem small_nibble_playable
    {admitted : CoordinatorPool (Banking config) config → CoordinatorRequest → Prop}
    {s : Banking config} (n : ℕ) : ∀ {c : CoordinatorPool (Banking config) config},
      c.state.debitReplies = s.debitReplies →
      (bankingGame Small.platform Small.coordinatorEnv Small.bankSecret .any).Playable admitted c
        (List.replicate n (.resume 0 (Small.nibbled s))) := by
  induction n with
  | zero => exact fun _ => trivial
  | succ n ih =>
      intro c h
      refine ⟨small_nibbled (fun _ hm => h ▸ hm) 0, fun _ heq => (nomatch heq), ih ?_⟩
      exact (bank_act (a := .resume 0 (Small.nibbled s)) fun _ heq => (nomatch heq)).2.1.trans h

/-- The run of the nibble is one of the system. -/
theorem small_nibbleSold :
    (bankingGame Small.platform Small.coordinatorEnv Small.bankSecret .any).Reaches
      (fun _ _ => True) (.boot config "2025-01-01T00:00:00.000Z" []) Small.nibbleSold := by
  set G := bankingGame Small.platform Small.coordinatorEnv Small.bankSecret .any with hG
  set s : Banking config := .boot config "2025-01-01T00:00:00.000Z" [] with hs
  set c := G.act ⟨s, []⟩ (.spawn Small.nibble) with hc
  obtain ⟨hbank, hreplies, -⟩ :
      c.state.bank = s.bank ∧ c.state.debitReplies = [] ∧ c.state.reverseReplies = [] :=
    bank_act (a := .spawn Small.nibble) fun _ heq => (nomatch heq)
  obtain ⟨hbank', hreplies', -⟩ : Small.nibbleAsked.state.bank = c.state.bank ∧
      Small.nibbleAsked.state.debitReplies = c.state.debitReplies ∧
      Small.nibbleAsked.state.reverseReplies = c.state.reverseReplies :=
    bank_act (c := c) (a := .resume 0 (Small.nibbled s)) fun _ heq => (nomatch heq)
  have hasked : G.Reaches (fun _ _ => True) s Small.nibbleAsked :=
    Game.Reaches.init.play (show G.Playable (fun _ _ => True) ⟨s, []⟩
        [.spawn Small.nibble, .resume 0 (Small.nibbled s)] from
      ⟨trivial, fun _ _ => trivial, small_nibbled (List.nil_subset _) 0,
        fun _ heq => (nomatch heq), trivial⟩)
  exact hasked.play ⟨small_serveDebit (by rw [hbank', hbank]; rfl) (hreplies'.trans hreplies)
    fun _ _ _ => trivial, fun _ heq => (nomatch heq), small_nibble_playable 15 rfl⟩

/-- It delivers the thousandth of a unit that was asked for. -/
theorem small_nibbleSold_nibbled : Small.Nibbled Small.nibbleSold.state := by
  decide +kernel

/-- What was delivered is in the log of the bank, at the price of 0. -/
theorem Small.Nibbled.entry {c : CoordinatorPool (Banking config) config}
    (h : (bankingGame Small.platform Small.coordinatorEnv Small.bankSecret .any).Reaches
      (fun _ _ => True) (.boot config "2025-01-01T00:00:00.000Z" []) c)
    (hn : Small.Nibbled c.state) : ∃ e ∈ c.state.bank.debitLog,
      (c.state.store.heap 0).debit = some (sent e.debit.toJson) ∧ e.outcome = .CONFIRMED ∧
      MemberAccepts Small.platform Small.bankKey (c.state.store.heap 0).request
        (sent e.debit.toJson) ∧ e.debit.amount = 0 := by
  obtain ⟨hstatus, -, haccepts, -, hlog⟩ := hn
  obtain ⟨e, he, hd, -⟩ := delivered_debit h hstatus
  have hentry : (e.debit.amount, e.outcome) ∈ [((0 : ℚ), DebitOutcome.CONFIRMED)] := by
    rw [← hlog]
    exact List.mem_map_of_mem he
  obtain ⟨hamount, houtcome⟩ := Prod.mk.inj (List.mem_singleton.mp hentry)
  rw [hd, Option.all_some, decide_eq_true_eq] at haccepts
  exact ⟨e, he, hd, houtcome, haccepts, hamount⟩

/-- **A delivery for nothing**: a request for one thousandth of a unit is confirmed by the bank,
accepted by the members and delivered, and its debit is of nothing. -/
theorem free_delivery : ¬ ∀ c : CoordinatorPool (Banking config) config,
    (bankingGame Small.platform Small.coordinatorEnv Small.bankSecret .any).Reaches
      (fun _ _ => True) (.boot config "2025-01-01T00:00:00.000Z" []) c →
    ∀ i, (c.state.store.heap i).status = .DELIVERED → 0 < (c.state.store.heap i).request.amountKwh →
      ∀ e ∈ c.state.bank.debitLog, (c.state.store.heap i).debit = some (sent e.debit.toJson) →
        e.outcome = .CONFIRMED → MemberAccepts Small.platform Small.bankKey
          (c.state.store.heap i).request (sent e.debit.toJson) → 0 < e.debit.amount := by
  intro hall
  obtain ⟨e, he, hd, houtcome, haccepts, hamount⟩ :=
    small_nibbleSold_nibbled.entry small_nibbleSold
  have hpositive := hall _ small_nibbleSold 0 small_nibbleSold_nibbled.1
    (by rw [small_nibbleSold_nibbled.2.1]; norm_num) e he hd houtcome haccepts
  rw [hamount] at hpositive
  exact lt_irrefl 0 hpositive

/-- That delivery meets the condition, and fails the bound. -/
theorem positive_debit_iff_small : ∃ e ∈ Small.nibbleSold.state.bank.debitLog,
    (0 < e.debit.amount ↔ 1 / 500 ≤ (Small.nibbleSold.state.store.heap 0).request.amountKwh) := by
  obtain ⟨e, -, hd, -, haccepts, -⟩ := small_nibbleSold_nibbled.entry small_nibbleSold
  have haccepts' : ∀ d, (Small.nibbleSold.state.store.heap 0).debit = some d →
      MemberAccepts Small.platform Small.bankKey
        (Small.nibbleSold.state.store.heap 0).request d := fun d hd' => by
    obtain rfl := Option.some.inj (hd.symm.trans hd')
    exact haccepts
  obtain ⟨e', he', -, -, -, hiff⟩ :=
    positive_debit_iff small_nibbleSold small_nibbleSold_nibbled.1 haccepts'
  exact ⟨e', he', hiff⟩

end NoGhost
