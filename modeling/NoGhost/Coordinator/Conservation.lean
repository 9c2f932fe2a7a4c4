import NoGhost.Coordinator.Runs
import NoGhost.Coordinator.Service

/-!
# Conservation

What the divergence monitor reads in the states that a coordinator reaches. A delivered record
has its token, its debit and its receipt, and the histories have each of them once; an abandoned
record says how its reversal came out. What was redeemed was redeemed once, so the counts of
`computeReconciliation` agree while every reversal succeeds.

## Main results

* `Phase.delivered`: what is left of a run that was delivered.
* `conservation`: the counts agree in honest operation.
-/

open Js Async

namespace NoGhost

variable {cfg : Config} {P : Platform} {env : CoordinatorEnv cfg}

/-! ### A coordinator on its own -/

/-- A coordinator whose calls are answered as `answers` says. The others do what runs do not
read back. -/
def Setting.single (answers : (q : CoordinatorCall cfg) → q.Answer → Prop) :
    Setting cfg (Store cfg) where
  L := Lens.whole (Store cfg)
  answers _ := answers
  answers_put _ h := h
  moves := Quiet

/-- A coordinator on its own is a valid setting: there is no rest of the system to keep. -/
theorem Setting.single_valid (answers : (q : CoordinatorCall cfg) → q.Answer → Prop) :
    (Setting.single answers).Valid P env where
  free _ _ _ := trivial
  sameBooks _ _ := trivial
  accept _ _ _ _ := trivial
  move _ _ _ _ := trivial
  world _ h := ⟨trivial, h.sameBooks⟩
  fit_sameBooks _ _ := trivial
  fit_accept _ _ _ _ := trivial
  fit_move _ _ _ _ := trivial
  fit_world _ _ := trivial

/-- The game of a coordinator on its own, whose calls are answered as `answers` says. -/
abbrev singleGame (P : Platform) (env : CoordinatorEnv cfg)
    (answers : (q : CoordinatorCall cfg) → q.Answer → Prop) :=
  (Setting.single answers).game P env

/-- **One coordinator.** The books are in order in every state that is reached, whatever the
services answer, and every record may rest. -/
theorem single_sound {answers : (q : CoordinatorCall cfg) → q.Answer → Prop} {now : String}
    {randomBytes : Bytes} {c : CoordinatorPool (Store cfg) cfg}
    (h : (singleGame P env answers).Reaches (fun _ _ => True) (Store.boot cfg now randomBytes) c) :
    Books P env ((Setting.single answers).outside P) c.state ∧
      ∀ i, Rests P env ((Setting.single answers).outside P) i (c.state.account i) := by
  have hinv := (Setting.sound (Setting.single_valid answers) (Setting.inv_boot rfl trivial)
    (fun _ _ _ _ => ⟨fun _ _ _ => trivial, fun hstrict => hstrict.elim⟩) h).inv
  exact ⟨hinv.books, hinv.rests⟩

/-! ### Delivered records -/

/-- What is left of a run that was delivered: its token, the debit that paid for it and its receipt,
each once. -/
structure Account.Delivered (a : Account cfg) (token : Token) (d : Json)
    (ledger : LedgerRecord cfg) : Prop where
  signed : a.record.token = some token
  debited : a.record.debit = some d
  recorded : a.record.ledger = some ledger
  debitRef : token.debitRef = d.get? "debitRef"
  receipts : a.deeds.receipts = [ledger.txHash]
  redemptions : a.deeds.redemptions = [token]
  dispensed : a.deeds.dispensed = [token]

section Records

variable {σ : Type} {L : Lens σ (Store cfg)} {O : Outside L} {i : ℕ} {t : CoordinatorTrace σ cfg}
  {r : PipelineRecord cfg} {e : Deeds}

/-- A run whose record is delivered has come through the whole chain, with the evidence for every
step. -/
theorem Phase.delivered (h : Phase P env O i t r e) (hstatus : r.status = .DELIVERED) :
    ∃ token d ledger, (⟨r, e⟩ : Account cfg).Delivered token d ledger := by
  cases h with
  | idle h | asked h => rw [h.status] at hstatus; cases hstatus
  | rejected hrejected => rw [hrejected] at hstatus; cases hstatus
  | abandoned _ _ habandoned => rw [habandoned] at hstatus; cases hstatus
  | @running k reversal receipt redeemed dispensed h hfits =>
      obtain rfl : k = 6 := by
        have hk := h.status
        rw [hstatus] at hk
        match k, hk with
        | 6, _ => rfl
      obtain ⟨d, hd, -⟩ := h.backed.debited
      obtain ⟨token, signerSet, htoken, -, hsigned⟩ := h.backed.signed (by omega)
      obtain ⟨ledger, hledger, -⟩ := h.backed.recorded (by omega)
      have hdispensed := (hfits.delivered_eq rfl).trans htoken
      have hredeemed : redeemed = some token := by
        rcases hfits.dispensed_eq with hnone | ⟨-, heq, -⟩
        · rw [hdispensed] at hnone; cases hnone
        · exact heq.trans htoken
      refine ⟨token, d, ledger, htoken, hd, hledger,
        (buildTokenPayload_ok (hd ▸ hsigned.payload)).2.2,
        ?_, ?_, ?_⟩
      · rw [Deeds.of, hfits.receipt_eq (by omega), hledger]; rfl
      · rw [Deeds.of, hredeemed]; rfl
      · rw [Deeds.of, hdispensed]; rfl

/-- A record that is abandoned after a typed debit says how the reversal came out. -/
theorem Phase.reversed (h : Phase P env O i t r e) (hstatus : r.status = .REJECTED_ABANDONED)
    (htyped : ∀ d, Debited P env O i t r.request d → TypedDebit d) :
    ∃ ref answer, O.Heard t (.reverse i ref) answer ∧
      r.debitReversed = some (answer.any (·.ok)) := by
  cases h with
  | idle h | asked h => rw [h.status] at hstatus; cases hstatus
  | rejected hrejected => rw [hrejected] at hstatus; cases hstatus
  | @running k _ _ _ _ h _ =>
      have hk := h.status
      rw [hstatus] at hk
      have hmem := List.mem_of_getElem? hk
      simp [CHAIN] at hmem
  | abandoned h _ _ _ _ hreversal =>
      obtain ⟨d, hd, hdebited⟩ := h.debited
      obtain ⟨ref, href, hne⟩ := (htyped d hdebited).debitRef
      cases hreversal with
      | unasked hno _ =>
          refine absurd ⟨?_, ?_⟩ (hno ref)
          · rw [hd, prop?_some, href]
            simpa [truthy, Json.truthy] using hne
          · rw [hd, prop?_some, href]; rfl
      | asked _ heard hreversed => exact ⟨_, _, heard, hreversed⟩

/-- A delivered record is complete: it has a token, a debit and a receipt. -/
theorem Account.Delivered.complete {a : Account cfg} {token : Token} {d : Json}
    {ledger : LedgerRecord cfg} (h : a.Delivered token d ledger) : a.record.Complete := by
  rw [PipelineRecord.Complete, h.signed, h.debited, h.recorded]
  exact ⟨rfl, rfl, rfl⟩

end Records

/-! ### The records of the table -/

/-- The records that the table points to, by number. -/
def Store.listed (u : Store cfg) : List ℕ := u.requests.map (·.2)

/-- The numbers of delivered records in the table. -/
def Store.deliveredListed (u : Store cfg) : List ℕ :=
  u.listed.filter fun i => (u.heap i).status = .DELIVERED

section Listed

variable {σ : Type} {L : Lens σ (Store cfg)} {O : Outside L} {u : Store cfg}

/-- The records of the table are those it points to. -/
theorem records_eq (u : Store cfg) : u.records = u.listed.map u.heap := by
  rw [Store.records, Store.listed, List.map_map]
  rfl

/-- The table points to no record twice, since no record was accepted twice. -/
theorem Table.listed_nodup (ht : Table u) (hnd : u.accepters.Nodup) : u.listed.Nodup := by
  rw [Store.listed, List.Nodup, List.pairwise_map]
  refine ht.keys.imp_of_mem fun {e f} he hf hne heq => ?_
  have hsame := List.inj_on_of_nodup_map hnd (ht.entries e he) (ht.entries f hf) heq
  rw [show e.1 = f.1 from congrArg Prod.snd hsame, beq_self_eq_true] at hne
  cases hne

/-- The books have a table that points to no record twice. -/
theorem Books.listed_nodup (hb : Books P env O u) : u.listed.Nodup :=
  hb.table.listed_nodup hb.ownRecords.nodup

/-- The delivered records of the table are those at its delivered numbers. -/
theorem delivered_records (u : Store cfg) : delivered u.records = u.deliveredListed.map u.heap := by
  rw [delivered, records_eq, List.filter_map, Store.deliveredListed]
  rfl

/-- What was delivered at two numbers differs: the tokens have other references and other nonces,
and the receipts other hashes. -/
theorem Books.delivered_apart (hb : Books P env O u) {i j : ℕ} (hij : i ≠ j) {token token' : Token}
    {d d' : Json} {ledger ledger' : LedgerRecord cfg}
    (hi : (u.account i).Delivered token d ledger)
    (hj : (u.account j).Delivered token' d' ledger') :
    (d.get? "debitRef" == d'.get? "debitRef") = false := by
  have hmem : ∀ {i : ℕ} {token : Token} {d : Json} {ledger : LedgerRecord cfg},
      (u.account i).Delivered token d ledger → (i, token) ∈ u.redemptions := fun h =>
    mem_ofRun.mp ((congrArg (_ ∈ ·) h.redemptions).mpr (List.mem_singleton.mpr rfl))
  have hsymm : Std.Symm fun e f : ℕ × Token =>
      e.2.nonce ≠ f.2.nonce ∧ (e.2.debitRef == f.2.debitRef) = false :=
    ⟨fun e f h => ⟨h.1.symm, beq_ref_comm e.2.debitRef f.2.debitRef ▸ h.2⟩⟩
  have happart := hb.guards.distinct.forall (hmem hi) (hmem hj)
    fun heq => hij (congrArg Prod.fst heq)
  rw [← hi.debitRef, ← hj.debitRef]
  exact happart.2

/-- A delivered record of the books has the account of a delivery. -/
theorem Books.account_delivered (hb : Books P env O u) {i : ℕ}
    (hstatus : (u.heap i).status = .DELIVERED) :
    ∃ token d ledger, (u.account i).Delivered token d ledger := by
  obtain ⟨t, hphase⟩ := hb.phase i
  exact hphase.delivered hstatus

/-- A delivered record in the table is complete. -/
theorem Books.complete (hb : Books P env O u) {r : PipelineRecord cfg} (hr : r ∈ u.records)
    (hstatus : r.status = .DELIVERED) : r.Complete := by
  rw [records_eq] at hr
  obtain ⟨i, -, rfl⟩ := List.mem_map.mp hr
  obtain ⟨token, d, ledger, h⟩ := hb.account_delivered hstatus
  exact h.complete

/-- The delivered numbers are the listed ones whose record is delivered. -/
theorem mem_deliveredListed {i : ℕ} :
    i ∈ u.deliveredListed ↔ i ∈ u.listed ∧ (u.heap i).status = .DELIVERED := by
  rw [Store.deliveredListed, List.mem_filter, decide_eq_true_iff]

/-- No two delivered records of the table share a debit. -/
theorem Books.debits_apart (hb : Books P env O u) :
    (deliveredRefs u.records).Pairwise fun a b => (a == b) = false := by
  rw [deliveredRefs, delivered_records, List.pairwise_filterMap, List.pairwise_map]
  refine (hb.listed_nodup.filter _).pairwise_of_forall_ne
    fun i hi j hj hij ref href ref' href' => ?_
  obtain ⟨token, d, ledger, h⟩ := hb.account_delivered (mem_deliveredListed.mp hi).2
  obtain ⟨token', d', ledger', h'⟩ := hb.account_delivered (mem_deliveredListed.mp hj).2
  rw [PipelineRecord.debitRef?, show (u.heap i).debit = some d from h.debited] at href
  rw [PipelineRecord.debitRef?, show (u.heap j).debit = some d' from h'.debited] at href'
  cases href
  cases href'
  exact hb.delivered_apart hij h h'

/-- If no two receipts are one transaction, no two delivered records share one. -/
theorem Books.hashes_nodup (hb : Books P env O u) (hreceipts : (u.receipts.map (·.2)).Nodup) :
    (deliveredHashes u.records).Nodup := by
  rw [deliveredHashes, delivered_records, List.Nodup, List.pairwise_filterMap, List.pairwise_map]
  refine (hb.listed_nodup.filter _).pairwise_of_forall_ne
    fun i hi j hj hij hash hhash hash' hhash' => ?_
  obtain ⟨token, d, ledger, h⟩ := hb.account_delivered (mem_deliveredListed.mp hi).2
  obtain ⟨token', d', ledger', h'⟩ := hb.account_delivered (mem_deliveredListed.mp hj).2
  rw [show (u.heap i).ledger = some ledger from h.recorded] at hhash
  rw [show (u.heap j).ledger = some ledger' from h'.recorded] at hhash'
  cases hhash
  cases hhash'
  have hmem : ∀ {i : ℕ} {token : Token} {d : Json} {ledger : LedgerRecord cfg},
      (u.account i).Delivered token d ledger → (i, ledger.txHash) ∈ u.receipts := fun h =>
    mem_ofRun.mp ((congrArg (_ ∈ ·) h.receipts).mpr (List.mem_singleton.mpr rfl))
  exact fun heq =>
    hij (congrArg Prod.fst (List.inj_on_of_nodup_map hreceipts (hmem h) (hmem h') heq))

/-- **The counts.** Tokens and receipts are those of the delivered records of the table, and so are
the debits, but for those that are stuck. -/
theorem Books.counts (hb : Books P env O u) (hreceipts : (u.receipts.map (·.2)).Nodup) :
    u.computeReconciliation.tokensIssued = u.deliveredListed.length ∧
      u.computeReconciliation.confirmedDebits =
        u.deliveredListed.length + (stuckRefs u.records).length ∧
      u.computeReconciliation.onChainRecords = u.deliveredListed.length := by
  obtain ⟨htokens, hrefs, hhashes⟩ := length_of_complete fun r hr => hb.complete hr
  have hlen : (delivered u.records).length = u.deliveredListed.length := by
    rw [delivered_records, List.length_map]
  obtain ⟨ht, hd, hc⟩ := computeReconciliation_eq u
  have hcount := (foldl_insert_length (deliveredHashes u.records) []).2.mpr
    ⟨fun _ _ => List.not_mem_nil, hb.hashes_nodup hreceipts⟩
  rw [ht, hd, hc, htokens, (length_distinct_eq_iff _).mpr hb.debits_apart, hcount,
    hrefs, hhashes, hlen]
  exact ⟨rfl, rfl, Nat.zero_add _⟩

end Listed

/-! ### Honest operation -/

/-- Every reverse call succeeds, which is the condition under which no debit is stuck. -/
def Reverses : (q : CoordinatorCall cfg) → q.Answer → Prop
  | .reverse _ _, answer => ∃ r : HttpResult, answer = some r ∧ r.ok = true
  | _, _ => True

/-- **Conservation.** However many runs there are, and however they interleave: if the bank's
debits are typed, every reverse call so far has succeeded, and no two receipts are one
transaction, then the three counts agree and the difference is zero. -/
theorem conservation {now : String} {randomBytes : Bytes} {c : CoordinatorPool (Store cfg) cfg}
    (h : (singleGame P env fun q r => DebitsTyped P env q r ∧ Reverses q r).Reaches
      (fun _ _ => True)
      (Store.boot cfg now randomBytes) c)
    (hreceipts : (c.state.receipts.map (·.2)).Nodup) :
    let counts := c.state.computeReconciliation
    counts.tokensIssued = counts.confirmedDebits ∧ counts.tokensIssued = counts.onChainRecords ∧
      counts.delta = 0 := by
  intro counts
  obtain ⟨hb, -⟩ := single_sound h
  have hunreversed : unreversedRefs c.state.records = [] := by
    rw [unreversedRefs, List.filterMap_eq_nil_iff]
    intro r hr
    obtain ⟨hr, hstatus⟩ := List.mem_filter.mp hr
    simp only [decide_eq_true_eq] at hstatus
    rw [records_eq] at hr
    obtain ⟨i, -, rfl⟩ := List.mem_map.mp hr
    obtain ⟨t, hphase⟩ := hb.phase i
    obtain ⟨ref, answer, ⟨-, s, -, hok⟩, hreversed⟩ := hphase.reversed hstatus.1 fun d hd => by
      obtain ⟨r, ⟨-, s, htyped, -⟩, -, rfl⟩ := hd.heard
      exact htyped r rfl hd.verified
    obtain ⟨r, rfl, hrok⟩ := hok
    exact absurd (hreversed.trans (congrArg some hrok)) hstatus.2
  have hstuck : stuckRefs c.state.records = [] := by
    rw [stuckRefs, hunreversed]
    rfl
  obtain ⟨htokens, hdebits, hrecords⟩ := hb.counts hreceipts
  rw [hstuck, List.length_nil, Nat.add_zero] at hdebits
  have heq : counts.tokensIssued = counts.confirmedDebits := htokens.trans hdebits.symm
  have heq' : counts.tokensIssued = counts.onChainRecords := htokens.trans hrecords.symm
  exact ⟨heq, heq', (delta_eq_zero_iff c.state).mpr ⟨heq, heq'⟩⟩

/-! ### A small purchase -/

namespace Small

/-- The actions of the small coordinator. -/
abbrev CoordinatorAction :=
  Action (Store config) (CoordinatorCall config) CoordinatorCall.Answer CoordinatorRequest

/-- The submission of the small request, as its body arrives. -/
def shopping : CoordinatorRequest :=
  .post (some (.obj [("requestId", .str "REQ-1"), ("meterId", .str "MTR-1001"),
    ("merchantId", .str "MER-001"), ("amountKwh", .num (.fin 10))])) ""

/-- A purchase from the submission to the delivery, in which every await is answered. -/
def purchase : List CoordinatorAction :=
  .spawn shopping :: List.replicate 16 (.resume 0 working)

/-- What the services of the small purchase answer. -/
def Works (q : CoordinatorCall config) (r : q.Answer) : Prop := r = working q

/-- The coordinator after the purchase. -/
def bought : CoordinatorPool (Store config) config :=
  (singleGame platform coordinatorEnv Works).play
    ⟨Store.boot config "2025-01-01T00:00:00.000Z" [], []⟩ purchase

end Small

/-- The purchase is a run, whatever is asked of an admission that the submission meets. -/
theorem small_bought (admitted : CoordinatorPool (Store config) config → CoordinatorRequest → Prop)
    (hadm : admitted ⟨Store.boot config "2025-01-01T00:00:00.000Z" [], []⟩ Small.shopping) :
    (singleGame Small.platform Small.coordinatorEnv Small.Works).Reaches admitted
      (Store.boot config "2025-01-01T00:00:00.000Z" []) Small.bought := by
  refine .play .init ?_
  rw [Small.purchase]
  refine ⟨trivial, fun req heq => ?_, Game.playable_of_sure (fun a ha => ?_) _⟩
  · cases heq
    exact hadm
  · obtain rfl := List.eq_of_mem_replicate ha
    exact fun _ _ => rfl

/-- The small purchase is delivered, with one receipt. -/
theorem small_bought_delivered : (Small.bought.state.heap 0).status = .DELIVERED ∧
    Small.bought.state.receipts = [(0, "T4")] ∧ Small.bought.state.accepted = [(0, "REQ-1")] ∧
    Small.bought.state.merchantHits = [("MER-001", [0])] ∧
    Small.bought.state.merchants = Store.seededMerchants ∧
    Small.bought.state.computeReconciliation.tokensIssued = 1 := by
  decide +kernel

/-- What the small services answer is typed, and the reversals succeed. -/
theorem small_works (q : CoordinatorCall config) :
    DebitsTyped Small.platform Small.coordinatorEnv q (Small.working q) ∧
    Reverses q (Small.working q) := by
  cases q with
  | debit rid body => exact ⟨fun r hr _ => Option.some.inj hr ▸ small_typed, trivial⟩
  | reverse rid ref => exact ⟨trivial, _, rfl, rfl⟩
  | _ => exact ⟨trivial, trivial⟩

/-- After the small purchase: one token, one debit, one receipt. -/
theorem conservation_small :
    let counts := Small.bought.state.computeReconciliation
    counts.tokensIssued = 1 ∧ counts.confirmedDebits = 1 ∧ counts.onChainRecords = 1 ∧
      counts.delta = 0 := by
  intro counts
  obtain ⟨-, hreceipts, -, -, -, htokens⟩ := small_bought_delivered
  obtain ⟨hdebits, hrecords, hdelta⟩ := conservation
    (coordinatorGame_mono (fun _ q r hr => hr ▸ small_works q) (fun _ _ h => h) (fun _ _ h => h)
      (small_bought _ trivial)) (by rw [hreceipts]; decide)
  exact ⟨htokens, hdebits ▸ htokens, hrecords ▸ htokens, hdelta⟩

end NoGhost
