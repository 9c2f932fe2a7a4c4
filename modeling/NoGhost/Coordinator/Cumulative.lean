import NoGhost.Coordinator.Flood

/-!
# Cumulative Counts

How the counts of `computeReconciliation` relate to what meters and the audit trail add up to over
a whole run. The counts are made from the table of requests, which drops what is old; meters and
audit trail drop nothing. Both agree exactly while every delivered record is in the table. While
the table keeps the abandoned ones too, the counts never go down, and the points of the series
are in order.

## Main results

* `counts_mono`: the counts grow with the records that are over.
* `counts_cumulative`: when the counts are cumulative.
* `forgotten`: a flood makes them forget.
-/

open Js Async

namespace NoGhost

variable {cfg : Config}

/-! ### Counting distinct references -/

section References

variable {ι : Type} {f : ι → Option Json}

/-- What a reference counts as: references that are no references to themselves are all
different. -/
def countsAs (f : ι → Option Json) (i : ι) : Option Json ⊕ ι :=
  if f i == f i then .inl (f i) else .inr i

/-- A reference that equals itself is in a set where it is a member. -/
theorem contains_iff_mem {refs : List (Option Json)} {ref : Option Json}
    (h : (ref == ref) = true) : refs.contains ref = true ↔ ref ∈ refs := by
  rw [List.contains_eq_any_beq, List.any_eq_true]
  constructor
  · rintro ⟨x, hx, hbeq⟩
    rwa [eq_of_beq_ref hbeq]
  · exact fun hmem => ⟨ref, hmem, h⟩

/-- A reference that does not equal itself is in no set. -/
theorem contains_eq_false {refs : List (Option Json)} {ref : Option Json}
    (h : (ref == ref) = false) : refs.contains ref = false := by
  rw [List.contains_eq_any_beq, List.any_eq_false]
  intro x _ hbeq
  rw [BEq.trans hbeq (BEq.symm hbeq)] at h
  cases h

/-- The number of distinct references, as the size of a set. -/
theorem length_distinct_map (l : List ι) (hl : l.Nodup) :
    (distinct (l.map f)).length = (countsAs f '' {i | i ∈ l}).ncard := by
  induction l using List.reverseRecOn with
  | nil => simp [distinct]
  | append_singleton l i ih =>
      have hi : i ∉ l := fun hmem =>
        (List.nodup_append.mp hl).2.2 i hmem i (List.mem_singleton.mpr rfl) rfl
      have hstep : distinct ((l ++ [i]).map f) = Store.insertRef (distinct (l.map f)) (f i) := by
        rw [distinct, List.map_append, List.foldl_append]
        rfl
      have hset : {j | j ∈ l ++ [i]} = insert i {j | j ∈ l} := by
        ext j
        simp [or_comm]
      have hfin : (countsAs f '' {j | j ∈ l}).Finite := (List.finite_toSet l).image _
      have hmem : (distinct (l.map f)).contains (f i) = true ↔
          countsAs f i ∈ countsAs f '' {j | j ∈ l} := by
        cases hrefl : f i == f i with
        | true =>
            rw [contains_iff_mem hrefl, mem_distinct, List.mem_map, countsAs, if_pos hrefl]
            constructor
            · rintro ⟨j, hj, heq⟩
              exact ⟨j, hj, by rw [countsAs, heq, if_pos hrefl]⟩
            · rintro ⟨j, hj, heq⟩
              rw [countsAs] at heq
              split at heq
              · exact ⟨j, hj, Sum.inl.inj heq⟩
              · cases heq
        | false =>
            rw [contains_eq_false hrefl, countsAs, hrefl, if_neg Bool.false_ne_true]
            refine iff_of_false Bool.false_ne_true ?_
            rintro ⟨j, hj, heq⟩
            rw [countsAs] at heq
            split at heq
            · cases heq
            · exact hi (Sum.inr.inj heq ▸ hj)
      rw [hstep, hset, Set.image_insert_eq, Store.insertRef]
      split
      next h => rw [Set.insert_eq_of_mem (hmem.mp h), ih (List.nodup_append.mp hl).1]
      next h =>
        rw [Set.ncard_insert_of_notMem (fun hin => h (hmem.mpr hin)) hfin, List.length_append,
          ih (List.nodup_append.mp hl).1]
        rfl

/-- Of two sets that are joined, the second counts where the first has nothing. -/
theorem length_distinct_append (refs refs' : List (Option Json)) :
    (distinct (refs ++ refs')).length = (distinct refs).length +
      ((distinct refs').filter fun ref => !refs.contains ref).length := by
  induction refs' using List.reverseRecOn with
  | nil => simp [distinct]
  | append_singleton refs' ref ih =>
      have hstep : distinct (refs ++ (refs' ++ [ref])) =
          Store.insertRef (distinct (refs ++ refs')) ref := by
        rw [distinct, ← List.append_assoc, List.foldl_append]
        rfl
      have hstep' : distinct (refs' ++ [ref]) = Store.insertRef (distinct refs') ref := by
        rw [distinct, List.foldl_append]
        rfl
      have hcontains : (distinct (refs ++ refs')).contains ref =
          (refs.contains ref || (distinct refs').contains ref) := by
        rw [contains_congr (fun _ => mem_distinct),
          contains_congr (show ∀ x, x ∈ distinct refs' ↔ x ∈ refs' from fun _ => mem_distinct),
          List.contains_eq_any_beq, List.any_append,
          ← List.contains_eq_any_beq, ← List.contains_eq_any_beq]
      rw [hstep, hstep', Store.insertRef, hcontains, Store.insertRef]
      cases hnew : (distinct refs').contains ref
      · cases hold : refs.contains ref <;> simp [hold, ih, Nat.add_assoc]
      · simp [ih]

/-- The strings that `computeReconciliation` collects, as a finite set. -/
theorem length_foldl_insert (hashes : List String) :
    (hashes.foldl (fun acc h => acc.insert h) []).length = hashes.toFinset.card := by
  induction hashes using List.reverseRecOn with
  | nil => rfl
  | append_singleton hashes hash ih =>
      have hmem : ∀ x, x ∈ hashes.foldl (fun acc h => acc.insert h) [] ↔ x ∈ hashes := by
        intro x
        clear ih
        induction hashes using List.reverseRecOn with
        | nil => simp
        | append_singleton hashes hash ih => simp [List.foldl_append, ih, or_comm]
      rw [List.foldl_append, List.foldl_cons, List.foldl_nil, List.toFinset_append,
        Finset.union_comm]
      by_cases h : hash ∈ hashes
      · rw [List.insert_of_mem ((hmem hash).mpr h), ih]
        simp [h]
      · rw [List.length_insert_of_not_mem (h ∘ (hmem hash).mp), ih]
        simp [h]

end References

/-! ### The records that count -/

/-- A record that is delivered, or abandoned. -/
def PipelineRecord.Counted (r : PipelineRecord cfg) : Prop :=
  r.status = .DELIVERED ∨ r.status = .REJECTED_ABANDONED

/-- Every record that is delivered or abandoned is in the table. -/
def Store.Keeps (u : Store cfg) : Prop :=
  ∀ i ∈ u.accepters, (u.heap i).Counted → i ∈ u.listed

/-- The records in the table that were abandoned without a reversal. -/
def Store.stuckListed (u : Store cfg) : List ℕ :=
  u.listed.filter fun i =>
    (u.heap i).status = .REJECTED_ABANDONED ∧ (u.heap i).debitReversed ≠ some true

/-- The records in the table whose debits count. -/
def Store.debitedListed (u : Store cfg) : List ℕ :=
  (u.deliveredListed ++ u.stuckListed).filter fun i => (u.heap i).debit.isSome

/-- The reference of the debit of a record. -/
def Store.refOf (u : Store cfg) (i : ℕ) : Option Json := prop? (u.heap i).debit "debitRef"

/-- The accepted requests that are delivered. -/
def Store.deliveredAccepters (u : Store cfg) : List ℕ :=
  u.accepters.filter fun i => (u.heap i).status = .DELIVERED

/-- The entries of the audit trail that are receipts of delivered requests. -/
def Store.deliveredAudit (u : Store cfg) : List (LedgerRecord cfg) :=
  u.audit.filter fun entry => u.accepters.any fun i =>
    (u.heap i).status = .DELIVERED ∧ (u.heap i).ledger.map (·.txHash) = some entry.txHash

section Counting

variable {σ : Type} {L : Lens σ (Store cfg)} {P : Platform} {env : CoordinatorEnv cfg}
  {O : Outside L} {u u' : Store cfg}

/-- The debit references of records are those at their numbers. -/
theorem filterMap_debitRef? (l : List ℕ) : (l.map u.heap).filterMap (·.debitRef?) =
    (l.filter fun i => (u.heap i).debit.isSome).map u.refOf := by
  induction l with
  | nil => rfl
  | cons i l ih =>
      rw [List.map_cons, List.filterMap_cons, ih, List.filter_cons]
      cases hdebit : (u.heap i).debit with
      | none => simp [PipelineRecord.debitRef?, hdebit]
      | some d => simp [PipelineRecord.debitRef?, hdebit, Store.refOf, prop?]

/-- The debits that are counted are those of `debitedListed`. -/
theorem confirmedDebits_eq (u : Store cfg) : u.computeReconciliation.confirmedDebits =
    (distinct (u.debitedListed.map u.refOf)).length := by
  obtain ⟨-, hdebits, -⟩ := computeReconciliation_eq u
  have hdelivered : deliveredRefs u.records = (u.deliveredListed.filter fun i =>
      (u.heap i).debit.isSome).map u.refOf := by
    rw [deliveredRefs, delivered_records, filterMap_debitRef?]
  have hunreversed : unreversedRefs u.records = (u.stuckListed.filter fun i =>
      (u.heap i).debit.isSome).map u.refOf := by
    rw [unreversedRefs, records_eq, List.filter_map, filterMap_debitRef?]
    rfl
  rw [hdebits, stuckRefs, ← length_distinct_append, hdelivered, hunreversed, ← List.map_append,
    ← List.filter_append, Store.debitedListed]

/-- The numbers of the records that count as debited. -/
theorem mem_debitedListed {i : ℕ} : i ∈ u.debitedListed ↔ i ∈ u.listed ∧
    ((u.heap i).status = .DELIVERED ∨ (u.heap i).status = .REJECTED_ABANDONED ∧
      (u.heap i).debitReversed ≠ some true) ∧ (u.heap i).debit.isSome := by
  rw [Store.debitedListed, List.mem_filter, List.mem_append, mem_deliveredListed,
    Store.stuckListed, List.mem_filter, decide_eq_true_iff]
  tauto

/-- No record counts twice. -/
theorem debitedListed_nodup (hnd : u.listed.Nodup) : u.debitedListed.Nodup := by
  refine (List.nodup_append.mpr ⟨hnd.filter _, hnd.filter _, fun i hi j hj heq => ?_⟩).filter _
  obtain rfl := heq
  have hdelivered := (mem_deliveredListed.mp hi).2
  obtain ⟨-, hstuck⟩ := List.mem_filter.mp hj
  rw [decide_eq_true_iff, hdelivered] at hstuck
  cases hstuck.1

/-- A request that is delivered was accepted. -/
theorem OwnRecords.mem_of_delivered (hr : OwnRecords u) {i : ℕ}
    (h : (u.heap i).status = .DELIVERED) :
    i ∈ u.accepters := by
  refine hr.mem_of_charged (.inl ⟨fun hpending => ?_, fun hrejected => ?_⟩)
  · cases h.symm.trans hpending
  · cases h.symm.trans hrejected

/-- A record that is in the table was accepted. -/
theorem Table.accepter (ht : Table u) {i : ℕ} (hi : i ∈ u.listed) : i ∈ u.accepters := by
  obtain ⟨e, he, rfl⟩ := List.mem_map.mp hi
  exact List.mem_map_of_mem (f := Prod.fst) (ht.entries e he)

/-- The counts of a store, as a point of the series. -/
def Store.point (u : Store cfg) (t : String) : ReconciliationPoint :=
  let counts := u.computeReconciliation
  ⟨t, counts.tokensIssued, counts.confirmedDebits, counts.onChainRecords⟩

/-- No count of a point exceeds that of another. -/
def ReconciliationPoint.Below (p q : ReconciliationPoint) : Prop :=
  p.tokens ≤ q.tokens ∧ p.debits ≤ q.debits ∧ p.records ≤ q.records

/-- A point below another is below every later one. -/
theorem ReconciliationPoint.Below.trans {p q r : ReconciliationPoint} (h : p.Below q)
    (h' : q.Below r) : p.Below r :=
  ⟨h.1.trans h'.1, h.2.1.trans h'.2.1, h.2.2.trans h'.2.2⟩

/-- **The counts grow** with the records that count, as long as these stay in the table: a point
that is taken later is above every earlier one. -/
theorem counts_mono (hnd : u.listed.Nodup) (hnd' : u'.listed.Nodup)
    (h : ∀ i ∈ u.listed, (u.heap i).Counted → i ∈ u'.listed ∧ u'.heap i = u.heap i)
    (t t' : String) :
    (u.point t).Below (u'.point t') := by
  obtain ⟨htokens, -, hrecords⟩ := computeReconciliation_eq u
  obtain ⟨htokens', -, hrecords'⟩ := computeReconciliation_eq u'
  have hdelivered : ∀ i ∈ u.deliveredListed, i ∈ u'.deliveredListed ∧ u'.heap i = u.heap i := by
    intro i hi
    obtain ⟨hlisted, hstatus⟩ := mem_deliveredListed.mp hi
    obtain ⟨hlisted', hheap⟩ := h i hlisted (.inl hstatus)
    exact ⟨mem_deliveredListed.mpr ⟨hlisted', hheap ▸ hstatus⟩, hheap⟩
  have hdebits : u.computeReconciliation.confirmedDebits ≤
      u'.computeReconciliation.confirmedDebits := by
    rw [confirmedDebits_eq, confirmedDebits_eq, length_distinct_map _ (debitedListed_nodup hnd),
      length_distinct_map _ (debitedListed_nodup hnd')]
    refine Set.ncard_le_ncard ?_ ((List.finite_toSet _).image _)
    rintro x ⟨i, hi, rfl⟩
    obtain ⟨hlisted, hcounted, hdebit⟩ := mem_debitedListed.mp hi
    obtain ⟨hlisted', hheap⟩ := h i hlisted (hcounted.imp_right And.left)
    refine ⟨i, mem_debitedListed.mpr ⟨hlisted', by rwa [hheap], by rwa [hheap]⟩, ?_⟩
    rw [countsAs, countsAs, Store.refOf, Store.refOf, hheap]
  refine ⟨?_, hdebits, ?_⟩
  · change u.computeReconciliation.tokensIssued ≤ u'.computeReconciliation.tokensIssued
    rw [htokens, htokens', delivered_records, delivered_records, List.filter_map, List.filter_map,
      List.length_map, List.length_map]
    refine List.Subperm.length_le (((hnd.filter _).filter _).subperm fun i hi => ?_)
    obtain ⟨hi, htoken⟩ := List.mem_filter.mp hi
    obtain ⟨hi', hheap⟩ := hdelivered i hi
    exact List.mem_filter.mpr ⟨hi', by simpa only [Function.comp_apply, hheap] using htoken⟩
  · change u.computeReconciliation.onChainRecords ≤ u'.computeReconciliation.onChainRecords
    rw [hrecords, hrecords', length_foldl_insert, length_foldl_insert]
    refine Finset.card_le_card fun hash hhash => ?_
    rw [List.mem_toFinset, deliveredHashes, delivered_records, List.mem_filterMap] at hhash ⊢
    obtain ⟨r, hr, hledger⟩ := hhash
    obtain ⟨i, hi, rfl⟩ := List.mem_map.mp hr
    obtain ⟨hi', hheap⟩ := hdelivered i hi
    exact ⟨u.heap i, List.mem_map.mpr ⟨i, hi', hheap⟩, hledger⟩

/-! ### What was dispensed -/

/-- A number comes as often in a history as its run has entries there. -/
theorem count_map_fst {α : Type} (l : List (ℕ × α)) (i : ℕ) :
    (l.map (·.1)).count i = (ofRun i l).length := by
  rw [List.count, List.countP_map, List.countP_eq_length_filter, ofRun, List.length_map]
  congr 1

/-- While no run is in the middle of its delivery, the tokens that were dispensed are those of
the delivered requests. -/
theorem Books.dispenses (hb : Books P env O u)
    (hrests : ∀ i, Rests P env O i (u.account i)) :
    (u.meters.map fun e => e.2.dispenses).sum = u.deliveredAccepters.length := by
  have hcount : ∀ i, (u.dispensed.map (·.1)).count i =
      if (u.heap i).status = .DELIVERED then 1 else 0 := fun i => by
    rw [count_map_fst]
    split
    next hstatus =>
      obtain ⟨token, d, ledger, h⟩ := hb.account_delivered hstatus
      exact congrArg List.length h.dispensed
    next hstatus => exact congrArg List.length ((hrests i).dispensed.resolve_right hstatus)
  have hperm : (u.dispensed.map (·.1)).Perm u.deliveredAccepters := by
    refine (List.perm_ext_iff_of_nodup ?_ (hb.ownRecords.nodup.filter _)).mpr fun i => ?_
    · rw [List.nodup_iff_count_le_one]
      intro i
      rw [hcount]
      split <;> omega
    · rw [← List.count_pos_iff, hcount, List.mem_filter, decide_eq_true_iff]
      constructor
      · intro hpos
        split at hpos
        next hstatus =>
          exact ⟨hb.ownRecords.mem_of_delivered hstatus, hstatus⟩
        next => omega
      · rintro ⟨-, hstatus⟩
        rw [if_pos hstatus]
        exact Nat.one_pos
  rw [hb.metered.sum, ← hperm.length_eq, List.length_map]

/-- A record that has a receipt accepted it once. -/
theorem Phase.receipted {i : ℕ} {t : CoordinatorTrace σ cfg} {r : PipelineRecord cfg} {e : Deeds}
    (h : Phase P env O i t r e) {ledger : LedgerRecord cfg} (hledger : r.ledger = some ledger) :
    e.receipts = [ledger.txHash] := by
  have hbacked : ∀ {k : ℕ} {reversal receipt : Option String} {redeemed dispensed : Option Token},
      Backed P env O i k t r → Fits P k r reversal receipt redeemed dispensed →
      receipt.toList = [ledger.txHash] := fun {k _ _ _ _} hb hfits => by
    have hk : 5 ≤ k := by
      by_contra hk
      rw [hb.unrecorded (by omega)] at hledger
      cases hledger
    rw [hfits.receipt_eq hk, hledger]
    rfl
  cases h with
  | idle h | asked h =>
      rw [h.ledger] at hledger
      cases hledger
  | running h hfits => exact hbacked h.backed hfits
  | rejected _ _ _ hnone =>
      rw [hnone] at hledger
      cases hledger
  | abandoned h _ _ _ hfits => exact hbacked h hfits

/-- If no two receipts are one transaction, the audit trail has one entry for each delivered
request. -/
theorem Books.audit_delivered (hb : Books P env O u)
    (hreceipts : (u.receipts.map (·.2)).Nodup) :
    u.deliveredAudit.length = u.deliveredAccepters.length := by
  obtain ⟨l, hnd, hmem, haudit⟩ := hb.audited
  have hreceipt : ∀ {i : ℕ} {ledger : LedgerRecord cfg}, (u.heap i).ledger = some ledger →
      (i, ledger.txHash) ∈ u.receipts := fun {i ledger} hledger => by
    obtain ⟨t, hphase⟩ := hb.phase i
    refine mem_ofRun.mp ((congrArg (_ ∈ ·) (hphase.receipted hledger)).mpr ?_)
    exact List.mem_singleton.mpr rfl
  set isDelivered : Option (LedgerRecord cfg) → Bool := fun ledger? => ledger?.any fun entry =>
    u.accepters.any fun i =>
      (u.heap i).status = .DELIVERED ∧ (u.heap i).ledger.map (·.txHash) = some entry.txHash
    with hisDelivered
  have hlen : u.deliveredAudit.length = (u.audit.map some).countP isDelivered := by
    rw [List.countP_map, List.countP_eq_length_filter]
    rfl
  have hown : ∀ i ∈ l, isDelivered ((u.heap i).ledger) = true ↔ (u.heap i).status = .DELIVERED := by
    intro i hi
    obtain ⟨ledger, hledger⟩ := Option.ne_none_iff_exists'.mp ((hmem i).mp hi)
    simp only [hisDelivered, hledger, Option.any_some, List.any_eq_true, decide_eq_true_iff]
    constructor
    · rintro ⟨j, -, hstatus, hhash⟩
      obtain ⟨ledger', hledger', heq⟩ := Option.map_eq_some_iff.mp hhash
      have hsame := List.inj_on_of_nodup_map hreceipts (hreceipt hledger)
        (hreceipt hledger') heq.symm
      rw [show i = j from congrArg Prod.fst hsame]
      exact hstatus
    · intro hstatus
      exact ⟨i, hb.ownRecords.mem_of_delivered hstatus, hstatus, by rw [hledger]; rfl⟩
  have hperm : (l.filter fun i => (u.heap i).status = .DELIVERED).Perm u.deliveredAccepters := by
    refine (List.perm_ext_iff_of_nodup (hnd.filter _) (hb.ownRecords.nodup.filter _)).mpr
      fun i => ?_
    rw [List.mem_filter, List.mem_filter, decide_eq_true_iff, and_congr_left_iff]
    intro hstatus
    obtain ⟨token, d, ledger, h⟩ := hb.account_delivered hstatus
    refine iff_of_true ((hmem i).mpr ?_) (hb.ownRecords.mem_of_delivered hstatus)
    rw [show (u.heap i).ledger = some ledger from h.recorded]
    exact Option.some_ne_none _
  rw [hlen, haudit, List.countP_map, ← hperm.length_eq, List.countP_eq_length_filter]
  congr 1
  refine List.filter_congr fun i hi => ?_
  rw [Bool.eq_iff_iff, decide_eq_true_iff]
  exact hown i hi

/-- **The counts are cumulative** exactly while every delivered request is in the table: then they
are the numbers of all dispenses and of all receipts. -/
theorem Books.counts_eq_iff (hb : Books P env O u) (hrests : ∀ i, Rests P env O i (u.account i))
    (hreceipts : (u.receipts.map (·.2)).Nodup) :
    (u.computeReconciliation.tokensIssued = (u.meters.map fun e => e.2.dispenses).sum ∧
      u.computeReconciliation.onChainRecords = u.deliveredAudit.length) ↔
      ∀ i ∈ u.accepters, (u.heap i).status = .DELIVERED → i ∈ u.listed := by
  obtain ⟨htokens, -, hrecords⟩ := hb.counts hreceipts
  rw [htokens, hrecords, hb.dispenses hrests, hb.audit_delivered hreceipts, and_self]
  have hsub : u.deliveredListed ⊆ u.deliveredAccepters := fun i hi => by
    obtain ⟨hlisted, hstatus⟩ := mem_deliveredListed.mp hi
    exact List.mem_filter.mpr ⟨hb.table.accepter hlisted, decide_eq_true hstatus⟩
  have hsubperm := (hb.listed_nodup.filter _).subperm hsub
  constructor
  · intro hlen i hi hstatus
    have hperm := hsubperm.perm_of_length_le hlen.ge
    have hmem := hperm.mem_iff.mpr (List.mem_filter.mpr ⟨hi, decide_eq_true hstatus⟩)
    exact (mem_deliveredListed.mp hmem).1
  · intro hall
    refine hsubperm.length_le.antisymm ((hb.ownRecords.nodup.filter _).subperm
      fun i hi => ?_).length_le
    obtain ⟨haccepter, hstatus⟩ := List.mem_filter.mp hi
    rw [decide_eq_true_iff] at hstatus
    exact mem_deliveredListed.mpr ⟨hall i haccepter hstatus, hstatus⟩

end Counting

/-! ### The series -/

section Series

variable {P : Platform} {env : CoordinatorEnv cfg} {answers : (q : CoordinatorCall cfg) →
  q.Answer → Prop}

/-- The points of the series are in order, and none exceeds the counts. -/
def Store.Ordered (u : Store cfg) : Prop :=
  u.series.Pairwise ReconciliationPoint.Below ∧ ∀ p ∈ u.series, ∀ t, p.Below (u.point t)

/-- What is in order while the table keeps what counts. -/
def Store.Cumulates (u : Store cfg) : Prop := u.Keeps → u.Ordered

/-- Only a delivery puts a point on the series: that of the counts after it. -/
theorem Effect.series {rid : ℕ} {u u' : Store cfg} (h : Effect P rid u u') :
    u'.series = u.series ∨ ∃ t, u'.series.Sublist (u.series ++ [u'.point t]) := by
  cases h with
  | still _ h => exact .inl (congrArg Common.series h)
  | claim _ h =>
      obtain ⟨rfl, -⟩ := claimDebitRef_ok h
      exact .inl rfl
  | record _ _ h => exact .inl (congrArg Common.series h)
  | @deliver now _ _ h =>
      refine .inr ⟨now, ?_⟩
      rw [show u'.series = _ from congrArg Common.series h]
      dsimp only
      split
      · exact List.tail_sublist _
      · exact List.Sublist.refl _
  | meter meterId h => exact .inl (congrArg Common.series (h ▸ common_ensureMeter meterId u))
  | ask _ h | receive _ h | redeem _ _ h | credit _ _ h | reverse _ h =>
      subst h
      exact .inl rfl

section Steps

variable {σ : Type} {L : Lens σ (Store cfg)} {O : Outside L} {u u' : Store cfg} {rid : ℕ}

/-- While what counts stays as it is and stays in the table, the series stays in order. -/
theorem Store.Cumulates.of_le (h : u.Cumulates) (ht : Table u) (hnd : u.listed.Nodup)
    (hnd' : u'.listed.Nodup)
    (hseries : u'.series = u.series ∨ ∃ t, u'.series.Sublist (u.series ++ [u'.point t]))
    (haccepters : ∀ i ∈ u.accepters, i ∈ u'.accepters)
    (hheap : ∀ i ∈ u.accepters, (u.heap i).Counted → u'.heap i = u.heap i)
    (hlisted : ∀ i ∈ u.accepters, (u.heap i).Counted → i ∈ u'.listed → i ∈ u.listed) :
    u'.Cumulates := by
  intro hkeeps'
  have hkept : ∀ i ∈ u.accepters, (u.heap i).Counted → i ∈ u'.listed := fun i hi hcounted =>
    hkeeps' i (haccepters i hi) (by rwa [hheap i hi hcounted])
  obtain ⟨hpairwise, hbelow⟩ :=
    h fun i hi hcounted => hlisted i hi hcounted (hkept i hi hcounted)
  have hbelow' : ∀ p ∈ u.series, ∀ t, p.Below (u'.point t) := fun p hp t =>
    (hbelow p hp t).trans (counts_mono hnd hnd' (fun i hi hcounted =>
      ⟨hkept i (ht.accepter hi) hcounted, hheap i (ht.accepter hi) hcounted⟩) t t)
  rcases hseries with heq | ⟨t, hsub⟩
  · exact ⟨heq ▸ hpairwise, heq ▸ hbelow'⟩
  · refine ⟨.sublist hsub (List.pairwise_append.mpr
      ⟨hpairwise, List.pairwise_singleton _ _, fun p hp q hq => ?_⟩), fun p hp t' => ?_⟩
    · obtain rfl := List.mem_singleton.mp hq
      exact hbelow' p hp t
    · rcases List.mem_append.mp (hsub.subset hp) with hp | hp
      · exact hbelow' p hp t'
      · obtain rfl := List.mem_singleton.mp hp
        exact ⟨le_rfl, le_rfl, le_rfl⟩

/-- A write that leaves the books alone leaves the series as it is. -/
theorem SameBooks.cumulates (hd : SameBooks u u') (h : u.Cumulates) : u'.Cumulates := by
  have hrequests : u'.requests = u.requests := congrArg Common.requests hd.common
  have hlisted : u'.listed = u.listed := congrArg (List.map Prod.snd) hrequests
  have hseries : u'.series = u.series := congrArg Common.series hd.common
  have hpoint : ∀ t, u'.point t = u.point t := fun t => by
    simp only [Store.point, Store.computeReconciliation, hrequests, hd.heap]
  have haccepters : u'.accepters = u.accepters := congrArg (List.map Prod.fst) hd.accepted
  intro hkeeps
  obtain ⟨hpairwise, hbelow⟩ := h fun i hi hcounted =>
    hlisted ▸ hkeeps i (haccepters ▸ hi) (by rwa [hd.heap])
  refine ⟨hseries ▸ hpairwise, fun p hp t => ?_⟩
  rw [hpoint]
  exact hbelow p (hseries ▸ hp) t

/-- A new record counts for nothing, and what it drives out of the table would have counted. -/
theorem Store.Cumulates.createRecord (h : u.Cumulates) (hb : Books P env O u)
    {request : GenerationRequest} (hnew : rid ∉ u.accepters) :
    (u.createRecord rid request).Cumulates := by
  have haccepted : (u.createRecord rid request).accepted =
    (rid, request.requestId) :: u.accepted := by
    rw [createRecord_eq]
  have haccepters : (u.createRecord rid request).accepters = rid :: u.accepters :=
    congrArg (List.map Prod.fst) haccepted
  have hne : ∀ i ∈ u.accepters, i ≠ rid := fun i hi heq => hnew (heq ▸ hi)
  refine h.of_le hb.table hb.listed_nodup (hb.table.createRecord.listed_nodup ?_) (.inl ?_)
    (fun i hi => ?_) (fun i hi _ => heap_createRecord (hne i hi)) fun i hi _ hlisted => ?_
  · rw [haccepters]
    exact List.nodup_cons.mpr ⟨hnew, hb.ownRecords.nodup⟩
  · rw [createRecord_eq]
  · rw [haccepters]
    exact List.mem_cons_of_mem _ hi
  · obtain ⟨e, he, rfl⟩ := List.mem_map.mp hlisted
    have hset : e ∈ u.requests.set request.requestId rid := by
      obtain ⟨-, ⟨-, heq⟩ | ⟨evicted, -, heq⟩⟩ :=
        createRecord_table rid request hb.table
      · rwa [heq] at he
      · rw [heq] at he
        exact (JsMap.mem_delete.mp he).1
    rcases JsMap.mem_set hset with rfl | ⟨hold, -⟩
    · exact absurd rfl (hne _ hi)
    · exact List.mem_map_of_mem hold

/-- A run does not change a record that counts. -/
theorem Move.cumulates {t : CoordinatorTrace σ cfg} {s : σ} (hm : Move P env O rid t s u u')
    (hb : Books P env O u) (h : u.Cumulates) : u'.Cumulates := by
  obtain ⟨-, hrequests, -, haccepted⟩ := hm.effect.table
  have hlisted : u'.listed = u.listed := congrArg (List.map Prod.snd) hrequests
  have haccepters : u'.accepters = u.accepters := congrArg (List.map Prod.fst) haccepted
  refine h.of_le hb.table hb.listed_nodup (hlisted ▸ hb.listed_nodup) hm.effect.series
    (fun i hi => haccepters ▸ hi) (fun i _ hcounted => hm.heap_of_ne ?_)
    fun i _ _ hmem => hlisted ▸ hmem
  rintro rfl
  refine hm.alive ?_
  rcases hcounted with hstatus | hstatus <;> rw [hstatus] <;> decide

end Steps

/-- A coordinator whose series is in order while its table keeps what counts. -/
def Setting.cumulative (answers : (q : CoordinatorCall cfg) → q.Answer → Prop) :
    Setting cfg (Store cfg) :=
  { Setting.single answers with extra := Store.Cumulates }

/-- Such a setting is valid: every kind of step keeps the counts cumulative. -/
theorem Setting.cumulative_valid : (Setting.cumulative answers).Valid P env where
  free _ _ _ := trivial
  sameBooks h hd := hd.cumulates h
  accept hb h hnew _ := h.createRecord hb hnew
  move hb h _ hm := hm.cumulates hb h
  world h hq := ⟨hq.sameBooks.cumulates h, hq.sameBooks⟩
  fit_sameBooks _ _ := trivial
  fit_accept _ _ _ _ := trivial
  fit_move _ _ _ _ := trivial
  fit_world _ _ := trivial

/-- **Cumulative counts.** In every state that is reached, tokens and records agree with the meters
and the audit trail exactly if every delivered request is in the table, and the series is in
order if the abandoned ones are too. -/
theorem counts_cumulative {now : String} {randomBytes : Bytes} {c : CoordinatorPool (Store cfg) cfg}
    (h : (singleGame P env answers).Reaches (fun _ _ => True) (Store.boot cfg now randomBytes) c)
    (hreceipts : (c.state.receipts.map (·.2)).Nodup) :
    ((c.state.computeReconciliation.tokensIssued = (c.state.meters.map fun e => e.2.dispenses).sum ∧
      c.state.computeReconciliation.onChainRecords = c.state.deliveredAudit.length) ↔
      ∀ i ∈ c.state.accepters, (c.state.heap i).status = .DELIVERED → i ∈ c.state.listed) ∧
    (c.state.Keeps → c.state.series.Pairwise ReconciliationPoint.Below) := by
  have hinv := (Setting.sound (S := Setting.cumulative answers) Setting.cumulative_valid
    (Setting.inv_boot rfl fun _ => ⟨List.Pairwise.nil, fun _ hp => nomatch hp⟩)
    (fun _ _ _ _ => ⟨fun _ _ _ => trivial, fun hstrict => hstrict.elim⟩) h).inv
  exact ⟨hinv.books.counts_eq_iff hinv.rests hreceipts, fun hkeeps => (hinv.extra hkeeps).1⟩

/-- **A flood makes the counts forget** whatever was delivered before: with 200 later submissions no
delivered record is left to be counted. -/
theorem forgotten {now : String} {randomBytes : Bytes}
    {c : CoordinatorPool (Store cfg) cfg}
    (h : (singleGame P env answers).Reaches (fun _ _ => True) (Store.boot cfg now randomBytes) c)
    (hf : Floodable 0 c.state) (hnd : c.state.acceptedIds.Nodup)
    (hreceipts : (c.state.receipts.map (·.2)).Nodup) {i : ℕ} {x : String}
    (hmem : (i, x) ∈ c.state.accepted) (hx : ∀ k, x ≠ floodId k)
    (hstatus : (c.state.heap i).status = .DELIVERED) :
    ∃ c' : CoordinatorPool (Store cfg) cfg,
      (singleGame P env answers).Reaches (fun _ _ => True) (Store.boot cfg now randomBytes) c' ∧
      (c'.state.receipts.map (·.2)).Nodup ∧
      ¬ (c'.state.computeReconciliation.tokensIssued =
          (c'.state.meters.map fun e => e.2.dispenses).sum ∧
        c'.state.computeReconciliation.onChainRecords = c'.state.deliveredAudit.length) := by
  obtain ⟨hb, -⟩ := single_sound h
  obtain ⟨u', ps, hreach, hflooded, hf'⟩ :=
    flood (L := Lens.whole (Store cfg)) (fun _ _ => trivial) REQUEST_CAP h hf
  have hreceipts' : (u'.receipts.map (·.2)).Nodup := by
    rw [show u'.receipts = c.state.receipts from congrArg Untouched.receipts hflooded.untouched]
    exact hreceipts
  have hmem' : (i, x) ∈ u'.accepted := by
    obtain ⟨new, hnew, -⟩ := hflooded.accepted
    rw [hnew]
    exact List.mem_append_right _ hmem
  refine ⟨_, hreach, hreceipts', fun hcounts => ?_⟩
  have hlisted : i ∈ u'.listed :=
    (counts_cumulative hreach hreceipts').1.mp hcounts i
      (List.mem_map_of_mem (f := Prod.fst) hmem')
      ((congrArg PipelineRecord.status (hflooded.heap i (hb.ownRecords.lt _ hmem))).trans hstatus)
  -- the table holds the newest requests, and this one is not among them
  have hforgotten : u'.getRequest x = none := hflooded.forgotten hf'.table hnd hx
  obtain ⟨e, he, rfl⟩ := List.mem_map.mp hlisted
  obtain ⟨hb', -⟩ := single_sound hreach
  have hid : e.1 = x :=
    congrArg Prod.snd (List.inj_on_of_nodup_map hb'.ownRecords.nodup (hf'.table.entries e he)
      hmem' rfl)
  rw [← not_ne_iff, hf'.table.getRequest_iff (hflooded.nodup hnd)] at hforgotten
  rw [hf'.table.newest (hflooded.nodup hnd), List.mem_map] at he
  obtain ⟨f, hf, rfl⟩ := he
  refine hforgotten (hid ▸ ?_)
  rw [Store.acceptedIds, ← List.map_take]
  exact List.mem_map_of_mem (f := Prod.snd) (List.mem_reverse.mp hf)

end Series

/-! ### Small instances -/

/-- The small request is in the table after the purchase. -/
theorem small_listed : Small.bought.state.accepters = [0] ∧ Small.bought.state.listed = [0] := by
  obtain ⟨-, -, haccepted, -⟩ := small_bought_delivered
  obtain ⟨hb, -⟩ := single_sound (small_bought (fun _ _ => True) trivial)
  generalize Small.bought = c at haccepted hb
  have hids : c.state.acceptedIds = ["REQ-1"] := congrArg (List.map Prod.snd) haccepted
  refine ⟨congrArg (List.map Prod.fst) haccepted, ?_⟩
  rw [Store.listed, hb.table.newest (hids ▸ List.nodup_singleton _), haccepted]
  rfl

/-- The counts after the small purchase. -/
theorem counts_cumulative_small :
    Small.bought.state.computeReconciliation.tokensIssued =
        (Small.bought.state.meters.map fun e => e.2.dispenses).sum ∧
      Small.bought.state.computeReconciliation.onChainRecords =
        Small.bought.state.deliveredAudit.length ∧
      Small.bought.state.series.Pairwise ReconciliationPoint.Below := by
  obtain ⟨-, hreceipts, -⟩ := small_bought_delivered
  obtain ⟨haccepters, hlisted⟩ := small_listed
  obtain ⟨hcounts, hseries⟩ := counts_cumulative (small_bought _ trivial)
    (by rw [hreceipts]; exact List.nodup_singleton _)
  have hkept : ∀ i ∈ Small.bought.state.accepters, i ∈ Small.bought.state.listed := fun i hi => by
    rwa [hlisted, ← haccepters]
  obtain ⟨htokens, hrecords⟩ := hcounts.mpr fun i hi _ => hkept i hi
  exact ⟨htokens, hrecords, hseries fun i hi _ => hkept i hi⟩

/-- The small purchase is delivered, and counts no more after a flood. -/
theorem counts_forgotten : ¬ ∀ c : CoordinatorPool (Store config) config,
    (singleGame Small.platform Small.coordinatorEnv Small.Works).Reaches (fun _ _ => True)
      (Store.boot config "2025-01-01T00:00:00.000Z" []) c → (c.state.receipts.map (·.2)).Nodup →
      c.state.computeReconciliation.tokensIssued =
          (c.state.meters.map fun e => e.2.dispenses).sum ∧
        c.state.computeReconciliation.onChainRecords = c.state.deliveredAudit.length := by
  intro hall
  obtain ⟨hstatus, hreceipts, haccepted, hhits, hmerchants, -⟩ := small_bought_delivered
  have hids := acceptedIds_small haccepted
  obtain ⟨hb, -⟩ := single_sound (small_bought (fun _ _ => True) trivial)
  obtain ⟨c, hreach, hnd, hforgotten⟩ := forgotten (small_bought _ trivial)
    (floodable_small hb.table hids hhits hmerchants) (by rw [hids]; exact List.nodup_singleton _)
    (by rw [hreceipts]; exact List.nodup_singleton _)
    (by rw [haccepted]; exact List.mem_singleton.mpr rfl) (ne_floodId (by decide)) hstatus
  exact hforgotten (hall c hreach hnd)

end NoGhost
