import NoGhost.Coordinator.Store

/-!
# Reconciliation

What `computeReconciliation` counts. The three counts are read off the records of the store's
table: the tokens of the delivered records, their debits together with the debits that are
stuck, and their receipts. A divergence is a difference between the counts, so two faults can
hide each other: every surplus token on one debit lowers the count of debits by one, and every
stuck debit raises it by one.

## Main results

* `computeReconciliation_eq`: the counts, as lengths of lists of distinct references.
* `delta_eq_zero_iff`: the counts agree.
* `delta_exact`: when a difference of zero means that there is no fault.
-/

open Js

namespace NoGhost

/-! ### Distinct references -/

/-- A set made of references, as the code makes one by adding each that it has not got. -/
def distinct (refs : List (Option Json)) : List (Option Json) := refs.foldl Store.insertRef []

/-- A set with one more reference has it and what it had. -/
theorem mem_insertRef {refs : List (Option Json)} {ref x : Option Json} :
    x ∈ Store.insertRef refs ref ↔ x ∈ refs ∨ x = ref := by
  rw [Store.insertRef]
  split
  next h =>
    rw [List.contains_eq_any_beq, List.any_eq_true] at h
    obtain ⟨y, hy, hbeq⟩ := h
    obtain rfl := eq_of_beq_ref hbeq
    exact ⟨.inl, fun hx => hx.elim id (· ▸ hy)⟩
  next => simp

/-- A set with more references has them and what it had. -/
theorem mem_foldl_insertRef {refs acc : List (Option Json)} {x : Option Json} :
    x ∈ refs.foldl Store.insertRef acc ↔ x ∈ acc ∨ x ∈ refs := by
  induction refs generalizing acc with
  | nil => simp
  | cons ref refs ih => rw [List.foldl_cons, ih, mem_insertRef, List.mem_cons, or_assoc]

/-- A set has what it was made of. -/
theorem mem_distinct {refs : List (Option Json)} {x : Option Json} :
    x ∈ distinct refs ↔ x ∈ refs := by
  rw [distinct, mem_foldl_insertRef]
  simp

/-- Two lists with the same members contain the same references. -/
theorem contains_congr {refs refs' : List (Option Json)} (h : ∀ x, x ∈ refs ↔ x ∈ refs')
    (x : Option Json) : refs.contains x = refs'.contains x := by
  rw [Bool.eq_iff_iff, List.contains_eq_any_beq, List.contains_eq_any_beq, List.any_eq_true,
    List.any_eq_true]
  exact exists_congr fun y => and_congr_left' (h y)

/-- Whether a set with one more reference has another one. -/
theorem contains_insertRef (refs : List (Option Json)) (ref x : Option Json) :
    (Store.insertRef refs ref).contains x = (refs.contains x || x == ref) := by
  have hmem : ∀ y, y ∈ Store.insertRef refs ref ↔ y ∈ refs ++ [ref] := fun y => by
    rw [mem_insertRef, List.mem_append, List.mem_singleton]
  rw [contains_congr hmem, List.contains_eq_any_beq, List.any_append, List.contains_eq_any_beq]
  simp

/-- A set has at most as many references as it was made of, and as many only where they are
distinct. -/
theorem foldl_insertRef_length (refs acc : List (Option Json)) :
    (refs.foldl Store.insertRef acc).length ≤ acc.length + refs.length ∧
      ((refs.foldl Store.insertRef acc).length = acc.length + refs.length ↔
        (∀ ref ∈ refs, acc.contains ref = false) ∧
          refs.Pairwise fun a b => (a == b) = false) := by
  induction refs generalizing acc with
  | nil => simp
  | cons ref refs ih =>
      obtain ⟨hle, hiff⟩ := ih (Store.insertRef acc ref)
      rw [List.foldl_cons, List.length_cons, List.forall_mem_cons, List.pairwise_cons]
      cases hmem : acc.contains ref
      · have hlen : (Store.insertRef acc ref).length = acc.length + 1 := by
          rw [Store.insertRef, hmem]
          simp
        rw [hlen] at hle hiff
        refine ⟨by omega, ?_⟩
        rw [show acc.length + (refs.length + 1) = acc.length + 1 + refs.length by omega, hiff]
        simp only [contains_insertRef, Bool.or_eq_false_iff, true_and]
        rw [forall₂_and, and_assoc]
        simp only [beq_ref_comm _ ref]
      · have hsame : Store.insertRef acc ref = acc := by rw [Store.insertRef, if_pos hmem]
        rw [hsame] at hle hiff ⊢
        refine ⟨by omega, iff_of_false (by omega) fun h => nomatch h.1.1⟩

/-- A set is no larger than the list it was made of. -/
theorem length_distinct_le (refs : List (Option Json)) : (distinct refs).length ≤ refs.length := by
  simpa [distinct] using (foldl_insertRef_length refs []).1

/-- Nothing is lost exactly if no two references are equal. -/
theorem length_distinct_eq_iff (refs : List (Option Json)) :
    (distinct refs).length = refs.length ↔ refs.Pairwise fun a b => (a == b) = false := by
  simpa [distinct] using (foldl_insertRef_length refs []).2

/-- The same for the strings that `computeReconciliation` collects. -/
theorem foldl_insert_length (hashes acc : List String) :
    (hashes.foldl (fun acc h => acc.insert h) acc).length ≤ acc.length + hashes.length ∧
      ((hashes.foldl (fun acc h => acc.insert h) acc).length = acc.length + hashes.length ↔
        (∀ h ∈ hashes, h ∉ acc) ∧ hashes.Nodup) := by
  induction hashes generalizing acc with
  | nil => simp
  | cons h hashes ih =>
      obtain ⟨hle, hiff⟩ := ih (acc.insert h)
      rw [List.foldl_cons, List.length_cons, List.forall_mem_cons, List.nodup_cons]
      by_cases hmem : h ∈ acc
      · rw [List.insert_of_mem hmem] at hle hiff ⊢
        exact ⟨by omega, iff_of_false (by omega) fun h => h.1.1 hmem⟩
      · rw [List.length_insert_of_not_mem hmem] at hle hiff
        refine ⟨by omega, ?_⟩
        rw [show acc.length + (hashes.length + 1) = acc.length + 1 + hashes.length by omega, hiff]
        simp only [List.mem_insert_iff, not_or]
        constructor
        · rintro ⟨hall, hnd⟩
          exact ⟨⟨hmem, fun x hx => (hall x hx).2⟩, fun hh => (hall h hh).1 rfl, hnd⟩
        · rintro ⟨⟨-, hall⟩, hh, hnd⟩
          exact ⟨fun x hx => ⟨fun he => hh (he ▸ hx), hall x hx⟩, hnd⟩

/-! ### What is counted -/

section Counted

variable {cfg : Config}

/-- The records of the store's table, over which the reconciliation counts. -/
def Store.records (s : Store cfg) : List (PipelineRecord cfg) := s.requests.map fun e => s.heap e.2

/-- The delivered records, for which a token was issued. -/
def delivered (rs : List (PipelineRecord cfg)) : List (PipelineRecord cfg) :=
  rs.filter fun r => r.status = .DELIVERED

/-- The reference of a record's debit, where there is a debit. -/
def PipelineRecord.debitRef? (r : PipelineRecord cfg) : Option (Option Json) :=
  r.debit.map (·.get? "debitRef")

/-- The debit references of the delivered records, one for each. -/
def deliveredRefs (rs : List (PipelineRecord cfg)) : List (Option Json) :=
  (delivered rs).filterMap (·.debitRef?)

/-- The receipts of the delivered records, by their hashes. -/
def deliveredHashes (rs : List (PipelineRecord cfg)) : List String :=
  (delivered rs).filterMap fun r => r.ledger.map (·.txHash)

/-- The debits of the abandoned records that were not reversed. -/
def unreversedRefs (rs : List (PipelineRecord cfg)) : List (Option Json) :=
  (rs.filter fun r => r.status = .REJECTED_ABANDONED ∧ r.debitReversed ≠ some true).filterMap
    (·.debitRef?)

/-- The debits that back no token: those that are unreversed, and not of a delivered record. -/
def stuckRefs (rs : List (PipelineRecord cfg)) : List (Option Json) :=
  (distinct (unreversedRefs rs)).filter fun ref => !(deliveredRefs rs).contains ref

/-- The loop over the records adds to each of its counts. Induction on the records. -/
theorem foldl_tally (rs : List (PipelineRecord cfg)) (a : Store.Tally) :
    rs.foldl Store.tally a =
      { tokens := a.tokens + ((delivered rs).filter (·.token.isSome)).length
        deliveredDebitRefs := (deliveredRefs rs).foldl Store.insertRef a.deliveredDebitRefs
        deliveredTxHashes :=
          (deliveredHashes rs).foldl (fun acc h => acc.insert h) a.deliveredTxHashes
        stuckDebitRefs := (unreversedRefs rs).foldl Store.insertRef a.stuckDebitRefs } := by
  induction rs generalizing a with
  | nil => rfl
  | cons r rs ih =>
      rw [List.foldl_cons, ih]
      rcases r with ⟨request, status, history, debit, reversed, publication, approvals, signerSet,
        token, ledger, rejection, meter⟩
      cases status with
      | DELIVERED =>
          cases debit <;> cases token <;> cases ledger <;>
            simp [Store.tally, delivered, deliveredRefs, deliveredHashes, unreversedRefs,
              PipelineRecord.debitRef?, Nat.add_assoc, Nat.add_comm 1]
      | REJECTED_ABANDONED =>
          cases debit with
          | none => simp [Store.tally, delivered, deliveredRefs, deliveredHashes, unreversedRefs,
              PipelineRecord.debitRef?, List.filter_cons, apply_ite]
          | some debit =>
              by_cases hrev : reversed = some true <;>
                simp [Store.tally, delivered, deliveredRefs, deliveredHashes, unreversedRefs,
                  PipelineRecord.debitRef?, hrev]
      | _ => simp [Store.tally, delivered, deliveredRefs, deliveredHashes, unreversedRefs]

/-- **What is counted**, as lengths of lists that the records of the table make. -/
theorem computeReconciliation_eq (s : Store cfg) :
    s.computeReconciliation.tokensIssued =
        ((delivered s.records).filter (·.token.isSome)).length ∧
      s.computeReconciliation.confirmedDebits =
        (distinct (deliveredRefs s.records)).length + (stuckRefs s.records).length ∧
      s.computeReconciliation.onChainRecords =
        ((deliveredHashes s.records).foldl (fun acc h => acc.insert h) []).length := by
  have hfold := foldl_tally s.records ⟨0, [], [], []⟩
  simp only [Store.records] at hfold
  simp only [Store.computeReconciliation, hfold, Nat.zero_add, Store.records, stuckRefs]
  refine ⟨trivial, ?_, trivial⟩
  congr 2
  exact List.filter_congr fun ref _ => congrArg _ (contains_congr (fun x => mem_distinct) ref)

/-- A delivered record has its token, its debit and its receipt. -/
def PipelineRecord.Complete (r : PipelineRecord cfg) : Prop :=
  r.token.isSome ∧ r.debit.isSome ∧ r.ledger.isSome

/-- No two delivered records share a debit or a receipt, and every unreversed debit of an
abandoned record is that of a delivered one. -/
structure Faultless (rs : List (PipelineRecord cfg)) : Prop where
  debits : (deliveredRefs rs).Pairwise fun a b => (a == b) = false
  receipts : (deliveredHashes rs).Nodup
  reversed : ∀ ref ∈ unreversedRefs rs, (deliveredRefs rs).contains ref = true

/-- The delivered records in excess of the debits behind them. -/
def surplus (rs : List (PipelineRecord cfg)) : ℕ :=
  (delivered rs).length - (distinct (deliveredRefs rs)).length

section

variable {rs : List (PipelineRecord cfg)}

/-- Where delivered records are complete, each counts once as a token, a debit and a receipt. -/
theorem length_of_complete (h : ∀ r ∈ rs, r.status = .DELIVERED → r.Complete) :
    ((delivered rs).filter (·.token.isSome)).length = (delivered rs).length ∧
      (deliveredRefs rs).length = (delivered rs).length ∧
      (deliveredHashes rs).length = (delivered rs).length := by
  have hall : ∀ r ∈ delivered rs, r.Complete := fun r hr => by
    obtain ⟨hmem, hstatus⟩ := List.mem_filter.mp hr
    exact h r hmem (by simpa using hstatus)
  have hmap : ∀ {β : Type} (f : PipelineRecord cfg → Option β),
      (∀ r ∈ delivered rs, (f r).isSome) →
      ((delivered rs).filterMap f).length = (delivered rs).length := by
    intro β f hf
    rw [List.length_filterMap_eq_countP, List.countP_eq_length]
    exact hf
  refine ⟨?_, hmap _ fun r hr => ?_, hmap _ fun r hr => ?_⟩
  · rw [List.filter_eq_self.mpr fun r hr => (hall r hr).1]
  · rw [PipelineRecord.debitRef?, Option.isSome_map]
    exact (hall r hr).2.1
  · rw [Option.isSome_map]
    exact (hall r hr).2.2

/-- No debit is stuck where every unreversed one was delivered. -/
theorem stuckRefs_eq_nil_iff : (stuckRefs rs).length = 0 ↔
    ∀ ref ∈ unreversedRefs rs, (deliveredRefs rs).contains ref = true := by
  rw [List.length_eq_zero_iff, stuckRefs, List.filter_eq_nil_iff]
  simp only [mem_distinct, Bool.not_eq_true, Bool.not_eq_false']

end

/-- The delta is 0 where as many tokens as debits were counted. -/
theorem delta_eq_zero_iff (s : Store cfg) : s.computeReconciliation.delta = 0 ↔
    s.computeReconciliation.tokensIssued = s.computeReconciliation.confirmedDebits ∧
      s.computeReconciliation.tokensIssued = s.computeReconciliation.onChainRecords := by
  simp only [Store.computeReconciliation, Nat.max_eq_zero_iff]
  omega

/-- **What the monitor sees.** Of complete records the difference is zero exactly if every
surplus token is made up for by a stuck debit, and no two receipts are one. -/
theorem delta_eq_zero_iff_of_complete {s : Store cfg}
    (h : ∀ r ∈ s.records, r.status = .DELIVERED → r.Complete) :
    s.computeReconciliation.delta = 0 ↔
      surplus s.records = (stuckRefs s.records).length ∧ (deliveredHashes s.records).Nodup := by
  obtain ⟨htokens, hrefs, hhashes⟩ := length_of_complete h
  obtain ⟨ht, hd, hc⟩ := computeReconciliation_eq s
  have hle := length_distinct_le (deliveredRefs s.records)
  obtain ⟨hle', hnodup⟩ := foldl_insert_length (deliveredHashes s.records) []
  simp only [List.not_mem_nil, not_false_eq_true, implies_true, true_and, List.length_nil,
    Nat.zero_add] at hle' hnodup
  rw [delta_eq_zero_iff, ht, hd, hc, htokens, ← hnodup, surplus]
  omega

/-- Records without a fault have no surplus of tokens and no stuck debit. -/
theorem faultless_iff {rs : List (PipelineRecord cfg)}
    (h : ∀ r ∈ rs, r.status = .DELIVERED → r.Complete) :
    Faultless rs ↔ surplus rs = 0 ∧ (stuckRefs rs).length = 0 ∧ (deliveredHashes rs).Nodup := by
  have hle := length_distinct_le (deliveredRefs rs)
  have hrefs := (length_of_complete h).2.1
  have hdebits : surplus rs = 0 ↔ (deliveredRefs rs).Pairwise fun a b => (a == b) = false := by
    rw [← length_distinct_eq_iff, surplus]
    omega
  rw [hdebits, stuckRefs_eq_nil_iff]
  exact ⟨fun hf => ⟨hf.debits, hf.reversed, hf.receipts⟩, fun hf => ⟨hf.1, hf.2.2, hf.2.1⟩⟩

/-- **Exactness of the monitor.** A difference of zero means that there is no fault, unless
all receipts are distinct and there are as many surplus tokens as stuck debits, and some. -/
theorem delta_exact {s : Store cfg} (h : ∀ r ∈ s.records, r.status = .DELIVERED → r.Complete) :
    (s.computeReconciliation.delta = 0 ↔ Faultless s.records) ↔
      ¬ (0 < surplus s.records ∧ surplus s.records = (stuckRefs s.records).length ∧
        (deliveredHashes s.records).Nodup) := by
  rw [delta_eq_zero_iff_of_complete h, faultless_iff h]
  by_cases hnd : (deliveredHashes s.records).Nodup
  · simp only [hnd, and_true]
    omega
  · simp only [hnd, and_false, not_false_eq_true]

end Counted

/-! ### Small instances -/

namespace Small

/-- A delivered record, with its debit reference and its receipt. -/
def deliveredRecord (debitRef txHash : String) : PipelineRecord config :=
  { PipelineRecord.new config ⟨"", "", 0, "", ""⟩ with
    status := .DELIVERED
    debit := some (object [("debitRef", some (.str debitRef))])
    token := some ⟨⟨none, none, some (.str debitRef), ""⟩, ""⟩
    ledger := some ⟨"", "", "", [], "", txHash, true, ""⟩ }

/-- An abandoned record whose debit could not be reversed. -/
def unreversedRecord (debitRef : String) : PipelineRecord config :=
  { PipelineRecord.new config ⟨"", "", 0, "", ""⟩ with
    status := .REJECTED_ABANDONED
    debit := some (object [("debitRef", some (.str debitRef))])
    debitReversed := some false }

/-- A store with some records in its table. -/
def storeOf (rs : List (PipelineRecord config)) : Store config :=
  { Store.boot config "" [] with
    heap := fun i => rs.getD i (.new config ⟨"", "", 0, "", ""⟩)
    requests := rs.mapIdx fun i _ => (toString i, i) }

end Small

/-- One delivery and one failed reversal: the monitor sees it. -/
theorem delta_exact_small :
    let s := Small.storeOf [Small.deliveredRecord "DBT-1" "A", Small.unreversedRecord "DBT-2"]
    s.computeReconciliation.delta = 0 ↔ Faultless s.records := by
  intro s
  refine (delta_exact (s := s) fun r hr hstatus => ?_).mpr (by decide +kernel)
  change r ∈ [Small.deliveredRecord "DBT-1" "A", Small.unreversedRecord "DBT-2"] at hr
  simp only [List.mem_cons, List.not_mem_nil, or_false] at hr
  rcases hr with rfl | rfl
  · exact ⟨rfl, rfl, rfl⟩
  · cases hstatus

/-- Two tokens for one debit, and a debit that backs none: the monitor reads zero. -/
theorem delta_blind_small :
    let s := Small.storeOf [Small.deliveredRecord "DBT-1" "A", Small.deliveredRecord "DBT-1" "B",
      Small.unreversedRecord "DBT-2"]
    (∀ r ∈ s.records, r.status = .DELIVERED → r.Complete) ∧
      s.computeReconciliation.delta = 0 ∧ ¬ Faultless s.records := by
  intro s
  refine ⟨fun r hr hstatus => ?_, by decide +kernel, fun h => ?_⟩
  · change r ∈ [_, _, _] at hr
    simp only [List.mem_cons, List.not_mem_nil, or_false] at hr
    rcases hr with rfl | rfl | rfl
    · exact ⟨rfl, rfl, rfl⟩
    · exact ⟨rfl, rfl, rfl⟩
    · cases hstatus
  · exact absurd h.debits (by decide +kernel)

end NoGhost
