import NoGhost.Chain

/-!
# Counting Approvals

What `readApprovals` makes of an arbitrary history of the authority account. A member's
verdict is meant to be read off one memo: the first attestation of the request in the newest
transaction of the member that has one. The reader goes through the memos of all members in
one loop, so a memo it cannot digest ends the reading for everybody.

## Main results

* `readApprovals_exact`: when the approvals are read, and are those of the memos that count.
* `readApprovals_isolated`: the verdict of a member depends on the member's transactions alone.
-/

open Js

namespace NoGhost

variable (P : Platform) {cfg : Config}

/-! ### The memo that counts -/

/-- The memo attests to a request: it is an approval memo, and names the hash of that request. -/
def ParsedMemo.attests (requestHash : String) (m : ParsedMemo) : Bool :=
  m.kind = MemoKind.approval.text &&
    strictEq (m.data.get? "requestHash") (some (.str requestHash))

/-- The verdict of a memo; one without a verdict rejects. -/
def ParsedMemo.verdict (m : ParsedMemo) : Json :=
  match m.data.get? "verdict" with
  | none | some .null => .str "REJECT"
  | some v => v

/-- The memo that counts for a member: the first attestation of the request in the newest
transaction of the member that has one. -/
def countedMemo (M : ConsortiumManifest cfg) (requestHash : String) (txs : List LedgerTx)
    (id : cfg.SignerId) : Option ParsedMemo :=
  (txs.filter fun tx => M.signerAt tx.Account = some id).findSome? fun tx =>
    (parseMemos P tx.toTx).find? (·.attests requestHash)

/-- The approvals are one to each member that has a memo that counts, with the verdict of that memo:
nobody is missing, nobody is there twice, and nothing else is counted. -/
structure CountedExactly (M : ConsortiumManifest cfg) (requestHash : String)
    (txs : List LedgerTx) (approvals : List (ApprovalRecord cfg)) : Prop where
  nodup : (approvals.map (·.signerId)).Nodup
  complete : ∀ id m, countedMemo P M requestHash txs id = some m →
    ∃ a ∈ approvals, a.signerId = id
  counted : ∀ a ∈ approvals, ∃ m, countedMemo P M requestHash txs a.signerId = some m ∧
    a.verdict = m.verdict

/-- What the reader can digest: approval memos of members have data other than null, and the
reasons of the memos that count can be converted to strings. -/
structure Readable (M : ConsortiumManifest cfg) (requestHash : String)
    (txs : List LedgerTx) : Prop where
  data : ∀ tx ∈ txs, (M.signerAt tx.Account).isSome → ∀ m ∈ parseMemos P tx.toTx,
    m.kind = MemoKind.approval.text → m.data ≠ .null
  reasons : ∀ id m, countedMemo P M requestHash txs id = some m →
    ∃ reason, approvalReason P (m.data.get? "reason") = .ok reason

/-! ### One loop over all memos -/

/-- A memo in a transaction of a member, which is what the loop reads one at a time. -/
structure Post (cfg : Config) where
  signerId : cfg.SignerId
  tx : LedgerTx
  memo : ParsedMemo

/-- The memos of a transaction, when a member sent it. -/
def postsOf (M : ConsortiumManifest cfg) (tx : LedgerTx) : List (Post cfg) :=
  match M.signerAt tx.Account with
  | none => []
  | some signerId => (parseMemos P tx.toTx).map fun m => ⟨signerId, tx, m⟩

/-- The round of the loop for a post. -/
def readPost (requestHash : String) (out : List (ApprovalRecord cfg)) (p : Post cfg) :
    Except String (List (ApprovalRecord cfg)) :=
  readMemo P requestHash p.tx p.signerId out p.memo

/-- The first post of a member that attests to the request. -/
def firstPost (requestHash : String) (ps : List (Post cfg)) (id : cfg.SignerId) :
    Option (Post cfg) :=
  ps.find? fun p => p.signerId = id && p.memo.attests requestHash

variable {P} {M : ConsortiumManifest cfg} {requestHash : String}

/-- The two nested loops of `readApprovals` are one over the posts. -/
theorem readApprovals_eq_posts (txs : List LedgerTx) : readApprovals P M requestHash txs =
    (txs.flatMap (postsOf P M)).foldlM (readPost P requestHash) [] := by
  have hall : ∀ out : List (ApprovalRecord cfg), txs.foldlM (readTx P M requestHash) out =
      (txs.flatMap (postsOf P M)).foldlM (readPost P requestHash) out := by
    induction txs with
    | nil => exact fun out => rfl
    | cons tx txs ih =>
        intro out
        rw [List.foldlM_cons, List.flatMap_cons, List.foldlM_append]
        simp only [← ih]
        congr 1
        rw [readTx, postsOf]
        cases M.signerAt tx.Account with
        | none => rfl
        | some signerId =>
            change _ = List.foldlM _ out (List.map _ _)
            rw [List.foldlM_map]
            rfl
  exact hall []

theorem countedMemo_eq_firstPost (txs : List LedgerTx) (id : cfg.SignerId) :
    countedMemo P M requestHash txs id =
      (firstPost requestHash (txs.flatMap (postsOf P M)) id).map (·.memo) := by
  rw [countedMemo, firstPost, List.find?_flatMap]
  induction txs with
  | nil => rfl
  | cons tx txs ih =>
      have htx : ((postsOf P M tx).find? fun p => p.signerId = id && p.memo.attests requestHash)
          = if M.signerAt tx.Account = some id then
              ((parseMemos P tx.toTx).find? (·.attests requestHash)).map fun m => ⟨id, tx, m⟩
            else none := by
        rw [postsOf]
        split
        next h => simp [h]
        next signerId h =>
          have hposted : ((fun p : Post cfg => decide (p.signerId = id) &&
              p.memo.attests requestHash) ∘ fun m => ⟨signerId, tx, m⟩) =
                fun m => decide (signerId = id) && m.attests requestHash := rfl
          rw [List.find?_map, h, hposted]
          by_cases hid : signerId = id
          · subst hid
            simp
          · simp [hid]
      rw [List.findSome?_cons, htx]
      by_cases h : M.signerAt tx.Account = some id
      · rw [List.filter_cons_of_pos (by simpa using h), List.findSome?_cons, if_pos h]
        cases (parseMemos P tx.toTx).find? (·.attests requestHash) with
        | none => simpa using ih
        | some m => rfl
      · rw [List.filter_cons_of_neg (by simpa using h), if_neg h]
        exact ih

/-! ### What the loop does -/

/-- A property of what is not null may be read. -/
theorem prop_of_ne_null {v : Json} (h : v ≠ .null) (key : String) :
    prop (some v) key = .ok (v.get? key) := by
  cases v <;> first | rfl | exact absurd rfl h

/-- What a post must satisfy to be digested, after those that came before. -/
def Digestible (P : Platform) (requestHash : String) (ps : List (Post cfg)) (p : Post cfg) :
    Prop :=
  (p.memo.kind = MemoKind.approval.text → p.memo.data ≠ .null) ∧
    (p.memo.attests requestHash = true → firstPost requestHash ps p.signerId = none →
      ∃ reason, approvalReason P (p.memo.data.get? "reason") = .ok reason)

/-- What the loop has collected from the posts so far: one entry to each member that has attested,
made of the first attestation among its posts. -/
structure CollectedFrom (requestHash : String) (ps : List (Post cfg))
    (out : List (ApprovalRecord cfg)) : Prop where
  nodup : (out.map (·.signerId)).Nodup
  complete : ∀ id, (firstPost requestHash ps id).isSome ↔ id ∈ out.map (·.signerId)
  counted : ∀ a ∈ out, ∃ p, firstPost requestHash ps a.signerId = some p ∧
    a.verdict = p.memo.verdict

/-- The first attestation of a member stays the first as posts are added. -/
theorem firstPost_concat (ps : List (Post cfg)) (p : Post cfg) (id : cfg.SignerId) :
    firstPost requestHash (ps ++ [p]) id = (firstPost requestHash ps id).or
      (if p.signerId = id ∧ p.memo.attests requestHash = true then some p else none) := by
  rw [firstPost, List.find?_append, firstPost, List.find?_singleton]
  simp

/-- A post that attests to nothing, or whose member has an entry, changes nothing. -/
theorem CollectedFrom.skip {ps : List (Post cfg)} {out : List (ApprovalRecord cfg)}
    (h : CollectedFrom requestHash ps out) {p : Post cfg}
    (hp : p.memo.attests requestHash = true → p.signerId ∈ out.map (·.signerId)) :
    CollectedFrom requestHash (ps ++ [p]) out := by
  have hsame : ∀ id, firstPost requestHash (ps ++ [p]) id = firstPost requestHash ps id := by
    intro id
    rw [firstPost_concat]
    split
    next hmatch =>
      have hsome := (h.complete id).mpr (hmatch.1 ▸ hp hmatch.2)
      obtain ⟨q, hq⟩ := Option.isSome_iff_exists.mp hsome
      rw [hq, Option.some_or]
    next => rw [Option.or_none]
  refine ⟨h.nodup, fun id => ?_, fun a ha => ?_⟩
  · rw [hsame]
    exact h.complete id
  · rw [hsame]
    exact h.counted a ha

/-- The first attestation of a member is its entry. -/
theorem CollectedFrom.add {ps : List (Post cfg)} {out : List (ApprovalRecord cfg)}
    (h : CollectedFrom requestHash ps out) {p : Post cfg}
    (hp : p.memo.attests requestHash = true) (hnew : p.signerId ∉ out.map (·.signerId))
    {a : ApprovalRecord cfg} (hid : a.signerId = p.signerId)
    (hverdict : a.verdict = p.memo.verdict) :
    CollectedFrom requestHash (ps ++ [p]) (out ++ [a]) := by
  have hnone : firstPost requestHash ps p.signerId = none := by
    rw [← Option.not_isSome_iff_eq_none, h.complete]
    exact hnew
  refine ⟨?_, fun id => ?_, fun b hb => ?_⟩
  · rw [List.map_append, List.map_singleton, ← List.concat_eq_append]
    exact h.nodup.concat (hid ▸ hnew)
  · rw [firstPost_concat, Option.isSome_or, Bool.or_eq_true, h.complete, List.map_append,
      List.mem_append, List.map_singleton, List.mem_singleton, hid]
    refine or_congr_right ?_
    split
    next hmatch => exact iff_of_true rfl hmatch.1.symm
    next hmatch => exact iff_of_false Bool.false_ne_true fun heq => hmatch ⟨heq.symm, hp⟩
  · rw [firstPost_concat]
    rcases List.mem_append.mp hb with hb | hb
    · obtain ⟨q, hq, hv⟩ := h.counted b hb
      exact ⟨q, by rw [hq, Option.some_or], hv⟩
    · obtain rfl := List.mem_singleton.mp hb
      rw [hid, hnone, if_pos ⟨rfl, hp⟩]
      exact ⟨p, rfl, hverdict⟩

/-- **A round of the loop.** It succeeds exactly on a digestible post, and keeps what is
collected. -/
theorem readPost_spec {ps : List (Post cfg)} {out : List (ApprovalRecord cfg)}
    (h : CollectedFrom requestHash ps out) (p : Post cfg) :
    match readPost P requestHash out p with
    | .ok out' => Digestible P requestHash ps p ∧ CollectedFrom requestHash (ps ++ [p]) out'
    | .error _ => ¬ Digestible P requestHash ps p := by
  rw [readPost, readMemo]
  by_cases hkind : p.memo.kind = MemoKind.approval.text
  · rw [if_pos hkind]
    by_cases hnull : p.memo.data = .null
    · rw [hnull]
      exact fun hd => hd.1 hkind hnull
    · rw [prop_of_ne_null hnull]
      change match (if _ then _ else _ : Except String (List (ApprovalRecord cfg))) with
        | .ok _ => _
        | .error _ => _
      have hattests : p.memo.attests requestHash =
          strictEq (p.memo.data.get? "requestHash") (some (.str requestHash)) := by
        rw [ParsedMemo.attests, hkind]
        simp
      have hany : (out.any fun a => a.signerId = p.signerId) = true ↔
          p.signerId ∈ out.map (·.signerId) := by
        simp
      rw [← hattests]
      by_cases hcond : p.memo.attests requestHash = true ∧
          ¬ p.signerId ∈ out.map (·.signerId)
      · have hfresh : (out.any fun a => a.signerId = p.signerId) = false := by
          rw [← Bool.not_eq_true, hany]
          exact hcond.2
        simp only [hcond.1, hfresh, prop_of_ne_null hnull, Bool.not_false, Bool.and_self,
          if_true, bind, Except.bind]
        cases hreason : approvalReason P (p.memo.data.get? "reason") with
        | ok reason =>
            exact ⟨⟨fun _ => hnull, fun _ _ => ⟨reason, hreason⟩⟩, h.add hcond.1 hcond.2 rfl rfl⟩
        | error e =>
            intro hd
            have hnone : firstPost requestHash ps p.signerId = none := by
              rw [← Option.not_isSome_iff_eq_none, h.complete]
              exact hcond.2
            obtain ⟨reason, hok⟩ := hd.2 hcond.1 hnone
            rw [hreason] at hok
            cases hok
      · rw [not_and_not_right] at hcond
        have hskip : (p.memo.attests requestHash &&
            !out.any fun a => a.signerId = p.signerId) = false := by
          cases hatt : p.memo.attests requestHash
          · rfl
          · rw [hany.mpr (hcond hatt)]
            rfl
        simp only [hskip, Bool.false_eq_true, if_false]
        refine ⟨⟨fun _ => hnull, fun hatt hnone => ?_⟩, h.skip hcond⟩
        have := (h.complete p.signerId).mpr (hcond hatt)
        rw [hnone] at this
        cases this
  · rw [if_neg hkind]
    have hattests : p.memo.attests requestHash = false := by
      rw [ParsedMemo.attests, decide_eq_false hkind, Bool.false_and]
    refine ⟨⟨fun hk => absurd hk hkind, fun ha => ?_⟩, h.skip fun ha => ?_⟩ <;>
      (rw [hattests] at ha; cases ha)

/-- All posts can be digested, so that no round of the loop raises: no approval memo has null for
its data, and the reason of every attestation that counts has a text. -/
structure AllDigestible (P : Platform) (requestHash : String) (ps : List (Post cfg)) : Prop where
  data : ∀ p ∈ ps, p.memo.kind = MemoKind.approval.text → p.memo.data ≠ .null
  reasons : ∀ id p, firstPost requestHash ps id = some p →
    ∃ reason, approvalReason P (p.memo.data.get? "reason") = .ok reason

/-- Posts can be digested where all but the last and the last can. -/
theorem allDigestible_concat (ps : List (Post cfg)) (p : Post cfg) :
    AllDigestible P requestHash (ps ++ [p]) ↔
      AllDigestible P requestHash ps ∧ Digestible P requestHash ps p := by
  constructor
  · intro h
    refine ⟨⟨fun q hq => h.data q (List.mem_append_left _ hq), fun id q hq => ?_⟩,
      h.data p (by simp), fun hatt hnone => ?_⟩
    · exact h.reasons id q (by rw [firstPost_concat, hq, Option.some_or])
    · exact h.reasons p.signerId p (by rw [firstPost_concat, hnone, if_pos ⟨rfl, hatt⟩]; rfl)
  · rintro ⟨h, hp⟩
    refine ⟨fun q hq => ?_, fun id q hq => ?_⟩
    · rcases List.mem_append.mp hq with hq | hq
      · exact h.data q hq
      · exact List.mem_singleton.mp hq ▸ hp.1
    · rw [firstPost_concat, Option.or_eq_some_iff] at hq
      rcases hq with hq | ⟨hnone, hq⟩
      · exact h.reasons id q hq
      · split at hq
        next hmatch =>
          cases hq
          exact hp.2 hmatch.2 (hmatch.1 ▸ hnone)
        next => cases hq

/-- **The loop.** It succeeds exactly when all posts can be digested. Induction on the posts,
the last one last. -/
theorem foldlM_readPost (ps : List (Post cfg)) :
    match ps.foldlM (readPost P requestHash) [] with
    | .ok out => AllDigestible P requestHash ps ∧ CollectedFrom requestHash ps out
    | .error _ => ¬ AllDigestible P requestHash ps := by
  induction ps using List.reverseRecOn with
  | nil =>
      exact ⟨⟨fun _ h => (nomatch h), fun _ _ h => (nomatch h)⟩,
        List.nodup_nil, fun id => by simp [firstPost], fun _ h => (nomatch h)⟩
  | append_singleton ps p ih =>
      rw [List.foldlM_append, allDigestible_concat]
      cases hread : ps.foldlM (readPost P requestHash) [] with
      | error e =>
          rw [hread] at ih
          exact fun h => ih h.1
      | ok out =>
          rw [hread] at ih
          obtain ⟨hall, hout⟩ := ih
          have hstep := readPost_spec (P := P) hout p
          change match ([p].foldlM (readPost P requestHash) out) with
            | .ok _ => _
            | .error _ => _
          rw [List.foldlM_cons]
          cases hp : readPost P requestHash out p with
          | ok out' =>
              rw [hp] at hstep
              exact ⟨⟨hall, hstep.1⟩, hstep.2⟩
          | error e =>
              rw [hp] at hstep
              exact fun h => hstep h.2

/-! ### Exactness -/

/-- Transactions are readable where their posts can be digested. -/
theorem readable_iff (txs : List LedgerTx) : Readable P M requestHash txs ↔
    AllDigestible P requestHash (txs.flatMap (postsOf P M)) := by
  have hmem : ∀ p : Post cfg, p ∈ txs.flatMap (postsOf P M) ↔
      p.tx ∈ txs ∧ M.signerAt p.tx.Account = some p.signerId ∧ p.memo ∈ parseMemos P p.tx.toTx := by
    intro p
    rw [List.mem_flatMap]
    constructor
    · rintro ⟨tx, htx, hp⟩
      rw [postsOf] at hp
      split at hp
      · cases hp
      next id hid =>
        obtain ⟨m, hm, rfl⟩ := List.mem_map.mp hp
        exact ⟨htx, hid, hm⟩
    · rintro ⟨htx, hid, hm⟩
      refine ⟨p.tx, htx, ?_⟩
      rw [postsOf, hid]
      exact List.mem_map.mpr ⟨p.memo, hm, rfl⟩
  constructor
  · intro h
    refine ⟨fun p hp hkind => ?_, fun id p hp => ?_⟩
    · obtain ⟨htx, hid, hm⟩ := (hmem p).mp hp
      exact h.data p.tx htx (by rw [hid]; rfl) p.memo hm hkind
    · exact h.reasons id p.memo (by rw [countedMemo_eq_firstPost, hp]; rfl)
  · intro h
    refine ⟨fun tx htx hsome m hm hkind => ?_, fun id m hm => ?_⟩
    · obtain ⟨id, hid⟩ := Option.isSome_iff_exists.mp hsome
      exact h.data ⟨id, tx, m⟩ ((hmem _).mpr ⟨htx, hid, hm⟩) hkind
    · rw [countedMemo_eq_firstPost, Option.map_eq_some_iff] at hm
      obtain ⟨p, hp, rfl⟩ := hm
      exact h.reasons id p hp

/-- What is collected from the posts is what the transactions count. -/
theorem CollectedFrom.countedExactly {txs : List LedgerTx} {out : List (ApprovalRecord cfg)}
    (h : CollectedFrom requestHash (txs.flatMap (postsOf P M)) out) :
    CountedExactly P M requestHash txs out := by
  refine ⟨h.nodup, fun id m hm => ?_, fun a ha => ?_⟩
  · rw [countedMemo_eq_firstPost, Option.map_eq_some_iff] at hm
    obtain ⟨p, hp, -⟩ := hm
    exact List.mem_map.mp ((h.complete id).mp (by rw [hp]; rfl))
  · obtain ⟨p, hp, hv⟩ := h.counted a ha
    exact ⟨p.memo, by rw [countedMemo_eq_firstPost, hp]; rfl, hv⟩

/-- **Exactness.** The approvals are read, and are those of the memos that count, exactly when
the reader can digest the memos of all members. -/
theorem readApprovals_exact (P : Platform) (M : ConsortiumManifest cfg) (requestHash : String)
    (txs : List LedgerTx) :
    (∃ approvals, readApprovals P M requestHash txs = .ok approvals ∧
      CountedExactly P M requestHash txs approvals) ↔ Readable P M requestHash txs := by
  have hloop := @foldlM_readPost P cfg requestHash (txs.flatMap (postsOf P M))
  rw [← readApprovals_eq_posts, ← readable_iff] at hloop
  cases hread : readApprovals P M requestHash txs with
  | ok approvals =>
      rw [hread] at hloop
      exact iff_of_true ⟨approvals, rfl, hloop.2.countedExactly⟩ hloop.1
  | error e =>
      rw [hread] at hloop
      exact iff_of_false (fun ⟨_, h, _⟩ => nomatch h) hloop

/-- **Isolation.** The memo that counts for a member is that of the member's own transactions, so
that whatever the others post can neither add to it nor take it away. -/
theorem readApprovals_isolated {txs txs' : List LedgerTx} {id : cfg.SignerId}
    (h : txs.filter (fun tx => M.signerAt tx.Account = some id) =
      txs'.filter fun tx => M.signerAt tx.Account = some id) :
    countedMemo P M requestHash txs id = countedMemo P M requestHash txs' id := by
  rw [countedMemo, h, countedMemo]

/-! ### A history that cannot be read -/

namespace Small

/-- A consortium of two members. -/
def twoMembers : ConsortiumManifest config where
  authority := "rAuthority"
  quorum := 2
  members := [(.utility, "rU"), (.cityA, "rA")]

/-- An attestation of the utility. -/
def vote : LedgerTx where
  toTx := approvalTx platform "rU" "utility" "ab" .APPROVE none
  hash := "T1"

/-- A memo of kind approval whose data is `null`, in a transaction of the other member. -/
def nullMemo : LedgerTx where
  Account := "rA"
  Memos := [memo platform .approval .null]
  hash := "T2"

end Small

/-- One member's memo keeps the vote of another from being read. -/
theorem readApprovals_stuck_small :
    (readApprovals Small.platform Small.twoMembers "ab" [Small.vote]).toOption.map
        (·.map fun a => config.idText a.signerId) = some ["utility"] ∧
      (readApprovals Small.platform Small.twoMembers "ab"
        [Small.nullMemo, Small.vote]).toOption.isNone = true := by
  decide +kernel

end NoGhost
