import NoGhost.Canonical
import NoGhost.Config

/-!
# On-Chain Primitives

The model of `common/chain.ts`: requests travel as encrypted blobs in a memo, members attest
in a JSON memo of their own transaction, and anybody reads the attestations back off the
history of the authority account. Whatever is on the ledger was put there by somebody, so a
memo may hold any bytes: a memo that cannot be parsed is skipped, but a parsed one may still
make the reader raise.

The network answers of the ledger client are awaited by the services; this module has what
they compute from the answers.

## Main results

* `unpackRequest_packRequest`: a published request is read back.
* `readApprovals_nodup`, `readApprovals_mem`: there is one approval record to a member, and
  each comes from a memo in a transaction of that member's account.
* `parseMemo_memo`: what a member's own memo says to a reader.
-/

open Js

namespace NoGhost

/-! ### Transactions -/

/-- The kinds of memos, one for each thing that is put on the ledger. -/
inductive MemoKind
  | request
  | approval
  | receipt
  deriving DecidableEq

/-- The text of a kind, as the memo type encodes it. -/
def MemoKind.text : MemoKind → String
  | request => "noghost/request"
  | approval => "noghost/approval"
  | receipt => "noghost/receipt"

/-- A memo of a transaction: its type and its data in hexadecimal, each of which may be missing. -/
structure Memo where
  MemoType : Option String
  MemoData : Option String
  deriving DecidableEq

/-- A transaction to the authority account, of which its sender and its memos are read. -/
structure Tx where
  Account : String
  Memos : List Memo
  deriving DecidableEq

/-- A validated transaction, with the hash under which it is found. -/
structure LedgerTx extends Tx where
  hash : String
  deriving DecidableEq

/-- The manifest of the consortium: its inbox account, its quorum, and the accounts of its members,
by which a transaction is told to be a member's. -/
structure ConsortiumManifest (cfg : Config) where
  authority : String
  quorum : ℕ
  members : List (cfg.SignerId × String)

/-- `addrToId.get(address)`: of two members with one address the later one counts. -/
def ConsortiumManifest.signerAt {cfg : Config} (M : ConsortiumManifest cfg) (address : String) :
    Option cfg.SignerId :=
  (M.members.reverse.find? fun m => m.2 = address).map (·.1)

variable (P : Platform)

/-! ### Request encryption -/

/-- `packRequest` with the drawn nonce `iv`: hash, nonce, tag and ciphertext. -/
def packRequest (encKey iv : Bytes) (requestHash : String) (obj : Json) : String :=
  let sealed := P.gcmSeal encKey iv (P.gzip (utf8 (stringify P.numeral obj)))
  bytesToHex (bufferFromHex requestHash ++ iv ++ sealed.2 ++ sealed.1)

/-- `unpackRequest`: the hash it starts with, and the decrypted payload. -/
def unpackRequest (encKey : Bytes) (hex : String) : Except String (String × Json) :=
  let buf := bufferFromHex hex
  match P.gcmOpen encKey ((buf.drop 32).take 12) (buf.drop 60) ((buf.drop 44).take 16) with
  | none => .error "Unsupported state or unable to authenticate data"
  | some text =>
      match P.gunzip text with
      | none => .error "incorrect header check"
      | some json =>
          match parse P.numeral (P.decodeUtf8 json) with
          | none => .error "Unexpected token in JSON"
          | some payload => .ok (bytesToHex (buf.take 32), payload)

/-! ### Memos -/

/-- `memo`: JSON data under the type of its kind, both in hexadecimal. -/
def memo (kind : MemoKind) (data : Json) : Memo where
  MemoType := some (P.convertStringToHex kind.text)
  MemoData := some (P.convertStringToHex (String.ofList (stringify P.numeral data)))

/-- `rawMemo`: data that is hexadecimal already. -/
def rawMemo (kind : MemoKind) (hexData : String) : Memo where
  MemoType := some (P.convertStringToHex kind.text)
  MemoData := some (toUpperCase hexData)

/-- `rawMemoData`: the data of the first memo of a kind. -/
def rawMemoData (tx : Tx) (kind : MemoKind) : Option String :=
  let want := toUpperCase (P.convertStringToHex kind.text)
  (tx.Memos.find? fun m => m.MemoType.map toUpperCase = some want).bind (·.MemoData)

/-- `ParsedMemo`: a memo whose type and data could be decoded, and whose data could be parsed. -/
structure ParsedMemo where
  kind : String
  data : Json

/-- The kind of a memo, decoded, with the empty text for a missing type. -/
def memoKind (m : Memo) : Option String :=
  match truthyText m.MemoType with
  | some hex => P.convertHexToString hex
  | none => some ""

/-- The data of a memo, decoded and parsed, an empty object for missing data. -/
def memoData (m : Memo) : Option Json :=
  match truthyText m.MemoData with
  | some hex => (P.convertHexToString hex).bind fun text => parse P.numeral (chars text)
  | none => some (.obj [])

/-- One round of the loop of `parseMemos`; `none` is an unparseable memo, which is skipped. -/
def parseMemo (m : Memo) : Option ParsedMemo := do
  pure ⟨← memoKind P m, ← memoData P m⟩

/-- `parseMemos`: the memos of a transaction that can be decoded; the others are skipped. -/
def parseMemos (tx : Tx) : List ParsedMemo := tx.Memos.filterMap (parseMemo P)

/-- `publishRequest`: the transaction that carries the packed request. -/
def requestTx (publisher packed : String) : Tx where
  Account := publisher
  Memos := [rawMemo P .request packed]

/-- What `readRequestTx` makes of the transaction it was given; `none` is its null. The key
is only read when there is something to decrypt. -/
def readRequest (encKey : Except String Bytes) (tx : Tx) :
    Except String (Option (String × Json)) :=
  match truthyText (rawMemoData P tx .request) with
  | none => .ok none
  | some hex => do pure (some (← unpackRequest P (← encKey) hex))

/-! ### Approvals -/

/-- The verdict of a member on a request, which its attestation carries in words. -/
inductive Verdict
  | APPROVE
  | REJECT
  deriving DecidableEq

/-- The text of a verdict, as an attestation has it. -/
def Verdict.text : Verdict → String
  | APPROVE => "APPROVE"
  | REJECT => "REJECT"

/-- The data of an approval memo. An empty reason is left out. -/
def approvalFields (signerId requestHash : String) (verdict : Verdict) (reason : Option String) :
    List (String × Option Json) :=
  [("v", some (.num (.fin 1))), ("requestHash", some (.str requestHash)),
    ("signerId", some (.str signerId)), ("verdict", some (.str verdict.text)),
    ("reason", (truthyText reason).map .str)]

/-- `postApproval`: the transaction it submits from the member's account. -/
def approvalTx (member signerId requestHash : String) (verdict : Verdict)
    (reason : Option String) : Tx where
  Account := member
  Memos := [memo P .approval (object (approvalFields signerId requestHash verdict reason))]

variable {cfg : Config}

/-- An attestation as it was read off the ledger. Its verdict may be any value, since nothing checks
what a member has posted there. -/
structure ApprovalRecord (cfg : Config) where
  signerId : cfg.SignerId
  verdict : Json
  reason : Option String
  txHash : String
  fromAddress : String

/-- The reason of a parsed memo, when it is truthy. -/
def approvalReason (reason : Option Json) : Except String (Option String) :=
  if truthy reason then (toStr P.numeral reason).map some else .ok none

/-- The inner loop of `readApprovals`: a memo in a transaction of member `signerId`. -/
def readMemo (requestHash : String) (tx : LedgerTx) (signerId : cfg.SignerId)
    (out : List (ApprovalRecord cfg)) (m : ParsedMemo) :
    Except String (List (ApprovalRecord cfg)) :=
  if m.kind = MemoKind.approval.text then do
    let hash ← prop (some m.data) "requestHash"
    if strictEq hash (some (.str requestHash)) && !out.any (·.signerId = signerId) then do
      let verdict ← prop (some m.data) "verdict"
      let reason ← approvalReason P (← prop (some m.data) "reason")
      -- `verdict ?? 'REJECT'`
      let verdict := match verdict with
        | none | some .null => .str "REJECT"
        | some v => v
      pure (out ++ [{ signerId, verdict, reason, txHash := tx.hash, fromAddress := tx.Account }])
    else pure out
  else pure out

/-- The outer loop of `readApprovals`: a transaction of the account's history. -/
def readTx (M : ConsortiumManifest cfg) (requestHash : String)
    (out : List (ApprovalRecord cfg)) (tx : LedgerTx) :
    Except String (List (ApprovalRecord cfg)) :=
  match M.signerAt tx.Account with
  | none => pure out
  | some signerId => (parseMemos P tx.toTx).foldlM (readMemo P requestHash tx signerId) out

/-- What `readApprovals` makes of the history of the authority account, newest first. -/
def readApprovals (M : ConsortiumManifest cfg) (requestHash : String) (txs : List LedgerTx) :
    Except String (List (ApprovalRecord cfg)) :=
  txs.foldlM (readTx P M requestHash) []

/-- `a.verdict === 'APPROVE'`. -/
def ApprovalRecord.approves (a : ApprovalRecord cfg) : Bool :=
  strictEq (some a.verdict) (some (.str "APPROVE"))

/-- `approvals.filter((a) => a.verdict === 'APPROVE').length`. -/
def approveCount (approvals : List (ApprovalRecord cfg)) : ℕ :=
  (approvals.filter (·.approves)).length

/-! ### The receipt -/

/-- What the receipt memo of a token says: the hashes of the request, the debit and the token, who
signed it, and when. -/
structure ReceiptFields (cfg : Config) where
  requestHash : String
  debitRefHash : String
  tokenHash : String
  signerSet : List cfg.SignerId
  ts : String

/-- `prepareReceipt`: the transaction on the authority account, before it is completed by the
ledger client. -/
def receiptTx (M : ConsortiumManifest cfg) (fields : ReceiptFields cfg) : Tx where
  Account := M.authority
  Memos := [memo P .receipt (object [("v", some (.num (.fin 1))),
    ("requestHash", some (.str fields.requestHash)),
    ("debitRefHash", some (.str fields.debitRefHash)),
    ("tokenHash", some (.str fields.tokenHash)),
    ("signerSet", some (.arr (fields.signerSet.map fun id => .str (cfg.idText id)))),
    ("ts", some (.str fields.ts))])]

variable {P}

/-! ### Round trips -/

/-- A published request is read back, as it arrives on the way through its JSON text. -/
theorem unpackRequest_packRequest {encKey iv hash : Bytes} (hiv : iv.length = 12)
    (hhash : hash.length = 32) (obj : Json) :
    unpackRequest P encKey (toUpperCase (packRequest P encKey iv (bytesToHex hash) obj)) =
      .ok (bytesToHex hash, sent obj) := by
  set s := P.gcmSeal encKey iv (P.gzip (utf8 (stringify P.numeral obj))) with hs
  have htag : s.2.length = 16 := P.length_gcmSeal _ _ _
  have hbuf : bufferFromHex (toUpperCase (packRequest P encKey iv (bytesToHex hash) obj)) =
      hash ++ (iv ++ (s.2 ++ s.1)) := by
    rw [packRequest, ← hs, bufferFromHex_toUpperCase, bufferFromHex_bytesToHex]
    simp
  have h32 : (hash ++ (iv ++ (s.2 ++ s.1))).drop 32 = iv ++ (s.2 ++ s.1) := by
    rw [← hhash, List.drop_left]
  have h44 : (hash ++ (iv ++ (s.2 ++ s.1))).drop 44 = s.2 ++ s.1 := by
    rw [show 44 = 32 + 12 from rfl, ← List.drop_drop, h32, ← hiv, List.drop_left]
  have h60 : (hash ++ (iv ++ (s.2 ++ s.1))).drop 60 = s.1 := by
    rw [show 60 = 44 + 16 from rfl, ← List.drop_drop, h44, ← htag, List.drop_left]
  have htake : (hash ++ (iv ++ (s.2 ++ s.1))).take 32 = hash := by
    rw [← hhash, List.take_left]
  rw [unpackRequest, hbuf]
  simp only [h32, h44, h60, htake]
  rw [← hiv, List.take_left, ← htag, List.take_left, hs, P.gcmOpen_gcmSeal]
  simp only [P.gunzip_gzip, P.decodeUtf8_utf8, parse_stringify]

/-- A published request is read off its transaction. -/
theorem readRequest_requestTx {publisher : String} {encKey iv hash : Bytes}
    (hiv : iv.length = 12) (hhash : hash.length = 32) (obj : Json) :
    readRequest P (.ok encKey)
        (requestTx P publisher (packRequest P encKey iv (bytesToHex hash) obj)) =
      .ok (some (bytesToHex hash, sent obj)) := by
  set packed := packRequest P encKey iv (bytesToHex hash) obj with hpacked
  have hdata : rawMemoData P (requestTx P publisher packed) .request =
      some (toUpperCase packed) := by
    simp [rawMemoData, requestTx, rawMemo]
  have hne : toUpperCase packed ≠ "" := by
    intro h
    have hbuf : bufferFromHex (toUpperCase packed) = [] := by rw [h]; rfl
    rw [hpacked, packRequest, bufferFromHex_toUpperCase, bufferFromHex_bytesToHex] at hbuf
    simp only [List.append_eq_nil_iff] at hbuf
    rw [hbuf.1.1.1] at hhash
    cases hhash
  rw [readRequest, hdata, truthyText_of_ne hne]
  show (do pure (some (← unpackRequest P encKey (toUpperCase packed)))) = _
  rw [hpacked, unpackRequest_packRequest hiv hhash]
  rfl

/-- What a reader finds in a memo that was written as JSON: its data as it arrives, unless the
codec gives it an empty text, which is skipped. -/
theorem parseMemo_memo {kind : MemoKind} {data : Json} {m : ParsedMemo}
    (h : parseMemo P (memo P kind data) = some m) (hkind : m.kind ≠ "") :
    m.kind = kind.text ∧ (m.data = sent data ∨ m.data = .obj []) := by
  obtain ⟨k, hk, h⟩ := Option.bind_eq_some_iff.mp h
  obtain ⟨d, hd, h⟩ := Option.bind_eq_some_iff.mp h
  cases h
  simp only [memoKind, memo] at hk
  simp only [memoData, memo] at hd
  constructor
  · split at hk
    next hex hf =>
      rw [← eq_of_truthyText hf, P.convertHexToString_convertStringToHex] at hk
      exact (Option.some.inj hk).symm
    next => exact absurd (Option.some.inj hk).symm hkind
  · split at hd
    next hex hf =>
      rw [← eq_of_truthyText hf, P.convertHexToString_convertStringToHex, Option.bind_some,
        chars_eq, String.toList_ofList, parse_stringify] at hd
      exact .inl (Option.some.inj hd).symm
    next => exact .inr (Option.some.inj hd).symm

/-- A reader takes from a member's own approval what the member meant by it. -/
theorem parse_approvalTx {account signerId requestHash requestHash' : String} {verdict : Verdict}
    {reason : Option String} {m : ParsedMemo}
    (hm : m ∈ parseMemos P (approvalTx P account signerId requestHash verdict reason))
    (hkind : m.kind = MemoKind.approval.text)
    (hhash : m.data.get? "requestHash" = some (.str requestHash')) :
    requestHash = requestHash' ∧
      (m.data.get? "verdict" = some (.str "APPROVE") → verdict = .APPROVE) := by
  obtain ⟨memo', hmemo, hparse⟩ := List.mem_filterMap.mp hm
  obtain rfl := List.mem_singleton.mp hmemo
  obtain ⟨-, hdata | hdata⟩ := parseMemo_memo hparse (by rw [hkind]; decide)
  · have hnd : ((approvalFields signerId requestHash verdict reason).map Prod.fst).Nodup :=
      show ["v", "requestHash", "signerId", "verdict", "reason"].Nodup by decide
    rw [hdata, get?_sent_object hnd] at hhash
    rw [hdata, get?_sent_object hnd]
    constructor
    · cases hhash
      rfl
    · intro hverdict
      cases verdict with
      | APPROVE => rfl
      | REJECT =>
          have hreject : some (Json.str "REJECT") = some (Json.str "APPROVE") := hverdict
          simp at hreject
  · rw [hdata] at hhash
    cases hhash

/-- The verdict of an approval can be told from its transaction. -/
theorem approvalTx_verdict {account account' signerId signerId' requestHash requestHash' : String}
    {verdict verdict' : Verdict} {reason reason' : Option String}
    (h : approvalTx P account signerId requestHash verdict reason =
      approvalTx P account' signerId' requestHash' verdict' reason') : verdict = verdict' := by
  have hdata : ∀ (signerId requestHash : String) (verdict : Verdict) (reason : Option String),
      (sent (object (approvalFields signerId requestHash verdict reason))).get? "verdict" =
        some (.str verdict.text) := fun signerId requestHash verdict reason => by
    have hnd : ((approvalFields signerId requestHash verdict reason).map Prod.fst).Nodup :=
      show ["v", "requestHash", "signerId", "verdict", "reason"].Nodup by decide
    rw [get?_sent_object hnd]
    rfl
  have hmemo := List.singleton_inj.mp (congrArg Tx.Memos h)
  have hhex := congrArg P.convertHexToString (Option.some.inj (congrArg Memo.MemoData hmemo))
  rw [P.convertHexToString_convertStringToHex, P.convertHexToString_convertStringToHex] at hhex
  have hchars := String.ofList_injective (Option.some.inj hhex)
  have hparse := congrArg (parse P.numeral) hchars
  rw [parse_stringify, parse_stringify] at hparse
  have htext := congrArg (fun v => v.get? "verdict") (Option.some.inj hparse)
  simp only [hdata, Option.some.injEq, Json.str.injEq] at htext
  cases verdict <;> cases verdict' <;> first | rfl | exact absurd htext (by decide)

/-! ### What the approval records say -/

theorem ConsortiumManifest.mem_of_signerAt {M : ConsortiumManifest cfg} {address : String}
    {id : cfg.SignerId} (h : M.signerAt address = some id) : id ∈ M.members.map (·.1) := by
  obtain ⟨m, hm, rfl⟩ := Option.map_eq_some_iff.mp h
  exact List.mem_map_of_mem (List.mem_reverse.mp (List.mem_of_find?_eq_some hm))

/-- What is unpacked was parsed, and so has distinct names. -/
theorem readRequest_distinct {encKey : Except String Bytes} {tx : Tx} {hash : String}
    {payload : Json} (h : readRequest P encKey tx = .ok (some (hash, payload))) :
    payload.Distinct := by
  rw [readRequest] at h
  split at h
  · cases h
  · obtain ⟨key, -, h⟩ := bind_eq_ok.mp h
    obtain ⟨read, hread, h⟩ := bind_eq_ok.mp h
    cases h
    rw [unpackRequest] at hread
    split at hread
    · cases hread
    · split at hread
      · cases hread
      · split at hread
        · cases hread
        next hparse =>
          cases hread
          exact parse_distinct hparse

/-- What stands behind an approval record: a memo in a transaction of the member's account that
attests to the request, with the verdict and the reason of the record. -/
structure Attestation (P : Platform) (M : ConsortiumManifest cfg) (requestHash : String)
    (a : ApprovalRecord cfg) (tx : LedgerTx) (m : ParsedMemo) : Prop where
  account : M.signerAt tx.Account = some a.signerId
  memo : m ∈ parseMemos P tx.toTx
  kind : m.kind = MemoKind.approval.text
  requestHash : m.data.get? "requestHash" = some (.str requestHash)
  approve : a.approves = true → m.data.get? "verdict" = some (.str "APPROVE")

/-- A memo adds at most one record, for a member that had none. -/
theorem readMemo_ok {requestHash : String} {tx : LedgerTx} {signerId : cfg.SignerId}
    {out out' : List (ApprovalRecord cfg)} {m : ParsedMemo}
    (h : readMemo P requestHash tx signerId out m = .ok out') :
    out' = out ∨ ∃ a : ApprovalRecord cfg, out' = out ++ [a] ∧ a.signerId = signerId ∧
      a.signerId ∉ out.map (·.signerId) ∧ m.kind = MemoKind.approval.text ∧
      m.data.get? "requestHash" = some (.str requestHash) ∧
      (a.approves = true → m.data.get? "verdict" = some (.str "APPROVE")) := by
  rw [readMemo] at h
  split at h
  next hkind =>
    obtain ⟨hash, hhash, h⟩ := bind_eq_ok.mp h
    split at h
    next hcond =>
      obtain ⟨verdict, hverdict, h⟩ := bind_eq_ok.mp h
      obtain ⟨reason, -, h⟩ := bind_eq_ok.mp h
      obtain ⟨text, -, h⟩ := bind_eq_ok.mp h
      rw [Bool.and_eq_true] at hcond
      have hhash := (prop_ok hhash).symm.trans (strictEq_str.mp hcond.1)
      have hnew := hcond.2
      simp only [Bool.not_eq_true', List.any_eq_false, decide_eq_true_eq] at hnew
      refine .inr ⟨_, (Except.ok.inj h).symm, rfl, ?_, hkind, hhash, fun happ => ?_⟩
      · rw [List.mem_map]
        rintro ⟨a, ha, heq⟩
        exact hnew a ha heq
      · have hverdict := prop_ok hverdict
        have happ := strictEq_str.mp happ
        simp only [Option.some.injEq] at happ
        split at happ
        · simp at happ
        · simp at happ
        · rw [happ] at hverdict
          exact hverdict.symm
    next => exact .inl (Except.ok.inj h).symm
  next => exact .inl (Except.ok.inj h).symm

/-- The state of the loops of `readApprovals`: one record to a member, each with its attestation in
the history, and nobody passed over who has attested. -/
structure Collected (P : Platform) (M : ConsortiumManifest cfg) (requestHash : String)
    (txs : List LedgerTx) (out : List (ApprovalRecord cfg)) : Prop where
  nodup : (out.map (·.signerId)).Nodup
  attested : ∀ a ∈ out, ∃ tx ∈ txs, ∃ m, Attestation P M requestHash a tx m

theorem Collected.readTx {M : ConsortiumManifest cfg} {requestHash : String}
    {txs : List LedgerTx} {tx : LedgerTx} (htx : tx ∈ txs) {out out' : List (ApprovalRecord cfg)}
    (h : Collected P M requestHash txs out) (hread : readTx P M requestHash out tx = .ok out') :
    Collected P M requestHash txs out' := by
  rw [NoGhost.readTx] at hread
  split at hread
  next => exact Except.ok.inj hread ▸ h
  next signerId hid =>
    refine foldlM_ok (fun m hm out out' h hread => ?_) h hread
    rcases readMemo_ok hread with rfl | ⟨a, rfl, hsid, hnew, hkind, hhash, happ⟩
    · exact h
    · refine ⟨?_, fun b hb => ?_⟩
      · rw [List.map_append, List.map_singleton, ← List.concat_eq_append]
        exact h.nodup.concat hnew
      · rcases List.mem_append.mp hb with hb | hb
        · exact h.attested b hb
        · obtain rfl := List.mem_singleton.mp hb
          exact ⟨tx, htx, m, hsid ▸ hid, hm, hkind, hhash, happ⟩

theorem readApprovals_ok {M : ConsortiumManifest cfg} {requestHash : String}
    {txs : List LedgerTx} {approvals : List (ApprovalRecord cfg)}
    (h : readApprovals P M requestHash txs = .ok approvals) :
    Collected P M requestHash txs approvals :=
  have hnil : Collected P M requestHash txs [] := ⟨List.nodup_nil, fun _ ha => nomatch ha⟩
  foldlM_ok (fun _ htx _ _ hout hread => hout.readTx htx hread) hnil h

/-- **One record to a member**, however many attestations it has posted. -/
theorem readApprovals_nodup {M : ConsortiumManifest cfg} {requestHash : String}
    {txs : List LedgerTx} {approvals : List (ApprovalRecord cfg)}
    (h : readApprovals P M requestHash txs = .ok approvals) :
    (approvals.map (·.signerId)).Nodup :=
  (readApprovals_ok h).nodup

/-- **Every record is attested** in the history that was read: there is a transaction of the
member's account with a memo that says so. -/
theorem readApprovals_mem {M : ConsortiumManifest cfg} {requestHash : String}
    {txs : List LedgerTx} {approvals : List (ApprovalRecord cfg)}
    (h : readApprovals P M requestHash txs = .ok approvals) {a : ApprovalRecord cfg}
    (ha : a ∈ approvals) : ∃ tx ∈ txs, ∃ m, Attestation P M requestHash a tx m :=
  (readApprovals_ok h).attested a ha

namespace Small

/-- The manifest of the source's three members. -/
def manifest : ConsortiumManifest config where
  authority := "rAuthority"
  quorum := 2
  members := [(.utility, "rUtility"), (.cityA, "rCityA"), (.cityB, "rCityB")]

end Small

end NoGhost
