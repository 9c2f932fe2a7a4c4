import NoGhost.Consortium

/-!
# Attestations of One Member

A member keeps its verdicts in a cache, so that it posts one attestation for a request and
repeats its verdict when it is asked again. The cache is read when a request has come off the
ledger and written when the ledger has the attestation, and its key is the hash that the
published blob starts with, which is not part of what is encrypted. So a request may be
attested while its attestation is on the way, and a verdict on one blob is given for another.

## Main results

* `attested_once`: when nothing is read that has an attestation on the way or failed, a member
  attests a request once.
* `verdict_kept`: when all blobs of one hash deserve approval, every verdict on them is one.
* `attested_twice_small`, `verdict_poisoned_small`: without that.
-/

open Js Async

namespace NoGhost

variable (P : Platform) {cfg : Config} (env : SignerEnv cfg) {Req : Type}
  (toRequest : Req → SignerRequest) (reads : SignerState → String → LedgerTx → Prop)

/-- One member whose reads off the ledger are answered as `reads` says; any other answer may
come at any time. -/
def readingGame : Game SignerState SignerState String SignerCall SignerCall.Answer
    Response Req where
  handler req := signerHandler P env (toRequest req)
  place _ := Lens.whole SignerState
  answers s q r := match q, r with
    | .tx hash, .ok tx => reads s hash tx
    | _, _ => True
  moves s s' := ∃ clock, s' = { s with clock := clock }

section Run

variable {P env toRequest reads} {s₀ s t : SignerState} {prog : SignerProg Response}
  {procs : List (Proc SignerState SignerState String SignerCall SignerCall.Answer Response Req)}

/-- A request that the game admits is started, and runs up to its first await. -/
theorem readingGame_spawn
    (h : (readingGame P env toRequest reads).Reaches (fun _ _ => True) s₀ ⟨s, procs⟩) (req : Req)
    (hset : (signerHandler P env (toRequest req)).settle s = (prog, t)) :
    (readingGame P env toRequest reads).Reaches (fun _ _ => True) s₀
      ⟨t, procs ++ [⟨req, s, prog⟩]⟩ :=
  h.spawn req trivial hset

/-- A suspended handler is answered as the ledger reads, and runs up to its next await. -/
theorem readingGame_resume
    (h : (readingGame P env toRequest reads).Reaches (fun _ _ => True) s₀ ⟨s, procs⟩) (i : ℕ)
    {req : Req} {start : SignerState} {q : SignerCall} {k : q.Answer → SignerProg Response}
    (hget : procs[i]? = some ⟨req, start, .await q k⟩) (answer : (q : SignerCall) → q.Answer)
    (hlegal : (readingGame P env toRequest reads).answers s q (answer q))
    (hset : (k (answer q)).settle s = (prog, t)) :
    (readingGame P env toRequest reads).Reaches (fun _ _ => True) s₀
      ⟨t, procs.set i ⟨req, start, prog⟩⟩ :=
  h.resume i hget answer hlegal hset

end Run

/-! ### What other handlers leave alone -/

/-- The attestations, posted and cached, and the governance flag are as they were. -/
structure Unattesting (s s' : SignerState) : Prop where
  submitted : s'.submitted = s.submitted
  approvedOnChain : s'.approvedOnChain = s.approvedOnChain
  refuse : s'.refuse = s.refuse

/-- Nothing attests nothing. -/
theorem Unattesting.refl (s : SignerState) : Unattesting s s := ⟨rfl, rfl, rfl⟩

/-- Sessions that are dropped attest nothing. -/
theorem Forgets.unattesting {s s' : SignerState} (h : Forgets s s') : Unattesting s s' := by
  obtain ⟨keep, rfl⟩ := h
  exact ⟨rfl, rfl, rfl⟩

variable {P env toRequest reads}

/-- The discipline of an invariant that only attesting can break. -/
def attestDiscipline (G : Game SignerState SignerState String SignerCall SignerCall.Answer
    Response Req) (I : SignerState → Prop) (post : Req → Response → SignerState → Prop) :
    Discipline G where
  inv := I
  evolves s s' := s.submitted <+: s'.submitted
  rely _ s s' := s.submitted <+: s'.submitted
  gua _ s s' := (I s → I s') ∧ s.submitted <+: s'.submitted
  compatible _ _ := True
  post l r s := post l.1 r s
  exn _ _ _ := True

/-- The obligations of such an invariant: it is kept by what attests nothing, by setting the
flag, and by the handler that validates. -/
theorem attestDiscipline_valid {I : SignerState → Prop}
    {post : Req → Response → SignerState → Prop}
    (hquiet : ∀ s s', Unattesting s s' → I s → I s')
    (hrefuse : ∀ req body s refuse reason, toRequest req = .refuse body →
      (prop? body "refuse" = some (.bool refuse) ∨ refuse = s.refuse) → I s →
      I { s with refuse := refuse, refuseReason := reason })
    (hpost : ∀ req r s, (∀ body, toRequest req ≠ .validate body) → post req r s)
    (hvalidate : ∀ req body s, toRequest req = .validate body → I s →
      wpa ((attestDiscipline (readingGame P env toRequest reads) I post).contract (req, s))
        (Lens.whole SignerState) (validate P env body)
        (fun r b s' => ((I b → I s') ∧ b.submitted <+: s'.submitted) ∧ post req r s')
        (fun _ b s' => ((I b → I s') ∧ b.submitted <+: s'.submitted) ∧ True) s s) :
    (attestDiscipline (readingGame P env toRequest reads) I post).Valid where
  evolves_refl _ := List.prefix_rfl
  evolves_trans h h' := h.trans h'
  rely_refl _ _ := List.prefix_rfl
  rely_trans h h' := h.trans h'
  gua_inv hs h := ⟨h.1 hs, h.2⟩
  gua_rely _ _ h := h.2
  moves_inv {s s'} hs h := by
    obtain ⟨clock, rfl⟩ := h
    exact ⟨hquiet s _ ⟨rfl, rfl, rfl⟩ hs, List.prefix_rfl⟩
  moves_rely _ h := by
    obtain ⟨clock, rfl⟩ := h
    exact List.prefix_rfl
  handler_spec req s hs _ := by
    have hstep : ∀ {b s'}, Unattesting b s' →
        (I b → I s') ∧ b.submitted <+: s'.submitted := fun {b s'} h =>
      ⟨hquiet _ _ h, by rw [h.submitted]⟩
    have hresume : ∀ q s₁ r s₂, I s₁ →
        ((attestDiscipline (readingGame P env toRequest reads) I post).contract (req, s)).resume
          q s₁ r s₂ → I s₂ ∧ (I s₂ → I s₂) ∧ s₂.submitted <+: s₂.submitted :=
      fun q s₁ r s₂ _ hr => ⟨hr.2.1, id, List.prefix_rfl⟩
    have hother : (∀ body, toRequest req ≠ .validate body) → ∀ r s, post req r s :=
      fun h r s => hpost req r s h
    change wpa _ (Lens.whole SignerState) (signerHandler P env (toRequest req)) _ _ s s
    cases hreq : toRequest req with
    | sweep => exact ⟨hstep (forgets_sweep s).unattesting, hother (by simp [hreq]) _ _⟩
    | online body =>
        exact wpa_adminOnline fun r online _ =>
          ⟨hstep ⟨rfl, rfl, rfl⟩, hother (by simp [hreq]) _ _⟩
    | refuse body =>
        exact wpa_adminRefuse fun r refuse reason h _ =>
          ⟨⟨hrefuse req body s refuse reason hreq h, List.prefix_rfl⟩,
            hother (by simp [hreq]) _ _⟩
    | round1 body draws =>
        exact wpa_round1 (fun r t ht _ => ⟨hstep ht.unattesting, hother (by simp [hreq]) _ _⟩)
          (fun r t sessionId nonces ht _ =>
            ⟨hstep ⟨ht.unattesting.submitted, ht.unattesting.approvedOnChain,
              ht.unattesting.refuse⟩, hother (by simp [hreq]) _ _⟩)
          (fun e t ht => ⟨hstep ht.unattesting, trivial⟩)
    | validate body => exact hvalidate req body s hreq hs
    | signReceipt body =>
        exact wpa_signReceipt (J := I) (hstep (.refl s)) hs hresume
          (fun r b s' hseg _ _ => ⟨hseg, hother (by simp [hreq]) _ _⟩)
          (fun e b s' hseg _ => ⟨hseg, trivial⟩)
    | round2 body =>
        refine wpa_round2 (fun r t ht _ => ⟨hstep ht.unattesting, hother (by simp [hreq]) _ _⟩)
          (fun e t ht => ⟨hstep ht.unattesting, trivial⟩) fun p _ => ?_
        exact wpa_round2Gate (J := I) (hstep (forgets_sweep s).unattesting)
          (hquiet _ _ (forgets_sweep s).unattesting hs) hresume
          (fun r s' _ _ => ⟨hstep (forgets_delete _ _).unattesting, hother (by simp [hreq]) _ _⟩)
          (fun r s' n _ _ _ => ⟨hstep ⟨rfl, rfl, rfl⟩, hother (by simp [hreq]) _ _⟩)
          (fun e b s' hseg _ => ⟨hseg, trivial⟩)

/-! ### One attestation to a request -/

/-- An attestation of the request was handed to the ledger client, and is not in the cache:
it is on the way, or it failed. -/
def Unsettled (s : SignerState) (requestHash : String) : Prop :=
  (∃ sub ∈ s.submitted, sub.requestHash = requestHash) ∧ s.approvedOnChain.get requestHash = none

variable (P env) in
/-- What is read has no unsettled attestation. -/
def ReadsSettled (s : SignerState) (_ : String) (tx : LedgerTx) : Prop :=
  ∀ requestHash payload, readRequest P env.encKey tx.toTx = .ok (some (requestHash, payload)) →
    ¬ Unsettled s requestHash

/-- No request was attested twice, by the hashes of what was submitted. -/
def AttestedOnce (s : SignerState) : Prop := (s.submitted.map (·.requestHash)).Nodup

/-- The discipline holds where the requests that are served do not race: the cache is read and
written in one go. -/
theorem attestedOnce_valid : (attestDiscipline (readingGame P env id (ReadsSettled P env))
    AttestedOnce fun _ _ _ => True).Valid := by
  refine attestDiscipline_valid (fun s s' h hs => ?_) (fun _ _ _ _ _ _ _ hs => hs)
    (fun _ _ _ _ => trivial) fun req body s _ hs => ?_
  · rw [AttestedOnce, h.submitted]
    exact hs
  refine wpa_validate_exits (J := AttestedOnce) ⟨id, List.prefix_rfl⟩ hs
    (fun q s₁ r s₂ _ hr => ⟨hr.2.1, id, List.prefix_rfl⟩) (fun r b s' hseg _ _ _ => ⟨hseg, trivial⟩)
    (fun r s' _ _ _ _ hseg _ _ _ _ _ => ⟨hseg, trivial⟩) (fun sub s' hJ hoff _ hnone => ?_)
    (fun r s' s₀ sub txHash _ _ _ _ hJ _ _ => ⟨⟨fun _ => hJ, List.prefix_rfl⟩, trivial⟩)
  -- what was read is new to the cache, so it is new altogether
  obtain ⟨hash, tx, s₀, -, -, hr, hread⟩ := hoff
  have hnew : sub.requestHash ∉ s'.submitted.map (·.requestHash) := by
    rw [List.mem_map]
    exact fun ⟨sub', hsub', heq⟩ => hr.2.2.2 _ _ hread ⟨⟨sub', hsub', heq⟩, hnone⟩
  have hnodup : AttestedOnce (recordSubmission sub s') := by
    rw [AttestedOnce, recordSubmission, List.map_append, List.map_singleton,
      ← List.concat_eq_append]
    exact List.Nodup.concat hnew hJ
  exact ⟨⟨fun _ => hnodup, List.prefix_append _ _⟩, hnodup⟩

/-- **One attestation.** When no request is read while an attestation of it is on the way or
has failed, a member posts at most one attestation of every request. -/
theorem attested_once {clock : ℤ} {c : SignerPool}
    (h : (readingGame P env id (ReadsSettled P env)).Reaches (fun _ _ => True) (.boot clock) c)
    (requestHash : String) :
    (c.state.submitted.filter (·.requestHash = requestHash)).length ≤ 1 := by
  have hboot : AttestedOnce (.boot clock) := List.nodup_nil
  have hnodup : AttestedOnce c.state :=
    (Discipline.sound (@attestedOnce_valid P cfg env) hboot
      (fun _ _ _ _ => ⟨trivial, fun _ _ _ => ⟨trivial, trivial⟩⟩) h).inv
  have hcount := List.nodup_iff_count_le_one.mp hnodup requestHash
  rwa [List.count_eq_countP, List.countP_map, List.countP_eq_length_filter] at hcount

/-! ### Two handlers on one request -/

namespace Small

/-- The request hash of the published request, as it is written in a memo. -/
def requestHashHex : String := bytesToHex requestHash

/-- The second member, reading by the rules `reads`. -/
abbrev cityAGame (reads : SignerState → String → LedgerTx → Prop) :
    Game SignerState SignerState String SignerCall SignerCall.Answer Response SignerRequest :=
  readingGame platform (memberEnv .cityA) id reads

/-- The attestation of the published request with a verdict of the second member. -/
def attesting (verdict : Verdict) (reason : Option String) : Submission :=
  ⟨requestHashHex, sent published, verdict,
    approvalTx platform "rCityA" "city-a" requestHashHex verdict reason⟩

/-- The second member, told to refuse without a reason. -/
def refusing (s : SignerState) : SignerState := { s with refuse := true, refuseReason := none }

end Small

/-- The key of the small bank is a text that is truthy. -/
theorem small_bankKey : truthyText (some Small.bankKey) = some Small.bankKey :=
  truthyText_of_ne (by decide +kernel)

/-- Two validations of the published request, with a refusal in between. -/
theorem small_attest_twice : ∃ k, (validate Small.platform (Small.memberEnv .cityA)
      (some (.obj [("requestTxHash", .str "T")]))).settle (.boot 0) =
      (.await (.tx "T") k, .boot 0) ∧
    (∃ k', (k (.ok Small.publishedTx)).settle (.boot 0) =
      (.await (.submit (Small.attesting .APPROVE none).tx) k',
        recordSubmission (Small.attesting .APPROVE none) (.boot 0))) ∧
    ∃ k', (k (.ok Small.publishedTx)).settle
        (Small.refusing (recordSubmission (Small.attesting .APPROVE none) (.boot 0))) =
      (.await (.submit (Small.attesting .REJECT (some "GOVERNANCE_REFUSAL")).tx) k',
        recordSubmission (Small.attesting .REJECT (some "GOVERNANCE_REFUSAL"))
          (Small.refusing (recordSubmission (Small.attesting .APPROVE none) (.boot 0)))) := by
  have happrove : judge Small.platform (.boot 0) Small.bankKey Small.requestHashHex
      (sent Small.published) = .ok (.APPROVE, none) := by decide +kernel
  have hrefuse : judge Small.platform
      (Small.refusing (recordSubmission (Small.attesting .APPROVE none) (.boot 0))) Small.bankKey
      Small.requestHashHex (sent Small.published) =
        .ok (.REJECT, some "GOVERNANCE_REFUSAL") := by decide +kernel
  have hbody : truthyText (some "T") = some "T" := truthyText_of_ne (by decide)
  obtain ⟨k, hawait, -, hattest⟩ := @validate_settles Small.platform config
    (Small.memberEnv .cityA) (.boot 0) (some (.obj [("requestTxHash", .str "T")])) _ Small.bankKey
    "T" Small.requestHashHex _ Small.publishedTx (sent Small.published) Small.manifest
    rfl rfl small_bankKey rfl hbody small_readRequest rfl
  obtain ⟨k₁, h₁, -⟩ := hattest _ _ _ rfl happrove
  obtain ⟨k₂, h₂, -⟩ := hattest _ _ _ rfl hrefuse
  exact ⟨k, hawait, ⟨k₁, h₁⟩, ⟨k₂, h₂⟩⟩

/-- Read once, the small request is attested once. -/
theorem attested_once_small : ∃ c : SignerPool,
    (Small.cityAGame (ReadsSettled Small.platform (Small.memberEnv .cityA))).Reaches
      (fun _ _ => True) (.boot 0) c ∧
    (c.state.submitted.filter (·.requestHash = Small.requestHashHex)).length = 1 := by
  obtain ⟨k, hawait, ⟨k', hsubmit⟩, -⟩ := small_attest_twice
  have h₀ : (Small.cityAGame (ReadsSettled Small.platform (Small.memberEnv .cityA))).Reaches
      (fun _ _ => True) (.boot 0) ⟨.boot 0, []⟩ := .init
  have h₁ := readingGame_spawn h₀ Small.validateRequest.2 hawait
  have h₂ := readingGame_resume h₁ 0 rfl Small.serveRequest (fun requestHash payload _ h => by
    obtain ⟨⟨sub, hsub, -⟩, -⟩ := h
    exact (nomatch hsub)) hsubmit
  have hmem : Small.attesting .APPROVE none ∈ List.filter
      (·.requestHash = Small.requestHashHex) [Small.attesting .APPROVE none] :=
    List.mem_filter.mpr ⟨List.mem_singleton_self _, decide_eq_true rfl⟩
  exact ⟨_, h₂, le_antisymm (attested_once h₂ _) (List.length_pos_of_mem hmem)⟩

/-- Two validations of one request that both read the ledger before either is cached post two
attestations, an approval and a rejection. -/
theorem attested_twice_small : ∃ c : SignerPool,
    (Small.cityAGame fun _ _ _ => True).Reaches (fun _ _ => True) (.boot 0) c ∧
    (c.state.submitted.filter (·.requestHash = Small.requestHashHex)).map (·.verdict) =
      [.APPROVE, .REJECT] := by
  obtain ⟨k, hawait, ⟨k₁, h₁⟩, ⟨k₂, h₂⟩⟩ := small_attest_twice
  have hrefuse : (signerHandler Small.platform (Small.memberEnv .cityA)
      (.refuse (some (.obj [("refuse", .bool true)])))).settle
        (recordSubmission (Small.attesting .APPROVE none) (.boot 0)) =
      (.ret (.json (object [("refuse", some (.bool true)), ("reason", some .null)])),
        Small.refusing (recordSubmission (Small.attesting .APPROVE none) (.boot 0))) := rfl
  have hboot : (Small.cityAGame fun _ _ _ => True).Reaches (fun _ _ => True) (.boot 0)
      ⟨.boot 0, []⟩ := .init
  have hstart := readingGame_spawn hboot Small.validateRequest.2 hawait
  have hagain := readingGame_spawn hstart Small.validateRequest.2 hawait
  have happrove := readingGame_resume hagain 0 rfl Small.serveRequest trivial h₁
  have hflag := readingGame_spawn happrove (.refuse (some (.obj [("refuse", .bool true)]))) hrefuse
  have hreject := readingGame_resume hflag 1 rfl Small.serveRequest trivial h₂
  refine ⟨_, hreject, ?_⟩
  change (List.filter (·.requestHash = Small.requestHashHex) [Small.attesting .APPROVE none,
    Small.attesting .REJECT (some "GOVERNANCE_REFUSAL")]).map (·.verdict) = _
  rw [List.filter_eq_self.mpr fun sub hsub => ?_]
  · rfl
  · simp only [List.mem_cons, List.not_mem_nil, or_false] at hsub
    rcases hsub with rfl | rfl <;> exact decide_eq_true rfl

/-! ### One verdict on all blobs of one hash -/

/-- A request that does not set the governance flag. -/
def SignerRequest.Consenting : SignerRequest → Prop
  | .refuse body => prop? body "refuse" ≠ some (.bool true)
  | _ => True

/-- A member that does not refuse rejects the payload under the hash. -/
def Rejects (P : Platform) (key requestHash : String) (payload : Json) : Prop :=
  ∃ s reason, s.refuse = false ∧ judge P s key requestHash payload = .ok (.REJECT, reason)

/-- Without the governance flag, what is not rejected is approved. -/
theorem judge_approve {s : SignerState} {key requestHash : String} {payload : Json}
    {verdict : Verdict} {reason : Option String} (hs : s.refuse = false)
    (h : judge P s key requestHash payload = .ok (verdict, reason))
    (hgood : ¬ Rejects P key requestHash payload) : verdict = .APPROVE := by
  cases verdict with
  | APPROVE => rfl
  | REJECT => exact absurd ⟨s, reason, hs, h⟩ hgood

/-- A debit that is valid for the request, under the hash of the request, is not rejected. -/
theorem not_rejects {key requestHash : String} {payload : Json}
    (hhash : hashValue P (payload.get? "request") = requestHash)
    (hvalid : validateDebitForRequest P (payload.get? "request") (payload.get? "debit") key =
      .ok none) : ¬ Rejects P key requestHash payload := by
  rintro ⟨s, reason, hs, h⟩
  obtain ⟨request, hrequest, h⟩ := bind_eq_ok.mp h
  obtain rfl : request = payload.get? "request" := prop_ok hrequest
  rw [if_neg (not_not_intro hhash), hs, if_neg (by decide)] at h
  obtain ⟨debit, hdebit, h⟩ := bind_eq_ok.mp h
  obtain rfl : debit = payload.get? "debit" := prop_ok hdebit
  rw [hvalid] at h
  cases h

section Kept

variable (P env) (key : String) (ledger : String → Option LedgerTx) (X requestHash : String)

/-- Reading a fixed ledger. When the member has no verdict on the hash yet, a blob other than
`X` that it reads under the hash is not one it would reject. -/
def ReadsUntainted (s : SignerState) (hash : String) (tx : LedgerTx) : Prop :=
  ledger hash = some tx ∧ (hash ≠ X → s.approvedOnChain.get requestHash = none →
    ∀ payload, readRequest P env.encKey tx.toTx = .ok (some (requestHash, payload)) →
      ¬ Rejects P key requestHash payload)

/-- The member approves the request: it is willing, and nothing it keeps or has posted says
otherwise. -/
structure Approves (s : SignerState) : Prop where
  consents : s.refuse = false
  submitted : ∀ sub ∈ s.submitted, sub.requestHash = requestHash → sub.verdict = .APPROVE ∧
    ∃ address signerId reason, sub.tx = approvalTx P address signerId requestHash .APPROVE reason
  cached : ∀ e ∈ s.approvedOnChain, e.1 = requestHash → e.2.1 = .APPROVE ∧
    ∃ sub ∈ s.submitted, sub.requestHash = requestHash

variable {P requestHash} in
/-- What attests nothing leaves the member approving. -/
theorem Approves.unattesting {s s' : SignerState} (h : Approves P requestHash s)
    (hs : Unattesting s s') : Approves P requestHash s' :=
  ⟨hs.refuse ▸ h.consents, hs.submitted ▸ h.submitted,
    hs.submitted ▸ hs.approvedOnChain ▸ h.cached⟩

variable {P env key ledger X requestHash}

/-- Validating `X` approves the request, and an approval has been posted. -/
def ValidatesX (X requestHash : String) (req : {req : SignerRequest // req.Consenting})
    (r : Response) (s : SignerState) : Prop :=
  ∀ body, req.1 = .validate body → requestTxHashOf body = some X → r.status = 200 →
    r.body.get? "verdict" = some (.str "APPROVE") ∧
      ∃ sub ∈ s.submitted, sub.requestHash = requestHash

variable (P env key ledger X requestHash) in
/-- A member that never refuses, and reads nothing that taints its verdict on the request. -/
abbrev untaintedGame : Game SignerState SignerState String SignerCall SignerCall.Answer Response
    {req : SignerRequest // req.Consenting} :=
  readingGame P env Subtype.val (ReadsUntainted P env key ledger X requestHash)

variable (P env key ledger X requestHash) in
/-- The discipline of the invariant `Approves`. -/
abbrev approveDiscipline : Discipline (untaintedGame P env key ledger X requestHash) :=
  attestDiscipline _ (Approves P requestHash) (ValidatesX X requestHash)

variable {tx : LedgerTx} {payload : Json} {body : Option Json}
  {l : {req : SignerRequest // req.Consenting} × SignerState} {s : SignerState}

/-- What is read off `X` is what `X` carries. -/
theorem readOff_carries {requestHash' : String} {payload' : Json} (hX : ledger X = some tx)
    (hread : readRequest P env.encKey tx.toTx = .ok (some (requestHash, payload)))
    (hbody : requestTxHashOf body = some X)
    (h : ReadOff P env ((approveDiscipline P env key ledger X requestHash).contract l)
      (Approves P requestHash) body requestHash' payload' s) : requestHash' = requestHash := by
  obtain ⟨hash, tx', s₀, hhash, -, hr, hread'⟩ := h
  obtain rfl : X = hash := Option.some.inj (hbody.symm.trans hhash)
  obtain rfl : tx = tx' := Option.some.inj (hX.symm.trans hr.2.2.2.1)
  rw [hread] at hread'
  exact (congrArg Prod.fst (Option.some.inj (Except.ok.inj hread'))).symm

/-- A payload that is read under the hash before there is a verdict is not rejected. -/
theorem readOff_good (hX : ledger X = some tx)
    (hread : readRequest P env.encKey tx.toTx = .ok (some (requestHash, payload)))
    (hgood : ¬ Rejects P key requestHash payload) {payload' : Json}
    (h : ReadOff P env ((approveDiscipline P env key ledger X requestHash).contract l)
      (Approves P requestHash) body requestHash payload' s)
    (hnone : s.approvedOnChain.get requestHash = none) : ¬ Rejects P key requestHash payload' := by
  obtain ⟨hash, tx', s₀, -, -, hr, hread'⟩ := h
  obtain ⟨hledger, huntainted⟩ := hr.2.2.2
  by_cases hhash : hash = X
  · subst hhash
    obtain rfl : tx = tx' := Option.some.inj (hX.symm.trans hledger)
    rw [hread] at hread'
    cases hread'
    exact hgood
  · exact huntainted hhash hnone _ hread'

/-- An approving submission keeps the invariant. -/
theorem Approves.recordSubmission (h : Approves P requestHash s) {sub : Submission}
    (hsub : sub.requestHash = requestHash → sub.verdict = .APPROVE ∧
      ∃ address signerId reason,
        sub.tx = approvalTx P address signerId requestHash .APPROVE reason) :
    Approves P requestHash (recordSubmission sub s) := by
  refine ⟨h.consents, fun sub' hsub' hhash => ?_, fun e he hhash => ?_⟩
  · rcases List.mem_append.mp hsub' with hsub' | hsub'
    · exact h.submitted sub' hsub' hhash
    · obtain rfl := List.mem_singleton.mp hsub'
      exact hsub hhash
  · obtain ⟨happrove, sub', hsub', hhash'⟩ := h.cached e he hhash
    exact ⟨happrove, sub', List.mem_append_left _ hsub', hhash'⟩

/-- So does caching the verdict of a submission. -/
theorem Approves.recordApproval (h : Approves P requestHash s) {sub : Submission}
    (hsub : sub ∈ s.submitted) (txHash : String) :
    Approves P requestHash (recordApproval sub.requestHash sub.verdict txHash s) := by
  refine ⟨h.consents, h.submitted, fun e he hhash => ?_⟩
  rcases JsMap.mem_set he with rfl | ⟨he, -⟩
  · exact ⟨(h.submitted sub hsub hhash).1, sub, hsub, hhash⟩
  · exact h.cached e he hhash

/-- The discipline holds of a member that has approved the request of a good transaction. -/
theorem approves_valid (hX : ledger X = some tx)
    (hread : readRequest P env.encKey tx.toTx = .ok (some (requestHash, payload)))
    (hkey : truthyText env.pinnedBankPublicKey = some key)
    (hgood : ¬ Rejects P key requestHash payload) :
    (approveDiscipline P env key ledger X requestHash).Valid := by
  refine attestDiscipline_valid (fun s s' h hs => hs.unattesting h)
    (fun req body s refuse reason hreq hset hs => ?_) (fun req r s hreq body hbody =>
      absurd hbody (hreq body)) fun req body s hreq hs => ?_
  · refine ⟨?_, hs.submitted, hs.cached⟩
    rcases hset with hset | hset
    · have hconsent : (SignerRequest.refuse body).Consenting := hreq ▸ req.2
      cases refuse with
      | false => rfl
      | true => exact absurd hset hconsent
    · exact hset.trans hs.consents
  refine wpa_validate_exits (J := Approves P requestHash) ⟨id, List.prefix_rfl⟩ hs
    (fun q s₁ r s₂ _ hr => ⟨hr.2.1, id, List.prefix_rfl⟩)
    (fun r b s' hseg _ _ hfail => ⟨hseg, fun _ _ _ h => absurd h hfail⟩)
    (fun r s' hash payload' verdict txHash hseg hJ _ hoff hcache hverdict =>
      ⟨hseg, fun body' hbody' hXbody _ => ?_⟩)
    (fun sub s' hJ hoff hjudged hnone => ?_)
    (fun r s' s₀ sub txHash _ hoff _ hr hJ _ hverdict => ?_)
  -- a cached verdict
  · cases hreq.symm.trans hbody'
    obtain rfl := readOff_carries hX hread hXbody hoff
    obtain ⟨happrove, hposted⟩ := hJ.cached _ (JsMap.mem_of_get hcache) rfl
    rw [hverdict, show verdict = .APPROVE from happrove]
    exact ⟨rfl, hposted⟩
  -- a new submission
  · have hJ' : Approves P requestHash (recordSubmission sub s') := by
      refine hJ.recordSubmission ?_
      rintro rfl
      obtain ⟨key', wallet, reason, hkey', -, hjudge, htx⟩ := hjudged.judged
      obtain rfl : key = key' := Option.some.inj (hkey.symm.trans hkey')
      have happrove := judge_approve (s := s') hJ.consents hjudge
        (readOff_good hX hread hgood hoff hnone)
      exact ⟨happrove, wallet.address, cfg.idText env.info.signerId, reason, happrove ▸ htx⟩
    exact ⟨⟨fun _ => hJ', List.prefix_append _ _⟩, hJ'⟩
  -- the submission is on the ledger
  · have hsub : sub ∈ s'.submitted :=
      hr.2.2.1.subset (List.mem_append_right _ (List.mem_singleton_self sub))
    refine ⟨⟨fun _ => hJ.recordApproval hsub txHash, List.prefix_rfl⟩,
      fun body' hbody' hXbody _ => ?_⟩
    cases hreq.symm.trans hbody'
    have hhash := readOff_carries hX hread hXbody hoff
    rw [hverdict, (hJ.submitted sub hsub hhash).1]
    exact ⟨rfl, sub, hsub, hhash⟩

end Kept

/-- **One verdict.** A blob `X` carries a request under its hash, with a debit that is valid for
it. When no other blob under that hash, read before the member has a verdict, is one it would
reject, every completed validation of `X` approves, and whatever the member has posted on the
request is an approval. -/
theorem verdict_kept {key X : String} {ledger : String → Option LedgerTx} {tx : LedgerTx}
    {payload : Json} {clock : ℤ}
    {c : Pool SignerState SignerState String SignerCall SignerCall.Answer Response
      {req : SignerRequest // req.Consenting}}
    (hX : ledger X = some tx) (hkey : truthyText env.pinnedBankPublicKey = some key)
    (hread : readRequest P env.encKey tx.toTx =
      .ok (some (hashValue P (payload.get? "request"), payload)))
    (hvalid : validateDebitForRequest P (payload.get? "request") (payload.get? "debit") key =
      .ok none)
    (h : (untaintedGame P env key ledger X (hashValue P (payload.get? "request"))).Reaches
      (fun _ _ => True) (.boot clock) c) :
    (∀ p ∈ c.procs, ∀ r, p.prog = .ret r →
      ValidatesX X (hashValue P (payload.get? "request")) p.req r c.state) ∧
    ∀ sub ∈ c.state.submitted, sub.requestHash = hashValue P (payload.get? "request") →
      sub.verdict = .APPROVE ∧ ∃ address signerId reason, sub.tx =
        approvalTx P address signerId (hashValue P (payload.get? "request")) .APPROVE reason := by
  have hboot : Approves P (hashValue P (payload.get? "request")) (.boot clock) :=
    ⟨rfl, fun _ h => (nomatch h), fun _ h => (nomatch h)⟩
  have hgood := Discipline.sound (approves_valid hX hread hkey (not_rejects rfl hvalid)) hboot
    (fun _ _ _ _ => ⟨trivial, fun _ _ _ => ⟨trivial, trivial⟩⟩) h
  refine ⟨fun p hp r hr body hbody hXbody hstatus => ?_, hgood.inv.submitted⟩
  obtain ⟨s₀, -, -, hgrows, -, hset⟩ := hgood.keeps p hp
  rw [hr] at hset
  obtain ⟨hverdict, sub, hsub, hhash⟩ := hset body hbody hXbody hstatus
  exact ⟨hverdict, sub, hgrows.subset hsub, hhash⟩

namespace Small

/-- A blob with the hash of the published request in front, that carries no request. -/
def poisonTx : LedgerTx where
  toTx := requestTx platform "rMallory"
    (packRequest platform [] (List.replicate 12 0) (bytesToHex requestHash) (.obj []))
  hash := "Y"

/-- A ledger with the published request and that blob. -/
def ledgerOf : String → Option LedgerTx
  | "T" => some publishedTx
  | "Y" => some poisonTx
  | _ => none

/-- The ledger serves its transactions, and takes whatever is submitted. -/
def serveLedger : (q : SignerCall) → q.Answer
  | .accountTx _ => .error "disconnected"
  | .tx hash => match ledgerOf hash with
    | some tx => .ok tx
    | none => .error "txnNotFound"
  | .submit _ => .ok "A"
  | .sleep _ => ()

/-- The second member, reading that ledger and never refusing. -/
abbrev ledgerGame : Game SignerState SignerState String SignerCall SignerCall.Answer Response
    {req : SignerRequest // req.Consenting} :=
  readingGame platform (memberEnv .cityA) Subtype.val fun _ hash tx => ledgerOf hash = some tx

/-- A validation of a transaction, which leaves the member willing. -/
def validateOf (txHash : String) : {req : SignerRequest // req.Consenting} :=
  ⟨.validate (some (.obj [("requestTxHash", .str txHash)])), trivial⟩

end Small

/-- The poisoned transaction is read as a request under the hash of the small one. -/
theorem small_readRequest_poison : readRequest Small.platform (.ok []) Small.poisonTx.toTx =
    .ok (some (bytesToHex Small.requestHash, sent (.obj []))) :=
  readRequest_requestTx rfl (by rw [Small.requestHash]; decide +kernel) (.obj [])

/-- The debit that was published is valid for the request that was published. -/
theorem small_valid : validateDebitForRequest Small.platform
    ((sent Small.published).get? "request") ((sent Small.published).get? "debit") Small.bankKey =
      .ok none := by
  decide +kernel

/-- The published request alone is approved. -/
theorem verdict_kept_small : ∃ (c : Pool SignerState SignerState String SignerCall
      SignerCall.Answer Response {req : SignerRequest // req.Consenting}) (sub : Submission),
    (untaintedGame Small.platform (Small.memberEnv .cityA) Small.bankKey Small.ledgerOf "T"
      Small.requestHashHex).Reaches (fun _ _ => True) (.boot 0) c ∧
    sub ∈ c.state.submitted ∧ sub.verdict = .APPROVE := by
  have happrove : judge Small.platform (.boot 0) Small.bankKey Small.requestHashHex
      (sent Small.published) = .ok (.APPROVE, none) := by decide +kernel
  have hbody : truthyText (some "T") = some "T" := truthyText_of_ne (by decide)
  obtain ⟨k, hawait, -, hattest⟩ := @validate_settles Small.platform config
    (Small.memberEnv .cityA) (.boot 0) (some (.obj [("requestTxHash", .str "T")])) _ Small.bankKey
    "T" Small.requestHashHex _ Small.publishedTx (sent Small.published) Small.manifest
    rfl rfl small_bankKey rfl hbody small_readRequest rfl
  obtain ⟨k', hsubmit, hdone⟩ := hattest _ _ _ rfl happrove
  obtain ⟨r, hret, hstatus⟩ := hdone (recordSubmission (Small.attesting .APPROVE none)
    (.boot 0)) "A"
  have h₀ : (untaintedGame Small.platform (Small.memberEnv .cityA) Small.bankKey Small.ledgerOf "T"
      Small.requestHashHex).Reaches (fun _ _ => True) (.boot 0) ⟨.boot 0, []⟩ := .init
  have h₁ := readingGame_spawn h₀ (Small.validateOf "T") hawait
  have h₂ := readingGame_resume h₁ 0 rfl Small.serveLedger ⟨rfl, fun h => absurd rfl h⟩ hsubmit
  have h₃ := readingGame_resume h₂ 0 rfl Small.serveLedger trivial hret
  obtain ⟨hX, -⟩ := @verdict_kept Small.platform config (Small.memberEnv .cityA) Small.bankKey "T"
    Small.ledgerOf Small.publishedTx (sent Small.published) 0 _ rfl small_bankKey small_readRequest
    small_valid h₃
  obtain ⟨-, sub, hsub, -⟩ := hX _ List.mem_cons_self r rfl _ rfl hbody hstatus
  exact ⟨_, sub, h₃, hsub, by
    obtain rfl := List.mem_singleton.mp hsub
    rfl⟩

/-- A blob of the same hash, validated first, has the published request rejected. -/
theorem verdict_poisoned_small :
    Small.ledgerOf "T" = some Small.publishedTx ∧
    readRequest Small.platform (.ok []) Small.publishedTx.toTx = .ok
      (some (hashValue Small.platform (some Small.request), sent Small.published)) ∧
    validateDebitForRequest Small.platform (some Small.request) (some Small.debit) Small.bankKey =
      .ok none ∧
    ∃ c, Small.ledgerGame.Reaches (fun _ _ => True) (.boot 0) c ∧
      ∃ p ∈ c.procs, p.req = Small.validateOf "T" ∧ ∃ r, p.prog = .ret r ∧ r.status = 200 ∧
        r.body.get? "verdict" = some (.str "REJECT") := by
  refine ⟨rfl, small_readRequest, small_valid, ?_⟩
  have hreject : judge Small.platform (.boot 0) Small.bankKey Small.requestHashHex
      (sent (.obj [])) = .ok (.REJECT, some "REQUEST_HASH_MISMATCH") := by decide +kernel
  have hbodyT : truthyText (some "T") = some "T" := truthyText_of_ne (by decide)
  have hbodyY : truthyText (some "Y") = some "Y" := truthyText_of_ne (by decide)
  obtain ⟨k, hawait, -, hattest⟩ := @validate_settles Small.platform config
    (Small.memberEnv .cityA) (.boot 0) (some (.obj [("requestTxHash", .str "Y")])) _ Small.bankKey
    "Y" Small.requestHashHex _ Small.poisonTx (sent (.obj [])) Small.manifest
    rfl rfl small_bankKey rfl hbodyY small_readRequest_poison rfl
  obtain ⟨k', hsubmit, hdone⟩ := hattest _ _ _ rfl hreject
  set s₁ := recordSubmission ⟨Small.requestHashHex, sent (.obj []), .REJECT,
    approvalTx Small.platform "rCityA" "city-a" Small.requestHashHex .REJECT
      (some "REQUEST_HASH_MISMATCH")⟩ (.boot 0) with hs₁
  obtain ⟨r, hret, -⟩ := hdone s₁ "A"
  have h₀ : Small.ledgerGame.Reaches (fun _ _ => True) (.boot 0) ⟨.boot 0, []⟩ := .init
  have h₁ := readingGame_spawn h₀ (Small.validateOf "Y") hawait
  have h₂ := readingGame_resume h₁ 0 rfl Small.serveLedger rfl hsubmit
  have h₃ := readingGame_resume h₂ 0 rfl Small.serveLedger trivial hret
  -- the verdict on that blob is what the published request gets
  obtain ⟨kT, hawaitT, hcached, -⟩ := @validate_settles Small.platform config
    (Small.memberEnv .cityA) (recordApproval Small.requestHashHex .REJECT "A" s₁)
    (some (.obj [("requestTxHash", .str "T")])) _ Small.bankKey "T" Small.requestHashHex _
    Small.publishedTx (sent Small.published) Small.manifest rfl rfl small_bankKey rfl hbodyT
    small_readRequest rfl
  have h₄ := readingGame_spawn h₃ (Small.validateOf "T") hawaitT
  have hcache : (recordApproval Small.requestHashHex .REJECT "A" s₁).approvedOnChain.get
      Small.requestHashHex = some (.REJECT, "A") := List.lookup_cons_self
  obtain ⟨r', hret', hstatus, hverdict⟩ := hcached _ _ _ hcache
  have h₅ := readingGame_resume h₄ 1 rfl Small.serveLedger rfl hret'
  exact ⟨_, h₅, _, List.mem_of_getElem? (show _[1]? = _ from rfl), rfl, r', rfl, hstatus, hverdict⟩

end NoGhost
