import Mathlib.Data.Finset.Card
import Mathlib.Data.Finset.Image
import NoGhost.Signer.Nonces

/-!
# The Consortium

The members of a consortium and the ledger they share, under a coordinator that calls them in
any order and publishes what it likes. A member is honest when it runs the signer's code with
its own wallet and the pinned key of the bank. The others are part of the world: they, the
coordinator and anybody else may put any transaction on the ledger, but none from an account
of an honest member that this member did not submit.

The approval on the ledger binds the hash of the request only, and the debit travels to the
approving and to the signing members by different routes. What links them is the bank, which
signs one debit to a request.

## Main results

* `Consortium.good_of_reaches`: every approval from an honest member's account was submitted by
  it, after it had validated a payload that is on the ledger.
* `Consortium.agreement`: behind every partial signature of an honest member stands a quorum of
  approvals of the same debit, up to the members that deviate.
-/

open Js Async

namespace NoGhost

variable (P : Platform)

/-- A consortium: what its honest members are provisioned with, which is one manifest and one bank
key, pinned at each of them. -/
structure Consortium (cfg : Config) where
  manifest : ConsortiumManifest cfg
  bankPublicKey : String
  env : cfg.SignerId → SignerEnv cfg
  honest : Finset cfg.SignerId
  pinned : ∀ m ∈ honest, (env m).pinnedBankPublicKey = some bankPublicKey
  manifest_eq : ∀ m ∈ honest, ∀ M, (env m).manifest = .ok M → M = manifest
  wallet : ∀ m ∈ honest, ∀ w, (env m).xrplWallet = some w → manifest.signerAt w.address = some m

/-- The states of the members, and the ledger with the newest transaction first, as `account_tx`
lists them. -/
@[ext] structure ConsortiumState (cfg : Config) where
  members : cfg.SignerId → SignerState
  ledger : List LedgerTx

variable {cfg : Config}

/-- The state of one member, as the part of the consortium that its handlers read and write. -/
def ConsortiumState.member (m : cfg.SignerId) : Lens (ConsortiumState cfg) SignerState where
  view s := s.members m
  put s t := { s with members := Function.update s.members m t }
  view_put s t := by simp
  put_view s := by simp
  put_put s t t' := by simp

namespace Consortium

variable (C : Consortium cfg)

/-- The members that deviate: those of the manifest that are not honest. -/
def deviating : Finset cfg.SignerId := (C.manifest.members.map (·.1)).toFinset \ C.honest

/-- A transaction that may get on the ledger: it comes from no honest member's account, or was
submitted by that member. -/
def MayPublish (s : ConsortiumState cfg) (tx : LedgerTx) : Prop :=
  ∀ m ∈ C.honest, C.manifest.signerAt tx.Account = some m →
    ∃ sub ∈ (s.members m).submitted, sub.tx = tx.toTx

/-- What the world may do: publish a transaction, or set the clock of a member. -/
def WorldMove (s s' : ConsortiumState cfg) : Prop :=
  (∃ tx, C.MayPublish s tx ∧ s' = { s with ledger := tx :: s.ledger }) ∨
    ∃ m clock, s' = (ConsortiumState.member m).put s { s.members m with clock := clock }

/-- Reading the ledger gives transactions that are on it; a call may always fail, and nothing is
promised of what it leaves out. -/
def LedgerAnswer (s : ConsortiumState cfg) : (q : SignerCall) → q.Answer → Prop
  | .accountTx _, answer => ∀ txs, answer = .ok txs → ∀ tx ∈ txs, tx ∈ s.ledger
  | .tx _, answer => ∀ tx, answer = .ok tx → tx ∈ s.ledger
  | .submit _, _ => True
  | .sleep _, _ => True

/-- A request to an honest member, from whoever it comes: the coordinator is not trusted. -/
abbrev Request := { m : cfg.SignerId // m ∈ C.honest } × SignerRequest

/-- The honest members, each with all its handlers, against the rest of the world. -/
def game : Game (ConsortiumState cfg) SignerState String SignerCall SignerCall.Answer Response
    C.Request where
  handler req := signerHandler P (C.env req.1) req.2
  place req := ConsortiumState.member req.1.1
  answers := LedgerAnswer
  moves := C.WorldMove

/-- The pools of a consortium, with the handlers of all honest members side by side. -/
abbrev CPool := Pool (ConsortiumState cfg) SignerState String SignerCall SignerCall.Answer
  Response C.Request

/-- All members at boot, each with its own clock, with an empty ledger. -/
def boot (clock : cfg.SignerId → ℤ) : ConsortiumState cfg := ⟨fun m => .boot (clock m), []⟩

/-! ### What stands behind an attestation -/

/-- The payload was read off the ledger by a member under a request hash. -/
def OnLedger (m : cfg.SignerId) (s : ConsortiumState cfg) (requestHash : String)
    (payload : Json) : Prop :=
  ∃ tx ∈ s.ledger,
    readRequest P (C.env m).encKey tx.toTx = .ok (some (requestHash, payload))

/-- What an honest member has checked when it submits an approval: it has read the payload off the
ledger, under its hash, and the debit in it is valid for the request. -/
structure Backed (m : cfg.SignerId) (s : ConsortiumState cfg) (sub : Submission) : Prop where
  read : C.OnLedger P m s sub.requestHash sub.payload
  hash : hashValue P (sub.payload.get? "request") = sub.requestHash
  validated : Validated P (sub.payload.get? "request") (sub.payload.get? "debit") C.bankPublicKey

/-- What is known of every submission of an honest member: what stands behind an approval, and the
transaction it was sent in. -/
structure Sound (m : cfg.SignerId) (s : ConsortiumState cfg) (sub : Submission) : Prop where
  backed : sub.verdict = .APPROVE → C.Backed P m s sub
  tx : ∃ wallet signerId reason, C.manifest.signerAt wallet = some m ∧
    sub.tx = approvalTx P wallet signerId sub.requestHash sub.verdict reason

/-- The invariant of the consortium: the submissions of the honest members are sound, and what is on
the ledger under their names was submitted by them. -/
structure Inv (s : ConsortiumState cfg) : Prop where
  sound : ∀ m ∈ C.honest, ∀ sub ∈ (s.members m).submitted, C.Sound P m s sub
  published : ∀ tx ∈ s.ledger, C.MayPublish s tx

/-- Nothing on the ledger and no submission is lost, which is what a suspended handler may rely on.
-/
structure Grows (s s' : ConsortiumState cfg) : Prop where
  ledger : ∀ tx ∈ s.ledger, tx ∈ s'.ledger
  submitted : ∀ m, ∀ sub ∈ (s.members m).submitted, sub ∈ (s'.members m).submitted

/-- What a segment of a handler of member `m` does: it leaves the ledger and the other members
alone, and only adds sound submissions to its own. -/
structure Step (m : cfg.SignerId) (s s' : ConsortiumState cfg) : Prop where
  ledger : s'.ledger = s.ledger
  others : ∀ m' ≠ m, s'.members m' = s.members m'
  submitted : ∀ sub ∈ (s.members m).submitted, sub ∈ (s'.members m).submitted
  sound : ∀ sub ∈ (s'.members m).submitted,
    sub ∈ (s.members m).submitted ∨ C.Sound P m s sub

/-- A returned partial was preceded by every check and by a quorum on the ledger. -/
def Signs (l : C.Request × ConsortiumState cfg) (r : Response) (s : ConsortiumState cfg) : Prop :=
  ¬ r.Withheld → ∀ body, l.1.2 = .round2 body →
    ∃ p txs approvals, presented P (C.env l.1.1) (l.2.members l.1.1) body = some p ∧
      (∀ tx ∈ txs, tx ∈ s.ledger) ∧
      readApprovals P C.manifest (hashValue P (p.body.json.get? "request")) txs = .ok approvals ∧
      cfg.XRPL_MULTISIGN_QUORUM ≤ approveCount approvals

/-- The discipline of a consortium: the invariant between segments, and what each segment of a
member may do to its own state. -/
def discipline : Discipline (C.game P) where
  inv := C.Inv P
  evolves := Grows
  rely _ _ _ := True
  gua l := C.Step P l.1.1
  compatible _ _ := True
  post := C.Signs P
  exn _ _ _ := True

variable {P C} {m : cfg.SignerId} {s s' : ConsortiumState cfg}

/-- Nothing is lost where nothing happens. -/
theorem Grows.refl (s : ConsortiumState cfg) : Grows s s := ⟨fun _ => id, fun _ _ => id⟩

/-- What was not lost by one step is not lost by the next. -/
theorem Grows.trans {s'' : ConsortiumState cfg} (h : Grows s s') (h' : Grows s' s'') :
    Grows s s'' :=
  ⟨fun tx htx => h'.ledger tx (h.ledger tx htx),
    fun m sub hsub => h'.submitted m sub (h.submitted m sub hsub)⟩

/-- A sound submission stays so as the ledger grows. -/
theorem Sound.mono {sub : Submission} (h : C.Sound P m s sub)
    (hledger : ∀ tx ∈ s.ledger, tx ∈ s'.ledger) : C.Sound P m s' sub := by
  refine ⟨fun happ => ?_, h.tx⟩
  obtain ⟨⟨tx, htx, hread⟩, hhash, hval⟩ := h.backed happ
  exact ⟨⟨tx, hledger tx htx, hread⟩, hhash, hval⟩

/-- A change of a member's state that leaves its submissions alone. -/
theorem Grows.quiet {t : SignerState} (h : t.submitted = (s.members m).submitted) :
    Grows s ((ConsortiumState.member m).put s t) := by
  refine ⟨fun _ => id, fun m' sub hsub => ?_⟩
  by_cases hm : m' = m
  · subst hm
    simpa [ConsortiumState.member, h] using hsub
  · simpa [ConsortiumState.member, hm] using hsub

/-- A segment that submits nothing may write the rest of its state as it likes. -/
theorem Step.quiet {t : SignerState} (h : t.submitted = (s.members m).submitted) :
    C.Step P m s ((ConsortiumState.member m).put s t) := by
  have hm : ((ConsortiumState.member m).put s t).members m = t := by simp [ConsortiumState.member]
  refine ⟨rfl, fun m' hm' => by simp [ConsortiumState.member, hm'], ?_, ?_⟩
  · rw [hm, h]
    exact fun _ => id
  · rw [hm, h]
    exact fun _ => .inl

/-- A segment may write nothing. -/
theorem Step.refl : C.Step P m s s := ⟨rfl, fun _ _ => rfl, fun _ => id, fun _ => .inl⟩

/-- A segment may submit what is sound. -/
theorem Step.submit {sub : Submission} (h : C.Sound P m s sub) :
    C.Step P m s ((ConsortiumState.member m).put s (recordSubmission sub (s.members m))) := by
  have hm : ((ConsortiumState.member m).put s (recordSubmission sub (s.members m))).members m =
      recordSubmission sub (s.members m) := by simp [ConsortiumState.member]
  refine ⟨rfl, fun m' hm' => by simp [ConsortiumState.member, hm'], ?_, ?_⟩
  · rw [hm]
    exact fun _ hsub => List.mem_append_left _ hsub
  · rw [hm]
    intro sub' hsub'
    rcases List.mem_append.mp hsub' with hsub' | hsub'
    · exact .inl hsub'
    · exact .inr (List.mem_singleton.mp hsub' ▸ h)

/-- What a segment writes loses nothing. -/
theorem Step.grows (h : C.Step P m s s') : Grows s s' := by
  refine ⟨fun tx htx => h.ledger ▸ htx, fun m' sub hsub => ?_⟩
  by_cases hm : m' = m
  · exact hm ▸ h.submitted sub (hm ▸ hsub)
  · rwa [h.others m' hm]

/-- A transaction that could be published can be published later. -/
theorem MayPublish.mono {tx : LedgerTx} (h : C.MayPublish s tx) (hs : Grows s s') :
    C.MayPublish s' tx := fun m hm hat => by
  obtain ⟨sub, hsub, htx⟩ := h m hm hat
  exact ⟨sub, hs.submitted m sub hsub, htx⟩

/-- A segment of an honest member keeps the invariant. -/
theorem Step.inv (h : C.Step P m s s') (hs : C.Inv P s) : C.Inv P s' := by
  have hledger : ∀ tx ∈ s.ledger, tx ∈ s'.ledger := h.grows.ledger
  refine ⟨fun m' hm' sub hsub => ?_, fun tx htx => ?_⟩
  · by_cases heq : m' = m
    · subst heq
      rcases h.sound sub hsub with hsub | hsub
      · exact (hs.sound m' hm' sub hsub).mono hledger
      · exact hsub.mono hledger
    · rw [h.others m' heq] at hsub
      exact (hs.sound m' hm' sub hsub).mono hledger
  · exact (hs.published tx (h.ledger ▸ htx)).mono h.grows

/-- The ledger and the members that deviate take nothing back. -/
theorem WorldMove.grows (h : C.WorldMove s s') : Grows s s' := by
  rcases h with ⟨tx, -, rfl⟩ | ⟨m, clock, rfl⟩
  · exact ⟨fun _ => List.mem_cons_of_mem _, fun _ _ => id⟩
  · exact .quiet rfl

/-- What reaches the ledger is a submission of an honest member or signed by somebody else, so the
invariant stands. -/
theorem WorldMove.inv (h : C.WorldMove s s') (hs : C.Inv P s) : C.Inv P s' := by
  rcases h with ⟨tx, hmay, rfl⟩ | ⟨m, clock, rfl⟩
  · have hgrows : Grows s { s with ledger := tx :: s.ledger } :=
      ⟨fun _ => List.mem_cons_of_mem _, fun _ _ => id⟩
    refine ⟨fun m hm sub hsub => (hs.sound m hm sub hsub).mono hgrows.ledger, fun tx' htx' => ?_⟩
    rcases List.mem_cons.mp htx' with rfl | htx'
    · exact hmay.mono hgrows
    · exact (hs.published tx' htx').mono hgrows
  · exact Step.inv (m := m) (.quiet rfl) hs

/-- An approving verdict means that hash and debit were checked. -/
theorem judge_approve {t : SignerState} {key requestHash : String} {payload : Json}
    {reason : Option String}
    (h : judge P t key requestHash payload = .ok (.APPROVE, reason)) :
    hashValue P (payload.get? "request") = requestHash ∧
      Validated P (payload.get? "request") (payload.get? "debit") key := by
  rw [judge] at h
  obtain ⟨request, hreq, h⟩ := bind_eq_ok.mp h
  rw [prop_ok hreq] at h
  split at h
  · cases h
  next hhash =>
    split at h
    · cases h
    · obtain ⟨debit, hdebit, h⟩ := bind_eq_ok.mp h
      obtain ⟨failure, hval, h⟩ := bind_eq_ok.mp h
      rw [prop_ok hdebit] at hval
      cases failure with
      | some f => cases h
      | none => exact ⟨not_not.mp hhash, validateDebitForRequest_ok hval⟩

/-- Every handler of an honest member keeps to the discipline: the cases are the requests, and only
validations and rounds 2 do more than write its own state. -/
theorem handler_spec (req : C.Request) (s : ConsortiumState cfg) (hs : C.Inv P s) :
    wpa ((C.discipline P).contract (req, s)) (ConsortiumState.member req.1.1)
      (signerHandler P (C.env req.1) req.2)
      (fun r b s' => C.Step P req.1.1 b s' ∧ C.Signs P (req, s) r s')
      (fun _ b s' => C.Step P req.1.1 b s' ∧ True) s s := by
  obtain ⟨⟨m, hm⟩, req⟩ := req
  have hresume : ∀ q s₁ r s₂, C.Inv P s₁ →
      ((C.discipline P).contract ((⟨m, hm⟩, req), s)).resume q s₁ r s₂ →
      C.Inv P s₂ ∧ C.Step P m s₂ s₂ := fun q s₁ r s₂ _ hr => ⟨hr.2.1, .refl⟩
  have hquiet : ∀ {b t : SignerState}, Forgets b t → t.submitted = b.submitted := by
    rintro b t ⟨keep, rfl⟩
    rfl
  have hwithheld : ∀ {r : Response} {s' : ConsortiumState cfg}, r.Withheld →
      C.Signs P ((⟨m, hm⟩, req), s) r s' := fun h hr => absurd h hr
  cases req with
  | sweep => exact ⟨Step.quiet rfl, hwithheld rfl⟩
  | online body => exact (wpa_admin fun r _ _ _ hr => ⟨Step.quiet rfl, hwithheld hr⟩).1
  | refuse body => exact (wpa_admin fun r _ _ _ hr => ⟨Step.quiet rfl, hwithheld hr⟩).2
  | round1 body draws =>
      exact wpa_round1 (fun r t ht hr => ⟨Step.quiet (hquiet ht), hwithheld hr⟩)
        (fun r t id nonces ht hr => ⟨Step.quiet (show t.submitted = _ from hquiet ht),
          hwithheld hr⟩)
        (fun e t ht => ⟨Step.quiet (hquiet ht), trivial⟩)
  | signReceipt body =>
      exact wpa_signReceipt (J := C.Inv P) .refl hs hresume
        (fun r b s' hseg _ hr => ⟨hseg, hwithheld hr⟩) (fun e b s' hseg _ => ⟨hseg, trivial⟩)
  | validate body =>
      refine wpa_validate (J := C.Inv P) .refl hs hresume
        (fun r b s' hseg _ hr => ⟨hseg, hwithheld hr⟩) (fun sub s' hs' hjudged => ?_)
        (fun r s' hash verdict txHash _ hr => ⟨Step.quiet rfl, hwithheld hr⟩)
      obtain ⟨⟨hash, tx, s₀, -, hr, hread⟩, key, wallet, reason, hkey, hwallet, hj, htx⟩ := hjudged
      have hsound : C.Sound P m s' sub := by
        refine ⟨fun happ => ?_, wallet.address, _, reason, C.wallet m hm wallet hwallet, htx⟩
        rw [happ] at hj
        obtain ⟨hhash, hval⟩ := judge_approve hj
        rw [C.pinned m hm] at hkey
        rw [← eq_of_truthyText hkey] at hval
        exact ⟨⟨tx, hr.2.2.2 tx rfl, hread⟩, hhash, hval⟩
      have hstep := Step.submit hsound
      exact ⟨hstep, hstep.inv hs'⟩
  | round2 body =>
      refine wpa_round2 (fun r t ht hr => ⟨Step.quiet (hquiet ht), hwithheld hr⟩)
        (fun e t ht => ⟨Step.quiet (hquiet ht), trivial⟩) fun p hp => ?_
      have hsweep : C.Step P m s
          ((ConsortiumState.member m).put s (sweepExpiredSessions (s.members m))) :=
        Step.quiet rfl
      refine wpa_round2Gate (J := C.Inv P) hsweep (hsweep.inv hs) hresume
        (fun r s' _ hr => ⟨Step.quiet rfl, hwithheld hr⟩) (fun r s' n _ hcount hn => ?_)
        (fun e b s' hseg _ => ⟨hseg, trivial⟩)
      refine ⟨Step.quiet rfl, fun _ body' hbody' => ?_⟩
      cases hbody'
      obtain ⟨M, txs, approvals, s₀, hM, -, hr, hread, rfl⟩ := hcount
      obtain rfl := C.manifest_eq m hm M hM
      exact ⟨p, txs, approvals, hp, hr.2.2.2 txs rfl, hread, hn⟩

/-- **The discipline holds** of the consortium: the steps keep the invariant, and the handlers keep
to the steps. -/
theorem discipline_valid : (C.discipline P).Valid where
  evolves_refl := Grows.refl
  evolves_trans := Grows.trans
  rely_refl _ _ := trivial
  rely_trans _ _ := trivial
  handler_spec req s hs _ := handler_spec req s hs
  gua_inv hs h := ⟨h.inv hs, h.grows⟩
  gua_rely _ _ _ := trivial
  moves_inv hs h := ⟨h.inv hs, h.grows⟩
  moves_rely _ _ := trivial

/-- Every pool that is reached from boot is good: the invariant holds there, and every handler is
where its proof says. -/
theorem good_of_reaches {clock : cfg.SignerId → ℤ} {c : C.CPool}
    (h : (C.game P).Reaches (fun _ _ => True) (boot clock) c) : (C.discipline P).Good c :=
  Discipline.sound discipline_valid
    ⟨fun _ _ _ hsub => absurd hsub List.not_mem_nil, fun _ htx => absurd htx List.not_mem_nil⟩
    (fun _ _ _ _ => ⟨trivial, fun _ _ _ => ⟨trivial, trivial⟩⟩) h

/-! ### Agreement -/

variable (P C)

/-- What honest members were asked to sign, and what they can read off the ledger. -/
def Seen (c : C.CPool) (v : Json) : Prop :=
  (∃ p ∈ c.procs, p.req.2 = .round2 (some v)) ∨
    ∃ m ∈ C.honest, ∃ requestHash, C.OnLedger P m c.state requestHash v

/-- What is assumed of the bank: a debit that is seen and verifies was signed by it, and it
signs one debit to a request. -/
structure BankSignsOnce (c : C.CPool) (signed : Set DebitSignedPayload) : Prop where
  authentic : ∀ v, C.Seen P c v → verifyBankSignature P (v.get? "debit") C.bankPublicKey = true →
    ∀ payload, signedPayload (v.get? "debit") = .ok payload →
      ∃ d ∈ signed, canonicalBytes P (some payload) = canonicalBytes P (some d.toJson)
  once : ∀ d ∈ signed, ∀ d' ∈ signed, d.requestId = d'.requestId → d = d'

/-- No two requests that are seen have one hash, which is what SHA-256 is relied on for. -/
def CollisionFree (c : C.CPool) : Prop :=
  ∀ v w, C.Seen P c v → C.Seen P c w →
    hashValue P (v.get? "request") = hashValue P (w.get? "request") →
    canonicalBytes P (v.get? "request") = canonicalBytes P (w.get? "request")

/-- Member `m` has posted an approval of the request in `body`, after it had validated, from a
payload on the ledger, a debit with the signed fields of the one in `body`. -/
structure Attested (m : cfg.SignerId) (s : ConsortiumState cfg) (body : Json)
    (sub : Submission) : Prop where
  submitted : sub ∈ (s.members m).submitted
  posted : ∃ tx ∈ s.ledger, tx.toTx = sub.tx
  approve : sub.verdict = .APPROVE
  requestHash : sub.requestHash = hashValue P (body.get? "request")
  backed : C.Backed P m s sub
  same : ∀ k ∈ signedFields,
    prop? (sub.payload.get? "debit") k = prop? (body.get? "debit") k

variable {P C}

/-- The signed fields of a debit that is seen and passed its checks are those of a debit that
the bank signed for the request. -/
theorem BankSignsOnce.exists_signed {c : C.CPool} {signed : Set DebitSignedPayload}
    (hbank : C.BankSignsOnce P c signed) {v : Json} (hv : C.Seen P c v)
    (hval : Validated P (v.get? "request") (v.get? "debit") C.bankPublicKey) :
    ∃ d ∈ signed, (∀ k ∈ signedFields, prop? (v.get? "debit") k = d.toJson.get? k) ∧
      prop? (v.get? "request") "requestId" = some (.str d.requestId) := by
  obtain ⟨payload, hpayload⟩ := signedPayload_of_verified hval.verified
  obtain ⟨d, hd, hbytes⟩ := hbank.authentic v hv hval.verified payload hpayload
  have hfields := fun k (hk : k ∈ signedFields) => prop?_of_canonicalBytes hpayload hbytes hk
  refine ⟨d, hd, hfields, ?_⟩
  rw [← eq_of_strictEq hval.requestId]
  exact hfields "requestId" (by decide)

/-- **One debit behind one hash.** Two requests that are seen, with debits that pass the checks,
and that have one hash, have one debit. -/
theorem same_debit {c : C.CPool} {signed : Set DebitSignedPayload}
    (hbank : C.BankSignsOnce P c signed) (hcoll : C.CollisionFree P c) {v w : Json}
    (hv : C.Seen P c v) (hw : C.Seen P c w) (hvd : v.Distinct) (hwd : w.Distinct)
    (hvval : Validated P (v.get? "request") (v.get? "debit") C.bankPublicKey)
    (hwval : Validated P (w.get? "request") (w.get? "debit") C.bankPublicKey)
    (hhash : hashValue P (v.get? "request") = hashValue P (w.get? "request")) :
    ∀ k ∈ signedFields, prop? (v.get? "debit") k = prop? (w.get? "debit") k := by
  obtain ⟨d, hd, hvfields, hvid⟩ := hbank.exists_signed hv hvval
  obtain ⟨d', hd', hwfields, hwid⟩ := hbank.exists_signed hw hwval
  have hbytes := hcoll v w hv hw hhash
  have hid : d.requestId = d'.requestId := by
    cases hvr : v.get? "request" with
    | none => rw [hvr] at hvid; cases hvid
    | some r =>
        cases hwr : w.get? "request" with
        | none => rw [hwr] at hwid; cases hwid
        | some r' =>
            rw [hvr] at hvid hbytes
            rw [hwr] at hwid hbytes
            have hnd : ∀ {u x : Json}, u.Distinct → u.get? "request" = some x →
                ∀ fs, x = .obj fs → (fs.map Prod.fst).Nodup := by
              rintro u x hu hx fs rfl
              exact (hu.get? hx).1
            have h := (get?_of_canonicalBytes P (hnd hvd hvr) (hnd hwd hwr) hbytes
              (by decide) (.str d.requestId)).mp hvid
            have := h.symm.trans hwid
            simpa using this
  obtain rfl := hbank.once d hd d' hd' hid
  exact fun k hk => (hvfields k hk).trans (hwfields k hk).symm

/-- An approval that counts, from an honest member, is one of its sound submissions. -/
theorem Inv.submission {s : ConsortiumState cfg} (hs : C.Inv P s) {requestHash : String}
    {a : ApprovalRecord cfg} {tx : LedgerTx} {memo : ParsedMemo} (htx : tx ∈ s.ledger)
    (ha : Attestation P C.manifest requestHash a tx memo) (hm : a.signerId ∈ C.honest)
    (happ : a.approves = true) :
    ∃ sub ∈ (s.members a.signerId).submitted, tx.toTx = sub.tx ∧ sub.verdict = .APPROVE ∧
      sub.requestHash = requestHash ∧ C.Backed P a.signerId s sub := by
  obtain ⟨sub, hsub, hsubtx⟩ := hs.published tx htx a.signerId hm ha.account
  have hsound := hs.sound a.signerId hm sub hsub
  obtain ⟨wallet, signerId, reason, -, heq⟩ := hsound.tx
  have hmemo := ha.memo
  rw [← hsubtx, heq] at hmemo
  obtain ⟨hhash, hverdict⟩ := parse_approvalTx hmemo ha.kind ha.requestHash
  have happrove := hverdict (ha.approve happ)
  exact ⟨sub, hsub, hsubtx.symm, happrove, hhash, hsound.backed happrove⟩

/-- **Agreement behind every partial.** When an honest member's round 2 has returned a partial
signature, the debit verified under the bank's key and matched the request, and at least a
quorum less `f` of the honest members have posted an approval of that request, each after it
had validated a debit with the same signed fields off the ledger. -/
theorem agreement {clock : cfg.SignerId → ℤ} {c : C.CPool}
    (h : (C.game P).Reaches (fun _ _ => True) (boot clock) c) {signed : Set DebitSignedPayload}
    (hbank : C.BankSignsOnce P c signed) (hcoll : C.CollisionFree P c) {f : ℕ}
    (hf : C.deviating.card ≤ f) {p : Proc (ConsortiumState cfg) SignerState String SignerCall
      SignerCall.Answer Response C.Request} (hp : p ∈ c.procs) {body : Json}
    (hbody : body.Distinct) (hreq : p.req.2 = .round2 (some body)) {r : Response}
    (hr : p.prog = .ret r) (hshown : ¬ r.Withheld) :
    Validated P (body.get? "request") (body.get? "debit") C.bankPublicKey ∧
    ∃ A : Finset cfg.SignerId, A ⊆ C.honest ∧ cfg.XRPL_MULTISIGN_QUORUM - f ≤ A.card ∧
      ∀ m ∈ A, ∃ sub, C.Attested P m c.state body sub := by
  have hgood := good_of_reaches h
  have hinv := hgood.inv
  obtain ⟨s₀, -, -, hgrows, -, hset⟩ := hgood.keeps p hp
  rw [hr] at hset
  obtain ⟨q, txs, approvals, hq, htxs, hread, hquorum⟩ := hset hshown (some body) hreq
  obtain ⟨json, hjson, hparsed, -, hkey, hchecks⟩ := presented_eq_some hq
  cases hjson
  have hqbody : q.body.json = body := by
    rw [round2Body] at hparsed
    split at hparsed
    · split at hparsed
      · exact (Option.some.inj hparsed) ▸ rfl
      · cases hparsed
    · cases hparsed
  rw [hqbody] at hread
  rw [show (C.env p.label.1.1).pinnedBankPublicKey = _ from C.pinned _ p.req.1.2] at hkey
  rw [← eq_of_truthyText hkey] at hchecks
  obtain ⟨expected, hacc⟩ := runWall1TokenChecks_ok hchecks
  refine ⟨hacc.validated, ?_⟩
  -- the members whose approvals were counted, deviating ones included
  set ids := (approvals.filter (·.approves)).map (·.signerId) with hids
  have hnodup : ids.Nodup :=
    (List.filter_sublist.map _).nodup (readApprovals_nodup hread)
  have hattest : ∀ id ∈ ids, ∃ a, a.signerId = id ∧ a.approves = true ∧
      ∃ tx ∈ c.state.ledger, ∃ memo,
        Attestation P C.manifest (hashValue P (body.get? "request")) a tx memo := by
    intro id hid
    obtain ⟨a, ha, rfl⟩ := List.mem_map.mp hid
    obtain ⟨ha, happ⟩ := List.mem_filter.mp ha
    obtain ⟨tx, htx, memo, hatt⟩ := readApprovals_mem hread ha
    exact ⟨a, rfl, happ, tx, hgrows.ledger tx (htxs tx htx), memo, hatt⟩
  refine ⟨ids.toFinset ∩ C.honest, Finset.inter_subset_right, ?_, fun m hm => ?_⟩
  · have hsub : ids.toFinset \ C.honest ⊆ C.deviating := by
      intro id hid
      obtain ⟨hid, hdev⟩ := Finset.mem_sdiff.mp hid
      obtain ⟨a, rfl, -, tx, -, memo, hatt⟩ := hattest id (List.mem_toFinset.mp hid)
      exact Finset.mem_sdiff.mpr
        ⟨List.mem_toFinset.mpr (ConsortiumManifest.mem_of_signerAt hatt.account), hdev⟩
    have hcard := Finset.card_inter_add_card_sdiff ids.toFinset C.honest
    have hlength : ids.length = approveCount approvals := List.length_map _
    rw [List.toFinset_card_of_nodup hnodup, hlength] at hcard
    have hdev := (Finset.card_le_card hsub).trans hf
    omega
  · obtain ⟨hid, hhonest⟩ := Finset.mem_inter.mp hm
    obtain ⟨a, rfl, happ, tx, htx, memo, hatt⟩ := hattest m (List.mem_toFinset.mp hid)
    obtain ⟨sub, hsub, hsubtx, hverdict, hhash, hback⟩ := hinv.submission htx hatt hhonest happ
    obtain ⟨tx', htx', hreadtx⟩ := hback.read
    have hseen : C.Seen P c sub.payload :=
      .inr ⟨a.signerId, hhonest, sub.requestHash, tx', htx', hreadtx⟩
    refine ⟨sub, hsub, ⟨tx, htx, hsubtx⟩, hverdict, hhash, hback, ?_⟩
    exact same_debit hbank hcoll hseen (.inl ⟨p, hp, hreq⟩) (readRequest_distinct hreadtx) hbody
      hback.validated hacc.validated (hback.hash.trans hhash)

end Consortium

/-! ### Two honest members -/

namespace Small

/-- What the members are provisioned with; the second one has a wallet. -/
def memberEnv : SignerId → SignerEnv config
  | .utility => signerEnv
  | .cityA =>
      { signerEnv with
        info := ⟨.cityA, 2⟩
        xrplWallet := some ⟨"rCityA", fun _ => .error "not multisigned"⟩ }
  | .cityB => { signerEnv with info := ⟨.cityB, 3⟩ }

/-- A consortium whose third member deviates, while the other two are honest. -/
def consortium : Consortium config where
  manifest := manifest
  bankPublicKey := bankKey
  env := memberEnv
  honest := {.utility, .cityA}
  pinned m _ := by cases m <;> rfl
  manifest_eq m _ M hM := by cases m <;> exact (Except.ok.inj hM).symm
  wallet m _ w hw := by
    cases m with
    | utility => cases hw
    | cityA => cases hw; decide
    | cityB => cases hw

/-- The first member is honest. -/
theorem honest_utility : SignerId.utility ∈ consortium.honest := Finset.mem_insert_self _ _

/-- The second member is honest. -/
theorem honest_cityA : SignerId.cityA ∈ consortium.honest :=
  Finset.mem_insert_of_mem (Finset.mem_singleton_self _)

/-- The hash of the small request, as the bytes that a memo carries. -/
def requestHash : Bytes := platform.sha256 (canonicalBytes platform (some request))

/-- What is published for the small request: the request with its debit. -/
def published : Json := .obj [("request", request), ("debit", debit)]

/-- The transaction that carries it, as the coordinator submits it. -/
def publishedTx : LedgerTx where
  toTx := requestTx platform "rCoordinator"
    (packRequest platform [] (List.replicate 12 0) (bytesToHex requestHash) published)
  hash := "T"

/-- The approval of the second member, as its own validation submits it. -/
def attestation : LedgerTx where
  toTx := approvalTx platform "rCityA" "city-a" (bytesToHex requestHash) .APPROVE none
  hash := "A"

/-- An approval of the third member, which has checked nothing and still counts as one voice. -/
def forged : LedgerTx := ⟨⟨"rCityB", [approvalMemo]⟩, "B"⟩

/-- What the second member keeps of its approval, with the payload it has read. -/
def submission : Submission :=
  ⟨bytesToHex requestHash, sent published, .APPROVE, attestation.toTx⟩

/-- The ledger serves the published request, and nothing else. -/
def serveRequest : (q : SignerCall) → q.Answer
  | .accountTx _ => .error "disconnected"
  | .tx _ => .ok publishedTx
  | .submit _ => .error "disconnected"
  | .sleep _ => ()

/-- The ledger serves the attestations, that of the deviating member among them. -/
def serveApprovals : (q : SignerCall) → q.Answer
  | .accountTx _ => .ok [forged, attestation]
  | .tx _ => .error "disconnected"
  | .submit _ => .error "disconnected"
  | .sleep _ => ()

/-- The second member is asked to validate the published request. -/
def validateRequest : consortium.Request :=
  (⟨.cityA, honest_cityA⟩, .validate (some (.obj [("requestTxHash", .str "T")])))

/-- The first member is asked for its nonce commitments. -/
def round1Request : consortium.Request :=
  (⟨.utility, honest_utility⟩, .round1 (sessionBody []) [[1], [2]])

/-- The body of the round 2 that follows, over the commitments of the first member alone. -/
def signBody : Json := (ceremonyBody [commitmentJson 1 ownRound1]).getD .null

/-- The first member is asked for its partial signature. -/
def signRequest : consortium.Request :=
  (⟨.utility, honest_utility⟩, .round2 (some signBody))

/-- The first member after its round 1, with the session that it keeps. -/
def afterRound1 : SignerProg Response × SignerState :=
  (signerHandler platform (memberEnv .utility) round1Request.2).settle (.boot 0)

/-- Its round 2 up to the gate, where it awaits the attestations on the ledger. -/
def atGate : SignerProg Response × SignerState :=
  (signerHandler platform (memberEnv .utility) signRequest.2).settle afterRound1.2

/-- What a handler at the gate answers when the attestations are served. -/
def served : SignerProg Response × SignerState → Option Response
  | (.await q k, s) => match (k (serveApprovals q)).settle s with
    | (.ret r, _) => some r
    | _ => none
  | _ => none

/-- The debit that the bank signed for the small request. -/
def signed : DebitSignedPayload where
  debitRef := "DBT-1"
  requestId := "REQ-1"
  meterId := "MTR-1001"
  amountKwh := 10
  amount := 25
  currency := "ZAR"
  confirmedAt := "2025-01-01T00:00:00.000Z"

/-- The states of the first two members, and the ledger; the third member is at boot. -/
def stateOf (utility cityA : SignerState) (ledger : List LedgerTx) : ConsortiumState config where
  members
    | .utility => utility
    | .cityA => cityA
    | .cityB => .boot 0
  ledger := ledger

/-- The pools that a run from boot leads to. -/
abbrev Reached (c : consortium.CPool) : Prop :=
  (consortium.game platform).Reaches (fun _ _ => True) (stateOf (.boot 0) (.boot 0) []) c

/-- The consortium at boot in these terms. -/
theorem boot_eq : Consortium.boot (fun _ => 0) = stateOf (.boot 0) (.boot 0) [] :=
  ConsortiumState.ext (funext fun m => by cases m <;> rfl) rfl

/-- A write of the first member in these terms. -/
theorem put_utility (u a t : SignerState) (ledger : List LedgerTx) :
    (ConsortiumState.member SignerId.utility).put (stateOf u a ledger) t = stateOf t a ledger :=
  ConsortiumState.ext (funext fun m => by cases m <;> rfl) rfl

/-- A write of the second member in these terms. -/
theorem put_cityA (u a t : SignerState) (ledger : List LedgerTx) :
    (ConsortiumState.member SignerId.cityA).put (stateOf u a ledger) t = stateOf u t ledger :=
  ConsortiumState.ext (funext fun m => by cases m <;> rfl) rfl

section Steps

variable {u a t : SignerState} {ledger : List LedgerTx}
  {procs : List (Proc (ConsortiumState config) SignerState String SignerCall SignerCall.Answer
    Response consortium.Request)} {prog : SignerProg Response}

/-- A transaction that may be published is put on the ledger by a move of the world. -/
theorem publish (h : Reached ⟨stateOf u a ledger, procs⟩) (tx : LedgerTx)
    (hmay : consortium.MayPublish (stateOf u a ledger) tx) :
    Reached ⟨stateOf u a (tx :: ledger), procs⟩ :=
  h.world (.inl ⟨tx, hmay, rfl⟩)

/-- The first member starts a handler, which runs up to its first await. -/
theorem utility_spawn (h : Reached ⟨stateOf u a ledger, procs⟩) (req : SignerRequest)
    (hset : (signerHandler platform (memberEnv .utility) req).settle u = (prog, t)) :
    Reached ⟨stateOf t a ledger,
      procs ++ [⟨(⟨.utility, honest_utility⟩, req), stateOf u a ledger, prog⟩]⟩ := by
  rw [← put_utility u a t]
  exact Game.Reaches.spawn h (⟨.utility, honest_utility⟩, req) trivial hset

end Steps

end Small

/-- The published transaction is read as the request with its hash. -/
theorem small_readRequest : readRequest Small.platform (.ok []) Small.publishedTx.toTx =
    .ok (some (bytesToHex Small.requestHash, sent Small.published)) :=
  readRequest_requestTx rfl (by rw [Small.requestHash]; decide +kernel) Small.published

/-- The second member approves the published request: it reads the transaction, submits its approval
and returns. -/
theorem small_validate : ∃ k, (signerHandler Small.platform (Small.memberEnv .cityA)
    Small.validateRequest.2).settle (.boot 0) = (.await (.tx "T") k, .boot 0) ∧
    ∃ k', (k (.ok Small.publishedTx)).settle (.boot 0) =
      (.await (.submit Small.attestation.toTx) k',
        recordSubmission Small.submission (.boot 0)) := by
  have hkey : truthyText (some Small.bankKey) = some Small.bankKey :=
    truthyText_of_ne (by decide +kernel)
  have hjudge : judge Small.platform (.boot 0) Small.bankKey (bytesToHex Small.requestHash)
      (sent Small.published) = .ok (.APPROVE, none) := by decide +kernel
  have hbody : truthyText (some "T") = some "T" := truthyText_of_ne (by decide)
  obtain ⟨k, hawait, -, hattest⟩ := @validate_settles Small.platform config
    (Small.memberEnv .cityA) (.boot 0) (some (.obj [("requestTxHash", .str "T")])) _ Small.bankKey
    "T" (bytesToHex Small.requestHash) _ Small.publishedTx (sent Small.published) Small.manifest
    rfl rfl hkey rfl hbody small_readRequest rfl
  obtain ⟨k', hsubmit, -⟩ := hattest (.boot 0) .APPROVE none rfl hjudge
  exact ⟨k, hawait, k', hsubmit⟩

/-- A handler that is served its first call and returns was suspended at that call. -/
theorem Small.served_eq_some {out : SignerProg Response × SignerState} {r : Response}
    (h : Small.served out = some r) : ∃ q k t s, out = (.await q k, t) ∧
      (k (Small.serveApprovals q)).settle t = (.ret r, s) := by
  unfold Small.served at h
  split at h
  next q k t =>
    split at h
    next r' s' hret => exact ⟨q, k, t, s', rfl, Option.some.inj h ▸ hret⟩
    next => cases h
  next => cases h

/-- The first member returns a partial signature once the ledger has two approvals. -/
theorem small_sign : ∃ p₁ t₁ q k t₂ r s,
    (signerHandler Small.platform (Small.memberEnv .utility) Small.round1Request.2).settle
      (.boot 0) = (p₁, t₁) ∧
    (signerHandler Small.platform (Small.memberEnv .utility) Small.signRequest.2).settle t₁ =
      (.await q k, t₂) ∧
    (k (Small.serveApprovals q)).settle t₂ = (.ret r, s) ∧ ¬ r.Withheld := by
  have hserved : ((Small.served Small.atGate).bind (·.body.get? "zi")).isSome = true := by
    decide +kernel
  obtain ⟨zi, hzi⟩ := Option.isSome_iff_exists.mp hserved
  obtain ⟨r, hr, hzi⟩ := Option.bind_eq_some_iff.mp hzi
  obtain ⟨q, k, t₂, s, hgate, hret⟩ := Small.served_eq_some hr
  refine ⟨_, _, q, k, t₂, r, s, Prod.mk.eta.symm, hgate, hret, fun h => ?_⟩
  rw [show r.body.get? "zi" = none from h] at hzi
  cases hzi

/-- The address of the second member is in the manifest. -/
theorem small_signerAt_cityA : Small.manifest.signerAt "rCityA" = some SignerId.cityA := rfl

/-- So is the address of the third member. -/
theorem small_signerAt_cityB : Small.manifest.signerAt "rCityB" = some SignerId.cityB := rfl

/-- An attestation is no request, so that only the published transaction is read as one. -/
theorem small_readRequest_attestation :
    readRequest Small.platform (.ok []) Small.attestation.toTx = .ok none ∧
      readRequest Small.platform (.ok []) Small.forged.toTx = .ok none := by
  have h : rawMemoData Small.platform Small.attestation.toTx .request = none ∧
      rawMemoData Small.platform Small.forged.toTx .request = none := by decide +kernel
  rw [readRequest, readRequest, h.1, h.2]
  exact ⟨rfl, rfl⟩

/-- What is seen in the example is the body of the round 2 and what was published. -/
theorem small_seen {c : Small.consortium.CPool}
    (hprocs : ∀ p ∈ c.procs, p.req ∈ [Small.validateRequest, Small.round1Request,
      Small.signRequest])
    (hledger : c.state.ledger = [Small.forged, Small.attestation, Small.publishedTx]) {v : Json}
    (hv : Small.consortium.Seen Small.platform c v) :
    v = Small.signBody ∨ v = sent Small.published := by
  rcases hv with ⟨p, hp, hreq⟩ | ⟨m, -, hash, tx, htx, hread⟩
  · have := hprocs p hp
    simp only [List.mem_cons, List.not_mem_nil, or_false] at this
    rcases this with h | h | h <;> rw [h] at hreq <;> cases hreq
    exact .inl rfl
  · rw [hledger] at htx
    have hkey : (Small.consortium.env m).encKey = .ok [] := by cases m <;> rfl
    rw [hkey] at hread
    simp only [List.mem_cons, List.not_mem_nil, or_false] at htx
    rcases htx with rfl | rfl | rfl
    · rw [small_readRequest_attestation.2] at hread
      cases hread
    · rw [small_readRequest_attestation.1] at hread
      cases hread
    · rw [small_readRequest] at hread
      exact .inr (congrArg Prod.snd (Option.some.inj (Except.ok.inj hread))).symm

/-- The two speak of one request and one debit. -/
theorem small_same {v : Json} (hv : v = Small.signBody ∨ v = sent Small.published) :
    v.get? "request" = some Small.request ∧ v.get? "debit" = some Small.debit := by
  rcases hv with rfl | rfl
  · exact ⟨rfl, rfl⟩
  · exact ⟨rfl, rfl⟩

/-- The debit of the example is signed over its seven fields. -/
theorem small_signed : signedPayload (some Small.debit) = .ok Small.signed.toJson := rfl

/-- The request is published, the second member attests it, and the first one signs. -/
theorem small_run : ∃ c : Small.consortium.CPool,
    (Small.consortium.game Small.platform).Reaches (fun _ _ => True)
      (Consortium.boot fun _ => 0) c ∧
    (∀ p ∈ c.procs, p.req ∈ [Small.validateRequest, Small.round1Request, Small.signRequest]) ∧
    c.state.ledger = [Small.forged, Small.attestation, Small.publishedTx] ∧
    ∃ p ∈ c.procs, p.req = Small.signRequest ∧ ∃ r, p.prog = .ret r ∧ ¬ r.Withheld := by
  obtain ⟨k, hawait, k', hsubmit⟩ := small_validate
  obtain ⟨p₁, t₁, q, k₁, t₂, r, t₃, hround1, hgate, hret, hshown⟩ := small_sign
  have hplace : (Small.consortium.game Small.platform).place Small.validateRequest =
      ConsortiumState.member SignerId.cityA := rfl
  -- the request is published, and the second member attests it
  have h₁ := Small.publish .init Small.publishedTx (fun m _ hat => nomatch hat)
  have h₂ := Game.Reaches.spawn h₁ Small.validateRequest trivial hawait
  rw [hplace, Small.put_cityA] at h₂
  have h₃ := h₂.resume 0 rfl Small.serveRequest
    (fun _ htx => Except.ok.inj htx ▸ List.mem_singleton_self _) hsubmit
  rw [hplace, Small.put_cityA] at h₃
  have h₄ := Small.publish h₃ Small.attestation (fun m _ hat => by
    cases small_signerAt_cityA.symm.trans hat
    exact ⟨Small.submission, List.mem_singleton_self _, rfl⟩)
  have h₅ := Small.publish h₄ Small.forged (fun m hm hat => by
    cases small_signerAt_cityB.symm.trans hat
    have hdev : SignerId.cityB ∉ ({.utility, .cityA} : Finset SignerId) := by decide
    exact absurd hm hdev)
  -- the first member signs
  have h₆ := Small.utility_spawn h₅ Small.round1Request.2 hround1
  have h₇ := Small.utility_spawn h₆ Small.signRequest.2 hgate
  have hserve : (Small.consortium.game Small.platform).answers
      (Small.stateOf t₂ (recordSubmission Small.submission (.boot 0))
        [Small.forged, Small.attestation, Small.publishedTx]) q (Small.serveApprovals q) := by
    cases q with
    | accountTx account =>
        rintro txs htxs tx htx
        cases htxs
        exact List.mem_append_left [Small.publishedTx] htx
    | tx hash => exact fun tx htx => nomatch htx
    | submit tx => trivial
    | sleep ms => trivial
  have h₈ := Game.Reaches.resume h₇ 2 rfl Small.serveApprovals hserve hret
  rw [← Small.boot_eq] at h₈
  refine ⟨_, h₈, ?_, rfl, _, List.mem_of_getElem? (show _[2]? = _ from rfl), rfl, r, rfl, hshown⟩
  intro p hp
  simp only [List.nil_append, List.set_cons_zero, List.cons_append, List.set_cons_succ,
    List.mem_cons, List.not_mem_nil, or_false] at hp
  rcases hp with rfl | rfl | rfl
  · exact List.mem_cons_self
  · exact List.mem_cons_of_mem _ List.mem_cons_self
  · exact List.mem_cons_of_mem _ (List.mem_cons_of_mem _ List.mem_cons_self)

/-- A run over the small platform in which the first member returns a partial, and somebody
honest stands behind it. -/
theorem agreement_small : ∃ (c : Small.consortium.CPool) (m : SignerId) (sub : Submission),
    m ∈ Small.consortium.honest ∧
      Small.consortium.Attested Small.platform m c.state Small.signBody sub := by
  obtain ⟨c, hc, hprocs, hledger, p, hp, hreq, r, hr, hshown⟩ := small_run
  have hsame := fun v hv => small_same (small_seen hprocs hledger (v := v) hv)
  have hbank : Small.consortium.BankSignsOnce Small.platform c {Small.signed} := by
    refine ⟨fun v hv _ payload hpayload => ⟨_, rfl, ?_⟩, fun d hd d' hd' _ => hd.trans hd'.symm⟩
    rw [(hsame v hv).2, small_signed] at hpayload
    rw [Except.ok.inj hpayload]
  have hcoll : Small.consortium.CollisionFree Small.platform c := fun v w hv hw _ => by
    rw [(hsame v hv).1, (hsame w hw).1]
  have hdev : Small.consortium.deviating.card ≤ 1 :=
    show (({.utility, .cityA, .cityB} : Finset SignerId) \ {.utility, .cityA}).card ≤ 1 by decide
  have hbody : Small.signBody.Distinct := by
    obtain ⟨-, hrequest, hdebit, htoken, -, -⟩ := small_round2Request_distinct small_distinct
    exact ⟨show ["sessionId", "request", "debit", "tokenPayload", "messageHex",
      "commitments"].Nodup by decide, trivial, hrequest, hdebit, htoken, trivial,
      ⟨⟨show ["identifier", "hiding", "binding"].Nodup by decide, trivial, trivial, trivial,
        trivial⟩, trivial⟩, trivial⟩
  obtain ⟨-, A, hA, hcard, hatt⟩ := Consortium.agreement hc hbank hcoll hdev hp hbody
    (congrArg Prod.snd hreq) hr hshown
  obtain ⟨m, hm⟩ := Finset.card_pos.mp (show 0 < A.card from hcard)
  obtain ⟨sub, hsub⟩ := hatt m hm
  exact ⟨c, m, sub, hA hm, hsub⟩

end NoGhost
