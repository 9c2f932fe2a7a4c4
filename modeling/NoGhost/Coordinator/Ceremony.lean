import NoGhost.Async.Logic
import NoGhost.Coordinator.Pipeline
import NoGhost.Frost.Signing

/-!
# The Ceremony of the Coordinator

One FROST ceremony as the coordinator runs it, with signers that answer anything. A share is
kept only after it was verified against the dealer's verification share, so whatever the
commitments are, the kept shares add up to a valid signature.

## Main results

* `wp_collectShares`, `wp_runCeremony`: what a ceremony ends with.
* `wp_collectShares_cons`: one turn of round 2.
* `ceremony_attributes`: exactly one residue is accepted from each signer, and a ceremony never ends
  in an invalid aggregate, since a bad share has been attributed to its signer before.
-/

open Js Async

namespace NoGhost

namespace Frost

variable {C : Curve}

/-- A share is accepted only in a list whose points decode. -/
theorem decodes_of_accepted {share : SignatureShare} {verificationShare pk : String}
    {cs : List Commitment} {message : Bytes}
    (h : verifySignatureShare C share verificationShare cs pk message = .ok true) :
    Decodes C cs := by
  obtain ⟨sorted, hsorted, h⟩ := bind_eq_ok.mp h
  have hnodup : (cs.map (·.identifier)).Nodup := by
    rw [sortedCommitments] at hsorted
    split at hsorted
    next hnd => exact ((perm_sortById cs).map _).nodup_iff.mp hnd
    next => cases hsorted
  obtain rfl : sortById cs = sorted :=
    Except.ok.inj ((sortedCommitments_eq hnodup).symm.trans hsorted)
  split at h
  next => cases h
  next own hown =>
    obtain ⟨rho, -, h⟩ := bind_eq_ok.mp h
    obtain ⟨R, hR, -⟩ := bind_eq_ok.mp h
    obtain ⟨sorted', hsorted', hfold⟩ := bind_eq_ok.mp hR
    have hnodup' : ((sortById cs).map (·.identifier)).Nodup :=
      ((perm_sortById cs).map _).nodup_iff.mpr hnodup
    obtain rfl : sortById (sortById cs) = sorted' :=
      Except.ok.inj ((sortedCommitments_eq hnodup').symm.trans hsorted')
    have hpoints : ∀ (l : List Commitment) (R R' : C.Pt),
        l.foldlM (addCommitment C rho) R = .ok R' → ∀ c ∈ l,
          (∃ p, pointFromHex C c.hidingHex = .ok p) ∧ ∃ p, pointFromHex C c.bindingHex = .ok p := by
      intro l
      induction l with
      | nil => exact fun _ _ _ c hc => nomatch hc
      | cons a l ih =>
          intro R R' hfold c hc
          rw [List.foldlM_cons] at hfold
          obtain ⟨R₁, hadd, hfold⟩ := bind_eq_ok.mp hfold
          rcases List.mem_cons.mp hc with rfl | hc
          · obtain ⟨p, hp, hadd⟩ := bind_eq_ok.mp hadd
            obtain ⟨q, hq, -⟩ := bind_eq_ok.mp hadd
            exact ⟨⟨p, hp⟩, ⟨q, hq⟩⟩
          · exact ih _ _ hfold c hc
    have hall : ∀ c ∈ cs, (∃ p, pointFromHex C c.hidingHex = .ok p) ∧
        ∃ p, pointFromHex C c.bindingHex = .ok p := fun c hc =>
      hpoints _ _ _ hfold c ((perm_sortById _).mem_iff.mpr ((perm_sortById cs).mem_iff.mpr hc))
    exact ⟨hnodup, fun c hc => (hall c hc).1, fun c hc => (hall c hc).2⟩

end Frost

variable {P : Platform} {cfg : Config} {env : CoordinatorEnv cfg} {rid : ℕ} {σ : Type}
  {W : Rules σ (CoordinatorCall cfg) CoordinatorCall.Answer} {L : Lens σ (Store cfg)}

/-- The answers and writes of a coordinator's run. -/
abbrev CoordinatorTrace (σ : Type) (cfg : Config) :=
  Trace σ (CoordinatorCall cfg) CoordinatorCall.Answer

variable (P env) in
/-- A share that a signer sent in answer to the round-2 body, and that verified under its
verification share: the aggregate is made of such shares alone. -/
structure Kept (t : CoordinatorTrace σ cfg) (body : Json) (commitments : List SentCommitment)
    (message : Bytes) (s : SignerInfo cfg.SignerId) (share : Frost.SignatureShare) : Prop where
  identifier : share.identifier = s.identifier
  sent : ∃ r : HttpResult, .answered (.round2 s body) (some r) ∈ t ∧ r.ok = true ∧
    (r.body P).get? "zi" = some (.str share.zi)
  verified : verifyShare P env share commitments message = .ok true

/-- A share that was kept stays kept as the trace grows. -/
theorem Kept.mono {t t' : CoordinatorTrace σ cfg} {body : Json}
    {commitments : List SentCommitment} {message : Bytes} {s : SignerInfo cfg.SignerId}
    {share : Frost.SignatureShare} (h : Kept P env t body commitments message s share)
    (ht : t <+: t') : Kept P env t' body commitments message s share := by
  obtain ⟨r, hr, hok, hzi⟩ := h.sent
  exact ⟨h.identifier, ⟨r, ht.subset hr, hok, hzi⟩, h.verified⟩

/-- All shares that were collected were kept, one for each signer. -/
theorem kept_all {t : CoordinatorTrace σ cfg} {body : Json} {commitments : List SentCommitment}
    {message : Bytes} {signers : List (SignerInfo cfg.SignerId)}
    {shares : List Frost.SignatureShare}
    (h : List.Forall₂ (Kept P env t body commitments message) signers shares) :
    shares.map (·.identifier) = signers.map (·.identifier) ∧
      ∀ share ∈ shares, verifyShare P env share commitments message = .ok true := by
  induction h with
  | nil => exact ⟨rfl, fun _ h => nomatch h⟩
  | cons h _ ih =>
      obtain ⟨hids, hverified⟩ := ih
      exact ⟨by rw [List.map_cons, List.map_cons, h.identifier, hids],
        List.forall_mem_cons.mpr ⟨h.verified, hverified⟩⟩

/-- How a ceremony may end before its shares are added up. -/
def CeremonyOutcome.Early : CeremonyOutcome cfg → Prop
  | .refused _ _ => True
  | .error e => e ≠ .AGGREGATE_SIGNATURE_INVALID
  | .ok _ _ => False

section Rules

variable {J : CoordinatorTrace σ cfg → σ → Prop} {t : CoordinatorTrace σ cfg} {s : σ}

/-- **Round 2.** The signers are asked in turn; either every share is kept, or the ceremony
ends early. Induction on the signers left. -/
theorem wp_collectShares {body : Json} {commitments : List SentCommitment} {message : Bytes}
    {signers : List (SignerInfo cfg.SignerId)}
    {post : Except (CeremonyOutcome cfg) (List Frost.SignatureShare) →
      CoordinatorTrace σ cfg → σ → Prop}
    {exn : String → CoordinatorTrace σ cfg → σ → Prop} (hJ : J t s)
    (hrest : ∀ t s, J t s → W.rest t s)
    (hresume : ∀ signer r t s s', J t s → W.resume (.round2 signer body) s r s' →
      J (t ++ [.answered (.round2 signer body) r]) s')
    (hshares : ∀ shares t' s', t <+: t' → J t' s' →
      List.Forall₂ (Kept P env t' body commitments message) signers shares →
        post (.ok shares) t' s')
    (hearly : ∀ outcome t' s', t <+: t' → J t' s' → outcome.Early → post (.error outcome) t' s')
    (hexn : ∀ e t' s', t <+: t' → J t' s' → exn e t' s') :
    wp W L (collectShares P env body commitments message signers) post exn t s := by
  induction signers generalizing post t s with
  | nil => exact hshares [] t s List.prefix_rfl hJ .nil
  | cons signer signers ih =>
      rw [collectShares]
      simp only [wp_bind, wp_call]
      refine ⟨hrest t s hJ, fun r s' hr => ?_⟩
      have hJ' := hresume signer r t s s' hJ hr
      have hpre : t <+: t ++ [.answered (.round2 signer body) r] := List.prefix_append _ _
      rcases r with - | r
      · exact hearly _ _ _ hpre hJ' (by simp [CeremonyOutcome.Early])
      simp only
      split
      next => exact hearly _ _ _ hpre hJ' trivial
      next =>
        split
        next zi hzi hok =>
          refine wp_ofExcept_bind (fun valid hvalid => ?_) fun e _ => hexn e _ _ hpre hJ'
          split
          next => exact hearly _ _ _ hpre hJ' (by simp [CeremonyOutcome.Early])
          next hverified =>
            rw [wp_bind]
            refine ih hJ' (fun shares t' s₂ ht hJ₂ hkept => ?_)
              (fun outcome t' s₂ ht hJ₂ hout => hearly _ _ _ (hpre.trans ht) hJ₂ hout)
              (fun e t' s₂ ht hJ₂ => hexn e _ _ (hpre.trans ht) hJ₂)
            have hhead : Kept P env (t ++ [.answered (.round2 signer body) (some r)]) body
                commitments message signer ⟨signer.identifier, zi⟩ := by
              refine ⟨rfl, ⟨r, List.mem_append_right _ (List.mem_singleton_self _), hok, ?_⟩, ?_⟩
              · obtain ⟨v, hv, hs⟩ := Option.bind_eq_some_iff.mp hzi
                rw [hv]
                cases v <;> simp_all [Json.asString]
              · rw [hvalid]
                simpa using hverified
            exact hshares _ _ _ (hpre.trans ht) hJ₂ (.cons (hhead.mono ht) hkept)
        next =>
          refine wp_ofExcept_bind (fun error _ => ?_) fun e _ => hexn e _ _ hpre hJ'
          exact hearly _ _ _ hpre hJ' (by simp [CeremonyOutcome.Early])

variable (P env) in
/-- What the coordinator makes of the answer of a signer in its turn of round 2: the share that it
keeps, or how the ceremony ends. -/
inductive Turn (commitments : List SentCommitment) (message : Bytes)
    (i : SignerInfo cfg.SignerId) :
    Option HttpResult → Except (CeremonyOutcome cfg) Frost.SignatureShare → Prop
  | unreachable : Turn commitments message i none (.error (.error (.ROUND2_UNREACHABLE i.signerId)))
  | refused {r : HttpResult} (h : r.status = 403 ∧ truthy ((r.body P).get? "refused") = true) :
      Turn commitments message i (some r)
        (.error (.refused i.signerId ((r.body P).get? "reason")))
  | kept {r : HttpResult} {zi : String}
      (h : ¬ (r.status = 403 ∧ truthy ((r.body P).get? "refused") = true))
      (hzi : ((r.body P).get? "zi").bind (·.asString) = some zi) (hok : r.ok = true)
      (hverdict : verifyShare P env ⟨i.identifier, zi⟩ commitments message = .ok true) :
      Turn commitments message i (some r) (.ok ⟨i.identifier, zi⟩)
  | bad {r : HttpResult} {zi : String}
      (h : ¬ (r.status = 403 ∧ truthy ((r.body P).get? "refused") = true))
      (hzi : ((r.body P).get? "zi").bind (·.asString) = some zi) (hok : r.ok = true)
      (hverdict : verifyShare P env ⟨i.identifier, zi⟩ commitments message = .ok false) :
      Turn commitments message i (some r) (.error (.error (.BAD_PARTIAL_SIGNATURE i.signerId)))
  | failed {r : HttpResult} {error : Option String}
      (h : ¬ (r.status = 403 ∧ truthy ((r.body P).get? "refused") = true))
      (hzi : ∀ zi, ((r.body P).get? "zi").bind (·.asString) = some zi → r.ok = false)
      (herror : (((r.body P).get? "error").filter Json.truthy).mapM (·.toStr P.numeral) =
        .ok error) :
      Turn commitments message i (some r)
        (.error (.error (.ROUND2_FAILED i.signerId r.status error)))

/-- A share that is kept in a turn is that of its signer, and verifies. -/
theorem Turn.verified {commitments : List SentCommitment} {message : Bytes}
    {i : SignerInfo cfg.SignerId} {a : Option HttpResult} {share : Frost.SignatureShare}
    (h : Turn P env commitments message i a (.ok share)) :
    share.identifier = i.identifier ∧ verifyShare P env share commitments message = .ok true := by
  cases h with
  | kept _ _ _ hverdict => exact ⟨rfl, hverdict⟩

/-- **One turn** of round 2: a share that is kept goes in front of those of the turns that are left,
and anything else ends the ceremony. -/
theorem wp_collectShares_cons {body : Json} {commitments : List SentCommitment} {message : Bytes}
    {i : SignerInfo cfg.SignerId} {signers : List (SignerInfo cfg.SignerId)}
    {post : Except (CeremonyOutcome cfg) (List Frost.SignatureShare) →
      CoordinatorTrace σ cfg → σ → Prop}
    {exn : String → CoordinatorTrace σ cfg → σ → Prop} (hrest : W.rest t s)
    (h : ∀ a s', W.resume (.round2 i body) s a s' →
      ∃ turn, Turn P env commitments message i a turn ∧
        match turn with
        | .ok share => wp W L (collectShares P env body commitments message signers)
            (fun result => post (result.map (share :: ·))) exn
            (t ++ [.answered (.round2 i body) a]) s'
        | .error outcome => post (.error outcome) (t ++ [.answered (.round2 i body) a]) s') :
    wp W L (collectShares P env body commitments message (i :: signers)) post exn t s := by
  rw [collectShares]
  simp only [wp_bind, wp_call]
  refine ⟨hrest, fun a s' hr => ?_⟩
  obtain ⟨turn, hturn, hnext⟩ := h a s' hr
  cases hturn with
  | unreachable => exact hnext
  | refused hrefused =>
      simp only
      rw [if_pos hrefused]
      exact hnext
  | kept hnot hzi hok hverdict =>
      simp only
      rw [if_neg hnot, hzi, hok]
      simp only [hverdict, wp_bind, wp_ofExcept_ok, Bool.not_true, Bool.false_eq_true, if_false]
      exact wp_mono hnext (fun result _ _ h => by cases result <;> exact h) fun _ _ _ h => h
  | bad hnot hzi hok hverdict =>
      simp only
      rw [if_neg hnot, hzi, hok]
      simp only [hverdict, wp_bind, wp_ofExcept_ok]
      exact hnext
  | failed hnot hzi herror =>
      simp only
      rw [if_neg hnot]
      split
      next zi hread hok =>
        rw [hzi zi hread] at hok
        cases hok
      next =>
        simp only [herror, wp_bind, wp_ofExcept_ok]
        exact hnext

/-- A sent commitment carries the identifier of its signer. -/
theorem sentCommitment_ok {s : SignerInfo cfg.SignerId} {answer : Option HttpResult}
    {c : SentCommitment} (h : sentCommitment P s answer = .ok c) : c.identifier = s.identifier := by
  unfold sentCommitment at h
  split at h
  next => cases h
  next =>
    split at h <;> simp only at h <;> split at h
    next => exact Except.ok.inj h ▸ rfl
    next => cases h
    next => cases h
    next => cases h

/-- The only error of round 1 is its own. -/
theorem sentCommitment_error {s : SignerInfo cfg.SignerId} {answer : Option HttpResult}
    {e : CeremonyError cfg} (h : sentCommitment P s answer = .error e) :
    e ≠ .AGGREGATE_SIGNATURE_INVALID := by
  rintro rfl
  unfold sentCommitment at h
  split at h
  next => cases h
  next => split at h <;> simp only at h <;> split at h <;> cases h

/-- A raising loop raises what one of its rounds raises. -/
theorem exists_of_mapM_error {ε α β : Type} {f : α → Except ε β} {l : List α} {e : ε}
    (h : l.mapM f = .error e) : ∃ a ∈ l, f a = .error e := by
  induction l with
  | nil => cases h
  | cons a l ih =>
      rw [List.mapM_cons] at h
      rcases ha : f a with e' | b
      · rw [ha] at h
        cases h
        exact ⟨a, List.mem_cons_self, ha⟩
      · rw [ha] at h
        rcases hl : l.mapM f with e' | bs
        · rw [hl] at h
          cases h
          obtain ⟨a', ha', he⟩ := ih hl
          exact ⟨a', List.mem_cons_of_mem _ ha', he⟩
        · rw [hl] at h
          cases h

/-- The commitments that were read are those of the chosen signers, in their order. -/
theorem mapM_sentCommitment {answers : cfg.SignerId → Option HttpResult}
    {chosen : List (SignerInfo cfg.SignerId)} {commitments : List SentCommitment}
    (h : chosen.mapM (fun s => sentCommitment P s (answers s.signerId)) = .ok commitments) :
    commitments.map (·.identifier) = chosen.map (·.identifier) := by
  induction chosen generalizing commitments with
  | nil =>
      cases h
      rfl
  | cons s chosen ih =>
      rw [List.mapM_cons, bind_eq_ok] at h
      obtain ⟨c, hc, h⟩ := h
      obtain ⟨cs, hcs, h⟩ := bind_eq_ok.mp h
      cases h
      rw [List.map_cons, List.map_cons, sentCommitment_ok hc, ih hcs]

/-- **A ceremony.** It ends early, with an error or a refusal, or its shares were all kept and are
added up to a signature that is checked. -/
theorem wp_runCeremony {chosen : List (SignerInfo cfg.SignerId)} {tokenPayload : TokenPayload}
    {message : Bytes} {messageHex : String}
    {post : CeremonyOutcome cfg → CoordinatorTrace σ cfg → σ → Prop}
    {exn : String → CoordinatorTrace σ cfg → σ → Prop} (hJ : J t s)
    (hrest : ∀ t s, J t s → W.rest t s)
    (hround1 : ∀ signers body r t s s', J t s → W.resume (.round1 signers body) s r s' →
      J (t ++ [.answered (.round1 signers body) r]) s')
    (hround2 : ∀ signer body r t s s', J t s → W.resume (.round2 signer body) s r s' →
      J (t ++ [.answered (.round2 signer body) r]) s')
    (hearly : ∀ outcome t' s', t <+: t' → J t' s' → outcome.Early → post outcome t' s')
    (hconclude : ∀ commitments shares t' s', t <+: t' → J t' s' →
      commitments.map (·.identifier) = chosen.map (·.identifier) →
      List.Forall₂ (Kept P env t'
        (round2Req ((L.view s).heap rid) tokenPayload messageHex commitments) commitments message)
        chosen shares →
      post (concludeCeremony P env chosen tokenPayload message commitments shares) t' s')
    (hexn : ∀ e t' s', t <+: t' → J t' s' → exn e t' s') :
    wp W L (runCeremony P env rid chosen tokenPayload message messageHex) post exn t s := by
  rw [runCeremony]
  simp only [theRecord, wp_bind, wp_gets, wp_call]
  refine ⟨hrest t s hJ, fun answers s' hr => ?_⟩
  have hJ' := hround1 _ _ answers t s s' hJ hr
  split
  next e he =>
    refine hearly _ _ _ (List.prefix_append _ _) hJ' ?_
    obtain ⟨signer, -, he⟩ := exists_of_mapM_error he
    exact sentCommitment_error he
  next commitments hcommitments =>
    rw [wp_bind]
    refine wp_collectShares hJ' hrest (fun signer r t s s' => hround2 signer _ r t s s')
      (fun shares t' s₂ ht hJ₂ hkept => ?_) (fun outcome t' s₂ ht hJ₂ hout => ?_)
      (fun e t' s₂ ht hJ₂ => hexn e _ _ ((List.prefix_append _ _).trans ht) hJ₂)
    · exact hconclude commitments shares _ _ ((List.prefix_append _ _).trans ht) hJ₂
        (mapM_sentCommitment hcommitments) hkept
    · exact hearly outcome _ _ ((List.prefix_append _ _).trans ht) hJ₂ hout

end Rules

/-! ### The end of a ceremony -/

section Conclude

variable {chosen : List (SignerInfo cfg.SignerId)} {tokenPayload : TokenPayload} {message : Bytes}
  {commitments : List SentCommitment} {shares : List Frost.SignatureShare}

/-- The token of a ceremony verifies under the group key. -/
theorem concludeCeremony_ok {token : Token} {signerSet : List cfg.SignerId}
    (h : concludeCeremony P env chosen tokenPayload message commitments shares =
      .ok token signerSet) :
    token.toTokenPayload = tokenPayload ∧ signerSet = chosen.map (·.signerId) ∧
      Frost.verifySignature P.toCurve token.signature message env.GROUP.groupPublicKey = true := by
  rw [concludeCeremony] at h
  split at h
  next => cases h
  next signature hsignature =>
    split at h
    next => cases h
    next hverify =>
      cases h
      exact ⟨rfl, rfl, by simpa using hverify⟩

/-- Shares with the identifiers of a commitment list are one text for each commitment. -/
theorem exists_shareText {cs : List Frost.Commitment} {shares : List Frost.SignatureShare}
    (hnd : cs.Nodup) (hids : shares.map (·.identifier) = cs.map (·.identifier)) :
    ∃ zi : Frost.Commitment → String, shares = cs.map fun c => ⟨c.identifier, zi c⟩ := by
  induction cs generalizing shares with
  | nil => exact ⟨fun _ => "", List.map_eq_nil_iff.mp hids⟩
  | cons c cs ih =>
      obtain ⟨share, shares, rfl⟩ : ∃ share shares', shares = share :: shares' := by
        cases shares with
        | nil => cases hids
        | cons share shares => exact ⟨share, shares, rfl⟩
      obtain ⟨hid, hids⟩ := List.cons.inj hids
      obtain ⟨hnew, hnd⟩ := List.nodup_cons.mp hnd
      obtain ⟨zi, rfl⟩ := ih hnd hids
      refine ⟨Function.update zi c share.zi, ?_⟩
      rw [List.map_cons, Function.update_self]
      congr 1
      · exact (congrArg (fun id => (⟨id, share.zi⟩ : Frost.SignatureShare)) hid :)
      · refine List.map_congr_left fun c' hc' => ?_
        rw [Function.update_of_ne (ne_of_mem_of_not_mem hc' hnew)]

/-- A sent commitment is decoded to one of the same identifier. -/
theorem mapM_decode {cs : List Frost.Commitment}
    (h : commitments.mapM (·.decode) = .ok cs) :
    cs.map (·.identifier) = commitments.map (·.identifier) := by
  induction commitments generalizing cs with
  | nil =>
      cases h
      rfl
  | cons c commitments ih =>
      rw [List.mapM_cons, bind_eq_ok] at h
      obtain ⟨d, hd, h⟩ := h
      obtain ⟨ds, hds, h⟩ := bind_eq_ok.mp h
      cases h
      obtain ⟨hiding_, -, hd⟩ := bind_eq_ok.mp hd
      obtain ⟨binding_, -, hd⟩ := bind_eq_ok.mp hd
      cases hd
      rw [List.map_cons, List.map_cons, ih hds]

/-- The group file is the one of the dealer: it has the key of the group, and the verification share
of every participant. -/
structure Group.DealtBy (G : Group) (keys : Frost.KeygenOutput) : Prop where
  groupPublicKey : G.groupPublicKey = keys.groupPublicKey
  verificationShares : ∀ k ∈ keys.shares, G.verificationShares k.identifier = k.verificationShare

/-- Kept shares of enough dealt participants add up to a token. -/
theorem concludeCeremony_kept {t n : ℕ} {draws : List Bytes} {keys : Frost.KeygenOutput}
    (hkeys : Frost.trustedDealerKeygen P.toCurve t n draws = some (.ok keys))
    (hn : n < P.toCurve.L) (hgroup : env.GROUP.DealtBy keys)
    (hdealt : ∀ s ∈ chosen, ∃ k ∈ keys.shares, k.identifier = s.identifier)
    (ht : t ≤ chosen.length)
    (hcommitments : commitments.map (·.identifier) = chosen.map (·.identifier))
    (hshares : shares.map (·.identifier) = chosen.map (·.identifier))
    (hverified : ∀ share ∈ shares, verifyShare P env share commitments message = .ok true) :
    ∃ token, concludeCeremony P env chosen tokenPayload message commitments shares =
      .ok token (chosen.map (·.signerId)) := by
  obtain ⟨D⟩ := Frost.exists_dealing P.toCurve hkeys
  have hlen : shares.length = chosen.length := by
    simpa only [List.length_map] using congrArg List.length hshares
  obtain ⟨share, hshare⟩ : ∃ share, share ∈ shares := by
    have := D.threshold_pos
    exact List.exists_mem_of_length_pos (by omega)
  -- one verified share is enough to know that the commitments decode
  obtain ⟨cs, hcs, hfirst⟩ := bind_eq_ok.mp (hverified share hshare)
  have hdec := Frost.decodes_of_accepted hfirst
  have hids : cs.map (·.identifier) = chosen.map (·.identifier) :=
    (mapM_decode hcs).trans hcommitments
  have hdealtcs : Frost.DealtTo keys cs := by
    intro c hc
    have hc' := List.mem_map_of_mem (f := (·.identifier)) hc
    rw [hids] at hc'
    obtain ⟨s, hs, hid⟩ := List.mem_map.mp hc'
    obtain ⟨k, hk, hkid⟩ := hdealt s hs
    exact ⟨k, hk, hkid.trans hid⟩
  obtain ⟨zi, rfl⟩ := exists_shareText (hdec.nodup.of_map _) (hshares.trans hids.symm)
  have hacc : ∀ c ∈ cs, ∀ k ∈ keys.shares, k.identifier = c.identifier →
      Frost.verifySignatureShare P.toCurve ⟨c.identifier, zi c⟩ k.verificationShare cs
        keys.groupPublicKey message = .ok true := by
    intro c hc k hk hid
    obtain ⟨cs', hcs', h⟩ := bind_eq_ok.mp (hverified _ (List.mem_map_of_mem hc))
    obtain rfl : cs = cs' := Except.ok.inj (hcs.symm.trans hcs')
    simp only at h
    rw [← hid, hgroup.verificationShares k hk, hgroup.groupPublicKey] at h
    rw [← hid]
    exact h
  have hlength : t ≤ cs.length := by
    rw [List.length_map] at hlen
    omega
  obtain ⟨R, A, z, key, -, -, -, hagg⟩ :=
    Frost.accepted_suffices D hn hdec hdealtcs hlength hacc
  obtain ⟨haggregate, hvalid⟩ := hagg _ (List.Perm.refl _)
  have hsum : aggregateShares P env commitments (cs.map fun c => ⟨c.identifier, zi c⟩) message =
      .ok (bytesToHex (P.toCurve.toRawBytes R ++ Frost.scalarToBytes P.toCurve z)) := by
    rw [aggregateShares, hcs, hgroup.groupPublicKey]
    exact haggregate
  refine ⟨{ tokenPayload with
    signature := bytesToHex (P.toCurve.toRawBytes R ++ Frost.scalarToBytes P.toCurve z) }, ?_⟩
  simp only [concludeCeremony, hsum, hgroup.groupPublicKey, hvalid, Bool.not_true,
    Bool.false_eq_true, if_false]

end Conclude

/-- The rules of a run with answers of any kind. -/
def anyRules (cfg : Config) : Rules (Store cfg) (CoordinatorCall cfg) CoordinatorCall.Answer where
  resume _ _ _ _ := True
  gua _ _ _ := True

/-- **Attribution.** Exactly one residue is accepted from each signer, which a signer whose own
entry is its commitment computes; accepted shares of `t` signers make an aggregate that
verifies; so whatever the signers answer, a ceremony with `t` dealt signers does not end in an
invalid aggregate. -/
theorem ceremony_attributes {t n : ℕ} {draws : List Bytes} {keys : Frost.KeygenOutput}
    (hkeys : Frost.trustedDealerKeygen P.toCurve t n draws = some (.ok keys))
    (hn : n < P.toCurve.L) :
    (∀ (cs : List Frost.Commitment) (message : Bytes), Frost.Decodes P.toCurve cs →
      Frost.DealtTo keys cs → t ≤ cs.length →
      (∀ own ∈ cs, ∀ k ∈ keys.shares, k.identifier = own.identifier →
        ∃ r : ℤ, 0 ≤ r ∧ r < P.toCurve.L ∧
          (∀ zi, Frost.verifySignatureShare P.toCurve ⟨own.identifier, zi⟩ k.verificationShare cs
              keys.groupPublicKey message = .ok true ↔
            Frost.scalarFromHex P.toCurve zi = .ok r) ∧
          ∀ d e r1, Frost.commit P.toCurve d e = .ok r1 → own = r1.commitment k.identifier →
            Frost.round2Sign P.toCurve
                (k.round2Params r1.nonces message cs keys.groupPublicKey) =
              .ok (Frost.scalarToHex P.toCurve r)) ∧
      ∀ zi : Frost.Commitment → String,
        (∀ c ∈ cs, ∀ k ∈ keys.shares, k.identifier = c.identifier →
          Frost.verifySignatureShare P.toCurve ⟨c.identifier, zi c⟩ k.verificationShare cs
            keys.groupPublicKey message = .ok true) →
        ∃ signature, ∀ shares : List Frost.SignatureShare,
          shares.Perm (cs.map fun c => ⟨c.identifier, zi c⟩) →
            Frost.aggregate P.toCurve cs shares keys.groupPublicKey message = .ok signature ∧
              Frost.verifySignature P.toCurve signature message keys.groupPublicKey = true) ∧
    ∀ (env : CoordinatorEnv cfg) (rid : ℕ) (chosen : List (SignerInfo cfg.SignerId))
      (tokenPayload : TokenPayload) (message : Bytes) (messageHex : String),
      env.GROUP.DealtBy keys → (∀ s ∈ chosen, ∃ k ∈ keys.shares, k.identifier = s.identifier) →
      t ≤ chosen.length → ∀ answers trace s,
        ((runCeremony P env rid chosen tokenPayload message messageHex).run answers trace s).result
          ≠ .ok (.error .AGGREGATE_SIGNATURE_INVALID) := by
  obtain ⟨D⟩ := Frost.exists_dealing P.toCurve hkeys
  refine ⟨fun cs message hdec hdealt ht => ⟨fun own hown k hk hid =>
    Frost.exists_partial D hn hdec hdealt message hown hk hid, fun zi hacc => ?_⟩,
    fun env rid chosen tokenPayload message messageHex hgroup hdealt ht answers trace s => ?_⟩
  · obtain ⟨R, A, z, key, -, -, -, hagg⟩ := Frost.accepted_suffices D hn hdec hdealt ht hacc
    exact ⟨_, hagg⟩
  · intro hresult
    have hwp : wp (anyRules cfg) (Lens.whole (Store cfg))
        (runCeremony P env rid chosen tokenPayload message messageHex)
        (fun outcome _ _ => outcome ≠ .error .AGGREGATE_SIGNATURE_INVALID) (fun _ _ _ => True)
        trace s := by
      refine wp_runCeremony (J := fun _ _ => True) trivial (fun _ _ _ => trivial)
        (fun _ _ _ _ _ _ _ _ => trivial)
        (fun _ _ _ _ _ _ _ _ => trivial) (fun outcome _ _ _ _ hearly => ?_)
        (fun commitments shares t' _ _ _ hids hkept => ?_) fun _ _ _ _ _ => trivial
      · rintro rfl
        exact hearly rfl
      · obtain ⟨hshares, hverified⟩ := kept_all hkept
        obtain ⟨token, htoken⟩ : ∃ token, concludeCeremony P env chosen tokenPayload message
            commitments shares = .ok token (chosen.map (·.signerId)) :=
          concludeCeremony_kept hkeys hn hgroup hdealt ht hids hshares hverified
        rw [htoken]
        exact fun h => nomatch h
    exact (run_of_wp (Prog.along_of_forall (fun _ _ _ => trivial) _ _ _) hwp).returned _ hresult rfl

namespace Small

/-- A coordinator over the small platform, with the group file of the small keys. -/
def coordinatorEnv : CoordinatorEnv config where
  BANK_PUBLIC_KEY := bankKey
  GROUP := ⟨Frost.smallKeys.groupPublicKey, fun id =>
    ((Frost.smallKeys.shares.find? (·.identifier = id)).map (·.verificationShare)).getD ""⟩
  publisherWallet := some "rCoordinator"
  manifest := .ok manifest
  encKey := .ok []

/-- No service is reached, and every call goes unanswered. -/
def unreachable : (q : CoordinatorCall config) → q.Answer
  | .health _ | .validate _ _ | .round1 _ _ => fun _ => none
  | .debit _ _ | .reverse _ _ | .round2 _ _ | .signReceipt _ _ => (none : Option HttpResult)
  | .publish _ | .submitReceipt _ => (.error "disconnected" : Except String String)
  | .accountTx _ => (.error "disconnected" : Except String (List LedgerTx))
  | .prepare _ _ => (.error "disconnected" : Except String Json)

/-- The first two signers of the configuration. -/
def twoSigners : List (SignerInfo config.SignerId) := [⟨SignerId.utility, 1⟩, ⟨SignerId.cityA, 2⟩]

/-- The commitments of the first two participants. -/
def twoCommitments : List Frost.Commitment :=
  [Frost.smallRound1.commitment 1, Frost.smallRound1.commitment 2]

end Small

/-- The small keys are the group file of the small coordinator. -/
theorem small_dealtBy : Small.coordinatorEnv.GROUP.DealtBy Frost.smallKeys := by
  refine ⟨rfl, fun k hk => ?_⟩
  simp only [Frost.smallKeys, List.mem_cons, List.not_mem_nil, or_false] at hk
  rcases hk with rfl | rfl | rfl <;> rfl

/-- Two signers over the small platform: one residue is accepted from the first of them, and
their ceremony does not end in an invalid aggregate. -/
theorem ceremony_attributes_small :
    (∃ r : ℤ, ∀ zi, Frost.verifySignatureShare Small.curve ⟨1, zi⟩
        (Frost.pointToHex Small.curve (4 : ZMod 7)) Small.twoCommitments
        Frost.smallKeys.groupPublicKey [1] = .ok true ↔
      Frost.scalarFromHex Small.curve zi = .ok r) ∧
    ((runCeremony Small.platform Small.coordinatorEnv 0 Small.twoSigners ⟨none, none, none, ""⟩ [1]
      "01").run (fun _ q s => (Small.unreachable q, s)) [] (Store.boot config "" [])).result ≠
        .ok (.error .AGGREGATE_SIGNATURE_INVALID) := by
  obtain ⟨hshares, hceremony⟩ :=
    @ceremony_attributes Small.platform config 2 3 _ _ Frost.small_dealt (by decide)
  have hdec : Frost.Decodes Small.curve Small.twoCommitments :=
    Frost.decodes_of_commit (S := Frost.smallKeys.shares.take 2) (d := fun _ => 1)
      (e := fun _ => 2) (by decide) (show ∀ k ∈ Frost.smallKeys.shares.take 2,
        Frost.commit Small.curve 1 2 = .ok Frost.smallRound1 from fun _ _ => rfl)
  have hdealt : Frost.DealtTo Frost.smallKeys Small.twoCommitments := by
    intro c hc
    simp only [Small.twoCommitments, List.mem_cons, List.not_mem_nil, or_false] at hc
    rcases hc with rfl | rfl
    · exact ⟨_, List.mem_cons_self, rfl⟩
    · exact ⟨_, List.mem_cons_of_mem _ List.mem_cons_self, rfl⟩
  obtain ⟨hexact, -⟩ := hshares Small.twoCommitments [1] hdec hdealt le_rfl
  obtain ⟨r, -, -, hr, -⟩ := hexact _ List.mem_cons_self _ List.mem_cons_self rfl
  refine ⟨⟨r, hr⟩, hceremony Small.coordinatorEnv 0 Small.twoSigners _ [1] "01" small_dealtBy
    (fun s hs => ?_) le_rfl _ _ _⟩
  simp only [Small.twoSigners, List.mem_cons, List.not_mem_nil, or_false] at hs
  rcases hs with rfl | rfl
  · exact ⟨_, List.mem_cons_self, rfl⟩
  · exact ⟨_, List.mem_cons_of_mem _ List.mem_cons_self, rfl⟩

end NoGhost
