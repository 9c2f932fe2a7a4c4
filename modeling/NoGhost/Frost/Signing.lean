import NoGhost.Frost.Dealer

/-!
# Threshold Signing

The results about whole signing runs over dealt keys, for every threshold, every set of
participants and every order of the lists that travel. Commitments may be chosen by
malicious participants, as long as their points decode; a participant's partial is judged
by `verifySignatureShare` alone.

## Main results

* `exists_partial`: exactly one residue is accepted from each participant, and the
  participant whose entry is its own commitment computes it.
* `aggregate_accepted`: accepted partials add up to a Schnorr equation with the
  interpolated secret.
* `sign_correct`: at least `t` honest participants produce a valid signature, whatever the
  order of the lists.
* `below_threshold`: `t - 1` honest participants produce one only under a zero challenge.
* `accepted_suffices`: at least `t` accepted partials produce a valid signature.
-/

open Polynomial

namespace NoGhost

namespace Frost

variable {C : Curve} {t n : ℕ} {keys : KeygenOutput}

/-- The entries of `cs` carry dealt identifiers. -/
def DealtTo (keys : KeygenOutput) (cs : List Commitment) : Prop :=
  ∀ c ∈ cs, ∃ k ∈ keys.shares, k.identifier = c.identifier

/-- The honest participant `k` with the commitment list `cs`. -/
def KeyShare.round2Params (k : KeyShare) (nonces : Nonces) (message : Bytes)
    (cs : List Commitment) (pk : String) : Round2Params where
  identifier := k.identifier
  secretShare := k.secretShare
  nonces := nonces
  message := message
  commitments := cs
  groupPublicKey := pk

/-! ### Commitments -/

/-- What is committed to decodes, and multiplies the base point by the nonces. -/
theorem commit_ok {d e : ℤ} {r1 : Round1Output} (h : commit C d e = .ok r1) :
    scalarFromHex C r1.nonces.hidingHex = .ok d ∧ scalarFromHex C r1.nonces.bindingHex = .ok e ∧
      (C.multiply C.base d).map (pointToHex C) = .ok r1.hidingHex ∧
      (C.multiply C.base e).map (pointToHex C) = .ok r1.bindingHex ∧
      pointFromHex C r1.hidingHex = .ok ((d : C.Scalar) • C.base) ∧
      pointFromHex C r1.bindingHex = .ok ((e : C.Scalar) • C.base) := by
  obtain ⟨D, hD, h⟩ := Js.bind_eq_ok.mp h
  obtain ⟨E, hE, h⟩ := Js.bind_eq_ok.mp h
  cases h
  obtain ⟨hd0, hdL, rfl⟩ := multiply_ok C hD
  obtain ⟨he0, heL, rfl⟩ := multiply_ok C hE
  refine ⟨?_, ?_, by rw [hD]; rfl, by rw [hE]; rfl, pointFromHex_pointToHex C _,
    pointFromHex_pointToHex C _⟩
  · rw [scalarFromHex_scalarToHex, mod_of_lt C hd0.le hdL]
  · rw [scalarFromHex_scalarToHex, mod_of_lt C he0.le heL]

/-- Nonces other than zero have commitments. -/
theorem exists_commit {d e : ℤ} (hd : 0 < d ∧ d < C.L) (he : 0 < e ∧ e < C.L) :
    ∃ r1, commit C d e = .ok r1 := by
  rw [commit, multiply_eq C C.base hd.1 hd.2, multiply_eq C C.base he.1 he.2]
  exact ⟨_, rfl⟩

/-- Honest commitments decode, since they were encoded. -/
theorem decodes_of_commit {S : List KeyShare} {d e : KeyShare → ℤ} {r1 : KeyShare → Round1Output}
    (hnd : (S.map (·.identifier)).Nodup) (hr1 : ∀ k ∈ S, commit C (d k) (e k) = .ok (r1 k)) :
    Decodes C (S.map fun k => (r1 k).commitment k.identifier) := by
  refine ⟨?_, fun c hc => ?_, fun c hc => ?_⟩
  · rw [List.map_map]
    exact hnd
  all_goals
    obtain ⟨k, hk, rfl⟩ := List.mem_map.mp hc
    obtain ⟨-, -, -, -, hD, hE⟩ := commit_ok (hr1 k hk)
    exact ⟨_, by assumption⟩

/-! ### Dealt participants -/

section Dealt

variable (D : Dealing C t n keys) (hn : n < C.L) {cs : List Commitment} (hdec : Decodes C cs)
  (hdealt : DealtTo keys cs)
include D hn

/-- No participant is dealt the node 0, where the secret is. -/
theorem Dealing.node_ne_zero (hdealt : DealtTo keys cs) {c : Commitment} (hc : c ∈ cs) :
    node C c ≠ 0 := by
  obtain ⟨k, hk, hid⟩ := hdealt c hc
  rw [node, ← hid]
  exact D.cast_ne_zero hn hk

include hdec hdealt in
/-- Participants that were dealt to have distinct nodes. -/
theorem Dealing.distinct : Distinct C cs := by
  intro c hc c' hc' h
  obtain ⟨k, hk, hid⟩ := hdealt c hc
  obtain ⟨k', hk', hid'⟩ := hdealt c' hc'
  have hcast : (k.identifier : C.Scalar) = k'.identifier := by
    rw [hid, hid']
    exact h
  have hkk := D.cast_inj hn hk hk' hcast
  exact List.inj_on_of_nodup_map hdec.nodup hc hc' (by rw [← hid, ← hid', hkk])

omit hn in
/-- The group key decodes to the secret multiple of the base point. -/
theorem Dealing.groupKey_bytes :
    hexToBytes keys.groupPublicKey = .ok (C.toRawBytes (D.f.eval 0 • C.base)) := by
  rw [D.groupKey, pointToHex, hexToBytes_bytesToHex]

omit hn in
/-- The verification share of a dealt key share is its value of the secret polynomial. -/
theorem Dealing.verificationShare {k : KeyShare} (hk : k ∈ keys.shares) :
    pointFromHex C k.verificationShare =
      .ok (D.f.eval (k.identifier : C.Scalar) • C.base) := by
  obtain ⟨y, -, -, hy, -, hv⟩ := D.share_eq k hk
  rw [hv, pointFromHex_pointToHex, hy]

include hdec hdealt in
/-- **Exactness.** From each participant exactly one residue is accepted, and a participant
whose entry is its own commitment answers with it. -/
theorem exists_partial (message : Bytes) {own : Commitment} (hown : own ∈ cs) {k : KeyShare}
    (hk : k ∈ keys.shares) (hid : k.identifier = own.identifier) :
    ∃ r : ℤ, 0 ≤ r ∧ r < C.L ∧
      (∀ zi, verifySignatureShare C ⟨own.identifier, zi⟩ k.verificationShare cs
          keys.groupPublicKey message = .ok true ↔ scalarFromHex C zi = .ok r) ∧
      ∀ d e r1, commit C d e = .ok r1 → own = r1.commitment k.identifier →
        round2Sign C (k.round2Params r1.nonces message cs keys.groupPublicKey) =
          .ok (scalarToHex C r) := by
  have hdist := D.distinct hn hdec hdealt
  obtain ⟨T, -⟩ := exists_transcript C hdec D.groupKey_bytes message
  have hY := D.verificationShare hk
  -- the solution of the participant's equation, and its residue
  obtain ⟨a, ha⟩ := C.exists_smul_base (contribution C T.rho own +
    (T.c * weight C cs own : C.Scalar) • D.f.eval (k.identifier : C.Scalar) • C.base)
  obtain ⟨r, hr⟩ := ZMod.intCast_surjective a
  have hres : 0 ≤ mod r C.L ∧ mod r C.L < C.L := ⟨mod_nonneg C r, mod_lt C r⟩
  have hcast : ((mod r C.L : ℤ) : C.Scalar) = a := by rw [cast_mod, hr]
  have haccept : ∀ zi, verifySignatureShare C ⟨own.identifier, zi⟩ k.verificationShare cs
      keys.groupPublicKey message = .ok true ↔ scalarFromHex C zi = .ok (mod r C.L) := by
    intro zi
    rw [verifySignatureShare_ok_true C hdec hdist T hown hY, ha]
    constructor
    · rintro ⟨z, hz, heq⟩
      have hza : (z : C.Scalar) = a := C.smul_base_inj.mp heq
      rw [hz, eq_of_cast C (scalarFromHex_range C hz) hres (by rw [hza, hcast])]
    · intro hz
      exact ⟨_, hz, by rw [hcast]⟩
  refine ⟨mod r C.L, hres.1, hres.2, haccept, fun d e r1 hr1 hentry => ?_⟩
  obtain ⟨hhid, hbind, hD, hE, hDpt, hEpt⟩ := commit_ok hr1
  obtain ⟨y, hy0, hyL, hy, hsk, -⟩ := D.share_eq k hk
  have hskval : scalarFromHex C k.secretShare = .ok y := by
    rw [hsk, scalarFromHex_scalarToHex, mod_of_lt C hy0 hyL]
  have hownhid : own.hidingHex = r1.hidingHex := by rw [hentry, Round1Output.commitment]
  have hownbind : own.bindingHex = r1.bindingHex := by rw [hentry, Round1Output.commitment]
  obtain ⟨z, hsign, hz0, hzL, hz⟩ := round2Sign_ok C hdec hdist T hown hhid hbind hskval
    (by rw [hownhid]; exact hD) (by rw [hownbind]; exact hE)
  have hza : (z : C.Scalar) = a := by
    refine C.smul_base_inj.mp ?_
    rw [← ha, hz, contribution, hownhid, hownbind, pointOf_eq C hDpt, pointOf_eq C hEpt, hy]
    simp only [add_smul, mul_smul]
  rw [KeyShare.round2Params, hid, hsign, eq_of_cast C ⟨hz0, hzL⟩ hres (by rw [hza, hcast])]

include hdec hdealt in
/-- **Accepted partials add up.** One accepted partial from each participant makes an
aggregate that satisfies the Schnorr equation with the interpolated secret in place of the
secret. -/
theorem aggregate_accepted {message : Bytes} {zi : Commitment → String}
    (hacc : ∀ c ∈ cs, ∀ k ∈ keys.shares, k.identifier = c.identifier →
      verifySignatureShare C ⟨c.identifier, zi c⟩ k.verificationShare cs
        keys.groupPublicKey message = .ok true) :
    ∃ (R : C.Pt) (z : ℤ), 0 ≤ z ∧ z < C.L ∧
      (∀ shares : List SignatureShare, shares.Perm (cs.map fun c => ⟨c.identifier, zi c⟩) →
        aggregate C cs shares keys.groupPublicKey message =
          .ok (bytesToHex (C.toRawBytes R ++ scalarToBytes C z))) ∧
      (z : C.Scalar) • C.base = R +
        ((H2 C (C.toRawBytes R ++ C.toRawBytes (D.f.eval 0 • C.base) ++ message) : ℤ) :
          C.Scalar) •
        (∑ c ∈ cs.toFinset, weight C cs c * D.f.eval (node C c)) • C.base := by
  have hdist := D.distinct hn hdec hdealt
  obtain ⟨T, hTc⟩ := exists_transcript C hdec D.groupKey_bytes message
  have hnd : cs.Nodup := hdec.nodup.of_map _
  -- every accepted partial solves the equation of its participant
  have heq : ∀ c ∈ cs, ∃ z : ℤ, scalarFromHex C (zi c) = .ok z ∧ (z : C.Scalar) • C.base =
      contribution C T.rho c +
        (T.c * weight C cs c : C.Scalar) • D.f.eval (node C c) • C.base := by
    intro c hc
    obtain ⟨k, hk, hid⟩ := hdealt c hc
    obtain ⟨z, hz, hsmul⟩ := (verifySignatureShare_ok_true C hdec hdist T hc
      (D.verificationShare hk) (zi c)).mp (hacc c hc k hk hid)
    exact ⟨z, hz, by rw [hsmul, node, hid]⟩
  set val : String → ℤ := fun s => (scalarFromHex C s).toOption.getD 0 with hval
  have hvaleq : ∀ c ∈ cs, scalarFromHex C (zi c) = .ok (val (zi c)) := fun c hc => by
    obtain ⟨z, hz, -⟩ := heq c hc
    simp only [hval, hz, Except.toOption, Option.getD_some]
  have hsmul : ∀ c ∈ cs.toFinset, (val (zi c) : C.Scalar) • C.base = contribution C T.rho c +
      (T.c * weight C cs c : C.Scalar) • D.f.eval (node C c) • C.base := fun c hc => by
    have hc := List.mem_toFinset.mp hc
    obtain ⟨z, hz, h⟩ := heq c hc
    have := (hvaleq c hc).symm.trans hz
    rw [Except.ok.inj this, h]
  have hR : T.R = ∑ c ∈ cs.toFinset, contribution C T.rho c := by
    rw [T.R_sum, List.sum_toFinset _ hnd]
    exact ((perm_sortById cs).map _).sum_eq
  have hsum := Threshold.sum_shares_smul cs.toFinset (weight C cs)
    (fun c => D.f.eval (node C c)) (fun c => (val (zi c) : C.Scalar)) (contribution C T.rho)
    (T.c : C.Scalar) C.base hsmul
  refine ⟨T.R, mod (cs.map fun c => val (zi c)).sum C.L, mod_nonneg C _, mod_lt C _, ?_, ?_⟩
  · intro shares hperm
    have hz : ∀ s ∈ shares, scalarFromHex C s.zi = .ok (val s.zi) := by
      intro s hs
      obtain ⟨c, hc, rfl⟩ := List.mem_map.mp (hperm.mem_iff.mp hs)
      exact hvaleq c hc
    have hlen : shares.length = cs.length := by rw [hperm.length_eq, List.length_map]
    have htotal : (shares.map fun s => val s.zi).sum = (cs.map fun c => val (zi c)).sum := by
      rw [(hperm.map _).sum_eq, List.map_map]
      rfl
    rw [aggregate_ok C hdec T hlen hz, htotal]
  · rw [cast_mod, ← hTc, hR, ← hsum, ← List.sum_toFinset _ hnd]
    push_cast
    rfl

include hdec hdealt in
/-- **Sufficiency.** At least `t` accepted partials, one from each participant, make a
signature that the verifier accepts under the group key. -/
theorem accepted_suffices (ht : t ≤ cs.length) {message : Bytes} {zi : Commitment → String}
    (hacc : ∀ c ∈ cs, ∀ k ∈ keys.shares, k.identifier = c.identifier →
      verifySignatureShare C ⟨c.identifier, zi c⟩ k.verificationShare cs
        keys.groupPublicKey message = .ok true) :
    ∃ (R A : C.Pt) (z : ℤ) (key : Bytes), hexToBytes keys.groupPublicKey = .ok key ∧
      C.fromRawBytes key = some A ∧ SchnorrEq C R A z key message ∧
      ∀ shares : List SignatureShare, shares.Perm (cs.map fun c => ⟨c.identifier, zi c⟩) →
        aggregate C cs shares keys.groupPublicKey message =
            .ok (bytesToHex (C.toRawBytes R ++ scalarToBytes C z)) ∧
          verifySignature C (bytesToHex (C.toRawBytes R ++ scalarToBytes C z)) message
            keys.groupPublicKey = true := by
  obtain ⟨R, z, hz0, hzL, hagg, hsum⟩ := aggregate_accepted D hn hdec hdealt hacc
  have hnd : cs.Nodup := hdec.nodup.of_map _
  have hcard : cs.toFinset.card = cs.length := List.toFinset_card_of_nodup hnd
  have hdeg : D.f.degree < cs.toFinset.card := by
    have := D.threshold_pos
    rw [degree_eq_natDegree D.f_ne_zero, D.natDegree_f, hcard]
    exact_mod_cast (by omega : t - 1 < cs.length)
  have hinj : Set.InjOn (node C) cs.toFinset := fun c hc c' hc' =>
    D.distinct hn hdec hdealt (List.mem_toFinset.mp hc) (List.mem_toFinset.mp hc')
  have hinterp : ∑ c ∈ cs.toFinset, weight C cs c * D.f.eval (node C c) = D.f.eval 0 :=
    Threshold.sum_zeroWeight_mul_eval hinj hdeg
  have heq : SchnorrEq C R (D.f.eval 0 • C.base) z (C.toRawBytes (D.f.eval 0 • C.base))
      message := by
    rw [schnorrEq_iff, hsum, hinterp]
  refine ⟨R, _, z, _, D.groupKey_bytes, C.fromRawBytes_toRawBytes _, heq, fun shares hperm => ?_⟩
  exact ⟨hagg shares hperm, (verifySignature_iff C D.groupKey_bytes
    (C.fromRawBytes_toRawBytes _) ⟨hz0, hzL⟩).mpr heq⟩

end Dealt

/-! ### Honest runs -/

/-- The commitment list of the participants `S`. -/
def published (r1 : KeyShare → Round1Output) (S : List KeyShare) : List Commitment :=
  S.map fun k => (r1 k).commitment k.identifier

/-- The share list of the participants `S`. -/
def partials (zi : KeyShare → String) (S : List KeyShare) : List SignatureShare :=
  S.map fun k => ⟨k.identifier, zi k⟩

/-- The order in which commitments arrive does not matter. -/
theorem sortedCommitments_perm {cs cs' : List Commitment} (h : cs.Perm cs')
    (hnd : (cs.map (·.identifier)).Nodup) : sortedCommitments cs = sortedCommitments cs' := by
  rw [sortedCommitments_eq hnd, sortedCommitments_eq ((h.map _).nodup_iff.mp hnd),
    sortById_eq_of_perm h hnd]

section Honest

variable (D : Dealing C t n keys) (hn : n < C.L) {S : List KeyShare} (hS : S.Nodup)
  (hsub : ∀ k ∈ S, k ∈ keys.shares) {d e : KeyShare → ℤ} {r1 : KeyShare → Round1Output}
  (hr1 : ∀ k ∈ S, commit C (d k) (e k) = .ok (r1 k))
include D hS hsub

/-- Key shares that differ have identifiers that differ. -/
theorem Dealing.nodup_identifiers : (S.map (·.identifier)).Nodup :=
  hS.map_on fun _ hk _ hk' h => D.eq_of_identifier (hsub _ hk) (hsub _ hk') h

omit D hS in
/-- What dealt participants publish is under their own identifiers. -/
theorem dealtTo_published (r1 : KeyShare → Round1Output) : DealtTo keys (published r1 S) := by
  intro c hc
  obtain ⟨k, hk, rfl⟩ := List.mem_map.mp hc
  exact ⟨k, hsub k hk, rfl⟩

include hr1

/-- What dealt participants publish decodes. -/
theorem Dealing.decodes_published : Decodes C (published r1 S) :=
  decodes_of_commit (D.nodup_identifiers hS hsub) hr1

include hn

/-- Honest participants answer, all from the same commitments in any order, and their
answers are accepted. -/
theorem honest_run (message : Bytes) : ∃ zi : Commitment → String,
    (∀ k ∈ S, ∀ cs : List Commitment, cs.Perm (published r1 S) →
      round2Sign C (k.round2Params (r1 k).nonces message cs keys.groupPublicKey) =
        .ok (zi ((r1 k).commitment k.identifier))) ∧
    ∀ cs : List Commitment, cs.Perm (published r1 S) →
      ∀ c ∈ cs, ∀ k ∈ keys.shares, k.identifier = c.identifier →
        verifySignatureShare C ⟨c.identifier, zi c⟩ k.verificationShare cs
          keys.groupPublicKey message = .ok true := by
  have hdec := D.decodes_published hS hsub hr1
  have hdealt := dealtTo_published hsub r1
  have hshown : ∀ c, ∃ r : ℤ, c ∈ published r1 S → ∀ k ∈ keys.shares,
      k.identifier = c.identifier → 0 ≤ r ∧ r < C.L ∧
      (∀ zi, verifySignatureShare C ⟨c.identifier, zi⟩ k.verificationShare (published r1 S)
          keys.groupPublicKey message = .ok true ↔ scalarFromHex C zi = .ok r) ∧
      ∀ d e r1', commit C d e = .ok r1' → c = r1'.commitment k.identifier →
        round2Sign C (k.round2Params r1'.nonces message (published r1 S) keys.groupPublicKey) =
          .ok (scalarToHex C r) := by
    intro c
    by_cases hc : c ∈ published r1 S
    · obtain ⟨k, hk, hid⟩ := hdealt c hc
      obtain ⟨r, h⟩ := exists_partial D hn hdec hdealt message hc hk hid
      refine ⟨r, fun _ k' hk' hid' => ?_⟩
      rwa [D.eq_of_identifier hk' hk (hid'.trans hid.symm)]
    · exact ⟨0, fun h => absurd h hc⟩
  choose r hr using hshown
  refine ⟨fun c => scalarToHex C (r c), fun k hk cs hperm => ?_, fun cs hperm c hc k hk hid => ?_⟩
  · have hentry : (r1 k).commitment k.identifier ∈ published r1 S := List.mem_map_of_mem hk
    obtain ⟨-, -, -, hsign⟩ := hr _ hentry k (hsub k hk) rfl
    have hsorted := sortedCommitments_perm hperm.symm hdec.nodup
    rw [← hsign (d k) (e k) (r1 k) (hr1 k hk) rfl]
    rw [round2Sign, round2Sign, KeyShare.round2Params, KeyShare.round2Params, hsorted]
  · have hc' := hperm.mem_iff.mp hc
    obtain ⟨h0, hL, hacc, -⟩ := hr c hc' k hk hid
    have hsorted := sortedCommitments_perm hperm.symm hdec.nodup
    have hzi := (hacc (scalarToHex C (r c))).mpr
      (by rw [scalarFromHex_scalarToHex, mod_of_lt C h0 hL])
    simpa only [verifySignatureShare, hsorted] using hzi

omit hn in
/-- The aggregate does not depend on the order of the commitments either. -/
theorem aggregate_perm {message : Bytes} {cs : List Commitment}
    (hperm : cs.Perm (published r1 S)) (shares : List SignatureShare) :
    aggregate C cs shares keys.groupPublicKey message =
      aggregate C (published r1 S) shares keys.groupPublicKey message := by
  have hdec := D.decodes_published hS hsub hr1
  simp only [aggregate, sortedCommitments_perm hperm.symm hdec.nodup]

end Honest

/-- Keys over the small group, for the polynomial `3 + x`. -/
def smallKeys : KeygenOutput where
  groupPublicKey := pointToHex Small.curve (3 : ZMod 7)
  threshold := 2
  total := 3
  shares := [⟨1, scalarToHex Small.curve 4, pointToHex Small.curve (4 : ZMod 7)⟩,
    ⟨2, scalarToHex Small.curve 5, pointToHex Small.curve (5 : ZMod 7)⟩,
    ⟨3, scalarToHex Small.curve 6, pointToHex Small.curve (6 : ZMod 7)⟩]

/-- Round 1 with the nonces 1 and 2 over the small group. -/
def smallRound1 : Round1Output where
  nonces := ⟨scalarToHex Small.curve 1, scalarToHex Small.curve 2⟩
  hidingHex := pointToHex Small.curve (1 : ZMod 7)
  bindingHex := pointToHex Small.curve (2 : ZMod 7)

/-- The dealer draws them from `3` and `1`. -/
theorem small_dealt : trustedDealerKeygen Small.curve 2 3 [[3], [1]] = some (.ok smallKeys) := by
  rfl

/-- **Threshold correctness.** For every threshold, every set of at least `t` dealt
participants, all nonzero nonces and every message: every participant answers, every answer
is accepted, and the aggregate satisfies the plain Ed25519 equation. Nothing depends on the
order of the commitments, which may differ between participants, nor on that of the
shares. -/
theorem sign_correct {draws : List Bytes}
    (hkeys : trustedDealerKeygen C t n draws = some (.ok keys)) (hn : n < C.L)
    {S : List KeyShare} (hS : S.Nodup) (hsub : ∀ k ∈ S, k ∈ keys.shares) (ht : t ≤ S.length)
    {d e : KeyShare → ℤ} (hd : ∀ k ∈ S, 0 < d k ∧ d k < C.L)
    (he : ∀ k ∈ S, 0 < e k ∧ e k < C.L) (message : Bytes) :
    ∃ (r1 : KeyShare → Round1Output) (zi : KeyShare → String) (R A : C.Pt) (z : ℤ) (key : Bytes),
      (∀ k ∈ S, commit C (d k) (e k) = .ok (r1 k)) ∧
      (∀ k ∈ S, ∀ cs : List Commitment, cs.Perm (published r1 S) →
        round2Sign C (k.round2Params (r1 k).nonces message cs keys.groupPublicKey) =
            .ok (zi k) ∧
          verifySignatureShare C ⟨k.identifier, zi k⟩ k.verificationShare cs
            keys.groupPublicKey message = .ok true) ∧
      hexToBytes keys.groupPublicKey = .ok key ∧ C.fromRawBytes key = some A ∧
      SchnorrEq C R A z key message ∧
      ∀ (cs : List Commitment) (shares : List SignatureShare), cs.Perm (published r1 S) →
        shares.Perm (partials zi S) →
          aggregate C cs shares keys.groupPublicKey message =
              .ok (bytesToHex (C.toRawBytes R ++ scalarToBytes C z)) ∧
            verifySignature C (bytesToHex (C.toRawBytes R ++ scalarToBytes C z)) message
              keys.groupPublicKey = true := by
  obtain ⟨D⟩ := exists_dealing C hkeys
  have hcommit : ∀ k, ∃ r1, k ∈ S → commit C (d k) (e k) = .ok r1 := fun k => by
    by_cases hk : k ∈ S
    · obtain ⟨r1, hr1⟩ := exists_commit (hd k hk) (he k hk)
      exact ⟨r1, fun _ => hr1⟩
    · exact ⟨⟨⟨"", ""⟩, "", ""⟩, fun h => absurd h hk⟩
  choose r1 hr1 using hcommit
  obtain ⟨zi, hsign, hacc⟩ := honest_run D hn hS hsub hr1 message
  have hdec := D.decodes_published hS hsub hr1
  have hdealt := dealtTo_published hsub r1
  have hlen : t ≤ (published r1 S).length := by rwa [published, List.length_map]
  obtain ⟨R, A, z, key, hkey, hA, heq, hagg⟩ :=
    accepted_suffices D hn hdec hdealt hlen (hacc _ (List.Perm.refl _))
  refine ⟨r1, fun k => zi ((r1 k).commitment k.identifier), R, A, z, key, hr1,
    fun k hk cs hperm => ⟨hsign k hk cs hperm, ?_⟩, hkey, hA, heq, fun cs shares hcs hshares => ?_⟩
  · have hentry : (r1 k).commitment k.identifier ∈ cs :=
      hperm.mem_iff.mpr (List.mem_map_of_mem hk)
    exact hacc cs hperm _ hentry k (hsub k hk) rfl
  · have hshares' : shares.Perm ((published r1 S).map fun c => ⟨c.identifier, zi c⟩) := by
      rw [published, List.map_map]
      exact hshares
    rw [aggregate_perm D hS hsub hr1 hcs]
    exact hagg shares hshares'

/-- Two of the three participants over the small group sign. -/
theorem sign_correct_small : ∃ (zi : KeyShare → String) (r1 : KeyShare → Round1Output)
    (sig : String),
    (∀ k ∈ smallKeys.shares.tail, round2Sign Small.curve (k.round2Params (r1 k).nonces [1]
      (published r1 smallKeys.shares.tail) smallKeys.groupPublicKey) = .ok (zi k)) ∧
    aggregate Small.curve (published r1 smallKeys.shares.tail).reverse
      (partials zi smallKeys.shares.tail) smallKeys.groupPublicKey [1] = .ok sig ∧
    verifySignature Small.curve sig [1] smallKeys.groupPublicKey = true := by
  obtain ⟨r1, zi, R, A, z, key, -, hsign, -, -, -, hagg⟩ := sign_correct small_dealt
    (by decide) (S := smallKeys.shares.tail) (by decide) (fun k hk => List.mem_of_mem_tail hk)
    (by decide) (d := fun k => k.identifier) (e := fun _ => 2) (by decide) (by decide) [1]
  obtain ⟨hsig, hverify⟩ := hagg _ _ (List.reverse_perm _) (List.Perm.refl _)
  exact ⟨zi, r1, _, fun k hk => (hsign k hk _ (List.Perm.refl _)).1, hsig, hverify⟩

/-- **The lower bound.** One participant short of the threshold, honest partials make an
aggregate that satisfies the Ed25519 equation under the group key exactly when the
challenge is zero: the polynomial has degree `t - 1`, and interpolating it at `t - 1` nodes
other than zero misses the secret. -/
theorem below_threshold {draws : List Bytes}
    (hkeys : trustedDealerKeygen C t n draws = some (.ok keys)) (hn : n < C.L)
    {S : List KeyShare} (hS : S.Nodup) (hsub : ∀ k ∈ S, k ∈ keys.shares)
    (hlen : S.length = t - 1) {d e : KeyShare → ℤ} {r1 : KeyShare → Round1Output}
    (hr1 : ∀ k ∈ S, commit C (d k) (e k) = .ok (r1 k)) (message : Bytes) :
    ∃ (zi : KeyShare → String) (R A : C.Pt) (z : ℤ) (key : Bytes),
      (∀ k ∈ S, ∀ cs : List Commitment, cs.Perm (published r1 S) →
        round2Sign C (k.round2Params (r1 k).nonces message cs keys.groupPublicKey) =
          .ok (zi k)) ∧
      (∀ (cs : List Commitment) (shares : List SignatureShare), cs.Perm (published r1 S) →
        shares.Perm (partials zi S) → aggregate C cs shares keys.groupPublicKey message =
          .ok (bytesToHex (C.toRawBytes R ++ scalarToBytes C z))) ∧
      hexToBytes keys.groupPublicKey = .ok key ∧ C.fromRawBytes key = some A ∧
      (SchnorrEq C R A z key message ↔ H2 C (C.toRawBytes R ++ key ++ message) = 0) ∧
      (verifySignature C (bytesToHex (C.toRawBytes R ++ scalarToBytes C z)) message
        keys.groupPublicKey = true ↔ H2 C (C.toRawBytes R ++ key ++ message) = 0) := by
  obtain ⟨D⟩ := exists_dealing C hkeys
  obtain ⟨zi, hsign, hacc⟩ := honest_run D hn hS hsub hr1 message
  have hdec := D.decodes_published hS hsub hr1
  have hdealt := dealtTo_published hsub r1
  obtain ⟨R, z, hz0, hzL, hagg, hsum⟩ :=
    aggregate_accepted D hn hdec hdealt (hacc _ (List.Perm.refl _))
  set cs := published r1 S with hcs
  set key := C.toRawBytes (D.f.eval 0 • C.base) with hkey
  have hcard : D.f.natDegree = cs.toFinset.card := by
    rw [D.natDegree_f, List.toFinset_card_of_nodup (hdec.nodup.of_map _), hcs, published,
      List.length_map, hlen]
  have hinj : Set.InjOn (node C) cs.toFinset := fun c hc c' hc' =>
    D.distinct hn hdec hdealt (List.mem_toFinset.mp hc) (List.mem_toFinset.mp hc')
  -- interpolation at the nodes of `S` misses the secret
  have hmiss : D.f.eval 0 - ∑ c ∈ cs.toFinset, weight C cs c * D.f.eval (node C c) ≠ 0 := by
    simp only [weight]
    rw [Threshold.eval_zero_sub_sum_zeroWeight hinj hcard]
    refine mul_ne_zero (leadingCoeff_ne_zero.mpr D.f_ne_zero) (Finset.prod_ne_zero_iff.mpr ?_)
    exact fun c hc => neg_ne_zero.mpr (D.node_ne_zero hn hdealt (List.mem_toFinset.mp hc))
  have hzero : ((H2 C (C.toRawBytes R ++ key ++ message) : ℤ) : C.Scalar) = 0 ↔
      H2 C (C.toRawBytes R ++ key ++ message) = 0 := by
    constructor
    · intro h
      refine eq_of_cast C ⟨mod_nonneg C _, mod_lt C _⟩ ⟨le_rfl, by exact_mod_cast C.L_pos⟩ ?_
      rw [h, Int.cast_zero]
    · intro h
      rw [h, Int.cast_zero]
  have heq : SchnorrEq C R (D.f.eval 0 • C.base) z key message ↔
      H2 C (C.toRawBytes R ++ key ++ message) = 0 := by
    rw [schnorrEq_iff, hsum, ← hzero, add_right_inj, smul_smul, smul_smul, C.smul_base_inj,
      eq_comm, ← sub_eq_zero, ← mul_sub, mul_eq_zero, or_iff_left hmiss]
  refine ⟨fun k => zi ((r1 k).commitment k.identifier), R, _, z, key, hsign,
    fun cs' shares hperm hshares => ?_, D.groupKey_bytes, C.fromRawBytes_toRawBytes _, heq, ?_⟩
  · have hshares' : shares.Perm (cs.map fun c => ⟨c.identifier, zi c⟩) := by
      rw [hcs, published, List.map_map]
      exact hshares
    rw [aggregate_perm D hS hsub hr1 hperm]
    exact hagg shares hshares'
  · rw [verifySignature_iff C D.groupKey_bytes (C.fromRawBytes_toRawBytes _) ⟨hz0, hzL⟩]
    exact heq

/-- One of the three participants over the small group signs in vain. -/
theorem below_threshold_small : ∃ (zi : KeyShare → String) (R : ZMod 7) (z : ℤ),
    let S := smallKeys.shares.take 1
    (∀ k ∈ S, round2Sign Small.curve (k.round2Params smallRound1.nonces [1]
      (published (fun _ => smallRound1) S) smallKeys.groupPublicKey) = .ok (zi k)) ∧
    aggregate Small.curve (published (fun _ => smallRound1) S) (partials zi S)
      smallKeys.groupPublicKey [1] =
        .ok (bytesToHex (Small.curve.toRawBytes R ++ scalarToBytes Small.curve z)) ∧
    (verifySignature Small.curve (bytesToHex (Small.curve.toRawBytes R ++
      scalarToBytes Small.curve z)) [1] smallKeys.groupPublicKey = true ↔
      H2 Small.curve (Small.curve.toRawBytes R ++ Small.curve.toRawBytes (3 : ZMod 7) ++ [1]) =
        0) := by
  obtain ⟨zi, R, A, z, key, hsign, hagg, hkey, -, -, hverify⟩ := below_threshold small_dealt
    (by decide) (S := smallKeys.shares.take 1) (by decide) (fun k hk => List.mem_of_mem_take hk)
    (by decide) (show ∀ k ∈ smallKeys.shares.take 1, commit Small.curve 1 2 = .ok smallRound1
      from fun k hk => rfl) [1]
  obtain rfl : key = Small.curve.toRawBytes (3 : ZMod 7) := by
    have hpk : hexToBytes smallKeys.groupPublicKey =
        .ok (Small.curve.toRawBytes (3 : ZMod 7)) := hexToBytes_bytesToHex _
    exact Except.ok.inj (hkey.symm.trans hpk)
  exact ⟨zi, R, z, fun k hk => hsign k hk _ (List.Perm.refl _),
    hagg _ _ (List.Perm.refl _) (List.Perm.refl _), hverify⟩

end Frost

end NoGhost
