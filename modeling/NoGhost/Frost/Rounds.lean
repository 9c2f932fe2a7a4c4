import NoGhost.Frost.Scalars

/-!
# What the Rounds Compute

Four functions of `frost/frost.ts` derive the same values from a commitment list: the
binding factors, the group commitment, the challenge and the Lagrange coefficients. This
module says once what they derive (`Transcript`), for any commitment list that `Decodes`,
malicious ones included, and gives one lemma for each function built on them.

## Main results

* `sortById_eq_of_perm`: the order of a commitment list is immaterial.
* `exists_transcript`: a list that decodes has a transcript.
* `round2Sign_ok`, `verifySignatureShare_ok_true`, `aggregate_ok`, `verifySignature_iff`:
  the functions in terms of the transcript, over the scalar field.
-/

namespace NoGhost

namespace Frost

variable (C : Curve)

/-! ### The order of the commitments -/

/-- Sorting by identifier is a permutation. -/
theorem perm_sortById (cs : List Commitment) : (sortById cs).Perm cs :=
  List.perm_insertionSort _ cs

/-- The identifiers come out in their order. -/
theorem sortById_sorted (cs : List Commitment) :
    (sortById cs).Pairwise fun a b => a.identifier ≤ b.identifier :=
  have : Std.Total fun a b : Commitment => a.identifier ≤ b.identifier :=
    ⟨fun a b => le_total a.identifier b.identifier⟩
  have : IsTrans Commitment fun a b => a.identifier ≤ b.identifier :=
    ⟨fun _ _ _ => le_trans⟩
  List.pairwise_insertionSort _ cs

/-- With distinct identifiers, the sorted list depends on the set of commitments only. -/
theorem sortById_eq_of_perm {cs cs' : List Commitment} (h : cs.Perm cs')
    (hnd : (cs.map (·.identifier)).Nodup) : sortById cs = sortById cs' := by
  refine List.Perm.eq_of_pairwise (fun a b ha hb hab hba => ?_) (sortById_sorted cs)
    (sortById_sorted cs') ((perm_sortById cs).trans (h.trans (perm_sortById cs').symm))
  have hacs := (perm_sortById cs).mem_iff.mp ha
  have hbcs := h.mem_iff.mpr ((perm_sortById cs').mem_iff.mp hb)
  exact List.inj_on_of_nodup_map hnd hacs hbcs (le_antisymm hab hba)

/-- Commitments with distinct identifiers are accepted, and sorted. -/
theorem sortedCommitments_eq {cs : List Commitment} (hnd : (cs.map (·.identifier)).Nodup) :
    sortedCommitments cs = .ok (sortById cs) :=
  if_pos (((perm_sortById cs).map _).nodup_iff.mpr hnd)

/-! ### The common derivations -/

/-- A commitment list with distinct identifiers whose points decode, which is what the functions of
round 2 do not raise on. -/
structure Decodes (cs : List Commitment) : Prop where
  nodup : (cs.map (·.identifier)).Nodup
  hidingPt : ∀ c ∈ cs, ∃ p, pointFromHex C c.hidingHex = .ok p
  bindingPt : ∀ c ∈ cs, ∃ p, pointFromHex C c.bindingHex = .ok p

/-- The point behind a commitment's text, for texts that decode. -/
def pointOf (hex : String) : C.Pt := (pointFromHex C hex).toOption.getD 0

/-- The point is the one the text decodes to. -/
theorem pointOf_eq {hex : String} {p : C.Pt} (h : pointFromHex C hex = .ok p) :
    pointOf C hex = p := by
  rw [pointOf, h]
  rfl

/-- What a participant contributes to the group commitment under the binding factors. -/
def contribution (rho : List (ℤ × ℤ)) (c : Commitment) : C.Pt :=
  pointOf C c.hidingHex + (rhoOf rho c.identifier : C.Scalar) • pointOf C c.bindingHex

/-- What every participant derives from the sorted commitment list `cs`, the group key
`pk` and the message. -/
structure Transcript (cs : List Commitment) (pk : String) (message : Bytes) where
  rho : List (ℤ × ℤ)
  R : C.Pt
  c : ℤ
  rho_eq : bindingFactors C pk cs message = .ok rho
  R_eq : groupCommitment C cs rho = .ok R
  c_eq : challenge C R pk message = .ok c
  R_sum : R = (cs.map (contribution C rho)).sum

/-- Whether commitments decode does not depend on their order. -/
theorem Decodes.of_perm {cs cs' : List Commitment} (h : Decodes C cs) (hp : cs'.Perm cs) :
    Decodes C cs' :=
  ⟨(hp.map _).nodup_iff.mpr h.nodup, fun c hc => h.hidingPt c (hp.mem_iff.mp hc),
    fun c hc => h.bindingPt c (hp.mem_iff.mp hc)⟩

/-- Sorted commitments decode where the commitments do. -/
theorem Decodes.sort {cs : List Commitment} (h : Decodes C cs) : Decodes C (sortById cs) :=
  h.of_perm C (perm_sortById cs)

/-- Sorting a sorted list again changes nothing, as `aggregate` does after the signers have. -/
theorem sortedCommitments_sortById {cs : List Commitment} (h : Decodes C cs) :
    sortedCommitments (sortById cs) = .ok (sortById cs) := by
  rw [sortedCommitments_eq h.sort.nodup,
    sortById_eq_of_perm (perm_sortById cs) (h.sort C).nodup]

/-- A loop in which no step raises does not raise. -/
theorem mapM_ok {α β : Type} {f : α → Except String β} {l : List α}
    (h : ∀ a ∈ l, ∃ b, f a = .ok b) : ∃ bs, l.mapM f = .ok bs := by
  induction l with
  | nil => exact ⟨[], rfl⟩
  | cons a l ih =>
      obtain ⟨b, hb⟩ := h a (by simp)
      obtain ⟨bs, hbs⟩ := ih fun x hx => h x (by simp [hx])
      refine ⟨b :: bs, ?_⟩
      rw [List.mapM_cons, hb, hbs]
      rfl

/-- The loop of `groupCommitment` on points that decode adds up the two commitments of each
participant. Induction on the participants. -/
theorem foldlM_addCommitment {cs : List Commitment} (rho : List (ℤ × ℤ)) (R : C.Pt)
    (hhid : ∀ c ∈ cs, ∃ p, pointFromHex C c.hidingHex = .ok p)
    (hbind : ∀ c ∈ cs, ∃ p, pointFromHex C c.bindingHex = .ok p) :
    cs.foldlM (addCommitment C rho) R = .ok (R + (cs.map (contribution C rho)).sum) := by
  induction cs generalizing R with
  | nil => simp [pure, Except.pure]
  | cons c cs ih =>
      obtain ⟨D, hD⟩ := hhid c (by simp)
      obtain ⟨E, hE⟩ := hbind c (by simp)
      have hstep : addCommitment C rho R c = .ok (R + contribution C rho c) := by
        simp only [addCommitment, hD, hE, bind, Except.bind, pure, Except.pure, mulUnsafe_eq,
          contribution, pointOf_eq C hD, pointOf_eq C hE, add_assoc]
      rw [List.foldlM_cons, hstep]
      simp only [bind, Except.bind]
      rw [ih _ (fun x hx => hhid x (by simp [hx])) (fun x hx => hbind x (by simp [hx])),
        List.map_cons, List.sum_cons, add_assoc]

/-- A list that decodes has a transcript, for every key that is hexadecimal text. -/
theorem exists_transcript {cs : List Commitment} (h : Decodes C cs) {pk : String} {A : Bytes}
    (hpk : hexToBytes pk = .ok A) (message : Bytes) :
    ∃ T : Transcript C (sortById cs) pk message,
      T.c = H2 C (C.toRawBytes T.R ++ A ++ message) := by
  have hs := h.sort C
  have henc : ∃ bs, (sortById cs).mapM (encodeCommitment C) = .ok bs := by
    refine mapM_ok fun c hc => ?_
    obtain ⟨D, hD⟩ := hs.hidingPt c hc
    obtain ⟨E, hE⟩ := hs.bindingPt c hc
    obtain ⟨b, hb, -⟩ := hexToBytes_of_pointFromHex C hD
    obtain ⟨b', hb', -⟩ := hexToBytes_of_pointFromHex C hE
    simp [encodeCommitment, hb, hb', bind, Except.bind, pure, Except.pure]
  obtain ⟨bs, hbs⟩ := henc
  have hrho : ∃ rho, bindingFactors C pk (sortById cs) message = .ok rho := by
    simp [bindingFactors, sortedCommitments_sortById C h, hbs, hpk, bind, Except.bind, pure,
      Except.pure]
  obtain ⟨rho, hrho⟩ := hrho
  have hR : groupCommitment C (sortById cs) rho =
      .ok (((sortById cs).map (contribution C rho)).sum) := by
    rw [groupCommitment, sortedCommitments_sortById C h]
    simp only [bind, Except.bind]
    rw [foldlM_addCommitment C rho 0 hs.hidingPt hs.bindingPt, zero_add]
  have hc : challenge C ((sortById cs).map (contribution C rho)).sum pk message =
      .ok (H2 C (C.toRawBytes ((sortById cs).map (contribution C rho)).sum ++ A ++ message)) := by
    simp [challenge, hpk, bind, Except.bind, pure, Except.pure]
  exact ⟨⟨rho, _, _, hrho, hR, hc, rfl⟩, rfl⟩

/-- The node of a participant in the scalar field, at which the shares are interpolated. -/
def node (c : Commitment) : C.Scalar := c.identifier

/-- Participants whose nodes are distinct in the scalar field. -/
def Distinct (cs : List Commitment) : Prop := Set.InjOn (node C) {c | c ∈ cs}

/-- The interpolation weight of a participant among those of the list. -/
def weight (cs : List Commitment) (c : Commitment) : C.Scalar :=
  Threshold.zeroWeight cs.toFinset (node C) c

/-- The weight of a participant does not depend on the order of the others. -/
theorem weight_of_perm {cs cs' : List Commitment} (h : cs.Perm cs') (c : Commitment) :
    weight C cs c = weight C cs' c := by
  rw [weight, weight, List.toFinset_eq_of_perm _ _ h]

/-- Nor does whether their nodes are distinct. -/
theorem Distinct.of_perm {cs cs' : List Commitment} (h : Distinct C cs) (hp : cs'.Perm cs) :
    Distinct C cs' := fun _ ha _ hb hab => h (hp.mem_iff.mp ha) (hp.mem_iff.mp hb) hab

/-- The entry of a participant is found by its identifier among the sorted ones. -/
theorem find_identifier {cs : List Commitment} (hnd : (cs.map (·.identifier)).Nodup)
    {own : Commitment} (hown : own ∈ cs) :
    (sortById cs).find? (·.identifier = own.identifier) = some own := by
  have hmem := (perm_sortById cs).mem_iff.mpr hown
  have hnd' := ((perm_sortById cs).map (·.identifier)).nodup_iff.mpr hnd
  cases hfind : (sortById cs).find? (·.identifier = own.identifier) with
  | none =>
      have := List.find?_eq_none.mp hfind own hmem
      simp at this
  | some c =>
      have hid : c.identifier = own.identifier := by simpa using List.find?_some hfind
      rw [List.inj_on_of_nodup_map hnd' (List.mem_of_find?_eq_some hfind) hmem hid]

/-- The coefficient that a participant computes from the sorted identifiers is its weight. -/
theorem lagrange_sortById {cs : List Commitment} (h : Decodes C cs) (hd : Distinct C cs)
    {own : Commitment} (hown : own ∈ cs) :
    ∃ l, lagrangeCoefficient C own.identifier ((sortById cs).map (·.identifier)) = .ok l ∧
      (l : C.Scalar) = weight C cs own := by
  have hd' := hd.of_perm C (perm_sortById cs)
  have hown' := (perm_sortById cs).mem_iff.mpr hown
  have hids : Set.InjOn (Int.cast : ℤ → C.Scalar)
      {j | j ∈ (sortById cs).map (·.identifier)} := by
    rintro a ha b hb hab
    obtain ⟨c, hc, rfl⟩ := List.mem_map.mp ha
    obtain ⟨c', hc', rfl⟩ := List.mem_map.mp hb
    rw [hd' hc hc' hab]
  obtain ⟨l, hl, hw⟩ := lagrangeCoefficient_eq C (h.sort C).nodup hids
    (List.mem_map_of_mem hown')
  refine ⟨l, hl, hw.trans ?_⟩
  have himage : ((sortById cs).map (·.identifier)).toFinset =
      (sortById cs).toFinset.image (·.identifier) := by
    ext j
    simp
  rw [weight_of_perm C (perm_sortById cs).symm, weight, himage, Threshold.zeroWeight_image _ _
    (List.mem_toFinset.mpr hown')]
  · rfl
  · intro a ha b hb hab
    exact List.inj_on_of_nodup_map (h.sort C).nodup (List.mem_toFinset.mp ha)
      (List.mem_toFinset.mp hb) hab

/-- The summation of `aggregate`, from a reduced accumulator, is the sum modulo the order. Induction
on the shares. -/
theorem foldlM_addShare {shares : List SignatureShare} {z : SignatureShare → ℤ} (acc : ℤ)
    (hz : ∀ s ∈ shares, scalarFromHex C s.zi = .ok (z s)) :
    shares.foldlM (addShare C) (mod acc C.L) = .ok (mod (acc + (shares.map z).sum) C.L) := by
  induction shares generalizing acc with
  | nil => simp [pure, Except.pure]
  | cons s shares ih =>
      have hstep : addShare C (mod acc C.L) s = .ok (mod (acc + z s) C.L) := by
        simp only [addShare, hz s (by simp), bind, Except.bind, pure, Except.pure]
        refine congrArg Except.ok (eq_of_cast C ⟨mod_nonneg C _, mod_lt C _⟩
          ⟨mod_nonneg C _, mod_lt C _⟩ ?_)
        simp
      rw [List.foldlM_cons, hstep]
      simp only [bind, Except.bind]
      rw [ih _ fun x hx => hz x (by simp [hx]), List.map_cons, List.sum_cons, add_assoc]

/-! ### The rounds -/

section Rounds

variable {cs : List Commitment} (h : Decodes C cs) (hd : Distinct C cs) {pk : String}
  {message : Bytes} (T : Transcript C (sortById cs) pk message)
include h hd

/-- What an honest participant with the nonces `d`, `e` and the secret share `sk` answers,
as a scalar. -/
theorem round2Sign_ok {own : Commitment} (hown : own ∈ cs) {d e sk : ℤ} {nonces : Nonces}
    {secretShare : String}
    (hhid : scalarFromHex C nonces.hidingHex = .ok d)
    (hbind : scalarFromHex C nonces.bindingHex = .ok e)
    (hsk : scalarFromHex C secretShare = .ok sk)
    (hD : (C.multiply C.base d).map (pointToHex C) = .ok own.hidingHex)
    (hE : (C.multiply C.base e).map (pointToHex C) = .ok own.bindingHex) :
    ∃ z : ℤ, round2Sign C ⟨own.identifier, secretShare, nonces, message, cs, pk⟩ =
        .ok (scalarToHex C z) ∧ 0 ≤ z ∧ z < C.L ∧
      (z : C.Scalar) = d + rhoOf T.rho own.identifier * e +
        T.c * weight C cs own * sk := by
  obtain ⟨l, hl, hw⟩ := lagrange_sortById C h hd hown
  obtain ⟨D, hmD, hhex⟩ : ∃ D, C.multiply C.base d = .ok D ∧ pointToHex C D = own.hidingHex := by
    cases hm : C.multiply C.base d with
    | error => simp [hm, Except.map] at hD
    | ok D => exact ⟨D, rfl, by simpa [hm, Except.map] using hD⟩
  obtain ⟨E, hmE, hhex'⟩ : ∃ E, C.multiply C.base e = .ok E ∧ pointToHex C E = own.bindingHex := by
    cases hm : C.multiply C.base e with
    | error => simp [hm, Except.map] at hE
    | ok E => exact ⟨E, rfl, by simpa [hm, Except.map] using hE⟩
  refine ⟨mod (d + e * rhoOf T.rho own.identifier + l * sk * T.c) C.L, ?_, mod_nonneg C _,
    mod_lt C _, ?_⟩
  · simp [round2Sign, sortedCommitments_eq h.nodup, find_identifier h.nodup hown, hhid, hbind,
      hmD, hmE, hhex, hhex', T.rho_eq, T.R_eq, T.c_eq, hl, hsk, bind, Except.bind, pure,
      Except.pure]
  · rw [cast_mod]
    push_cast
    rw [hw]
    ring

/-- A partial is accepted exactly when it solves the participant's equation. -/
theorem verifySignatureShare_ok_true {own : Commitment} (hown : own ∈ cs)
    {verificationShare : String} {Y : C.Pt}
    (hY : pointFromHex C verificationShare = .ok Y) (zi : String) :
    verifySignatureShare C ⟨own.identifier, zi⟩ verificationShare cs pk message = .ok true ↔
      ∃ z, scalarFromHex C zi = .ok z ∧ (z : C.Scalar) • C.base =
        contribution C T.rho own + (T.c * weight C cs own : C.Scalar) • Y := by
  obtain ⟨l, hl, hw⟩ := lagrange_sortById C h hd hown
  obtain ⟨D, hD⟩ := h.hidingPt own hown
  obtain ⟨E, hE⟩ := h.bindingPt own hown
  cases hz : scalarFromHex C zi with
  | error e =>
      simp [verifySignatureShare, sortedCommitments_eq h.nodup, find_identifier h.nodup hown,
        T.rho_eq, T.R_eq, T.c_eq, hl, hz, bind, Except.bind]
  | ok z =>
      simp [verifySignatureShare, sortedCommitments_eq h.nodup, find_identifier h.nodup hown,
        T.rho_eq, T.R_eq, T.c_eq, hl, hz, hD, hE, hY, bind, Except.bind, pure, Except.pure,
        mulUnsafe_eq, contribution, pointOf_eq C hD, pointOf_eq C hE, hw]

include T in
/-- A partial that is read is accepted or not: nothing is raised about it. -/
theorem exists_verdict {own : Commitment} (hown : own ∈ cs) {verificationShare : String} {Y : C.Pt}
    (hY : pointFromHex C verificationShare = .ok Y) {zi : String} {z : ℤ}
    (hz : scalarFromHex C zi = .ok z) :
    ∃ b, verifySignatureShare C ⟨own.identifier, zi⟩ verificationShare cs pk message = .ok b := by
  obtain ⟨l, hl, -⟩ := lagrange_sortById C h hd hown
  obtain ⟨D, hD⟩ := h.hidingPt own hown
  obtain ⟨E, hE⟩ := h.bindingPt own hown
  simp only [verifySignatureShare, sortedCommitments_eq h.nodup,
    find_identifier h.nodup hown, T.rho_eq,
    T.R_eq, T.c_eq, hl, hz, hD, hE, hY, bind, Except.bind, pure, Except.pure]
  exact ⟨_, rfl⟩

omit hd in
/-- The aggregate carries the group commitment and the sum of the partials. -/
theorem aggregate_ok {shares : List SignatureShare} (hlen : shares.length = cs.length)
    {z : SignatureShare → ℤ} (hz : ∀ s ∈ shares, scalarFromHex C s.zi = .ok (z s)) :
    aggregate C cs shares pk message =
      .ok (bytesToHex (C.toRawBytes T.R ++ scalarToBytes C (mod (shares.map z).sum C.L))) := by
  have hzero : mod 0 C.L = 0 := mod_of_lt C le_rfl (by exact_mod_cast C.L_pos)
  have hsum := foldlM_addShare C 0 hz
  rw [hzero, zero_add] at hsum
  have hlen' : shares.length = (sortById cs).length := by
    rw [hlen, (perm_sortById cs).length_eq]
  simp [aggregate, sortedCommitments_eq h.nodup, hlen', T.rho_eq, T.R_eq, hsum, bind,
    Except.bind, pure, Except.pure]

end Rounds

/-- The Schnorr equation over the scalar field, where the challenge is a scalar. -/
theorem schnorrEq_iff {R A : C.Pt} {z : ℤ} {key message : Bytes} :
    SchnorrEq C R A z key message ↔ (z : C.Scalar) • C.base =
      R + ((H2 C (C.toRawBytes R ++ key ++ message) : ℤ) : C.Scalar) • A := by
  rw [SchnorrEq, C.intCast_smul, C.intCast_smul]

/-- The equation that the verifier of the curve library checks, with natural multiples. -/
theorem schnorrEq_natCast {R A : C.Pt} {z : ℕ} {key message : Bytes} :
    SchnorrEq C R A z key message ↔ z • C.base =
      R + littleEndian (C.sha512 (C.toRawBytes R ++ key ++ message)) • A := by
  rw [schnorrEq_iff, H2, cast_mod, bytesToNumberLE_eq, Int.cast_natCast, Int.cast_natCast,
    Nat.cast_smul_eq_nsmul, Nat.cast_smul_eq_nsmul]

/-- The verifier accepts `R ‖ z` exactly when the Schnorr equation holds. -/
theorem verifySignature_iff {R A : C.Pt} {z : ℤ} {pk : String} {key message : Bytes}
    (hkey : hexToBytes pk = .ok key) (hA : C.fromRawBytes key = some A)
    (hz : 0 ≤ z ∧ z < C.L) :
    verifySignature C (bytesToHex (C.toRawBytes R ++ scalarToBytes C z)) message pk = true ↔
      SchnorrEq C R A z key message := by
  have hlength : (C.toRawBytes R ++ scalarToBytes C z).length = 64 := by
    rw [List.length_append, C.length_toRawBytes, length_scalarToBytes]
  have htake : (C.toRawBytes R ++ scalarToBytes C z).take 32 = C.toRawBytes R :=
    List.take_left' (C.length_toRawBytes R)
  have hdrop : (C.toRawBytes R ++ scalarToBytes C z).drop 32 = scalarToBytes C z :=
    List.drop_left' (C.length_toRawBytes R)
  have hnum : (littleEndian (scalarToBytes C z) : ℤ) = z := by
    rw [← bytesToNumberLE_eq, bytesToNumberLE_scalarToBytes, mod_of_lt C hz.1 hz.2]
  have hlt : littleEndian (scalarToBytes C z) < C.L := by
    have := hz.2
    omega
  have hverify : verifySignature C (bytesToHex (C.toRawBytes R ++ scalarToBytes C z)) message pk =
      C.verify (C.toRawBytes R ++ scalarToBytes C z) message key := by
    rw [verifySignature, hexToBytes_bytesToHex, hkey]
  rw [hverify, C.verify_iff, htake, hdrop, C.fromRawBytes_toRawBytes, hA]
  constructor
  · rintro ⟨-, R', A', hR', hA', -, heq⟩
    cases hR'
    cases hA'
    rw [← hnum]
    exact (schnorrEq_natCast C).mpr heq
  · intro heq
    rw [← hnum] at heq
    exact ⟨hlength, R, A, rfl, rfl, hlt, (schnorrEq_natCast C).mp heq⟩

end Frost

end NoGhost
