import NoGhost.Frost.Rounds

/-!
# The Trusted Dealer

What `trustedDealerKeygen` deals, as a `Dealing`: a polynomial over the scalar field of
degree exactly `t - 1` with a nonzero value at zero, whose value at zero is the group
secret and whose values at `1 .. n` are the secret shares.

## Main results

* `exists_dealing`: every output of the dealer is a `Dealing`.
* `Dealing.cast_inj`, `Dealing.cast_ne_zero`: with fewer participants than the group order,
  dealt identifiers are distinct scalars other than zero.
-/

open Polynomial

namespace NoGhost

namespace Frost

variable (C : Curve)

/-! ### The polynomial -/

/-- The polynomial with the given coefficients, constant term first. -/
noncomputable def polynomial : List ℤ → C.Scalar[X]
  | [] => 0
  | a :: coeffs => .C (a : C.Scalar) + X * polynomial coeffs

/-- The secret is the value of the polynomial at 0. -/
theorem polynomial_eval_zero (a : ℤ) (coeffs : List ℤ) :
    (polynomial C (a :: coeffs)).eval 0 = a := by
  simp [polynomial]

/-- The loop of the dealer evaluates the polynomial, with the running power of `x` in the
second component. -/
theorem evalShare_foldl (coeffs : List ℤ) (x : ℤ) (st : ℤ × ℤ) :
    ((coeffs.foldl (fun st c => (mod (st.1 + c * st.2) C.L, mod (st.2 * x) C.L)) st).1 :
      C.Scalar) = st.1 + st.2 * (polynomial C coeffs).eval (x : C.Scalar) := by
  induction coeffs generalizing st with
  | nil => simp [polynomial]
  | cons a coeffs ih =>
      rw [List.foldl_cons, ih]
      simp only [cast_mod, polynomial, eval_add, eval_C, eval_mul, eval_X]
      push_cast
      ring

/-- A share is the value of the polynomial at its identifier. -/
theorem cast_evalShare (coeffs : List ℤ) (x : ℤ) :
    (evalShare C coeffs x : C.Scalar) = (polynomial C coeffs).eval (x : C.Scalar) := by
  rw [evalShare, evalShare_foldl]
  simp

/-- Coefficients that are not zero give the full degree. -/
theorem natDegree_polynomial {coeffs : List ℤ} (hne : coeffs ≠ [])
    (h : ∀ a ∈ coeffs, (a : C.Scalar) ≠ 0) :
    (polynomial C coeffs).natDegree = coeffs.length - 1 ∧ polynomial C coeffs ≠ 0 := by
  induction coeffs with
  | nil => exact absurd rfl hne
  | cons a coeffs ih =>
      have ha : (a : C.Scalar) ≠ 0 := h a (by simp)
      refine ⟨?_, fun h0 => ha ?_⟩
      · cases coeffs with
        | nil => simp [polynomial]
        | cons b coeffs =>
            obtain ⟨hdeg, hne0⟩ := ih (by simp) fun x hx => h x (by simp [hx])
            rw [polynomial, natDegree_C_add, natDegree_X_mul hne0, hdeg]
            simp
      · rw [← polynomial_eval_zero C a coeffs, h0, eval_zero]

/-! ### Key generation -/

/-- A scalar that is drawn is a residue other than zero. -/
theorem randomScalar_some {draws rest : List Bytes} {s : ℤ}
    (h : randomScalar C draws = some (s, rest)) : 0 < s ∧ s < C.L := by
  induction draws with
  | nil => cases h
  | cons draw draws ih =>
      rw [randomScalar] at h
      split at h
      next hne =>
        obtain ⟨rfl, -⟩ := Prod.mk.inj (Option.some.inj h)
        exact ⟨lt_of_le_of_ne (mod_nonneg C _) (Ne.symm hne), mod_lt C _⟩
      next => exact ih h

/-- The dealer draws `t` coefficients, none of them zero. -/
theorem drawCoeffs_some {t : ℕ} {draws : List Bytes} {coeffs : List ℤ}
    (h : drawCoeffs C t draws = some coeffs) :
    coeffs.length = t ∧ ∀ a ∈ coeffs, 0 < a ∧ a < C.L := by
  induction t generalizing draws coeffs with
  | zero =>
      obtain rfl := Option.some.inj h
      simp
  | succ t ih =>
      simp only [drawCoeffs, Option.bind_eq_bind, Option.bind_eq_some_iff, Option.pure_def,
        Option.some.injEq, Prod.exists] at h
      obtain ⟨s, rest, hs, coeffs, hrest, rfl⟩ := h
      obtain ⟨hlen, hall⟩ := ih hrest
      refine ⟨by rw [List.length_cons, hlen], fun a ha => ?_⟩
      rcases List.mem_cons.mp ha with rfl | ha
      · exact randomScalar_some C hs
      · exact hall a ha

/-- A loop that succeeds has a result for each element, in their order. -/
theorem mapM_forall₂ {α β : Type} {f : α → Except String β} {l : List α} {bs : List β}
    (h : l.mapM f = .ok bs) : List.Forall₂ (fun a b => f a = .ok b) l bs := by
  induction l generalizing bs with
  | nil =>
      cases h
      exact .nil
  | cons a l ih =>
      rw [List.mapM_cons, Js.bind_eq_ok] at h
      obtain ⟨b, hb, h⟩ := h
      obtain ⟨bs', hbs, h⟩ := Js.bind_eq_ok.mp h
      cases h
      exact .cons hb (ih hbs)

/-- The secret polynomial behind an output of the dealer: its value at 0 is the secret of the group,
and those at the identifiers are the shares. -/
structure Dealing (t n : ℕ) (keys : KeygenOutput) where
  f : C.Scalar[X]
  threshold_pos : 0 < t
  f_ne_zero : f ≠ 0
  natDegree_f : f.natDegree = t - 1
  groupKey : keys.groupPublicKey = pointToHex C (f.eval 0 • C.base)
  identifiers : keys.shares.map (·.identifier) = (List.range n).map fun k : ℕ => (k : ℤ) + 1
  share_eq : ∀ k ∈ keys.shares, ∃ y : ℤ, 0 ≤ y ∧ y < C.L ∧
    (y : C.Scalar) = f.eval (k.identifier : C.Scalar) ∧
    k.secretShare = scalarToHex C y ∧
    k.verificationShare = pointToHex C ((y : C.Scalar) • C.base)

/-- What the dealer does for one participant: the share is the value of the polynomial, and its
public key the multiple of the base. -/
theorem dealShare_ok {coeffs : List ℤ} {id : ℤ} {k : KeyShare}
    (h : dealShare C coeffs id = .ok k) :
    k.identifier = id ∧ ∃ y : ℤ, 0 ≤ y ∧ y < C.L ∧
      (y : C.Scalar) = (polynomial C coeffs).eval (id : C.Scalar) ∧
      k.secretShare = scalarToHex C y ∧
      k.verificationShare = pointToHex C ((y : C.Scalar) • C.base) := by
  rw [dealShare] at h
  obtain ⟨Y, hm, h⟩ := Js.bind_eq_ok.mp h
  obtain ⟨hpos, hlt, rfl⟩ := multiply_ok C hm
  cases h
  exact ⟨rfl, _, hpos.le, hlt, cast_evalShare C coeffs id, rfl, rfl⟩

/-- What the dealer does for all participants, and for the group. -/
theorem dealKeys_ok {t n : ℕ} {coeffs : List ℤ} {keys : KeygenOutput}
    (h : dealKeys C t n coeffs = .ok keys) :
    keys.groupPublicKey = pointToHex C ((coeffs.headD 0 : C.Scalar) • C.base) ∧
      List.Forall₂ (fun (k : ℕ) share => dealShare C coeffs (k + 1) = .ok share)
        (List.range n) keys.shares := by
  obtain ⟨shares, hshares, h⟩ := Js.bind_eq_ok.mp h
  obtain ⟨A, hm, h⟩ := Js.bind_eq_ok.mp h
  obtain ⟨-, -, rfl⟩ := multiply_ok C hm
  cases h
  exact ⟨rfl, mapM_forall₂ hshares⟩

/-- **The dealer deals.** Every successful key generation has a secret polynomial of degree
`t - 1`, since no coefficient is drawn as zero. -/
theorem exists_dealing {t n : ℕ} {draws : List Bytes} {keys : KeygenOutput}
    (h : trustedDealerKeygen C t n draws = some (.ok keys)) : Nonempty (Dealing C t n keys) := by
  rw [trustedDealerKeygen] at h
  split at h
  · cases h
  next hparams =>
    obtain ⟨coeffs, hdraw, hdeal⟩ := Option.map_eq_some_iff.mp h
    obtain ⟨hlen, hall⟩ := drawCoeffs_some C hdraw
    obtain ⟨hkey, hshares⟩ := dealKeys_ok C hdeal
    have hne : coeffs ≠ [] := by
      rintro rfl
      simp only [List.length_nil] at hlen
      omega
    obtain ⟨hdeg, hf⟩ := natDegree_polynomial C hne fun a ha =>
      cast_ne_zero C (hall a ha).1 (hall a ha).2
    have hident : keys.shares.map (·.identifier) = (List.range n).map fun k : ℕ => (k : ℤ) + 1 := by
      refine List.forall₂_eq_eq_eq ▸ ?_
      rw [List.forall₂_map_left_iff, List.forall₂_map_right_iff]
      exact hshares.flip.imp fun k i hk => (dealShare_ok C hk).1
    have hgroup : keys.groupPublicKey =
        pointToHex C ((polynomial C coeffs).eval 0 • C.base) := by
      obtain ⟨a, coeffs, rfl⟩ := List.exists_cons_of_ne_nil hne
      rw [hkey, polynomial_eval_zero]
      rfl
    refine ⟨⟨polynomial C coeffs, by omega, hf, by rw [hdeg, hlen], hgroup, hident, ?_⟩⟩
    intro k hk
    obtain ⟨i, hi, rfl⟩ := List.mem_iff_getElem.mp hk
    have hget := (List.forall₂_iff_get.mp hshares).2 i
      (by rw [hshares.length_eq]; exact hi) hi
    obtain ⟨hid, hy⟩ := dealShare_ok C hget
    simp only [List.get_eq_getElem] at hid hy
    rw [hid]
    exact hy

section Dealing

variable {C} {t n : ℕ} {keys : KeygenOutput} (D : Dealing C t n keys)
include D

/-- The identifiers that are dealt are distinct. -/
theorem Dealing.nodup : (keys.shares.map (·.identifier)).Nodup := by
  rw [D.identifiers]
  exact List.nodup_range.map fun a b h => by simpa using h

/-- A dealt identifier is one of `1 .. n`. -/
theorem Dealing.identifier_range {k : KeyShare} (hk : k ∈ keys.shares) :
    0 < k.identifier ∧ k.identifier ≤ n := by
  have hmem : k.identifier ∈ (List.range n).map fun k : ℕ => (k : ℤ) + 1 :=
    D.identifiers ▸ List.mem_map_of_mem hk
  obtain ⟨i, hi, hid⟩ := List.mem_map.mp hmem
  have := List.mem_range.mp hi
  omega

/-- The key share of an identifier is unique. -/
theorem Dealing.eq_of_identifier {k k' : KeyShare} (hk : k ∈ keys.shares)
    (hk' : k' ∈ keys.shares) (h : k.identifier = k'.identifier) : k = k' :=
  List.inj_on_of_nodup_map D.nodup hk hk' h

/-- Fewer participants than scalars: the node of a dealt identifier is not zero. -/
theorem Dealing.cast_ne_zero (hn : n < C.L) {k : KeyShare} (hk : k ∈ keys.shares) :
    (k.identifier : C.Scalar) ≠ 0 := by
  obtain ⟨hpos, hle⟩ := D.identifier_range hk
  exact Frost.cast_ne_zero C hpos (hle.trans_lt (by exact_mod_cast hn))

/-- Fewer participants than scalars: dealt identifiers have distinct nodes. -/
theorem Dealing.cast_inj (hn : n < C.L) {k k' : KeyShare} (hk : k ∈ keys.shares)
    (hk' : k' ∈ keys.shares) (h : (k.identifier : C.Scalar) = k'.identifier) : k = k' := by
  obtain ⟨hpos, hle⟩ := D.identifier_range hk
  obtain ⟨hpos', hle'⟩ := D.identifier_range hk'
  have hlt : (n : ℤ) < C.L := by exact_mod_cast hn
  exact D.eq_of_identifier hk hk'
    (eq_of_cast C ⟨hpos.le, hle.trans_lt hlt⟩ ⟨hpos'.le, hle'.trans_lt hlt⟩ h)

end Dealing

end Frost

end NoGhost
