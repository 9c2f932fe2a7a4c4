import Mathlib.LinearAlgebra.Lagrange
import Mathlib.Algebra.Module.BigOperators

/-!
# The Algebra of Threshold Schnorr Signing

A secret is the value at zero of a polynomial over a field, and a participant's share is
the value at the participant's node. This module is the arithmetic that threshold
signatures rest on: the interpolation weights at zero, what they make of a polynomial whose
degree is below the number of nodes and of one whose degree is equal to it, and the sum of
the participants' verification equations in a vector space over the field.

## Main results

* `sum_zeroWeight_mul_eval`: enough shares interpolate the secret.
* `eval_zero_sub_sum_zeroWeight`: one share short of the degree, interpolation misses the
  secret by the leading coefficient times the product of the negated nodes.
* `sum_shares_smul`: valid partial signatures add up to a valid signature.
-/

open Finset Polynomial

namespace Threshold

variable {ι F : Type*} [DecidableEq ι] [Field F]

/-- The Lagrange coefficient of the node `i` at zero, over the nodes `v j` for `j ∈ s`. -/
def zeroWeight (s : Finset ι) (v : ι → F) (i : ι) : F :=
  ∏ j ∈ s.erase i, v j / (v j - v i)

/-- The weights depend on the nodes only, not on how they are indexed. -/
theorem zeroWeight_image {κ : Type*} [DecidableEq κ] {s : Finset κ} {g : κ → ι}
    (hg : Set.InjOn g s) (v : ι → F) {i : κ} (hi : i ∈ s) :
    zeroWeight (s.image g) v (g i) = zeroWeight s (v ∘ g) i := by
  have herase : (s.image g).erase (g i) = (s.erase i).image g := by
    ext x
    simp only [mem_erase, mem_image]
    constructor
    · rintro ⟨hx, k, hk, rfl⟩
      exact ⟨k, ⟨fun h => hx (by rw [h]), hk⟩, rfl⟩
    · rintro ⟨k, ⟨hne, hk⟩, rfl⟩
      exact ⟨fun h => hne (hg hk hi h), k, hk, rfl⟩
  rw [zeroWeight, herase, prod_image fun a ha b hb hab =>
    hg (mem_of_mem_erase ha) (mem_of_mem_erase hb) hab]
  rfl

/-- The weight at zero is the value at zero of the Lagrange basis polynomial. -/
theorem eval_zero_basis (s : Finset ι) (v : ι → F) (i : ι) :
    (Lagrange.basis s v i).eval 0 = zeroWeight s v i := by
  rw [Lagrange.basis, eval_prod, zeroWeight]
  refine prod_congr rfl fun j _ => ?_
  rw [Lagrange.basisDivisor, eval_mul, eval_C, eval_sub, eval_X, eval_C, zero_sub,
    mul_neg, ← neg_mul, ← inv_neg, neg_sub, div_eq_inv_mul]

/-- **Enough shares.** A polynomial of degree below the number of nodes is recovered at zero from
its values at the nodes. -/
theorem sum_zeroWeight_mul_eval {s : Finset ι} {v : ι → F} (hv : Set.InjOn v s) {f : F[X]}
    (hdeg : f.degree < #s) : ∑ i ∈ s, zeroWeight s v i * f.eval (v i) = f.eval 0 := by
  conv_rhs => rw [Lagrange.eq_interpolate hv hdeg]
  rw [Lagrange.interpolate_apply, eval_finsetSum]
  refine sum_congr rfl fun i _ => ?_
  rw [eval_mul, eval_C, eval_zero_basis, mul_comm]

/-- **One share short.** When the degree is the number of nodes, interpolation misses the
value at zero by the leading coefficient times the product of the negated nodes: the
difference of the polynomial and that multiple of the nodal polynomial has a smaller
degree, and the nodal polynomial vanishes at the nodes. -/
theorem eval_zero_sub_sum_zeroWeight {s : Finset ι} {v : ι → F} (hv : Set.InjOn v s)
    {f : F[X]} (hdeg : f.natDegree = #s) :
    f.eval 0 - ∑ i ∈ s, zeroWeight s v i * f.eval (v i) =
      f.leadingCoeff * ∏ i ∈ s, -v i := by
  classical
  rcases eq_or_ne f 0 with rfl | hf
  · simp
  set a := f.leadingCoeff with ha
  have ha0 : a ≠ 0 := leadingCoeff_ne_zero.mpr hf
  set g := f - C a * Lagrange.nodal s v with hg
  have hdegn : (C a * Lagrange.nodal s v).degree = f.degree := by
    rw [degree_C_mul ha0, Lagrange.degree_nodal, degree_eq_natDegree hf, hdeg]
  have hlead : (C a * Lagrange.nodal s v).leadingCoeff = f.leadingCoeff := by
    rw [leadingCoeff_mul, leadingCoeff_C, Lagrange.nodal_monic.leadingCoeff, mul_one]
  have hgdeg : g.degree < #s := by
    have hlt : g.degree < f.degree := degree_sub_lt_left hdegn.symm hf hlead.symm
    rwa [degree_eq_natDegree hf, hdeg] at hlt
  have hgat : ∀ i ∈ s, g.eval (v i) = f.eval (v i) := fun i hi => by
    rw [hg, eval_sub, eval_mul, Lagrange.eval_nodal_at_node hi, mul_zero, sub_zero]
  have hsum : ∑ i ∈ s, zeroWeight s v i * f.eval (v i) = g.eval 0 := by
    rw [← sum_zeroWeight_mul_eval hv hgdeg]
    exact sum_congr rfl fun i hi => by rw [hgat i hi]
  rw [hsum, hg, eval_sub, eval_mul, eval_C, Lagrange.eval_nodal, sub_sub_cancel]
  simp

/-! ### Signatures in a vector space over the scalars -/

variable {V : Type*} [AddCommGroup V] [Module F V]

omit [DecidableEq ι] in
/-- **Valid partials add up.** If every partial `z i` satisfies its own verification
equation against the commitment `d i`, the weight of `i` and the public share
`f (v i) • B`, then their sum satisfies the equation of the whole with the weighted sum of
the secret shares in place of the secret. -/
theorem sum_shares_smul (s : Finset ι) (w y z : ι → F) (d : ι → V) (c : F) (B : V)
    (h : ∀ i ∈ s, z i • B = d i + (c * w i) • y i • B) :
    (∑ i ∈ s, z i) • B = ∑ i ∈ s, d i + c • (∑ i ∈ s, w i * y i) • B := by
  rw [sum_smul, sum_congr rfl h, sum_add_distrib, add_right_inj, sum_smul, smul_sum]
  refine sum_congr rfl fun i _ => ?_
  rw [smul_smul, smul_smul, mul_assoc]

end Threshold
