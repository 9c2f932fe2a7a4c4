import Mathlib.Algebra.Field.ZMod
import Mathlib.Algebra.Module.ZMod
import Mathlib.FieldTheory.Finite.Basic
import NoGhost.Frost
import NoGhost.Threshold

/-!
# Scalars of the Signature Scheme

The scalar arithmetic of `frost/frost.ts` is arithmetic in the prime field `ZMod L`, over
which the group of the curve is a vector space. This module has the one lemma that each
scalar function needs to be used from there: what it returns, cast into the field.

## Main results

* `scalarFromHex_scalarToHex`: the scalar codec decodes what it encodes.
* `mulUnsafe_eq`: the multiplication that tolerates zero is the multiplication.
* `cast_invert`: exponentiation by `L - 2` inverts.
* `lagrangeCoefficient_eq`: the loop computes the interpolation weight at zero.
* `lagrange_interpolates`: the coefficients recover the value at zero of every polynomial
  whose degree is below the number of participants.
-/

namespace NoGhost

namespace Curve

variable (C : Curve)

/-- The scalar field, which the prime order of the group makes one. -/
abbrev Scalar := ZMod C.L

instance : Fact C.L.Prime := ⟨C.prime_L⟩

/-- The order is positive. -/
theorem L_pos : 0 < C.L := C.prime_L.pos

/-- The group has exponent `L`, since the base point generates it. -/
theorem order_smul (p : C.Pt) : C.L • p = 0 := by
  obtain ⟨k, rfl⟩ := C.cyclic p
  rw [smul_smul, mul_comm, ← smul_smul, C.smul_base, smul_zero]

instance : Module C.Scalar C.Pt := AddCommGroup.zmodModule C.order_smul

/-- Integer multiples are multiples by the scalar, so the two may be exchanged. -/
theorem intCast_smul (k : ℤ) (p : C.Pt) : (k : C.Scalar) • p = k • p :=
  Int.cast_smul_eq_zsmul C.Scalar k p

/-- The base point separates the scalars, since it is not zero. -/
theorem smul_base_inj {a b : C.Scalar} : a • C.base = b • C.base ↔ a = b :=
  (smul_left_injective C.Scalar C.base_ne_zero).eq_iff

/-- Every point is a scalar multiple of the base point, since the order is prime. -/
theorem exists_smul_base (p : C.Pt) : ∃ a : C.Scalar, p = a • C.base := by
  obtain ⟨k, rfl⟩ := C.cyclic p
  exact ⟨k, (Nat.cast_smul_eq_nsmul C.Scalar k C.base).symm⟩

end Curve

namespace Frost

variable (C : Curve)

/-! ### Reduction -/

/-- `mod` is the Euclidean remainder, for negative numbers too. -/
theorem mod_eq_emod {a m : ℤ} (hm : 0 < m) : mod a m = a % m := by
  have hnonneg : 0 ≤ a.tmod m + m := by
    have := Int.lt_tmod_of_pos a hm
    omega
  rw [mod, Int.tmod_eq_emod_of_nonneg hnonneg, Int.add_emod_right]
  conv_rhs => rw [← Int.tmod_add_mul_tdiv a m, Int.add_mul_emod_self_left]

/-- A residue is not negative. -/
theorem mod_nonneg (a : ℤ) : 0 ≤ mod a C.L := by
  have hL : (0 : ℤ) < C.L := by exact_mod_cast C.L_pos
  rw [mod_eq_emod hL]
  exact Int.emod_nonneg _ hL.ne'

/-- A residue is below the order. -/
theorem mod_lt (a : ℤ) : mod a C.L < C.L := by
  have hL : (0 : ℤ) < C.L := by exact_mod_cast C.L_pos
  rw [mod_eq_emod hL]
  exact Int.emod_lt_of_pos _ hL

/-- A number that is a residue already stays as it is. -/
theorem mod_of_lt {a : ℤ} (h0 : 0 ≤ a) (h : a < C.L) : mod a C.L = a := by
  rw [mod_eq_emod (h0.trans_lt h), Int.emod_eq_of_lt h0 h]

/-- Reduction changes nothing in the field. -/
@[simp] theorem cast_mod (a : ℤ) : ((mod a C.L : ℤ) : C.Scalar) = a := by
  have hL : (0 : ℤ) < C.L := by exact_mod_cast C.L_pos
  rw [mod_eq_emod hL]
  exact ZMod.intCast_mod a C.L

/-- Two residues are equal when they are equal in the field. -/
theorem eq_of_cast {a b : ℤ} (ha : 0 ≤ a ∧ a < C.L) (hb : 0 ≤ b ∧ b < C.L)
    (h : (a : C.Scalar) = b) : a = b := by
  have hmod : a % C.L = b % C.L := (ZMod.intCast_eq_intCast_iff a b C.L).mp h
  rwa [Int.emod_eq_of_lt ha.1 ha.2, Int.emod_eq_of_lt hb.1 hb.2] at hmod

/-- A residue other than zero is not zero in the field. -/
theorem cast_ne_zero {a : ℤ} (h0 : 0 < a) (h : a < C.L) : (a : C.Scalar) ≠ 0 := fun hz =>
  h0.ne' (eq_of_cast C ⟨h0.le, h⟩ ⟨le_rfl, h0.trans h⟩ (by simpa using hz))

/-! ### The scalar codec -/

/-- `bytesToNumberLE` reads what the curve library reads: the number whose least byte comes first.
-/
theorem bytesToNumberLE_eq (b : Bytes) : bytesToNumberLE b = littleEndian b := by
  induction b with
  | nil => rfl
  | cons x r ih =>
      calc bytesToNumberLE (x :: r) = bytesToNumberLE r * 256 + x.toNat := rfl
        _ = littleEndian (x :: r) := by
            rw [ih]
            push_cast [littleEndian, List.foldr_cons]
            rfl

/-- Reading what was written in `n` bytes gives the number up to the room there was. -/
theorem bytesToNumberLE_bytesLE (n : ℕ) (v : ℤ) :
    bytesToNumberLE (bytesLE n v) = v % 256 ^ n := by
  induction n generalizing v with
  | zero => simp [bytesLE, bytesToNumberLE]
  | succ n ih =>
      have hbyte : ((UInt8.ofNat (v % 256).toNat).toNat : ℤ) = v % 256 := by
        have hnonneg : 0 ≤ v % 256 := Int.emod_nonneg v (by norm_num)
        have hlt : v % 256 < 256 := Int.emod_lt_of_pos v (by norm_num)
        rw [UInt8.toNat_ofNat', Nat.mod_eq_of_lt (by omega), Int.toNat_of_nonneg hnonneg]
      have hstep : bytesToNumberLE (bytesLE (n + 1) v) =
          bytesToNumberLE (bytesLE n (v / 256)) * 256 + v % 256 := by
        rw [← hbyte]
        rfl
      have hdiv : v / (256 * 256 ^ n) = v / 256 / 256 ^ n :=
        (Int.ediv_ediv_of_nonneg (by norm_num)).symm
      rw [hstep, ih, pow_succ', Int.emod_def, Int.emod_def v 256, Int.emod_def v (256 * _), hdiv]
      ring

/-- A number is written in as many bytes as are asked for. -/
theorem length_bytesLE (n : ℕ) (v : ℤ) : (bytesLE n v).length = n := by
  induction n generalizing v with
  | zero => rfl
  | succ n ih => rw [bytesLE, List.length_cons, ih]

/-- A scalar is written in 32 bytes. -/
@[simp] theorem length_scalarToBytes (s : ℤ) : (scalarToBytes C s).length = 32 :=
  length_bytesLE 32 _

/-- Decoding what `scalarToBytes` wrote gives the residue, for which 32 bytes have room. -/
theorem bytesToNumberLE_scalarToBytes (s : ℤ) :
    bytesToNumberLE (scalarToBytes C s) = mod s C.L := by
  have hle : (C.L : ℤ) ≤ 256 ^ 32 := by
    have := C.L_le
    norm_num at this ⊢
    exact_mod_cast this
  rw [scalarToBytes, bytesToNumberLE_bytesLE, Int.emod_eq_of_lt (mod_nonneg C s)]
  exact (mod_lt C s).trans_le hle

/-- The scalar codec decodes what it encodes. -/
@[simp] theorem scalarFromHex_scalarToHex (s : ℤ) :
    scalarFromHex C (scalarToHex C s) = .ok (mod s C.L) := by
  simp only [scalarFromHex, scalarToHex, hexToBytes_bytesToHex, bind, Except.bind, pure,
    Except.pure, bytesToNumberLE_scalarToBytes]
  rw [mod_of_lt C (mod_nonneg C s) (mod_lt C s)]

/-- Whatever `scalarFromHex` accepts decodes to a residue, since larger numbers are refused. -/
theorem scalarFromHex_range {hex : String} {z : ℤ} (h : scalarFromHex C hex = .ok z) :
    0 ≤ z ∧ z < C.L := by
  simp only [scalarFromHex, bind, Except.bind] at h
  split at h
  · cases h
  · cases h
    exact ⟨mod_nonneg C _, mod_lt C _⟩

/-! ### Multiplication of points -/

/-- Multiplication by a nonzero residue is that of the scalar field. -/
theorem multiply_eq (p : C.Pt) {k : ℤ} (h0 : 0 < k) (h : k < C.L) :
    C.multiply p k = .ok ((k : C.Scalar) • p) :=
  (C.multiply_eq_ok p _ k).mpr ⟨⟨h0, h⟩, C.intCast_smul k p⟩

/-- Multiplication succeeds on the nonzero residues only, as the library's check has it. -/
theorem multiply_ok {p q : C.Pt} {k : ℤ} (h : C.multiply p k = .ok q) :
    0 < k ∧ k < C.L ∧ q = (k : C.Scalar) • p := by
  obtain ⟨⟨h0, hL⟩, rfl⟩ := (C.multiply_eq_ok p q k).mp h
  exact ⟨h0, hL, (C.intCast_smul k p).symm⟩

/-- The multiplication that tolerates zero is the multiplication by the scalar. -/
theorem mulUnsafe_eq (p : C.Pt) (s : ℤ) : mulUnsafe C p s = (s : C.Scalar) • p := by
  rw [mulUnsafe]
  split
  next h => rw [← cast_mod C s, h, Int.cast_zero, zero_smul]
  next => rw [← C.intCast_smul, cast_mod]

/-- A point is read back from its own text. -/
@[simp] theorem pointFromHex_pointToHex (p : C.Pt) : pointFromHex C (pointToHex C p) = .ok p := by
  simp [pointFromHex, pointToHex, C.fromRawBytes_toRawBytes, bind, Except.bind, pure, Except.pure]

/-- What decodes as a point decodes as bytes, which the library takes for that point. -/
theorem hexToBytes_of_pointFromHex {hex : String} {p : C.Pt} (h : pointFromHex C hex = .ok p) :
    ∃ b, hexToBytes hex = .ok b ∧ C.fromRawBytes b = some p := by
  rw [pointFromHex] at h
  cases hb : hexToBytes hex with
  | error e => simp [hb, bind, Except.bind] at h
  | ok b =>
      refine ⟨b, rfl, ?_⟩
      cases hp : C.fromRawBytes b with
      | none => simp [hb, hp, bind, Except.bind, throw, throwThe, MonadExceptOf.throw] at h
      | some q =>
          simp only [hb, hp, bind, Except.bind, pure, Except.pure, Except.ok.injEq] at h
          rw [h]

/-! ### Inversion -/

/-- `%` of the loop, in the field: the sign that it leaves on a number makes no difference there. -/
theorem cast_tmod (a : ℤ) : ((a.tmod C.L : ℤ) : C.Scalar) = a := by
  have h := Int.tmod_add_mul_tdiv a C.L
  calc ((a.tmod C.L : ℤ) : C.Scalar)
      = ((a.tmod C.L + C.L * a.tdiv C.L : ℤ) : C.Scalar) := by push_cast; simp
    _ = a := by rw [h]

/-- Square and multiply: the accumulator picks up `b ^ e`. Induction on the fuel, which the
exponent stays below. -/
theorem cast_modPowLoop {fuel : ℕ} {r b : ℤ} {e : ℕ} (h : e ≤ fuel) :
    ((modPowLoop fuel r b e C.L : ℤ) : C.Scalar) = r * (b : C.Scalar) ^ e := by
  induction fuel generalizing r b e with
  | zero =>
      obtain rfl : e = 0 := by omega
      rw [modPowLoop, pow_zero, mul_one]
  | succ fuel ih =>
      rw [modPowLoop]
      split
      next he => rw [he, pow_zero, mul_one]
      next he =>
        have hpow : (b : C.Scalar) ^ e =
            (b : C.Scalar) ^ (e % 2) * ((b : C.Scalar) ^ 2) ^ (e / 2) := by
          rw [← pow_mul, ← pow_add, Nat.mod_add_div]
        rw [ih (by omega), cast_tmod, hpow, Int.cast_mul, ← pow_two, ← mul_assoc]
        congr 1
        split
        next hodd => rw [hodd, pow_one, cast_tmod, Int.cast_mul]
        next hodd =>
          have heven : e % 2 = 0 := by omega
          rw [heven, pow_zero, mul_one]

/-- Inversion, by the little theorem of Fermat: the loop raises to the order less two. -/
theorem cast_invert {a : ℤ} (h : (a : C.Scalar) ≠ 0) :
    ((invert C a : ℤ) : C.Scalar) = (a : C.Scalar)⁻¹ := by
  have h2 := C.prime_L.two_le
  rw [invert, modPow, cast_modPowLoop C le_rfl, Int.cast_one, one_mul, cast_mod]
  refine eq_inv_of_mul_eq_one_left ?_
  rw [← pow_succ, show C.L - 2 + 1 = C.L - 1 by omega]
  exact ZMod.pow_card_sub_one_eq_one h

/-! ### Lagrange coefficients -/

/-- The loop of `lagrangeCoefficient` accumulates the two products over the other
participants. -/
theorem lagrange_foldl (i : ℤ) (ids : List ℤ) (st : ℤ × ℤ) :
    let out := ids.foldl (fun st j => if j = i then st
      else (mod (st.1 * j) C.L, mod (st.2 * (j - i)) C.L)) st
    ((out.1 : C.Scalar) = st.1 * ((ids.filter (· ≠ i)).map fun j : ℤ => (j : C.Scalar)).prod) ∧
    ((out.2 : C.Scalar) =
      st.2 * ((ids.filter (· ≠ i)).map fun j : ℤ => (j : C.Scalar) - i).prod) := by
  induction ids generalizing st with
  | nil => simp
  | cons j ids ih =>
      rw [List.foldl_cons]
      split
      next h => simpa [h] using ih st
      next h =>
        obtain ⟨hnum, hden⟩ := ih (mod (st.1 * j) C.L, mod (st.2 * (j - i)) C.L)
        refine ⟨hnum.trans ?_, hden.trans ?_⟩ <;>
          simp [h, mul_assoc]

/-- The products over a list without repetitions are products over a set. -/
theorem prod_filter_ne {M : Type*} [CommMonoid M] {ids : List ℤ} (hnd : ids.Nodup) (i : ℤ)
    (f : ℤ → M) : ((ids.filter (· ≠ i)).map f).prod = ∏ j ∈ ids.toFinset.erase i, f j := by
  rw [← List.prod_toFinset f (hnd.filter _)]
  refine Finset.prod_congr (Finset.ext fun j => ?_) fun _ _ => rfl
  simp [and_comm]

/-- **Lagrange coefficients.** Among participants that are distinct as scalars the loop
computes the interpolation weight at zero, whatever the order of the list. -/
theorem lagrangeCoefficient_eq {ids : List ℤ} (hnd : ids.Nodup)
    (hinj : Set.InjOn (Int.cast : ℤ → C.Scalar) {j | j ∈ ids}) {i : ℤ} (hi : i ∈ ids) :
    ∃ l, lagrangeCoefficient C i ids = .ok l ∧
      (l : C.Scalar) = Threshold.zeroWeight ids.toFinset (Int.cast : ℤ → C.Scalar) i := by
  have hfold := lagrange_foldl C i ids (1, 1)
  rw [lagrangeCoefficient]
  generalize ids.foldl _ ((1 : ℤ), (1 : ℤ)) = out at hfold
  obtain ⟨num, den⟩ := out
  obtain ⟨hnum, hden⟩ := hfold
  simp only [Int.cast_one, one_mul, prod_filter_ne hnd] at hnum hden
  have hden0 : (den : C.Scalar) ≠ 0 := by
    rw [hden, Finset.prod_ne_zero_iff]
    intro j hj heq
    obtain ⟨hne, hmem⟩ := Finset.mem_erase.mp hj
    exact hne (hinj (List.mem_toFinset.mp hmem) hi (sub_eq_zero.mp heq))
  have hne : den ≠ 0 := fun h => hden0 (by rw [h, Int.cast_zero])
  refine ⟨_, if_neg hne, ?_⟩
  rw [cast_mod, Int.cast_mul, cast_invert C hden0, hnum, hden, Threshold.zeroWeight,
    Finset.prod_div_distrib, div_eq_mul_inv]

/-- What `invert` returns is an inverse modulo the order. -/
theorem mod_mul_invert {a : ℤ} (h : mod a C.L ≠ 0) : mod (a * invert C a) C.L = 1 := by
  have h0 : (a : C.Scalar) ≠ 0 := by
    have hpos : 0 < mod a C.L := (mod_nonneg C a).lt_of_ne' h
    rw [← cast_mod C a]
    exact cast_ne_zero C hpos (mod_lt C a)
  refine eq_of_cast C ⟨mod_nonneg C _, mod_lt C _⟩ ⟨zero_le_one, ?_⟩ ?_
  · exact_mod_cast C.prime_L.one_lt
  · rw [cast_mod, Int.cast_mul, cast_invert C h0, mul_inv_cancel₀ h0, Int.cast_one]

/-- Identifiers that are pairwise distinct modulo the order are distinct scalars. -/
theorem injOn_of_pairwise {ids : List ℤ} (hne : ids.Pairwise fun i j => mod i C.L ≠ mod j C.L) :
    Set.InjOn (Int.cast : ℤ → C.Scalar) {j | j ∈ ids} := by
  intro i hi j hj hij
  by_contra h
  have : Std.Symm fun i j : ℤ => mod i C.L ≠ mod j C.L := ⟨fun _ _ hab hba => hab hba.symm⟩
  refine hne.forall hi hj h ?_
  refine eq_of_cast C ⟨mod_nonneg C i, mod_lt C i⟩ ⟨mod_nonneg C j, mod_lt C j⟩ ?_
  rw [cast_mod, cast_mod, hij]

/-- **Interpolation.** `invert` is an inverse of every nonzero residue. For identifiers that
are pairwise distinct modulo the order, `lagrangeCoefficient` returns a coefficient for each
of them, and the coefficients weigh the values of any polynomial of degree below their number
to its value at zero. That no identifier is zero is not needed. -/
theorem lagrange_interpolates :
    (∀ a : ℤ, mod a C.L ≠ 0 → mod (a * invert C a) C.L = 1) ∧
    ∀ ids : List ℤ, (ids.Pairwise fun i j => mod i C.L ≠ mod j C.L) →
      ∀ f : Polynomial C.Scalar, f.degree < ids.length →
        ∃ lambda : ℤ → ℤ, (∀ i ∈ ids, lagrangeCoefficient C i ids = .ok (lambda i)) ∧
          (ids.map fun i => (lambda i : C.Scalar) * f.eval (i : C.Scalar)).sum = f.eval 0 := by
  refine ⟨fun a h => mod_mul_invert C h, fun ids hne f hdeg => ?_⟩
  have hnd : ids.Nodup := hne.imp fun hab heq => hab (congrArg (mod · C.L) heq)
  have hinj := injOn_of_pairwise C hne
  choose! lambda hret hcast using fun i (hi : i ∈ ids) => lagrangeCoefficient_eq C hnd hinj hi
  refine ⟨lambda, hret, ?_⟩
  have hcard : f.degree < ids.toFinset.card := by
    rwa [List.toFinset_card_of_nodup hnd]
  have hinj' : Set.InjOn (Int.cast : ℤ → C.Scalar) ids.toFinset := by
    simpa only [List.coe_toFinset] using hinj
  calc (ids.map fun i => (lambda i : C.Scalar) * f.eval (i : C.Scalar)).sum
      = ∑ i ∈ ids.toFinset, (lambda i : C.Scalar) * f.eval (i : C.Scalar) :=
        (List.sum_toFinset _ hnd).symm
    _ = ∑ i ∈ ids.toFinset, Threshold.zeroWeight ids.toFinset (Int.cast : ℤ → C.Scalar) i *
          f.eval (i : C.Scalar) :=
        Finset.sum_congr rfl fun i hi => by rw [hcast i (List.mem_toFinset.mp hi)]
    _ = f.eval 0 := Threshold.sum_zeroWeight_mul_eval hinj' hcard

/-- Three participants, in no order and one of them beyond the order, recover a secret shared
by a polynomial of degree two. -/
theorem lagrange_interpolates_small :
    mod (3 * invert Small.curve 3) Small.curve.L = 1 ∧
    ∃ lambda : ℤ → ℤ,
      (∀ i ∈ [5, 9, (1 : ℤ)],
        lagrangeCoefficient Small.curve i [5, 9, 1] = .ok (lambda i)) ∧
      ([5, 9, (1 : ℤ)].map fun i => (lambda i : Small.curve.Scalar) *
        (Polynomial.X ^ 2 + Polynomial.C 4 : Polynomial Small.curve.Scalar).eval
          (i : Small.curve.Scalar)).sum =
        (Polynomial.X ^ 2 + Polynomial.C 4 : Polynomial Small.curve.Scalar).eval 0 := by
  refine ⟨(lagrange_interpolates Small.curve).1 3 (by decide), ?_⟩
  refine (lagrange_interpolates Small.curve).2 [5, 9, 1] (by decide) _ ?_
  refine (Polynomial.degree_X_pow_add_C (by norm_num) _).trans_lt ?_
  norm_num

end Frost

end NoGhost
