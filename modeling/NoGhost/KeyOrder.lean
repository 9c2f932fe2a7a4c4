import Mathlib.Data.List.Perm.Basic
import NoGhost.Canonical

/-!
# What Canonical Text Keeps

Canonical text is meant to forget the order of keys and nothing else. Two names break this.
A property `__proto__` is lost, and an object with a property `constructor` of its own keeps
the order it came in, with everything below it. This module says which values `canonicalJson`
identifies, and when that is what it is meant to do.

## Main results

* `canonicalJson_eq_iff`: equal canonical text, as a relation between the values.
* `canonicalJson_exact`: the pairs of values on which canonical text identifies exactly the
  values that are equal up to the order of keys.
* `canonicalJson_ordinary`: these are all pairs, when neither name occurs.
-/

open Js

namespace NoGhost

/-- The object has a property `constructor` of its own, by which it fails the test for a plain
object. -/
def hasConstructor (fields : List (String × Json)) : Bool := (fields.lookup "constructor").isSome

/-! ### Relations between values -/

mutual

/-- The values are equal up to the order of keys at every level. With `frozen`, an object that
has a property `constructor` of its own must be the same, order and all. -/
def SameUpTo (frozen : Bool) : Json → Json → Prop
  | .arr xs, .arr ys => SameElems frozen xs ys
  | .obj fs, .obj gs =>
      if frozen && hasConstructor fs then fs = gs
      else ∃ gs', gs'.Perm gs ∧ SameFields frozen fs gs'
  | v, w => v = w

/-- `SameUpTo` of all elements, which are compared place by place. -/
def SameElems (frozen : Bool) : List Json → List Json → Prop
  | [], [] => True
  | x :: xs, y :: ys => SameUpTo frozen x y ∧ SameElems frozen xs ys
  | _, _ => False

/-- The same names in the same order, with `SameUpTo` of all values. -/
def SameFields (frozen : Bool) : List (String × Json) → List (String × Json) → Prop
  | [], [] => True
  | (k, v) :: fs, (l, w) :: gs => k = l ∧ SameUpTo frozen v w ∧ SameFields frozen fs gs
  | _, _ => False

end

/-- Equal up to the order of keys at every level, whatever the objects have for names. -/
abbrev SameUpToOrder : Json → Json → Prop := SameUpTo false

/-- Equal up to the order of keys in the objects that have no property `constructor`, and in
no other object either. -/
abbrev SameUpToPlainOrder : Json → Json → Prop := SameUpTo true

mutual

/-- The value without the properties `__proto__` of its plain objects. -/
def dropProto : Json → Json
  | .arr xs => .arr (dropElems xs)
  | .obj fs => if hasConstructor fs then .obj fs else .obj (dropFields fs)
  | v => v

/-- `dropProto` on every element of an array. -/
def dropElems : List Json → List Json
  | [] => []
  | x :: xs => dropProto x :: dropElems xs

/-- `dropProto` on the values of the fields that stay, which are those not named `__proto__`. -/
def dropFields : List (String × Json) → List (String × Json)
  | [] => []
  | (k, v) :: fs => if k = "__proto__" then dropFields fs else (k, dropProto v) :: dropFields fs

end

/-! ### Sorting in two steps -/

mutual

/-- The part of `sortValue` that reorders: the fields of a plain object by their names, at every
level. -/
def reorder : Json → Json
  | .arr xs => .arr (reorderElems xs)
  | .obj fs =>
      if hasConstructor fs then .obj fs else .obj (ownOrder (sortFields (reorderValues fs)))
  | v => v

/-- `reorder` on every element of an array. -/
def reorderElems : List Json → List Json
  | [] => []
  | x :: xs => reorder x :: reorderElems xs

/-- `reorder` on every value of an object, whose fields stay in their order. -/
def reorderValues : List (String × Json) → List (String × Json)
  | [] => []
  | (k, v) :: fs => (k, reorder v) :: reorderValues fs

end

/-- The recursion over the fields as a map, for the lemmas about lists. -/
theorem reorderValues_eq_map (fs : List (String × Json)) :
    reorderValues fs = fs.map fun f => (f.1, reorder f.2) := by
  induction fs with
  | nil => rfl
  | cons f fs ih => rw [reorderValues, List.map_cons, ih]

/-- What is left of the fields is a filtered and mapped list. -/
theorem dropFields_eq_map (fs : List (String × Json)) : dropFields fs =
    (fs.filter fun f => f.1 ≠ "__proto__").map fun f => (f.1, dropProto f.2) := by
  induction fs with
  | nil => rfl
  | cons f fs ih =>
      rw [dropFields, ih]
      split
      next h => rw [List.filter_cons_of_neg (by simpa using h)]
      next h => rw [List.filter_cons_of_pos (by simpa using h), List.map_cons]

/-- Dropping `__proto__` takes no property `constructor` away and makes none. -/
theorem hasConstructor_dropFields (fs : List (String × Json)) :
    hasConstructor (dropFields fs) = hasConstructor fs := by
  rw [hasConstructor, dropFields_eq_map, lookup_map_snd, lookup_filter_ne (by decide),
    Option.isSome_map]
  rfl

mutual

/-- `sortValue` drops, then reorders, which separates the two things that the canonical form
forgets. -/
theorem sortValue_eq_reorder : ∀ v : Json, sortValue v = reorder (dropProto v)
  | .null => rfl
  | .bool _ => rfl
  | .num _ => rfl
  | .str _ => rfl
  | .arr xs => by rw [sortValue, sortElems_eq_reorder xs, dropProto, reorder]
  | .obj fs => by
      rw [sortValue, dropProto]
      change (if hasConstructor fs then _ else _) = _
      split
      next h => rw [reorder, if_pos h]
      next h =>
          rw [reorder, hasConstructor_dropFields, if_neg h, sortedValues_eq_reorder fs]

/-- Sorting the elements of an array drops in each of them, then reorders. -/
theorem sortElems_eq_reorder : ∀ xs : List Json, sortElems xs = reorderElems (dropElems xs)
  | [] => rfl
  | x :: xs => by
      rw [sortElems, dropElems, reorderElems, sortValue_eq_reorder x, sortElems_eq_reorder xs]

/-- Sorting the values of an object drops in those that stay, then reorders. -/
theorem sortedValues_eq_reorder : ∀ fs : List (String × Json),
    sortedValues fs = reorderValues (dropFields fs)
  | [] => rfl
  | (k, v) :: fs => by
      rw [sortedValues, dropFields]
      split
      next => exact sortedValues_eq_reorder fs
      next => rw [reorderValues, sortValue_eq_reorder v, sortedValues_eq_reorder fs]

end

/-! ### What reordering identifies -/

/-- Fields that are the same up to order inside their values have the same names in the same places.
-/
theorem keys_of_sameFields {frozen : Bool} : ∀ {fs gs : List (String × Json)},
    SameFields frozen fs gs → fs.map Prod.fst = gs.map Prod.fst
  | [], [], _ => rfl
  | (k, v) :: fs, (l, w) :: gs, h => by
      rw [List.map_cons, List.map_cons, keys_of_sameFields h.2.2]
      exact congrArg (· :: _) h.1

/-- Whether an object has a property depends on its names alone, not on their order. -/
theorem hasConstructor_perm {fs gs : List (String × Json)}
    (h : (fs.map Prod.fst).Perm (gs.map Prod.fst)) : hasConstructor fs = hasConstructor gs := by
  have hiff : ∀ l : List (String × Json),
      hasConstructor l = true ↔ "constructor" ∈ l.map Prod.fst := by
    intro l
    rw [hasConstructor, List.lookup_isSome_iff, List.mem_map]
    exact exists_congr fun f => and_congr_right fun _ => by rw [beq_iff_eq, eq_comm]
  rw [Bool.eq_iff_iff, hiff, hiff]
  exact h.mem_iff

/-- Reordering inside the values keeps the names and their order. -/
theorem keys_reorderValues (fs : List (String × Json)) :
    (reorderValues fs).map Prod.fst = fs.map Prod.fst := by
  rw [reorderValues_eq_map, List.map_map]
  rfl

/-- The order in which sorted fields are kept forgets the order they came in, and only that. -/
theorem ownOrder_sortFields_eq_iff {fs gs : List (String × Json)}
    (hfs : (fs.map Prod.fst).Nodup) :
    ownOrder (sortFields fs) = ownOrder (sortFields gs) ↔ fs.Perm gs := by
  have hperm : ∀ l : List (String × Json), (ownOrder (sortFields l)).Perm l := fun l =>
    (perm_ownOrder _).trans (perm_sortFields l)
  constructor
  · intro h
    exact (hperm fs).symm.trans (h ▸ hperm gs)
  · intro h
    rw [sortFields_perm h hfs]

/-- A permutation of mapped fields is a map of permuted fields, which takes the reordering inside
the values out of the comparison. -/
theorem perm_map_iff {α β : Type} {f : α → β} {l : List β} {l' : List α} :
    l.Perm (l'.map f) ↔ ∃ m : List α, m.Perm l' ∧ l = m.map f := by
  constructor
  · intro h
    have hcomp : Relation.Comp (· = List.map f ·) List.Perm l l' := by
      rwa [List.eq_map_comp_perm]
    obtain ⟨m, hm, hperm⟩ := hcomp
    exact ⟨m, hperm, hm⟩
  · rintro ⟨m, hm, rfl⟩
    exact hm.map f

/-- What is not an object or array is the same as another value where both are equal. -/
theorem reorderPrimitive_eq_iff {v w : Json} (hv : v.isObject = false) :
    reorder v = reorder w ↔ SameUpToPlainOrder v w := by
  have hrefl : reorder v = v := by cases v <;> first | rfl | cases hv
  have hsame : SameUpToPlainOrder v w ↔ v = w := by
    cases v with
    | arr xs => cases hv
    | obj fs => cases hv
    | _ => cases w <;> simp [SameUpToPlainOrder, SameUpTo]
  rw [hrefl, hsame]
  cases w with
  | arr ys => exact iff_of_false (by rintro rfl; cases hv) (by rintro rfl; cases hv)
  | obj gs =>
      refine iff_of_false (fun h => ?_) (by rintro rfl; cases hv)
      rw [reorder] at h
      split at h <;> (rw [h] at hv; cases hv)
  | _ => exact Iff.rfl

/-- Two objects are reordered alike when they agree, given that their fields are. -/
theorem reorderObj_eq_iff {fs gs : List (String × Json)} (hfs : (fs.map Prod.fst).Nodup)
    (ih : ∀ gs' : List (String × Json), gs'.Perm gs →
      (reorderValues fs = reorderValues gs' ↔ SameFields true fs gs')) :
    reorder (.obj fs) = reorder (.obj gs) ↔ SameUpToPlainOrder (.obj fs) (.obj gs) := by
  have hperm : ∀ l : List (String × Json),
      ((ownOrder (sortFields (reorderValues l))).map Prod.fst).Perm (l.map Prod.fst) := by
    intro l
    rw [← keys_reorderValues l]
    exact ((perm_ownOrder _).trans (perm_sortFields _)).map _
  rw [reorder, reorder, SameUpToPlainOrder, SameUpTo, Bool.true_and]
  cases hf : hasConstructor fs <;> cases hg : hasConstructor gs
  · simp only [Bool.false_eq_true, if_false, Json.obj.injEq]
    rw [ownOrder_sortFields_eq_iff (keys_reorderValues fs ▸ hfs), reorderValues_eq_map gs,
      perm_map_iff]
    refine exists_congr fun gs' => and_congr_right fun hgs' => ?_
    rw [← reorderValues_eq_map]
    exact ih gs' hgs'
  · simp only [Bool.false_eq_true, if_false, if_true, Json.obj.injEq]
    refine iff_of_false (fun h => ?_) fun ⟨gs', hgs', hsame⟩ => ?_
    · have := hasConstructor_perm (h ▸ hperm fs)
      rw [hf, hg] at this
      cases this
    · have := hasConstructor_perm (keys_of_sameFields hsame ▸ hgs'.map Prod.fst)
      rw [hf, hg] at this
      cases this
  · simp only [Bool.false_eq_true, if_false, if_true, Json.obj.injEq]
    refine iff_of_false (fun h => ?_) fun h => ?_
    · have := hasConstructor_perm (h ▸ hperm gs)
      rw [hf, hg] at this
      cases this
    · rw [h, hg] at hf
      cases hf
  · simp only [if_true, Json.obj.injEq]

mutual

/-- Values are reordered alike when they agree up to the order of plain objects. -/
theorem reorder_eq_iff : ∀ v w : Json, v.Distinct → w.Distinct →
    (reorder v = reorder w ↔ SameUpToPlainOrder v w)
  | .null, _, _, _ | .bool _, _, _, _ | .num _, _, _, _ | .str _, _, _, _ =>
      reorderPrimitive_eq_iff rfl
  | .arr xs, w, hv, hw => by
      cases w with
      | arr ys =>
          rw [reorder, reorder, SameUpToPlainOrder, SameUpTo, Json.arr.injEq]
          exact reorderElems_eq_iff xs ys hv hw
      | obj gs => simp only [reorder, SameUpTo]; split <;> simp
      | _ => simp [reorder, SameUpTo]
  | .obj fs, w, hv, hw => by
      cases w with
      | obj gs =>
          exact reorderObj_eq_iff hv.1 fun gs' hgs' =>
            reorderValues_eq_iff fs gs' hv.2 (distinctValues_iff.mpr fun f hf =>
              distinctValues_iff.mp hw.2 f (hgs'.mem_iff.mp hf))
      | _ => simp only [reorder, SameUpTo]; split <;> simp

/-- Two arrays are reordered to the same one where their elements are the same up to order, place by
place. -/
theorem reorderElems_eq_iff : ∀ xs ys : List Json, DistinctElems xs → DistinctElems ys →
    (reorderElems xs = reorderElems ys ↔ SameElems true xs ys)
  | [], [], _, _ => by simp [SameElems]
  | [], _ :: _, _, _ => by simp [reorderElems, SameElems]
  | _ :: _, [], _, _ => by simp [reorderElems, SameElems]
  | x :: xs, y :: ys, hx, hy => by
      rw [reorderElems, reorderElems, SameElems, List.cons.injEq, reorder_eq_iff x y hx.1 hy.1,
        reorderElems_eq_iff xs ys hx.2 hy.2]

/-- Two lists of fields are reordered to the same one where the names agree and the values are the
same up to order. -/
theorem reorderValues_eq_iff : ∀ fs gs : List (String × Json), DistinctValues fs →
    DistinctValues gs → (reorderValues fs = reorderValues gs ↔ SameFields true fs gs)
  | [], [], _, _ => by simp [SameFields]
  | [], _ :: _, _, _ => by simp [reorderValues, SameFields]
  | _ :: _, [], _, _ => by simp [reorderValues, SameFields]
  | (k, v) :: fs, (l, w) :: gs, hf, hg => by
      rw [reorderValues, reorderValues, SameFields, List.cons.injEq, Prod.mk.injEq,
        reorder_eq_iff v w hf.1 hg.1, reorderValues_eq_iff fs gs hf.2 hg.2, and_assoc]

end

/-! ### What canonical text identifies -/

mutual

/-- Sorting a value changes no number, so it keeps what its text can say. -/
theorem finite_sortValue : ∀ v : Json, Json.Finite v → Json.Finite (sortValue v)
  | .null, h | .bool _, h | .num _, h | .str _, h => h
  | .arr xs, h => by
      rw [sortValue, finite_arr]
      exact wireElems_sortElems xs (finite_arr.mp h)
  | .obj fs, h => by
      rw [sortValue]
      split
      next => exact h
      next =>
        rw [finite_obj]
        intro f hf
        exact finite_sortedValues fs (finite_obj.mp h) f
          (((perm_ownOrder _).trans (perm_sortFields _)).mem_iff.mp hf)

/-- Sorting the elements of an array keeps what their text can say. -/
theorem wireElems_sortElems : ∀ xs : List Json, wireElems xs = xs →
    wireElems (sortElems xs) = sortElems xs
  | [], _ => rfl
  | x :: xs, h => by
      rw [wireElems, List.cons.injEq] at h
      rw [sortElems, wireElems, finite_sortValue x h.1, wireElems_sortElems xs h.2]

/-- Sorting the values of an object keeps what their text can say. -/
theorem finite_sortedValues : ∀ fs : List (String × Json), (∀ f ∈ fs, Json.Finite f.2) →
    ∀ f ∈ sortedValues fs, Json.Finite f.2
  | [], _ => by simp [sortedValues]
  | (k, v) :: fs, h => by
      have hfs := finite_sortedValues fs fun f hf => h f (List.mem_cons_of_mem _ hf)
      rw [sortedValues]
      split
      next => exact hfs
      next => exact List.forall_mem_cons.mpr ⟨finite_sortValue v (h (k, v) List.mem_cons_self), hfs⟩

end

mutual

/-- Dropping fields leaves the names of every object distinct. -/
theorem dropProto_distinct : ∀ v : Json, v.Distinct → (dropProto v).Distinct
  | .null, h | .bool _, h | .num _, h | .str _, h => h
  | .arr xs, h => dropElems_distinct xs h
  | .obj fs, h => by
      rw [dropProto]
      split
      next => exact h
      next =>
        refine ⟨?_, dropFields_distinct fs h.2⟩
        rw [dropFields_eq_map, List.map_map]
        exact (List.filter_sublist.map _).nodup h.1

/-- The elements of an array keep distinct names where fields are dropped inside. -/
theorem dropElems_distinct : ∀ xs : List Json, DistinctElems xs → DistinctElems (dropElems xs)
  | [], h => h
  | x :: xs, h => ⟨dropProto_distinct x h.1, dropElems_distinct xs h.2⟩

/-- The values of an object keep distinct names where fields are dropped inside. -/
theorem dropFields_distinct : ∀ fs : List (String × Json), DistinctValues fs →
    DistinctValues (dropFields fs)
  | [], h => h
  | (k, v) :: fs, h => by
      rw [dropFields]
      split
      next => exact dropFields_distinct fs h.2
      next => exact ⟨dropProto_distinct v h.1, dropFields_distinct fs h.2⟩

end

/-! ### Ordinary values -/

mutual

/-- No object inside has a property `__proto__` or `constructor`, which is what the program's own
records are like. -/
def Ordinary : Json → Prop
  | .arr xs => OrdinaryElems xs
  | .obj fs => OrdinaryFields fs
  | _ => True

/-- `Ordinary` of every element of an array. -/
def OrdinaryElems : List Json → Prop
  | [] => True
  | x :: xs => Ordinary x ∧ OrdinaryElems xs

/-- Ordinary names, and `Ordinary` of every value of an object. -/
def OrdinaryFields : List (String × Json) → Prop
  | [] => True
  | (k, v) :: fs => k ≠ "__proto__" ∧ k ≠ "constructor" ∧ Ordinary v ∧ OrdinaryFields fs

end

/-- An ordinary object is a plain one. -/
theorem OrdinaryFields.hasConstructor {fs : List (String × Json)} (h : OrdinaryFields fs) :
    hasConstructor fs = false := by
  induction fs with
  | nil => rfl
  | cons f fs ih =>
      rw [NoGhost.hasConstructor, lookup_cons_of_ne h.2.1.symm]
      exact ih h.2.2.2

mutual

/-- An ordinary value has nothing to drop, at any level. -/
theorem dropProto_ordinary : ∀ v : Json, Ordinary v → dropProto v = v
  | .null, _ | .bool _, _ | .num _, _ | .str _, _ => rfl
  | .arr xs, h => congrArg Json.arr (dropElems_ordinary xs h)
  | .obj fs, h => by
      rw [dropProto, if_neg (by rw [h.hasConstructor]; decide), dropFields_ordinary fs h]

/-- Ordinary elements of an array have nothing to drop. -/
theorem dropElems_ordinary : ∀ xs : List Json, OrdinaryElems xs → dropElems xs = xs
  | [], _ => rfl
  | x :: xs, h => by rw [dropElems, dropProto_ordinary x h.1, dropElems_ordinary xs h.2]

/-- Ordinary fields of an object have nothing to drop. -/
theorem dropFields_ordinary : ∀ fs : List (String × Json), OrdinaryFields fs →
    dropFields fs = fs
  | [], _ => rfl
  | (k, v) :: fs, h => by
      rw [dropFields, if_neg h.1, dropProto_ordinary v h.2.2.1, dropFields_ordinary fs h.2.2.2]

end

mutual

/-- In an ordinary value every object is plain, so the two comparisons are one. -/
theorem sameUpTo_ordinary : ∀ v w : Json, Ordinary v → (SameUpTo true v w ↔ SameUpTo false v w)
  | .arr xs, .arr ys, h => by rw [SameUpTo, SameUpTo]; exact sameElems_ordinary xs ys h
  | .obj fs, .obj gs, h => by
      rw [SameUpTo, SameUpTo, h.hasConstructor]
      exact exists_congr fun gs' => and_congr_right fun _ => sameFields_ordinary fs gs' h
  | .null, _, _ | .bool _, _, _ | .num _, _, _ | .str _, _, _ => by simp only [SameUpTo]
  | .arr _, .null, _ | .arr _, .bool _, _ | .arr _, .num _, _ | .arr _, .str _, _
  | .arr _, .obj _, _ | .obj _, .null, _ | .obj _, .bool _, _ | .obj _, .num _, _
  | .obj _, .str _, _ | .obj _, .arr _, _ => by simp only [SameUpTo]

/-- In ordinary elements every object is plain. -/
theorem sameElems_ordinary : ∀ xs ys : List Json, OrdinaryElems xs →
    (SameElems true xs ys ↔ SameElems false xs ys)
  | [], [], _ | [], _ :: _, _ | _ :: _, [], _ => by simp only [SameElems]
  | x :: xs, y :: ys, h => by
      rw [SameElems, SameElems, sameUpTo_ordinary x y h.1, sameElems_ordinary xs ys h.2]

/-- In ordinary values every object is plain. -/
theorem sameFields_ordinary : ∀ fs gs : List (String × Json), OrdinaryFields fs →
    (SameFields true fs gs ↔ SameFields false fs gs)
  | [], [], _ | [], _ :: _, _ | _ :: _, [], _ => by simp only [SameFields]
  | (k, v) :: fs, (l, w) :: gs, h => by
      rw [SameFields, SameFields, sameUpTo_ordinary v w h.2.2.1,
        sameFields_ordinary fs gs h.2.2.2]

end

variable (P : Platform) {v w : Json}

/-- Equal canonical text: the values agree once their properties `__proto__` are dropped,
up to the order of keys in objects without a property `constructor`. -/
theorem canonicalJson_eq_iff (hv : v.Distinct) (hw : w.Distinct) (hv' : v.Finite)
    (hw' : w.Finite) :
    canonicalJson P v = canonicalJson P w ↔ SameUpToPlainOrder (dropProto v) (dropProto w) := by
  rw [← reorder_eq_iff _ _ (dropProto_distinct v hv) (dropProto_distinct w hw),
    ← sortValue_eq_reorder, ← sortValue_eq_reorder]
  constructor
  · intro h
    have hwire := stringify_inj h
    rwa [finite_sortValue v hv', finite_sortValue w hw'] at hwire
  · intro h
    rw [canonicalJson, canonicalJson, h]

/-- **Exactness.** Canonical text identifies the two values exactly if they are equal up to the
order of keys, if and only if the two special names make no difference: values that are equal
up to the order of keys keep one order in their objects with a property `constructor`, and
values that differ do so in more than that order and their properties `__proto__`. -/
theorem canonicalJson_exact (hv : v.Distinct) (hw : w.Distinct) (hv' : v.Finite)
    (hw' : w.Finite) :
    (canonicalJson P v = canonicalJson P w ↔ SameUpToOrder v w) ↔
      (SameUpToOrder v w → SameUpToPlainOrder (dropProto v) (dropProto w)) ∧
      (¬ SameUpToOrder v w → ¬ SameUpToPlainOrder (dropProto v) (dropProto w)) := by
  rw [canonicalJson_eq_iff P hv hw hv' hw', not_imp_not]
  exact ⟨fun h => ⟨h.mpr, h.mp⟩, fun h => ⟨h.2, h.1⟩⟩

/-- The text of `{"a":null,"b":null}` in either order of its keys. -/
theorem canonicalJson_exact_small :
    canonicalJson Small.platform (.obj [("a", .null), ("b", .null)]) =
      canonicalJson Small.platform (.obj [("b", .null), ("a", .null)]) := by
  have hsame : ∀ frozen, SameUpTo frozen (.obj [("a", .null), ("b", .null)])
      (.obj [("b", .null), ("a", .null)]) := by
    intro frozen
    rw [SameUpTo, if_neg (by cases frozen <;> decide)]
    exact ⟨[("a", .null), ("b", .null)], .swap _ _ _, rfl, rfl, rfl, rfl, trivial⟩
  have hdistinct : ∀ k l : String, k ≠ l → Json.Distinct (.obj [(k, .null), (l, .null)]) :=
    fun k l h => ⟨by simpa using h, trivial, trivial, trivial⟩
  exact ((canonicalJson_exact Small.platform (hdistinct "a" "b" (by decide))
    (hdistinct "b" "a" (by decide)) rfl rfl).mpr
      ⟨fun _ => hsame true, fun h => absurd (hsame false) h⟩).mpr (hsame false)

/-- A value that `JSON.parse` gives back from its own text, as the values that arrive from outside
are. -/
def Parsed (v : Json) : Prop := parse Small.numeral (stringify Small.numeral v) = some v

/-- An empty object and one with a property `__proto__` have the same text, and an object
with a property `constructor` has one text for each order of its keys. -/
theorem canonicalJson_inexact_small :
    (Parsed (.obj []) ∧ Parsed (.obj [("__proto__", .null)]) ∧
      canonicalJson Small.platform (.obj []) =
        canonicalJson Small.platform (.obj [("__proto__", .null)]) ∧
      ¬ SameUpToOrder (.obj []) (.obj [("__proto__", .null)])) ∧
    (Parsed (.obj [("a", .null), ("constructor", .null)]) ∧
      Parsed (.obj [("constructor", .null), ("a", .null)]) ∧
      SameUpToOrder (.obj [("a", .null), ("constructor", .null)])
        (.obj [("constructor", .null), ("a", .null)]) ∧
      canonicalJson Small.platform (.obj [("a", .null), ("constructor", .null)]) ≠
        canonicalJson Small.platform (.obj [("constructor", .null), ("a", .null)])) := by
  have hparsed : ∀ v : Json, sent v = v → Parsed v := fun v hv => by
    rw [Parsed, parse_stringify, hv]
  refine ⟨⟨hparsed _ rfl, hparsed _ rfl, by decide +kernel, fun h => ?_⟩,
    hparsed _ rfl, hparsed _ rfl, ?_, by decide +kernel⟩
  · rw [SameUpToOrder, SameUpTo] at h
    obtain ⟨gs', hperm, hsame⟩ := h
    have hkeys := (keys_of_sameFields hsame).symm
    rw [List.map_nil, List.map_eq_nil_iff] at hkeys
    rw [hkeys] at hperm
    exact absurd hperm.length_eq (by decide)
  · rw [SameUpToOrder, SameUpTo]
    exact ⟨[("a", .null), ("constructor", .null)], .swap _ _ _, rfl, rfl, rfl, rfl, trivial⟩

/-- **On ordinary values** canonical text is what it is meant to be: it identifies exactly the
values that are equal up to the order of keys. -/
theorem canonicalJson_ordinary (hv : v.Distinct) (hw : w.Distinct) (hv' : v.Finite)
    (hw' : w.Finite) (hov : Ordinary v) (how : Ordinary w) :
    canonicalJson P v = canonicalJson P w ↔ SameUpToOrder v w := by
  rw [canonicalJson_eq_iff P hv hw hv' hw', dropProto_ordinary v hov, dropProto_ordinary w how]
  exact sameUpTo_ordinary v w hov

end NoGhost
