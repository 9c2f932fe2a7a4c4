import Mathlib.Algebra.GroupWithZero.Nat
import Mathlib.Data.List.Basic

/-!
# Maps

The `Map` of JavaScript, as the list of its entries in insertion order: setting a key that is
present keeps its place. `Set` is a map to nothing, and is a list where it is needed.

## Main results

* `JsMap.get_set_self`, `JsMap.get_set_of_ne`: what is read after an update.
* `JsMap.mem_of_get`, `JsMap.mem_set`, `JsMap.mem_delete`: the entries that are read, and those
  left by an update.
* `JsMap.Distinct.set`, `JsMap.Distinct.sum_set`: an update keeps the keys apart, and changes a
  sum over the values by one value.
-/

namespace Js

/-- A `Map`: its entries in the order in which their keys were first set. -/
abbrev JsMap (K V : Type) := List (K × V)

namespace JsMap

variable {K V : Type} [BEq K]

/-- `m.get(k)`, with the equality of the keys for `SameValueZero`. -/
def get (m : JsMap K V) (k : K) : Option V := m.lookup k

/-- `m.set(k, v)`: a key that is there keeps its place, and a new one comes last. -/
def set (m : JsMap K V) (k : K) (v : V) : JsMap K V :=
  if m.any (·.1 == k) then m.map fun e => if e.1 == k then (e.1, v) else e
  else m ++ [(k, v)]

/-- `m.delete(k)`, which closes the gap. -/
def delete (m : JsMap K V) (k : K) : JsMap K V := m.filter fun e => !(e.1 == k)

section Updates

variable {m : JsMap K V} {k : K} {v : V}

/-- A key that no entry has is put at the end. -/
theorem set_new (h : ∀ e ∈ m, (e.1 == k) = false) : m.set k v = m ++ [(k, v)] := by
  have hany : (m.any (·.1 == k)) = false := by
    rw [List.any_eq_false]
    exact fun e he => by simpa using h e he
  rw [set, hany]
  rfl

/-- Setting a key of the first entry rewrites it there. -/
theorem set_head {e : K × V} (hk : (e.1 == k) = true)
    (hrest : ∀ f ∈ m, (f.1 == k) = false) : set (e :: m) k v = (e.1, v) :: m := by
  rw [set, if_pos (by simp [hk]), List.map_cons, if_pos hk]
  congr 1
  rw [List.map_congr_left (g := id), List.map_id]
  intro f hf
  simp [hrest f hf]

/-- Setting a key of a later entry leaves the first one alone. -/
theorem set_tail {e : K × V} (hk : (e.1 == k) = false) : set (e :: m) k v = e :: m.set k v := by
  rw [set, set, List.any_cons, hk, Bool.false_or]
  split
  next => rw [List.map_cons, hk]; rfl
  next => rfl

/-- The keys after a set are the old ones and the one that was set. -/
theorem keys_set {f : K × V} (h : f ∈ m.set k v) : f.1 = k ∨ ∃ e ∈ m, e.1 = f.1 := by
  rw [set] at h
  split at h
  next =>
    obtain ⟨e, he, rfl⟩ := List.mem_map.mp h
    refine .inr ⟨e, he, ?_⟩
    split <;> rfl
  next =>
    rcases List.mem_append.mp h with h | h
    · exact .inr ⟨f, h, rfl⟩
    · exact .inl (congrArg Prod.fst (List.mem_singleton.mp h))

/-- An entry after an update is an old one, or holds what was set under an equal key. -/
theorem value_set {f : K × V} (h : f ∈ m.set k v) :
    f ∈ m ∨ f.2 = v ∧ (f.1 = k ∨ (f.1 == k) = true) := by
  rw [set] at h
  split at h
  next =>
    obtain ⟨e, he, rfl⟩ := List.mem_map.mp h
    split
    next hk => exact .inr ⟨rfl, .inr hk⟩
    next => exact .inl he
  next =>
    rcases List.mem_append.mp h with h | h
    · exact .inl h
    · obtain rfl := List.mem_singleton.mp h
      exact .inr ⟨rfl, .inl rfl⟩

/-- No two entries have equal keys. -/
def Distinct (m : JsMap K V) : Prop := m.Pairwise fun e f => (e.1 == f.1) = false

/-- A deletion keeps the keys distinct. -/
theorem Distinct.delete (h : m.Distinct) : (m.delete k).Distinct := h.filter _

end Updates

section Partial

variable [PartialEquivBEq K] {m : JsMap K V} {k k' : K} {v : V}

/-- Equal keys read the same. -/
theorem get_congr (h : (k == k') = true) : m.get k = m.get k' := by
  induction m with
  | nil => rfl
  | cons e m ih =>
      obtain ⟨k₀, v₀⟩ := e
      rw [get, get, List.lookup_cons, List.lookup_cons, BEq.congr_left h]
      cases k' == k₀ with
      | true => rfl
      | false => exact ih

/-- A key that equals itself reads what was set last. -/
theorem get_set_self (h : (k == k) = true) : (m.set k v).get k = some v := by
  rw [set, get]
  split
  next hany =>
    induction m with
    | nil => cases hany
    | cons e m ih =>
        rw [List.map_cons]
        cases hk : e.1 == k with
        | true =>
            rw [if_pos rfl, List.lookup_cons, BEq.symm hk]
        | false =>
            rw [List.any_cons, hk, Bool.false_or] at hany
            have hk' : (k == e.1) = false := by rw [← hk, BEq.comm]
            rw [if_neg Bool.false_ne_true, List.lookup_cons, hk']
            exact ih hany
  next hany =>
    have hnone : m.lookup k = none := by
      induction m with
      | nil => rfl
      | cons e m ih =>
          rw [List.any_cons, Bool.or_eq_true, not_or] at hany
          have hk' : (k == e.1) = false := by rw [BEq.comm]; simpa using hany.1
          rw [List.lookup_cons, hk']
          exact ih hany.2
    rw [List.lookup_append, hnone, Option.none_or, List.lookup_cons, h]

/-- Other keys read what they read before. -/
theorem get_set_of_ne (h : (k' == k) = false) : (m.set k v).get k' = m.get k' := by
  rw [set, get, get]
  split
  next hany =>
    clear hany
    induction m with
    | nil => rfl
    | cons e m ih =>
        rw [List.map_cons]
        by_cases hk : (e.1 == k) = true
        · have hk' : (k' == e.1) = false := by
            by_contra hne
            rw [Bool.not_eq_false] at hne
            rw [BEq.trans hne hk] at h
            cases h
          rw [if_pos hk, List.lookup_cons, List.lookup_cons, hk']
          exact ih
        · rw [if_neg hk, List.lookup_cons, List.lookup_cons, ih]
  next =>
    rw [List.lookup_append, List.lookup_cons, h]
    cases m.lookup k' <;> rfl

/-- A key that no entry has reads nothing. -/
theorem get_eq_none (h : ∀ e ∈ m, (e.1 == k) = false) : m.get k = none := by
  induction m with
  | nil => rfl
  | cons e m ih =>
      have hk : (k == e.1) = false := by
        rw [BEq.comm]
        exact h e List.mem_cons_self
      rw [get, List.lookup_cons, hk]
      exact ih fun e he => h e (List.mem_cons_of_mem _ he)

/-- The key of the first entry is not among the later ones. -/
theorem Distinct.tail_ne {e : K × V} (h : Distinct (e :: m)) (hk : (e.1 == k) = true) :
    ∀ f ∈ m, (f.1 == k) = false := fun f hf => by
  by_contra hfk
  rw [Bool.not_eq_false] at hfk
  have := (List.pairwise_cons.mp h).1 f hf
  rw [BEq.trans hk (BEq.symm hfk)] at this
  cases this

/-- Induction on where a key is set: nowhere before, first, or later. -/
theorem Distinct.set_cases {motive : JsMap K V → JsMap K V → Prop} (h : m.Distinct)
    (hnew : ∀ m : JsMap K V, (∀ e ∈ m, (e.1 == k) = false) → motive m (m ++ [(k, v)]))
    (hhead : ∀ (e : K × V) (m : JsMap K V), (e.1 == k) = true → (∀ f ∈ m, (f.1 == k) = false) →
      motive (e :: m) ((e.1, v) :: m))
    (htail : ∀ (e : K × V) (m : JsMap K V), (e.1 == k) = false → motive m (m.set k v) →
      motive (e :: m) (e :: m.set k v)) : motive m (m.set k v) := by
  induction m with
  | nil => exact hnew [] fun e he => nomatch he
  | cons e m ih =>
      cases hk : e.1 == k with
      | true =>
          rw [set_head hk (h.tail_ne hk)]
          exact hhead e m hk (h.tail_ne hk)
      | false =>
          rw [set_tail hk]
          exact htail e m hk (ih (List.pairwise_cons.mp h).2)

/-- A set keeps the keys distinct. -/
theorem Distinct.set (h : m.Distinct) : (m.set k v).Distinct := by
  induction m with
  | nil => exact List.pairwise_singleton _ _
  | cons e m ih =>
      obtain ⟨hne, htail⟩ := List.pairwise_cons.mp h
      cases hk : e.1 == k with
      | true =>
          rw [set_head hk (h.tail_ne hk)]
          exact List.pairwise_cons.mpr ⟨hne, htail⟩
      | false =>
          rw [set_tail hk]
          refine List.pairwise_cons.mpr ⟨fun f hf => ?_, ih htail⟩
          rcases keys_set hf with heq | ⟨e', he', heq⟩
          · rw [heq, hk]
          · rw [← heq]
            exact hne e' he'

/-- A sum over the entries after an update: the value set, for the one read before. -/
theorem Distinct.sum_set (h : m.Distinct) (f : V → ℕ) :
    ((m.set k v).map fun e => f e.2).sum + ((m.get k).map f).getD 0 =
      (m.map fun e => f e.2).sum + f v := by
  refine h.set_cases (motive := fun m m' => (m'.map fun e => f e.2).sum + ((get m k).map f).getD 0 =
    (m.map fun e => f e.2).sum + f v) (fun m hm => ?_) (fun e m hk _ => ?_) fun e m hk ih => ?_
  · rw [get_eq_none hm]
    simp
  · have hget : get (e :: m) k = some e.2 := by
      rw [get, List.lookup_cons, BEq.symm hk]
    rw [hget]
    simp only [List.map_cons, List.sum_cons, Option.map_some, Option.getD_some]
    omega
  · have hget : get (e :: m) k = get m k := by
      rw [get, List.lookup_cons, BEq.comm, hk]
      rfl
    rw [hget]
    simp only [List.map_cons, List.sum_cons]
    omega

end Partial

variable [LawfulBEq K] {m : JsMap K V} {k k' : K} {v : V} {e : K × V}

/-- What is read is there. -/
theorem mem_of_get (h : m.get k = some v) : (k, v) ∈ m := by
  induction m with
  | nil => cases h
  | cons f m ih =>
      obtain ⟨k₀, v₀⟩ := f
      rw [get, List.lookup_cons] at h
      split at h
      next heq =>
        obtain rfl := eq_of_beq heq
        cases h
        exact List.mem_cons_self
      next => exact List.mem_cons_of_mem _ (ih h)

/-- The entries after an update are the new one, and old ones of other keys. -/
theorem mem_set (h : e ∈ m.set k v) : e = (k, v) ∨ e ∈ m ∧ e.1 ≠ k := by
  rw [set] at h
  split at h
  next =>
    obtain ⟨f, hf, rfl⟩ := List.mem_map.mp h
    by_cases hk : f.1 = k
    · subst hk
      simp
    · have hbeq : (f.1 == k) = false := beq_eq_false_iff_ne.mpr hk
      simp only [hbeq, Bool.false_eq_true, if_false]
      exact .inr ⟨hf, hk⟩
  next hany =>
    rcases List.mem_append.mp h with h | h
    · refine .inr ⟨h, fun hk => hany ?_⟩
      rw [List.any_eq_true]
      exact ⟨e, h, by simp [hk]⟩
    · exact .inl (List.mem_singleton.mp h)

/-- What is left after a deletion is what had another key. -/
theorem mem_delete : e ∈ m.delete k ↔ e ∈ m ∧ e.1 ≠ k := by
  simp [delete, List.mem_filter]

/-- Deleting the key of the first entry leaves the others. -/
theorem Distinct.delete_head (h : Distinct (e :: m)) : JsMap.delete (e :: m) e.1 = m := by
  rw [JsMap.delete, List.filter_cons_of_neg (by simp), List.filter_eq_self]
  exact fun f hf => by simpa using h.tail_ne (BEq.refl e.1) f hf

/-- What is there is read, where keys are distinct. -/
theorem Distinct.get_of_mem (h : m.Distinct) (hmem : (k, v) ∈ m) : m.get k = some v := by
  induction m with
  | nil => cases hmem
  | cons f m ih =>
      rcases List.mem_cons.mp hmem with rfl | hmem
      · rw [get, List.lookup_cons, BEq.refl]
      · have hne : (k == f.1) = false := by
          rw [BEq.comm]
          exact (List.pairwise_cons.mp h).1 _ hmem
        rw [get, List.lookup_cons, hne]
        exact ih (List.pairwise_cons.mp h).2 hmem

/-! ### Indices -/

/-- The map tells the place of each key in a list that has it once, as a `Map` beside an array does.
-/
structure Indexes {K : Type} [BEq K] (m : JsMap K ℕ) (keys : List K) : Prop where
  nodup : keys.Nodup
  distinct : m.Distinct
  get_iff : ∀ {k : K} {i : ℕ}, m.get k = some i ↔ keys[i]? = some k

/-- No keys are indexed by the empty map. -/
theorem Indexes.nil {K : Type} [BEq K] : Indexes ([] : JsMap K ℕ) [] :=
  ⟨List.nodup_nil, List.Pairwise.nil, fun {k i} => by simp [get]⟩

section Indices

variable {K : Type} [BEq K] [LawfulBEq K] {m : JsMap K ℕ} {keys : List K} {k : K}

/-- A new key is put at the end, with the next index. -/
theorem Indexes.push (h : Indexes m keys) (hk : k ∉ keys) :
    Indexes (m.set k keys.length) (keys ++ [k]) := by
  refine ⟨List.nodup_append.mpr ⟨h.nodup, List.pairwise_singleton _ _, ?_⟩, h.distinct.set, ?_⟩
  · rintro x hx y hy rfl
    exact hk (List.mem_singleton.mp hy ▸ hx)
  · intro k' i
    by_cases hkk : k' = k
    · subst hkk
      rw [get_set_self (beq_self_eq_true k')]
      constructor
      · rintro ⟨⟩
        exact List.getElem?_concat_length
      · intro hi
        rcases Nat.lt_or_ge i keys.length with hlt | hge
        · rw [List.getElem?_append_left hlt] at hi
          exact absurd (List.mem_of_getElem? hi) hk
        · obtain ⟨hlen, -⟩ := List.getElem?_eq_some_iff.mp hi
          rw [List.length_append, List.length_singleton] at hlen
          rw [show i = keys.length by omega]
    · rw [get_set_of_ne (beq_eq_false_iff_ne.mpr hkk), h.get_iff]
      constructor
      · intro hi
        obtain ⟨hlen, -⟩ := List.getElem?_eq_some_iff.mp hi
        rw [List.getElem?_append_left hlen, hi]
      · intro hi
        rcases Nat.lt_or_ge i keys.length with hlt | hge
        · rwa [List.getElem?_append_left hlt] at hi
        · rw [List.getElem?_append_right hge] at hi
          have := List.mem_singleton.mp (List.mem_of_getElem? hi)
          exact absurd this hkk

end Indices

end JsMap

end Js
