import Mathlib.Data.List.Basic
import Mathlib.Order.Bounds.Basic

/-!
# Picking with Spares

A number of fit candidates is picked from a list, and which candidates are fit shows only when they
are asked: the first `k` are asked, the first unfit one among them is dropped, the next in line
moves up, and all are asked again. It ends with `k` fit ones, or with fewer than `k` candidates.

## Main results

* `Picks.of_enough`: with `k` fit candidates, the first `k` of them are picked, and those dropped
  are the unfit ones of the shortest beginning of the list that has `k` fit ones.
* `Picks.of_few`: with fewer, the unfit ones are dropped in turn until `k - 1` candidates are left.
-/

namespace Picking

variable {α : Type} {unfit : α → Bool} {k : ℕ} {pool dropped : List α} {picked : Option (List α)}

/-- How the picking of `k` from a pool ends: with those that were dropped in turn, and with those
that were picked. -/
inductive Picks (unfit : α → Bool) (k : ℕ) : List α → List α → Option (List α) → Prop
  | short {pool : List α} (hshort : pool.length < k) : Picks unfit k pool [] none
  | found {pool : List α} (hlong : k ≤ pool.length) (hfit : ∀ x ∈ pool.take k, unfit x = false) :
      Picks unfit k pool [] (some (pool.take k))
  | drop {front back dropped : List α} {x : α} {picked : Option (List α)}
      (hfront : front.length < k)
      (hlong : k ≤ (front ++ x :: back).length) (hfit : ∀ y ∈ front, unfit y = false)
      (hunfit : unfit x = true) (hrest : Picks unfit k (front ++ back) dropped picked) :
      Picks unfit k (front ++ x :: back) (x :: dropped) picked

/-- The fit ones of a list of fit ones are all of it. -/
theorem filter_fit {l : List α} (h : ∀ x ∈ l, unfit x = false) : l.filter (fun x => !unfit x) = l :=
  List.filter_eq_self.mpr fun x hx => by rw [h x hx]; rfl

/-- A list of fit ones has no unfit ones. -/
theorem filter_unfit {l : List α} (h : ∀ x ∈ l, unfit x = false) : l.filter unfit = [] :=
  List.filter_eq_nil_iff.mpr fun x hx => by rw [h x hx]; exact Bool.false_ne_true

/-- Dropping an unfit one leaves the fit ones. -/
theorem filter_drop {front back : List α} {x : α} (hunfit : unfit x = true) :
    (front ++ x :: back).filter (fun x => !unfit x) = (front ++ back).filter fun x => !unfit x := by
  rw [List.filter_append, List.filter_append, List.filter_cons_of_neg (by simp [hunfit])]

/-- The beginning of a list, up to one behind `front`. -/
theorem take_behind (x : α) (back : List α) {front : List α} {n : ℕ} (h : front.length ≤ n) :
    (front ++ x :: back).take (n + 1) = front ++ x :: back.take (n - front.length) ∧
      (front ++ back).take n = front ++ back.take (n - front.length) := by
  constructor
  · rw [List.take_append, List.take_of_length_le (by omega), Nat.sub_add_comm h,
      List.take_succ_cons]
  · rw [List.take_append, List.take_of_length_le h]

/-- Where the first unfit one stands among those that are asked. -/
theorem exists_front_of_find? {x : α} (hlong : k ≤ pool.length)
    (h : (pool.take k).find? unfit = some x) :
    ∃ front back, pool = front ++ x :: back ∧ front.length < k ∧
      (∀ y ∈ front, unfit y = false) ∧ unfit x = true := by
  obtain ⟨hunfit, front, back, htake, hfit⟩ := List.find?_eq_some_iff_append.mp h
  refine ⟨front, back ++ pool.drop k, ?_, ?_, fun y hy => by simpa using hfit y hy, hunfit⟩
  · have hpool := (List.take_append_drop k pool).symm
    rwa [htake, List.append_assoc, List.cons_append] at hpool
  · have hlength := congrArg List.length htake
    rw [List.length_take_of_le hlong, List.length_append, List.length_cons] at hlength
    omega

/-- **Enough fit candidates.** The beginning of the list that was asked is the shortest one with `k`
fit candidates: they are picked, and the unfit ones in it are dropped. Induction on the drops. -/
theorem Picks.of_enough (h : Picks unfit k pool dropped picked)
    (henough : k ≤ (pool.filter fun x => !unfit x).length) :
    ∃ m, IsLeast {m | k ≤ ((pool.take m).filter fun x => !unfit x).length} m ∧
      picked = some ((pool.take m).filter fun x => !unfit x) ∧
      dropped = (pool.take m).filter unfit ∧
      m = dropped.length + k := by
  induction h with
  | short hshort =>
      have := List.length_filter_le (fun x => !unfit x) ‹List α›
      omega
  | @found pool hlong hfit =>
      refine ⟨k, ⟨?_, fun m hm => ?_⟩, ?_, ?_, (Nat.zero_add k).symm⟩
      · rw [Set.mem_ofPred_eq, filter_fit hfit, List.length_take_of_le hlong]
      · have hle := List.length_filter_le (fun x => !unfit x) (pool.take m)
        have htake := List.length_take_le m pool
        rw [Set.mem_ofPred_eq] at hm
        omega
      · rw [filter_fit hfit]
      · rw [filter_unfit hfit]
  | @drop front back dropped x picked hfront hlong hfit hunfit hrest ih =>
      obtain ⟨m, ⟨hm, hleast⟩, hpicked, hdropped, hlength⟩ := ih (filter_drop hunfit ▸ henough)
      have hle : front.length ≤ m := by omega
      obtain ⟨htake, htake'⟩ := take_behind x back hle
      have hfilter : ((front ++ x :: back).take (m + 1)).filter (fun x => !unfit x) =
          ((front ++ back).take m).filter fun x => !unfit x := by
        rw [htake, htake', filter_drop hunfit]
      refine ⟨m + 1, ⟨?_, fun n hn => ?_⟩, ?_, ?_, ?_⟩
      · rw [Set.mem_ofPred_eq, hfilter]
        exact hm
      · rw [Set.mem_ofPred_eq] at hn
        rcases Nat.lt_or_ge front.length n with hlt | hge
        · obtain ⟨n, rfl⟩ : ∃ n', n = n' + 1 := ⟨n - 1, by omega⟩
          obtain ⟨hn', hn''⟩ := take_behind x back (Nat.le_of_lt_succ hlt)
          rw [hn', filter_drop hunfit, ← hn''] at hn
          exact Nat.succ_le_succ (hleast hn)
        · have hle' := List.length_filter_le (fun x => !unfit x) ((front ++ x :: back).take n)
          have := List.length_take_le n (front ++ x :: back)
          omega
      · rw [hpicked, hfilter]
      · rw [hdropped, htake, htake', List.filter_append, List.filter_append, filter_unfit hfit,
          List.nil_append, List.nil_append, List.filter_cons_of_pos hunfit]
      · rw [List.length_cons, hlength]
        omega

/-- **Too few fit candidates.** The unfit ones are dropped in turn until fewer than `k` candidates
are left. -/
theorem Picks.of_few (h : Picks unfit k pool dropped picked)
    (hfew : (pool.filter fun x => !unfit x).length < k) :
    picked = none ∧ dropped = (pool.filter unfit).take (pool.length + 1 - k) := by
  induction h with
  | short hshort =>
      refine ⟨rfl, ?_⟩
      rw [Nat.sub_eq_zero_of_le hshort, List.take_zero]
  | @found pool hlong hfit =>
      have hsub := (List.take_sublist k pool).filter fun x => !unfit x
      rw [filter_fit hfit] at hsub
      have hle := hsub.length_le
      rw [List.length_take_of_le hlong] at hle
      omega
  | @drop front back dropped x picked hfront hlong hfit hunfit hrest ih =>
      obtain ⟨hpicked, hdropped⟩ := ih (filter_drop hunfit ▸ hfew)
      refine ⟨hpicked, ?_⟩
      have hlength : (front ++ x :: back).length + 1 - k = (front ++ back).length + 1 - k + 1 := by
        simp only [List.length_append, List.length_cons] at hlong ⊢
        omega
      rw [hdropped, hlength, List.filter_append, List.filter_append,
        filter_unfit hfit, List.nil_append,
        List.nil_append, List.filter_cons_of_pos hunfit, List.take_succ_cons]

end Picking
