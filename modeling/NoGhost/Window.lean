import Mathlib.Algebra.Order.Group.Defs
import Mathlib.Data.List.Basic
import Mathlib.Data.List.Induction

/-!
# Sliding Windows

A limiter that accepts a call for a key if and only if fewer than `n` calls for the key were
accepted in the last `w` units of time. Here it is defined over the full history of the calls;
an implementation that forgets old calls is compared with this definition. Keys are anything
with decidable equality, and times are any linearly ordered group.

## Main results

* `Sliding.answered`: every call of a history was answered by what came before it.
* `Sliding.hits_le`: no window holds more than `n` accepted calls for a key.
* `Sliding.of_sublist`: calls that were rejected, and calls for other keys, may be left out.
* `Sliding.unique`: the calls determine the history.
-/

namespace SlidingWindow

variable {κ τ : Type*}

/-- A call, and whether it was accepted, with the key it was made for and its time. -/
structure Entry (κ τ : Type*) where
  key : κ
  time : τ
  ok : Bool
  deriving DecidableEq

/-- The call without its outcome. -/
def Entry.call (e : Entry κ τ) : κ × τ := (e.key, e.time)

variable [DecidableEq κ]

/-- The calls for `k` that were accepted, in their order. -/
def accepted (k : κ) (h : List (Entry κ τ)) : List (Entry κ τ) :=
  h.filter fun e => e.ok && decide (e.key = k)

/-- What was accepted in a history is what was in its parts. -/
theorem accepted_append (k : κ) (h h' : List (Entry κ τ)) :
    accepted k (h ++ h') = accepted k h ++ accepted k h' :=
  List.filter_append h h'

/-- A call by itself is among the accepted for its key, if it was. -/
theorem accepted_singleton (k : κ) (e : Entry κ τ) :
    accepted k [e] = if e.ok ∧ e.key = k then [e] else [] := by
  by_cases h : e.ok ∧ e.key = k
  · rw [if_pos h, accepted, List.filter_cons_of_pos (by simpa using h), List.filter_nil]
  · rw [if_neg h, accepted, List.filter_cons_of_neg (by simpa using h), List.filter_nil]

/-- A call is among the accepted ones for a key where it was made for it and accepted. -/
theorem mem_accepted {k : κ} {h : List (Entry κ τ)} {e : Entry κ τ} :
    e ∈ accepted k h ↔ e ∈ h ∧ e.ok ∧ e.key = k := by
  simp [accepted]

variable [LinearOrder τ]

/-- How many calls for `k` were accepted in the window `(lo, hi]`. -/
def hits (k : κ) (lo hi : τ) (h : List (Entry κ τ)) : ℕ :=
  (accepted k h).countP fun e => lo < e.time ∧ e.time ≤ hi

/-- The calls were made in the order of their times, of which several may be the same. -/
def Ordered (h : List (Entry κ τ)) : Prop := h.Pairwise (·.time ≤ ·.time)

/-- The hits in a history are those in its parts. -/
theorem hits_append (k : κ) (lo hi : τ) (h h' : List (Entry κ τ)) :
    hits k lo hi (h ++ h') = hits k lo hi h + hits k lo hi h' := by
  rw [hits, accepted_append, List.countP_append]
  rfl

/-- A call by itself is a hit where it was accepted for the key within the times. -/
theorem hits_singleton (k : κ) (lo hi : τ) (e : Entry κ τ) :
    hits k lo hi [e] = if (e.ok ∧ e.key = k) ∧ lo < e.time ∧ e.time ≤ hi then 1 else 0 := by
  rw [hits, accepted_singleton]
  by_cases h : e.ok ∧ e.key = k
  · rw [if_pos h, List.countP_singleton]
    simp only [h, true_and, decide_eq_true_eq]
  · rw [if_neg h, if_neg fun h' => h h'.1]
    rfl

/-- A window that starts earlier, and ends after everything in the history, holds more. -/
theorem hits_mono {k : κ} {lo lo' hi hi' : τ} {h : List (Entry κ τ)} (hlo : lo' ≤ lo)
    (hhi : ∀ e ∈ h, e.time ≤ hi') : hits k lo hi h ≤ hits k lo' hi' h := by
  refine List.countP_mono_left fun e he hin => ?_
  simp only [decide_eq_true_eq] at hin ⊢
  exact ⟨hlo.trans_lt hin.1, hhi e (mem_accepted.mp he).1⟩

variable [AddCommGroup τ]

/-- **The limiter.** The histories in which a call is accepted if and only if fewer than `n`
earlier calls for its key were accepted in the window of length `w` that it ends. -/
inductive Sliding (w : τ) (n : ℕ) : List (Entry κ τ) → Prop
  | nil : Sliding w n []
  | snoc {h : List (Entry κ τ)} {e : Entry κ τ} (hs : Sliding w n h)
      (he : e.ok ↔ hits e.key (e.time - w) e.time h < n) : Sliding w n (h ++ [e])

namespace Sliding

variable {w : τ} {n : ℕ} {h h' : List (Entry κ τ)}

/-- The last call of a history, and the history before it: the first is answered by the second. -/
theorem last {e : Entry κ τ} (hs : Sliding w n (h ++ [e])) :
    Sliding w n h ∧ (e.ok ↔ hits e.key (e.time - w) e.time h < n) := by
  generalize heq : h ++ [e] = h₀ at hs
  cases hs with
  | nil => simp at heq
  | snoc hs he =>
      obtain ⟨rfl, hlast⟩ := List.append_inj' heq rfl
      obtain rfl := List.singleton_inj.mp hlast
      exact ⟨hs, he⟩

/-- What comes later does not change how earlier calls were to be answered. -/
theorem of_append {post : List (Entry κ τ)} (hs : Sliding w n (h ++ post)) : Sliding w n h := by
  induction post using List.reverseRecOn with
  | nil => rwa [List.append_nil] at hs
  | append_singleton post e ih =>
      rw [← List.append_assoc] at hs
      exact ih hs.last.1

/-- Every call was answered by what came before it. -/
theorem answered {pre post : List (Entry κ τ)} {e : Entry κ τ}
    (hs : Sliding w n (pre ++ e :: post)) :
    e.ok ↔ hits e.key (e.time - w) e.time pre < n := by
  rw [← List.singleton_append, ← List.append_assoc] at hs
  exact hs.of_append.last.2

/-- **Windows are bounded.** Induction on the calls: when the last one is in the window, and was
accepted, the window that it ends holds everything that this one does. -/
theorem hits_le [IsOrderedAddMonoid τ] (hs : Sliding w n h) (ho : Ordered h) (k : κ) (t : τ) :
    hits k t (t + w) h ≤ n := by
  induction hs with
  | nil => exact Nat.zero_le n
  | @snoc h e hs he ih =>
      obtain ⟨ho, -, hlast⟩ := List.pairwise_append.mp ho
      have hle := ih ho
      rw [hits_append, hits_singleton]
      split
      next hin =>
        obtain ⟨⟨hok, rfl⟩, -, hhi⟩ := hin
        have hbefore : hits e.key t (t + w) h ≤ hits e.key (e.time - w) e.time h :=
          hits_mono (sub_le_iff_le_add.mpr hhi) fun a ha => hlast a ha e List.mem_cons_self
        have hfew := he.mp hok
        omega
      next => exact hle

/-- **What may be left out.** Calls that were rejected, and calls for keys of which nothing is
left, do not change how the calls that are left were answered. -/
theorem of_sublist (hs : Sliding w n h) (hsub : h'.Sublist h)
    (hkeep : ∀ e ∈ h', accepted e.key h' = accepted e.key h) : Sliding w n h' := by
  induction hs generalizing h' with
  | nil =>
      obtain rfl := List.sublist_nil.mp hsub
      exact .nil
  | @snoc h e hs he ih =>
      obtain ⟨l, l', rfl, hl, hl'⟩ := List.sublist_append_iff.mp hsub
      rcases List.sublist_singleton.mp hl' with rfl | rfl
      · simp only [List.append_nil] at hkeep ⊢
        refine ih hl fun a ha => ?_
        have hlen : (accepted a.key l).length ≤ (accepted a.key h).length :=
          (hl.filter _).length_le
        have hkept := hkeep a ha
        rw [accepted_append] at hkept
        have hnil : accepted a.key [e] = [] := by
          have := congrArg List.length hkept
          rw [List.length_append] at this
          exact List.length_eq_zero_iff.mp (by omega)
        rwa [hnil, List.append_nil] at hkept
      · have hcancel : ∀ a ∈ l ++ [e], accepted a.key l = accepted a.key h := fun a ha => by
          have hkept := hkeep a ha
          rw [accepted_append, accepted_append] at hkept
          exact List.append_cancel_right hkept
        refine .snoc (ih hl fun a ha => hcancel a (List.mem_append_left _ ha)) ?_
        rw [he, hits, hits, hcancel e (by simp)]

/-- The calls determine how they are answered, so the rule leaves nothing to choose. -/
theorem unique (hs : Sliding w n h) (hs' : Sliding w n h')
    (hcalls : h.map Entry.call = h'.map Entry.call) : h = h' := by
  induction hs generalizing h' with
  | nil => exact (List.map_eq_nil_iff.mp hcalls.symm).symm
  | @snoc h e hs he ih =>
      cases hs' with
      | nil => simp at hcalls
      | @snoc h' e' hs' he' =>
          rw [List.map_append, List.map_append] at hcalls
          obtain ⟨hcalls, hlast⟩ := List.append_inj' hcalls rfl
          obtain rfl := ih hs' hcalls
          obtain ⟨k, t, ok⟩ := e
          obtain ⟨k', t', ok'⟩ := e'
          simp only [List.map_cons, List.map_nil, Entry.call, List.cons.injEq, Prod.mk.injEq,
            and_true] at hlast
          obtain ⟨rfl, rfl⟩ := hlast
          have hok : ok = ok' := Bool.eq_iff_iff.mpr (he.trans he'.symm)
          rw [hok]

end Sliding

end SlidingWindow
