import NoGhost.Coordinator.Requests
import NoGhost.Window

/-!
# The Rate Limit

`rateLimitOk` of `coordinator/index.ts` keeps, for every merchant, the times of the calls that it
accepted, and drops what is older than the window whenever it is called. It agrees with the
limiter over the full history as long as the clock does not run backwards: what it has dropped
can no longer be in a window.

## Main results

* `sliding_attempts`: the calls are answered as by the limiter over the full history.
* `rateLimitOk_sliding`: the window, its bound, and what does not change an answer.
-/

open Js SlidingWindow

namespace NoGhost

variable {cfg : Config}

/-! ### Sequences of calls -/

/-- A call of `rateLimitOk`: the merchant that it is made for, and the reading of the clock. -/
structure Attempt where
  merchantId : String
  time : ℤ
  deriving DecidableEq

/-- One call of the rate limit, at its time. -/
def Store.attempt (s : Store cfg) (a : Attempt) : Bool × Store cfg :=
  Store.rateLimitOk a.merchantId { s with clock := a.time }

/-- The calls, with what each of them returned. -/
def Store.attempts (s : Store cfg) : List Attempt → List (Entry String ℤ)
  | [] => []
  | a :: calls => ⟨a.merchantId, a.time, (s.attempt a).1⟩ :: (s.attempt a).2.attempts calls

/-- The call of an entry of the history. -/
def attemptOf (e : Entry String ℤ) : Attempt := ⟨e.key, e.time⟩

/-- The history has the calls that were made. -/
theorem attempts_calls (s : Store cfg) (calls : List Attempt) :
    (s.attempts calls).map attemptOf = calls := by
  induction calls generalizing s with
  | nil => rfl
  | cons a calls ih => rw [Store.attempts, List.map_cons, ih]; rfl

/-- The times that are kept for a merchant. -/
def Store.keptHits (s : Store cfg) (m : String) : List ℤ := (s.merchantHits.get m).getD []

/-! ### One call -/

/-- What a call returns: whether there is room in the window. -/
theorem attempt_ok (s : Store cfg) (a : Attempt) :
    (s.attempt a).1 ↔
      ((s.keptHits a.merchantId).filter (a.time - RATE_WINDOW_MS < ·)).length <
        RATE_MAX_PER_WINDOW := by
  rw [Store.attempt, Store.rateLimitOk, Store.keptHits]
  dsimp only
  split
  next hfull => simpa using hfull
  next hroom => simpa using hroom

/-- What a call leaves for its merchant: the window, and itself when it was accepted. -/
theorem attempt_kept_self (s : Store cfg) (a : Attempt) :
    (s.attempt a).2.keptHits a.merchantId =
      (s.keptHits a.merchantId).filter (a.time - RATE_WINDOW_MS < ·) ++
        if (s.attempt a).1 then [a.time] else [] := by
  rw [Store.attempt, Store.rateLimitOk]
  dsimp only
  split
  next => rw [Store.keptHits, JsMap.get_set_self (beq_self_eq_true _)]; simp [Store.keptHits]
  next => rw [Store.keptHits, JsMap.get_set_self (beq_self_eq_true _)]; rfl

/-- What a call leaves for other merchants. -/
theorem attempt_kept_of_ne (s : Store cfg) {a : Attempt} {m : String} (h : m ≠ a.merchantId) :
    (s.attempt a).2.keptHits m = s.keptHits m := by
  have hne : (m == a.merchantId) = false := beq_false_of_ne h
  rw [Store.attempt, Store.rateLimitOk]
  dsimp only
  split
  next => rw [Store.keptHits, JsMap.get_set_of_ne hne]; rfl
  next => rw [Store.keptHits, JsMap.get_set_of_ne hne]; rfl

/-! ### The full history -/

/-- **The invariant.** What is kept for a merchant agrees with the calls that were accepted for
it, in every window that ends no earlier than the last call. -/
def Remembers (s : Store cfg) (h : List (Entry String ℤ)) : Prop :=
  ∀ m c, (∀ e ∈ h, e.time ≤ c) →
    (s.keptHits m).filter (c - RATE_WINDOW_MS < ·) =
      ((accepted m h).map Entry.time).filter (c - RATE_WINDOW_MS < ·)

/-- A store without hits remembers nothing. -/
theorem remembers_nil {s : Store cfg} (hs : s.merchantHits = []) : Remembers s [] := by
  intro m c _
  rw [Store.keptHits, hs]
  rfl

/-- A cutoff filters more than an earlier one. -/
theorem filter_filter_cutoff {c c' w : ℤ} (h : c' ≤ c) (l : List ℤ) :
    (l.filter (c' - w < ·)).filter (c - w < ·) = l.filter (c - w < ·) := by
  rw [List.filter_filter]
  refine List.filter_congr fun t _ => Bool.eq_iff_iff.mpr ?_
  simp only [Bool.and_eq_true, decide_eq_true_eq]
  omega

/-- **The step.** A call that is not earlier than the calls before it is answered by the limiter
over the full history, and what it leaves agrees with the history that it extends. -/
theorem Remembers.attempt {s : Store cfg} {h : List (Entry String ℤ)} (hr : Remembers s h)
    {a : Attempt} (hlast : ∀ e ∈ h, e.time ≤ a.time) :
    ((s.attempt a).1 ↔
      hits a.merchantId (a.time - RATE_WINDOW_MS) a.time h < RATE_MAX_PER_WINDOW) ∧
    Remembers (s.attempt a).2 (h ++ [⟨a.merchantId, a.time, (s.attempt a).1⟩]) := by
  constructor
  · have hcount : ((accepted a.merchantId h).map Entry.time).countP
        (a.time - RATE_WINDOW_MS < ·) = hits a.merchantId (a.time - RATE_WINDOW_MS) a.time h := by
      rw [hits, List.countP_map]
      refine List.countP_congr fun e he => ?_
      have := hlast e (mem_accepted.mp he).1
      simp [this]
    rw [attempt_ok, hr a.merchantId a.time hlast, ← List.countP_eq_length_filter, hcount]
  · intro m c hc
    have hac : a.time ≤ c := hc ⟨a.merchantId, a.time, (s.attempt a).1⟩ (by simp)
    have hold := hr m c fun e he => hc e (List.mem_append_left _ he)
    rw [accepted_append, accepted_singleton, List.map_append, List.filter_append]
    by_cases hm : m = a.merchantId
    · subst hm
      rw [attempt_kept_self, List.filter_append, filter_filter_cutoff hac, hold]
      cases (s.attempt a).1 <;> simp
    · rw [attempt_kept_of_ne s hm, hold, if_neg fun h => hm h.2.symm]
      simp

/-- The calls that go on from a history of a sliding window are one. Induction on the calls. -/
theorem sliding_attempts_from {s : Store cfg} {h : List (Entry String ℤ)} (hr : Remembers s h)
    (hs : Sliding RATE_WINDOW_MS RATE_MAX_PER_WINDOW h) {calls : List Attempt}
    (hmono : calls.Pairwise (·.time ≤ ·.time))
    (hlast : ∀ e ∈ h, ∀ a ∈ calls, e.time ≤ a.time) :
    Sliding RATE_WINDOW_MS RATE_MAX_PER_WINDOW (h ++ s.attempts calls) := by
  induction calls generalizing s h with
  | nil => rwa [Store.attempts, List.append_nil]
  | cons a calls ih =>
      obtain ⟨hfirst, hmono⟩ := List.pairwise_cons.mp hmono
      obtain ⟨hok, hr'⟩ := hr.attempt fun e he => hlast e he a List.mem_cons_self
      rw [Store.attempts, ← List.singleton_append, ← List.append_assoc]
      refine ih hr' (.snoc hs hok) hmono fun e he b hb => ?_
      rcases List.mem_append.mp he with he | he
      · exact hlast e he b (List.mem_cons_of_mem _ hb)
      · rw [List.mem_singleton.mp he]
        exact hfirst b hb

/-- **Full history.** Calls in the order of time are answered as by the limiter that forgets
nothing. -/
theorem sliding_attempts {s : Store cfg} (hs : s.merchantHits = []) {calls : List Attempt}
    (hmono : calls.Pairwise (·.time ≤ ·.time)) :
    Sliding RATE_WINDOW_MS RATE_MAX_PER_WINDOW (s.attempts calls) :=
  sliding_attempts_from (remembers_nil hs) .nil hmono fun _ he => (nomatch he)

/-- A history that the limiter over the full history gives is the one that the calls have. -/
theorem attempts_of_sliding {s : Store cfg} (hs : s.merchantHits = [])
    {h : List (Entry String ℤ)} (hh : Sliding RATE_WINDOW_MS RATE_MAX_PER_WINDOW h)
    (hmono : h.Pairwise (·.time ≤ ·.time)) : s.attempts (h.map attemptOf) = h := by
  have hmono' : (h.map attemptOf).Pairwise (·.time ≤ ·.time) := List.pairwise_map.mpr hmono
  refine (sliding_attempts hs hmono').unique hh ?_
  have hcall : ∀ l : List (Entry String ℤ), l.map Entry.call =
      (l.map attemptOf).map fun a => (a.merchantId, a.time) := fun l => by
    rw [List.map_map]
    rfl
  rw [hcall, attempts_calls, ← hcall]

/-- Rejected calls may be left out, since only accepted ones are remembered. -/
theorem accepted_of_filter_ok {h h' : List (Entry String ℤ)}
    (hok : h'.filter (·.ok) = h.filter (·.ok)) (m : String) : accepted m h' = accepted m h := by
  have hsplit : ∀ l : List (Entry String ℤ),
      accepted m l = (l.filter (·.ok)).filter fun e => decide (e.key = m) := fun l => by
    rw [List.filter_filter]
    exact List.filter_congr fun e _ => Bool.and_comm _ _
  rw [hsplit, hsplit, hok]

/-- **The rate limit.** While the clock does not run backwards, a call at `T` is accepted if and
only if fewer than 20 earlier calls for its merchant were accepted in `(T - 10000, T]`. So no
half-open window of 10000 ms holds more than 20 accepted calls for a merchant, leaving out
rejected calls changes no answer, and neither does leaving out the calls for other merchants. -/
theorem rateLimitOk_sliding {s : Store cfg} (hs : s.merchantHits = []) {calls : List Attempt}
    (hmono : calls.Pairwise (·.time ≤ ·.time)) :
    (s.attempts calls).map attemptOf = calls ∧
    (∀ pre e post, s.attempts calls = pre ++ e :: post →
      (e.ok ↔ hits e.key (e.time - 10000) e.time pre < 20)) ∧
    (∀ m t, hits m t (t + 10000) (s.attempts calls) ≤ 20) ∧
    (∀ h, h.Sublist (s.attempts calls) →
      h.filter (·.ok) = (s.attempts calls).filter (·.ok) → s.attempts (h.map attemptOf) = h) ∧
    ∀ m, s.attempts (calls.filter (·.merchantId = m)) =
      (s.attempts calls).filter (·.key = m) := by
  have hsliding := sliding_attempts hs hmono
  have hcalls := attempts_calls s calls
  have hordered : Ordered (s.attempts calls) := by
    rw [← hcalls] at hmono
    exact hmono.of_map attemptOf fun _ _ h => h
  refine ⟨hcalls, fun pre e post heq => ?_, fun m t => hsliding.hits_le hordered m t,
    fun h hsub hok => ?_, fun m => ?_⟩
  · exact (heq ▸ hsliding).answered
  · refine attempts_of_sliding hs (hsliding.of_sublist hsub fun e _ => ?_) (hordered.sublist hsub)
    exact accepted_of_filter_ok hok e.key
  · have hsub : ((s.attempts calls).filter (·.key = m)).Sublist (s.attempts calls) :=
      List.filter_sublist
    have hkept : ∀ e ∈ (s.attempts calls).filter (·.key = m),
        accepted e.key ((s.attempts calls).filter (·.key = m)) =
          accepted e.key (s.attempts calls) := fun e he => by
      obtain ⟨-, hkey⟩ := List.mem_filter.mp he
      rw [accepted, accepted, List.filter_filter]
      refine List.filter_congr fun x _ => ?_
      rw [of_decide_eq_true hkey, Bool.and_assoc, Bool.and_self]
    have hmine := attempts_of_sliding hs (hsliding.of_sublist hsub hkept) (hordered.sublist hsub)
    have hfilter : ((s.attempts calls).filter (·.key = m)).map attemptOf =
        calls.filter (·.merchantId = m) := by
      conv_rhs => rw [← hcalls, List.filter_map]
      rfl
    rwa [hfilter] at hmine

namespace Small

/-- Twenty calls at once, one more at the end of the window, and one just after it. -/
def hurried : List Attempt :=
  List.replicate 20 ⟨"MER-001", 0⟩ ++ [⟨"MER-001", 9999⟩, ⟨"MER-001", 10000⟩]

example :
    ((Store.boot config "" []).attempts hurried).map (·.ok) =
      List.replicate 20 true ++ [false, true] := by
  decide +kernel

end Small

/-- The rule on the calls of a merchant in a hurry. -/
theorem rateLimitOk_sliding_small :
    ((Store.boot config "" []).attempts Small.hurried).map attemptOf = Small.hurried ∧
    ∀ m t, hits m t (t + 10000) ((Store.boot config "" []).attempts Small.hurried) ≤ 20 := by
  obtain ⟨hcalls, -, hwindow, -⟩ :=
    @rateLimitOk_sliding config (Store.boot config "" []) rfl Small.hurried (by decide)
  exact ⟨hcalls, hwindow⟩

end NoGhost
