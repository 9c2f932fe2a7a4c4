import Mathlib.Data.List.Nodup
import Mathlib.Logic.Function.Basic

/-!
# Promises

Promises and the job queue of the host that settles them. A reaction that is registered with a
promise becomes a job when the promise is settled, or at once when it is settled already; a promise
that is resolved with another one is linked to it by a job of its own. What the reactions do is
left to the program: here they are names.

## Main results

* `Host.react_pending`, `Host.react_settled`, `Host.settle_pending`: what the operations do.
* `Owned.take`, `Owned.give`: the jobs of owners that have at most one each.
-/

namespace Async

/-- A promise: the reactions that wait for it in the order of their registration, or the outcome
that it was settled with. -/
inductive PromiseState (R O : Type*)
  | pending (reactions : List R)
  | settled (outcome : O)

/-- A job of the host's queue: a reaction that is to be run with an outcome, or a promise that
another one was resolved with and now has to adopt. -/
inductive Job (Ref R O : Type*)
  | react (reaction : R) (outcome : O)
  | link (ref : Ref) (reaction : R)

/-- The promises with their states, and the jobs in the order in which the host takes them. -/
structure Host (Ref R O : Type*) where
  promise : Ref → PromiseState R O
  jobs : List (Job Ref R O)

namespace Host

variable {Ref R O : Type*}

/-- No promise is settled, and nothing is to do. -/
def idle : Host Ref R O := ⟨fun _ => .pending [], []⟩

/-- A promise is resolved with another one, which takes a job of its own. -/
def link (ref : Ref) (reaction : R) (h : Host Ref R O) : Host Ref R O :=
  { h with jobs := h.jobs ++ [.link ref reaction] }

variable [DecidableEq Ref]

/-- `then`: a reaction is registered, or becomes a job where the promise is settled. -/
def react (ref : Ref) (reaction : R) (h : Host Ref R O) : Host Ref R O :=
  match h.promise ref with
  | .pending reactions =>
      { h with promise := Function.update h.promise ref (.pending (reactions ++ [reaction])) }
  | .settled outcome => { h with jobs := h.jobs ++ [.react reaction outcome] }

/-- A promise is settled, unless it is settled already. -/
def settle (ref : Ref) (outcome : O) (h : Host Ref R O) : Host Ref R O :=
  match h.promise ref with
  | .pending reactions =>
      { promise := Function.update h.promise ref (.settled outcome)
        jobs := h.jobs ++ reactions.map fun r => .react r outcome }
  | .settled _ => h

variable {h : Host Ref R O} {ref ref' : Ref} {r : R} {o : O} {reactions : List R}

/-- A reaction to a pending promise waits with the others. -/
theorem react_pending (hp : h.promise ref = .pending reactions) :
    h.react ref r =
      { h with promise := Function.update h.promise ref (.pending (reactions ++ [r])) } := by
  rw [react, hp]

/-- A reaction to a settled promise is a job at the end of the queue. -/
theorem react_settled (hp : h.promise ref = .settled o) :
    h.react ref r = { h with jobs := h.jobs ++ [.react r o] } := by
  rw [react, hp]

/-- A promise that is settled makes jobs of its reactions, in their order. -/
theorem settle_pending (hp : h.promise ref = .pending reactions) :
    h.settle ref o = { promise := Function.update h.promise ref (.settled o)
                       jobs := h.jobs ++ reactions.map fun r => .react r o } := by
  rw [settle, hp]

/-- Other promises are left alone by a reaction. -/
theorem promise_react_of_ne (hne : ref' ≠ ref) : (h.react ref r).promise ref' = h.promise ref' := by
  rw [react]
  split
  · exact Function.update_of_ne hne _ _
  · rfl

/-- Other promises are left alone by a settlement. -/
theorem promise_settle_of_ne (hne : ref' ≠ ref) :
    (h.settle ref o).promise ref' = h.promise ref' := by
  rw [settle]
  split
  · exact Function.update_of_ne hne _ _
  · rfl

end Host

/-! ### Jobs and their owners -/

section Owners

variable {J : Type*}

/-- The jobs in the queue are those of their owners, once each: an owner has one job at most, and no
two owners have the same. -/
structure Owned (job : ℕ → Option J) (jobs : List J) : Prop where
  nodup : jobs.Nodup
  mem_iff : ∀ x, x ∈ jobs ↔ ∃ k, job k = some x
  inj : ∀ {i k x}, job i = some x → job k = some x → i = k

variable {job : ℕ → Option J} {jobs : List J} {x : J} {k : ℕ}

/-- The first job is taken from its owner. -/
theorem Owned.take (h : Owned job (x :: jobs)) (hk : job k = some x) :
    Owned (Function.update job k none) jobs := by
  obtain ⟨hnew, hnodup⟩ := List.nodup_cons.mp h.nodup
  have hkeep : ∀ {i y}, Function.update job k none i = some y → job i = some y ∧ i ≠ k :=
    fun {i y} hi => by
      by_cases hik : i = k
      · rw [hik, Function.update_self] at hi
        cases hi
      · exact ⟨by rwa [Function.update_of_ne hik] at hi, hik⟩
  refine ⟨hnodup, fun y => ⟨fun hy => ?_, ?_⟩, fun hi hi' => h.inj (hkeep hi).1 (hkeep hi').1⟩
  · obtain ⟨i, hi⟩ := (h.mem_iff y).mp (List.mem_cons_of_mem _ hy)
    have hik : i ≠ k := by
      rintro rfl
      rw [hk, Option.some.injEq] at hi
      exact hnew (hi ▸ hy)
    exact ⟨i, by rw [Function.update_of_ne hik, hi]⟩
  · rintro ⟨i, hi⟩
    obtain ⟨hi, hik⟩ := hkeep hi
    rcases List.mem_cons.mp ((h.mem_iff y).mpr ⟨i, hi⟩) with rfl | hy
    · exact absurd (h.inj hi hk) hik
    · exact hy

/-- An owner that has no job gets one. -/
theorem Owned.give (h : Owned job jobs) (hk : job k = none) (hx : ∀ i, job i ≠ some x) :
    Owned (Function.update job k (some x)) (jobs ++ [x]) := by
  have hcases : ∀ {i y}, Function.update job k (some x) i = some y →
      (i = k ∧ y = x) ∨ (job i = some y ∧ i ≠ k) := fun {i y} hi => by
    by_cases hik : i = k
    · rw [hik, Function.update_self, Option.some.injEq] at hi
      exact .inl ⟨hik, hi.symm⟩
    · exact .inr ⟨by rwa [Function.update_of_ne hik] at hi, hik⟩
  refine ⟨?_, fun y => ⟨fun hy => ?_, ?_⟩, fun {i i' y} hi hi' => ?_⟩
  · refine List.nodup_append.mpr ⟨h.nodup, List.nodup_singleton x, ?_⟩
    rintro y hy z hz rfl
    obtain ⟨i, hi⟩ := (h.mem_iff y).mp hy
    exact hx i (hi.trans (congrArg some (List.mem_singleton.mp hz)))
  · rcases List.mem_append.mp hy with hy | hy
    · obtain ⟨i, hi⟩ := (h.mem_iff y).mp hy
      have hik : i ≠ k := by
        rintro rfl
        rw [hk] at hi
        cases hi
      exact ⟨i, by rw [Function.update_of_ne hik, hi]⟩
    · exact ⟨k, by rw [Function.update_self, List.mem_singleton.mp hy]⟩
  · rintro ⟨i, hi⟩
    rcases hcases hi with ⟨-, rfl⟩ | ⟨hi, -⟩
    · exact List.mem_append_right _ (List.mem_singleton.mpr rfl)
    · exact List.mem_append_left _ ((h.mem_iff y).mpr ⟨i, hi⟩)
  · rcases hcases hi with ⟨rfl, rfl⟩ | ⟨hold, -⟩
    · rcases hcases hi' with ⟨rfl, -⟩ | ⟨hold', -⟩
      · rfl
      · exact absurd hold' (hx i')
    · rcases hcases hi' with ⟨-, rfl⟩ | ⟨hold', -⟩
      · exact absurd hold (hx i)
      · exact h.inj hold hold'

/-- The owner of the first job gets another one. -/
theorem Owned.pass {y : J} (h : Owned job (x :: jobs)) (hk : job k = some x)
    (hy : ∀ i ≠ k, job i ≠ some y) : Owned (Function.update job k (some y)) (jobs ++ [y]) := by
  have hgive := (h.take hk).give (k := k) (x := y) (Function.update_self k none job) fun i hi => by
    by_cases hik : i = k
    · rw [hik, Function.update_self] at hi
      cases hi
    · rw [Function.update_of_ne hik] at hi
      exact hy i hik hi
  rwa [Function.update_idem] at hgive

end Owners

end Async
