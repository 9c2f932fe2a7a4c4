import Mathlib.Algebra.Order.BigOperators.Group.Finset
import NoGhost.Async.Promise
import NoGhost.Js.JsMap

/-!
# The Submission Queue

The model of `enqueue` of `common/chain.ts`: the transactions of an account are submitted one
after the other. The queue of an account is a promise that is settled when its last task is; the
next task reacts to it, whether the last one succeeds or fails.

The calls are numbered in their order. A call has four promises: the one that it chains to when
the account has no queue yet, the one that it returns, the one that it stores, and the one that its
task returns. Calls are made at any time, also while the function of a task is being executed;
tasks are settled at any time once they are started; and the host takes its jobs in their order.

## Main results

* `Submissions.Staged`: the invariant on the promises, the jobs and the history.
* `Submissions.Reached.orderly`: what is started and settled, in which order.
* `Submissions.enqueue_serial`: the tasks of an account run one after the other, each is started
  whatever becomes of those before it, and each caller learns what became of its own.
-/

open Js Async

namespace NoGhost

variable {ε α : Type}

/-- How a promise is settled: rejected, or fulfilled with a value that may be undefined. -/
abbrev TaskResult (ε α : Type) := Except ε (Option α)

/-- The promises of a call: the resolved one that a queue begins with, that of the call, the tail
that is kept of it, and that of its task. -/
inductive PromiseRef
  | resolved (k : ℕ)
  | run (k : ℕ)
  | tail (k : ℕ)
  | task (k : ℕ)
  deriving DecidableEq

/-- What reacts to a promise: the task of a call is started, the promise of a call is settled like
that of its task, or the queue goes on with an undefined value. -/
inductive Reaction
  | start (k : ℕ)
  | adopt (k : ℕ)
  | proceed (k : ℕ)
  deriving DecidableEq

/-- What happens to a task: it is started, and its promise is settled. -/
inductive TaskEvent (ε α : Type)
  | started (k : ℕ)
  | settled (k : ℕ) (outcome : TaskResult ε α)

/-- The state of the module, and of the host: the task whose function is being executed, the
accounts of the calls, and what has happened to the tasks. -/
structure Submissions (ε α : Type) where
  host : Host PromiseRef Reaction (TaskResult ε α)
  queues : JsMap String PromiseRef
  active : Option ℕ
  calls : List String
  log : List (TaskEvent ε α)

namespace Submissions

/-- Before the first call, with no queue and nothing to do. -/
def start : Submissions ε α := ⟨.idle, [], none, [], []⟩

/-- `queues.get(account) ?? Promise.resolve()`. -/
def prev (account : String) (s : Submissions ε α) :
    PromiseRef × Host PromiseRef Reaction (TaskResult ε α) :=
  match s.queues.get account with
  | some tail => (tail, s.host)
  | none => (.resolved s.calls.length, s.host.settle (.resolved s.calls.length) (.ok none))

/-- `enqueue`: it returns the promise of the call. -/
def enqueue (account : String) (s : Submissions ε α) : PromiseRef × Submissions ε α :=
  let k := s.calls.length
  let (prev, host) := s.prev account
  let host := host.react prev (.start k)
  let host := host.react (.run k) (.proceed k)
  (.run k, { s with
    host
    queues := s.queues.set account (.tail k)
    calls := s.calls ++ [account] })

/-- The host takes a job: it starts a task, lets a promise adopt another one, or lets a queue go on.
-/
def perform (job : Job PromiseRef Reaction (TaskResult ε α)) (s : Submissions ε α) :
    Submissions ε α :=
  match job with
  | .react (.start k) _ => { s with active := some k, log := s.log ++ [.started k] }
  | .react (.adopt k) outcome => { s with host := s.host.settle (.run k) outcome }
  | .react (.proceed k) _ => { s with host := s.host.settle (.tail k) (.ok none) }
  | .link ref reaction => { s with host := s.host.react ref reaction }

/-- The function of a task returns its promise. -/
def goesOn (k : ℕ) (s : Submissions ε α) : Submissions ε α :=
  { s with active := none, host := s.host.link (.task k) (.adopt k) }

/-- The function of a task throws, by which the promise of its call is rejected. -/
def raises (k : ℕ) (e : ε) (s : Submissions ε α) : Submissions ε α :=
  { s with
    active := none
    host := (s.host.settle (.task k) (.error e)).settle (.run k) (.error e)
    log := s.log ++ [.settled k (.error e)] }

/-- The promise of a task is settled, at any time and in any way. -/
def settles (k : ℕ) (outcome : TaskResult ε α) (s : Submissions ε α) : Submissions ε α :=
  { s with host := s.host.settle (.task k) outcome, log := s.log ++ [.settled k outcome] }

/-- What the host does by itself: it takes a job when no function is being executed, or the
function returns. -/
inductive Internal (s : Submissions ε α) : Submissions ε α → Prop
  | job {job : Job PromiseRef Reaction (TaskResult ε α)} {jobs : List _} (hactive : s.active = none)
      (hjobs : s.host.jobs = job :: jobs) :
      Internal s (perform job { s with host := { s.host with jobs } })
  | goesOn {k : ℕ} (hactive : s.active = some k) : Internal s (s.goesOn k)

/-- What may happen: a call of `enqueue`, what the host does by itself, and how the tasks end, at
any time and in any way. -/
inductive Step (s : Submissions ε α) : Submissions ε α → Prop
  | call (account : String) : Step s (s.enqueue account).2
  | host {s' : Submissions ε α} (h : Internal s s') : Step s s'
  | raises {k : ℕ} (e : ε) (hactive : s.active = some k)
      (hpending : ∀ o, s.host.promise (.task k) ≠ .settled o) : Step s (s.raises k e)
  | settles {k : ℕ} (outcome : TaskResult ε α) (hstarted : .started k ∈ s.log)
      (hpending : ∀ o, s.host.promise (.task k) ≠ .settled o) : Step s (s.settles k outcome)

/-- The states that are reached, by calls, by tasks and by the host. -/
inductive Reached : Submissions ε α → Prop
  | start : Reached start
  | step {s s' : Submissions ε α} (h : Reached s) (hs : Step s s') : Reached s'

/-! ### How far a call has come -/

/-- The stages of a call: the queue is before it, its task is about to be started, its function is
being executed, its promise is about to be linked to that of the task, and is linked; the task is
settled, the call is, and the queue goes on. What the task has come to is known from the start. -/
inductive Stage (ε α : Type)
  | absent
  | waiting (p : ℕ)
  | ready
  | active (o : Option (TaskResult ε α))
  | linking (o : Option (TaskResult ε α))
  | running
  | settling (o : TaskResult ε α)
  | done (o : TaskResult ε α)
  | closed (o : TaskResult ε α)

namespace Stage

/-- The job that brings the call to the next stage. -/
def job (k : ℕ) : Stage ε α → Option (Job PromiseRef Reaction (TaskResult ε α))
  | ready => some (.react (.start k) (.ok none))
  | linking _ => some (.link (.task k) (.adopt k))
  | settling o => some (.react (.adopt k) o)
  | done o => some (.react (.proceed k) o)
  | _ => none

/-- How the task was settled, at the stages at which it was. -/
def outcome : Stage ε α → Option (TaskResult ε α)
  | active o | linking o => o
  | settling o | done o | closed o => some o
  | _ => none

/-- The promise of the task, as it is at each stage. -/
def task (k : ℕ) : Stage ε α → PromiseState Reaction (TaskResult ε α)
  | active (some o) | linking (some o) | settling o | done o | closed o => .settled o
  | running => .pending [.adopt k]
  | _ => .pending []

/-- The promise of the call, as it is at each stage. -/
def run (k : ℕ) : Stage ε α → PromiseState Reaction (TaskResult ε α)
  | absent => .pending []
  | done o | closed o => .settled o
  | _ => .pending [.proceed k]

/-- The queue has come to the call, so that its task may start. -/
def Arrived : Stage ε α → Prop
  | absent | waiting _ => False
  | _ => True

/-- The task was started, at whatever stage it is since. -/
def Started : Stage ε α → Prop
  | absent | waiting _ | ready => False
  | _ => True

/-- The queue has gone on to the next call. -/
def Over : Stage ε α → Prop
  | closed _ => True
  | _ => False

/-- How many jobs the call may still need. -/
def work : Stage ε α → ℕ
  | waiting _ | ready => 6
  | active _ => 5
  | linking _ => 4
  | running => 3
  | settling _ => 2
  | done _ => 1
  | absent | closed _ => 0

/-- A job belongs to one call. -/
theorem job_inj {i k : ℕ} {st st' : Stage ε α} {x : Job PromiseRef Reaction (TaskResult ε α)}
    (h : st.job i = some x) (h' : st'.job k = some x) : i = k := by
  cases st <;> cases h <;> cases st' <;> cases h' <;> rfl

/-- The promise of a task is settled when the task is. -/
theorem task_of_outcome {k : ℕ} {st : Stage ε α} {o : TaskResult ε α} (h : st.outcome = some o) :
    st.task k = .settled o := by
  cases st <;> cases h <;> rfl

/-- A call that is over has an outcome. -/
theorem exists_outcome {st : Stage ε α} (h : st.Over) : ∃ o, st.outcome = some o := by
  cases st with
  | closed o => exact ⟨o, rfl⟩
  | _ => exact h.elim

end Stage

/-- The calls of one account are served one after the other: each waits for the one before it, and
the queue of the account is the tail of the last. -/
structure Chained (calls : List String) (queues : JsMap String PromiseRef)
    (stage : ℕ → Stage ε α) : Prop where
  absent : ∀ k, stage k = .absent ↔ calls.length ≤ k
  waits : ∀ k p, stage k = .waiting p → p < k ∧ calls[p]? = calls[k]? ∧
    (∀ j, p < j → j < k → calls[j]? ≠ calls[k]?) ∧ ¬ (stage p).Over
  follows : ∀ k, (stage k).Arrived → ∀ j < k, calls[j]? = calls[k]? → (stage j).Over
  queue : ∀ a ref, queues.get a = some ref → ∃ k, ref = .tail k ∧ calls[k]? = some a ∧
    ∀ j, k < j → calls[j]? ≠ some a
  fresh : ∀ a, queues.get a = none → a ∉ calls

/-- The promises and the jobs of the host are those of the stages: what a call is at tells its
promises, and its job if it has one. -/
structure Hosted (n : ℕ) (host : Host PromiseRef Reaction (TaskResult ε α))
    (stage : ℕ → Stage ε α) : Prop where
  resolved : ∀ k, n ≤ k → host.promise (.resolved k) = .pending []
  task : ∀ k, host.promise (.task k) = (stage k).task k
  run : ∀ k, host.promise (.run k) = (stage k).run k
  closed : ∀ k, (stage k).Over → host.promise (.tail k) = .settled (.ok none)
  tail : ∀ k, ¬ (stage k).Over → ∃ reactions, host.promise (.tail k) = .pending reactions ∧
    reactions.Nodup ∧ ∀ r, r ∈ reactions ↔ ∃ m, r = .start m ∧ stage m = .waiting k
  jobs : Owned (fun k => (stage k).job k) host.jobs

/-- The history, and the task that is being executed, are those of the stages: a task is in the log
where its call has come so far. -/
structure Logged (active : Option ℕ) (log : List (TaskEvent ε α)) (stage : ℕ → Stage ε α) :
    Prop where
  active : ∀ k, active = some k ↔ ∃ o, stage k = .active o
  started : ∀ k, .started k ∈ log ↔ (stage k).Started
  settled : ∀ k o, .settled k o ∈ log ↔ (stage k).outcome = some o

/-- **The invariant**: every call is at a stage, the queues chain the calls, the host has the
promises and jobs of the stages, and the log is theirs. -/
structure Staged (s : Submissions ε α) (stage : ℕ → Stage ε α) : Prop where
  chained : Chained s.calls s.queues stage
  hosted : Hosted s.calls.length s.host stage
  logged : Logged s.active s.log stage

/-! ### One call moves on -/

section Moves

variable {calls : List String} {queues : JsMap String PromiseRef} {stage : ℕ → Stage ε α}
  {host : Host PromiseRef Reaction (TaskResult ε α)} {active : Option ℕ}
  {log : List (TaskEvent ε α)}
  {n k : ℕ} {st : Stage ε α}

variable (stage k st) in
/-- Another stage of one call leaves it to the others whether they are over. -/
theorem over_update (hover : ¬ (stage k).Over) (hst : ¬ st.Over) (i : ℕ) :
    (Function.update stage k st i).Over ↔ (stage i).Over := by
  by_cases hi : i = k
  · rw [hi, Function.update_self]
    exact ⟨fun h => absurd h hst, fun h => absurd h hover⟩
  · rw [Function.update_of_ne hi]

/-- A call that the queue has come to moves on, and the queue does not. -/
theorem Chained.move (h : Chained calls queues stage) (hk : (stage k).Arrived)
    (hover : ¬ (stage k).Over) (hst : st.Arrived) (hstover : ¬ st.Over) :
    Chained calls queues (Function.update stage k st) := by
  have habsent : stage k ≠ .absent := by
    intro heq
    rw [heq] at hk
    exact hk
  have hOver := over_update stage k st hover hstover
  refine ⟨fun i => ?_, fun i p hi => ?_, fun i hi j hj hcall => ?_, h.queue, h.fresh⟩
  · by_cases hik : i = k
    · subst hik
      rw [Function.update_self, ← h.absent]
      refine ⟨fun heq => ?_, fun heq => absurd heq habsent⟩
      rw [heq] at hst
      exact hst.elim
    · rw [Function.update_of_ne hik, h.absent]
  · have hik : i ≠ k := by
      rintro rfl
      rw [Function.update_self] at hi
      rw [hi] at hst
      exact hst
    rw [Function.update_of_ne hik] at hi
    rw [hOver]
    exact h.waits i p hi
  · rw [hOver]
    refine h.follows i ?_ j hj hcall
    by_cases hik : i = k
    · rwa [hik]
    · rwa [Function.update_of_ne hik] at hi

/-- The host, when a call moves on that does not wait and whose queue does not go on. -/
theorem Hosted.move (h : Hosted n host stage) {host' : Host PromiseRef Reaction (TaskResult ε α)}
    (hover : ¬ (stage k).Over) (hstover : ¬ st.Over) (hwait : ∀ p, stage k ≠ .waiting p)
    (hstwait : ∀ p, st ≠ .waiting p)
    (hresolved : ∀ i, host'.promise (.resolved i) = host.promise (.resolved i))
    (htail : ∀ i, host'.promise (.tail i) = host.promise (.tail i))
    (htask : ∀ i ≠ k, host'.promise (.task i) = host.promise (.task i))
    (hrun : ∀ i ≠ k, host'.promise (.run i) = host.promise (.run i))
    (htaskk : host'.promise (.task k) = st.task k) (hrunk : host'.promise (.run k) = st.run k)
    (hjobs : Owned (Function.update (fun i => (stage i).job i) k (st.job k)) host'.jobs) :
    Hosted n host' (Function.update stage k st) := by
  have hOver := over_update stage k st hover hstover
  have hwaiting : ∀ i p, Function.update stage k st i = .waiting p ↔ stage i = .waiting p :=
    fun i p => by
      by_cases hi : i = k
      · rw [hi, Function.update_self]
        exact ⟨fun h => absurd h (hstwait p), fun h => absurd h (hwait p)⟩
      · rw [Function.update_of_ne hi]
  refine ⟨fun i hi => (hresolved i).trans (h.resolved i hi), fun i => ?_, fun i => ?_,
    fun i hi => (htail i).trans (h.closed i ((hOver i).mp hi)), fun i hi => ?_, ?_⟩
  · by_cases hi : i = k
    · rw [hi, Function.update_self, htaskk]
    · rw [Function.update_of_ne hi, htask i hi, h.task]
  · by_cases hi : i = k
    · rw [hi, Function.update_self, hrunk]
    · rw [Function.update_of_ne hi, hrun i hi, h.run]
  · obtain ⟨reactions, hp, hnodup, hmem⟩ := h.tail i fun hi' => hi ((hOver i).mpr hi')
    refine ⟨reactions, (htail i).trans hp, hnodup, fun r => ?_⟩
    simp only [hmem, hwaiting]
  · have hcongr : (fun i => (Function.update stage k st i).job i) =
        Function.update (fun i => (stage i).job i) k (st.job k) := by
      funext i
      by_cases hi : i = k
      · rw [hi, Function.update_self, Function.update_self]
      · rw [Function.update_of_ne hi, Function.update_of_ne hi]
    rw [hcongr]
    exact hjobs

/-- The history is not changed by a step that starts and settles nothing. -/
theorem Logged.move (h : Logged active log stage) {active' : Option ℕ}
    (hactive : ∀ i, active' = some i ↔ ∃ o, Function.update stage k st i = .active o)
    (hstarted : st.Started ↔ (stage k).Started) (houtcome : st.outcome = (stage k).outcome) :
    Logged active' log (Function.update stage k st) := by
  refine ⟨hactive, fun i => ?_, fun i o => ?_⟩
  · rw [h.started]
    by_cases hi : i = k
    · rw [hi, Function.update_self, hstarted]
    · rw [Function.update_of_ne hi]
  · rw [h.settled]
    by_cases hi : i = k
    · rw [hi, Function.update_self, houtcome]
    · rw [Function.update_of_ne hi]

/-- The history is that of any stages that have started and settled the same. -/
theorem Logged.congr (h : Logged active log stage) {stage' : ℕ → Stage ε α}
    (hactive : ∀ i o, stage' i = .active o ↔ stage i = .active o)
    (hstarted : ∀ i, (stage' i).Started ↔ (stage i).Started)
    (houtcome : ∀ i, (stage' i).outcome = (stage i).outcome) : Logged active log stage' :=
  ⟨fun i => (h.active i).trans (exists_congr fun o => (hactive i o).symm),
    fun i => (h.started i).trans (hstarted i).symm, fun i o => by rw [h.settled, houtcome]⟩

/-- A task is started, which the log notes. -/
theorem Logged.start (h : Logged none log stage) (hk : stage k = .ready) :
    Logged (some k) (log ++ [.started k]) (Function.update stage k (.active none)) := by
  refine ⟨fun i => ?_, fun i => ?_, fun i o => ?_⟩
  · by_cases hi : i = k
    · rw [hi, Function.update_self]
      exact ⟨fun _ => ⟨none, rfl⟩, fun _ => rfl⟩
    · rw [Function.update_of_ne hi, ← h.active]
      exact ⟨fun heq => absurd (Option.some.inj heq).symm hi, fun heq => (nomatch heq)⟩
  · rw [List.mem_append, h.started, List.mem_singleton, TaskEvent.started.injEq]
    by_cases hi : i = k
    · rw [hi, Function.update_self]
      exact ⟨fun _ => trivial, fun _ => .inr rfl⟩
    · rw [Function.update_of_ne hi]
      exact ⟨fun hor => hor.resolve_right hi, .inl⟩
  · have hno : TaskEvent.settled i o ∉ [(TaskEvent.started k : TaskEvent ε α)] := by simp
    rw [List.mem_append, or_iff_left hno, h.settled]
    by_cases hi : i = k
    · rw [hi, Function.update_self, hk]
      rfl
    · rw [Function.update_of_ne hi]

/-- A task is settled, which the log notes after its start. -/
theorem Logged.settle (h : Logged active log stage) {active' : Option ℕ} {o : TaskResult ε α}
    (hactive : ∀ i, active' = some i ↔ ∃ o, Function.update stage k st i = .active o)
    (hstarted : st.Started ↔ (stage k).Started) (hnone : (stage k).outcome = none)
    (houtcome : st.outcome = some o) :
    Logged active' (log ++ [.settled k o]) (Function.update stage k st) := by
  refine ⟨hactive, fun i => ?_, fun i o' => ?_⟩
  · have hno : TaskEvent.started i ∉ [(TaskEvent.settled k o : TaskEvent ε α)] := by simp
    rw [List.mem_append, or_iff_left hno, h.started]
    by_cases hi : i = k
    · rw [hi, Function.update_self, hstarted]
    · rw [Function.update_of_ne hi]
  · rw [List.mem_append, h.settled, List.mem_singleton, TaskEvent.settled.injEq]
    by_cases hi : i = k
    · rw [hi, Function.update_self, hnone, houtcome, Option.some.injEq]
      exact ⟨fun hor => (hor.resolve_left fun h => (nomatch h)).2.symm, fun heq =>
        .inr ⟨rfl, heq.symm⟩⟩
    · rw [Function.update_of_ne hi]
      exact ⟨fun hor => hor.resolve_right fun h => hi h.1, .inl⟩

/-- The task that is being executed, when a call moves on that is not it. -/
theorem Logged.same_active (h : Logged active log stage) (hk : ∀ o, stage k ≠ .active o)
    (hst : ∀ o, st ≠ .active o) (i : ℕ) :
    active = some i ↔ ∃ o, Function.update stage k st i = .active o := by
  rw [h.active]
  by_cases hi : i = k
  · rw [hi, Function.update_self]
    exact ⟨fun ⟨o, ho⟩ => absurd ho (hk o), fun ⟨o, ho⟩ => absurd ho (hst o)⟩
  · rw [Function.update_of_ne hi]

/-- No task is being executed when the one that is moves on. -/
theorem Logged.inactive (h : Logged active log stage) (hactive : active = some k)
    (hst : ∀ o, st ≠ .active o) (i : ℕ) :
    none = some i ↔ ∃ o, Function.update stage k st i = .active o := by
  refine ⟨fun heq => (nomatch heq), fun ⟨o, ho⟩ => ?_⟩
  by_cases hi : i = k
  · rw [hi, Function.update_self] at ho
    exact absurd ho (hst o)
  · rw [Function.update_of_ne hi] at ho
    exact absurd (Option.some.inj (((h.active i).mpr ⟨o, ho⟩).symm.trans hactive)) hi

/-- The work of the calls gets less when a call moves on. -/
theorem work_update_lt (hk : k < n) (hst : st.work < (stage k).work) :
    ∑ i ∈ Finset.range n, (Function.update stage k st i).work <
      ∑ i ∈ Finset.range n, (stage i).work := by
  refine Finset.sum_lt_sum (fun i _ => ?_) ⟨k, Finset.mem_range.mpr hk, ?_⟩
  · by_cases hi : i = k
    · rw [hi, Function.update_self]
      exact hst.le
    · rw [Function.update_of_ne hi]
  · rwa [Function.update_self]

end Moves

/-! ### The steps -/

section Steps

variable {s : Submissions ε α} {stage : ℕ → Stage ε α} {k : ℕ} {o : TaskResult ε α}
  {x : Job PromiseRef Reaction (TaskResult ε α)}
  {jobs : List (Job PromiseRef Reaction (TaskResult ε α))}

/-- The work that is left, summed over the calls: the jobs that each still takes. -/
def workLeft (s : Submissions ε α) (stage : ℕ → Stage ε α) : ℕ :=
  ∑ i ∈ Finset.range s.calls.length, (stage i).work

/-- A call that is there has a number. -/
theorem Chained.lt_length {calls : List String} {queues : JsMap String PromiseRef}
    (h : Chained calls queues stage) (hk : stage k ≠ .absent) : k < calls.length := by
  by_contra hge
  exact hk ((h.absent k).mpr (Nat.le_of_not_lt hge))

/-- The first job belongs to a call, at some stage. -/
theorem Staged.owner (h : Staged s stage) (hjobs : s.host.jobs = x :: jobs) :
    ∃ i, (stage i).job i = some x :=
  (h.hosted.jobs.mem_iff x).mp (hjobs ▸ List.mem_cons_self)

/-- The jobs are those of the stages, once each. -/
theorem Staged.owned (h : Staged s stage) (hjobs : s.host.jobs = x :: jobs) :
    Owned (fun i => (stage i).job i) (x :: jobs) := hjobs ▸ h.hosted.jobs

/-- A task is started when the host takes its job, as nothing else runs then. -/
theorem Staged.start (h : Staged s stage) (hactive : s.active = none)
    (hjobs : s.host.jobs = .react (.start k) o :: jobs) :
    ∃ stage', Staged (perform (.react (.start k) o) { s with host := { s.host with jobs } })
        stage' ∧ workLeft s stage' < workLeft s stage := by
  obtain ⟨i, hi⟩ := h.owner hjobs
  have hready : stage i = .ready ∧ i = k := by
    cases hst : stage i <;> rw [hst] at hi <;> cases hi
    exact ⟨rfl, rfl⟩
  obtain ⟨hready, rfl⟩ := hready
  have hlt : i < s.calls.length := h.chained.lt_length (by rw [hready]; nofun)
  refine ⟨Function.update stage i (.active none), ⟨?_, ?_, ?_⟩,
    work_update_lt hlt (by rw [hready]; exact Nat.lt_succ_self 5)⟩
  · exact h.chained.move (by rw [hready]; trivial) (by rw [hready]; exact id) trivial id
  · refine h.hosted.move (by rw [hready]; exact id) id (by rw [hready]; nofun) nofun (fun _ => rfl)
      (fun _ => rfl) (fun _ _ => rfl) (fun _ _ => rfl) ?_ ?_ ((h.owned hjobs).take hi)
    · exact (h.hosted.task i).trans (by rw [hready]; rfl)
    · exact (h.hosted.run i).trans (by rw [hready]; rfl)
  · exact (hactive ▸ h.logged).start hready

/-- The promise of a call is linked to that of its task. -/
theorem Staged.linked {ref : PromiseRef} {r : Reaction} (h : Staged s stage)
    (hjobs : s.host.jobs = .link ref r :: jobs) :
    ∃ stage', Staged (perform (.link ref r) { s with host := { s.host with jobs } }) stage' ∧
      workLeft s stage' < workLeft s stage := by
  obtain ⟨i, hi⟩ := h.owner hjobs
  have hlinking : ∃ o, stage i = .linking o ∧ ref = .task i ∧ r = .adopt i := by
    cases hst : stage i <;> rw [hst] at hi <;> cases hi
    exact ⟨_, rfl, rfl, rfl⟩
  obtain ⟨o, hlinking, rfl, rfl⟩ := hlinking
  have hlt : i < s.calls.length := h.chained.lt_length (by rw [hlinking]; nofun)
  have harrived : (stage i).Arrived := by rw [hlinking]; trivial
  have hover : ¬ (stage i).Over := by rw [hlinking]; exact id
  have hwait : ∀ p, stage i ≠ .waiting p := by rw [hlinking]; nofun
  have hinactive : ∀ o, stage i ≠ .active o := by rw [hlinking]; nofun
  have htask := h.hosted.task i
  have hrun := h.hosted.run i
  rw [hlinking] at htask hrun
  cases o with
  | none =>
      refine ⟨Function.update stage i .running, ⟨h.chained.move harrived hover trivial id, ?_, ?_⟩,
        work_update_lt hlt (by rw [hlinking]; exact Nat.lt_succ_self 3)⟩
      · change Hosted s.calls.length (Host.react (.task i) (.adopt i) ⟨s.host.promise, jobs⟩) _
        have hreact := Host.react_pending (h := ⟨s.host.promise, jobs⟩) (r := .adopt i) htask
        refine h.hosted.move hover id hwait nofun
          (fun _ => Host.promise_react_of_ne (by nofun))
          (fun _ => Host.promise_react_of_ne (by nofun))
          (fun j hj => Host.promise_react_of_ne fun heq => hj (PromiseRef.task.inj heq))
          (fun _ _ => Host.promise_react_of_ne (by nofun)) ?_
          ((Host.promise_react_of_ne (by nofun)).trans hrun) ?_
        · rw [hreact]
          exact Function.update_self _ _ _
        · rw [hreact]
          exact (h.owned hjobs).take hi
      · exact h.logged.move (h.logged.same_active hinactive nofun) (by rw [hlinking]; exact .rfl)
          (by rw [hlinking]; rfl)
  | some o =>
      refine ⟨Function.update stage i (.settling o),
        ⟨h.chained.move harrived hover trivial id, ?_, ?_⟩,
        work_update_lt hlt (by rw [hlinking]; exact Nat.lt_of_succ_lt (Nat.lt_succ_self 3))⟩
      · change Hosted s.calls.length (Host.react (.task i) (.adopt i) ⟨s.host.promise, jobs⟩) _
        rw [Host.react_settled (h := ⟨s.host.promise, jobs⟩) htask]
        refine h.hosted.move hover id hwait nofun (fun _ => rfl) (fun _ => rfl) (fun _ _ => rfl)
          (fun _ _ => rfl) htask hrun ((h.owned hjobs).pass hi fun j hj hj' => hj ?_)
        exact Stage.job_inj hj' (show (Stage.settling o).job i = some _ from rfl)
      · exact h.logged.move (h.logged.same_active hinactive nofun) (by rw [hlinking]; exact .rfl)
          (by rw [hlinking]; rfl)

/-- The promise of a call is settled as that of its task. -/
theorem Staged.adopted (h : Staged s stage) (hjobs : s.host.jobs = .react (.adopt k) o :: jobs) :
    ∃ stage', Staged (perform (.react (.adopt k) o) { s with host := { s.host with jobs } })
        stage' ∧ workLeft s stage' < workLeft s stage := by
  obtain ⟨i, hi⟩ := h.owner hjobs
  have hsettling : stage i = .settling o ∧ i = k := by
    cases hst : stage i <;> rw [hst] at hi <;> cases hi
    exact ⟨rfl, rfl⟩
  obtain ⟨hsettling, rfl⟩ := hsettling
  have hlt : i < s.calls.length := h.chained.lt_length (by rw [hsettling]; nofun)
  have hover : ¬ (stage i).Over := by rw [hsettling]; exact id
  have htask := h.hosted.task i
  have hrun := h.hosted.run i
  rw [hsettling] at htask hrun
  refine ⟨Function.update stage i (.done o),
    ⟨h.chained.move (by rw [hsettling]; trivial) hover trivial id, ?_, ?_⟩,
    work_update_lt hlt (by rw [hsettling]; exact Nat.lt_succ_self 1)⟩
  · change Hosted s.calls.length (Host.settle (.run i) o ⟨s.host.promise, jobs⟩) _
    have hsettle := Host.settle_pending (h := ⟨s.host.promise, jobs⟩) (o := o) hrun
    refine h.hosted.move hover id (by rw [hsettling]; nofun) nofun
      (fun _ => Host.promise_settle_of_ne (by nofun))
      (fun _ => Host.promise_settle_of_ne (by nofun))
      (fun _ _ => Host.promise_settle_of_ne (by nofun))
      (fun j hj => Host.promise_settle_of_ne fun heq => hj (PromiseRef.run.inj heq))
      ((Host.promise_settle_of_ne (by nofun)).trans htask) ?_ ?_
    · rw [hsettle]
      exact Function.update_self _ _ _
    · rw [hsettle]
      refine (h.owned hjobs).pass hi fun j hj hj' => hj ?_
      exact Stage.job_inj hj' (show (Stage.done o).job i = some _ from rfl)
  · exact h.logged.move (h.logged.same_active (by rw [hsettling]; nofun) nofun)
      (by rw [hsettling]; exact .rfl) (by rw [hsettling]; rfl)

/-- The queue goes on after a call: the call that waits for it, if any, is ready. -/
def proceed (k : ℕ) (o : TaskResult ε α) (stage : ℕ → Stage ε α) (i : ℕ) : Stage ε α :=
  if i = k then .closed o
  else match stage i with
    | .waiting p => if p = k then .ready else .waiting p
    | st => st

/-- The call that is over is closed. -/
theorem proceed_self : proceed k o stage k = .closed o := if_pos rfl

/-- The call that waited for it is ready. -/
theorem proceed_waiting {m : ℕ} (hm : m ≠ k) (h : stage m = .waiting k) :
    proceed k o stage m = .ready := by
  rw [proceed, if_neg hm, h]
  exact if_pos rfl

/-- The others stay at their stages. -/
theorem proceed_other {i : ℕ} (hi : i ≠ k) (h : stage i ≠ .waiting k) :
    proceed k o stage i = stage i := by
  rw [proceed, if_neg hi]
  split
  next p hp =>
    have hne : p ≠ k := fun heq => h (heq ▸ hp)
    rw [if_neg hne]
    exact hp.symm
  next => rfl

/-- What does not tell a call that is done from one that is over, nor a call that waits from one
that is ready, is as it was. -/
theorem proceed_congr {β : Sort*} (f : Stage ε α → β) (hk : stage k = .done o)
    (hover : f (.closed o) = f (.done o)) (hready : f .ready = f (.waiting k)) (i : ℕ) :
    f (proceed k o stage i) = f (stage i) := by
  by_cases hi : i = k
  · rw [hi, proceed_self, hk, hover]
  · by_cases hwait : stage i = .waiting k
    · rw [proceed_waiting hi hwait, hwait, hready]
    · rw [proceed_other hi hwait]

/-- At most one call waits for another, since each has one tail. -/
theorem Chained.waiting_unique {calls : List String} {queues : JsMap String PromiseRef}
    (h : Chained calls queues stage) {m m' : ℕ} (hm : stage m = .waiting k)
    (hm' : stage m' = .waiting k) : m = m' := by
  obtain ⟨hlt, hcall, hbetween, -⟩ := h.waits m k hm
  obtain ⟨hlt', hcall', hbetween', -⟩ := h.waits m' k hm'
  rcases Nat.lt_trichotomy m m' with hmm | hmm | hmm
  · exact absurd (hcall.symm.trans hcall') (hbetween' m hlt hmm)
  · exact hmm
  · exact absurd (hcall'.symm.trans hcall) (hbetween m' hlt' hmm)

/-- The queues chain the calls after one has gone on. -/
theorem Chained.proceed {calls : List String} {queues : JsMap String PromiseRef}
    (h : Chained calls queues stage) (hk : stage k = .done o) :
    Chained calls queues (proceed k o stage) := by
  have hover : ∀ i, (stage i).Over → (Submissions.proceed k o stage i).Over := fun i hi => by
    by_cases hik : i = k
    · rw [hik, proceed_self]
      trivial
    · rw [proceed_other hik fun heq => by rw [heq] at hi; exact hi]
      exact hi
  refine ⟨fun i => ?_, fun i p hi => ?_, fun i hi j hj hcall => ?_, h.queue, h.fresh⟩
  · rw [← h.absent]
    by_cases hik : i = k
    · rw [hik, proceed_self, hk]
      exact ⟨fun heq => (nomatch heq), fun heq => (nomatch heq)⟩
    · by_cases hwait : stage i = .waiting k
      · rw [proceed_waiting hik hwait, hwait]
        exact ⟨fun heq => (nomatch heq), fun heq => (nomatch heq)⟩
      · rw [proceed_other hik hwait]
  · have hik : i ≠ k := by
      rintro rfl
      rw [proceed_self] at hi
      cases hi
    have hwait : stage i ≠ .waiting k := fun heq => by
      rw [proceed_waiting hik heq] at hi
      cases hi
    rw [proceed_other hik hwait] at hi
    obtain ⟨hlt, hcall, hbetween, hpending⟩ := h.waits i p hi
    have hpk : p ≠ k := fun heq => hwait (heq ▸ hi)
    refine ⟨hlt, hcall, hbetween, fun hp => hpending ?_⟩
    by_cases hwait' : stage p = .waiting k
    · rw [proceed_waiting hpk hwait'] at hp
      exact hp.elim
    · rwa [proceed_other hpk hwait'] at hp
  · by_cases hik : i = k
    · subst hik
      exact hover j (h.follows i (by rw [hk]; trivial) j hj hcall)
    · by_cases hwait : stage i = .waiting k
      · -- the call that waited: everything before the one it waited for is over, and so is that one
        obtain ⟨hlt, hsame, hbetween, -⟩ := h.waits i k hwait
        rcases Nat.lt_trichotomy j k with hjk | rfl | hjk
        · exact hover j (h.follows k (by rw [hk]; trivial) j hjk (hcall.trans hsame.symm))
        · rw [proceed_self]
          trivial
        · exact absurd hcall (hbetween j hjk hj)
      · rw [proceed_other hik hwait] at hi
        exact hover j (h.follows i hi j hj hcall)

/-- The reactions to the promise that the queue stores: the start of the call that waits. -/
theorem Chained.reactions {calls : List String} {queues : JsMap String PromiseRef}
    (h : Chained calls queues stage) {reactions : List Reaction} (hnodup : reactions.Nodup)
    (hmem : ∀ r, r ∈ reactions ↔ ∃ m, r = .start m ∧ stage m = .waiting k) :
    (reactions = [] ∧ ∀ m, stage m ≠ .waiting k) ∨
      ∃ m, stage m = .waiting k ∧ reactions = [.start m] := by
  cases reactions with
  | nil => exact .inl ⟨rfl, fun m hm => (nomatch (hmem (.start m)).mpr ⟨m, rfl, hm⟩)⟩
  | cons r reactions =>
      obtain ⟨m, rfl, hm⟩ := (hmem r).mp List.mem_cons_self
      refine .inr ⟨m, hm, congrArg _ (List.eq_nil_iff_forall_not_mem.mpr fun r' hr' => ?_)⟩
      obtain ⟨m', rfl, hm'⟩ := (hmem r').mp (List.mem_cons_of_mem _ hr')
      rw [h.waiting_unique hm' hm] at hr'
      exact (List.nodup_cons.mp hnodup).1 hr'

/-- Another call than the one that the queue goes on after: it is ready if it waited, and else it is
as it was. -/
theorem proceed_cases (o : TaskResult ε α) (stage : ℕ → Stage ε α) {j : ℕ} (hj : j ≠ k) :
    (stage j = .waiting k ∧ proceed k o stage j = .ready) ∨
      (stage j ≠ .waiting k ∧ proceed k o stage j = stage j) := by
  by_cases hwait : stage j = .waiting k
  · exact .inl ⟨hwait, proceed_waiting hj hwait⟩
  · exact .inr ⟨hwait, proceed_other hj hwait⟩

/-- Who waits for another call goes on waiting. -/
theorem proceed_eq_waiting_iff (hk : stage k = .done o) {j : ℕ} (hj : j ≠ k) (m : ℕ) :
    proceed k o stage m = .waiting j ↔ stage m = .waiting j := by
  by_cases hm : m = k
  · rw [hm, proceed_self, hk]
    exact ⟨fun heq => (nomatch heq), fun heq => (nomatch heq)⟩
  · rcases proceed_cases o stage hm with ⟨hwait, hready⟩ | ⟨-, hsame⟩
    · rw [hready, hwait]
      exact ⟨fun heq => (nomatch heq), fun heq => absurd (Stage.waiting.inj heq).symm hj⟩
    · rw [hsame]

/-- The other calls are over as before. -/
theorem proceed_over_iff {j : ℕ} (hj : j ≠ k) :
    (proceed k o stage j).Over ↔ (stage j).Over := by
  rcases proceed_cases o stage hj with ⟨hwait, hready⟩ | ⟨-, hsame⟩
  · rw [hready, hwait]
    exact Iff.rfl
  · rw [hsame]

/-- The jobs, when nobody waits: the one of the call is gone. -/
theorem job_proceed_of_unawaited (hno : ∀ m, stage m ≠ .waiting k) :
    (fun j => (proceed k o stage j).job j) =
      Function.update (fun j => (stage j).job j) k none := by
  funext j
  by_cases hj : j = k
  · rw [hj, proceed_self, Function.update_self]
    rfl
  · rw [Function.update_of_ne hj, proceed_other hj (hno j)]

/-- The jobs, when a call waits: it is started. -/
theorem Chained.job_proceed {calls : List String} {queues : JsMap String PromiseRef}
    (h : Chained calls queues stage) {m : ℕ} (hm : stage m = .waiting k) (hmk : m ≠ k) :
    (fun j => (Submissions.proceed k o stage j).job j) =
      Function.update (Function.update (fun j => (stage j).job j) k none) m
        (some (.react (.start m) (.ok none))) := by
  funext j
  by_cases hj : j = k
  · rw [hj, proceed_self, Function.update_of_ne hmk.symm, Function.update_self]
    rfl
  · by_cases hjm : j = m
    · rw [hjm, Function.update_self, proceed_waiting hmk hm]
      rfl
    · rw [Function.update_of_ne hjm, Function.update_of_ne hj, proceed_other hj
        fun hwait => hjm (h.waiting_unique hwait hm)]

/-- The jobs when the queue goes on: the reactions to the promise that it stores have come. -/
theorem Chained.owned_proceed {calls : List String} {queues : JsMap String PromiseRef}
    (h : Chained calls queues stage) (hk : stage k = .done o)
    (hjobs : Owned (fun i => (stage i).job i) (x :: jobs)) (hx : (stage k).job k = some x)
    {reactions : List Reaction} (hnodup : reactions.Nodup)
    (hmem : ∀ r, r ∈ reactions ↔ ∃ m, r = .start m ∧ stage m = .waiting k) :
    Owned (fun j => (Submissions.proceed k o stage j).job j)
      (jobs ++ reactions.map fun r => .react r (.ok none)) := by
  rcases h.reactions hnodup hmem with ⟨rfl, hno⟩ | ⟨m, hm, rfl⟩
  · rw [List.map_nil, List.append_nil, job_proceed_of_unawaited hno]
    exact hjobs.take hx
  · have hmk : m ≠ k := by
      rintro rfl
      rw [hk] at hm
      cases hm
    rw [h.job_proceed hm hmk]
    refine (hjobs.take hx).give ?_ fun j hj => ?_
    · rw [Function.update_of_ne hmk, hm]
      rfl
    · by_cases hjk : j = k
      · rw [hjk, Function.update_self] at hj
        cases hj
      · rw [Function.update_of_ne hjk] at hj
        obtain rfl := Stage.job_inj hj (show (Stage.ready).job m = some _ from rfl)
        rw [hm] at hj
        cases hj

/-- The host when the queue goes on: the promise that it stores is settled. -/
theorem Hosted.proceed {n : ℕ} {host : Host PromiseRef Reaction (TaskResult ε α)}
    (h : Hosted n host stage) (hk : stage k = .done o) {reactions : List Reaction}
    (hp : host.promise (.tail k) = .pending reactions)
    (hjobs : Owned (fun j => (Submissions.proceed k o stage j).job j)
      (jobs ++ reactions.map fun r => .react r (.ok none))) :
    Hosted n (Host.settle (.tail k) (.ok none) ⟨host.promise, jobs⟩)
      (Submissions.proceed k o stage) := by
  have hsettle := Host.settle_pending (h := ⟨host.promise, jobs⟩) (o := .ok none) hp
  refine ⟨fun j hj => (Host.promise_settle_of_ne (by nofun)).trans (h.resolved j hj),
    fun j => (Host.promise_settle_of_ne (by nofun)).trans ((h.task j).trans
      (proceed_congr (Stage.task j) hk rfl rfl j).symm),
    fun j => (Host.promise_settle_of_ne (by nofun)).trans ((h.run j).trans
      (proceed_congr (Stage.run j) hk rfl rfl j).symm),
    fun j hj => ?_, fun j hj => ?_, ?_⟩
  · by_cases hjk : j = k
    · rw [hjk, hsettle]
      exact Function.update_self _ _ _
    · exact (Host.promise_settle_of_ne fun heq => hjk (PromiseRef.tail.inj heq)).trans
        (h.closed j ((proceed_over_iff hjk).mp hj))
  · have hjk : j ≠ k := by
      rintro rfl
      rw [proceed_self] at hj
      exact hj trivial
    obtain ⟨reactions', hp', hnodup', hmem'⟩ := h.tail j fun hover =>
      hj ((proceed_over_iff hjk).mpr hover)
    refine ⟨reactions', (Host.promise_settle_of_ne fun heq =>
      hjk (PromiseRef.tail.inj heq)).trans hp', hnodup', fun r => ?_⟩
    simp only [hmem', proceed_eq_waiting_iff hk hjk]
  · rw [hsettle]
    exact hjobs

/-- The work of the calls gets less when the queue goes on. -/
theorem work_proceed_lt {n : ℕ} (hk : stage k = .done o) (hlt : k < n) :
    ∑ i ∈ Finset.range n, (proceed k o stage i).work <
      ∑ i ∈ Finset.range n, (stage i).work := by
  refine Finset.sum_lt_sum (fun j _ => ?_) ⟨k, Finset.mem_range.mpr hlt, ?_⟩
  · by_cases hj : j = k
    · rw [hj, proceed_self]
      exact Nat.zero_le _
    · rcases proceed_cases o stage hj with ⟨hwait, hready⟩ | ⟨-, hsame⟩
      · rw [hready, hwait]
        exact le_rfl
      · rw [hsame]
  · rw [proceed_self, hk]
    exact Nat.zero_lt_one

/-- The queue goes on: the call is closed, and the one that waits for it is ready, with the job of
its start. -/
theorem Staged.proceeds (h : Staged s stage)
    (hjobs : s.host.jobs = .react (.proceed k) o :: jobs) :
    ∃ stage', Staged (perform (.react (.proceed k) o) { s with host := { s.host with jobs } })
        stage' ∧ workLeft s stage' < workLeft s stage := by
  obtain ⟨i, hi⟩ := h.owner hjobs
  have hdone : stage i = .done o ∧ i = k := by
    cases hst : stage i <;> rw [hst] at hi <;> cases hi
    exact ⟨rfl, rfl⟩
  obtain ⟨hdone, rfl⟩ := hdone
  have hlt : i < s.calls.length := h.chained.lt_length (by rw [hdone]; nofun)
  obtain ⟨reactions, hp, hnodup, hmem⟩ := h.hosted.tail i (by rw [hdone]; exact id)
  have howned := h.chained.owned_proceed hdone (h.owned hjobs) hi hnodup hmem
  refine ⟨proceed i o stage, ⟨h.chained.proceed hdone, h.hosted.proceed hdone hp howned, ?_⟩,
    work_proceed_lt hdone hlt⟩
  refine h.logged.congr (fun j o' => ?_) (fun j => ?_)
    fun j => proceed_congr Stage.outcome hdone rfl rfl j
  · exact Iff.of_eq (proceed_congr (fun st => st = .active o') hdone (by simp) (by simp) j)
  · exact Iff.of_eq (proceed_congr Stage.Started hdone rfl rfl j)

/-- The function of a task returns with a promise, which the call will adopt. -/
theorem Staged.goesOn (h : Staged s stage) (hactive : s.active = some k) :
    ∃ stage', Staged (s.goesOn k) stage' ∧ workLeft s stage' < workLeft s stage := by
  obtain ⟨o, hk⟩ := (h.logged.active k).mp hactive
  have hlt : k < s.calls.length := h.chained.lt_length (by rw [hk]; nofun)
  have htask := h.hosted.task k
  have hrun := h.hosted.run k
  rw [hk] at htask hrun
  refine ⟨Function.update stage k (.linking o), ⟨?_, ?_, ?_⟩,
    work_update_lt hlt (by rw [hk]; exact Nat.lt_succ_self 4)⟩
  · exact h.chained.move (by rw [hk]; trivial) (by rw [hk]; exact id) trivial id
  · refine h.hosted.move (by rw [hk]; exact id) id (by rw [hk]; nofun) nofun (fun _ => rfl)
      (fun _ => rfl) (fun _ _ => rfl) (fun _ _ => rfl) ?_ hrun
      (h.hosted.jobs.give (by rw [hk]; rfl) fun i hi => ?_)
    · cases o with
      | none => exact htask
      | some o => exact htask
    · obtain rfl := Stage.job_inj hi (show (Stage.linking o).job k = some _ from rfl)
      rw [hk] at hi
      cases hi
  · exact h.logged.move (h.logged.inactive hactive nofun) (by rw [hk]; exact .rfl) (by rw [hk]; rfl)

/-- What the host does by itself keeps the invariant, and leaves less work. -/
theorem Staged.internal {s' : Submissions ε α} (h : Staged s stage) (hs : Internal s s') :
    ∃ stage', Staged s' stage' ∧ workLeft s stage' < workLeft s stage := by
  cases hs with
  | goesOn hactive => exact h.goesOn hactive
  | @job job jobs hactive hjobs =>
      cases job with
      | link ref r => exact h.linked hjobs
      | react r o =>
          cases r with
          | start k => exact h.start hactive hjobs
          | adopt k => exact h.adopted hjobs
          | proceed k => exact h.proceeds hjobs

/-- The function of a task throws, and the invariant is kept. -/
theorem Staged.raises (h : Staged s stage) (e : ε) (hactive : s.active = some k)
    (hpending : ∀ o, s.host.promise (.task k) ≠ .settled o) :
    ∃ stage', Staged (s.raises k e) stage' := by
  obtain ⟨o, hk⟩ := (h.logged.active k).mp hactive
  have htask := h.hosted.task k
  have hrun := h.hosted.run k
  rw [hk] at htask hrun
  obtain rfl : o = none := by
    cases o with
    | none => rfl
    | some o => exact absurd htask (hpending o)
  have hsettle := Host.settle_pending (o := .error e) htask
  have hrun' : (s.host.settle (.task k) (.error e)).promise (.run k) = .pending [.proceed k] :=
    (Host.promise_settle_of_ne (by nofun)).trans hrun
  have hsettle' := Host.settle_pending (o := .error e) hrun'
  refine ⟨Function.update stage k (.done (.error e)), ⟨?_, ?_, ?_⟩⟩
  · exact h.chained.move (by rw [hk]; trivial) (by rw [hk]; exact id) trivial id
  · refine h.hosted.move (by rw [hk]; exact id) id (by rw [hk]; nofun) nofun
      (fun _ => (Host.promise_settle_of_ne (by nofun)).trans (Host.promise_settle_of_ne (by nofun)))
      (fun _ => (Host.promise_settle_of_ne (by nofun)).trans (Host.promise_settle_of_ne (by nofun)))
      (fun i hi => (Host.promise_settle_of_ne (by nofun)).trans
        (Host.promise_settle_of_ne fun heq => hi (PromiseRef.task.inj heq)))
      (fun i hi => (Host.promise_settle_of_ne fun heq => hi (PromiseRef.run.inj heq)).trans
        (Host.promise_settle_of_ne (by nofun))) ?_ ?_ ?_
    · refine (Host.promise_settle_of_ne (by nofun)).trans ?_
      rw [hsettle]
      exact Function.update_self _ _ _
    · change ((s.host.settle (PromiseRef.task k) (.error e)).settle (PromiseRef.run k)
        (.error e)).promise (PromiseRef.run k) = .settled (.error e)
      rw [hsettle']
      exact Function.update_self _ _ _
    · change Owned _ ((s.host.settle (PromiseRef.task k) (.error e)).settle (PromiseRef.run k)
        (.error e)).jobs
      rw [hsettle', hsettle]
      simp only [List.map_nil, List.append_nil, List.map_cons]
      refine h.hosted.jobs.give (by rw [hk]; rfl) fun i hi => ?_
      obtain rfl := Stage.job_inj hi (show (Stage.done (.error e)).job k = some _ from rfl)
      rw [hk] at hi
      cases hi
  · exact h.logged.settle (h.logged.inactive hactive nofun) (by rw [hk]; exact .rfl)
      (by rw [hk]; rfl)
      rfl

/-- The promise of a task is settled, and the invariant is kept. -/
theorem Staged.settles (h : Staged s stage) (o : TaskResult ε α) (hstarted : .started k ∈ s.log)
    (hpending : ∀ o, s.host.promise (.task k) ≠ .settled o) :
    ∃ stage', Staged (s.settles k o) stage' := by
  have htask := h.hosted.task k
  have hrun := h.hosted.run k
  have hbegun := (h.logged.started k).mp hstarted
  -- the promise of the task, when nothing or the promise of the call reacts to it
  have hhosted : ∀ {st : Stage ε α} {reactions : List Reaction},
      s.host.promise (.task k) = .pending reactions → ¬ (stage k).Over → ¬ st.Over →
      (∀ p, stage k ≠ .waiting p) → (∀ p, st ≠ .waiting p) → st.task k = .settled o →
      st.run k = (stage k).run k →
      Owned (Function.update (fun i => (stage i).job i) k (st.job k))
        (s.host.jobs ++ reactions.map fun r => .react r o) →
      Hosted s.calls.length (s.host.settle (.task k) o) (Function.update stage k st) :=
    fun {st reactions} hp hover hstover hwait hstwait hst hsame hjobs => by
      have hsettle := Host.settle_pending (o := o) hp
      refine h.hosted.move hover hstover hwait hstwait
        (fun _ => Host.promise_settle_of_ne (by nofun))
        (fun _ => Host.promise_settle_of_ne (by nofun))
        (fun i hi => Host.promise_settle_of_ne fun heq => hi (PromiseRef.task.inj heq))
        (fun _ _ => Host.promise_settle_of_ne (by nofun)) ?_
        ((Host.promise_settle_of_ne (by nofun)).trans (hrun.trans hsame.symm)) ?_
      · rw [hsettle, hst]
        exact Function.update_self _ _ _
      · rw [hsettle]
        exact hjobs
  have hsamejob : ∀ {st : Stage ε α}, st.job k = (stage k).job k →
      Owned (Function.update (fun i => (stage i).job i) k (st.job k)) s.host.jobs := fun heq => by
    rw [heq, Function.update_eq_self k fun i => (stage i).job i]
    exact h.hosted.jobs
  cases hk : stage k with
  | absent => rw [hk] at hbegun; exact hbegun.elim
  | waiting p => rw [hk] at hbegun; exact hbegun.elim
  | ready => rw [hk] at hbegun; exact hbegun.elim
  | settling o' => rw [hk] at htask; exact absurd htask (hpending o')
  | done o' => rw [hk] at htask; exact absurd htask (hpending o')
  | closed o' => rw [hk] at htask; exact absurd htask (hpending o')
  | active o' =>
      rw [hk] at htask
      cases o' with
      | some o' => exact absurd htask (hpending o')
      | none =>
          refine ⟨Function.update stage k (.active (some o)), ⟨?_, ?_, ?_⟩⟩
          · exact h.chained.move (by rw [hk]; trivial) (by rw [hk]; exact id) trivial id
          · refine hhosted htask (by rw [hk]; exact id) id (by rw [hk]; nofun) nofun rfl
              (by rw [hk]; rfl) ?_
            rw [List.map_nil, List.append_nil]
            exact hsamejob (by rw [hk]; rfl)
          · refine h.logged.settle (fun i => ?_) (by rw [hk]; exact .rfl) (by rw [hk]; rfl) rfl
            refine (h.logged.active i).trans ?_
            by_cases hi : i = k
            · rw [hi, Function.update_self, hk]
              exact ⟨fun _ => ⟨_, rfl⟩, fun _ => ⟨_, rfl⟩⟩
            · rw [Function.update_of_ne hi]
  | linking o' =>
      rw [hk] at htask
      cases o' with
      | some o' => exact absurd htask (hpending o')
      | none =>
          refine ⟨Function.update stage k (.linking (some o)), ⟨?_, ?_, ?_⟩⟩
          · exact h.chained.move (by rw [hk]; trivial) (by rw [hk]; exact id) trivial id
          · refine hhosted htask (by rw [hk]; exact id) id (by rw [hk]; nofun) nofun rfl
              (by rw [hk]; rfl) ?_
            rw [List.map_nil, List.append_nil]
            exact hsamejob (by rw [hk]; rfl)
          · exact h.logged.settle (h.logged.same_active (by rw [hk]; nofun) nofun)
              (by rw [hk]; exact .rfl) (by rw [hk]; rfl) rfl
  | running =>
      rw [hk] at htask
      refine ⟨Function.update stage k (.settling o), ⟨?_, ?_, ?_⟩⟩
      · exact h.chained.move (by rw [hk]; trivial) (by rw [hk]; exact id) trivial id
      · refine hhosted htask (by rw [hk]; exact id) id (by rw [hk]; nofun) nofun rfl
          (by rw [hk]; rfl) ?_
        simp only [List.map_cons, List.map_nil]
        refine h.hosted.jobs.give (by rw [hk]; rfl) fun i hi => ?_
        obtain rfl := Stage.job_inj hi (show (Stage.settling o).job k = some _ from rfl)
        rw [hk] at hi
        cases hi
      · exact h.logged.settle (h.logged.same_active (by rw [hk]; nofun) nofun)
          (by rw [hk]; exact .rfl) (by rw [hk]; rfl) rfl

/-! ### A call -/

/-- A call is ready when everything before it on its account is over, or waits for the last one. -/
theorem Chained.append {calls : List String} {queues : JsMap String PromiseRef}
    (h : Chained calls queues stage) {account : String} {st : Stage ε α}
    (hst : (st = .ready ∧ ∀ j < calls.length, calls[j]? = some account → (stage j).Over) ∨
      ∃ p, st = .waiting p ∧ calls[p]? = some account ∧
        (∀ j, p < j → calls[j]? ≠ some account) ∧ ¬ (stage p).Over) :
    Chained (calls ++ [account]) (queues.set account (.tail calls.length))
      (Function.update stage calls.length st) := by
  have hold : ∀ j < calls.length, (calls ++ [account])[j]? = calls[j]? := fun j hj =>
    List.getElem?_append_left hj
  have hlast : (calls ++ [account])[calls.length]? = some account := List.getElem?_concat_length
  have hover : ∀ j < calls.length, (stage j).Over →
      (Function.update stage calls.length st j).Over := fun j hj hj' => by
    rwa [Function.update_of_ne hj.ne]
  refine ⟨fun i => ?_, fun i p hi => ?_, fun i hi j hj hcall => ?_,
    fun a ref ha => ?_, fun a ha => ?_⟩
  · rw [List.length_append, List.length_singleton]
    by_cases hin : i = calls.length
    · rw [hin, Function.update_self]
      refine ⟨fun heq => ?_, fun hle => absurd hle (by omega)⟩
      rcases hst with ⟨rfl, -⟩ | ⟨p, rfl, -⟩ <;> cases heq
    · rw [Function.update_of_ne hin, h.absent]
      omega
  · by_cases hin : i = calls.length
    · subst hin
      rw [Function.update_self] at hi
      rcases hst with ⟨rfl, -⟩ | ⟨p', rfl, hp, hafter, hpending⟩
      · cases hi
      · obtain rfl := Stage.waiting.inj hi
        have hlt : p' < calls.length := (List.getElem?_eq_some_iff.mp hp).1
        rw [Function.update_of_ne hlt.ne, hlast, hold _ hlt]
        exact ⟨hlt, hp, fun j hj hj' => by rw [hold j hj']; exact hafter j hj, hpending⟩
    · rw [Function.update_of_ne hin] at hi
      have hlt : i < calls.length := h.lt_length (by rw [hi]; nofun)
      obtain ⟨hpi, hcall, hbetween, hpending⟩ := h.waits i p hi
      rw [hold i hlt, hold p (hpi.trans hlt), Function.update_of_ne (hpi.trans hlt).ne]
      exact ⟨hpi, hcall, fun j hj hj' => by rw [hold j (hj'.trans hlt)]; exact hbetween j hj hj',
        hpending⟩
  · by_cases hin : i = calls.length
    · subst hin
      rw [Function.update_self] at hi
      rcases hst with ⟨rfl, hall⟩ | ⟨p, rfl, -⟩
      · rw [hold j hj, hlast] at hcall
        exact hover j hj (hall j hj hcall)
      · exact hi.elim
    · rw [Function.update_of_ne hin] at hi
      have hlt : i < calls.length := h.lt_length fun heq => by rw [heq] at hi; exact hi
      rw [hold i hlt, hold j (hj.trans hlt)] at hcall
      exact hover j (hj.trans hlt) (h.follows i hi j hj hcall)
  · by_cases haa : a = account
    · subst haa
      rw [JsMap.get_set_self (beq_self_eq_true a), Option.some.injEq] at ha
      refine ⟨calls.length, ha.symm, hlast, fun j hj => ?_⟩
      rw [List.getElem?_eq_none (by rw [List.length_append, List.length_singleton]; omega)]
      exact nofun
    · rw [JsMap.get_set_of_ne (beq_false_of_ne haa)] at ha
      obtain ⟨k, rfl, hk, hafter⟩ := h.queue a ref ha
      have hlt : k < calls.length := (List.getElem?_eq_some_iff.mp hk).1
      refine ⟨k, rfl, (hold k hlt).trans hk, fun j hj => ?_⟩
      rcases Nat.lt_trichotomy j calls.length with hj' | rfl | hj'
      · rw [hold j hj']
        exact hafter j hj
      · rw [hlast]
        exact fun heq => haa (Option.some.inj heq).symm
      · rw [List.getElem?_eq_none (by rw [List.length_append, List.length_singleton]; omega)]
        exact nofun
  · by_cases haa : a = account
    · subst haa
      rw [JsMap.get_set_self (beq_self_eq_true a)] at ha
      cases ha
    · rw [JsMap.get_set_of_ne (beq_false_of_ne haa)] at ha
      rw [List.mem_append, List.mem_singleton, not_or]
      exact ⟨h.fresh a ha, haa⟩

/-- A host with the promises of some calls has those of one more that is absent. -/
theorem Hosted.succ {n : ℕ} {host : Host PromiseRef Reaction (TaskResult ε α)}
    (h : Hosted n host stage) : Hosted (n + 1) host stage :=
  ⟨fun i hi => h.resolved i (by omega), h.task, h.run, h.closed, h.tail, h.jobs⟩

/-- The promise that an account without a queue chains to. -/
theorem Hosted.resolve {n : ℕ} {host : Host PromiseRef Reaction (TaskResult ε α)}
    (h : Hosted n host stage) :
    Hosted (n + 1) (host.settle (.resolved n) (.ok none)) stage ∧
      (host.settle (.resolved n) (.ok none)).promise (.resolved n) = .settled (.ok none) := by
  have hsettle := Host.settle_pending (o := .ok none) (h.resolved n le_rfl)
  refine ⟨⟨fun i hi => ?_, fun i => ?_, fun i => ?_, fun i hi => ?_, fun i hi => ?_, ?_⟩, ?_⟩
  · refine (Host.promise_settle_of_ne fun heq => ?_).trans (h.resolved i (by omega))
    have := PromiseRef.resolved.inj heq
    omega
  · exact (Host.promise_settle_of_ne (by nofun)).trans (h.task i)
  · exact (Host.promise_settle_of_ne (by nofun)).trans (h.run i)
  · exact (Host.promise_settle_of_ne (by nofun)).trans (h.closed i hi)
  · rw [Host.promise_settle_of_ne (by nofun)]
    exact h.tail i hi
  · rw [hsettle, List.map_nil, List.append_nil]
    exact h.jobs
  · rw [hsettle]
    exact Function.update_self _ _ _

/-- A call that chains to a settled promise is ready. -/
theorem Hosted.ready {n : ℕ} {host : Host PromiseRef Reaction (TaskResult ε α)} {ref : PromiseRef}
    (h : Hosted (n + 1) host stage) (hn : stage n = .absent)
    (href : host.promise ref = .settled (.ok none)) :
    Hosted (n + 1) ((host.react ref (.start n)).react (.run n) (.proceed n))
      (Function.update stage n .ready) := by
  have hrun := h.run n
  have htask := h.task n
  rw [hn] at hrun htask
  rw [Host.react_settled href]
  have hreact := Host.react_pending (h := { host with
    jobs := host.jobs ++ [Job.react (Reaction.start n) (.ok none)] }) (r := .proceed n) hrun
  refine h.move (by rw [hn]; exact id) id (by rw [hn]; nofun) nofun
    (fun _ => Host.promise_react_of_ne (by nofun)) (fun _ => Host.promise_react_of_ne (by nofun))
    (fun _ _ => Host.promise_react_of_ne (by nofun))
    (fun i hi => Host.promise_react_of_ne fun heq => hi (PromiseRef.run.inj heq))
    ((Host.promise_react_of_ne (by nofun)).trans htask) ?_ ?_
  · rw [hreact]
    exact Function.update_self _ _ _
  · rw [hreact]
    refine h.jobs.give (by rw [hn]; rfl) fun i hi => ?_
    obtain rfl := Stage.job_inj hi (show (Stage.ready).job n = some _ from rfl)
    rw [hn] at hi
    cases hi

/-- A call that chains to the promise of a call that is not over waits for it. -/
theorem Hosted.wait {n p : ℕ} {host : Host PromiseRef Reaction (TaskResult ε α)}
    (h : Hosted (n + 1) host stage) (hn : stage n = .absent) (hp : ¬ (stage p).Over)
    (hpn : p ≠ n) :
    Hosted (n + 1) ((host.react (.tail p) (.start n)).react (.run n) (.proceed n))
      (Function.update stage n (.waiting p)) := by
  obtain ⟨reactions, href, hnodup, hmem⟩ := h.tail p hp
  have hreact := Host.react_pending (r := .start n) href
  have hrun : (host.react (.tail p) (.start n)).promise (.run n) = .pending [] := by
    have := h.run n
    rw [hn] at this
    exact (Host.promise_react_of_ne (by nofun)).trans this
  have hreact' := Host.react_pending (r := .proceed n) hrun
  have hwaiting : ∀ m i, Function.update stage n (.waiting p) m = .waiting i ↔
      stage m = .waiting i ∨ (m = n ∧ i = p) := fun m i => by
    by_cases hm : m = n
    · rw [hm, Function.update_self, hn]
      exact ⟨fun heq => .inr ⟨rfl, (Stage.waiting.inj heq).symm⟩,
        fun hor => hor.elim (fun heq => (nomatch heq)) fun ⟨_, heq⟩ => by rw [heq]⟩
    · rw [Function.update_of_ne hm]
      exact ⟨.inl, fun hor => hor.resolve_right fun h => hm h.1⟩
  have hOver := over_update stage n (.waiting p) (by rw [hn]; exact id) id
  refine ⟨fun i hi => ?_, fun i => ?_, fun i => ?_, fun i hi => ?_, fun i hi => ?_, ?_⟩
  · exact (Host.promise_react_of_ne (by nofun)).trans
      ((Host.promise_react_of_ne (by nofun)).trans (h.resolved i hi))
  · refine (Host.promise_react_of_ne (by nofun)).trans
      ((Host.promise_react_of_ne (by nofun)).trans ((h.task i).trans ?_))
    by_cases hin : i = n
    · rw [hin, Function.update_self, hn]
      rfl
    · rw [Function.update_of_ne hin]
  · by_cases hin : i = n
    · rw [hin, hreact', Function.update_self]
      exact Function.update_self _ _ _
    · rw [Function.update_of_ne hin]
      exact (Host.promise_react_of_ne fun heq => hin (PromiseRef.run.inj heq)).trans
        ((Host.promise_react_of_ne (by nofun)).trans (h.run i))
  · have hip : i ≠ p := by
      rintro rfl
      exact hp ((hOver i).mp hi)
    exact (Host.promise_react_of_ne (by nofun)).trans
      ((Host.promise_react_of_ne fun heq => hip (PromiseRef.tail.inj heq)).trans
        (h.closed i ((hOver i).mp hi)))
  · by_cases hip : i = p
    · subst hip
      refine ⟨reactions ++ [.start n], ?_, ?_, fun r => ?_⟩
      · refine (Host.promise_react_of_ne (by nofun)).trans ?_
        rw [hreact]
        exact Function.update_self _ _ _
      · refine List.nodup_append.mpr ⟨hnodup, List.nodup_singleton _, ?_⟩
        rintro r hr r' hr' rfl
        obtain ⟨m, rfl, hm⟩ := (hmem r).mp hr
        obtain rfl := Reaction.start.inj (List.mem_singleton.mp hr')
        rw [hn] at hm
        cases hm
      · rw [List.mem_append, hmem, List.mem_singleton]
        simp only [hwaiting]
        constructor
        · rintro (⟨m, hr, hm⟩ | hr)
          · exact ⟨m, hr, .inl hm⟩
          · exact ⟨n, hr, .inr ⟨rfl, trivial⟩⟩
        · rintro ⟨m, hr, hm | ⟨rfl, -⟩⟩
          · exact .inl ⟨m, hr, hm⟩
          · exact .inr hr
    · obtain ⟨reactions', href', hnodup', hmem'⟩ := h.tail i fun hi' => hi ((hOver i).mpr hi')
      refine ⟨reactions', ?_, hnodup', fun r => ?_⟩
      · exact (Host.promise_react_of_ne (by nofun)).trans
          ((Host.promise_react_of_ne fun heq => hip (PromiseRef.tail.inj heq)).trans href')
      · rw [hmem']
        refine exists_congr fun m => and_congr_right fun _ => ?_
        rw [hwaiting]
        exact ⟨.inl, fun hor => hor.resolve_right fun h => hip h.2⟩
  · rw [hreact', hreact]
    have hcongr : (fun i => (Function.update stage n (.waiting p) i).job i) =
        fun i => (stage i).job i := by
      funext i
      by_cases hin : i = n
      · rw [hin, Function.update_self, hn]
        rfl
      · rw [Function.update_of_ne hin]
    rw [hcongr]
    exact h.jobs

/-- **The call** of `enqueue`: it waits for the tail of its account, or is ready where there is
none. -/
theorem Staged.enqueue (h : Staged s stage) (account : String) :
    ∃ stage', Staged (s.enqueue account).2 stage' := by
  have hn : stage s.calls.length = .absent := (h.chained.absent _).mpr le_rfl
  have hlogged : ∀ st : Stage ε α, (st = .ready ∨ ∃ p, st = .waiting p) →
      Logged s.active s.log (Function.update stage s.calls.length st) := fun st hst => by
    have hnot : (∀ o, st ≠ .active o) ∧ ¬ st.Started ∧ st.outcome = none := by
      rcases hst with rfl | ⟨p, rfl⟩
      · exact ⟨nofun, id, rfl⟩
      · exact ⟨nofun, id, rfl⟩
    exact h.logged.move (h.logged.same_active (by rw [hn]; nofun) hnot.1)
      ⟨fun hs => absurd hs hnot.2.1, fun hs => by rw [hn] at hs; exact hs.elim⟩
      (by rw [hn]; exact hnot.2.2)
  have hlength : (s.calls ++ [account]).length = s.calls.length + 1 := by
    rw [List.length_append, List.length_singleton]
  cases hqueue : s.queues.get account with
  | none =>
      obtain ⟨hresolved, href⟩ := h.hosted.resolve
      have hfresh := h.chained.fresh account hqueue
      refine ⟨Function.update stage s.calls.length .ready, ?_, ?_, ?_⟩
      · refine h.chained.append (.inl ⟨rfl, fun j hj hcall => ?_⟩)
        exact absurd (List.mem_of_getElem? hcall) hfresh
      · have hprev : s.prev account = (.resolved s.calls.length,
            s.host.settle (.resolved s.calls.length) (.ok none)) := by
          rw [prev, hqueue]
        simp only [Submissions.enqueue, hprev, hlength]
        exact hresolved.ready hn href
      · exact hlogged _ (.inl rfl)
  | some ref =>
      obtain ⟨p, rfl, hp, hafter⟩ := h.chained.queue account ref hqueue
      have hpn : p < s.calls.length := (List.getElem?_eq_some_iff.mp hp).1
      have hprev : s.prev account = (.tail p, s.host) := by
        rw [prev, hqueue]
      by_cases hover : (stage p).Over
      · refine ⟨Function.update stage s.calls.length .ready, ?_, ?_, hlogged _ (.inl rfl)⟩
        · refine h.chained.append (.inl ⟨rfl, fun j hj hcall => ?_⟩)
          have harrived : (stage p).Arrived := by
            cases hst : stage p <;> rw [hst] at hover <;> first | exact hover.elim | trivial
          rcases Nat.lt_trichotomy j p with hjp | rfl | hjp
          · exact h.chained.follows p harrived j hjp (hcall.trans hp.symm)
          · exact hover
          · exact absurd hcall (hafter j hjp)
        · simp only [Submissions.enqueue, hprev, hlength]
          exact h.hosted.succ.ready hn (h.hosted.closed p hover)
      · refine ⟨Function.update stage s.calls.length (.waiting p), ?_, ?_,
          hlogged _ (.inr ⟨p, rfl⟩)⟩
        · exact h.chained.append (.inr ⟨p, rfl, hp, hafter, hover⟩)
        · simp only [Submissions.enqueue, hprev, hlength]
          exact h.hosted.succ.wait hn hover hpn.ne

end Steps

/-! ### Runs -/

section Runs

variable {s s' : Submissions ε α}

/-- Every step keeps the invariant. The cases are those of the step. -/
theorem Staged.step {stage : ℕ → Stage ε α} (h : Staged s stage) (hs : Step s s') :
    ∃ stage', Staged s' stage' := by
  cases hs with
  | call account => exact h.enqueue account
  | host hinternal =>
      obtain ⟨stage', hstage', -⟩ := h.internal hinternal
      exact ⟨stage', hstage'⟩
  | raises e hactive hpending => exact h.raises e hactive hpending
  | settles o hstarted hpending => exact h.settles o hstarted hpending

/-- An event fits what has happened: a task is started once, when all tasks of the account that were
submitted before it are settled, and it is settled once, when it is started. -/
def Fits (calls : List String) (log : List (TaskEvent ε α)) : TaskEvent ε α → Prop
  | .started k => k < calls.length ∧ .started k ∉ log ∧
      ∀ j < k, calls[j]? = calls[k]? → ∃ o, .settled j o ∈ log
  | .settled k _ => .started k ∈ log ∧ ∀ o, .settled k o ∉ log

/-- Every event of the history fits what has happened before. -/
def Orderly (calls : List String) (log : List (TaskEvent ε α)) : Prop :=
  ∀ pre e post, log = pre ++ e :: post → Fits calls pre e

/-- A log that fits at its end stays orderly. -/
theorem Orderly.append {calls : List String} {log : List (TaskEvent ε α)} {e : TaskEvent ε α}
    (h : Orderly calls log) (he : Fits calls log e) : Orderly calls (log ++ [e]) := by
  intro pre e' post heq
  rcases List.eq_nil_or_concat post with rfl | ⟨post', e'', rfl⟩
  · obtain ⟨rfl, hlast⟩ := List.append_inj' heq rfl
    obtain rfl := List.singleton_inj.mp hlast
    exact he
  · rw [List.concat_eq_append, ← List.cons_append, ← List.append_assoc] at heq
    obtain ⟨rfl, -⟩ := List.append_inj' heq rfl
    exact h pre e' post' rfl

/-- One more call leaves the log orderly. -/
theorem Orderly.call {calls : List String} {log : List (TaskEvent ε α)} (h : Orderly calls log)
    (account : String) : Orderly (calls ++ [account]) log := by
  intro pre e post heq
  have hfits := h pre e post heq
  cases e with
  | settled k o => exact hfits
  | started k =>
      obtain ⟨hlt, hnew, hbefore⟩ := hfits
      refine ⟨by rw [List.length_append]; omega, hnew, fun j hj hcall => hbefore j hj ?_⟩
      rwa [List.getElem?_append_left (hj.trans hlt), List.getElem?_append_left hlt] at hcall

/-- The beginning of an orderly log is orderly. -/
theorem Orderly.left {calls : List String} {log log' : List (TaskEvent ε α)}
    (h : Orderly calls (log ++ log')) : Orderly calls log := by
  intro pre e post heq
  refine h pre e (post ++ log') ?_
  rw [heq, List.append_assoc, List.cons_append]

/-- A task that is settled was started. -/
theorem Orderly.started {calls : List String} {log : List (TaskEvent ε α)} {k : ℕ}
    {o : TaskResult ε α} (h : Orderly calls log) (hk : .settled k o ∈ log) : .started k ∈ log := by
  obtain ⟨pre, post, rfl⟩ := List.append_of_mem hk
  exact List.mem_append_left _ (h pre _ post rfl).1

/-- What a step adds to the history fits. -/
theorem Orderly.step {stage : ℕ → Stage ε α} (h : Orderly s.calls s.log) (hstage : Staged s stage)
    (hs : Step s s') : Orderly s'.calls s'.log := by
  have hsettle : ∀ {k o}, .started k ∈ s.log → (∀ o, s.host.promise (.task k) ≠ .settled o) →
      Orderly s.calls (s.log ++ [.settled k o]) := fun {k o} hstarted hpending => by
    refine h.append ⟨hstarted, fun o' ho' => hpending o' ?_⟩
    have houtcome := (hstage.logged.settled k o').mp ho'
    rw [hstage.hosted.task]
    exact Stage.task_of_outcome houtcome
  cases hs with
  | call account => exact h.call account
  | raises e hactive hpending =>
      obtain ⟨o, hk⟩ := (hstage.logged.active _).mp hactive
      exact hsettle ((hstage.logged.started _).mpr (by rw [hk]; trivial)) hpending
  | settles o hstarted hpending => exact hsettle hstarted hpending
  | host hinternal =>
      cases hinternal with
      | goesOn hactive => exact h
      | @job job jobs hactive hjobs =>
          cases job with
          | link ref r => exact h
          | react r o =>
              cases r with
              | adopt k => exact h
              | proceed k => exact h
              | start k =>
                  obtain ⟨i, hi⟩ := hstage.owner hjobs
                  have hready : stage i = .ready ∧ i = k := by
                    cases hst : stage i <;> rw [hst] at hi <;> cases hi
                    exact ⟨rfl, rfl⟩
                  obtain ⟨hready, rfl⟩ := hready
                  refine h.append ⟨hstage.chained.lt_length (by rw [hready]; nofun), fun hmem => ?_,
                    fun j hj hcall => ?_⟩
                  · have := (hstage.logged.started i).mp hmem
                    rw [hready] at this
                    exact this
                  · have hover := hstage.chained.follows i (by rw [hready]; trivial) j hj hcall
                    obtain ⟨o, ho⟩ := Stage.exists_outcome hover
                    exact ⟨o, (hstage.logged.settled j o).mpr ho⟩

/-- What the host does by itself makes no calls. -/
theorem Internal.calls (h : Internal s s') : s'.calls = s.calls := by
  cases h with
  | goesOn => rfl
  | @job job _ _ _ =>
      cases job with
      | link => rfl
      | react r => cases r <;> rfl

end Runs

end Submissions

end NoGhost
