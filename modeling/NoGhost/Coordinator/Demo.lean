import Mathlib.Data.Fintype.Pi
import NoGhost.Bank
import NoGhost.Coordinator.Requests

/-!
# The Demo Controls

The model of how the scenarios of `coordinator/demo.ts` change the settings of the bank and of the
signers, and put them back. What is under way in the coordinator is a list of activities, each of
which awaits exchanges with the bank and the signers; the exchanges of all activities are served,
read and answered in any order. Every service answers. The requests that the scenarios submit are
those of `runScenario`, so an activity only waits for the end of its own.

A poll that is over stays in the list, and does nothing.

## Main results

* `Restorable`: the invariant. While no scenario is between its capture and its settling, each
  setting is the operator's, or a restore is about to put it back.
* `controls_restored`: the settings and the merchants are as they were, once all is over, in every
  run in which no scenario revokes a merchant that was revoked before, the view of the store is
  current where the demo reads it, and no baseline is captured while a restore has something left.
* `controls_lost`: a merchant is reinstated that the operator had revoked, and a baseline that is
  captured in the middle of a restore is put back as if it were the operator's.
-/

namespace NoGhost

instance : Fintype SignerId := ⟨{.utility, .cityA, .cityB}, fun i => by cases i <;> decide⟩

/-! ### Exchanges -/

/-- `ControlState`: the mode of the bank, and which signers are online, as they are set from the
panel of the demo. -/
@[ext]
structure ControlState where
  bankMode : BankMode
  signers : SignerId → Bool

-- a derived instance would not evaluate: it casts along an equality of functions
instance : DecidableEq ControlState := fun _ _ => decidable_of_iff _ ControlState.ext_iff.symm

/-- A request to the bank or to a signer, with what the service has said of itself once it was
asked. A poll of the signers is a request to each. -/
inductive Exchange
  | postMode (mode : BankMode)
  | postOnline (signerId : SignerId) (online : Bool)
  | bankHealth (read : Option BankMode)
  | signerHealth (read : SignerId → Option Bool)
  deriving DecidableEq

namespace Exchange

/-- A setting arrives; `setBankMode` and `setSignerOnline` go on to poll. -/
def serve (services : ControlState) : Exchange → Option (Exchange × ControlState)
  | postMode mode => some (bankHealth none, { services with bankMode := mode })
  | postOnline i online =>
      some (signerHealth fun _ => none,
        { services with signers := Function.update services.signers i online })
  | _ => none

/-- The bank, or the signer `i`, says what it has. -/
def answer (services : ControlState) (i : SignerId) : Exchange → Option Exchange
  | bankHealth none => some (bankHealth (some services.bankMode))
  | signerHealth read =>
      if read i = none then
        some (signerHealth (Function.update read i (some (services.signers i))))
      else none
  | _ => none

/-- `updateBankHealth` or `updateSignerHealths`, when all answers are there. -/
def arrive (shown : ControlState) : Exchange → Option ControlState
  | bankHealth (some mode) => some { shown with bankMode := mode }
  | signerHealth read =>
      if ∀ i, (read i).isSome then
        some { shown with signers := fun i => (read i).getD false }
      else none
  | _ => none

/-- A poll, which only reads. -/
def isHealth : Exchange → Bool
  | bankHealth _ | signerHealth _ => true
  | _ => false

end Exchange

/-- `pollAllHealth`: the bank and every signer are asked for their health. -/
def pollAllHealth : List Exchange := [.bankHealth none, .signerHealth fun _ => none]

/-! ### Activities -/

/-- Where an activity is, with what it still has to do. -/
inductive DemoPhase
  | polling
  | refreshing (kind : ScenarioKind) (merchantId : String)
  /-- In `applyPreconditions`, with what is still to be awaited after the present stage. -/
  | applying (kind : ScenarioKind) (merchantId : String) (rest : List (List Exchange))
  | checking (kind : ScenarioKind) (merchantId : String)
  | submitted (kind : ScenarioKind) (merchantId : String)
  | restoringBank (prev : ControlState)
  /-- In the loop of `restoreControls`, with the signers that are still to be set. -/
  | restoringSigners (prev : ControlState) (rest : List SignerId)
  deriving DecidableEq

namespace DemoPhase

/-- Between the capture and the settling: what `inFlight` counts. -/
def within : DemoPhase → Bool
  | applying .. | checking .. | submitted .. => true
  | _ => false

/-- The settings that a restore is to put back. -/
def restores : DemoPhase → Option ControlState
  | restoringBank prev | restoringSigners prev _ => some prev
  | _ => none

/-- The merchant that a scenario is to revoke, or has revoked. -/
def revokes : DemoPhase → Option String
  | refreshing .revokedMerchant m | applying .revokedMerchant m _ | checking .revokedMerchant m
  | submitted .revokedMerchant m => some m
  | _ => none

/-- The merchant that a scenario has revoked. -/
def revoked : DemoPhase → Option String
  | checking .revokedMerchant m | submitted .revokedMerchant m => some m
  | _ => none

end DemoPhase

/-- What is under way, with the phase it is in and the exchanges it awaits before it goes on. -/
structure Activity where
  phase : DemoPhase
  pending : List Exchange

/-- The services, the coordinator's store with its view of them, and the variables of the demo. -/
structure Demo where
  services : ControlState
  store : Store config
  shown : ControlState
  baseline : Option ControlState
  inFlight : ℕ
  activities : List Activity

/-- The stages of `applyPreconditions`: what is awaited together, one after the other. -/
def preconditions : ScenarioKind → List (List Exchange)
  | .legit => [[.postMode .CONFIRM], config.SIGNERS.map fun s => .postOnline s.signerId true]
  | .ghost => [[.postMode .DECLINE]]
  | .collusionShort =>
      [[.postMode .CONFIRM], [.postOnline .utility true], [.postOnline .cityA false],
        [.postOnline .cityB false]]
  | .forgedAttestation =>
      [[.postMode .OMIT_SIGNATURE], config.SIGNERS.map fun s => .postOnline s.signerId true]
  | .revokedMerchant =>
      [[.postMode .CONFIRM], config.SIGNERS.map fun s => .postOnline s.signerId true]

namespace Demo

/-- The merchant of the scenario that starts next. -/
def nextMerchant (s : Demo) : String :=
  MERCHANT_IDS.getD (s.store.rotate.1 % MERCHANT_IDS.length) ""

/-- `runScenario`, up to its first await. -/
def start (kind : ScenarioKind) (s : Demo) : Demo :=
  { s with
    store := s.store.rotate.2
    activities := s.activities ++ [⟨.refreshing kind s.nextMerchant, pollAllHealth⟩] }

/-- The timer of the health polls fires, whatever else is under way. -/
def poll (s : Demo) : Demo :=
  { s with activities := s.activities ++ [⟨.polling, pollAllHealth⟩] }

/-- `applyPreconditions` from a stage on; after it the health is polled. -/
def apply (kind : ScenarioKind) (merchantId : String) :
    List (List Exchange) → Demo → Activity × Demo
  | stage :: rest, s => (⟨.applying kind merchantId rest, stage⟩, s)
  | [], s =>
      (⟨.checking kind merchantId, pollAllHealth⟩,
        { s with store := s.store.applyPreconditions kind merchantId })

/-- `if (inFlight === 0) baseline = captureControls()`, and `inFlight += 1`. -/
def capture (s : Demo) : Demo :=
  { s with
    baseline := if s.inFlight = 0 then some s.shown else s.baseline
    inFlight := s.inFlight + 1 }

/-- The loop of `restoreControls` from a signer on; after it the health is polled. -/
def restoreSigners (prev : ControlState) : List SignerId → Activity
  | i :: rest => ⟨.restoringSigners prev rest, [.postOnline i (prev.signers i)]⟩
  | [] => ⟨.polling, pollAllHealth⟩

/-- The signers that the loop sets: `want.online !== s.online`. -/
def toRestore (prev : ControlState) (s : Demo) : List SignerId :=
  (config.SIGNERS.map (·.signerId)).filter fun i => prev.signers i ≠ s.shown.signers i

/-- `restoreControls`: what the dashboard shows to differ from before is put back, the mode of the
bank first. -/
def restoreControls (prev : ControlState) (s : Demo) : Activity :=
  if s.shown.bankMode ≠ prev.bankMode then ⟨.restoringBank prev, [.postMode prev.bankMode]⟩
  else restoreSigners prev (s.toRestore prev)

/-- `restorePreconditions`: the merchant that was revoked for the scenario is reinstated, and the
controls are restored. -/
def restorePreconditions (kind : ScenarioKind) (merchantId : String) (s : Demo) :
    Activity × Demo :=
  let store := if kind = .revokedMerchant then s.store.setMerchantRevoked merchantId false "demo"
    else s.store
  let s := { s with store, inFlight := s.inFlight - 1 }
  match s.inFlight, s.baseline with
  | 0, some prev => (s.restoreControls prev, { s with baseline := none })
  | _, _ => (⟨.polling, pollAllHealth⟩, s)

/-- What an activity does when all that it awaits has come. One that has submitted its request
awaits the end of it, or the watchdog. -/
def resume (s : Demo) : DemoPhase → Option (Activity × Demo)
  | .polling => none
  | .refreshing kind merchantId => some (s.capture.apply kind merchantId (preconditions kind))
  | .applying kind merchantId rest => some (s.apply kind merchantId rest)
  | .checking kind merchantId => some (⟨.submitted kind merchantId, []⟩, s)
  | .submitted kind merchantId => some (s.restorePreconditions kind merchantId)
  | .restoringBank prev => some (restoreSigners prev (s.toRestore prev), s)
  | .restoringSigners prev rest => some (restoreSigners prev rest, s)

/-- An activity is replaced by what has become of it. -/
def put (i : ℕ) (a : Activity) (s : Demo) : Demo :=
  { s with activities := s.activities.set i a }

end Demo

/-! ### Runs -/

/-- What happens next: a scenario is started, the timer fires, or the exchange `j` of the activity
`i` is served, read or answered, or the activity goes on. -/
inductive DemoAction
  | scenario (kind : ScenarioKind)
  | poll
  | serve (i j : ℕ)
  | read (i j : ℕ) (signerId : SignerId)
  | arrive (i j : ℕ)
  | resume (i : ℕ)

namespace Demo

/-- A step of the demo, if it may happen. -/
def act (s : Demo) : DemoAction → Option Demo
  | .scenario kind => some (s.start kind)
  | .poll => some s.poll
  | .serve i j => do
      let a ← s.activities[i]?
      let e ← a.pending[j]?
      let (e, services) ← e.serve s.services
      some { s.put i ⟨a.phase, a.pending.set j e⟩ with services }
  | .read i j signerId => do
      let a ← s.activities[i]?
      let e ← a.pending[j]?
      let e ← e.answer s.services signerId
      some (s.put i ⟨a.phase, a.pending.set j e⟩)
  | .arrive i j => do
      let a ← s.activities[i]?
      let e ← a.pending[j]?
      let shown ← e.arrive s.shown
      some { s.put i ⟨a.phase, a.pending.eraseIdx j⟩ with shown }
  | .resume i => do
      let a ← s.activities[i]?
      if a.pending.isEmpty then
        let (a, s) ← s.resume a.phase
        some (s.put i a)
      else none

/-- The states that are reached from a state by steps each of which meets a condition on the state
before it. -/
inductive Reaches (ok : Demo → DemoAction → Prop) (s : Demo) : Demo → Prop
  | start : Reaches ok s s
  | step {t u : Demo} {a : DemoAction} : Reaches ok s t → ok t a → t.act a = some u → Reaches ok s u

/-- No scenario has been started, so there is no baseline yet: only polls may be under way. -/
structure Unused (s : Demo) : Prop where
  baseline : s.baseline = none
  inFlight : s.inFlight = 0
  polling : ∀ a ∈ s.activities, a.phase = .polling ∧ ∀ e ∈ a.pending, e.isHealth

/-- Every scenario has settled, and every restore is over. -/
def Settled (s : Demo) : Prop := ∀ a ∈ s.activities, a.phase = .polling

/-- The settings and the merchants are what they were. -/
def Restored (before s : Demo) : Prop :=
  s.services = before.services ∧
    ∀ merchantId, s.store.getMerchant merchantId = before.store.getMerchant merchantId

/-- What the view of the signers shows as put back is so. -/
def SignersCurrent (prev : ControlState) (s : Demo) : Prop :=
  ∀ i, s.shown.signers i = prev.signers i → s.services.signers i = prev.signers i

/-- What the view shows as put back is so, where `restoreControls` reads it at once. -/
def Current (prev : ControlState) (s : Demo) : Prop :=
  s.shown.bankMode = prev.bankMode → s.services.bankMode = prev.bankMode ∧ s.SignersCurrent prev

/-- An activity goes on at a good time: a baseline is captured from a view that is current, when
what every restore under way puts back is in place; a restore that finds a setting in place is
right. -/
def Timely (s : Demo) : Option DemoPhase → Prop
  | some (.refreshing _ _) =>
      s.inFlight = 0 → s.shown = s.services ∧
        ∀ a ∈ s.activities, ∀ prev ∈ a.phase.restores, s.services = prev
  | some (.submitted _ _) => s.inFlight = 1 → ∀ prev ∈ s.baseline, s.Current prev
  | some (.restoringBank prev) => s.SignersCurrent prev
  | _ => True

/-- **The condition of a step.** A scenario that revokes gets a merchant that was not revoked
before, and activities go on at a good time. -/
def Meets (before s : Demo) : DemoAction → Prop
  | .scenario kind =>
      kind = .revokedMerchant → ∀ m ∈ before.store.getMerchant s.nextMerchant, m.revoked = false
  | .resume i => s.Timely ((s.activities[i]?).map Activity.phase)
  | _ => True

end Demo

namespace Demo

instance (s : Demo) : Decidable s.Settled :=
  inferInstanceAs (Decidable (∀ a ∈ s.activities, a.phase = .polling))

instance (prev : ControlState) (s : Demo) : Decidable (s.SignersCurrent prev) :=
  inferInstanceAs (Decidable (∀ i, s.shown.signers i = prev.signers i → _))

instance (prev : ControlState) (s : Demo) : Decidable (s.Current prev) :=
  inferInstanceAs (Decidable (s.shown.bankMode = prev.bankMode → _ ∧ s.SignersCurrent prev))

instance (s : Demo) : ∀ phase, Decidable (s.Timely phase)
  | some (.refreshing _ _) => inferInstanceAs (Decidable (s.inFlight = 0 → _ ∧ _))
  | some (.submitted _ _) =>
      inferInstanceAs (Decidable (s.inFlight = 1 → ∀ prev ∈ s.baseline, s.Current prev))
  | some (.restoringBank prev) => inferInstanceAs (Decidable (s.SignersCurrent prev))
  | none | some .polling | some (.applying ..) | some (.checking ..)
  | some (.restoringSigners ..) => .isTrue trivial

instance (before s : Demo) : ∀ a, Decidable (Meets before s a)
  | .scenario kind => inferInstanceAs (Decidable (kind = .revokedMerchant → _))
  | .resume i => inferInstanceAs (Decidable (s.Timely ((s.activities[i]?).map Activity.phase)))
  | .poll | .serve .. | .read .. | .arrive .. => .isTrue trivial

/-- The state that the actions lead to, if they may be taken and each meets a condition. -/
def follow (ok : Demo → DemoAction → Prop) [∀ s a, Decidable (ok s a)] : List DemoAction → Demo →
    Option Demo
  | [], s => some s
  | a :: as, s => if ok s a then (s.act a).bind (follow ok as) else none

/-- A sequence of actions that can be followed leads to a reached state. -/
theorem Reaches.of_follow {ok : Demo → DemoAction → Prop} [∀ s a, Decidable (ok s a)]
    {as : List DemoAction} {s t u : Demo} (h : Reaches ok s t) (hu : follow ok as t = some u) :
    Reaches ok s u := by
  induction as generalizing t with
  | nil => exact Option.some.inj hu ▸ h
  | cons a as ih =>
      unfold follow at hu
      split at hu
      · next hok =>
          obtain ⟨v, hact, hu⟩ := Option.bind_eq_some_iff.1 hu
          exact ih (h.step hok hact) hu
      · cases hu

end Demo

/-! ### One activity -/

/-- What holds of all activities holds after one is replaced by another of which it holds. -/
theorem mem_set_of_forall {α : Type} {p : α → Prop} {l : List α} {i : ℕ} {b : α}
    (h : ∀ x ∈ l, p x) (hb : p b) : ∀ x ∈ l.set i b, p x := by
  intro x hx
  rcases List.mem_or_eq_of_mem_set hx with hx | rfl
  · exact h x hx
  · exact hb

/-- What holds of some activity holds of some after one is replaced, if it goes over to its
successor. -/
theorem exists_mem_set {α : Type} {p : α → Prop} {l : List α} {i : ℕ} {a b : α}
    (hi : l[i]? = some a) (h : ∃ x ∈ l, p x) (hab : p a → p b) : ∃ x ∈ l.set i b, p x := by
  obtain ⟨x, hx, hp⟩ := h
  obtain ⟨k, hk⟩ := List.mem_iff_getElem?.1 hx
  have hlt : i < l.length := (List.getElem?_eq_some_iff.1 hi).1
  by_cases hik : i = k
  · subst hik
    obtain rfl : a = x := Option.some.inj (hi.symm.trans hk)
    exact ⟨b, List.mem_of_getElem? (List.getElem?_set_self hlt), hab hp⟩
  · exact ⟨x, List.mem_of_getElem? ((List.getElem?_set_ne hik).trans hk), hp⟩

/-- How a count changes when one element is replaced. -/
theorem countP_set_add {α : Type} {p : α → Bool} {l : List α} {i : ℕ} {a b : α}
    (hi : l[i]? = some a) :
    (l.set i b).countP p + (p a).toNat = l.countP p + (p b).toNat := by
  obtain ⟨hlt, rfl⟩ := List.getElem?_eq_some_iff.1 hi
  have hpos : p l[i] = true → 0 < l.countP p := fun h =>
    List.countP_pos_iff.2 ⟨_, List.getElem_mem hlt, h⟩
  rw [List.countP_set hlt]
  cases ha : p l[i] with
  | false => cases p b <;> simp
  | true =>
      have := hpos ha
      cases p b <;> simp <;> omega

/-- A post of a setting as it was before the scenarios. -/
def Exchange.PutsBack (prev : ControlState) : Exchange → Prop
  | .postMode mode => mode = prev.bankMode
  | .postOnline i online => online = prev.signers i
  | _ => True

/-- Outside the scenarios only a restore sets anything, and what it puts back is what was captured
before the scenarios. -/
structure Activity.Sound (before : ControlState) (a : Activity) : Prop where
  restores : ∀ prev ∈ a.phase.restores, prev = before
  posts : a.phase.within = false →
    ∀ e ∈ a.pending, e.isHealth ∨ a.phase.restores.isSome ∧ e.PutsBack before

/-- The bank is about to get its mode back. -/
def Activity.DueBank (before : ControlState) (a : Activity) : Prop :=
  .postMode before.bankMode ∈ a.pending

/-- A signer is about to get its setting back, or a restore is about to compare it. -/
def Activity.DueSigner (before : ControlState) (i : SignerId) (a : Activity) : Prop :=
  .postOnline i (before.signers i) ∈ a.pending ∨
    match a.phase with
    | .restoringBank _ => True
    | .restoringSigners _ rest => i ∈ rest
    | _ => False

/-- The exchanges of a poll only read. -/
theorem pollAllHealth_isHealth : ∀ e ∈ pollAllHealth, e.isHealth := by
  intro e he
  rcases List.mem_pair.1 he with rfl | rfl <;> rfl

/-- A poll sets nothing, so it is sound in every phase. -/
theorem Activity.Sound.poll {before : ControlState} {phase : DemoPhase}
    (h : phase.restores = none) : Activity.Sound before ⟨phase, pollAllHealth⟩ where
  restores prev hprev := by rw [h] at hprev; cases hprev
  posts _ e he := .inl (pollAllHealth_isHealth e he)

/-- A scenario that is within its preconditions restores nothing itself. -/
theorem DemoPhase.restores_of_within {phase : DemoPhase} (h : phase.within = true) :
    phase.restores = none := by
  cases phase <;> simp_all [within, restores]

/-- A scenario that is within its capture may set what it likes. -/
theorem Activity.Sound.within {before : ControlState} {a : Activity}
    (h : a.phase.within = true) : a.Sound before where
  restores prev hprev := by rw [DemoPhase.restores_of_within h] at hprev; cases hprev
  posts hw := by rw [h] at hw; cases hw

/-- Exchanges that have ended, or that go on as polls. -/
theorem Activity.Sound.exchange {before : ControlState} {a : Activity} {pending : List Exchange}
    (h : a.Sound before) (hp : ∀ e ∈ pending, e ∈ a.pending ∨ e.isHealth) :
    Activity.Sound before ⟨a.phase, pending⟩ where
  restores := h.restores
  posts hw e he := by
    rcases hp e he with he | he
    · exact h.posts hw e he
    · exact .inl he

/-- The loop of `restoreControls` puts back what was captured. -/
theorem Activity.Sound.restoreSigners {before : ControlState} (rest : List SignerId) :
    (Demo.restoreSigners before rest).Sound before := by
  cases rest with
  | nil => exact .poll rfl
  | cons i rest =>
      refine ⟨fun prev hprev => (Option.mem_some.1 hprev).symm, fun _ e he => .inr ⟨rfl, ?_⟩⟩
      rw [List.mem_singleton.1 he, Exchange.PutsBack]

/-- The loop is about to set each signer that is left. -/
theorem Activity.dueSigner_restoreSigners {before : ControlState} {rest : List SignerId}
    {i : SignerId} (h : i ∈ rest) : (Demo.restoreSigners before rest).DueSigner before i := by
  cases rest with
  | nil => cases h
  | cons k rest =>
      rcases List.mem_cons.1 h with rfl | h
      · exact .inl (List.mem_singleton.2 rfl)
      · exact .inr h

/-- A poll, or a scenario that refreshes, has nothing due. -/
theorem Activity.Sound.not_due {before : ControlState} {a : Activity} (h : a.Sound before)
    (hw : a.phase.within = false) (hr : a.phase.restores = none) :
    ¬ a.DueBank before ∧ ∀ i, ¬ a.DueSigner before i := by
  have hhealth : ∀ e ∈ a.pending, e.isHealth := by
    intro e he
    rcases h.posts hw e he with he | ⟨hsome, -⟩
    · exact he
    · rw [hr] at hsome
      cases hsome
  refine ⟨fun hdue => ?_, fun i hdue => ?_⟩
  · cases hhealth _ hdue
  · obtain ⟨phase, pending⟩ := a
    rcases hdue with hdue | hdue
    · cases hhealth _ hdue
    · cases phase <;> simp_all [DemoPhase.restores]

/-! ### Merchants -/

/-- What a revocation and a reinstatement leave of the merchants. -/
theorem Store.getMerchant_setMerchantRevoked {cfg : Config} (s : Store cfg) (m id actor : String)
    (revoked : Bool) :
    (s.setMerchantRevoked m revoked actor).getMerchant id =
      if id = m then (s.getMerchant id).map fun x => { x with revoked } else s.getMerchant id := by
  unfold setMerchantRevoked
  split
  · next hnone =>
      split
      · next hid => rw [hid, hnone]; rfl
      · rfl
  · simp only [getMerchant, addGovernanceEntry, broadcast, List.find?_map]
    have hkey : ((fun x : Merchant => decide (x.merchantId = id)) ∘ fun x =>
        if x.merchantId = m then { x with revoked } else x) =
          fun x => decide (x.merchantId = id) := by
      funext x
      simp only [Function.comp_apply]
      split <;> rfl
    rw [hkey]
    cases hfind : s.merchants.find? fun x => decide (x.merchantId = id) with
    | none => simp
    | some x =>
        have hx : x.merchantId = id := by simpa using List.find?_some hfind
        simp only [Option.map_some, hx]
        split <;> rfl

/-! ### The invariant -/

namespace Demo

/-- A merchant is as it was, or a scenario has revoked it and is to reinstate it. -/
def Accounted (before : Demo) (store : Store config) (activities : List Activity) (id : String) :
    Prop :=
  store.getMerchant id = before.store.getMerchant id ∨
    (∃ a ∈ activities, a.phase.revoked = some id) ∧
      store.getMerchant id = (before.store.getMerchant id).map fun m => { m with revoked := true }

/-- **The invariant.** The baseline is the operator's settings while a scenario is within its
capture. Otherwise each setting is the operator's, or about to be. -/
structure Restorable (before s : Demo) : Prop where
  inFlight : s.inFlight = s.activities.countP (·.phase.within)
  baseline : s.baseline = if s.inFlight = 0 then none else some before.services
  sound : ∀ a ∈ s.activities, a.Sound before.services
  bank : s.inFlight = 0 → s.services.bankMode = before.services.bankMode ∨
    ∃ a ∈ s.activities, a.DueBank before.services
  signers : s.inFlight = 0 → ∀ i, s.services.signers i = before.services.signers i ∨
    ∃ a ∈ s.activities, a.DueSigner before.services i
  vetted : ∀ a ∈ s.activities, ∀ id ∈ a.phase.revokes, ∀ m ∈ before.store.getMerchant id,
    m.revoked = false
  merchants : ∀ id, Accounted before s.store s.activities id

/-- Before the first scenario all settings are the operator's. -/
theorem Unused.restorable {s : Demo} (h : s.Unused) : Restorable s s where
  inFlight := by
    refine h.inFlight.trans (List.countP_eq_zero.2 fun a ha => ?_).symm
    rw [(h.polling a ha).1]
    exact Bool.false_ne_true
  baseline := by rw [h.inFlight, if_pos rfl, h.baseline]
  sound a ha := by
    obtain ⟨hphase, hhealth⟩ := h.polling a ha
    refine ⟨fun prev hprev => ?_, fun _ e he => .inl (hhealth e he)⟩
    rw [hphase] at hprev
    cases hprev
  bank _ := .inl rfl
  signers _ _ := .inl rfl
  vetted a ha id hid := by rw [(h.polling a ha).1] at hid; cases hid
  merchants _ := .inl rfl

/-- While no scenario is within its capture, no activity is. -/
theorem Restorable.within {before s : Demo} (h : Restorable before s) (hzero : s.inFlight = 0) :
    ∀ a ∈ s.activities, a.phase.within = false := by
  intro a ha
  have hcount := List.countP_eq_zero.1 (h.inFlight.symm.trans hzero) a ha
  simpa using hcount

/-- An activity is added that sets nothing. -/
theorem Restorable.append {before s : Demo} (h : Restorable before s) {a : Activity}
    (hw : a.phase.within = false) (hsound : a.Sound before.services)
    (hvet : ∀ id ∈ a.phase.revokes, ∀ m ∈ before.store.getMerchant id, m.revoked = false)
    {store : Store config} (hstore : ∀ id, store.getMerchant id = s.store.getMerchant id) :
    Restorable before { s with store, activities := s.activities ++ [a] } where
  inFlight := by
    show s.inFlight = (s.activities ++ [a]).countP _
    rw [List.countP_append, List.countP_singleton, hw, h.inFlight]
    simp
  baseline := h.baseline
  sound x hx := by
    rcases List.mem_append.1 hx with hx | hx
    · exact h.sound x hx
    · exact List.mem_singleton.1 hx ▸ hsound
  bank hzero := by
    refine (h.bank hzero).imp_right ?_
    rintro ⟨x, hx, hdue⟩
    exact ⟨x, List.mem_append_left _ hx, hdue⟩
  signers hzero i := by
    refine (h.signers hzero i).imp_right ?_
    rintro ⟨x, hx, hdue⟩
    exact ⟨x, List.mem_append_left _ hx, hdue⟩
  vetted x hx := by
    rcases List.mem_append.1 hx with hx | hx
    · exact h.vetted x hx
    · exact List.mem_singleton.1 hx ▸ hvet
  merchants id := by
    rw [Accounted, hstore]
    refine (h.merchants id).imp_right ?_
    rintro ⟨⟨x, hx, hrev⟩, hid⟩
    exact ⟨⟨x, List.mem_append_left _ hx, hrev⟩, hid⟩

/-- An activity goes on without entering or leaving its capture: what it does not set stays, and
what it was about to put back it still is. -/
theorem Restorable.put {before s : Demo} (h : Restorable before s) {i : ℕ} {a b : Activity}
    (hi : s.activities[i]? = some a) (services shown : ControlState) {store : Store config}
    (hw : b.phase.within = a.phase.within) (hsound : b.Sound before.services)
    (hvet : ∀ id ∈ b.phase.revokes, id ∈ a.phase.revokes)
    (hbank : s.inFlight = 0 → services.bankMode = before.services.bankMode ∨
      services.bankMode = s.services.bankMode ∧
        (a.DueBank before.services → b.DueBank before.services))
    (hsigners : s.inFlight = 0 → ∀ k, services.signers k = before.services.signers k ∨
      b.DueSigner before.services k ∨ services.signers k = s.services.signers k ∧
        (a.DueSigner before.services k → b.DueSigner before.services k))
    (hmerchants : ∀ id, Accounted before store (s.activities.set i b) id) :
    Restorable before { s.put i b with services, shown, store } where
  inFlight := by
    have hcount := countP_set_add (p := fun a : Activity => a.phase.within) (b := b) hi
    rw [hw] at hcount
    exact h.inFlight.trans (Nat.add_right_cancel hcount).symm
  baseline := h.baseline
  sound := mem_set_of_forall h.sound hsound
  bank hzero := by
    rcases hbank hzero with hset | ⟨hsame, hdue⟩
    · exact .inl hset
    · rcases h.bank hzero with hbefore | hex
      · exact .inl (hsame.trans hbefore)
      · exact .inr (exists_mem_set hi hex hdue)
  signers hzero k := by
    have hlt : i < s.activities.length := (List.getElem?_eq_some_iff.1 hi).1
    rcases hsigners hzero k with hset | hdue | ⟨hsame, hdue⟩
    · exact .inl hset
    · exact .inr ⟨b, List.mem_of_getElem? (List.getElem?_set_self hlt), hdue⟩
    · rcases h.signers hzero k with hbefore | hex
      · exact .inl (hsame.trans hbefore)
      · exact .inr (exists_mem_set hi hex hdue)
  vetted := by
    refine mem_set_of_forall h.vetted fun id hid => ?_
    exact h.vetted a (List.mem_of_getElem? hi) id (hvet id hid)
  merchants := hmerchants

/-- A merchant stays accounted for when the store keeps it, and the activity its revocation. -/
theorem Restorable.merchants_put {before s : Demo} (h : Restorable before s) {i : ℕ}
    {a b : Activity} (hi : s.activities[i]? = some a) {store : Store config} {id : String}
    (hstore : store.getMerchant id = s.store.getMerchant id)
    (hrev : a.phase.revoked = some id → b.phase.revoked = some id) :
    Accounted before store (s.activities.set i b) id := by
  rw [Accounted, hstore]
  refine (h.merchants id).imp_right ?_
  rintro ⟨hex, hid⟩
  exact ⟨exists_mem_set hi hex hrev, hid⟩

/-! ### Exchanges -/

/-- A post that is not the one replaced is still pending. -/
theorem mem_set_of_ne {l : List Exchange} {j : ℕ} {e e' x : Exchange} (hj : l[j]? = some e)
    (hx : x ∈ l) (hne : e ≠ x) : x ∈ l.set j e' := by
  obtain ⟨y, hy, rfl⟩ := exists_mem_set (p := (· = x)) (b := e') hj ⟨x, hx, rfl⟩
    fun heq => absurd heq hne
  exact hy

/-- An exchange is served, read or answered. -/
theorem Restorable.exchange {before s : Demo} (h : Restorable before s) {i : ℕ} {a : Activity}
    (hi : s.activities[i]? = some a) (services shown : ControlState) {pending : List Exchange}
    (hp : ∀ e ∈ pending, e ∈ a.pending ∨ e.isHealth)
    (hbank : s.inFlight = 0 → services.bankMode = before.services.bankMode ∨
      services.bankMode = s.services.bankMode ∧
        (.postMode before.services.bankMode ∈ a.pending →
          .postMode before.services.bankMode ∈ pending))
    (hsigners : s.inFlight = 0 → ∀ k, services.signers k = before.services.signers k ∨
      services.signers k = s.services.signers k ∧
        (.postOnline k (before.services.signers k) ∈ a.pending →
          .postOnline k (before.services.signers k) ∈ pending)) :
    Restorable before { s.put i ⟨a.phase, pending⟩ with services, shown } := by
  refine h.put (b := ⟨a.phase, pending⟩) hi services shown rfl
    ((h.sound a (List.mem_of_getElem? hi)).exchange hp) (fun _ hid => hid) hbank
    (fun hzero k => ?_) fun id => h.merchants_put hi rfl fun hrev => hrev
  refine (hsigners hzero k).imp_right fun ⟨hsame, hdue⟩ => .inr ⟨hsame, ?_⟩
  exact Or.imp_left hdue

/-- A service gets a setting. Of a restore, it is the one that was captured. -/
theorem Restorable.serve {before s : Demo} (h : Restorable before s) {i j : ℕ} {a : Activity}
    {e e' : Exchange} {services : ControlState} (hi : s.activities[i]? = some a)
    (hj : a.pending[j]? = some e) (hserve : e.serve s.services = some (e', services)) :
    Restorable before { s.put i ⟨a.phase, a.pending.set j e'⟩ with services } := by
  have hmem : a ∈ s.activities := List.mem_of_getElem? hi
  have hposts : s.inFlight = 0 → e.isHealth = false → e.PutsBack before.services := by
    intro hzero hhealth
    rcases (h.sound a hmem).posts (h.within hzero a hmem) e (List.mem_of_getElem? hj) with he | he
    · rw [hhealth] at he
      cases he
    · exact he.2
  have hp : e'.isHealth = true → ∀ x ∈ a.pending.set j e', x ∈ a.pending ∨ x.isHealth :=
    fun he' => mem_set_of_forall (fun x hx => .inl hx) (.inr he')
  cases e with
  | postMode mode =>
      obtain ⟨rfl, rfl⟩ := Prod.mk.inj (Option.some.inj hserve)
      refine h.exchange hi _ _ (hp rfl) (fun hzero => .inl (hposts hzero rfl)) fun hzero k => .inr
        ⟨rfl, fun hdue => mem_set_of_ne hj hdue Exchange.noConfusion⟩
  | postOnline k online =>
      obtain ⟨rfl, rfl⟩ := Prod.mk.inj (Option.some.inj hserve)
      refine h.exchange hi _ _ (hp rfl) (fun hzero => .inr
        ⟨rfl, fun hdue => mem_set_of_ne hj hdue Exchange.noConfusion⟩) fun hzero l => ?_
      by_cases hl : l = k
      · subst hl
        exact .inl ((Function.update_self ..).trans (hposts hzero rfl))
      · refine .inr ⟨Function.update_of_ne hl .., fun hdue => mem_set_of_ne hj hdue ?_⟩
        exact fun heq => hl (Exchange.postOnline.inj heq).1.symm
  | bankHealth read => cases hserve
  | signerHealth read => cases hserve

/-- A service says what it has, and the demo is as restorable as before. -/
theorem Restorable.read {before s : Demo} (h : Restorable before s) {i j : ℕ} {a : Activity}
    {e e' : Exchange} {k : SignerId} (hi : s.activities[i]? = some a)
    (hj : a.pending[j]? = some e) (hread : e.answer s.services k = some e') :
    Restorable before (s.put i ⟨a.phase, a.pending.set j e'⟩) := by
  have hhealth : e.isHealth = true ∧ e'.isHealth = true := by
    unfold Exchange.answer at hread
    split at hread
    · exact ⟨rfl, Option.some.inj hread ▸ rfl⟩
    · split at hread
      · exact ⟨rfl, Option.some.inj hread ▸ rfl⟩
      · cases hread
    · cases hread
  have hkeep : ∀ x ∈ a.pending, x.isHealth = false → x ∈ a.pending.set j e' := by
    intro x hx hpost
    refine mem_set_of_ne hj hx ?_
    rintro rfl
    rw [hhealth.1] at hpost
    cases hpost
  exact h.exchange hi _ s.shown
    (mem_set_of_forall (fun x hx => .inl hx) (.inr hhealth.2))
    (fun _ => .inr ⟨rfl, fun hdue => hkeep _ hdue rfl⟩)
    fun _ k => .inr ⟨rfl, fun hdue => hkeep _ hdue rfl⟩

/-- The answers of a poll come, and show the services as they were asked. -/
theorem Restorable.arrive {before s : Demo} (h : Restorable before s) {i j : ℕ} {a : Activity}
    {e : Exchange} {shown : ControlState} (hi : s.activities[i]? = some a)
    (hj : a.pending[j]? = some e) (harrive : e.arrive s.shown = some shown) :
    Restorable before { s.put i ⟨a.phase, a.pending.eraseIdx j⟩ with shown } := by
  have hhealth : e.isHealth = true := by
    unfold Exchange.arrive at harrive
    split at harrive
    · rfl
    · rfl
    · cases harrive
  have hkeep : ∀ x ∈ a.pending, x.isHealth = false → x ∈ a.pending.eraseIdx j := by
    intro x hx hpost
    obtain ⟨k, hk⟩ := List.mem_iff_getElem?.1 hx
    refine List.mem_eraseIdx_iff_getElem?.2 ⟨k, ?_, hk⟩
    rintro rfl
    obtain rfl := Option.some.inj (hj.symm.trans hk)
    rw [hhealth] at hpost
    cases hpost
  exact h.exchange hi s.services _ (fun x hx => .inl (List.mem_of_mem_eraseIdx hx))
    (fun _ => .inr ⟨rfl, fun hdue => hkeep _ hdue rfl⟩)
    fun _ k => .inr ⟨rfl, fun hdue => hkeep _ hdue rfl⟩

/-! ### Scenarios and restores -/

/-- `applyPreconditions` goes on to its next statement. -/
theorem Restorable.apply {before s : Demo} (h : Restorable before s) {i : ℕ} {a : Activity}
    {kind : ScenarioKind} {m : String} {rest : List (List Exchange)}
    (hi : s.activities[i]? = some a) (ha : a.phase = .applying kind m rest) :
    Restorable before ((s.apply kind m rest).2.put i (s.apply kind m rest).1) := by
  have hpos : s.inFlight ≠ 0 := fun hzero => by
    have hw := h.within hzero a (List.mem_of_getElem? hi)
    rw [ha] at hw
    cases hw
  cases rest with
  | cons stage rest =>
      refine h.put (b := ⟨.applying kind m rest, stage⟩) hi s.services s.shown
        (by rw [ha]; rfl) (.within rfl) (fun id hid => ?_) (fun hzero => absurd hzero hpos)
        (fun hzero => absurd hzero hpos) fun id => h.merchants_put hi rfl fun hrev => ?_
      · rw [ha]
        cases kind <;> exact hid
      · rw [ha] at hrev
        cases kind <;> cases hrev
  | nil =>
      refine h.put (b := ⟨.checking kind m, pollAllHealth⟩) hi s.services
        s.shown (by rw [ha]; rfl) (.within rfl) (fun id hid => ?_)
        (fun hzero => absurd hzero hpos) (fun hzero => absurd hzero hpos) fun id => ?_
      · rw [ha]
        cases kind <;> exact hid
      · have hnone : a.phase.revoked = none := by
          rw [ha]
          cases kind <;> rfl
        by_cases hrevoke : kind = .revokedMerchant ∧ id = m
        · obtain ⟨rfl, rfl⟩ := hrevoke
          have hlt : i < s.activities.length := (List.getElem?_eq_some_iff.1 hi).1
          refine .inr ⟨⟨_, List.mem_of_getElem? (List.getElem?_set_self hlt), rfl⟩, ?_⟩
          show (s.store.setMerchantRevoked id true "demo").getMerchant id = _
          rw [Store.getMerchant_setMerchantRevoked, if_pos rfl]
          rcases h.merchants id with hid | ⟨-, hid⟩
          · rw [hid]
          · rw [hid, Option.map_map]
            rfl
        · refine h.merchants_put hi ?_ fun hrev => by rw [hnone] at hrev; cases hrev
          show (s.store.applyPreconditions kind m).getMerchant id = s.store.getMerchant id
          unfold Store.applyPreconditions
          split
          · next hkind =>
              rw [Store.getMerchant_setMerchantRevoked, if_neg fun hid => hrevoke ⟨hkind, hid⟩]
          · rfl

/-- The preconditions of every kind start with an await. -/
theorem exists_apply_preconditions (s : Demo) (kind : ScenarioKind) (m : String) :
    ∃ stage rest, s.apply kind m (preconditions kind) = (⟨.applying kind m rest, stage⟩, s) := by
  cases kind <;> exact ⟨_, _, rfl⟩

/-- A scenario captures the baseline, or finds it captured. The settings are the operator's then:
what a restore under way puts back is in place, and without one nothing is out of place. -/
theorem Restorable.refresh {before s : Demo} (h : Restorable before s) {i : ℕ} {a : Activity}
    {kind : ScenarioKind} {m : String} (hi : s.activities[i]? = some a)
    (ha : a.phase = .refreshing kind m)
    (hok : s.inFlight = 0 → s.shown = s.services ∧
      ∀ a ∈ s.activities, ∀ prev ∈ a.phase.restores, s.services = prev) :
    Restorable before ((s.capture.apply kind m (preconditions kind)).2.put i
      (s.capture.apply kind m (preconditions kind)).1) := by
  obtain ⟨stage, rest, happly⟩ := exists_apply_preconditions s.capture kind m
  rw [happly]
  have hmem : a ∈ s.activities := List.mem_of_getElem? hi
  have hbaseline : s.capture.baseline = some before.services := by
    rw [capture]
    by_cases hzero : s.inFlight = 0
    · obtain ⟨hshown, hrestores⟩ := hok hzero
      have hservices : s.services = before.services := by
        by_cases hex : ∃ x ∈ s.activities, x.phase.restores.isSome
        · obtain ⟨x, hx, hsome⟩ := hex
          obtain ⟨prev, hprev⟩ := Option.isSome_iff_exists.1 hsome
          rw [hrestores x hx prev hprev, (h.sound x hx).restores prev hprev]
        · have hnot : ∀ x ∈ s.activities,
              ¬ x.DueBank before.services ∧ ∀ k, ¬ x.DueSigner before.services k := by
            intro x hx
            refine (h.sound x hx).not_due (h.within hzero x hx) ?_
            exact Option.not_isSome_iff_eq_none.1 fun hsome => hex ⟨x, hx, hsome⟩
          have hbank : s.services.bankMode = before.services.bankMode :=
            (h.bank hzero).resolve_right fun ⟨x, hx, hdue⟩ => (hnot x hx).1 hdue
          have hsigners : s.services.signers = before.services.signers := funext fun k =>
            (h.signers hzero k).resolve_right fun ⟨x, hx, hdue⟩ => (hnot x hx).2 k hdue
          exact ControlState.ext hbank hsigners
      simp only [if_pos hzero, hshown, hservices]
    · rw [if_neg hzero, h.baseline, if_neg hzero]
  have hcount := countP_set_add (p := fun a : Activity => a.phase.within)
    (b := ⟨.applying kind m rest, stage⟩) hi
  rw [ha] at hcount
  refine ⟨?_, ?_, mem_set_of_forall h.sound (.within rfl), fun hzero => absurd hzero
    (Nat.succ_ne_zero _), fun hzero => absurd hzero (Nat.succ_ne_zero _), ?_, fun id => ?_⟩
  · exact (congrArg (· + 1) h.inFlight).trans hcount.symm
  · exact hbaseline
  · refine mem_set_of_forall h.vetted fun id hid => h.vetted a hmem id ?_
    rw [ha]
    cases kind <;> exact hid
  · refine h.merchants_put hi rfl fun hrev => ?_
    rw [ha] at hrev
    cases hrev

/-- The loop of `restoreControls` goes on, with every signer left in it that it is about to set. -/
theorem Restorable.loop {before s : Demo} (h : Restorable before s) {i : ℕ} {a : Activity}
    {rest : List SignerId} (hi : s.activities[i]? = some a) (hw : a.phase.within = false)
    (hrev : a.phase.revoked = none) (hbank : ¬ a.DueBank before.services)
    (hrest : ∀ k, s.services.signers k = before.services.signers k ∨ k ∈ rest ∨
      ¬ a.DueSigner before.services k) :
    Restorable before (s.put i (restoreSigners before.services rest)) := by
  have hphase : (restoreSigners before.services rest).phase.within = false ∧
      (restoreSigners before.services rest).phase.revokes = none := by
    cases rest <;> exact ⟨rfl, rfl⟩
  refine h.put hi s.services s.shown (hphase.1.trans hw.symm)
    (.restoreSigners rest) (fun id hid => ?_)
    (fun _ => .inr ⟨rfl, fun hdue => absurd hdue hbank⟩) (fun _ k => ?_)
    fun id => h.merchants_put hi rfl fun hid => ?_
  · rw [hphase.2] at hid
    cases hid
  · rcases hrest k with hset | hmem | hnot
    · exact .inl hset
    · exact .inr (.inl (Activity.dueSigner_restoreSigners hmem))
    · exact .inr (.inr ⟨rfl, fun hdue => absurd hdue hnot⟩)
  · rw [hrev] at hid
    cases hid

/-- A signer whose setting is not in place is among those that the loop sets. -/
theorem mem_toRestore {prev : ControlState} {s : Demo} (hcurrent : s.SignersCurrent prev)
    (i : SignerId) : s.services.signers i = prev.signers i ∨ i ∈ s.toRestore prev := by
  by_cases hshown : s.shown.signers i = prev.signers i
  · exact .inl (hcurrent i hshown)
  · refine .inr (List.mem_filter.2 ⟨?_, decide_eq_true fun heq => hshown heq.symm⟩)
    cases i <;> decide

/-- What a restore starts with: it has no scenario, and whatever is not in place is due. -/
theorem restoreControls_spec (before s : Demo) :
    (s.restoreControls before.services).phase.within = false ∧
      (s.restoreControls before.services).phase.revokes = none ∧
      (s.restoreControls before.services).Sound before.services := by
  unfold restoreControls
  split
  · refine ⟨rfl, rfl, fun prev hprev => (Option.mem_some.1 hprev).symm,
      fun _ e he => .inr ⟨rfl, ?_⟩⟩
    rw [List.mem_singleton.1 he, Exchange.PutsBack]
  · refine ⟨?_, ?_, .restoreSigners _⟩
    · cases s.toRestore before.services <;> rfl
    · cases s.toRestore before.services <;> rfl

/-- A restore that compares with a current view leaves nothing out. -/
theorem restoreControls_due {before s : Demo} (hok : s.Current before.services) :
    (s.services.bankMode = before.services.bankMode ∨
        (s.restoreControls before.services).DueBank before.services) ∧
      ∀ k, s.services.signers k = before.services.signers k ∨
        (s.restoreControls before.services).DueSigner before.services k := by
  unfold restoreControls
  split
  · exact ⟨.inr (List.mem_singleton.2 rfl), fun k => .inr (.inr trivial)⟩
  · next hshown =>
      obtain ⟨hbank, hsigners⟩ := hok (not_not.1 hshown)
      refine ⟨.inl hbank, fun k => ?_⟩
      exact (mem_toRestore hsigners k).imp_right Activity.dueSigner_restoreSigners

/-- A scenario that has revoked a merchant reinstates it, and it was not revoked before. -/
theorem Restorable.merchants_settle {before s : Demo} (h : Restorable before s) {i : ℕ}
    {a b : Activity} {kind : ScenarioKind} {m : String} (hi : s.activities[i]? = some a)
    (ha : a.phase = .submitted kind m) (id : String) :
    Accounted before (if kind = .revokedMerchant then s.store.setMerchantRevoked m false "demo"
      else s.store) (s.activities.set i b) id := by
  by_cases hrevoke : kind = .revokedMerchant ∧ id = m
  · obtain ⟨rfl, rfl⟩ := hrevoke
    have hvet : ∀ x ∈ before.store.getMerchant id, x.revoked = false :=
      h.vetted a (List.mem_of_getElem? hi) id (by rw [ha]; rfl)
    have hback : (before.store.getMerchant id).map (fun x => { x with revoked := false }) =
        before.store.getMerchant id := by
      cases hget : before.store.getMerchant id with
      | none => rfl
      | some x =>
          have hx := hvet x hget
          rw [Option.map_some, ← hx]
    left
    rw [if_pos rfl, Store.getMerchant_setMerchantRevoked, if_pos rfl]
    rcases h.merchants id with hid | ⟨-, hid⟩
    · rw [hid, hback]
    · rw [hid, Option.map_map]
      exact hback
  · refine h.merchants_put hi ?_ fun hrev => absurd hrev ?_
    · split
      · next hkind =>
          rw [Store.getMerchant_setMerchantRevoked, if_neg fun hid => hrevoke ⟨hkind, hid⟩]
      · rfl
    · rw [ha]
      intro hrev
      cases kind <;> first | exact hrevoke ⟨rfl, (Option.some.inj hrev).symm⟩ | cases hrev

/-- A scenario settles: the last one in flight starts the restore. -/
theorem Restorable.settle {before s : Demo} (h : Restorable before s) {i : ℕ} {a : Activity}
    {kind : ScenarioKind} {m : String} (hi : s.activities[i]? = some a)
    (ha : a.phase = .submitted kind m)
    (hok : s.inFlight = 1 → ∀ prev ∈ s.baseline, s.Current prev) :
    Restorable before ((s.restorePreconditions kind m).2.put i
      (s.restorePreconditions kind m).1) := by
  have hlt : i < s.activities.length := (List.getElem?_eq_some_iff.1 hi).1
  obtain ⟨n, hn⟩ : ∃ n, s.inFlight = n + 1 := by
    refine Nat.exists_eq_succ_of_ne_zero fun hzero => ?_
    have hw := h.within hzero a (List.mem_of_getElem? hi)
    rw [ha] at hw
    cases hw
  have hbaseline : s.baseline = some before.services := by
    rw [h.baseline, if_neg (by omega)]
  have hcount : ∀ b : Activity, b.phase.within = false →
      n = (s.activities.set i b).countP (·.phase.within) := by
    intro b hb
    have hcount := countP_set_add (p := fun a : Activity => a.phase.within) (b := b) hi
    rw [ha, hb, ← h.inFlight, hn] at hcount
    exact (Nat.add_right_cancel hcount).symm
  cases n with
  | zero =>
      obtain ⟨hw, hrevokes, hsound⟩ := restoreControls_spec before s
      obtain ⟨hbank, hsigners⟩ := restoreControls_due (hok hn _ hbaseline)
      have heq : s.restorePreconditions kind m = (s.restoreControls before.services,
          { s with
            store := if kind = .revokedMerchant then s.store.setMerchantRevoked m false "demo"
              else s.store
            inFlight := 0
            baseline := none }) := by
        simp only [restorePreconditions, hn, hbaseline]
        rfl
      rw [heq]
      have hnew := List.mem_of_getElem?
        (List.getElem?_set_self (a := s.restoreControls before.services) hlt)
      refine ⟨hcount _ hw, (if_pos rfl).symm, mem_set_of_forall h.sound hsound,
        fun _ => hbank.imp_right fun hdue => ⟨_, hnew, hdue⟩,
        fun _ k => (hsigners k).imp_right fun hdue => ⟨_, hnew, hdue⟩,
        mem_set_of_forall h.vetted fun id hid => ?_, h.merchants_settle hi ha⟩
      rw [hrevokes] at hid
      cases hid
  | succ n =>
      have heq : s.restorePreconditions kind m = (⟨.polling, pollAllHealth⟩,
          { s with
            store := if kind = .revokedMerchant then s.store.setMerchantRevoked m false "demo"
              else s.store
            inFlight := n + 1 }) := by
        simp only [restorePreconditions, hn, Nat.add_sub_cancel]
      rw [heq]
      exact ⟨hcount _ rfl, hbaseline.trans (if_neg (Nat.succ_ne_zero n)).symm,
        mem_set_of_forall h.sound (.poll rfl), fun hzero => absurd hzero (Nat.succ_ne_zero n),
        fun hzero => absurd hzero (Nat.succ_ne_zero n),
        mem_set_of_forall h.vetted fun id hid => (by cases hid), h.merchants_settle hi ha⟩

/-- An activity goes on, once its exchanges are over. The cases are the phases. -/
theorem Restorable.resume {before s t : Demo} (h : Restorable before s) {i : ℕ} {a b : Activity}
    (hi : s.activities[i]? = some a) (hpending : a.pending = [])
    (hok : Meets before s (.resume i)) (hresume : s.resume a.phase = some (b, t)) :
    Restorable before (t.put i b) := by
  rw [Meets, hi] at hok
  obtain ⟨phase, pending⟩ := a
  subst hpending
  cases phase with
  | polling => cases hresume
  | refreshing kind m =>
      obtain ⟨rfl, rfl⟩ := Prod.mk.inj (Option.some.inj hresume)
      exact h.refresh hi rfl hok
  | applying kind m rest =>
      obtain ⟨rfl, rfl⟩ := Prod.mk.inj (Option.some.inj hresume)
      exact h.apply hi rfl
  | checking kind m =>
      obtain ⟨rfl, rfl⟩ := Prod.mk.inj (Option.some.inj hresume)
      have hpos : s.inFlight ≠ 0 := fun hzero => by
        cases h.within hzero _ (List.mem_of_getElem? hi)
      refine h.put (b := ⟨.submitted kind m, []⟩) hi s.services s.shown rfl
        (.within rfl) (fun id hid => ?_) (fun hzero => absurd hzero hpos)
        (fun hzero => absurd hzero hpos) fun id => h.merchants_put hi rfl fun hrev => ?_
      · cases kind <;> exact hid
      · cases kind <;> exact hrev
  | submitted kind m =>
      obtain ⟨rfl, rfl⟩ := Prod.mk.inj (Option.some.inj hresume)
      exact h.settle hi rfl hok
  | restoringBank prev =>
      obtain ⟨rfl, rfl⟩ := Prod.mk.inj (Option.some.inj hresume)
      obtain rfl : prev = before.services :=
        (h.sound _ (List.mem_of_getElem? hi)).restores prev rfl
      refine h.loop hi rfl rfl List.not_mem_nil fun k => ?_
      exact (mem_toRestore hok k).imp_right .inl
  | restoringSigners prev rest =>
      obtain ⟨rfl, rfl⟩ := Prod.mk.inj (Option.some.inj hresume)
      obtain rfl : prev = before.services :=
        (h.sound _ (List.mem_of_getElem? hi)).restores prev rfl
      refine h.loop hi rfl rfl List.not_mem_nil fun k => .inr ?_
      by_cases hk : k ∈ rest
      · exact .inl hk
      · exact .inr fun hdue => hdue.elim List.not_mem_nil hk

/-- **The step lemma.** A step that meets the condition keeps the invariant; the cases are the
steps, and for a resumption the phases. -/
theorem Restorable.step {before s t : Demo} (h : Restorable before s) {a : DemoAction}
    (hok : Meets before s a) (hact : s.act a = some t) : Restorable before t := by
  cases a with
  | scenario kind =>
      obtain rfl := Option.some.inj hact
      refine h.append rfl (.poll rfl) (fun id hid => ?_) fun _ => rfl
      cases kind <;> cases hid
      exact hok rfl
  | poll =>
      obtain rfl := Option.some.inj hact
      exact h.append rfl (.poll rfl) (fun id hid => by cases hid) fun _ => rfl
  | serve i j =>
      obtain ⟨a, hi, hact⟩ := Option.bind_eq_some_iff.1 hact
      obtain ⟨e, hj, hact⟩ := Option.bind_eq_some_iff.1 hact
      obtain ⟨⟨e', services⟩, hserve, hact⟩ := Option.bind_eq_some_iff.1 hact
      obtain rfl := Option.some.inj hact
      exact h.serve hi hj hserve
  | read i j k =>
      obtain ⟨a, hi, hact⟩ := Option.bind_eq_some_iff.1 hact
      obtain ⟨e, hj, hact⟩ := Option.bind_eq_some_iff.1 hact
      obtain ⟨e', hread, hact⟩ := Option.bind_eq_some_iff.1 hact
      obtain rfl := Option.some.inj hact
      exact h.read hi hj hread
  | arrive i j =>
      obtain ⟨a, hi, hact⟩ := Option.bind_eq_some_iff.1 hact
      obtain ⟨e, hj, hact⟩ := Option.bind_eq_some_iff.1 hact
      obtain ⟨shown, harrive, hact⟩ := Option.bind_eq_some_iff.1 hact
      obtain rfl := Option.some.inj hact
      exact h.arrive hi hj harrive
  | resume i =>
      obtain ⟨a, hi, hact⟩ := Option.bind_eq_some_iff.1 hact
      split at hact
      · next hempty =>
          obtain ⟨⟨b, s'⟩, hresume, hact⟩ := Option.bind_eq_some_iff.1 hact
          obtain rfl := Option.some.inj hact
          exact h.resume hi (List.isEmpty_iff.1 hempty) hok hresume
      · cases hact

/-- **The run lemma**: every state that is reached by steps that meet the condition is restorable.
-/
theorem Reaches.restorable {s t : Demo} (h : Reaches (Meets s) s t) (hs : s.Unused) :
    Restorable s t := by
  induction h with
  | start => exact hs.restorable
  | step _ hok hact ih => exact ih.step hok hact

/-- When all is over, nothing is due, and the settings are as they were. -/
theorem Restorable.restored {before s : Demo} (h : Restorable before s) (hs : s.Settled) :
    Restored before s := by
  have hzero : s.inFlight = 0 := by
    refine h.inFlight.trans (List.countP_eq_zero.2 fun a ha => ?_)
    rw [hs a ha]
    exact Bool.false_ne_true
  have hnot : ∀ a ∈ s.activities,
      ¬ a.DueBank before.services ∧ ∀ k, ¬ a.DueSigner before.services k := fun a ha =>
    (h.sound a ha).not_due (h.within hzero a ha) (by rw [hs a ha]; rfl)
  refine ⟨ControlState.ext ?_ (funext fun k => ?_), fun id => ?_⟩
  · exact (h.bank hzero).resolve_right fun ⟨a, ha, hdue⟩ => (hnot a ha).1 hdue
  · exact (h.signers hzero k).resolve_right fun ⟨a, ha, hdue⟩ => (hnot a ha).2 k hdue
  · refine (h.merchants id).resolve_right fun ⟨⟨a, ha, hrev⟩, _⟩ => ?_
    rw [hs a ha] at hrev
    cases hrev

end Demo

/-- **The scenarios put everything back**, once all is over, in every run whose steps meet the
condition. -/
theorem controls_restored {s t : Demo} (hs : s.Unused) (h : Demo.Reaches (Demo.Meets s) s t)
    (ht : t.Settled) : Demo.Restored s t :=
  (h.restorable hs).restored ht

/-! ### Small runs -/

namespace Small

/-- The exchanges of `pollAllHealth` and what the activity does after them. -/
def polled (i : ℕ) : List DemoAction :=
  [.read i 0 .utility, .read i 1 .utility, .read i 1 .cityA, .read i 1 .cityB, .arrive i 0,
    .arrive i 0, .resume i]

/-- The exchanges of `setBankMode`, up to its end. -/
def modeSet (i : ℕ) : List DemoAction :=
  [.serve i 0, .read i 0 .utility, .arrive i 0, .resume i]

/-- The exchanges of `setSignerOnline`, of `n` that are awaited together. -/
def onlineSet (i : ℕ) : ℕ → List DemoAction
  | 0 => []
  | n + 1 => [.serve i 0, .read i 0 .utility, .read i 0 .cityA, .read i 0 .cityB, .arrive i 0] ++
      onlineSet i n

/-- A coordinator before its first scenario, with what the operator has set. -/
def operated (services : ControlState) (merchants : List Merchant) : Demo where
  services
  store := { Store.boot config "" [] with merchants }
  shown := ⟨.CONFIRM, fun _ => false⟩
  baseline := none
  inFlight := 0
  activities := []

/-- Where the operator has set what he likes, no scenario is under way. -/
theorem operated_unused (services : ControlState) (merchants : List Merchant) :
    (operated services merchants).Unused :=
  ⟨rfl, rfl, fun a ha => by cases ha⟩

/-- The operator has the bank decline, a signer offline and a merchant revoked. -/
def dialled : Demo :=
  operated ⟨.DECLINE, fun i => i ≠ .cityA⟩
    (Store.seededMerchants.map fun m => { m with revoked := decide (m.merchantId = "MER-002") })

/-- Two scenarios that overlap: the second is started before the first has set its preconditions. -/
def overlapping : List DemoAction :=
  [.scenario .revokedMerchant] ++ polled 0 ++ [.scenario .ghost] ++ polled 1 ++ modeSet 0 ++
    modeSet 1 ++ onlineSet 0 3 ++ [.resume 0] ++ polled 0 ++ polled 1 ++
    [.resume 0, .resume 1] ++ onlineSet 1 1 ++ [.resume 1]

/-- The operator has revoked a merchant. -/
def revokedByHand : Demo :=
  operated ⟨.CONFIRM, fun _ => true⟩ (Store.seededMerchants.map fun m => { m with revoked := true })

/-- A scenario on a merchant that the operator had revoked by hand. -/
def reinstating : List DemoAction :=
  [.scenario .revokedMerchant] ++ polled 0 ++ modeSet 0 ++ onlineSet 0 3 ++ [.resume 0] ++
    polled 0 ++ [.resume 0]

/-- The second scenario captures its baseline after the restore of the first has set the bank, and
before it sets the signer. -/
def capturing : List DemoAction :=
  [.scenario .legit] ++ polled 0 ++ modeSet 0 ++ onlineSet 0 3 ++ [.resume 0] ++ polled 0 ++
    [.resume 0, .scenario .ghost] ++ (polled 1).dropLast ++ modeSet 0 ++ [.resume 1] ++
    onlineSet 0 1 ++ [.resume 0] ++ modeSet 1 ++ polled 1 ++ [.resume 1] ++ onlineSet 1 1 ++
    [.resume 1]

end Small

/-- Two scenarios that overlap give everything back. -/
theorem controls_restored_small :
    ∃ t, Demo.follow (Demo.Meets Small.dialled) Small.overlapping Small.dialled = some t ∧
      Demo.Restored Small.dialled t := by
  have hrun : (Demo.follow (Demo.Meets Small.dialled) Small.overlapping Small.dialled).any
      (fun t => decide t.Settled) = true := by decide +kernel
  obtain ⟨t, ht, hsettled⟩ := (Option.any_eq_true _ _).1 hrun
  exact ⟨t, ht, controls_restored (Small.operated_unused _ _) (.of_follow .start ht)
    (of_decide_eq_true hsettled)⟩

/-- **Not everything is put back.** A scenario reinstates a merchant that the operator had revoked;
and one that captures its baseline during a restore leaves a signer as the scenario before it had
set it. -/
theorem controls_lost :
    (∃ s t : Demo, s.Unused ∧ Demo.Reaches (fun _ _ => True) s t ∧ t.Settled ∧
      t.store.getMerchant "MER-001" ≠ s.store.getMerchant "MER-001") ∧
    ∃ s t : Demo, s.Unused ∧ Demo.Reaches (fun _ _ => True) s t ∧ t.Settled ∧
      t.services ≠ s.services := by
  constructor
  · have hrun : (Demo.follow (fun _ _ => True) Small.reinstating Small.revokedByHand).any
        (fun t => decide (t.Settled ∧ t.store.getMerchant "MER-001" ≠
          Small.revokedByHand.store.getMerchant "MER-001")) = true := by decide +kernel
    obtain ⟨t, ht, hlost⟩ := (Option.any_eq_true _ _).1 hrun
    obtain ⟨hsettled, hlost⟩ := of_decide_eq_true hlost
    exact ⟨_, t, Small.operated_unused _ _, .of_follow .start ht, hsettled, hlost⟩
  · have hrun : (Demo.follow (fun _ _ => True) Small.capturing Small.dialled).any
        (fun t => decide (t.Settled ∧ t.services ≠ Small.dialled.services)) = true := by
      decide +kernel
    obtain ⟨t, ht, hlost⟩ := (Option.any_eq_true _ _).1 hrun
    obtain ⟨hsettled, hlost⟩ := of_decide_eq_true hlost
    exact ⟨_, t, Small.operated_unused _ _, .of_follow .start ht, hsettled, hlost⟩

end NoGhost
