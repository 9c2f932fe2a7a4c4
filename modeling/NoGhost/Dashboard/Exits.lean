import NoGhost.Dashboard.Stepper

/-!
# The Exits of a Run

How far a record has come, and at which wall it is stopped, at every exit of `runPipeline`. The
walk carries the place of the record in the chain of statuses, and what the answers so far have
decided: whether the pre-flight found enough members, and whether the request was published. At
every exit the wall is one that the stepper reads rightly, but for these two.

## Main results

* `wp_runPipeline_exits`: the exits of a run.
* `shown_iff`: the exits of a run after which a record is shown honestly.
-/

open Js Async

namespace NoGhost.Dashboard

variable {cfg : Config} {P : Platform} {env : CoordinatorEnv cfg} {rid k : ℕ}

/-! ### What the answers decide -/

section Traces

variable {σ : Type}

/-- The run has got an answer: some call of its trace, the probes of the pre-flight the first of
them, was answered. -/
def Asked (t : CoordinatorTrace σ cfg) : Prop := ∃ q a, .answered q a ∈ t

/-- The answers to the first call of the run, which polls the members before the debit, show fewer
members online than are needed. -/
def PreflightShort (P : Platform) (t : CoordinatorTrace σ cfg) : Prop :=
  ∃ t₁ active answers t₂, t = t₁ ++ .answered (.health active) answers :: t₂ ∧ ¬ Asked t₁ ∧
    (active.filter fun i => signerIsOnline P (answers i.signerId)).length < cfg.t

/-- The coordinator misses what it needs to publish a request: the publisher's wallet, the manifest
or the encryption key. -/
def Unequipped (env : CoordinatorEnv cfg) : Prop :=
  env.publisherWallet = none ∨ (∃ e, env.manifest = .error e) ∨ ∃ e, env.encKey = .error e

/-- The request cannot be published: the ledger client fails, or the debit was confirmed, and the
coordinator misses what it needs. -/
def Unpublished (env : CoordinatorEnv cfg) (rid : ℕ) (t : CoordinatorTrace (Store cfg) cfg) :
    Prop :=
  (∃ tx e, .answered (.publish tx) (.error e) ∈ t) ∨
    Unequipped env ∧ ∃ s s', .wrote s s' ∈ t ∧ (s'.heap rid).status = .DEBIT_CONFIRMED

/-- The run leaves at an exit that the stepper misreads: a pre-flight without a quorum, or a request
that is not published. -/
def Astray (P : Platform) (env : CoordinatorEnv cfg) (rid : ℕ)
    (t : CoordinatorTrace (Store cfg) cfg) : Prop :=
  PreflightShort P t ∨ Unpublished env rid t

/-- An answer that the run has got stays in its trace. -/
theorem Asked.append {t : CoordinatorTrace σ cfg} (h : Asked t) (u : CoordinatorTrace σ cfg) :
    Asked (t ++ u) := by
  obtain ⟨q, a, hmem⟩ := h
  exact ⟨q, a, List.mem_append_left u hmem⟩

/-- A run that has just got an answer has got one. -/
theorem asked_concat (t : CoordinatorTrace σ cfg) (q : CoordinatorCall cfg) (a : q.Answer) :
    Asked (t ++ [.answered q a]) :=
  ⟨q, a, List.mem_append_right t (List.mem_singleton_self _)⟩

/-- A further entry makes a pre-flight short only where it is the first answer, and that of the
probes. -/
theorem PreflightShort.of_concat {t : CoordinatorTrace σ cfg}
    {e : Entry σ (CoordinatorCall cfg) CoordinatorCall.Answer} (h : PreflightShort P (t ++ [e])) :
    PreflightShort P t ∨ ¬ Asked t ∧ ∃ active answers, e = .answered (.health active) answers ∧
      (active.filter fun i => signerIsOnline P (answers i.signerId)).length < cfg.t := by
  obtain ⟨t₁, active, answers, t₂, heq, hfirst, hshort⟩ := h
  rcases List.eq_nil_or_concat t₂ with rfl | ⟨t₂, e', rfl⟩
  · obtain ⟨rfl, hlast⟩ := List.append_inj' heq rfl
    exact .inr ⟨hfirst, active, answers, List.singleton_inj.mp hlast, hshort⟩
  · rw [List.concat_eq_append, ← List.cons_append, ← List.append_assoc] at heq
    obtain ⟨rfl, -⟩ := List.append_inj' heq rfl
    exact .inl ⟨t₁, active, answers, t₂, rfl, hfirst, hshort⟩

end Traces

section Decided

variable {t u : CoordinatorTrace (Store cfg) cfg} {s s' : Store cfg} {q : CoordinatorCall cfg}
  {a : q.Answer}

/-- A run that has left astray has done so in every longer trace. -/
theorem Astray.append (h : Astray P env rid t) : Astray P env rid (t ++ u) := by
  rcases h with ⟨t₁, active, answers, t₂, rfl, hfirst, hshort⟩ | ⟨tx, e, hmem⟩ |
    ⟨hno, s, s', hmem, hs⟩
  · exact .inl ⟨t₁, active, answers, t₂ ++ u, by rw [List.append_assoc, List.cons_append], hfirst,
      hshort⟩
  · exact .inr (.inl ⟨tx, e, List.mem_append_left u hmem⟩)
  · exact .inr (.inr ⟨hno, s, s', List.mem_append_left u hmem, hs⟩)

/-- A write leads astray only if it confirms a debit that cannot be published. -/
theorem not_astray_wrote (h : ¬ Astray P env rid t)
    (hs : Unequipped env → (s'.heap rid).status ≠ .DEBIT_CONFIRMED) :
    ¬ Astray P env rid (t ++ [.wrote s s']) := by
  rintro (hshort | ⟨tx, e, hmem⟩ | ⟨hno, s₁, s₂, hmem, hs₂⟩)
  · rcases hshort.of_concat with hshort | ⟨-, active, answers, heq, -⟩
    · exact h (.inl hshort)
    · cases heq
  · rcases List.mem_append.mp hmem with hmem | hmem
    · exact h (.inr (.inl ⟨tx, e, hmem⟩))
    · cases List.mem_singleton.mp hmem
  · rcases List.mem_append.mp hmem with hmem | hmem
    · exact h (.inr (.inr ⟨hno, s₁, s₂, hmem, hs₂⟩))
    · cases List.mem_singleton.mp hmem
      exact hs hno hs₂

/-- An answer after the pre-flight leads astray only if it is about the publication. -/
theorem not_astray_answered (h : ¬ Astray P env rid t) (hasked : Asked t)
    (hq : ∀ tx e, (⟨q, a⟩ : (q : CoordinatorCall cfg) × q.Answer) ≠ ⟨.publish tx, .error e⟩) :
    ¬ Astray P env rid (t ++ [.answered q a]) := by
  rintro (hshort | ⟨tx, e, hmem⟩ | ⟨hno, s₁, s₂, hmem, hs₂⟩)
  · rcases hshort.of_concat with hshort | ⟨hfirst, -⟩
    · exact h (.inl hshort)
    · exact hfirst hasked
  · rcases List.mem_append.mp hmem with hmem | hmem
    · exact h (.inr (.inl ⟨tx, e, hmem⟩))
    · cases List.mem_singleton.mp hmem
      exact hq tx e rfl
  · rcases List.mem_append.mp hmem with hmem | hmem
    · exact h (.inr (.inr ⟨hno, s₁, s₂, hmem, hs₂⟩))
    · cases List.mem_singleton.mp hmem

end Decided

/-! ### Places -/

section Walk

variable {t : CoordinatorTrace (Store cfg) cfg} {s s' : Store cfg} {w : Wall}

/-- The others leave the record and the variables of the run alone. -/
def ownRules (cfg : Config) (rid : ℕ) :
    Rules (Store cfg) (CoordinatorCall cfg) CoordinatorCall.Answer where
  resume _ s _ s' := s'.heap rid = s.heap rid ∧ s'.stage rid = s.stage rid
  gua _ _ _ := True

/-- The weakest preconditions of a run under the rule that the others leave its record, and the
stage it is at, alone. -/
abbrev wpOwn (rid : ℕ) {α : Type} (p : CoordinatorProg cfg α)
    (post : α → CoordinatorTrace (Store cfg) cfg → Store cfg → Prop)
    (exn : String → CoordinatorTrace (Store cfg) cfg → Store cfg → Prop) :
    CoordinatorTrace (Store cfg) cfg → Store cfg → Prop :=
  wp (ownRules cfg rid) (Lens.whole (Store cfg)) p post exn

/-- The record has come to the place `k` of the chain: it has the status of that place, and its
history is the chain up to it. -/
structure Place (k : ℕ) (r : PipelineRecord cfg) : Prop where
  status : CHAIN[k]? = some r.status
  statuses : r.statuses = CHAIN.take (k + 1)

/-- What a write keeps that does not move the record of the run: its status, its history and its
stage. -/
structure Same (rid : ℕ) (s s' : Store cfg) : Prop where
  status : (s'.heap rid).status = (s.heap rid).status
  statuses : (s'.heap rid).statuses = (s.heap rid).statuses
  stage : s'.stage rid = s.stage rid

/-- A write that leaves the records and the stages alone moves no record. -/
theorem Same.of_heap (hheap : s'.heap = s.heap) (hstage : s'.stage = s.stage) : Same rid s s' :=
  ⟨by rw [hheap], by rw [hheap], by rw [hstage]⟩

/-- An assignment to other fields of the record than its status and history does not move it. -/
theorem Same.update {f : PipelineRecord cfg → PipelineRecord cfg}
    (hstatus : ∀ r, (f r).status = r.status) (hhistory : ∀ r, (f r).history = r.history) :
    Same rid s (s.update rid f) := by
  have hown := (rewrites_update rid f s).own
  exact ⟨by rw [hown, hstatus], by rw [hown, PipelineRecord.statuses, hhistory]; rfl, rfl⟩

/-- The place of a record is read off its status and history only. -/
theorem Place.same {r r' : PipelineRecord cfg} (h : Place k r) (hstatus : r'.status = r.status)
    (hstatuses : r'.statuses = r.statuses) : Place k r' :=
  ⟨by rw [hstatus, h.status], by rw [hstatuses, h.statuses]⟩

variable (P env rid) in
/-- The record is at the place `k`, and the wall `w` tells the stepper as much, unless the run has
gone astray. -/
structure Judged (k : ℕ) (w : Wall) (t : CoordinatorTrace (Store cfg) cfg)
    (r : PipelineRecord cfg) : Prop where
  le : k ≤ 5
  place : Place k r
  decided : Astray P env rid t ∨ (1 ≤ k → ¬ Unequipped env)
  fit : WALL_STEP w ≤ k + 1 ↔ ¬ Astray P env rid t

/-- No place of the chain but the last one, the delivery, is a terminal status. -/
theorem Place.alive {r : PipelineRecord cfg} (h : Place k r) (hk : k ≤ 5) :
    r.status ∉ TERMINAL := by
  have hstatus := h.status
  interval_cases k <;> rw [← Option.some.inj hstatus] <;> decide

/-- At the first place of the chain a record is pending. -/
theorem Place.zero_of_pending {r : PipelineRecord cfg} (h : Place 0 r) : r.status = .PENDING :=
  (Option.some.inj h.status).symm

/-- A write that does not move the record leaves the wall of the run judged as before. -/
theorem Judged.wrote (h : Judged P env rid k w t (s.heap rid))
    (hstatus : (s'.heap rid).status = (s.heap rid).status)
    (hstatuses : (s'.heap rid).statuses = (s.heap rid).statuses) :
    Judged P env rid k w (t ++ [.wrote s s']) (s'.heap rid) := by
  have hplace := h.place.same hstatus hstatuses
  by_cases hastray : Astray P env rid t
  · have hlt := mt h.fit.mp (not_not.mpr hastray)
    exact ⟨h.le, hplace, .inl hastray.append,
      ⟨fun hle => absurd hle hlt, fun hno => absurd hastray.append hno⟩⟩
  · have hequipped := h.decided.resolve_left hastray
    have hno : ¬ Astray P env rid (t ++ [.wrote s s']) := by
      refine not_astray_wrote hastray fun hun => ?_
      rcases Nat.eq_zero_or_pos k with rfl | hk
      · rw [hplace.zero_of_pending]
        nofun
      · exact absurd hun (hequipped hk)
    exact ⟨h.le, hplace, .inr hequipped, ⟨fun _ => hno, fun _ => h.fit.mpr hastray⟩⟩

/-- An alert is such a write: it is in the log of the store and in no record. -/
theorem Judged.alerted (h : Judged P env rid k w t (s.heap rid)) (alert : AlertText) :
    Judged P env rid k w (t ++ [.wrote s (s.addAlert alert)]) ((s.addAlert alert).heap rid) :=
  h.wrote rfl rfl

/-- An answer to a later call than the pre-flight and the publication leaves the judgement as it
was. -/
theorem Judged.answered {r r' : PipelineRecord cfg} (h : Judged P env rid k w t r)
    (hasked : Asked t) {q : CoordinatorCall cfg} {a : q.Answer} (hr : r' = r)
    (hq : ∀ tx e, (⟨q, a⟩ : (q : CoordinatorCall cfg) × q.Answer) ≠ ⟨.publish tx, .error e⟩) :
    Judged P env rid k w (t ++ [.answered q a]) r' := by
  subst hr
  by_cases hastray : Astray P env rid t
  · have hlt := mt h.fit.mp (not_not.mpr hastray)
    exact ⟨h.le, h.place, .inl hastray.append,
      ⟨fun hle => absurd hle hlt, fun hno => absurd hastray.append hno⟩⟩
  · have hno := not_astray_answered hastray hasked hq
    exact ⟨h.le, h.place, .inr (h.decided.resolve_left hastray),
      ⟨fun _ => hno, fun _ => h.fit.mpr hastray⟩⟩

/-! ### The ends of a run -/

variable (P env rid) in
/-- A record that was rejected or abandoned at some place: the wall of its rejection tells the
stepper as much, unless the run went astray. -/
def Shown (t : CoordinatorTrace (Store cfg) cfg) (s : Store cfg) : Prop :=
  (s.heap rid).status = .REJECTED ∨ (s.heap rid).status = .REJECTED_ABANDONED →
    ∃ k rejection, k ≤ 5 ∧ (s.heap rid).rejection = some rejection ∧
      (s.heap rid).statuses = CHAIN.take (k + 1) ++ [(s.heap rid).status] ∧
      (WALL_STEP rejection.wall ≤ k + 1 ↔ ¬ Astray P env rid t)

variable (P env rid) in
/-- A run that raises: the variable `stage` tells the stepper as much. -/
def Raised (t : CoordinatorTrace (Store cfg) cfg) (s : Store cfg) : Prop :=
  Asked t ∧ ∃ k, Judged P env rid k (s.stage rid) t (s.heap rid)

/-- A write puts no run astray, except where it is the confirmation of the debit and the publication
is still to come. -/
theorem astray_wrote (hs : (s'.heap rid).status ≠ .DEBIT_CONFIRMED) :
    Astray P env rid (t ++ [.wrote s s']) ↔ Astray P env rid t := by
  refine ⟨fun h => ?_, Astray.append⟩
  by_contra hno
  exact not_astray_wrote hno (fun _ => hs) h

/-- The last transition of a record that is rejected or abandoned. -/
theorem Judged.shown {r r' : PipelineRecord cfg} (h : Judged P env rid k w t r)
    {status : RequestStatus} {now note : String} {rejection : Rejection}
    (hs' : s'.heap rid = Store.moved status now note r') (hstatus : status ≠ .DEBIT_CONFIRMED)
    (hstatuses : r'.statuses = r.statuses) (hrejection : r'.rejection = some rejection)
    (hwall : rejection.wall = w) : Shown P env rid (t ++ [.wrote s s']) s' := by
  intro _
  refine ⟨k, rejection, h.le, by rw [hs']; exact hrejection, ?_, ?_⟩
  · rw [hs', statuses_moved, hstatuses, h.place.statuses]
    rfl
  · rw [hwall, astray_wrote (by rw [hs']; exact hstatus), h.fit]

/-- A rejection ends the run at a stepper that shows the wall the judgement has named. -/
theorem wp_reject_exits (h : Judged P env rid k w t (s.heap rid)) {reason attribution : String}
    {exn : String → CoordinatorTrace (Store cfg) cfg → Store cfg → Prop} :
    wpOwn rid (reject rid w reason attribution) (fun _ => Shown P env rid) exn t s := by
  have hown := (@rewrites_step _ .REJECTED (by decide) rid reason (fun r : PipelineRecord cfg =>
    { r with rejection := some ⟨w, reason, s.now, attribution⟩ }) s).own
  refine ⟨trivial, ?_⟩
  exact h.shown hown nofun rfl rfl rfl

/-- The fields that `abandon` sets on a record: whether the debit was reversed, and the reason with
its attribution. -/
def closed (reversed : Bool) (rejection : Rejection) (r : PipelineRecord cfg) :
    PipelineRecord cfg :=
  { r with debitReversed := some reversed, rejection := some rejection }

/-- The end of an abandoned run: the record keeps its place until the last transition, so the
stepper shows the wall that was judged. -/
theorem wp_closeAbandoned_exits (h : Judged P env rid k w t (s.heap rid))
    (h' : Judged P env rid k (s.stage rid) t (s.heap rid)) (hasked : Asked t)
    {reason attribution requestId : String} {debitRef : Option Json} {reversed : Bool} :
    wpOwn rid (closeAbandoned P rid w reason attribution requestId debitRef reversed)
      (fun _ => Shown P env rid) (fun _ => Raised P env rid) t s := by
  rw [wpOwn, closeAbandoned, wp_bind, wp_modify]
  have hown := (rewrites_update rid (closed reversed ⟨w, reason, s.now, attribution⟩) s).own
  have hsame : Same rid s (s.update rid (closed reversed ⟨w, reason, s.now, attribution⟩)) :=
    .update (fun _ => rfl) fun _ => rfl
  refine ⟨trivial, wp_ofExcept_bind (fun alert _ => ⟨trivial, ?_⟩) fun e _ =>
    ⟨hasked.append _, k, h'.wrote hsame.status hsame.statuses⟩⟩
  have hmoved := (@rewrites_transition _ .REJECTED_ABANDONED (by decide) rid
    (reason ++ (if reversed then " · debit reversed" else " · debit reversal FAILED"))
    ((s.update rid (closed reversed ⟨w, reason, s.now, attribution⟩)).addAlert alert)).own
  exact (h.wrote hsame.status hsame.statuses).shown hmoved (fun h => by cases h) rfl
    (congrArg PipelineRecord.rejection hown) rfl

/-- An abandoned run asks for the reversal of its debit, if any, and ends as judged whatever the
bank answers. -/
theorem wp_abandon_exits (h : Judged P env rid k w t (s.heap rid))
    (h' : Judged P env rid k (s.stage rid) t (s.heap rid)) (hasked : Asked t)
    {reason attribution : String} :
    wpOwn rid (abandon P rid w reason attribution) (fun _ => Shown P env rid)
      (fun _ => Raised P env rid) t s := by
  rw [wpOwn, abandon]
  simp only [theRecord, wp_bind, wp_gets]
  split
  · rw [reverseDebit]
    split
    · exact wp_closeAbandoned_exits h h' hasked
    · simp only [wp_bind]
      refine ⟨trivial, trivial, fun r s' hr => ?_⟩
      have hsame : ∀ ref, Same rid s (s.requestReversal rid ref) := fun ref => .of_heap rfl rfl
      refine wp_closeAbandoned_exits (k := k) ?_ ?_ (asked_concat _ _ _)
      · exact (h.wrote (hsame _).status (hsame _).statuses).answered (hasked.append _) hr.1
          fun tx e heq => by cases heq
      · rw [hr.2]
        exact (h'.wrote (hsame _).status (hsame _).statuses).answered (hasked.append _) hr.1
          fun tx e heq => by cases heq
  · exact wp_closeAbandoned_exits h h' hasked

/-- The backstop rejects or abandons at the stage the run had come to, which is a wall that was
judged for it. -/
theorem wp_backstop_exits (h : Raised P env rid t s) (err : String) :
    wpOwn rid (backstop P rid err) (fun _ => Shown P env rid) (fun _ => Raised P env rid) t s := by
  obtain ⟨hasked, k, h⟩ := h
  rw [wpOwn, backstop]
  simp only [theRecord, wp_bind, wp_gets, Lens.whole_view]
  split
  next hterminal =>
    exact absurd hterminal (h.place.alive h.le)
  next =>
    rw [wp_bind, wp_gets]
    split
    · exact wp_abandon_exits h h hasked
    · exact wp_reject_exits h

/-! ### On the way -/

/-- The stage that has just been set is the stage of the run. -/
theorem stage_setStage : (s.setStage rid w).stage rid = w := Function.update_self ..

/-- A transition to the next status of the chain moves the record to the next place, and is no end
of it. -/
theorem place_transition {status : RequestStatus} {note : String} (h : Place k (s.heap rid))
    (hk : k < 5) (hstatus : CHAIN[k + 1]? = some status) :
    Place (k + 1) ((s.transition rid status note).heap rid) ∧
      (s.transition rid status note).stage = s.stage := by
  have hon : status ∉ TERMINAL := by
    interval_cases k <;> rw [← Option.some.inj hstatus] <;> decide
  have hdelivered : status ≠ .DELIVERED := by
    rintro rfl
    exact hon (by decide)
  have hown := (rewrites_transition hdelivered rid note s).own
  refine ⟨⟨by rw [hown, hstatus]; rfl, ?_⟩, ?_⟩
  · rw [hown, statuses_moved, h.statuses, List.take_add_one (i := k + 1), hstatus]
    rfl
  · rw [Store.transition, if_neg hon]
    rfl

variable (P env rid) in
/-- The run goes on: the pre-flight has found enough members, and once the request was to be
published it was. -/
structure Ready (k : ℕ) (t : CoordinatorTrace (Store cfg) cfg) (s : Store cfg) : Prop where
  asked : Asked t
  le : k ≤ 5
  place : Place k (s.heap rid)
  straight : ¬ Astray P env rid t
  equipped : 1 ≤ k → ¬ Unequipped env

variable (P env rid) in
/-- The run goes on, and may raise at any point: the variable `stage` names a wall that the stepper
shows as the next step at most. -/
structure Going (k : ℕ) (t : CoordinatorTrace (Store cfg) cfg) (s : Store cfg) : Prop extends
    Ready P env rid k t s where
  stage : WALL_STEP (s.stage rid) ≤ k + 1

/-- A run that is on its way has every wall judged that lies no further than the step it has come
to. -/
theorem Ready.judged (h : Ready P env rid k t s) (hw : WALL_STEP w ≤ k + 1) :
    Judged P env rid k w t (s.heap rid) :=
  ⟨h.le, h.place, .inr h.equipped, ⟨fun _ => h.straight, fun _ => hw⟩⟩

/-- A program may raise at any point of a run that is on its way: the backstop then ends it at the
stage it is at. -/
theorem Going.raised (h : Going P env rid k t s) : Raised P env rid t s :=
  ⟨h.asked, k, h.toReady.judged h.stage⟩

/-- A write that does not move the record keeps the run on its way. -/
theorem Ready.wrote (h : Ready P env rid k t s)
    (hstatus : (s'.heap rid).status = (s.heap rid).status)
    (hstatuses : (s'.heap rid).statuses = (s.heap rid).statuses) :
    Ready P env rid k (t ++ [.wrote s s']) s' := by
  have hpolicy : WALL_STEP .POLICY ≤ k + 1 := Nat.zero_le _
  have hjudged := (h.judged hpolicy).wrote hstatus hstatuses
  exact ⟨h.asked.append _, h.le, hjudged.place, hjudged.fit.mp hpolicy, h.equipped⟩

/-- A write that leaves the status, the history and the variable `stage` as they are. -/
theorem Going.wp_modify (h : Going P env rid k t s) {f : Store cfg → Store cfg}
    {post : Unit → CoordinatorTrace (Store cfg) cfg → Store cfg → Prop}
    {exn : String → CoordinatorTrace (Store cfg) cfg → Store cfg → Prop} (hf : Same rid s (f s))
    (hpost : ∀ t s, Going P env rid k t s → post () t s) :
    wpOwn rid (.modify f) post exn t s :=
  ⟨trivial, hpost _ _ ⟨h.wrote hf.status hf.statuses, by
    rw [Lens.whole_view, Lens.whole_put, hf.stage]
    exact h.stage⟩⟩

/-- An assignment to the variable `stage`, which may only name a wall no further than the step after
the place of the record. -/
theorem Ready.wp_setStage (h : Ready P env rid k t s) (hw : WALL_STEP w ≤ k + 1)
    {post : Unit → CoordinatorTrace (Store cfg) cfg → Store cfg → Prop}
    {exn : String → CoordinatorTrace (Store cfg) cfg → Store cfg → Prop}
    (hpost : ∀ t s, Going P env rid k t s → post () t s) :
    wpOwn rid (.modify (Store.setStage rid w)) post exn t s :=
  ⟨trivial, hpost _ _ ⟨h.wrote rfl rfl, by
    rw [Lens.whole_view, Lens.whole_put, stage_setStage]
    exact hw⟩⟩

/-- An answer keeps the run on its way, since it neither moves the record nor is that of the
publication. -/
theorem Going.answered (h : Going P env rid k t s) {q : CoordinatorCall cfg} {a : q.Answer}
    (hr : (ownRules cfg rid).resume q s a s')
    (hq : ∀ tx e, (⟨q, a⟩ : (q : CoordinatorCall cfg) × q.Answer) ≠ ⟨.publish tx, .error e⟩) :
    Going P env rid k (t ++ [.answered q a]) s' := by
  have hjudged := (h.toReady.judged h.stage).answered h.asked hr.1 hq
  refine ⟨⟨asked_concat _ _ _, h.le, hjudged.place, hjudged.fit.mp h.stage, h.equipped⟩, ?_⟩
  rw [hr.2]
  exact h.stage

/-- A run on its way that abandons at a wall no further than its next step ends as the stepper shows
it. -/
theorem Going.wp_abandon (h : Going P env rid k t s) (hw : WALL_STEP w ≤ k + 1)
    {reason attribution : String} :
    wpOwn rid (abandon P rid w reason attribution) (fun _ => Shown P env rid)
      (fun _ => Raised P env rid) t s :=
  wp_abandon_exits (h.toReady.judged hw) (h.toReady.judged h.stage) h.asked

/-- The next status of the chain, with the fields that are assigned before it, moves the run one
place on. -/
theorem Going.wp_transition (h : Going P env rid k t s) (hk : k < 5) (hpos : 1 ≤ k)
    {status : RequestStatus} (hstatus : CHAIN[k + 1]? = some status) {note : Store cfg → String}
    {f : Store cfg → Store cfg} {post : Unit → CoordinatorTrace (Store cfg) cfg → Store cfg → Prop}
    {exn : String → CoordinatorTrace (Store cfg) cfg → Store cfg → Prop} (hf : Same rid s (f s))
    (hpost : ∀ t s, Going P env rid (k + 1) t s → post () t s) :
    wpOwn rid (.modify fun s => Store.transition rid status (note s) (f s)) post exn t s := by
  have hplace := @place_transition _ rid k (f s) status (note s)
    (h.place.same hf.status hf.statuses) hk hstatus
  refine ⟨trivial, hpost _ _ ⟨⟨h.asked.append _, hk, hplace.1, ?_, fun _ => h.equipped hpos⟩, ?_⟩⟩
  · exact not_astray_wrote h.straight fun hun => absurd hun (h.equipped hpos)
  · change WALL_STEP ((Store.transition rid status (note s) (f s)).stage rid) ≤ _
    rw [hplace.2, hf.stage]
    exact h.stage.trans (Nat.le_succ _)

/-! ### The steps of a run -/

/-- A program that keeps the run at its place of the chain, and that may raise there. -/
abbrev Keeps (P : Platform) (env : CoordinatorEnv cfg) (rid k : ℕ) {α : Type}
    (p : CoordinatorProg cfg α) : Prop :=
  ∀ t s, Going P env rid k t s → wpOwn rid p (fun _ => Going P env rid k)
    (fun _ => Going P env rid k) t s

/-- A program that takes the run from its place to its end, where the stepper shows what has
happened, and that may raise on the way. -/
abbrev Ends (P : Platform) (env : CoordinatorEnv cfg) (rid k : ℕ) (p : CoordinatorProg cfg Unit) :
    Prop :=
  ∀ t s, Going P env rid k t s → wpOwn rid p (fun _ => Shown P env rid)
    (fun _ => Raised P env rid) t s

/-- The credit writes the meters and not the record. -/
theorem keeps_creditMeter {token : Token} : Keeps P env rid k (creditMeter P rid token) :=
  fun t s h => by
    rw [creditMeter, wpOwn, wp_bind]
    refine h.wp_modify (.of_heap ?_ ?_) fun t s h => ?_
    · rw [Store.ensureMeter]
      split <;> rfl
    · rw [Store.ensureMeter]
      split <;> rfl
    · simp only [wp_bind, wp_gets]
      refine wp_ofExcept (fun balance _ => ?_) fun e _ => h
      exact h.wp_modify (.of_heap rfl rfl) fun _ _ h => h

/-- The last step of the chain, from `RECORDED`: the token is redeemed and the record delivered, or
the run is abandoned there. -/
theorem ends_deliver {token : Token} : Ends P env rid 5 (deliver P env rid token) := fun t s h => by
  rw [deliver]
  simp only [theRecord, wpOwn, wp_bind, wp_gets, deliverToken]
  split
  · rw [wp_pure]
    exact h.wp_abandon (by decide)
  · simp only [wp_bind]
    refine h.wp_modify (.of_heap rfl rfl) fun t s h => ?_
    rw [wp_bind]
    refine wp_mono (keeps_creditMeter t s h) (fun _ t s h => ?_) fun _ _ _ h => h.raised
    rw [wp_pure]
    refine ⟨trivial, fun hstatus => ?_⟩
    have hdelivered : ∀ (note : String) (u : Store cfg),
        ((u.transition rid .DELIVERED note).heap rid).status = .DELIVERED := fun note u => by
      rw [(transition_delivered rid note u).1]
      rfl
    rcases hstatus with hstatus | hstatus <;> cases (hdelivered _ _).symm.trans hstatus

/-- The calls for the fragments of the receipt move no record. Induction on the signers that are
left. -/
theorem keeps_collectFragments {body : Json} {signers : List (SignerInfo cfg.SignerId)} :
    Keeps P env rid k (collectFragments P body signers) := by
  induction signers with
  | nil => exact fun t s h => h
  | cons signer signers ih =>
      intro t s h
      rw [collectFragments]
      simp only [wpOwn, wp_bind, wp_call]
      refine ⟨trivial, fun r s' hr => ?_⟩
      have h := h.answered hr fun _ _ heq => by cases heq
      refine wp_ofExcept (fun fragment _ => ?_) fun e _ => h
      rw [wp_bind]
      exact wp_mono (ih _ s' h) (fun _ _ _ h => h) fun _ _ _ h => h

/-- The receipt is prepared, signed and submitted while the record keeps its place. -/
theorem keeps_multisignReceipt {publication : Publication} {token : Token}
    {signerSet : List cfg.SignerId} :
    Keeps P env rid k (multisignReceipt P env rid publication token signerSet) := fun t s h => by
  rw [multisignReceipt]
  simp only [theRecord, wpOwn, wp_bind, wp_gets]
  refine wp_ofExcept (fun debitRefHash _ => ?_) fun e _ => h
  simp only [wp_bind, wp_gets]
  refine wp_ofExcept (fun M _ => ?_) fun e _ => h
  simp only [wp_bind, wp_call]
  refine ⟨trivial, fun r s' hr => ?_⟩
  have h := h.answered hr fun _ _ heq => by cases heq
  refine wp_ofExcept (fun prepared _ => ?_) fun e _ => h
  rw [wp_bind]
  refine wp_mono (keeps_collectFragments _ s' h) (fun fragments t s h => ?_) fun _ _ _ h => h
  simp only [wp_bind, wp_call]
  refine ⟨trivial, fun r s' hr => ?_⟩
  have h := h.answered hr fun _ _ heq => by cases heq
  refine wp_ofExcept (fun txHash _ => ?_) fun e _ => h
  rw [wp_bind]
  exact h.wp_modify (.of_heap rfl rfl) fun t s h => h

/-- From the settlement of the receipt on: the record moves on to `RECORDED`, or the run is
abandoned at that wall. -/
theorem ends_settleReceipt {publication : Publication} {token : Token}
    {signerSet : List cfg.SignerId} :
    Ends P env rid 4 (settleReceipt P env rid publication token signerSet) := fun t s h => by
  rw [settleReceipt]
  simp only [theRecord, wpOwn, wp_bind, wp_gets]
  split
  · exact h.wp_abandon (by decide)
  · rw [wp_bind]
    refine h.toReady.wp_setStage (by decide) fun t s h => ?_
    rw [wp_bind, wp_tryCatch, wp_map]
    refine wp_mono (keeps_multisignReceipt t s h) (fun ledger t s h => ?_) fun e t s h => ?_
    · rw [wp_bind]
      have hsame : Same rid s (s.update rid fun r => { r with ledger := some ledger }) :=
        .update (fun _ => rfl) fun _ => rfl
      exact h.wp_transition (by decide) (by decide) rfl ⟨hsame.status, hsame.statuses, hsame.stage⟩
        fun t s h => ends_deliver t s h
    · exact h.wp_abandon (by decide)

/-- A poll keeps the run where it is, whatever the members answer. -/
theorem keeps_poll : @Keeps cfg P env rid k _ (pollOnlineActiveSigners P) := fun t s h => by
  rw [pollOnlineActiveSigners]
  simp only [wpOwn, wp_bind, wp_gets, wp_call, wp_pure]
  exact ⟨trivial, fun answers s' hr => h.answered hr fun _ _ heq => by cases heq⟩

/-- The two rounds of a ceremony are calls only, so the run keeps its place through them. -/
theorem keeps_runCeremony {chosen : List (SignerInfo cfg.SignerId)} {tokenPayload : TokenPayload}
    {message : Bytes} {messageHex : String} :
    Keeps P env rid k (runCeremony P env rid chosen tokenPayload message messageHex) :=
  fun t s h => by
    refine wp_runCeremony (J := Going P env rid k) h (fun _ _ _ => trivial)
      (fun signers body r t s s' h hr => h.answered hr fun _ _ heq => by cases heq)
      (fun signer body r t s s' h hr => h.answered hr fun _ _ heq => by cases heq)
      (fun _ _ _ _ h _ => h) (fun _ _ _ _ _ h _ _ => h) fun _ _ _ _ h => h

/-- **The ceremony loop.** A refused ceremony is tried again without the member it blames, so the
proof is by induction on the fuel: each turn goes on with a token, abandons, or leaves the place to
the next turn. -/
theorem ends_ceremonyLoop {publication : Publication} {online : List (SignerInfo cfg.SignerId)}
    {tokenPayload : TokenPayload} {message : Bytes} {fuel : ℕ} {refused : List cfg.SignerId} :
    Ends P env rid 3
      (ceremonyLoop P env rid publication online tokenPayload message fuel refused) := by
  induction fuel generalizing refused with
  | zero => exact fun t s h => h.raised
  | succ fuel ih =>
      intro t s h
      rw [ceremonyLoop, wpOwn]
      split
      · exact h.wp_abandon (by decide)
      · simp only [theRecord, wp_bind, wp_gets]
        refine wp_mono (keeps_runCeremony t s h) (fun outcome t s h => ?_) fun _ _ _ h => h.raised
        cases outcome with
        | refused signer reason =>
            rw [wp_bind]
            refine h.wp_modify (.of_heap rfl rfl) fun t s h => ?_
            refine wp_ofExcept_bind (fun alert _ => ?_) fun e _ => h.raised
            rw [wp_bind]
            exact h.wp_modify (.of_heap rfl rfl) fun t s h => ih t s h
        | error e =>
            simp only
            split
            next signer _ =>
              rw [wp_bind]
              exact h.wp_modify (.of_heap rfl rfl) fun t s h => h.wp_abandon (by decide)
            next => exact h.wp_abandon (by decide)
        | ok token signerSet =>
            simp only [wp_bind]
            exact h.wp_transition (by decide) (by decide) rfl
              (Same.update (fun _ => rfl) fun _ => rfl) fun t s h => ends_settleReceipt t s h

/-- Step 6 as a whole: a quorum that is lost after the poll is an end at the wall of the ceremony.
-/
theorem ends_ceremony {publication : Publication} :
    Ends P env rid 3 (ceremony P env rid publication) := fun t s h => by
  rw [ceremony, wpOwn, wp_bind]
  refine h.toReady.wp_setStage (by decide) fun t s h => ?_
  rw [wp_bind]
  refine wp_mono (keeps_poll t s h) (fun online t s h => ?_) fun _ _ _ h => h.raised
  simp only [theRecord, wp_bind, wp_gets]
  split
  · rw [wp_bind]
    exact h.wp_modify (.of_heap rfl rfl) fun t s h => h.wp_abandon (by decide)
  · exact wp_ofExcept_bind (fun tokenPayload _ => ends_ceremonyLoop t s h) fun e _ => h.raised

/-- Step 5: the record is at the publication, which is where a run without enough approvals ends. -/
theorem ends_approve {publication : Publication} (h : Ready P env rid 2 t s) :
    wpOwn rid (approve P env rid publication) (fun _ => Shown P env rid)
      (fun _ => Raised P env rid) t s := by
  rw [approve, wpOwn, wp_bind]
  refine h.wp_setStage (by decide) fun t s h => ?_
  rw [wp_bind]
  refine wp_mono (keeps_poll t s h) (fun approvers t s h => ?_) fun _ _ _ h => h.raised
  split
  · exact h.wp_abandon (by decide)
  · simp only [gatherApprovals, wp_bind, wp_call]
    refine ⟨trivial, fun answers s hr => ?_⟩
    have h := h.answered hr fun _ _ heq => by cases heq
    refine wp_ofExcept (fun M _ => ?_) fun e _ => h.raised
    simp only [wp_bind, wp_call]
    refine ⟨trivial, fun txs s hr => ?_⟩
    have h := h.answered hr fun _ _ heq => by cases heq
    refine wp_ofExcept (fun txs _ => ?_) fun e _ => h.raised
    rw [wp_bind]
    refine wp_ofExcept (fun approvals _ => ?_) fun e _ => h.raised
    rw [wp_bind]
    refine h.wp_modify (.update (fun _ => rfl) fun _ => rfl) fun t s h => ?_
    simp only [theRecord, wp_bind, wp_pure, wp_gets]
    split
    · rw [wp_bind]
      exact h.wp_modify (.of_heap rfl rfl) fun t s h => h.wp_abandon (by decide)
    · rw [wp_bind]
      exact h.wp_transition (by decide) (by decide) rfl (.of_heap rfl rfl)
        fun t s h => ends_ceremony t s h

/-! ### The publication -/

variable (P rid) in
/-- The debit is confirmed, and the request is about to be published: the one place at which an end
is misread by the stepper. -/
structure Publishing (t : CoordinatorTrace (Store cfg) cfg) (s : Store cfg) : Prop where
  asked : Asked t
  place : Place 1 (s.heap rid)
  preflight : ¬ PreflightShort P t
  unasked : ∀ tx e, .answered (.publish tx) (.error e) ∉ t
  confirmed : ∃ s₁ s₂, .wrote s₁ s₂ ∈ t ∧ (s₂.heap rid).status = .DEBIT_CONFIRMED

/-- A publication that fails: the record is still at `DEBIT_CONFIRMED`, and the exit is one that the
stepper misreads. -/
theorem wp_unpublished {r : PipelineRecord cfg} (hs : s.heap rid = r) (hplace : Place 1 r)
    (hstage : s.stage rid = .LEDGER) (hasked : Asked t) (hno : Unpublished env rid t)
    {reason attribution : String} :
    wpOwn rid (abandon P rid .LEDGER reason attribution) (fun _ => Shown P env rid)
      (fun _ => Raised P env rid) t s := by
  subst hs
  have hjudged : Judged P env rid 1 .LEDGER t (s.heap rid) :=
    ⟨by decide, hplace, .inl (.inr hno),
      ⟨fun hle => absurd hle (by decide), fun hstraight => absurd (.inr hno) hstraight⟩⟩
  exact wp_abandon_exits hjudged (hstage ▸ hjudged) hasked

/-- A run that cannot publish for lack of a wallet, a manifest or a key is abandoned at that same
exit. -/
theorem Publishing.unequipped (h : Publishing P rid t s) (hstage : s.stage rid = .LEDGER)
    (hun : Unequipped env) {reason attribution : String} :
    wpOwn rid (abandon P rid .LEDGER reason attribution) (fun _ => Shown P env rid)
      (fun _ => Raised P env rid) t s :=
  wp_unpublished rfl h.place hstage h.asked (.inr ⟨hun, h.confirmed⟩)

/-- The variable `stage` is assigned before the publication, and the run stays where it is. -/
theorem Publishing.setStage (h : Publishing P rid t s) :
    Publishing P rid (t ++ [.wrote s (s.setStage rid w)]) (s.setStage rid w) := by
  obtain ⟨s₁, s₂, hmem, hconfirmed⟩ := h.confirmed
  refine ⟨h.asked.append _, h.place, fun hshort => ?_, fun tx e hmem => ?_, s₁, s₂,
    List.mem_append_left _ hmem, hconfirmed⟩
  · rcases hshort.of_concat with hshort | ⟨-, active, answers, heq, -⟩
    · exact h.preflight hshort
    · cases heq
  · rcases List.mem_append.mp hmem with hmem | hmem
    · exact h.unasked tx e hmem
    · cases List.mem_singleton.mp hmem

/-- A publication that succeeds makes the run one of those that are on their way. -/
theorem Publishing.answered (h : Publishing P rid t s) (hequipped : ¬ Unequipped env) {tx : Tx}
    {hash : String} (hr : s'.heap rid = s.heap rid) {note : String}
    {f : PipelineRecord cfg → PipelineRecord cfg} (hf : Same rid s' (s'.update rid f)) :
    Ready P env rid 2 (t ++ [.answered (.publish tx) (.ok hash)] ++
        [.wrote s' (Store.transition rid .PUBLISHED note (s'.update rid f))])
      (Store.transition rid .PUBLISHED note (s'.update rid f)) := by
  have hplace := @place_transition _ rid 1 (s'.update rid f) .PUBLISHED note
    ((hr ▸ h.place : Place 1 (s'.heap rid)).same hf.status hf.statuses) (by decide) rfl
  refine ⟨(asked_concat _ _ _).append _, by decide, hplace.1, ?_, fun _ => hequipped⟩
  refine not_astray_wrote ?_ fun hun => absurd hun hequipped
  rintro (hshort | ⟨tx', e, hmem⟩ | ⟨hun, -⟩)
  · rcases hshort.of_concat with hshort | ⟨hfirst, -⟩
    · exact h.preflight hshort
    · exact hfirst h.asked
  · rcases List.mem_append.mp hmem with hmem | hmem
    · exact h.unasked tx' e hmem
    · cases List.mem_singleton.mp hmem
  · exact hequipped hun

/-- Step 4: the run is abandoned before or after the call of the ledger, or goes on to the
approvals. -/
theorem ends_publish (h : Publishing P rid t s) :
    wpOwn rid (publish P env rid) (fun _ => Shown P env rid) (fun _ => Raised P env rid) t s := by
  rw [publish, wpOwn, wp_bind, wp_modify]
  refine ⟨trivial, ?_⟩
  simp only [Lens.whole_view, Lens.whole_put]
  have hstage : (s.setStage rid .LEDGER).stage rid = .LEDGER := stage_setStage
  have h := h.setStage (w := .LEDGER)
  rw [wp_bind, wp_tryCatch, wp_map, publishOnChain]
  split
  next hwallet => exact h.unequipped hstage (.inl hwallet)
  next publisher hwallet =>
    simp only [theRecord, wp_bind, wp_gets]
    refine wp_ofExcept (fun M hM => ?_) fun e he => h.unequipped hstage (.inr (.inl ⟨e, he⟩))
    rw [wp_bind]
    refine wp_ofExcept (fun encKey hkey => ?_) fun e he => h.unequipped hstage (.inr (.inr ⟨e, he⟩))
    simp only [wp_bind, wp_gets, wp_call]
    refine ⟨trivial, fun r s' hr => ?_⟩
    refine wp_ofExcept (fun txHash hhash => ?_) fun e he => ?_
    · rw [wp_pure, wp_bind]
      have hequipped : ¬ Unequipped env := by
        rintro (hno | ⟨e, he⟩ | ⟨e, he⟩)
        · cases hwallet.symm.trans hno
        · cases hM.symm.trans he
        · cases hkey.symm.trans he
      subst hhash
      exact ⟨trivial,
        ends_approve (h.answered hequipped hr.1 (.update (fun _ => rfl) fun _ => rfl))⟩
    · subst he
      refine wp_unpublished hr.1 h.place (hr.2.trans hstage) (asked_concat _ _ _) ?_
      exact .inl ⟨_, e, List.mem_append_right _ (List.mem_singleton_self _)⟩

/-! ### The run -/

/-- The confirmation of the debit moves the record to the place from which the request is to be
published. -/
theorem Going.confirm (h : Going P env rid 0 t s) (note : String) :
    Publishing P rid (t ++ [.wrote s (Store.transition rid .DEBIT_CONFIRMED note s)])
      (Store.transition rid .DEBIT_CONFIRMED note s) := by
  have hplace := @place_transition _ rid 0 s .DEBIT_CONFIRMED note h.place (by decide) rfl
  refine ⟨h.asked.append _, hplace.1, fun hshort => ?_, fun tx e hmem => ?_, s, _,
    List.mem_append_right _ (List.mem_singleton_self _), (Option.some.inj hplace.1.status).symm⟩
  · rcases hshort.of_concat with hshort | ⟨-, active, answers, heq, -⟩
    · exact h.straight (.inl hshort)
    · cases heq
  · rcases List.mem_append.mp hmem with hmem | hmem
    · exact h.straight (.inr (.inl ⟨tx, e, hmem⟩))
    · cases List.mem_singleton.mp hmem

/-- The claim either confirms the debit or rejects the request at the wall of the bank. -/
theorem ends_claimDebit {request : GenerationRequest} {debit : Json} :
    Ends P env rid 0 (claimDebit P env rid request debit) := fun t s h => by
  rw [claimDebit, wpOwn]
  simp only [wp_bind, wp_modifyGet]
  have h' : Going P env rid 0 (t ++ [.wrote s (s.claimDebitRef (debit.get? "debitRef")
      request.requestId).2]) (s.claimDebitRef (debit.get? "debitRef") request.requestId).2 := by
    have hsame : Same rid s (s.claimDebitRef (debit.get? "debitRef") request.requestId).2 := by
      rcases claimDebitRef_cases (debit.get? "debitRef") request.requestId s with
        ⟨owner, heq, -⟩ | ⟨heq, -⟩ <;> rw [heq] <;> exact .of_heap rfl rfl
    refine ⟨h.toReady.wrote hsame.status hsame.statuses, ?_⟩
    rw [hsame.stage]
    exact h.stage
  refine ⟨trivial, ?_⟩
  split
  · refine wp_ofExcept_bind (fun ref _ => ?_) fun e _ => h'.raised
    rw [wp_bind]
    exact h'.wp_modify (.of_heap rfl rfl) fun t s h =>
      wp_reject_exits (h.toReady.judged (Nat.zero_le _))
  · refine wp_ofExcept_bind (fun ref _ => ?_) fun e _ => h'.raised
    refine wp_ofExcept_bind (fun amount _ => ?_) fun e _ => h'.raised
    rw [wp_bind]
    exact ⟨trivial, ends_publish (h'.confirm _)⟩

/-- So does a confirmation in hand, which is rejected where its signature or its fields do not hold.
-/
theorem ends_confirmed {request : GenerationRequest} {debit : Json} :
    Ends P env rid 0 (confirmed P env rid request debit) := fun t s h => by
  rw [confirmed, wpOwn]
  split
  · simp only [wp_bind]
    refine h.wp_modify (.of_heap rfl rfl) fun t s h => ?_
    rw [wp_bind]
    exact h.wp_modify (.of_heap rfl rfl) fun t s h =>
      wp_reject_exits (h.toReady.judged (by decide))
  · simp only [wp_bind]
    refine h.wp_modify (.of_heap rfl rfl) fun t s h => ?_
    rw [wp_bind]
    exact h.wp_modify (.update (fun _ => rfl) fun _ => rfl) fun t s h => ends_claimDebit t s h

/-- Step 3: every answer of the bank but a confirmation that holds is a rejection at the wall of the
bank. -/
theorem ends_debit {request : GenerationRequest} (h : Ready P env rid 0 t s) :
    wpOwn rid (debit P env rid request) (fun _ => Shown P env rid)
      (fun _ => Raised P env rid) t s := by
  have hbank : WALL_STEP .WALL_1_BANK ≤ 0 + 1 := by decide
  rw [debit, wpOwn, wp_bind]
  refine h.wp_setStage hbank fun t s h => ?_
  rw [wp_bind]
  refine h.wp_modify (.of_heap rfl rfl) fun t s h => ?_
  rw [wp_bind, wp_call]
  refine ⟨trivial, fun r s hr => ?_⟩
  have h := h.answered hr fun _ _ heq => by cases heq
  rcases r with - | r
  · simp only [wp_bind]
    refine h.wp_modify (.of_heap rfl rfl) fun t s h => ?_
    rw [wp_bind]
    refine h.wp_modify (.of_heap rfl rfl) fun t s h => ?_
    rw [wp_bind]
    exact h.wp_modify (.of_heap rfl rfl) fun t s h => wp_reject_exits (h.toReady.judged hbank)
  · simp only [wp_bind]
    refine h.wp_modify (.of_heap rfl rfl) fun t s h => ?_
    split
    · rw [wp_bind]
      refine h.wp_modify (.of_heap rfl rfl) fun t s h => ?_
      refine wp_ofExcept_bind (fun reason _ => ?_) fun e _ => h.raised
      rw [wp_bind]
      exact h.wp_modify (.of_heap rfl rfl) fun t s h => wp_reject_exits (h.toReady.judged hbank)
    · exact ends_confirmed t s h

variable (P env rid) in
/-- The run has not got an answer yet: its record is pending, and no exit has been missed. -/
structure Opening (t : CoordinatorTrace (Store cfg) cfg) (s : Store cfg) : Prop where
  unasked : ¬ Asked t
  place : Place 0 (s.heap rid)
  straight : ¬ Astray P env rid t

/-- A write that leaves the records alone keeps the run at its opening. -/
theorem Opening.wrote (h : Opening P env rid t s) (hheap : s'.heap = s.heap) :
    Opening P env rid (t ++ [.wrote s s']) s' := by
  have hplace : Place 0 (s'.heap rid) := hheap ▸ h.place
  refine ⟨fun ⟨q, a, hmem⟩ => ?_, hplace, not_astray_wrote h.straight fun _ => ?_⟩
  · rcases List.mem_append.mp hmem with hmem | hmem
    · exact h.unasked ⟨q, a, hmem⟩
    · cases List.mem_singleton.mp hmem
  · rw [hplace.zero_of_pending]
    nofun

/-- Before the first answer, the policy gate is the only wall that can have stopped the run. -/
theorem Opening.judged (h : Opening P env rid t s) :
    Judged P env rid 0 .POLICY t (s.heap rid) :=
  ⟨by decide, h.place, .inr fun hk => absurd hk (by decide),
    ⟨fun _ => h.straight, fun _ => Nat.zero_le _⟩⟩

/-- The answers of the pre-flight: with a quorum the run is on its way at the first place, and
without one its exit is misread. -/
theorem Opening.polled (h : Opening P env rid t s) {active : List (SignerInfo cfg.SignerId)}
    {answers : cfg.SignerId → Option HttpResult}
    (hr : (ownRules cfg rid).resume (.health active) s answers s') :
    let t' := t ++ [.answered (.health active) answers]
    let online := (active.filter fun i => signerIsOnline P (answers i.signerId)).length
    (online < cfg.t → Judged P env rid 0 .WALL_2_CONSORTIUM t' (s'.heap rid)) ∧
      (cfg.t ≤ online → Ready P env rid 0 t' s') := by
  intro t' online
  have hplace : Place 0 (s'.heap rid) := hr.1 ▸ h.place
  constructor
  · intro hshort
    have hastray : Astray P env rid t' := .inl ⟨t, active, answers, [], rfl, h.unasked, hshort⟩
    exact ⟨by decide, hplace, .inl hastray,
      ⟨fun hle => absurd hle (by decide), fun hstraight => absurd hastray hstraight⟩⟩
  · intro henough
    refine ⟨asked_concat _ _ _, by decide, hplace, ?_, fun hk => absurd hk (by decide)⟩
    rintro (hshort | ⟨tx, e, hmem⟩ | ⟨hun, s₁, s₂, hmem, hs₂⟩)
    · rcases hshort.of_concat with hshort | ⟨-, active', answers', heq, hshort⟩
      · exact h.straight (.inl hshort)
      · cases heq
        exact absurd henough (Nat.not_le.mpr hshort)
    · rcases List.mem_append.mp hmem with hmem | hmem
      · exact h.straight (.inr (.inl ⟨tx, e, hmem⟩))
      · cases List.mem_singleton.mp hmem
    · rcases List.mem_append.mp hmem with hmem | hmem
      · exact h.straight (.inr (.inr ⟨hun, s₁, s₂, hmem, hs₂⟩))
      · cases List.mem_singleton.mp hmem

/-- The pre-flight polls the active members and rejects or goes on to the bank. -/
theorem ends_preflight {request : GenerationRequest} (h : Opening P env rid t s) :
    wpOwn rid (preflight P env rid request) (fun _ => Shown P env rid)
      (fun _ => Raised P env rid) t s := by
  rw [preflight, wpOwn, wp_bind, wp_modify]
  refine ⟨trivial, ?_⟩
  have h : Opening P env rid (t ++ [.wrote s (s.setStage rid .WALL_2_CONSORTIUM)])
      (s.setStage rid .WALL_2_CONSORTIUM) := h.wrote rfl
  simp only [Lens.whole_view, Lens.whole_put, pollOnlineActiveSigners, wp_bind, wp_gets, wp_call,
    wp_pure]
  refine ⟨trivial, fun answers s' hr => ?_⟩
  obtain ⟨hshort, henough⟩ := h.polled hr
  have hlength : ∀ l : List (SignerInfo cfg.SignerId), (sortByIdentifier l).length = l.length :=
    fun l => (List.perm_insertionSort _ l).length_eq
  rw [hlength]
  split
  next hlt =>
    rw [wp_bind, wp_modify]
    exact ⟨trivial, wp_reject_exits ((hshort hlt).alerted _)⟩
  next hge => exact ends_debit (henough (Nat.le_of_not_lt hge))

/-- Steps 1 and 2, and with them the whole run: from its opening it ends where the stepper shows
what has happened. -/
theorem ends_policyGate (h : Opening P env rid t s) :
    wpOwn rid (policyGate P env rid) (fun _ => Shown P env rid)
      (fun _ => Raised P env rid) t s := by
  rw [policyGate, wpOwn]
  simp only [theRecord, wp_bind, wp_gets]
  split
  · rw [wp_bind, wp_modify]
    exact ⟨trivial, wp_reject_exits (h.judged.alerted _)⟩
  · split
    · rw [wp_bind, wp_modify]
      exact ⟨trivial, wp_reject_exits (h.judged.alerted _)⟩
    · exact ends_preflight h

/-- **The exits of a run.** Whatever is answered, a record that is rejected or abandoned has a wall
that tells the stepper how far it had come, unless the run went astray. -/
theorem wp_runPipeline_exits {request : GenerationRequest}
    (hstart : s.heap rid = .new cfg request) :
    wpOwn rid (runPipeline P env rid) (fun _ => Shown P env rid)
      (fun _ => Raised P env rid) [] s := by
  have hempty : ∀ {q : CoordinatorCall cfg} {a : q.Answer},
      (.answered q a : Entry (Store cfg) _ _) ∉ [] := fun hmem => nomatch hmem
  have hopening : Opening P env rid [] s := by
    refine ⟨fun ⟨q, a, hmem⟩ => hempty hmem, by rw [hstart]; exact ⟨rfl, rfl⟩, ?_⟩
    rintro (⟨t₁, active, answers, t₂, heq, -⟩ | ⟨tx, e, hmem⟩ | ⟨-, s₁, s₂, hmem, -⟩)
    · cases t₁ <;> cases heq
    · exact hempty hmem
    · cases hmem
  rw [runPipeline, wpOwn, wp_bind, wp_modify]
  refine ⟨trivial, ?_⟩
  rw [wp_tryCatch]
  refine wp_mono (ends_policyGate (hopening.wrote rfl)) (fun _ _ _ h => h) fun e t s h => ?_
  exact wp_backstop_exits h e

end Walk

/-- **The stepper.** Whatever the other services answer, a record that a run brings to REJECTED or
REJECTED_ABANDONED is shown without a stage that did not happen, if and only if the pre-flight found
enough members online (or was not reached), and the publication of the request did not fail. -/
theorem shown_iff {world : CoordinatorWorld cfg} {request : GenerationRequest} {s : Store cfg}
    (hstart : s.heap rid = .new cfg request)
    (hrun : (runPipeline P env rid).Along world
      (fun _ s _ s' => s'.heap rid = s.heap rid ∧ s'.stage rid = s.stage rid) [] s) :
    let o := (runPipeline P env rid).run world [] s
    let r := o.final.heap rid
    r.status = .REJECTED ∨ r.status = .REJECTED_ABANDONED →
      (Honest r ↔ ¬ PreflightShort P o.trace ∧ ¬ Unpublished env rid o.trace) := by
  intro o r hstatus
  have hmeets := run_of_wp (W := ownRules cfg rid) hrun
    (@wp_runPipeline_exits cfg P env rid s request hstart)
  have hshown : Shown P env rid o.trace o.final := by
    cases hresult : o.result with
    | ok u => exact hmeets.returned u hresult
    | error e =>
        obtain ⟨-, k, hjudged⟩ := hmeets.raised e hresult
        have hterminal : r.status ∈ TERMINAL := by
          rcases hstatus with hstatus | hstatus <;> rw [hstatus] <;> decide
        exact absurd hterminal (hjudged.place.alive hjudged.le)
  obtain ⟨k, rejection, hk, hrejection, hstatuses, hfit⟩ := hshown hstatus
  rw [honest_iff hk hstatus hrejection hstatuses, hfit, Astray, not_or]

/-- No member is reached before the debit: the record is rejected, and the stepper shows another
wall than the one that stopped it. -/
theorem small_unreachable_rejected :
    ((Small.executed Small.unreachable).final.heap 0).status = .REJECTED ∧
      ((Small.executed Small.unreachable).final.heap 0).statuses = [.PENDING, .REJECTED] ∧
      (stepStates ((Small.executed Small.unreachable).final.heap 0))[1]? = some .done := by
  decide +kernel

theorem shown_iff_small :
    Honest ((Small.executed Small.unreachable).final.heap 0) ↔
      ¬ PreflightShort Small.platform (Small.executed Small.unreachable).trace ∧
        ¬ Unpublished Small.coordinatorEnv 0 (Small.executed Small.unreachable).trace :=
  @shown_iff config Small.platform Small.coordinatorEnv 0 (Small.still Small.unreachable)
    Small.generationRequest Small.opened rfl
    (Prog.along_of_forall (fun _ _ _ => ⟨rfl, rfl⟩) _ _ _) (.inl small_unreachable_rejected.1)

/-- The customer was not charged, and the debit is shown as done. -/
theorem debit_shown : ¬ Honest ((Small.executed Small.unreachable).final.heap 0) := by
  obtain ⟨-, hstatuses, hshown⟩ := small_unreachable_rejected
  intro hhonest
  have hmem := hhonest (1, .DEBIT_CONFIRMED) (by decide) _ hshown rfl
  rw [hstatuses] at hmem
  exact absurd hmem (by decide)

end NoGhost.Dashboard
