import NoGhost.Coordinator.Logbook

/-!
# The Governance Log

Who is revoked, and what the governance log says about it. The log is capped, so what it says of a
subject is what its newest entry about the subject says; without an entry the subject is as it was
at boot, as long as nothing has been dropped.

## Main results

* `Accounts.push`: a capped journal that is written at every change accounts for what it is about.
* `governance_accounts`: in every state, the governance log accounts for the merchants and for the
  members.
-/

open Js Async

namespace NoGhost

/-! ### Capped journals -/

section Journal

variable {E V : Type} {cap : ℕ} {reading : E → Option V} {initial v : V} {journal : List E}

/-- A journal accounts for a value: the newest entry that says what it is says so, and it is what it
was when there is no such entry and none has been dropped. -/
structure Accounts (cap : ℕ) (reading : E → Option V) (initial : V) (journal : List E) (v : V) :
    Prop where
  latest : ∀ w, journal.findSome? reading = some w → v = w
  unsaid : journal.findSome? reading = none → journal.length < cap → v = initial

/-- What is found without the last entry is found first with it, too. -/
theorem findSome?_dropLast {list : List E} {w : V} (h : list.dropLast.findSome? reading = some w) :
    list.findSome? reading = some w := by
  rcases List.eq_nil_or_concat list with rfl | ⟨list, e, rfl⟩
  · exact h
  · rw [List.concat_eq_append, List.dropLast_concat] at h
    rw [List.concat_eq_append, List.findSome?_append, h]
    rfl

/-- The newest entry is not dropped, so what it says is what is found. -/
theorem findSome?_capped_cons (hcap : 0 < cap) {e : E} (he : reading e = some v) :
    (capped cap (e :: journal)).findSome? reading = some v := by
  rw [capped]
  split
  next hlong =>
    cases journal with
    | nil =>
        rw [List.length_singleton] at hlong
        omega
    | cons e' journal => rw [List.dropLast_cons_cons, List.findSome?_cons, he]
  next => rw [List.findSome?_cons, he]

/-- **A journal that is written at every change accounts for the value**, whether the entry is about
it or not. -/
theorem Accounts.push (h : Accounts cap reading initial journal v) (hcap : 0 < cap) (e : E) :
    Accounts cap reading initial (capped cap (e :: journal)) ((reading e).getD v) := by
  cases he : reading e with
  | some w =>
      rw [Option.getD_some]
      refine ⟨fun w' hw => ?_, fun hnone => ?_⟩
      · exact Option.some.inj ((findSome?_capped_cons hcap he).symm.trans hw)
      · rw [findSome?_capped_cons hcap he] at hnone
        cases hnone
  | none =>
      rw [Option.getD_none]
      refine ⟨fun w hw => h.latest w ?_, fun hnone hlength => ?_⟩
      · have hcons : (e :: journal).findSome? reading = some w := by
          rw [capped] at hw
          split at hw
          · exact findSome?_dropLast hw
          · exact hw
        rwa [List.findSome?_cons, he] at hcons
      · rw [capped] at hnone hlength
        split at hlength
        next hlong =>
          rw [List.length_dropLast] at hlength
          omega
        next hshort =>
          rw [if_neg hshort, List.findSome?_cons, he] at hnone
          rw [List.length_cons] at hlength
          exact h.unsaid hnone (by omega)

/-- An entry about something else leaves the journal accounting for the value, though it may push
out the oldest. -/
theorem Accounts.skip (h : Accounts cap reading initial journal v) (hcap : 0 < cap) {e : E}
    (he : reading e = none) : Accounts cap reading initial (capped cap (e :: journal)) v := by
  have hpush := h.push hcap e
  rwa [he] at hpush

/-- An entry that says what the value is now accounts for it. -/
theorem Accounts.write {w : V} (h : Accounts cap reading initial journal v) (hcap : 0 < cap) {e : E}
    (he : reading e = some w) : Accounts cap reading initial (capped cap (e :: journal)) w := by
  have hpush := h.push hcap e
  rwa [he] at hpush

end Journal

/-! ### What the log says -/

variable {cfg : Config} {P : Platform} {env : CoordinatorEnv cfg} {u : Store cfg}

/-- Whether an entry revokes a merchant or reinstates it, where it is about that merchant. -/
def merchantReading (merchantId : String) (e : GovernanceLogEntry) : Option Bool :=
  if e.subject ≠ merchantId then none
  else if e.action = "MERCHANT_REVOKED" then some true
  else if e.action = "MERCHANT_REINSTATED" then some false
  else none

/-- Whether an entry revokes a member or reinstates it, where it is about that member. -/
def memberReading (signerId : String) (e : GovernanceLogEntry) : Option MemberStatus :=
  if e.subject ≠ signerId then none
  else if e.action = "MEMBER_REVOKED" then some .REVOKED
  else if e.action = "MEMBER_REINSTATED" then some .ACTIVE
  else none

/-- The governance log accounts for the merchants and for the members: the newest entry about each
says how it stands, as long as the log keeps it. -/
structure Governed (u : Store cfg) : Prop where
  merchants : ∀ m ∈ u.merchants,
    Accounts GOVLOG_CAP (merchantReading m.merchantId) false u.governanceLog m.revoked
  members : ∀ m ∈ u.members,
    Accounts GOVLOG_CAP (memberReading (cfg.idText m.1)) .ACTIVE u.governanceLog m.2

/-- An entry of another kind says nothing of a merchant. -/
theorem merchantReading_other {merchantId : String} {e : GovernanceLogEntry}
    (hrevoked : e.action ≠ "MERCHANT_REVOKED") (hreinstated : e.action ≠ "MERCHANT_REINSTATED") :
    merchantReading merchantId e = none := by
  rw [merchantReading, if_neg hrevoked, if_neg hreinstated, ite_self]

/-- Nor does it say anything of a member. -/
theorem memberReading_other {signerId : String} {e : GovernanceLogEntry}
    (hrevoked : e.action ≠ "MEMBER_REVOKED") (hreinstated : e.action ≠ "MEMBER_REINSTATED") :
    memberReading signerId e = none := by
  rw [memberReading, if_neg hrevoked, if_neg hreinstated, ite_self]

/-- At the boot the log is empty, and every merchant and member is as it was seeded. -/
theorem governed_boot (now : String) (randomBytes : Bytes) :
    Governed (Store.boot cfg now randomBytes) where
  merchants m hm := by
    have hseeded : ∀ m ∈ Store.seededMerchants, m.revoked = false := by decide
    exact ⟨fun w hw => (Option.some_ne_none w hw.symm).elim, fun _ _ => hseeded m hm⟩
  members m hm := by
    obtain ⟨i, -, rfl⟩ := List.mem_map.mp hm
    exact ⟨fun w hw => (Option.some_ne_none w hw.symm).elim, fun _ _ => rfl⟩

/-- A refusal of a signer is about no status, so every account stands. -/
theorem Governed.addGovernanceEntry (h : Governed u) (subject actor : String)
    (detail : Option Json) :
    Governed (u.addGovernanceEntry "SIGNER_REFUSED" subject actor detail) where
  merchants m hm := (h.merchants m hm).skip (by decide)
    (merchantReading_other (show "SIGNER_REFUSED" ≠ _ by decide)
      (show "SIGNER_REFUSED" ≠ _ by decide))
  members m hm := (h.members m hm).skip (by decide)
    (memberReading_other (show "SIGNER_REFUSED" ≠ _ by decide)
      (show "SIGNER_REFUSED" ≠ _ by decide))

/-- A change in a merchant is accounted for by its own entry, and the other accounts skip it. -/
theorem Governed.setMerchantRevoked (h : Governed u) (merchantId : String) (revoked : Bool)
    (actor : String) : Governed (u.setMerchantRevoked merchantId revoked actor) := by
  rw [Store.setMerchantRevoked]
  split
  · exact h
  · refine ⟨fun m hm => ?_, fun m hm => (h.members m hm).skip (by decide) ?_⟩
    · obtain ⟨m₀, hm₀, rfl⟩ := List.mem_map.mp hm
      have haccounts := h.merchants m₀ hm₀
      by_cases heq : m₀.merchantId = merchantId
      · rw [if_pos heq]
        refine haccounts.write (by decide) ?_
        rw [merchantReading, if_neg (not_not.mpr heq.symm)]
        cases revoked <;> rfl
      · rw [if_neg heq]
        refine haccounts.skip (by decide) ?_
        rw [merchantReading, if_pos (Ne.symm heq)]
    · cases revoked <;> exact memberReading_other (by simp) (by simp)

/-- A change in a member is accounted for by its own entry, and the other accounts skip it. -/
theorem Governed.setMemberStatus (h : Governed u) (signerId : cfg.SignerId) (name : String)
    (status : MemberStatus) (actor : String) :
    Governed (u.setMemberStatus signerId name status actor) := by
  rw [Store.setMemberStatus]
  split
  · refine ⟨fun m hm => (h.merchants m hm).skip (by decide) ?_, fun m hm => ?_⟩
    · cases status <;> exact merchantReading_other (by simp) (by simp)
    · obtain ⟨m₀, hm₀, rfl⟩ := List.mem_map.mp hm
      have haccounts := h.members m₀ hm₀
      by_cases heq : m₀.1 = signerId
      · rw [if_pos heq]
        refine haccounts.write (by decide) ?_
        rw [memberReading, if_neg (not_not.mpr (congrArg cfg.idText heq.symm))]
        cases status <;> rfl
      · rw [if_neg heq]
        refine haccounts.skip (by decide) ?_
        rw [memberReading, if_pos fun htext => heq (cfg.idText_injective htext).symm]
  · exact h

/-- Every lawful mutation is accounted for: only these entries and the two changes write the tables
of governance. -/
theorem Governed.apply (h : Governed u) {m : Mutation cfg} (hm : m.Lawful u) :
    Governed (m.apply u) := by
  cases m with
  | createRecord rid request =>
      rw [Mutation.apply, createRecord_eq]
      exact ⟨h.1, h.2⟩
  | transition rid status note =>
      rw [Mutation.apply, Store.transition]
      split
      · rw [onTerminal_eq, counted_eq]
        split <;> exact ⟨h.1, h.2⟩
      · exact ⟨h.1, h.2⟩
  | addGovernanceEntry action subject actor detail =>
      obtain rfl : action = "SIGNER_REFUSED" := hm
      exact h.addGovernanceEntry subject actor detail
  | setMerchantRevoked merchantId revoked actor =>
      exact h.setMerchantRevoked merchantId revoked actor
  | setMemberStatus signerId name status actor => exact h.setMemberStatus signerId name status actor
  | ensureMeter meterId =>
      rw [Mutation.apply, Store.ensureMeter]
      split <;> exact ⟨h.1, h.2⟩
  | unseen u' =>
      have hmerchants : u'.merchants = u.merchants := congrArg Seen.merchants hm.seen
      have hmembers : u'.members = u.members := congrArg Seen.members hm.seen
      have hlog : u'.governanceLog = u.governanceLog := congrArg Seen.governanceLog hm.seen
      refine ⟨?_, ?_⟩
      · rw [Mutation.apply, hmerchants, hlog]
        exact h.merchants
      · rw [Mutation.apply, hmembers, hlog]
        exact h.members
  | assign rid f => exact ⟨h.1, h.2⟩
  | addAlert a => exact ⟨h.1, h.2⟩
  | credit rid token balance => exact ⟨h.1, h.2⟩

/-- **The governance log accounts for who is revoked**, whatever the operator, the scenarios and the
runs have done, in any order: a merchant or a member is what the newest entry about it says, and as
it was at boot when there is none and the log is not full. -/
theorem governance_accounts {now : String} {randomBytes : Bytes}
    {c : CoordinatorPool (Store cfg) cfg}
    (h : (operatedGame P env).Reaches (fun _ _ => True) (.boot cfg now randomBytes) c) :
    Governed c.state :=
  (log_sound h).inv.1.keeps (fun _ _ hu hm => hu.apply hm) (governed_boot now randomBytes)

/-- A merchant that the operator revokes at boot and the demo reinstates: the newest entry of the
log is that of the demo, and says how the merchant stands. -/
theorem governance_accounts_small :
    let u := ((Store.boot config "2025-01-01T00:00:00.000Z" []).setMerchantRevoked
      "MER-001" true "operator").setMerchantRevoked "MER-001" false "demo"
    Governed u ∧ u.governanceLog.map (·.actor) = ["demo", "operator"] ∧
      u.governanceLog.findSome? (merchantReading "MER-001") = some false ∧
      u.merchants.find? (·.merchantId == "MER-001") =
        some ⟨"MER-001", "Thabo's Spaza", true, false⟩ := by
  intro u
  have hrevoked : (operatedGame Small.platform Small.coordinatorEnv).Reaches (fun _ _ => True)
      (Store.boot config "2025-01-01T00:00:00.000Z" [])
      ⟨(Store.boot config "2025-01-01T00:00:00.000Z" []).setMerchantRevoked "MER-001" true
        "operator", []⟩ :=
    Game.Reaches.init.world (.setMerchantRevoked _ "MER-001" true "operator")
  have hreinstated : (operatedGame Small.platform Small.coordinatorEnv).Reaches (fun _ _ => True)
      (Store.boot config "2025-01-01T00:00:00.000Z" []) ⟨u, []⟩ :=
    hrevoked.world (.setMerchantRevoked _ "MER-001" false "demo")
  exact ⟨governance_accounts hreinstated, by decide, by decide, by decide⟩

end NoGhost
