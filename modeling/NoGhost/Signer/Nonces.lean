import NoGhost.Frost.Signing
import NoGhost.Signer.Handlers

/-!
# Single Use of Nonces

Which pairs of nonces one member signs with, over every interleaving of its handlers. A pair
is named by its serial: the place it has among all pairs that round 1 ever stored. Round 2
looks its session up before it awaits the ledger and deletes it after it has signed, so two
handlers that wait at the gate at the same time may hold the same pair.

## Main results

* `single_use`: when no request brings a session to the gate that a waiting handler holds
  already, every pair is signed with at most once.
* `used_twice_small`: without that, one pair is signed with twice.
-/

open Js Async

namespace NoGhost

variable (P : Platform) {cfg : Config} (env : SignerEnv cfg)

/-- One member: any answer may come at any time, and the clock may be set to anything. -/
def signerGame : Game SignerState SignerState String SignerCall SignerCall.Answer Response
    SignerRequest where
  handler := signerHandler P env
  place _ := Lens.whole SignerState
  answers _ _ _ := True
  moves s s' := ∃ clock, s' = { s with clock := clock }

/-- The pools of one member, with its handlers side by side. -/
abbrev SignerPool := Pool SignerState SignerState String SignerCall SignerCall.Answer Response
  SignerRequest

/-- The pair of nonces that the handler of a request, started in a state, brings to the gate. -/
def held : SignerRequest × SignerState → Option ℕ
  | (.round2 body, s) => (presented P env s body).map (·.session.serial)
  | _ => none

/-- No waiting handler holds the pair of nonces that the request would bring to the gate. -/
def Exclusive (c : SignerPool) (req : SignerRequest) : Prop :=
  ∀ p ∈ c.procs, p.Suspended → ∀ n, held P env p.label = some n →
    held P env (req, c.state) ≠ some n

/-! ### The invariant -/

/-- Stored pairs are unused, and used pairs are used once: the serials of the sessions and of the
partials are apart, and no partial has one twice. -/
structure NonceInv (s : SignerState) : Prop where
  stored : ∀ e ∈ s.sessions, s.stored[e.2.serial]? = some e.1
  unused : ∀ e ∈ s.sessions, e.2.serial ∉ s.partials
  used : ∀ n ∈ s.partials, n < s.stored.length
  nodup : s.partials.Nodup

/-- At the boot no nonce was drawn or used. -/
theorem nonceInv_boot (clock : ℤ) : NonceInv (.boot clock) :=
  ⟨fun _ he => (nomatch he), fun _ he => (nomatch he), fun _ hn => (nomatch hn), List.nodup_nil⟩

variable {P env} {s t : SignerState}

/-- Sessions may be dropped, with the nonces in them. -/
theorem NonceInv.forgets (h : NonceInv s) (ht : Forgets s t) : NonceInv t := by
  obtain ⟨keep, rfl⟩ := ht
  exact ⟨fun e he => h.stored e (List.mem_filter.mp he).1,
    fun e he => h.unused e (List.mem_filter.mp he).1, h.used, h.nodup⟩

/-- A new pair has a serial of its own, which no session and no signature has. -/
theorem NonceInv.storeSession (h : NonceInv s) (sessionId : String) (nonces : Frost.Nonces) :
    NonceInv (storeSession sessionId nonces s) := by
  have hfresh : s.stored.length ∉ s.partials := fun hmem => lt_irrefl _ (h.used _ hmem)
  refine ⟨fun e he => ?_, fun e he => ?_, fun n hn => ?_, h.nodup⟩
  · rcases JsMap.mem_set he with rfl | ⟨he, -⟩
    · simp [NoGhost.storeSession]
    · have hget := h.stored e he
      obtain ⟨hlt, -⟩ := List.getElem?_eq_some_iff.mp hget
      simp only [NoGhost.storeSession]
      rw [List.getElem?_append_left hlt, hget]
  · rcases JsMap.mem_set he with rfl | ⟨he, -⟩
    · exact hfresh
    · exact h.unused e he
  · have := h.used n hn
    simp only [NoGhost.storeSession, List.length_append, List.length_singleton]
    omega

/-- Signing uses the pair up: its session is deleted with it. -/
theorem NonceInv.recordPartial (h : NonceInv s) {sessionId : String} {session : Session}
    (hstored : s.stored[session.serial]? = some sessionId) (hnew : session.serial ∉ s.partials) :
    NonceInv (deleteSession sessionId (recordPartial session s)) := by
  refine ⟨fun e he => ?_, fun e he hmem => ?_, fun n hn => ?_, ?_⟩
  · exact h.stored e (JsMap.mem_delete.mp he).1
  · obtain ⟨he, hne⟩ := JsMap.mem_delete.mp he
    rcases List.mem_append.mp hmem with hmem | hmem
    · exact h.unused e he hmem
    · have hget := h.stored e he
      rw [List.mem_singleton.mp hmem, hstored] at hget
      exact hne (Option.some.inj hget).symm
  · rcases List.mem_append.mp hn with hn | hn
    · exact h.used n hn
    · rw [List.mem_singleton.mp hn]
      exact (List.getElem?_eq_some_iff.mp hstored).1
  · change (s.partials ++ [session.serial]).Nodup
    rw [← List.concat_eq_append]
    exact h.nodup.concat hnew

/-! ### The discipline of the handlers -/

variable (P env)

/-- What a segment of a handler does to the nonces: it signs with no pair but the one it holds, and
takes nothing out of the history. -/
structure NonceStep (l : SignerRequest × SignerState) (s s' : SignerState) : Prop where
  inv : NonceInv s → NonceInv s'
  stored : s.stored <+: s'.stored
  partials : ∀ n ∈ s'.partials, n ∈ s.partials ∨ held P env l = some n

/-- What a handler relies on while it waits: nobody else signs with the pair it holds, which is what
fails for two rounds 2 of one session. -/
structure NonceRely (l : SignerRequest × SignerState) (s s' : SignerState) : Prop where
  stored : s.stored <+: s'.stored
  partials : ∀ n, held P env l = some n → n ∈ s'.partials → n ∈ s.partials

/-- The discipline of the nonces: the invariant, and what each handler may do with its session. -/
def nonceDiscipline : Discipline (signerGame P env) where
  inv := NonceInv
  evolves _ _ := True
  rely := NonceRely P env
  gua := NonceStep P env
  compatible l l' := ∀ n, held P env l = some n → held P env l' ≠ some n
  post _ _ _ := True
  exn _ _ _ := True

variable {P env} {l : SignerRequest × SignerState}

/-- A segment may leave the nonces alone. -/
theorem NonceStep.refl (s : SignerState) : NonceStep P env l s s :=
  ⟨id, List.prefix_rfl, fun _ => .inl⟩

/-- A segment may drop sessions. -/
theorem Forgets.nonceStep (ht : Forgets s t) : NonceStep P env l s t := by
  refine ⟨fun h => h.forgets ht, ?_, ?_⟩ <;> obtain ⟨keep, rfl⟩ := ht
  · exact List.prefix_rfl
  · exact fun n => .inl

/-- Every handler keeps to the discipline. -/
theorem nonce_handler_spec (req : SignerRequest) (s : SignerState) (hs : NonceInv s) :
    wpa ((nonceDiscipline P env).contract (req, s)) (Lens.whole SignerState)
      (signerHandler P env req)
      (fun _ b s' => NonceStep P env (req, s) b s' ∧ True)
      (fun _ b s' => NonceStep P env (req, s) b s' ∧ True) s s := by
  have hresume : ∀ q s₁ r s₂, NonceInv s₁ →
      ((nonceDiscipline P env).contract (req, s)).resume q s₁ r s₂ →
      NonceInv s₂ ∧ NonceStep P env (req, s) s₂ s₂ := fun q s₁ r s₂ _ hr => ⟨hr.2.1, .refl _⟩
  cases req with
  | sweep => exact ⟨(forgets_sweep s).nonceStep, trivial⟩
  | online body =>
      exact (wpa_admin fun r online refuse reason _ =>
        ⟨⟨fun h => ⟨h.stored, h.unused, h.used, h.nodup⟩, List.prefix_rfl, fun n => .inl⟩,
          trivial⟩).1
  | refuse body =>
      exact (wpa_admin fun r online refuse reason _ =>
        ⟨⟨fun h => ⟨h.stored, h.unused, h.used, h.nodup⟩, List.prefix_rfl, fun n => .inl⟩,
          trivial⟩).2
  | round1 body draws =>
      refine wpa_round1 (fun r t ht _ => ⟨ht.nonceStep, trivial⟩)
        (fun r t sessionId nonces ht _ => ⟨⟨fun h => ?_, ?_, fun n hn => .inl ?_⟩, trivial⟩)
        (fun e t ht => ⟨ht.nonceStep, trivial⟩)
      · exact (h.forgets ht).storeSession sessionId nonces
      · obtain ⟨keep, rfl⟩ := ht
        exact List.prefix_append _ _
      · obtain ⟨keep, rfl⟩ := ht
        exact hn
  | validate body =>
      refine wpa_validate (J := NonceInv) (.refl _) hs hresume
        (fun r b s' hseg _ _ => ⟨hseg, trivial⟩)
        (fun sub s' h _ => ?_) (fun r s' hash verdict txHash h _ => ?_)
      · exact ⟨⟨fun h => ⟨h.stored, h.unused, h.used, h.nodup⟩, List.prefix_rfl, fun n => .inl⟩,
          ⟨h.stored, h.unused, h.used, h.nodup⟩⟩
      · exact ⟨⟨fun h => ⟨h.stored, h.unused, h.used, h.nodup⟩, List.prefix_rfl, fun n => .inl⟩,
          trivial⟩
  | signReceipt body =>
      exact wpa_signReceipt (J := NonceInv) (.refl _) hs hresume
        (fun r b s' hseg _ _ => ⟨hseg, trivial⟩) (fun e b s' hseg _ => ⟨hseg, trivial⟩)
  | round2 body =>
      refine wpa_round2 (fun r t ht _ => ⟨ht.nonceStep, trivial⟩)
        (fun e t ht => ⟨ht.nonceStep, trivial⟩) fun p hp => ?_
      have hheld : held P env (.round2 body, s) = some p.session.serial := by
        rw [held, show presented P env s body = some p from hp]
        rfl
      obtain ⟨json, -, -, hget, -, -⟩ := presented_eq_some hp
      have hsweep := forgets_sweep s
      have hinv := hs.forgets hsweep
      have hmem := JsMap.mem_of_get hget
      -- what stays true while the handler waits at the gate
      refine wpa_round2Gate
        (J := fun s' => NonceInv s' ∧ s'.stored[p.session.serial]? = some p.sessionId ∧
          p.session.serial ∉ s'.partials)
        hsweep.nonceStep ⟨hinv, hinv.stored _ hmem, hinv.unused _ hmem⟩
        (fun q s₁ r s₂ h₁ hr => ?_) (fun r s' h' _ => ?_) (fun r s' n h' _ _ => ?_)
        (fun e b s' hseg _ => ⟨hseg, trivial⟩)
      · obtain ⟨-, hinv₂, hrely, -⟩ := hr
        obtain ⟨-, hstored, hnew⟩ := h₁
        obtain ⟨rest, hrest⟩ := hrely.stored
        refine ⟨⟨hinv₂, ?_, fun h => hnew (hrely.partials _ hheld h)⟩, .refl _⟩
        rw [← hrest, List.getElem?_append_left (List.getElem?_eq_some_iff.mp hstored).1]
        exact hstored
      · exact ⟨(forgets_delete _ _).nonceStep, trivial⟩
      · obtain ⟨-, hstored, hnew⟩ := h'
        refine ⟨⟨fun h => h.recordPartial hstored hnew, List.prefix_rfl, fun n hn => ?_⟩, trivial⟩
        rcases List.mem_append.mp hn with hn | hn
        · exact .inl hn
        · exact .inr (List.mem_singleton.mp hn ▸ hheld)

/-- The discipline of the nonces holds of a member. -/
theorem nonceDiscipline_valid : (nonceDiscipline P env).Valid where
  evolves_refl _ := trivial
  evolves_trans _ _ := trivial
  rely_refl l s := ⟨List.prefix_rfl, fun _ _ h => h⟩
  rely_trans h h' := ⟨h.stored.trans h'.stored, fun n hn hmem =>
    h.partials n hn (h'.partials n hn hmem)⟩
  handler_spec req s hs _ := nonce_handler_spec req s hs
  gua_inv hs h := ⟨h.inv hs, trivial⟩
  gua_rely hcomp _ h := ⟨h.stored, fun n hn hmem =>
    (h.partials n hmem).resolve_right fun hheld => hcomp n hheld hn⟩
  moves_inv hs h := by
    obtain ⟨clock, rfl⟩ := h
    exact ⟨⟨hs.stored, hs.unused, hs.used, hs.nodup⟩, trivial⟩
  moves_rely _ h := by
    obtain ⟨clock, rfl⟩ := h
    exact ⟨List.prefix_rfl, fun _ _ h => h⟩

/-- **Single use.** When no request brings a session to the on-chain gate that a handler
waiting there holds already, no pair of nonces is signed with twice. -/
theorem single_use {clock : ℤ} {c : SignerPool}
    (h : (signerGame P env).Reaches (Exclusive P env) (.boot clock) c) (n : ℕ) :
    c.state.partials.count n ≤ 1 := by
  refine List.nodup_iff_count_le_one.mp
    (Discipline.sound nonceDiscipline_valid (nonceInv_boot clock)
      (fun c req _ hadm => ⟨trivial, fun p hp hs => ?_⟩) h).inv.nodup n
  exact ⟨fun n hn hn' => hadm p hp hs n hn hn', fun n hn hn' => hadm p hp hs n hn' hn⟩

/-! ### Two handlers at the gate -/

namespace Small

/-- The first member, with its share of the small group. -/
def signerEnv : SignerEnv config where
  info := ⟨.utility, 1⟩
  share := some ⟨Frost.scalarToHex curve 4, Frost.smallKeys.groupPublicKey⟩
  pinnedBankPublicKey := some bankKey
  xrplWallet := none
  manifest := .ok manifest
  encKey := .ok []
  round2SignUntyped _ _ _ := .error "untyped"

/-- A body with a session identifier and further fields. -/
def sessionBody (fields : List (String × Json)) : Option Json :=
  some (.obj (("sessionId", .str "REQ-1") :: fields))

/-- A commitment as it is sent in the body of round 2. -/
def commitmentJson (identifier : ℚ) (out : Frost.Round1Output) : Json :=
  .obj [("identifier", .num (.fin identifier)), ("hiding", .str out.hidingHex),
    ("binding", .str out.bindingHex)]

/-- The first member's own round 1, which draws `1` and `2`. -/
def ownRound1 : Frost.Round1Output :=
  match Frost.round1 curve (Frost.scalarToHex curve 4) [[1], [2]] with
  | some (.ok out) => out
  | _ => Frost.smallRound1

/-- A round-2 body for the debit of the small request. -/
def ceremonyBody (commitments : List Json) : Option Json :=
  match round2Request [] with
  | .obj fields => sessionBody (fields ++ [("commitments", .arr commitments)])
  | _ => none

/-- An approval of the small request, in hexadecimal: its hash and the verdict `APPROVE`. -/
def approvalMemo : Memo where
  MemoType := some "6E6F67686F73742F617070726F76616C"
  MemoData := some ("7B227265717565737448617368223A2233656130663733313835643932303063303030" ++
    "3030303030303030303030303030303030303030303030303030303030303030303030" ++
    "30303030303030303030222C2276657264696374223A22415050524F5645227D")

/-- The answers to every call: two members approve. -/
def answers : (q : SignerCall) → q.Answer
  | .accountTx _ => .ok [⟨⟨"rCityA", [approvalMemo]⟩, "A"⟩, ⟨⟨"rUtility", [approvalMemo]⟩, "B"⟩]
  | .tx _ => .error "txnNotFound"
  | .submit _ => .error "tecNO_DST"
  | .sleep _ => ()

/-- Round 1 and round 2 of one session. -/
def oneRun : List (Action SignerState SignerCall SignerCall.Answer SignerRequest) :=
  [.spawn (.round1 (sessionBody []) [[1], [2]]),
    .spawn (.round2 (ceremonyBody [commitmentJson 1 ownRound1])), .resume 1 answers]

/-- Round 1, and two times round 2 of that session, with different commitment lists. Both wait
for the ledger before the first of them is answered. -/
def twoRuns : List (Action SignerState SignerCall SignerCall.Answer SignerRequest) :=
  [.spawn (.round1 (sessionBody []) [[1], [2]]),
    .spawn (.round2 (ceremonyBody [commitmentJson 1 ownRound1])),
    .spawn (.round2 (ceremonyBody [commitmentJson 1 ownRound1,
      commitmentJson 2 Frost.smallRound1])),
    .resume 1 answers, .resume 2 answers]

end Small

/-- A run over the small platform in which the stored pair is signed with. -/
theorem single_use_small : ∃ c : SignerPool, c.state.partials = [0] ∧
    c.state.partials.count 0 ≤ 1 := by
  have hrun : (signerGame Small.platform Small.signerEnv).Playable
      (Exclusive Small.platform Small.signerEnv) ⟨.boot 0, []⟩ Small.oneRun := by
    refine ⟨trivial, fun _ _ p hp => (nomatch hp), trivial, fun _ _ p hp _ n hn => ?_,
      fun _ _ _ _ _ => trivial, fun _ h => (nomatch h), trivial⟩
    -- the only handler so far is that of round 1, which holds nothing
    obtain rfl := List.mem_singleton.mp hp
    cases hn
  exact ⟨_, by decide +kernel, single_use (Game.Reaches.init.play hrun) 0⟩

/-- Two handlers of one member that wait at the gate sign with one pair of nonces. -/
theorem used_twice_small : ∃ c : SignerPool,
    (signerGame Small.platform Small.signerEnv).Reaches (fun _ _ => True) (.boot 0) c ∧
      c.state.partials.count 0 = 2 := by
  have hrun : (signerGame Small.platform Small.signerEnv).Playable (fun _ _ => True)
      ⟨.boot 0, []⟩ Small.twoRuns :=
    ⟨trivial, fun _ _ => trivial, trivial, fun _ _ => trivial, trivial, fun _ _ => trivial,
      fun _ _ _ _ _ => trivial, fun _ _ => trivial, fun _ _ _ _ _ => trivial,
      fun _ _ => trivial, trivial⟩
  exact ⟨_, Game.Reaches.init.play hrun, by decide +kernel⟩

end NoGhost
