import Mathlib.Data.List.Basic
import NoGhost.Async.Logic

/-!
# Pools of Handlers

An event loop serves any number of requests at once: a handler runs without interruption
from one await to the next, and the others run in between. A `Pool` is the shared state
with all the handlers started so far; an `Action` starts a handler, answers a suspended one,
or is a move of the world outside. `Game.Reaches` collects the pools that legal actions
lead to. The handlers of several processes may live in one pool: each works on the part of
the shared state that a `Lens` shows it.

Handlers are verified one at a time. `wpa` is a weakest precondition whose obligations are
about whole uninterrupted segments, since nobody sees the states within. A `Discipline` says
what every segment of a handler respects and what it may rely on while it is suspended;
its `sound` theorem carries this over to every interleaving.

## Main results

* `wpa_bind`, `wpa_tryCatch`, `wpa_mono`: the rules of the logic.
* `wpa_of_wp`: a program verified write by write is verified segment by segment.
* `returned_of_wpa`: what `wpa` promises holds of what an execution returns.
* `settle_spec`: the segment that starts now respects the contract.
* `Discipline.sound`: in every reachable pool the invariant holds, every suspended handler
  can be resumed, and every finished one has met its postcondition.
-/

namespace Async

variable {σ τ ε Q Req : Type} {R : Q → Type} {α β : Type}

/-! ### The logic of segments -/

/-- What a handler may assume when it is resumed, and what each of its segments, from one await to
the next, must respect as a whole. -/
structure Contract (σ Q : Type) (R : Q → Type) where
  /-- `resume q s r s'`: the call `q`, issued in `s`, is answered by `r` in `s'`. -/
  resume : (q : Q) → σ → R q → σ → Prop
  /-- The obligation on a segment from its first state to its last. -/
  segment : σ → σ → Prop

/-- Weakest precondition over segments, for a program that works on the part `L` of the
state: `b` is the state in which the current segment began, `s` the state it has reached. -/
def wpa (W : Contract σ Q R) (L : Lens σ τ) : Prog τ ε Q R α → (α → σ → σ → Prop) →
    (ε → σ → σ → Prop) → σ → σ → Prop
  | .ret a, post, _, b, s => post a b s
  | .throw e, _, exn, b, s => exn e b s
  | .get k, post, exn, b, s => wpa W L (k (L.view s)) post exn b s
  | .set t k, post, exn, b, s => wpa W L k post exn b (L.put s t)
  | .await q k, post, exn, b, s => W.segment b s ∧
      ∀ r s', W.resume q s r s' → wpa W L (k r) post exn s' s'

section Equations

variable (W : Contract σ Q R) (L : Lens σ τ) (post : α → σ → σ → Prop) (exn : ε → σ → σ → Prop)
  (b s : σ)

@[simp] theorem wpa_ret (a : α) : wpa W L (.ret a) post exn b s ↔ post a b s := Iff.rfl

@[simp] theorem wpa_pure (a : α) :
    wpa W L (pure a : Prog τ ε Q R α) post exn b s ↔ post a b s := Iff.rfl

@[simp] theorem wpa_throw (e : ε) :
    wpa W L (throw e : Prog τ ε Q R α) post exn b s ↔ exn e b s := Iff.rfl

@[simp] theorem wpa_gets (f : τ → α) :
    wpa W L (.gets f) post exn b s ↔ post (f (L.view s)) b s := Iff.rfl

@[simp] theorem wpa_modify (f : τ → τ) (post : Unit → σ → σ → Prop) :
    wpa W L (.modify f) post exn b s ↔ post () b (L.put s (f (L.view s))) := Iff.rfl

@[simp] theorem wpa_modifyGet (f : τ → α × τ) :
    wpa W L (.modifyGet f) post exn b s ↔
      post (f (L.view s)).1 b (L.put s (f (L.view s)).2) := Iff.rfl

@[simp] theorem wpa_call (q : Q) (post : R q → σ → σ → Prop) :
    wpa W L (.call q) post exn b s ↔ W.segment b s ∧
      ∀ r s', W.resume q s r s' → post r s' s' := Iff.rfl

end Equations

/-- The rule of a raising computation: both of its outcomes have to be handled. -/
theorem wpa_ofExcept {W : Contract σ Q R} {L : Lens σ τ} {x : Except ε α}
    {post : α → σ → σ → Prop} {exn : ε → σ → σ → Prop} {b s : σ}
    (hok : ∀ a, x = .ok a → post a b s) (herr : ∀ e, x = .error e → exn e b s) :
    wpa W L (.ofExcept x) post exn b s := by
  cases x with
  | ok a => exact hok a rfl
  | error e => exact herr e rfl

/-- Sequencing: the first program must end where the second may start. -/
@[simp] theorem wpa_bind (W : Contract σ Q R) (L : Lens σ τ) (p : Prog τ ε Q R α)
    (f : α → Prog τ ε Q R β) (post : β → σ → σ → Prop) (exn : ε → σ → σ → Prop) (b s : σ) :
    wpa W L (p >>= f) post exn b s ↔ wpa W L p (fun a => wpa W L (f a) post exn) exn b s := by
  change wpa W L (p.bind f) post exn b s ↔ _
  induction p generalizing b s with
  | ret a => exact Iff.rfl
  | throw e => exact Iff.rfl
  | get k ih => exact ih (L.view s) b s
  | set t k ih => exact ih b (L.put s t)
  | await q k ih =>
      exact and_congr_right fun _ => forall_congr' fun r => forall_congr' fun s' =>
        imp_congr_right fun _ => ih r s' s'

/-- The rule of a raising computation at the head of a sequence. -/
theorem wpa_ofExcept_bind {W : Contract σ Q R} {L : Lens σ τ} {x : Except ε α}
    {f : α → Prog τ ε Q R β} {post : β → σ → σ → Prop} {exn : ε → σ → σ → Prop} {b s : σ}
    (hok : ∀ a, x = .ok a → wpa W L (f a) post exn b s) (herr : ∀ e, x = .error e → exn e b s) :
    wpa W L (.ofExcept x >>= f) post exn b s :=
  (wpa_bind W L _ f post exn b s).mpr (wpa_ofExcept hok herr)

/-- Exception handling: an exception must be raised where the handler may start. -/
@[simp] theorem wpa_tryCatch (W : Contract σ Q R) (L : Lens σ τ) (p : Prog τ ε Q R α)
    (h : ε → Prog τ ε Q R α) (post : α → σ → σ → Prop) (exn : ε → σ → σ → Prop) (b s : σ) :
    wpa W L (p.tryCatch h) post exn b s ↔
      wpa W L p post (fun e => wpa W L (h e) post exn) b s := by
  induction p generalizing b s with
  | ret a => exact Iff.rfl
  | throw e => exact Iff.rfl
  | get k ih => exact ih (L.view s) b s
  | set t k ih => exact ih b (L.put s t)
  | await q k ih =>
      exact and_congr_right fun _ => forall_congr' fun r => forall_congr' fun s' =>
        imp_congr_right fun _ => ih r s' s'

/-- The rule of consequence, for segments. -/
theorem wpa_mono {W : Contract σ Q R} {L : Lens σ τ} {p : Prog τ ε Q R α}
    {post post' : α → σ → σ → Prop} {exn exn' : ε → σ → σ → Prop} {b s : σ}
    (h : wpa W L p post exn b s) (hpost : ∀ a b s, post a b s → post' a b s)
    (hexn : ∀ e b s, exn e b s → exn' e b s) : wpa W L p post' exn' b s := by
  induction p generalizing b s with
  | ret a => exact hpost a b s h
  | throw e => exact hexn e b s h
  | get k ih => exact ih (L.view s) h
  | set t k ih => exact ih h
  | await q k ih => exact ⟨h.1, fun r s' hr => ih r (h.2 r s' hr)⟩

/-- From writes to segments: when every write extends what is known of the segment, and that
makes a segment where the program rests, what `wp` promises of the writes gives what `wpa` asks
of the segments. -/
theorem wpa_of_wp {C : Contract σ Q R} {W : Rules σ Q R} {L : Lens σ τ} {p : Prog τ ε Q R α}
    {post : α → Trace σ Q R → σ → Prop} {exn : ε → Trace σ Q R → σ → Prop} {S : σ → σ → Prop}
    {t : Trace σ Q R} {b s : σ} (hresume : ∀ q s r s', C.resume q s r s' → W.resume q s r s')
    (hextend : ∀ t b s s', S b s → W.gua t s s' → S b s')
    (hrest : ∀ t b s, S b s → W.rest t s → C.segment b s)
    (hstart : ∀ b q s r s', S b s → C.resume q s r s' → S s' s') (h : wp W L p post exn t s)
    (hseg : S b s) :
    wpa C L p (fun a b s => S b s ∧ ∃ t, post a t s) (fun e b s => S b s ∧ ∃ t, exn e t s) b s := by
  induction p generalizing t b s with
  | ret a => exact ⟨hseg, t, h⟩
  | throw e => exact ⟨hseg, t, h⟩
  | get k ih => exact ih (L.view s) h hseg
  | set u k ih => exact ih h.2 (hextend t b s _ hseg h.1)
  | await q k ih =>
      exact ⟨hrest t b s hseg h.1,
        fun r s' hr => ih r (h.2 r s' (hresume q s r s' hr)) (hstart b q s r s' hseg hr)⟩

/-- Every execution whose environment keeps to the contract returns as `wpa` promises. -/
theorem returned_of_wpa {C : Contract σ Q R} {env : Env σ Q R} {p : Prog σ ε Q R α}
    {post : α → σ → σ → Prop} {exn : ε → σ → σ → Prop} {t : Trace σ Q R} {b s : σ}
    (henv : p.Along env C.resume t s) (h : wpa C (Lens.whole σ) p post exn b s) {a : α}
    (ha : (p.run env t s).result = .ok a) : ∃ b s', post a b s' := by
  induction p generalizing t b s with
  | ret a' =>
      cases ha
      exact ⟨b, s, h⟩
  | throw e => cases ha
  | get k ih => exact ih s henv h ha
  | set s' k ih => exact ih henv h ha
  | await q k ih => exact ih _ henv.2 (h.2 _ _ henv.1) ha

/-- What a program that has run up to its next await still has to meet. -/
def Settled (W : Contract σ Q R) (L : Lens σ τ) (post : α → σ → Prop) (exn : ε → σ → Prop) :
    Prog τ ε Q R α → σ → Prop
  | .ret a, s => post a s
  | .throw e, s => exn e s
  | .await q k, s => ∀ r s', W.resume q s r s' →
      wpa W L (k r) (fun a b s => W.segment b s ∧ post a s)
        (fun e b s => W.segment b s ∧ exn e s) s' s'
  | _, _ => False

/-- `settle` on a part of the state, whose rest stays as it is. -/
def Prog.settleOn (L : Lens σ τ) (p : Prog τ ε Q R α) (s : σ) : Prog τ ε Q R α × σ :=
  let out := p.settle (L.view s)
  (out.1, L.put s out.2)

/-- The segment that starts now respects the contract, and leaves a settled program. -/
theorem settle_spec {W : Contract σ Q R} {L : Lens σ τ} {F : α → σ → Prop}
    {E : ε → σ → Prop} {p : Prog τ ε Q R α} {b s : σ}
    (h : wpa W L p (fun a b s => W.segment b s ∧ F a s)
      (fun e b s => W.segment b s ∧ E e s) b s) :
    W.segment b (p.settleOn L s).2 ∧
      Settled W L F E (p.settleOn L s).1 (p.settleOn L s).2 := by
  induction p generalizing s with
  | ret a =>
      simp only [Prog.settleOn, Prog.settle, L.put_view]
      exact h
  | throw e =>
      simp only [Prog.settleOn, Prog.settle, L.put_view]
      exact h
  | get k ih => exact ih (L.view s) h
  | set t k ih =>
      have := ih h
      simpa only [Prog.settleOn, Prog.settle, L.view_put, L.put_put] using this
  | await q k ih =>
      simp only [Prog.settleOn, Prog.settle, L.put_view]
      exact h

/-! ### Pools -/

/-- A handler that was started by `req` in the state `start`, and what is left of its program since
its last segment. -/
structure Proc (σ τ ε Q : Type) (R : Q → Type) (α Req : Type) where
  req : Req
  start : σ
  prog : Prog τ ε Q R α

/-- What a handler was started on: its request, and the state of then. -/
def Proc.label (p : Proc σ τ ε Q R α Req) : Req × σ := (p.req, p.start)

/-- The handler waits for an answer. -/
def Proc.Suspended (p : Proc σ τ ε Q R α Req) : Prop := ∃ q k, p.prog = .await q k

/-- The shared state, and every handler started so far, the oldest first; those that are done stay
in the list. -/
structure Pool (σ τ ε Q : Type) (R : Q → Type) (α Req : Type) where
  state : σ
  procs : List (Proc σ τ ε Q R α Req)

/-- What happens in a pool: a handler is started, the one at place `i` is answered, or the world
moves to another state. -/
inductive Action (σ Q : Type) (R : Q → Type) (Req : Type)
  | spawn (req : Req)
  | resume (i : ℕ) (answer : (q : Q) → R q)
  | world (s : σ)

/-- The handlers of a service and what the world outside may do: which answers a call may get, and
how the state may move between the segments. -/
structure Game (σ τ ε Q : Type) (R : Q → Type) (α Req : Type) where
  handler : Req → Prog τ ε Q R α
  /-- The part of the state that the handler of a request works on. -/
  place : Req → Lens σ τ
  /-- The answers a call may get in a state. -/
  answers : σ → (q : Q) → R q → Prop
  /-- The moves of the world. -/
  moves : σ → σ → Prop

namespace Game

variable (G : Game σ τ ε Q R α Req)

/-- The pool after an action. Answering a handler that does not wait does nothing. -/
def act (c : Pool σ τ ε Q R α Req) : Action σ Q R Req → Pool σ τ ε Q R α Req
  | .spawn req =>
      let out := (G.handler req).settleOn (G.place req) c.state
      ⟨out.2, c.procs ++ [⟨req, c.state, out.1⟩]⟩
  | .resume i answer =>
      match c.procs[i]? with
      | some ⟨req, start, .await q k⟩ =>
          let out := (k (answer q)).settleOn (G.place req) c.state
          ⟨out.2, c.procs.set i ⟨req, start, out.1⟩⟩
      | _ => c
  | .world s => { c with state := s }

/-- The answers and the moves are those of the world. -/
def Legal (c : Pool σ τ ε Q R α Req) : Action σ Q R Req → Prop
  | .spawn _ => True
  | .resume i answer => ∀ req start q k, c.procs[i]? = some ⟨req, start, .await q k⟩ →
      G.answers c.state q (answer q)
  | .world s => G.moves c.state s

/-- The pools that legal actions lead to from the state `s`, when every request is started
in a pool where it is `admitted`. -/
inductive Reaches (admitted : Pool σ τ ε Q R α Req → Req → Prop) (s : σ) :
    Pool σ τ ε Q R α Req → Prop
  | init : Reaches admitted s ⟨s, []⟩
  | step {c : Pool σ τ ε Q R α Req} {a : Action σ Q R Req} (h : Reaches admitted s c)
      (hlegal : G.Legal c a) (hadm : ∀ req, a = .spawn req → admitted c req) :
      Reaches admitted s (G.act c a)

/-- A sequence of actions, one after the other. -/
def play (c : Pool σ τ ε Q R α Req) (as : List (Action σ Q R Req)) : Pool σ τ ε Q R α Req :=
  as.foldl G.act c

/-- The actions are legal and admitted, each where it is taken. -/
def Playable (admitted : Pool σ τ ε Q R α Req → Req → Prop) :
    Pool σ τ ε Q R α Req → List (Action σ Q R Req) → Prop
  | _, [] => True
  | c, a :: as => G.Legal c a ∧ (∀ req, a = .spawn req → admitted c req) ∧
      Playable admitted (G.act c a) as

variable {G}

section Reach

variable {admitted : Pool σ τ ε Q R α Req → Req → Prop} {s s' : σ} {c : Pool σ τ ε Q R α Req}
  {prog : Prog τ ε Q R α} {t : τ}

/-- A request starts, and its first segment runs. -/
theorem Reaches.spawn (h : G.Reaches admitted s c) (req : Req) (hadm : admitted c req)
    (hset : (G.handler req).settle ((G.place req).view c.state) = (prog, t)) :
    G.Reaches admitted s
      ⟨(G.place req).put c.state t, c.procs ++ [⟨req, c.state, prog⟩]⟩ := by
  have := h.step (a := .spawn req) trivial fun _ heq => Action.spawn.inj heq ▸ hadm
  simpa only [act, Prog.settleOn, hset] using this

/-- A suspended handler is answered, and its next segment runs. -/
theorem Reaches.resume (h : G.Reaches admitted s c) (i : ℕ) {req : Req} {start : σ} {q : Q}
    {k : R q → Prog τ ε Q R α} (hget : c.procs[i]? = some ⟨req, start, .await q k⟩)
    (answer : (q : Q) → R q) (hlegal : G.answers c.state q (answer q))
    (hset : (k (answer q)).settle ((G.place req).view c.state) = (prog, t)) :
    G.Reaches admitted s
      ⟨(G.place req).put c.state t, c.procs.set i ⟨req, start, prog⟩⟩ := by
  have := h.step (a := .resume i answer) (fun _ _ _ _ hget' => by
    rw [hget] at hget'
    cases hget'
    exact hlegal) fun _ heq => nomatch heq
  simpa only [act, hget, Prog.settleOn, hset] using this

/-- The handler that was started last is answered. -/
theorem Reaches.resume_last {req : Req} {start u : σ} {q : Q} {k : R q → Prog τ ε Q R α}
    {ps : List (Proc σ τ ε Q R α Req)}
    (h : G.Reaches admitted s ⟨u, ps ++ [⟨req, start, .await q k⟩]⟩) (answer : (q : Q) → R q)
    (hlegal : G.answers u q (answer q))
    (hset : (k (answer q)).settle ((G.place req).view u) = (prog, t)) :
    G.Reaches admitted s ⟨(G.place req).put u t, ps ++ [⟨req, start, prog⟩]⟩ := by
  have := h.resume ps.length List.getElem?_concat_length answer hlegal hset
  rwa [List.set_append_right _ _ (Nat.le_refl _), Nat.sub_self] at this

/-- The world moves by itself. -/
theorem Reaches.world (h : G.Reaches admitted s c) (hmove : G.moves c.state s') :
    G.Reaches admitted s ⟨s', c.procs⟩ :=
  h.step (a := .world s') hmove fun _ heq => nomatch heq

end Reach

/-- A legal sequence of actions leads to a reached pool. -/
theorem Reaches.play {admitted : Pool σ τ ε Q R α Req → Req → Prop} {s : σ}
    {c : Pool σ τ ε Q R α Req} (h : G.Reaches admitted s c) {as : List (Action σ Q R Req)}
    (has : G.Playable admitted c as) : G.Reaches admitted s (G.play c as) := by
  induction as generalizing c with
  | nil => exact h
  | cons a as ih => exact ih (h.step has.1 has.2.1) has.2.2

/-- An action that is legal and admitted in every pool. -/
def Sure (G : Game σ τ ε Q R α Req) (admitted : Pool σ τ ε Q R α Req → Req → Prop) :
    Action σ Q R Req → Prop
  | .spawn req => ∀ c, admitted c req
  | .resume _ answer => ∀ s q, G.answers s q (answer q)
  | .world s' => ∀ s, G.moves s s'

theorem playable_of_sure {admitted : Pool σ τ ε Q R α Req → Req → Prop}
    {as : List (Action σ Q R Req)} (h : ∀ a ∈ as, G.Sure admitted a) (c : Pool σ τ ε Q R α Req) :
    G.Playable admitted c as := by
  induction as generalizing c with
  | nil => trivial
  | cons a as ih =>
      obtain ⟨ha, has⟩ := List.forall_mem_cons.mp h
      refine ⟨?_, fun req heq => ?_, ih has _⟩
      · cases a with
        | spawn req => trivial
        | resume i answer => exact fun _ _ q _ _ => ha c.state q
        | world s => exact ha c.state
      · subst heq
        exact ha c

end Game

/-! ### Disciplines -/

/-- What every handler of a game relies on and guarantees. A label is a request with the
state it was started in; only compatible handlers may be in progress together, and a request may
be confined to states that admit it. -/
structure Discipline (G : Game σ τ ε Q R α Req) where
  inv : σ → Prop
  admits : Req → σ → Prop := fun _ _ => True
  /-- What persists for good. -/
  evolves : σ → σ → Prop
  /-- What the others may do while the handler is suspended. -/
  rely : Req × σ → σ → σ → Prop
  /-- What a segment of the handler does. -/
  gua : Req × σ → σ → σ → Prop
  compatible : Req × σ → Req × σ → Prop
  post : Req × σ → α → σ → Prop
  exn : Req × σ → ε → σ → Prop
  /-- What a handler has left behind once it has started. -/
  marked : Req × σ → σ → Prop := fun _ _ => True

namespace Discipline

variable {G : Game σ τ ε Q R α Req} (D : Discipline G)

/-- The contract of a handler: what it may rely on while suspended, and what it owes for each
segment. -/
def contract (l : Req × σ) : Contract σ Q R where
  resume q s r s' := D.inv s ∧ D.inv s' ∧ D.rely l s s' ∧ G.answers s' q r
  segment s s' := D.gua l s s'

/-- The obligations behind a discipline: the relations are preorders, every handler keeps to its
contract, and what one handler owes is what the others rely on. -/
structure Valid : Prop where
  evolves_refl : ∀ s, D.evolves s s
  evolves_trans : ∀ {s s' s''}, D.evolves s s' → D.evolves s' s'' → D.evolves s s''
  rely_refl : ∀ l s, D.rely l s s
  rely_trans : ∀ {l s s' s''}, D.rely l s s' → D.rely l s' s'' → D.rely l s s''
  handler_spec : ∀ req s, D.inv s → D.admits req s →
    wpa (D.contract (req, s)) (G.place req) (G.handler req)
    (fun a b s' => D.gua (req, s) b s' ∧ D.post (req, s) a s')
    (fun e b s' => D.gua (req, s) b s' ∧ D.exn (req, s) e s') s s
  gua_inv : ∀ {l s s'}, D.inv s → D.gua l s s' → D.inv s' ∧ D.evolves s s'
  gua_rely : ∀ {l l' s s'}, D.compatible l l' → D.inv s → D.gua l s s' → D.rely l' s s'
  moves_inv : ∀ {s s'}, D.inv s → G.moves s s' → D.inv s' ∧ D.evolves s s'
  moves_rely : ∀ {l s s'}, D.inv s → G.moves s s' → D.rely l s s'
  gua_marked : ∀ {l s s'}, D.inv s → D.gua l s s' → D.marked l s' := by
    intros
    trivial

/-- A handler in progress can go on, a finished one has met its postcondition. -/
def Keeps (p : Proc σ τ ε Q R α Req) (s : σ) : Prop :=
  ∃ s₀, D.inv s₀ ∧ D.marked p.label s₀ ∧ D.evolves s₀ s ∧
    (p.Suspended → D.rely p.label s₀ s) ∧
    Settled (D.contract p.label) (G.place p.req) (D.post p.label) (D.exn p.label) p.prog s₀

/-- A good pool: the invariant holds, every handler is where its proof says, and any two are
compatible. -/
structure Good (c : Pool σ τ ε Q R α Req) : Prop where
  inv : D.inv c.state
  keeps : ∀ p ∈ c.procs, D.Keeps p c.state
  compatible : ∀ (i j : ℕ) (hi : i < c.procs.length) (hj : j < c.procs.length), i ≠ j →
    c.procs[i].Suspended → c.procs[j].Suspended →
      D.compatible c.procs[i].label c.procs[j].label

/-- Admission: the state admits the new request, which is compatible with everything in
progress. -/
def Admits (c : Pool σ τ ε Q R α Req) (req : Req) : Prop :=
  D.admits req c.state ∧ ∀ p ∈ c.procs, p.Suspended →
    D.compatible p.label (req, c.state) ∧ D.compatible (req, c.state) p.label

variable {D}

/-- A handler keeps its promise through what the others do. -/
theorem Keeps.mono (hv : D.Valid) {p : Proc σ τ ε Q R α Req} {s s' : σ} (h : D.Keeps p s)
    (hev : D.evolves s s') (hrely : p.Suspended → D.rely p.label s s') : D.Keeps p s' := by
  obtain ⟨s₀, hinv, hmark, hev₀, hrely₀, hset⟩ := h
  exact ⟨s₀, hinv, hmark, hv.evolves_trans hev₀ hev,
    fun hs => hv.rely_trans (hrely₀ hs) (hrely hs), hset⟩

/-- A handler keeps its promises right after a segment of its own. -/
theorem Keeps.of_settled (hv : D.Valid) {p : Proc σ τ ε Q R α Req} {s : σ} (hinv : D.inv s)
    (hmark : D.marked p.label s)
    (h : Settled (D.contract p.label) (G.place p.req) (D.post p.label) (D.exn p.label) p.prog s) :
    D.Keeps p s :=
  ⟨s, hinv, hmark, hv.evolves_refl s, fun _ => hv.rely_refl _ s, h⟩

/-- Starting an admitted request keeps a pool good. -/
theorem Good.spawn (hv : D.Valid) {c : Pool σ τ ε Q R α Req} (h : D.Good c) {req : Req}
    (hadm : D.Admits c req) : D.Good (G.act c (.spawn req)) := by
  obtain ⟨hgua, hset⟩ := settle_spec (hv.handler_spec req c.state h.inv hadm.1)
  obtain ⟨hinv, hev⟩ := hv.gua_inv h.inv hgua
  refine ⟨hinv, fun p hp => ?_, fun i j hi hj hne hsi hsj => ?_⟩
  · rcases List.mem_append.mp hp with hp | hp
    · exact (h.keeps p hp).mono hv hev fun hs => hv.gua_rely (hadm.2 p hp hs).2 h.inv hgua
    · obtain rfl := List.mem_singleton.mp hp
      exact Keeps.of_settled hv hinv (hv.gua_marked h.inv hgua) hset
  · simp only [Game.act, List.length_append, List.length_singleton] at hi hj
    simp only [Game.act] at hsi hsj ⊢
    rcases Nat.lt_or_ge i c.procs.length with hi' | hi'
    · rw [List.getElem_append_left hi'] at hsi ⊢
      rcases Nat.lt_or_ge j c.procs.length with hj' | hj'
      · rw [List.getElem_append_left hj'] at hsj ⊢
        exact h.compatible i j hi' hj' hne hsi hsj
      · rw [List.getElem_append_right hj'] at hsj ⊢
        simpa [Proc.label] using (hadm.2 _ (List.getElem_mem hi') hsi).1
    · rw [List.getElem_append_right hi'] at hsi ⊢
      have hj' : j < c.procs.length := by omega
      rw [List.getElem_append_left hj'] at hsj ⊢
      simpa [Proc.label] using (hadm.2 _ (List.getElem_mem hj') hsj).2

/-- Answering a suspended handler keeps a pool good. -/
theorem Good.resume (hv : D.Valid) {c : Pool σ τ ε Q R α Req} (h : D.Good c) {i : ℕ}
    {answer : (q : Q) → R q} (hlegal : G.Legal c (.resume i answer)) :
    D.Good (G.act c (.resume i answer)) := by
  rw [Game.act]
  split
  next req start q k hget =>
    obtain ⟨hi, hgi⟩ := List.getElem?_eq_some_iff.mp hget
    have hsusp : c.procs[i].Suspended := ⟨q, k, by rw [hgi]⟩
    obtain ⟨s₀, hinv₀, -, hev₀, hrely₀, hset₀⟩ := h.keeps _ (List.getElem_mem hi)
    have hrely := hrely₀ hsusp
    rw [hgi] at hset₀ hrely
    obtain ⟨hgua, hset⟩ := settle_spec
      (hset₀ (answer q) c.state ⟨hinv₀, h.inv, hrely, hlegal req start q k hget⟩)
    obtain ⟨hinv, hev⟩ := hv.gua_inv h.inv hgua
    set left := ((k (answer q)).settleOn (G.place req) c.state).1
    refine ⟨hinv, fun p hp => ?_, fun j j' hj hj' hne hsj hsj' => ?_⟩
    · obtain ⟨j, hj, rfl⟩ := List.mem_iff_getElem.mp hp
      simp only [List.length_set] at hj
      rcases eq_or_ne j i with rfl | hji
      · simp only [List.getElem_set_self]
        exact Keeps.of_settled hv hinv (hv.gua_marked h.inv hgua) hset
      · rw [List.getElem_set_ne hji.symm]
        refine (h.keeps _ (List.getElem_mem hj)).mono hv hev fun hs => ?_
        have hcomp := h.compatible i j hi hj hji.symm hsusp hs
        rw [hgi] at hcomp
        exact hv.gua_rely hcomp h.inv hgua
    · -- answering leaves the labels as they are, and suspends nobody else
      have hsame : ∀ (m : ℕ) (hm : m < c.procs.length)
          (hm' : m < (c.procs.set i ⟨req, start, left⟩).length),
          (c.procs.set i ⟨req, start, left⟩)[m].label = c.procs[m].label ∧
          ((c.procs.set i ⟨req, start, left⟩)[m].Suspended → c.procs[m].Suspended) := by
        intro m hm hm'
        rcases eq_or_ne m i with rfl | hmi
        · rw [List.getElem_set_self, hgi]
          exact ⟨rfl, fun _ => ⟨q, k, rfl⟩⟩
        · rw [List.getElem_set_ne hmi.symm]
          exact ⟨rfl, id⟩
      simp only [List.length_set] at hj hj'
      obtain ⟨hl, hs⟩ := hsame j hj (by simpa using hj)
      obtain ⟨hl', hs'⟩ := hsame j' hj' (by simpa using hj')
      rw [hl, hl']
      exact h.compatible j j' hj hj' hne (hs hsj) (hs' hsj')
  next => exact h

/-- A move of the world keeps a pool good. -/
theorem Good.world (hv : D.Valid) {c : Pool σ τ ε Q R α Req} (h : D.Good c) {s : σ}
    (hlegal : G.Legal c (.world s)) : D.Good (G.act c (.world s)) := by
  obtain ⟨hinv, hev⟩ := hv.moves_inv h.inv hlegal
  exact ⟨hinv, fun p hp => (h.keeps p hp).mono hv hev fun _ => hv.moves_rely h.inv hlegal,
    h.compatible⟩

/-- An action leaves a good pool, and what persists for good persists. -/
theorem Good.act (hv : D.Valid) {c : Pool σ τ ε Q R α Req} (h : D.Good c)
    {a : Action σ Q R Req} (hlegal : G.Legal c a) (hadm : ∀ req, a = .spawn req → D.Admits c req) :
    D.Good (G.act c a) ∧ D.evolves c.state (G.act c a).state := by
  cases a with
  | spawn req =>
      have hreq := hadm req rfl
      obtain ⟨hgua, -⟩ := settle_spec (hv.handler_spec req c.state h.inv hreq.1)
      exact ⟨h.spawn hv hreq, (hv.gua_inv h.inv hgua).2⟩
  | resume i answer =>
      refine ⟨h.resume hv hlegal, ?_⟩
      rw [Game.act]
      split
      next req start q k hget =>
        obtain ⟨hi, hgi⟩ := List.getElem?_eq_some_iff.mp hget
        obtain ⟨s₀, hinv₀, -, -, hrely₀, hset₀⟩ := h.keeps _ (List.getElem_mem hi)
        have hrely := hrely₀ ⟨q, k, by rw [hgi]⟩
        rw [hgi] at hset₀ hrely
        obtain ⟨hgua, -⟩ := settle_spec
          (hset₀ (answer q) c.state ⟨hinv₀, h.inv, hrely, hlegal req start q k hget⟩)
        exact (hv.gua_inv h.inv hgua).2
      next => exact hv.evolves_refl _
  | world s => exact ⟨h.world hv hlegal, (hv.moves_inv h.inv hlegal).2⟩

/-- A legal sequence of actions keeps a pool good. -/
theorem Good.play (hv : D.Valid) {admitted : Pool σ τ ε Q R α Req → Req → Prop}
    (hadm : ∀ c req, D.Good c → admitted c req → D.Admits c req) {c : Pool σ τ ε Q R α Req}
    (h : D.Good c) {as : List (Action σ Q R Req)} (has : G.Playable admitted c as) :
    D.Good (G.play c as) ∧ D.evolves c.state (G.play c as).state := by
  induction as generalizing c with
  | nil => exact ⟨h, hv.evolves_refl _⟩
  | cons a as ih =>
      obtain ⟨hlegal, hok, has⟩ := has
      obtain ⟨hgood, hev⟩ := h.act hv hlegal fun req heq => hadm c req h (hok req heq)
      obtain ⟨hgood', hev'⟩ := ih hgood has
      exact ⟨hgood', hv.evolves_trans hev hev'⟩

/-- **Soundness.** In every reachable pool the invariant holds, every suspended handler can
be resumed, and every finished one has met its postcondition. Induction on the run. -/
theorem sound (hv : D.Valid) {admitted : Pool σ τ ε Q R α Req → Req → Prop} {s : σ}
    (hs : D.inv s) (hadm : ∀ c req, D.Good c → admitted c req → D.Admits c req)
    {c : Pool σ τ ε Q R α Req} (h : G.Reaches admitted s c) : D.Good c := by
  induction h with
  | init => exact ⟨hs, fun p hp => (nomatch hp), fun i j hi => (nomatch hi)⟩
  | @step c a _ hlegal hok ih =>
      exact (ih.act hv hlegal fun req heq => hadm c req ih (hok req heq)).1

end Discipline

end Async
