import Mathlib.Data.List.Basic
import NoGhost.Async.Prog

/-!
# A Program Logic for Suspendable Programs

Weakest preconditions for the programs of `NoGhost.Async.Prog`. The rules of the game are
a record `Rules`: what may have happened to the shared state when an answer arrives
(`resume`), what every write must respect (`gua`), and how the state must be left to the others
at an await (`rest`). `wp W L p post exn t s` says that `p`, started after the trace `t` in
state `s`, keeps to the rules whatever the answers, and that it ends in `post` when it returns
and in `exn` when it raises. The program may work on a part of the shared state that a `Lens`
shows it.

## Main results

* `wp_bind`, `wp_map`, `wp_tryCatch`, `wp_gets`, `wp_modify`, `wp_call`: one equation for each
  way of building a program; they are the `simp` set of the logic.
* `wp_mono`: the rule of consequence.
* `wp_on`: a program on a part of the state, as one on the whole.
* `Prog.Along`: an environment keeps to the rules at every await of an execution.
* `run_of_wp`: what `wp` promises holds of every execution whose environment does.
-/

namespace Async

variable {σ τ ε Q : Type} {R : Q → Type} {α β : Type}

/-- A part of a state, which can be read and replaced by itself, with the three laws that make a
write to the part what it seems to be. -/
structure Lens (σ τ : Type) where
  view : σ → τ
  put : σ → τ → σ
  view_put : ∀ s t, view (put s t) = t
  put_view : ∀ s, put s (view s) = s
  put_put : ∀ s t t', put (put s t) t' = put s t'

attribute [simp] Lens.view_put Lens.put_view Lens.put_put

/-- The whole state, as a part of itself. -/
@[simps] def Lens.whole (σ : Type) : Lens σ σ where
  view s := s
  put _ t := t
  view_put _ _ := rfl
  put_view _ := rfl
  put_put _ _ _ := rfl

/-- What a program may assume when it is resumed after a call, and what it must respect at each of
its writes and awaits. -/
structure Rules (σ Q : Type) (R : Q → Type) where
  /-- `resume q s r s'`: the call `q`, issued in state `s`, is answered by `r` and the shared
  state is then `s'`. -/
  resume : (q : Q) → σ → R q → σ → Prop
  /-- The obligation at a write after a trace. -/
  gua : Trace σ Q R → σ → σ → Prop
  /-- The obligation at an await: what the others find. -/
  rest : Trace σ Q R → σ → Prop := fun _ _ => True

/-- Weakest precondition of a program that works on the part `L` of the state: postcondition
`post` on return, `exn` on an exception. -/
def wp (W : Rules σ Q R) (L : Lens σ τ) : Prog τ ε Q R α → (α → Trace σ Q R → σ → Prop) →
    (ε → Trace σ Q R → σ → Prop) → Trace σ Q R → σ → Prop
  | .ret a, post, _, t, s => post a t s
  | .throw e, _, exn, t, s => exn e t s
  | .get k, post, exn, t, s => wp W L (k (L.view s)) post exn t s
  | .set u k, post, exn, t, s => W.gua t s (L.put s u) ∧
      wp W L k post exn (t ++ [.wrote s (L.put s u)]) (L.put s u)
  | .await q k, post, exn, t, s => W.rest t s ∧
      ∀ r s', W.resume q s r s' → wp W L (k r) post exn (t ++ [.answered q r]) s'

section Equations

variable (W : Rules σ Q R) (L : Lens σ τ) (post : α → Trace σ Q R → σ → Prop)
  (exn : ε → Trace σ Q R → σ → Prop) (t : Trace σ Q R) (s : σ)

@[simp] theorem wp_ret (a : α) : wp W L (.ret a) post exn t s ↔ post a t s := Iff.rfl

@[simp] theorem wp_pure (a : α) :
    wp W L (pure a : Prog τ ε Q R α) post exn t s ↔ post a t s := Iff.rfl

@[simp] theorem wp_throw (e : ε) :
    wp W L (throw e : Prog τ ε Q R α) post exn t s ↔ exn e t s := Iff.rfl

@[simp] theorem wp_ofExcept_ok (a : α) :
    wp W L (.ofExcept (.ok a) : Prog τ ε Q R α) post exn t s ↔ post a t s := Iff.rfl

@[simp] theorem wp_ofExcept_error (e : ε) :
    wp W L (.ofExcept (.error e) : Prog τ ε Q R α) post exn t s ↔ exn e t s := Iff.rfl

@[simp] theorem wp_gets (f : τ → α) :
    wp W L (.gets f) post exn t s ↔ post (f (L.view s)) t s := Iff.rfl

@[simp] theorem wp_modify (f : τ → τ) (post : Unit → Trace σ Q R → σ → Prop) :
    wp W L (.modify f) post exn t s ↔ W.gua t s (L.put s (f (L.view s))) ∧
      post () (t ++ [.wrote s (L.put s (f (L.view s)))]) (L.put s (f (L.view s))) := Iff.rfl

@[simp] theorem wp_modifyGet (f : τ → α × τ) :
    wp W L (.modifyGet f) post exn t s ↔ W.gua t s (L.put s (f (L.view s)).2) ∧
      post (f (L.view s)).1 (t ++ [.wrote s (L.put s (f (L.view s)).2)])
        (L.put s (f (L.view s)).2) := Iff.rfl

@[simp] theorem wp_call (q : Q) (post : R q → Trace σ Q R → σ → Prop) :
    wp W L (.call q) post exn t s ↔ W.rest t s ∧
      ∀ r s', W.resume q s r s' → post r (t ++ [.answered q r]) s' := Iff.rfl

end Equations

/-- The rule of a raising computation: both of its outcomes have to be handled. -/
theorem wp_ofExcept {W : Rules σ Q R} {L : Lens σ τ} {x : Except ε α}
    {post : α → Trace σ Q R → σ → Prop} {exn : ε → Trace σ Q R → σ → Prop} {t : Trace σ Q R}
    {s : σ} (hok : ∀ a, x = .ok a → post a t s) (herr : ∀ e, x = .error e → exn e t s) :
    wp W L (.ofExcept x) post exn t s := by
  cases x with
  | ok a => exact hok a rfl
  | error e => exact herr e rfl

/-- Sequencing: the first program must end where the second may start. -/
@[simp] theorem wp_bind (W : Rules σ Q R) (L : Lens σ τ) (p : Prog τ ε Q R α)
    (f : α → Prog τ ε Q R β) (post : β → Trace σ Q R → σ → Prop)
    (exn : ε → Trace σ Q R → σ → Prop) (t : Trace σ Q R) (s : σ) :
    wp W L (p >>= f) post exn t s ↔ wp W L p (fun a => wp W L (f a) post exn) exn t s := by
  change wp W L (p.bind f) post exn t s ↔ _
  induction p generalizing t s with
  | ret a => exact Iff.rfl
  | throw e => exact Iff.rfl
  | get k ih => exact ih (L.view s) t s
  | set u k ih => exact and_congr_right fun _ => ih _ (L.put s u)
  | await q k ih =>
      exact and_congr_right fun _ => forall_congr' fun r => forall_congr' fun s' =>
        imp_congr_right fun _ => ih r _ s'

/-- The result of a program, mapped before it is handed on. -/
@[simp] theorem wp_map (W : Rules σ Q R) (L : Lens σ τ) (f : α → β) (p : Prog τ ε Q R α)
    (post : β → Trace σ Q R → σ → Prop) (exn : ε → Trace σ Q R → σ → Prop) (t : Trace σ Q R)
    (s : σ) : wp W L (f <$> p) post exn t s ↔ wp W L p (fun a => post (f a)) exn t s :=
  wp_bind W L p (fun a => .ret (f a)) post exn t s

/-- The rule of a raising computation at the head of a sequence. -/
theorem wp_ofExcept_bind {W : Rules σ Q R} {L : Lens σ τ} {x : Except ε α}
    {f : α → Prog τ ε Q R β} {post : β → Trace σ Q R → σ → Prop}
    {exn : ε → Trace σ Q R → σ → Prop} {t : Trace σ Q R} {s : σ}
    (hok : ∀ a, x = .ok a → wp W L (f a) post exn t s)
    (herr : ∀ e, x = .error e → exn e t s) : wp W L (.ofExcept x >>= f) post exn t s :=
  (wp_bind W L _ f post exn t s).mpr (wp_ofExcept hok herr)

/-- Exception handling: an exception must be raised where the handler may start. -/
@[simp] theorem wp_tryCatch (W : Rules σ Q R) (L : Lens σ τ) (p : Prog τ ε Q R α)
    (h : ε → Prog τ ε Q R α) (post : α → Trace σ Q R → σ → Prop)
    (exn : ε → Trace σ Q R → σ → Prop) (t : Trace σ Q R) (s : σ) :
    wp W L (p.tryCatch h) post exn t s ↔
      wp W L p post (fun e => wp W L (h e) post exn) t s := by
  induction p generalizing t s with
  | ret a => exact Iff.rfl
  | throw e => exact Iff.rfl
  | get k ih => exact ih (L.view s) t s
  | set u k ih => exact and_congr_right fun _ => ih _ (L.put s u)
  | await q k ih =>
      exact and_congr_right fun _ => forall_congr' fun r => forall_congr' fun s' =>
        imp_congr_right fun _ => ih r _ s'

/-- The rule of consequence: what a program achieves implies what it has to. -/
theorem wp_mono {W : Rules σ Q R} {L : Lens σ τ} {p : Prog τ ε Q R α}
    {post post' : α → Trace σ Q R → σ → Prop} {exn exn' : ε → Trace σ Q R → σ → Prop}
    {t : Trace σ Q R} {s : σ} (h : wp W L p post exn t s)
    (hpost : ∀ a t s, post a t s → post' a t s) (hexn : ∀ e t s, exn e t s → exn' e t s) :
    wp W L p post' exn' t s := by
  induction p generalizing t s with
  | ret a => exact hpost a t s h
  | throw e => exact hexn e t s h
  | get k ih => exact ih (L.view s) h
  | set u k ih => exact ⟨h.1, ih h.2⟩
  | await q k ih => exact ⟨h.1, fun r s' hr => ih r (h.2 r s' hr)⟩

/-! ### Programs on a part of the state -/

/-- A program on a part of the state, as a program on the whole. -/
def Prog.on (L : Lens σ τ) : Prog τ ε Q R α → Prog σ ε Q R α
  | .ret a => .ret a
  | .throw e => .throw e
  | .get k => .get fun s => (k (L.view s)).on L
  | .set u k => .get fun s => .set (L.put s u) (k.on L)
  | .await q k => .await q fun r => (k r).on L

/-- A program of a part of the state is verified on the part. -/
theorem wp_on {W : Rules σ Q R} {L : Lens σ τ} {p : Prog τ ε Q R α}
    {post : α → Trace σ Q R → σ → Prop} {exn : ε → Trace σ Q R → σ → Prop} {t : Trace σ Q R}
    {s : σ} : wp W (Lens.whole σ) (p.on L) post exn t s ↔ wp W L p post exn t s := by
  induction p generalizing t s with
  | ret a => exact Iff.rfl
  | throw e => exact Iff.rfl
  | get k ih => exact ih (L.view s)
  | set u k ih => exact and_congr_right fun _ => ih
  | await q k ih =>
      exact and_congr_right fun _ => forall_congr' fun r => forall_congr' fun s' =>
        imp_congr_right fun _ => ih r

/-! ### Soundness for executions -/

/-- At every await of the execution the environment keeps to `A`: the call `q`, issued in `s`,
is answered by `r` in `s'`. -/
def Prog.Along (env : Env σ Q R) (A : (q : Q) → σ → R q → σ → Prop) :
    Prog σ ε Q R α → Trace σ Q R → σ → Prop
  | .ret _, _, _ => True
  | .throw _, _, _ => True
  | .get k, t, s => (k s).Along env A t s
  | .set s' k, t, s => k.Along env A (t ++ [.wrote s s']) s'
  | .await q k, t, s => A q s (env t q s).1 (env t q s).2 ∧
      (k (env t q s).1).Along env A (t ++ [.answered q (env t q s).1]) (env t q s).2

/-- An environment that always keeps to `A` does so along every program. -/
theorem Prog.along_of_forall {env : Env σ Q R} {A : (q : Q) → σ → R q → σ → Prop}
    (h : ∀ t q s, A q s (env t q s).1 (env t q s).2) (p : Prog σ ε Q R α) (t : Trace σ Q R)
    (s : σ) : p.Along env A t s := by
  induction p generalizing t s with
  | ret a => trivial
  | throw e => trivial
  | get k ih => exact ih s t s
  | set s' k ih => exact ih _ s'
  | await q k ih => exact ⟨h t q s, ih _ _ _⟩

/-- What holds along an execution holds where it implies more. -/
theorem Prog.Along.mono {env : Env σ Q R} {A B : (q : Q) → σ → R q → σ → Prop}
    {p : Prog σ ε Q R α} {t : Trace σ Q R} {s : σ} (h : p.Along env A t s)
    (hAB : ∀ q s r s', A q s r s' → B q s r s') : p.Along env B t s := by
  induction p generalizing t s with
  | ret a => trivial
  | throw e => trivial
  | get k ih => exact ih s h
  | set s' k ih => exact ih h
  | await q k ih => exact ⟨hAB _ _ _ _ h.1, ih _ h.2⟩

/-- Two things that hold along an execution hold together. -/
theorem Prog.Along.and {env : Env σ Q R} {A B : (q : Q) → σ → R q → σ → Prop}
    {p : Prog σ ε Q R α} {t : Trace σ Q R} {s : σ} (hA : p.Along env A t s)
    (hB : p.Along env B t s) : p.Along env (fun q s r s' => A q s r s' ∧ B q s r s') t s := by
  induction p generalizing t s with
  | ret a => trivial
  | throw e => trivial
  | get k ih => exact ih s hA hB
  | set s' k ih => exact ih hA hB
  | await q k ih => exact ⟨⟨hA.1, hB.1⟩, ih _ hA.2 hB.2⟩

/-- An environment that keeps to `A` along a sequence does so along its first program. -/
theorem Prog.Along.of_bind {env : Env σ Q R} {A : (q : Q) → σ → R q → σ → Prop}
    {p : Prog σ ε Q R α} {f : α → Prog σ ε Q R β} {t : Trace σ Q R} {s : σ}
    (h : (p >>= f).Along env A t s) : p.Along env A t s := by
  change (p.bind f).Along env A t s at h
  induction p generalizing t s with
  | ret a => trivial
  | throw e => trivial
  | get k ih => exact ih s h
  | set s' k ih => exact ih h
  | await q k ih => exact ⟨h.1, ih _ h.2⟩

instance Prog.decidableAlong {env : Env σ Q R} {A : (q : Q) → σ → R q → σ → Prop}
    [∀ q s r s', Decidable (A q s r s')] :
    ∀ (p : Prog σ ε Q R α) (t : Trace σ Q R) (s : σ), Decidable (p.Along env A t s)
  | .ret _, _, _ => .isTrue trivial
  | .throw _, _, _ => .isTrue trivial
  | .get k, t, s => decidableAlong (k s) t s
  | .set s' k, t, s => decidableAlong k (t ++ [.wrote s s']) s'
  | .await q k, t, s =>
      @instDecidableAnd _ _ _
        (decidableAlong (k (env t q s).1) (t ++ [.answered q (env t q s).1]) (env t q s).2)

/-- Every answer in the trace of an execution was given at an await. -/
theorem Prog.Along.answered {env : Env σ Q R} {A : (q : Q) → σ → R q → σ → Prop}
    {p : Prog σ ε Q R α} {t : Trace σ Q R} {s : σ} (h : p.Along env A t s) {q : Q} {r : R q}
    (hmem : .answered q r ∈ (p.run env t s).trace) :
    .answered q r ∈ t ∨ ∃ s₁ s₂, A q s₁ r s₂ := by
  induction p generalizing t s with
  | ret a => exact .inl hmem
  | throw e => exact .inl hmem
  | get k ih => exact ih s h hmem
  | set s' k ih =>
      refine (ih h hmem).imp_left fun hin => ?_
      rcases List.mem_append.mp hin with hin | hin
      · exact hin
      · exact nomatch (List.mem_singleton.mp hin)
  | await q' k ih =>
      rcases ih _ h.2 hmem with hin | hin
      · rcases List.mem_append.mp hin with hin | hin
        · exact .inl hin
        · cases List.mem_singleton.mp hin
          exact .inr ⟨_, _, h.1⟩
      · exact .inr hin

/-- The promise of `wp` about an execution from the trace `t`: what it returns or raises meets the
postcondition, and each of its writes and awaits has met the rules. -/
structure Outcome.Meets (W : Rules σ Q R) (post : α → Trace σ Q R → σ → Prop)
    (exn : ε → Trace σ Q R → σ → Prop) (t : Trace σ Q R) (o : Outcome σ ε Q R α) : Prop where
  returned : ∀ a, o.result = .ok a → post a o.trace o.final
  raised : ∀ e, o.result = .error e → exn e o.trace o.final
  wrote : ∀ u s s', t ++ u ++ [.wrote s s'] <+: o.trace → W.gua (t ++ u) s s'
  prefix_trace : t <+: o.trace

/-- One more entry at the front of what is promised. -/
theorem Outcome.Meets.cons {W : Rules σ Q R} {post : α → Trace σ Q R → σ → Prop}
    {exn : ε → Trace σ Q R → σ → Prop} {t : Trace σ Q R} {e : Entry σ Q R}
    {o : Outcome σ ε Q R α} (h : o.Meets W post exn (t ++ [e]))
    (he : ∀ s s', e = .wrote s s' → W.gua t s s') : o.Meets W post exn t := by
  refine ⟨h.returned, h.raised, fun u s s' hpre => ?_, (List.prefix_append _ _).trans
    h.prefix_trace⟩
  cases u with
  | nil =>
      rw [List.append_nil] at hpre ⊢
      have heq := List.prefix_of_prefix_length_le hpre h.prefix_trace (by simp)
      have := List.append_inj_right (heq.eq_of_length (by simp)) rfl
      exact he s s' (List.singleton_inj.mp this).symm
  | cons e' u =>
      have heq : t ++ [e] <+: t ++ e' :: u ++ [.wrote s s'] :=
        List.prefix_of_prefix_length_le h.prefix_trace hpre (by simp)
      rw [List.append_assoc] at heq
      obtain rfl : e = e' := by
        have := (List.prefix_append_right_inj t).mp heq
        exact (List.cons_prefix_cons.mp this).1
      have := h.wrote u s s' (by simpa using hpre)
      simpa using this

/-- **Soundness.** An execution whose environment keeps to the rules meets what `wp` promises.
Induction on the program tree. -/
theorem run_of_wp {W : Rules σ Q R} {env : Env σ Q R} {p : Prog σ ε Q R α}
    {post : α → Trace σ Q R → σ → Prop} {exn : ε → Trace σ Q R → σ → Prop} {t : Trace σ Q R}
    {s : σ} (henv : p.Along env W.resume t s) (h : wp W (Lens.whole σ) p post exn t s) :
    (p.run env t s).Meets W post exn t := by
  have hlong : ∀ {u : Trace σ Q R} {s s' : σ}, ¬ t ++ u ++ [.wrote s s'] <+: t := fun hpre => by
    have := hpre.length_le
    simp only [List.length_append, List.length_singleton] at this
    omega
  induction p generalizing t s with
  | ret a =>
      refine ⟨fun b hb => ?_, fun e he => (nomatch he), fun u s s' hpre => absurd hpre hlong,
        List.prefix_rfl⟩
      cases hb
      exact h
  | throw e =>
      refine ⟨fun b hb => (nomatch hb), fun e' he => ?_, fun u s s' hpre => absurd hpre hlong,
        List.prefix_rfl⟩
      cases he
      exact h
  | get k ih => exact ih s henv h hlong
  | set s' k ih =>
      refine (ih henv h.2 fun hpre => ?_).cons fun s₁ s₂ heq => ?_
      · have := hpre.length_le
        simp only [List.length_append, List.length_singleton] at this
        omega
      · cases heq
        exact h.1
  | await q k ih =>
      refine (ih _ henv.2 (h.2 _ _ henv.1) fun hpre => ?_).cons fun s₁ s₂ heq => nomatch heq
      have := hpre.length_le
      simp only [List.length_append, List.length_singleton] at this
      omega

end Async
