import Mathlib.Logic.Basic

/-!
# Suspendable Programs

A handler of a single-threaded event loop runs without interruption until it awaits an
outside answer; while it is suspended everybody else may run. This module is the syntax
of such handlers and their execution against one environment. It is generic in the shared
state `σ`, the exceptions `ε` and the signature `Q`, `R` of the awaited calls: `R q` is
the type of the answers to `q`.

A `Prog` is a finite tree: a returned value, an exception, a read of the shared state, a
write of it, or an awaited call with one continuation per answer. Loops of the modelled
code are recursions that build such a tree, so every program ends on every sequence of
answers, and `Prog.run` is a total function.

## Main definitions

* `Prog.bind`, `Prog.tryCatch`: sequencing and exception handling, by recursion on the tree.
* `Prog.settle`: the uninterrupted segment up to the next await.
* `Prog.Calls`: what a program may await.
* `Prog.run`: the whole execution against an environment that answers each call and may
  change the shared state while the program is suspended. The trace keeps the answered calls
  and every single write.
-/

namespace Async

variable {σ ε Q : Type} {R : Q → Type} {α β : Type}

/-- A suspendable program over the shared state `σ`, with exceptions in `ε`, awaiting
calls `q : Q` whose answers have type `R q`. -/
inductive Prog (σ ε Q : Type) (R : Q → Type) (α : Type) : Type
  | ret (a : α)
  | throw (e : ε)
  | get (k : σ → Prog σ ε Q R α)
  | set (s : σ) (k : Prog σ ε Q R α)
  | await (q : Q) (k : R q → Prog σ ε Q R α)

/-- What a run leaves behind in its trace: a call that was answered, or a write of the shared state
with what was there before. -/
inductive Entry (σ Q : Type) (R : Q → Type)
  | answered (q : Q) (r : R q)
  | wrote (before after : σ)

/-- The entries of one program so far, oldest first: what it was answered, and what it has written.
-/
abbrev Trace (σ Q : Type) (R : Q → Type) := List (Entry σ Q R)

namespace Prog

/-- Sequencing: what the first program returns is handed on, and what it raises skips the second. -/
def bind : Prog σ ε Q R α → (α → Prog σ ε Q R β) → Prog σ ε Q R β
  | ret a, f => f a
  | throw e, _ => throw e
  | get k, f => get fun s => (k s).bind f
  | set s k, f => set s (k.bind f)
  | await q k, f => await q fun r => (k r).bind f

/-- Run `p`; an exception that escapes it is handed to `h`, with the state as `p` has left it. -/
def tryCatch : Prog σ ε Q R α → (ε → Prog σ ε Q R α) → Prog σ ε Q R α
  | ret a, _ => ret a
  | throw e, h => h e
  | get k, h => get fun s => (k s).tryCatch h
  | set s k, h => set s (k.tryCatch h)
  | await q k, h => await q fun r => (k r).tryCatch h

instance : Monad (Prog σ ε Q R) where
  pure := ret
  bind := bind

instance : MonadExceptOf ε (Prog σ ε Q R) where
  throw := throw
  tryCatch := tryCatch

/-- A value read off the shared state, without an await. -/
def gets (f : σ → α) : Prog σ ε Q R α := get fun s => ret (f s)

/-- An update of the shared state, within one segment. -/
def modify (f : σ → σ) : Prog σ ε Q R Unit := get fun s => set (f s) (ret ())

/-- An update of the shared state that returns a value read in the same segment. -/
def modifyGet (f : σ → α × σ) : Prog σ ε Q R α := get fun s => set (f s).2 (ret (f s).1)

/-- Await the answer to `q`; others may write the state before it comes. -/
def call (q : Q) : Prog σ ε Q R (R q) := await q ret

/-- A computation that may raise, inside a program, which raises where it does. -/
def ofExcept : Except ε α → Prog σ ε Q R α
  | .ok a => ret a
  | .error e => throw e

/-- The segment up to the next await: what is left to do, and the state reached. -/
def settle : Prog σ ε Q R α → σ → Prog σ ε Q R α × σ
  | ret a, s => (ret a, s)
  | throw e, s => (throw e, s)
  | get k, s => (k s).settle s
  | set s' k, _ => k.settle s'
  | await q k, s => (await q k, s)

/-- Every call that the program may await, whatever the answers, is one of `A`. -/
def Calls (A : Q → Prop) : Prog σ ε Q R α → Prop
  | ret _ => True
  | throw _ => True
  | get k => ∀ s, (k s).Calls A
  | set _ k => k.Calls A
  | await q k => A q ∧ ∀ r, (k r).Calls A

/-! ### The calls of a composed program -/

section Calls

variable {A : Q → Prop} {p : Prog σ ε Q R α}

/-- A sequence calls what its parts call. -/
theorem Calls.bind (h : p.Calls A) {f : α → Prog σ ε Q R β} (hf : ∀ a, (f a).Calls A) :
    (p >>= f).Calls A := by
  change (p.bind f).Calls A
  induction p with
  | ret a => exact hf a
  | throw e => trivial
  | get k ih => exact fun s => ih s (h s)
  | set u k ih => exact ih h
  | await q k ih => exact ⟨h.1, fun r => ih r (h.2 r)⟩

/-- A computation makes no call, whether or not it raises. -/
theorem calls_ofExcept (x : Except ε α) : (ofExcept x : Prog σ ε Q R α).Calls A := by
  cases x <;> trivial

/-- Reading the state makes no call. -/
theorem calls_gets (f : σ → α) : (gets f : Prog σ ε Q R α).Calls A := fun _ => trivial

/-- Writing the state makes no call. -/
theorem calls_modify (f : σ → σ) : (modify f : Prog σ ε Q R Unit).Calls A := fun _ => trivial

/-- An await makes the call that it awaits. -/
theorem calls_call {q : Q} (h : A q) : (call q : Prog σ ε Q R (R q)).Calls A :=
  ⟨h, fun _ => trivial⟩

/-- What is left after a segment calls no more than the whole. -/
theorem Calls.settle (h : p.Calls A) (s : σ) : (p.settle s).1.Calls A := by
  induction p generalizing s with
  | ret a => trivial
  | throw e => trivial
  | get k ih => exact ih s (h s) s
  | set u k ih => exact ih h u
  | await q k ih => exact h

end Calls

/-! ### Segments of a composed program -/

section Segments

variable {p : Prog σ ε Q R α} {s t : σ} {q : Q} {k : R q → Prog σ ε Q R α} {a : α} {e : ε}

/-- The rest of a program that ends is its continuation, from the state it has left. -/
theorem settle_bind_ret (f : α → Prog σ ε Q R β) (h : p.settle s = (ret a, t)) :
    (p >>= f).settle s = (f a).settle t := by
  change (p.bind f).settle s = _
  induction p generalizing s with
  | ret b => cases h; rfl
  | throw e => cases h
  | get k ih => exact ih s h
  | set u k ih => exact ih h
  | await q k ih => cases h

/-- A sequence whose first part is suspended is suspended at the same call. -/
theorem settle_bind_await (f : α → Prog σ ε Q R β) (h : p.settle s = (await q k, t)) :
    (p >>= f).settle s = (await q fun r => k r >>= f, t) := by
  change (p.bind f).settle s = _
  induction p generalizing s with
  | ret b => cases h
  | throw e => cases h
  | get k ih => exact ih s h
  | set u k ih => exact ih h
  | await q k ih => cases h; rfl

/-- A program that ends without raising ends so inside a handler. -/
theorem settle_tryCatch_ret (g : ε → Prog σ ε Q R α) (h : p.settle s = (ret a, t)) :
    (p.tryCatch g).settle s = (ret a, t) := by
  induction p generalizing s with
  | ret b => exact h
  | throw e => cases h
  | get k ih => exact ih s h
  | set u k ih => exact ih h
  | await q k ih => cases h

/-- A program that is suspended inside a handler is suspended at the same call, with the handler
around the rest. -/
theorem settle_tryCatch_await (g : ε → Prog σ ε Q R α) (h : p.settle s = (await q k, t)) :
    (p.tryCatch g).settle s = (await q fun r => (k r).tryCatch g, t) := by
  induction p generalizing s with
  | ret b => cases h
  | throw e => cases h
  | get k ih => exact ih s h
  | set u k ih => exact ih h
  | await q k ih => cases h; rfl

/-- A program that ends in `pure b` returns nothing else. -/
theorem ret_of_settle_bind_pure {b b' : β} (h : (p >>= fun _ => pure b).settle s =
    ((.ret b' : Prog σ ε Q R β), t)) : b' = b := by
  change (p.bind fun _ => .ret b).settle s = _ at h
  induction p generalizing s with
  | ret a => cases h; rfl
  | throw e => cases h
  | get k ih => exact ih s h
  | set u k ih => exact ih h
  | await q k ih => cases h

end Segments

end Prog

/-! ### Execution against one environment -/

/-- An environment: given the trace so far, it answers the next call, and says what the
shared state has become meanwhile. -/
abbrev Env (σ Q : Type) (R : Q → Type) := Trace σ Q R → (q : Q) → σ → R q × σ

/-- What an execution leaves behind: its result, its trace and the last state. -/
structure Outcome (σ ε Q : Type) (R : Q → Type) (α : Type) where
  result : Except ε α
  trace : Trace σ Q R
  final : σ

/-- The execution of a program from the trace `t` and the state `s`. -/
def Prog.run (env : Env σ Q R) : Prog σ ε Q R α → Trace σ Q R → σ → Outcome σ ε Q R α
  | ret a, t, s => ⟨.ok a, t, s⟩
  | throw e, t, s => ⟨.error e, t, s⟩
  | get k, t, s => (k s).run env t s
  | set s' k, t, s => k.run env (t ++ [.wrote s s']) s'
  | await q k, t, s =>
      (k (env t q s).1).run env (t ++ [.answered q (env t q s).1]) (env t q s).2

/-- An execution of a sequence goes on where the first program has returned. -/
theorem Prog.run_bind_ok {env : Env σ Q R} {p : Prog σ ε Q R α} {f : α → Prog σ ε Q R β}
    {t : Trace σ Q R} {s : σ} {a : α} (h : (p.run env t s).result = .ok a) :
    (p >>= f).run env t s = (f a).run env (p.run env t s).trace (p.run env t s).final := by
  change (p.bind f).run env t s = _
  induction p generalizing t s with
  | ret b => cases h; rfl
  | throw e => cases h
  | get k ih => exact ih s h
  | set u k ih => exact ih h
  | await q k ih => exact ih _ h

/-- A sequence ends where the first program has raised. -/
theorem Prog.run_bind_error {env : Env σ Q R} {p : Prog σ ε Q R α} {f : α → Prog σ ε Q R β}
    {t : Trace σ Q R} {s : σ} {e : ε} (h : (p.run env t s).result = .error e) :
    (p >>= f).run env t s = ⟨.error e, (p.run env t s).trace, (p.run env t s).final⟩ := by
  change (p.bind f).run env t s = _
  induction p generalizing t s with
  | ret b => cases h
  | throw e => cases h; rfl
  | get k ih => exact ih s h
  | set u k ih => exact ih h
  | await q k ih => exact ih _ h

end Async
