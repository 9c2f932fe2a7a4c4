import NoGhost.Dashboard.Store

/-!
# The Socket and the Polls

The model of `useTwoWallsStore` of `dashboard/store.ts`: the dashboard listens to a socket, and
polls while it has none. What the browser does to it are events: a timer fires, the response of a
poll arrives, its body has been read, the socket opens, closes or gets a message. They come in any
order that the browser allows. How long a timer takes is left open, so the backoff is not modelled.

A poll has two awaits. Its guard is between them: a poll whose response came before the socket had
opened goes on to read the body, and dispatches what it reads whatever has become of the socket.

## Main results

* `Runs.open_iff`, `Runs.decoding`: what the history tells about the socket and the polls.
* `undisturbed_iff`: a run is disturbed by a poll if and only if the socket opens, and stays
  open, between the response of the poll and its body.
-/

namespace NoGhost.Dashboard

variable {cfg : Config} {B C : Type}

/-! ### The hook -/

/-- A poll: it awaits its response, or the body of the response, or is over. The two awaits are what
a socket can open between. -/
inductive Poll
  | fetching
  | decoding
  | finished
  deriving DecidableEq

/-- A socket. It may be told to close before it is open, or while it is, and in both cases it closes
only later. -/
inductive Socket
  | connecting
  | failing
  | opened
  | closing
  | closed
  deriving DecidableEq

/-- The variables of the effect: the flags, the socket, of the timers whether they are set, and the
polls that were started. -/
structure Hook where
  disposed : Bool
  wsOpen : Bool
  ws : Option Socket
  pollTimer : Bool
  reconnectTimer : Bool
  polls : List Poll

namespace Hook

/-- `poll`, up to its first await: one more request for the state is under way. -/
def poll (h : Hook) : Hook := { h with polls := h.polls ++ [.fetching] }

/-- `startPolling`: a poll at once, and the timer for the next ones, unless it is set. -/
def startPolling (h : Hook) : Hook := if h.pollTimer then h else { h.poll with pollTimer := true }

/-- `stopPolling`: the timer is cleared, while the polls that are under way go on. -/
def stopPolling (h : Hook) : Hook := { h with pollTimer := false }

/-- `scheduleReconnect`: the timer for another socket is set, unless the hook is disposed of. -/
def scheduleReconnect (h : Hook) : Hook :=
  if h.disposed then h else { h with reconnectTimer := true }

/-- `connect`; the browser may refuse to make a socket, which is taken like one that closes. -/
def connect (created : Bool) (h : Hook) : Hook :=
  if h.disposed then h
  else if created then { h with ws := some .connecting }
  else h.scheduleReconnect

/-- `ws?.close()`: a socket that is connecting fails, and one that is open goes on to its closing.
-/
def close (h : Hook) : Hook :=
  match h.ws with
  | some .connecting => { h with ws := some .failing }
  | some .opened => { h with ws := some .closing }
  | _ => h

/-- The effect is run: polling starts, and the first socket is made. -/
def mount (created : Bool) : Hook :=
  connect created (startPolling ⟨false, false, none, false, false, []⟩)

/-- A poll is over, whatever it has brought. -/
def finish (i : ℕ) (h : Hook) : Hook := { h with polls := h.polls.set i .finished }

end Hook

/-- What the browser does: the timers fire, the polls and their bodies arrive or fail, and the
socket opens, speaks and closes. -/
inductive Event (cfg : Config) (B C : Type)
  | tick
  | response (i : ℕ) (ok : Bool)
  | unreachable (i : ℕ)
  | body (i : ℕ) (state : Snapshot cfg B C)
  | badBody (i : ℕ)
  | onopen
  | onmessage (frame : Option (WsEvent cfg B C))
  | onclose
  | onerror
  | reconnect (created : Bool)
  | unmount
  | dismiss (id : ℕ)

/-- The events that may happen: a timer that is set, a poll that is under way, a socket that is in
the right state. -/
def Hook.Enabled (h : Hook) : Event cfg B C → Prop
  | .tick => h.pollTimer = true
  | .response i _ | .unreachable i => h.polls[i]? = some .fetching
  | .body i _ | .badBody i => h.polls[i]? = some .decoding
  | .onopen => h.ws = some .connecting
  | .onmessage _ => h.ws = some .opened ∨ h.ws = some .closing
  | .onclose => ∃ ws, h.ws = some ws ∧ ws ≠ .closed
  | .onerror => ∃ ws, h.ws = some ws
  | .reconnect _ => h.reconnectTimer = true
  | .unmount => h.disposed = false
  | .dismiss _ => True

/-- The handler of an event: what it does to the hook itself. -/
def Hook.next (h : Hook) : Event cfg B C → Hook
  | .tick => h.poll
  | .response i ok =>
      if h.disposed || h.wsOpen || !ok then h.finish i
      else { h with polls := h.polls.set i .decoding }
  | .unreachable i | .body i _ | .badBody i => h.finish i
  | .onopen => stopPolling { h with ws := some .opened, wsOpen := true }
  | .onmessage _ => h
  | .onclose =>
      let h := { h with ws := some .closed, wsOpen := false }
      if h.disposed then h else h.startPolling.scheduleReconnect
  | .onerror => h.close
  | .reconnect created => connect created { h with reconnectTimer := false }
  | .unmount => close { h.stopPolling with disposed := true, reconnectTimer := false }
  | .dismiss _ => h

/-- What the `catch` of a poll dispatches: that the coordinator is offline, unless the socket is
open. -/
def Hook.offline (h : Hook) : List (StoreAction cfg B C) :=
  if !h.disposed && !h.wsOpen then [.conn .offline] else []

/-- What the handler of an event dispatches to the store of the dashboard. -/
def Hook.dispatched (h : Hook) : Event cfg B C → List (StoreAction cfg B C)
  | .response _ ok =>
      if h.disposed || h.wsOpen then [] else if ok then [] else [.conn .offline]
  | .unreachable _ | .badBody _ => h.offline
  | .body _ state => [.snapshot state, .conn .polling]
  | .onopen => [.conn .live]
  | .onmessage (some event) => [.ws event]
  | .onclose => if h.disposed then [] else [.conn .connecting]
  | .dismiss id => [.toastDismiss id]
  | .tick | .onmessage none | .onerror | .reconnect _ | .unmount => []

/-- The hook and the store that it feeds. -/
structure Live (cfg : Config) (B C : Type) where
  hook : Hook
  store : StoreState cfg B C

/-- An event is handled: the hook goes on, and the store reduces what was dispatched. -/
def Live.handle (d : Live cfg B C) (e : Event cfg B C) : Live cfg B C :=
  ⟨d.hook.next e, (d.hook.dispatched e).foldl reducer d.store⟩

/-- The runs, from the first render on, with the events in the order in which they happened. -/
inductive Runs (created : Bool) : List (Event cfg B C) → Live cfg B C → Prop
  | mount : Runs created [] ⟨.mount created, initialState⟩
  | step {es : List (Event cfg B C)} {d : Live cfg B C} {e : Event cfg B C}
      (h : Runs created es d) (he : d.hook.Enabled e) : Runs created (es ++ [e]) (d.handle e)

/-- The socket has opened, and has not closed: a socket that is closing can still speak. -/
def Hook.Open (h : Hook) : Prop := h.ws = some .opened ∨ h.ws = some .closing

instance (h : Hook) : Decidable h.Open := inferInstanceAs (Decidable (_ ∨ _))

/-- While the socket is open, the connection state is live, and no poll dispatches a snapshot. -/
def Undisturbed (created : Bool) (es : List (Event cfg B C)) : Prop :=
  ∀ pre d, pre <+: es → Runs created pre d → d.hook.Open → d.store.conn = .live ∧
    ∀ e, pre ++ [e] <+: es → ∀ state, .snapshot state ∉ d.hook.dispatched e

/-- The socket opens after the response of a poll, and does not close before its body is read. -/
def Straddles (es : List (Event cfg B C)) : Prop :=
  ∃ a b c rest i state,
    es = a ++ .response i true :: (b ++ .onopen :: (c ++ .body i state :: rest)) ∧ .onclose ∉ c

/-! ### The socket -/

section Handlers

variable {h : Hook} {e : Event cfg B C}

namespace Hook

/-- Polling leaves the socket alone. -/
@[simp] theorem ws_startPolling : h.startPolling.ws = h.ws := by
  rw [startPolling]
  split <;> rfl

/-- Polling leaves the flag for the socket alone. -/
@[simp] theorem wsOpen_startPolling : h.startPolling.wsOpen = h.wsOpen := by
  rw [startPolling]
  split <;> rfl

/-- A timer for another socket leaves this one alone. -/
@[simp] theorem ws_scheduleReconnect : h.scheduleReconnect.ws = h.ws := by
  rw [scheduleReconnect]
  split <;> rfl

/-- A timer for another socket leaves the flag for this one alone. -/
@[simp] theorem wsOpen_scheduleReconnect : h.scheduleReconnect.wsOpen = h.wsOpen := by
  rw [scheduleReconnect]
  split <;> rfl

/-- What the handlers keep: the variable `wsOpen` says whether the socket is open, and a new one is
only made when there is none or it has closed. -/
structure Sound (h : Hook) : Prop where
  wsOpen : h.wsOpen = true ↔ h.Open
  vacant : h.reconnectTimer = true → h.ws = none ∨ h.ws = some .closed

/-- Where there is no socket, or a closed one, none is open. -/
theorem not_open_of_vacant (hws : h.ws = none ∨ h.ws = some .closed) : ¬ h.Open := by
  rintro (hopen | hopen) <;> rcases hws with hws | hws <;> rw [hws] at hopen <;> cases hopen

/-- A handler that leaves the socket and its flag alone, and sets no timer for another one, keeps
the hook sound. -/
theorem Sound.of_eq {h' : Hook} (hs : h.Sound) (hws : h'.ws = h.ws) (hopen : h'.wsOpen = h.wsOpen)
    (htimer : h'.reconnectTimer = true → h.reconnectTimer = true) : h'.Sound := by
  refine ⟨?_, fun ht => ?_⟩
  · rw [hopen, hs.wsOpen, Open, Open, hws]
  · rw [hws]
    exact hs.vacant (htimer ht)

/-- A new socket is made only where the last one is gone, and it is not open yet. -/
theorem Sound.connect {created : Bool} (hs : h.Sound) (hws : h.ws = none ∨ h.ws = some .closed)
    (htimer : h.reconnectTimer = false) : (h.connect created).Sound := by
  have hclosed : h.wsOpen = false := by
    rw [← Bool.not_eq_true, hs.wsOpen]
    exact not_open_of_vacant hws
  rw [Hook.connect]
  split
  · exact hs
  split
  · refine ⟨?_, fun ht => ?_⟩
    · rw [hclosed]
      exact ⟨nofun, fun hopen => by rcases hopen with hopen | hopen <;> cases hopen⟩
    · rw [htimer] at ht
      cases ht
  · refine ⟨?_, fun _ => ?_⟩
    · rw [wsOpen_scheduleReconnect, hs.wsOpen, Open, Open, ws_scheduleReconnect]
    · rwa [ws_scheduleReconnect]

/-- A socket that is told to close is open until it has closed. -/
theorem open_close : h.close.Open ↔ h.Open := by
  rw [close]
  split
  next hws => simp only [Open, hws]; decide
  next hws => simp only [Open, hws]; decide
  next => rfl

/-- Closing keeps the flag in step with the socket. -/
theorem Sound.close (hs : h.Sound) : h.close.Sound := by
  refine ⟨?_, fun ht => ?_⟩
  · rw [open_close, ← hs.wsOpen, Hook.close]
    split <;> rfl
  · have ht' : h.reconnectTimer = true := by
      rw [← ht, Hook.close]
      split <;> rfl
    rcases hs.vacant ht' with hws | hws
    · left
      rw [Hook.close, hws]
      exact hws
    · right
      rw [Hook.close, hws]
      exact hws

/-- The hook is sound from its first render on. -/
theorem sound_mount (created : Bool) : (mount created).Sound := by
  refine Sound.connect (Sound.of_eq (h := ⟨false, false, none, false, false, []⟩) ?_ rfl rfl id)
    (.inl rfl) rfl
  exact ⟨⟨nofun, fun hopen => by rcases hopen with hopen | hopen <;> cases hopen⟩, nofun⟩

/-- **Every event that may happen keeps the hook sound**; the cases are the events. -/
theorem Sound.next (hs : h.Sound) (he : h.Enabled e) : (h.next e).Sound := by
  cases e with
  | tick => exact hs.of_eq rfl rfl id
  | response i ok =>
      rw [Hook.next]
      split
      · exact hs.of_eq rfl rfl id
      · exact hs.of_eq rfl rfl id
  | unreachable i => exact hs.of_eq rfl rfl id
  | body i state => exact hs.of_eq rfl rfl id
  | badBody i => exact hs.of_eq rfl rfl id
  | onmessage frame => exact hs
  | dismiss id => exact hs
  | onopen =>
      refine ⟨⟨fun _ => .inl rfl, fun _ => rfl⟩, fun ht => ?_⟩
      rcases hs.vacant ht with hws | hws <;> rw [show h.ws = _ from he] at hws <;> cases hws
  | onclose =>
      have hvacant : ∀ h' : Hook, h'.ws = some .closed → h'.wsOpen = false → h'.Sound :=
        fun h' hws hopen => by
          refine ⟨?_, fun _ => .inr hws⟩
          rw [hopen]
          exact ⟨nofun, fun ho => absurd ho (not_open_of_vacant (.inr hws))⟩
      rw [Hook.next]
      split
      · exact hvacant _ rfl rfl
      · exact hvacant _ (by rw [ws_scheduleReconnect, ws_startPolling])
          (by rw [wsOpen_scheduleReconnect, wsOpen_startPolling])
  | onerror => exact hs.close
  | reconnect created =>
      exact Sound.connect (hs.of_eq rfl rfl nofun) (hs.vacant he) rfl
  | unmount => exact Sound.close (hs.of_eq rfl rfl nofun)

/-- What opens the socket, and what closes it: after an event it is open where the event is
`onopen`, or it was open and the event is not `onclose`. -/
theorem open_next (hs : h.Sound) (he : h.Enabled e) :
    (h.next e).Open ↔ e = .onopen ∨ (h.Open ∧ e ≠ .onclose) := by
  have hkeep : ∀ {e : Event cfg B C}, e ≠ .onopen → e ≠ .onclose →
      ((h.next e).Open ↔ h.Open) →
      ((h.next e).Open ↔ e = .onopen ∨ (h.Open ∧ e ≠ .onclose)) := fun hne hne' hiff => by
    rw [hiff]
    exact ⟨fun hopen => .inr ⟨hopen, hne'⟩, fun hor => (hor.resolve_left hne).1⟩
  cases e with
  | tick => exact hkeep nofun nofun .rfl
  | response i ok =>
      refine hkeep nofun nofun ?_
      rw [Hook.next]
      split <;> rfl
  | unreachable i => exact hkeep nofun nofun .rfl
  | body i state => exact hkeep nofun nofun .rfl
  | badBody i => exact hkeep nofun nofun .rfl
  | onmessage frame => exact hkeep nofun nofun .rfl
  | dismiss id => exact hkeep nofun nofun .rfl
  | onopen => exact ⟨fun _ => .inl rfl, fun _ => .inl rfl⟩
  | onclose =>
      have hclosed : (h.next (.onclose : Event cfg B C)).ws = some .closed := by
        rw [Hook.next]
        split
        · rfl
        · rw [ws_scheduleReconnect, ws_startPolling]
      refine ⟨fun hopen => absurd hopen (not_open_of_vacant (.inr hclosed)), ?_⟩
      rintro (heq | ⟨-, hne⟩)
      · cases heq
      · exact absurd rfl hne
  | onerror => exact hkeep nofun nofun open_close
  | unmount => exact hkeep nofun nofun open_close
  | reconnect created =>
      have hvacant := hs.vacant he
      refine hkeep nofun nofun
        ⟨fun hopen => ?_, fun hopen => absurd hopen (not_open_of_vacant hvacant)⟩
      rw [Hook.next, connect] at hopen
      split at hopen
      · exact hopen
      split at hopen
      · rcases hopen with hopen | hopen <;> cases hopen
      · rwa [Open, ws_scheduleReconnect] at hopen

/-! ### The polls -/

/-- A timer for another socket leaves the polls alone. -/
@[simp] theorem polls_scheduleReconnect : h.scheduleReconnect.polls = h.polls := by
  rw [scheduleReconnect]
  split <;> rfl

/-- Closing the socket leaves the polls alone. -/
@[simp] theorem polls_close : h.close.polls = h.polls := by
  rw [close]
  split <;> rfl

/-- Making a socket leaves the polls alone. -/
theorem polls_connect {created : Bool} : (h.connect created).polls = h.polls := by
  rw [connect]
  split
  · rfl
  split
  · rfl
  · exact polls_scheduleReconnect

/-- A poll that has just started is not decoding, so the ones that are were so before. -/
theorem decoding_poll {i : ℕ} (hi : h.poll.polls[i]? = some .decoding) :
    h.polls[i]? = some .decoding := by
  change (h.polls ++ [.fetching])[i]? = _ at hi
  rcases Nat.lt_or_ge i h.polls.length with hlt | hge
  · rwa [List.getElem?_append_left hlt] at hi
  · rw [List.getElem?_append_right hge] at hi
    have hmem := List.mem_of_getElem? hi
    cases List.mem_singleton.mp hmem

/-- Neither does the start of polling make any poll decode. -/
theorem decoding_startPolling {i : ℕ} (hi : h.startPolling.polls[i]? = some .decoding) :
    h.polls[i]? = some .decoding := by
  rw [startPolling] at hi
  split at hi
  · exact hi
  · exact decoding_poll hi

/-- A poll that is over is not decoding. -/
theorem decoding_finish {i j : ℕ} (hi : (h.finish j).polls[i]? = some .decoding) :
    h.polls[i]? = some .decoding := by
  change (h.polls.set j .finished)[i]? = _ at hi
  rw [List.getElem?_set] at hi
  split at hi
  · split at hi <;> cases hi
  · exact hi

/-- The guard: a poll goes on to its body when the socket is not open. -/
theorem decoding_next {i : ℕ} (hs : h.Sound) (hi : (h.next e).polls[i]? = some .decoding) :
    (e = .response i true ∧ ¬ h.Open) ∨ h.polls[i]? = some .decoding := by
  cases e with
  | tick => exact .inr (decoding_poll hi)
  | response j ok =>
      rw [Hook.next] at hi
      split at hi
      next => exact .inr (decoding_finish hi)
      next hguard =>
        change (h.polls.set j .decoding)[i]? = _ at hi
        rw [List.getElem?_set] at hi
        split at hi
        next hji =>
          simp only [Bool.or_eq_true, Bool.not_eq_true', not_or, Bool.not_eq_false] at hguard
          refine .inl ⟨by rw [hji, hguard.2], fun hopen => hguard.1.2 (hs.wsOpen.mpr hopen)⟩
        next => exact .inr hi
  | unreachable j => exact .inr (decoding_finish hi)
  | body j state => exact .inr (decoding_finish hi)
  | badBody j => exact .inr (decoding_finish hi)
  | onopen => exact .inr hi
  | onmessage frame => exact .inr hi
  | dismiss id => exact .inr hi
  | onclose =>
      right
      rw [Hook.next] at hi
      split at hi
      · exact hi
      · rw [polls_scheduleReconnect] at hi
        have hdecoding := decoding_startPolling hi
        exact hdecoding
  | onerror =>
      right
      rwa [Hook.next, polls_close] at hi
  | reconnect created =>
      right
      rwa [Hook.next, polls_connect] at hi
  | unmount =>
      right
      rwa [Hook.next, polls_close] at hi

end Hook

/-- What an open socket lets the handlers dispatch leaves the connection live, except for a body
that is late and the socket's own closing. -/
theorem conn_handle {d : Live cfg B C} (hs : d.hook.Sound) (hopen : d.hook.Open)
    (hclose : e ≠ .onclose) (hbody : ∀ i state, e ≠ .body i state)
    (hlive : d.store.conn = .live) : (d.handle e).store.conn = .live := by
  have hws := hs.wsOpen.mpr hopen
  have hoffline : d.hook.offline = ([] : List (StoreAction cfg B C)) := by
    rw [Hook.offline, hws, Bool.not_true, Bool.and_false]
    rfl
  cases e with
  | tick => exact hlive
  | response i ok =>
      rw [Live.handle, Hook.dispatched, hws, Bool.or_true]
      exact hlive
  | unreachable i =>
      rw [Live.handle, Hook.dispatched, hoffline]
      exact hlive
  | badBody i =>
      rw [Live.handle, Hook.dispatched, hoffline]
      exact hlive
  | body i state => exact absurd rfl (hbody i state)
  | onopen => rfl
  | onmessage frame =>
      cases frame with
      | none => exact hlive
      | some event =>
          have hconn : (reducer d.store (.ws event)).conn = d.store.conn :=
            conn_reducer fun _ heq => (nomatch heq)
          exact hconn.trans hlive
  | onclose => exact absurd rfl hclose
  | onerror => exact hlive
  | reconnect created => exact hlive
  | unmount => exact hlive
  | dismiss id => exact hlive

/-- While the socket is open, only the body of a poll brings a snapshot. -/
theorem not_mem_dispatched {state : Snapshot cfg B C} (hbody : ∀ i state, e ≠ .body i state) :
    .snapshot state ∉ h.dispatched e := by
  intro hmem
  cases e with
  | body i state => exact hbody i state rfl
  | tick | onerror | reconnect | unmount => exact absurd hmem List.not_mem_nil
  | onopen => cases List.mem_singleton.mp hmem
  | dismiss id => cases List.mem_singleton.mp hmem
  | onmessage frame =>
      cases frame with
      | none => exact absurd hmem List.not_mem_nil
      | some event => cases List.mem_singleton.mp hmem
  | unreachable i | badBody i =>
      rw [Hook.dispatched, Hook.offline] at hmem
      split at hmem
      · cases List.mem_singleton.mp hmem
      · cases hmem
  | onclose =>
      rw [Hook.dispatched] at hmem
      split at hmem
      · cases hmem
      · cases List.mem_singleton.mp hmem
  | response i ok =>
      rw [Hook.dispatched] at hmem
      split at hmem
      · cases hmem
      split at hmem
      · cases hmem
      · cases List.mem_singleton.mp hmem

end Handlers

/-! ### Runs -/

section Runs

variable {created : Bool} {es pre post : List (Event cfg B C)} {d : Live cfg B C}
  {e : Event cfg B C}

/-- The hook is sound in every state that a run comes to. -/
theorem Runs.sound (h : Runs created es d) : d.hook.Sound := by
  induction h with
  | mount => exact Hook.sound_mount created
  | step _ he ih => exact ih.next he

/-- No socket is open at the first render. -/
theorem not_open_mount : ¬ (Hook.mount created).Open := by
  cases created <;> decide

/-- The socket is open where it has opened and has not closed since. -/
theorem Runs.open_iff (h : Runs created es d) :
    d.hook.Open ↔ ∃ b c, es = b ++ .onopen :: c ∧ .onclose ∉ c := by
  induction h with
  | mount =>
      refine ⟨fun hopen => absurd hopen not_open_mount, ?_⟩
      rintro ⟨b, c, heq, -⟩
      obtain ⟨-, hnil⟩ := List.append_eq_nil_iff.mp heq.symm
      cases hnil
  | @step es d e h he ih =>
      rw [Live.handle, Hook.open_next h.sound he, ih]
      constructor
      · rintro (rfl | ⟨⟨b, c, rfl, hc⟩, hne⟩)
        · exact ⟨es, [], rfl, List.not_mem_nil⟩
        · refine ⟨b, c ++ [e], by rw [List.append_assoc, List.cons_append], fun hmem => ?_⟩
          rcases List.mem_append.mp hmem with hmem | hmem
          · exact hc hmem
          · exact hne (List.mem_singleton.mp hmem).symm
      · rintro ⟨b, c, heq, hc⟩
        rcases List.eq_nil_or_concat c with rfl | ⟨c', e', rfl⟩
        · obtain ⟨-, hlast⟩ := List.append_inj' heq rfl
          exact .inl (List.singleton_inj.mp hlast)
        · rw [List.concat_eq_append] at heq hc
          rw [← List.cons_append, ← List.append_assoc] at heq
          obtain ⟨rfl, hlast⟩ := List.append_inj' heq rfl
          obtain rfl := List.singleton_inj.mp hlast
          refine .inr ⟨⟨b, c', rfl, fun hmem => hc (List.mem_append_left _ hmem)⟩, ?_⟩
          rintro rfl
          exact hc (List.mem_append_right _ (List.mem_singleton_self _))

/-- A poll that reads its body got its response before the socket opened, if it is open. -/
theorem Runs.decoding (h : Runs created es d) {i : ℕ} (hi : d.hook.polls[i]? = some .decoding) :
    ∃ a b, es = a ++ .response i true :: b ∧
      (d.hook.Open → ∃ b₁ c, b = b₁ ++ .onopen :: c ∧ .onclose ∉ c) := by
  induction h with
  | mount =>
      have hmem := List.mem_of_getElem? hi
      rw [Live.hook, Hook.mount, Hook.polls_connect] at hmem
      cases List.mem_singleton.mp hmem
  | @step es d e h he ih =>
      rcases Hook.decoding_next h.sound hi with ⟨rfl, hopen⟩ | hi
      · refine ⟨es, [], rfl, fun hopen' => ?_⟩
        rcases (Hook.open_next h.sound he).mp hopen' with heq | ⟨hopen', -⟩
        · cases heq
        · exact absurd hopen' hopen
      · obtain ⟨a, b, rfl, hb⟩ := ih hi
        refine ⟨a, b ++ [e], by rw [List.append_assoc, List.cons_append], fun hopen => ?_⟩
        rcases (Hook.open_next h.sound he).mp hopen with rfl | ⟨hopen, hne⟩
        · exact ⟨b, [], rfl, List.not_mem_nil⟩
        · obtain ⟨b₁, c, rfl, hc⟩ := hb hopen
          refine ⟨b₁, c ++ [e], by rw [List.append_assoc, List.cons_append], fun hmem => ?_⟩
          rcases List.mem_append.mp hmem with hmem | hmem
          · exact hc hmem
          · exact hne (List.mem_singleton.mp hmem).symm

/-- A body that straddles an opening of the socket does so in every longer run. -/
theorem Straddles.append (h : Straddles es) : Straddles (es ++ post) := by
  obtain ⟨a, b, c, rest, i, state, rfl, hc⟩ := h
  refine ⟨a, b, c, rest ++ post, i, state, ?_, hc⟩
  simp only [List.append_assoc, List.cons_append]

/-- A body that is read while the socket is open straddles its opening. -/
theorem Runs.straddles (h : Runs created es d) (hopen : d.hook.Open) {i : ℕ}
    {state : Snapshot cfg B C} (he : d.hook.Enabled (.body i state : Event cfg B C)) :
    Straddles (es ++ [.body i state]) := by
  obtain ⟨a, b, rfl, hb⟩ := h.decoding he
  obtain ⟨b₁, c, rfl, hc⟩ := hb hopen
  refine ⟨a, b₁, c, [], i, state, ?_, hc⟩
  simp only [List.append_assoc, List.cons_append]

/-- The connection state is live while the socket is open, but for a straddling body. -/
theorem Runs.conn (h : Runs created es d) (hopen : d.hook.Open) (hno : ¬ Straddles es) :
    d.store.conn = .live := by
  induction h with
  | mount => exact absurd hopen not_open_mount
  | @step es d e h he ih =>
      rcases (Hook.open_next h.sound he).mp hopen with rfl | ⟨hopen, hne⟩
      · rfl
      · refine conn_handle h.sound hopen hne ?_ (ih hopen fun hst => hno hst.append)
        rintro i state rfl
        exact hno (h.straddles hopen he)

/-- A run has passed every prefix of its history, and the next event could happen there. -/
theorem Runs.before (h : Runs created (pre ++ e :: post) d) :
    ∃ d', Runs created pre d' ∧ d'.hook.Enabled e := by
  generalize hes : pre ++ e :: post = es at h
  induction h generalizing post with
  | mount =>
      obtain ⟨-, hnil⟩ := List.append_eq_nil_iff.mp hes
      cases hnil
  | @step es d e' h he ih =>
      rcases List.eq_nil_or_concat post with rfl | ⟨post', e'', rfl⟩
      · obtain ⟨rfl, hlast⟩ := List.append_inj' hes rfl
        obtain rfl := List.singleton_inj.mp hlast
        exact ⟨d, h, he⟩
      · rw [List.concat_eq_append, ← List.cons_append, ← List.append_assoc] at hes
        obtain ⟨rfl, -⟩ := List.append_inj' hes rfl
        exact ih rfl

end Runs

/-- **Stale polls.** In every run, whatever the order of the events: while the socket is open the
connection state stays live and no poll dispatches a snapshot, if and only if the socket never
opens, and stays open, between the response of a poll and its body. -/
theorem undisturbed_iff {created : Bool} {es : List (Event cfg B C)} {d : Live cfg B C}
    (h : Runs created es d) : Undisturbed created es ↔ ¬ Straddles es := by
  constructor
  · rintro hundisturbed ⟨a, b, c, rest, i, state, rfl, hc⟩
    have heq : a ++ .response i true :: (b ++ .onopen :: (c ++ .body i state :: rest)) =
        (a ++ .response i true :: (b ++ .onopen :: c)) ++ .body i state :: rest := by
      simp only [List.append_assoc, List.cons_append]
    rw [heq] at h hundisturbed
    obtain ⟨d', h', -⟩ := h.before
    have hopen : d'.hook.Open := by
      refine h'.open_iff.mpr ⟨a ++ .response i true :: b, c, ?_, hc⟩
      simp only [List.append_assoc, List.cons_append]
    obtain ⟨-, hquiet⟩ := hundisturbed _ d' (List.prefix_append _ _) h' hopen
    refine hquiet (.body i state) ⟨rest, ?_⟩ state List.mem_cons_self
    simp only [List.append_assoc, List.cons_append, List.nil_append]
  · intro hno pre d' hpre h' hopen
    have hnever : ¬ Straddles pre := by
      obtain ⟨post, rfl⟩ := hpre
      exact fun hst => hno hst.append
    refine ⟨h'.conn hopen hnever, fun e he state => not_mem_dispatched ?_⟩
    rintro i state' rfl
    obtain ⟨post, rfl⟩ := he
    have heq : pre ++ [.body i state'] ++ post = pre ++ .body i state' :: post := by
      rw [List.append_assoc, List.singleton_append]
    rw [heq] at h
    obtain ⟨d₀, h₀, henabled⟩ := h.before
    have hopen₀ : d₀.hook.Open := h₀.open_iff.mpr (h'.open_iff.mp hopen)
    exact hno (h₀.straddles hopen₀ henabled).append

/-- A coordinator that has nothing to show yet, as it is just after its boot. -/
def Small.emptySnapshot : Snapshot config Unit Unit :=
  ⟨[], (), (), ⟨⟨0, 0, 0, 0⟩, []⟩, [], [], [], [], []⟩

/-- A page is loaded: the response of the first poll is there before the socket opens. -/
theorem Small.runs_opening :
    ∃ d : Live config Unit Unit, Runs true [.response 0 true, .onopen] d ∧ d.hook.Open ∧
      d.hook.polls = [.decoding] := by
  have hmount : Runs true ([] : List (Event config Unit Unit)) _ := .mount
  have hresponse := hmount.step (e := .response 0 true) rfl
  exact ⟨_, hresponse.step (e := .onopen) rfl, .inl rfl, rfl⟩

/-- A poll that is answered before the socket opens, and whose body does not arrive after, disturbs
nothing. -/
theorem undisturbed_iff_small :
    Undisturbed true ([.response 0 true, .onopen] : List (Event config Unit Unit)) := by
  obtain ⟨d, hruns, -⟩ := Small.runs_opening
  refine (undisturbed_iff hruns).mpr ?_
  rintro ⟨a, b, c, rest, i, state, heq, -⟩
  have hmem : .body i state ∈ ([.response 0 true, .onopen] : List (Event config Unit Unit)) := by
    rw [heq]
    simp
  rcases List.mem_cons.mp hmem with hmem | hmem
  · cases hmem
  · cases List.mem_singleton.mp hmem

/-- Then the body is read, and takes the place of what came over the socket. -/
theorem stale_body : ∃ d : Live config Unit Unit,
    Runs true [.response 0 true, .onopen, .body 0 Small.emptySnapshot] d ∧ d.hook.Open ∧
      d.store.conn = .polling ∧
      ¬ Undisturbed true [.response 0 true, .onopen, .body 0 Small.emptySnapshot] := by
  obtain ⟨d, hruns, hopen, hpolls⟩ := Small.runs_opening
  have hbody : Runs true [.response 0 true, .onopen, .body 0 Small.emptySnapshot] (d.handle _) :=
    hruns.step (e := .body 0 Small.emptySnapshot) (by rw [Hook.Enabled, hpolls]; rfl)
  refine ⟨_, hbody, hopen, rfl, fun hundisturbed => ?_⟩
  have hconn := (hundisturbed _ _ List.prefix_rfl hbody hopen).1
  cases hconn

end NoGhost.Dashboard
