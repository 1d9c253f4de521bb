/-
The state the polling effect of `usePRAIReviews` lives in: the timers `window.setTimeout` has
handed out, the requests `useGet` has sent, every run of the polling `useEffect` with the two
variables its closure owns (`tornDown`, `interval`), and what the hook holds between renders.

Nothing is ever removed. A timer's handle is its index in `timers`, a request is named by its
index in `fetches`, an effect run by its index in `pollers`, and the live run is the last one.
Time is left out: a pending timer may fire at any later step, which covers every delay.
-/
import AIReviewPolling.Review

namespace AIReviewPolling

inductive TimerState where
  | pending | fired | cleared
  deriving DecidableEq, Repr

/-- A timer set by `window.setTimeout(pollingFn, POLLING_INTERVAL)`: the effect run whose
`pollingFn` it calls. -/
structure Timer where
  owner : Nat
  state : TimerState
  deriving DecidableEq, Repr

/-- A request's promise: sent, answered (its answer is in `data`, the promise not yet
settled), then resolved. restful-react's `refetch` resolves on every outcome, a failed or
aborted request included, so there is no rejected state. -/
inductive FetchState where
  | inFlight | answered | resolved
  deriving DecidableEq, Repr

/-- Whether the promise has not settled yet. -/
def FetchState.unsettled : FetchState → Bool
  | .inFlight | .answered => true
  | .resolved => false

/-- A request `useGet` sent: the effect run whose `pollingFn` called `refetch` (none for the
load `useGet` makes by itself), and the path it asked for. -/
structure Fetch where
  owner : Option Nat
  path : String
  state : FetchState
  deriving DecidableEq, Repr

/-- One run of the polling `useEffect`: what its closure read when it ran
(`repoMetadata?.path`, `complete`, and the `refetch` of its render, given by the path that
`refetch` requests), and its own `tornDown` and `interval`. -/
structure Poller where
  path : Option String
  complete : Bool
  refetch : String
  tornDown : Bool
  interval : Nat
  deriving DecidableEq, Repr

/-- The hook in its component. `data` is what `useGet` holds, `dataFrom` the request whose
answer it is; `complete`, the colours and `overallStatus` are the hook's state as the last
render left it; `loaded` is the path `useGet` last requested by itself; `renderDue` says that
`data` or the props changed since the last render. -/
structure World where
  props : Props
  data : Option TypesAIRequest
  dataFrom : Option Nat
  complete : Bool
  color : Color
  background : Color
  overallStatus : Option ExecutionState
  loaded : Option String
  pollers : List Poller
  timers : List Timer
  fetches : List Fetch
  renderDue : Bool
  deriving DecidableEq, Repr

/-- The timer is pending and calls run `i`. -/
def Timer.pendingOf (i : Nat) (t : Timer) : Bool := t.owner == i && t.state == .pending

/-- The request is run `i`'s and has not settled. -/
def Fetch.unsettledOf (i : Nat) (x : Fetch) : Bool := x.owner == some i && x.state.unsettled

/-- How many pending timers and unsettled refetches run `i` has. -/
def busy (w : World) (i : Nat) : Nat :=
  w.timers.countP (Timer.pendingOf i) + w.fetches.countP (Fetch.unsettledOf i)

/-- The handle `h` is run `i`'s and no timer set after it is. -/
def LatestTimer (w : World) (i h : Nat) : Prop :=
  (w.timers[h]?).map Timer.owner = some i ∧ ∀ h', h < h' → (w.timers[h']?).map Timer.owner ≠ some i

/-- `window.clearTimeout(h)`: a pending timer is cleared, any other handle is left alone. -/
def World.clearTimeout (w : World) (h : Nat) : World :=
  match w.timers[h]? with
  | some t => if t.state = .pending then { w with timers := w.timers.set h { t with state := .cleared } } else w
  | none => w

/-- `clearTimeout` clears the timer when it is pending, and does nothing otherwise. -/
theorem World.clearTimeout_spec {w : World} {h : Nat} :
    (∃ t, w.timers[h]? = some t ∧ t.state = .pending ∧
      w.clearTimeout h = { w with timers := w.timers.set h { t with state := .cleared } }) ∨
    (w.clearTimeout h = w ∧ ∀ t, w.timers[h]? = some t → t.state ≠ .pending) := by
  unfold World.clearTimeout
  split
  · next t ht =>
    by_cases hp : t.state = .pending
    · exact .inl ⟨t, ht, hp, by rw [if_pos hp]⟩
    · exact .inr ⟨by rw [if_neg hp], fun u hu => by cases ht.symm.trans hu; exact hp⟩
  · next ht => exact .inr ⟨rfl, fun u hu => by simp [ht] at hu⟩

/-! ## Lists that only grow or change in place -/

section Lists

variable {α β : Type} {l : List α} {a b : α} {b' : β} {k n : Nat}

theorem countP_set_add (p : α → Bool) (ha : l[k]? = some a) :
    (l.set k b).countP p + (if p a then 1 else 0) = l.countP p + (if p b then 1 else 0) := by
  obtain ⟨hk, rfl⟩ := List.getElem?_eq_some_iff.mp ha
  have := List.boole_getElem_le_countP p l k hk
  rw [List.countP_set p l k b hk]
  omega

theorem getElem?_set_of_getElem? (ha : l[k]? = some a) : (l.set k b)[k]? = some b :=
  List.getElem?_set_self (List.getElem?_eq_some_iff.mp ha).1

/-- Changing an entry in place without changing what `g` reads of it. -/
theorem map_getElem?_set (g : α → β) (ha : l[k]? = some a) (hg : g b = g a) :
    ((l.set k b)[n]?).map g = (l[n]?).map g := by
  rcases eq_or_ne k n with rfl | hne
  · simp [List.getElem?_set_self', ha, hg]
  · rw [List.getElem?_set_ne hne]

theorem getElem?_concat_eq_some : (l ++ [a])[n]? = some b ↔ l[n]? = some b ∨ (n = l.length ∧ a = b) := by
  rcases lt_trichotomy n l.length with hn | rfl | hn
  · rw [List.getElem?_append_left hn]; simp; omega
  · simp
  · rw [List.getElem?_eq_none (by simp; omega), List.getElem?_eq_none (by omega)]; simp; omega

theorem getElem?_concat : (l ++ [a])[n]? = if n < l.length then l[n]? else if n = l.length then some a else none := by
  rcases lt_trichotomy n l.length with hn | rfl | hn
  · rw [List.getElem?_append_left hn, if_pos hn]
  · simp
  · rw [List.getElem?_eq_none (by simp; omega), if_neg (by omega), if_neg (by omega)]

theorem lt_of_map_getElem? {g : α → β} (h : (l[n]?).map g = some b') : n < l.length := by
  by_contra hn
  rw [List.getElem?_eq_none (by omega)] at h
  simp at h

end Lists

end AIReviewPolling
