/-
How fast the hook polls. `pollingFn` is only ever called by a timer firing, and a run's next
timer is only set by the `.then` of one of its refetches, once that refetch has resolved. So each
effect run alternates: timer, refetch, timer, refetch. Counted per run: it has sent no more
refetches than it has had timers fire, and it has had at most one more timer fire than it has had
refetches resolve (`polling_is_paced`). With a timer standing for `POLLING_INTERVAL`, no run sends
more than one refetch per interval, whatever the answers are and however long they take.
-/
import AIReviewPolling.Step

namespace AIReviewPolling

/-- The refetches run `j` has sent. -/
def World.refetches (w : World) (j : Nat) : Nat := w.fetches.countP (·.owner == some j)

/-- The refetches of run `j` that resolved, so that their `.then` ran. -/
def World.resolved (w : World) (j : Nat) : Nat :=
  w.fetches.countP fun x => x.owner == some j && x.state == .resolved

/-- The timers of run `j` that fired. -/
def World.fired (w : World) (j : Nat) : Nat := w.timers.countP fun t => t.owner == j && t.state == .fired

/-- The timers run `j` has set. -/
def World.armed (w : World) (j : Nat) : Nat := w.timers.countP (·.owner == j)

/-- Each run has sent no more refetches than it has had timers fire, and has set at most one timer
more than it has had refetches resolve (none, before it starts). -/
structure Paced (w : World) : Prop where
  sent : ∀ j, w.refetches j ≤ w.fired j
  armed : ∀ j, w.armed j ≤ w.resolved j + if j < w.pollers.length then 1 else 0

variable {α : Type} {l : List α} {a b : α} {k : Nat}
variable {w w' : World} {h f j : Nat} {t : Timer} {x : Fetch}

/-- Changing an entry in place so that `p` still says the same of it. -/
theorem countP_set_of_eq (p : α → Bool) (ha : l[k]? = some a) (hb : p b = p a) :
    (l.set k b).countP p = l.countP p := by
  have := countP_set_add p ha (b := b)
  rw [hb] at this
  omega

/-- A timer changing state stays its run's. -/
theorem countP_timer_owner {l : List Timer} (ht : l[h]? = some t) (s : TimerState) (j : Nat) :
    (l.set h { t with state := s }).countP (·.owner == j) = l.countP (·.owner == j) :=
  countP_set_of_eq _ ht rfl

/-- A request changing state stays its run's. -/
theorem countP_fetch_owner {l : List Fetch} (hx : l[f]? = some x) (s : FetchState) (j : Nat) :
    (l.set f { x with state := s }).countP (·.owner == some j) = l.countP (·.owner == some j) :=
  countP_set_of_eq _ hx rfl

/-- A pending timer firing adds one to its run's fired timers. -/
theorem countP_fire {l : List Timer} (ht : l[h]? = some t) (hp : t.state = .pending) (j : Nat) :
    (l.set h { t with state := .fired }).countP (fun u => u.owner == j && u.state == .fired) =
      l.countP (fun u => u.owner == j && u.state == .fired) + if t.owner = j then 1 else 0 := by
  have := countP_set_add (fun u : Timer => u.owner == j && u.state == .fired) ht (b := { t with state := .fired })
  have hpf : (TimerState.pending == .fired) = false := rfl
  have hff : (TimerState.fired == .fired) = true := rfl
  simp only [hp, hpf, hff, Bool.and_false, Bool.and_true, beq_iff_eq, Bool.false_eq_true, if_false] at this
  omega

theorem unsettled_beq_resolved {st : FetchState} (hu : st.unsettled = true) : (st == .resolved) = false := by
  cases st <;> first | rfl | simp [FetchState.unsettled] at hu

/-- An unsettled request resolving adds one to its run's resolved refetches. -/
theorem countP_resolve {l : List Fetch} (hx : l[f]? = some x) (hu : x.state.unsettled = true) {i : Nat}
    (hi : x.owner = some i) (j : Nat) :
    (l.set f { x with state := .resolved }).countP (fun y => y.owner == some j && y.state == .resolved) =
      l.countP (fun y => y.owner == some j && y.state == .resolved) + if i = j then 1 else 0 := by
  obtain ⟨o, path, st⟩ := x
  simp only at hi hu
  subst hi
  dsimp only
  have := countP_set_add (fun y : Fetch => y.owner == some j && y.state == .resolved) hx
    (b := { owner := some i, path := path, state := .resolved })
  have hr := unsettled_beq_resolved hu
  have hrr : (FetchState.resolved == .resolved) = true := rfl
  simp only [hr, hrr, Bool.and_false, Bool.and_true, beq_iff_eq, Option.some.injEq, Bool.false_eq_true,
    if_false] at this
  omega

theorem Paced.congr (hw : Paced w) (hf : w'.fetches = w.fetches) (ht : w'.timers = w.timers)
    (hl : w'.pollers.length = w.pollers.length) : Paced w' :=
  ⟨by simpa only [World.refetches, World.fired, hf, ht] using hw.sent,
    by simpa only [World.armed, World.resolved, hf, ht, hl] using hw.armed⟩

/-! ## Timers -/

/-- Clearing a pending timer: it neither fires nor stops being its run's. -/
theorem Paced.clearTimeout (hw : Paced w) (h : Nat) : Paced (w.clearTimeout h) := by
  rcases World.clearTimeout_spec (w := w) (h := h) with ⟨t, ht, hp, he⟩ | ⟨he, -⟩ <;> rw [he]
  · exact ⟨fun j => (hw.sent j).trans_eq
        (countP_set_of_eq _ ht (b := ({ t with state := .cleared } : Timer)) (by rw [hp]; rfl)).symm,
      fun j => (countP_timer_owner ht .cleared j).trans_le (hw.armed j)⟩
  · exact hw

/-- A timer firing: its run's count of fired timers goes up by one, then `pollingFn` sends at most
one refetch, the firing run's. -/
theorem Paced.fire (hw : Paced w) (ht : w.timers[h]? = some t) (hp : t.state = .pending) :
    Paced (pollingFn { w with timers := w.timers.set h { t with state := .fired } } t.owner) := by
  rcases pollingFn_spec (w := { w with timers := w.timers.set h { t with state := .fired } })
    (j := t.owner) with ⟨q, -, -, -, -, he⟩ | ⟨he, -⟩ <;> rw [he] <;> refine ⟨fun j => ?_, fun j => ?_⟩ <;>
    have h₁ := hw.sent j <;> have h₂ := hw.armed j <;>
    simp only [World.refetches, World.fired, World.armed, World.resolved, List.countP_append, countP_fire ht hp,
      countP_timer_owner ht, List.countP_cons, List.countP_nil, Option.some.injEq, beq_iff_eq] at h₁ h₂ ⊢
  · split_ifs <;> omega
  · simpa using h₂
  · omega
  · exact h₂

/-! ## Requests -/

/-- A request changing state without changing whether it is some run's resolved refetch: an
answer landing, or a request of `useGet`'s own resolving. -/
theorem Paced.setFetch (hw : Paced w) (hx : w.fetches[f]? = some x) {s : FetchState}
    (hs : ∀ j, (x.owner == some j && s == .resolved) = (x.owner == some j && x.state == .resolved)) :
    Paced { w with fetches := w.fetches.set f { x with state := s } } :=
  ⟨fun j => (countP_fetch_owner hx s j).trans_le (hw.sent j),
    fun j => (hw.armed j).trans_eq
      (congrArg (· + _) (countP_set_of_eq _ hx (b := ({ x with state := s } : Fetch)) (hs j)).symm)⟩

/-- A refetch resolving: its run's count of resolved refetches goes up by one, then the `.then`
sets at most one timer, that run's. -/
theorem Paced.settle (hw : Paced w) (hx : w.fetches[f]? = some x) (hu : x.state.unsettled = true)
    (hi : x.owner = some j) :
    Paced (afterRefetch { w with fetches := w.fetches.set f { x with state := .resolved } } j) := by
  rcases afterRefetch_spec (w := { w with fetches := w.fetches.set f { x with state := .resolved } })
    (j := j) with ⟨q, -, -, he⟩ | ⟨he, -⟩ <;> rw [he] <;> refine ⟨fun k => ?_, fun k => ?_⟩ <;>
    have h₁ := hw.sent k <;> have h₂ := hw.armed k <;>
    simp only [World.refetches, World.fired, World.armed, World.resolved, List.countP_append,
      countP_resolve hx hu hi, countP_fetch_owner hx, List.countP_cons, List.countP_nil,
      Option.some.injEq, beq_iff_eq, List.length_set] at h₁ h₂ ⊢
  · simpa using h₁
  · split_ifs at * <;> omega
  · exact h₁
  · split_ifs at * <;> omega

/-! ## Renders -/

theorem Paced.load (hw : Paced w) : Paced (load w) := by
  rcases load_spec (w := w) with he | he <;> rw [he]
  · exact hw
  · exact ⟨fun j => by simpa [World.refetches, List.countP_append] using hw.sent j,
      fun j => by simpa [World.resolved, List.countP_append] using hw.armed j⟩

theorem Paced.cleanup (hw : Paced w) : Paced (cleanup w) := by
  rcases cleanup_spec (w := w) with ⟨-, he⟩ | ⟨p, -, he⟩ <;> rw [he]
  · exact hw
  · have h₁ : Paced { w with pollers := w.pollers.set (w.pollers.length - 1) { p with tornDown := true } } :=
      hw.congr rfl rfl (List.length_set ..)
    exact h₁.clearTimeout _

/-- A new run starts with one timer. -/
theorem Paced.runEffect (hw : Paced w) : Paced (runEffect w) := by
  refine ⟨fun j => by simpa [World.fired, AIReviewPolling.runEffect, List.countP_append] using hw.sent j,
    fun j => ?_⟩
  have := hw.armed j
  simp only [World.armed, World.resolved, AIReviewPolling.runEffect, List.countP_append, List.countP_singleton, beq_iff_eq,
    List.length_append, List.length_singleton] at this ⊢
  split_ifs at * <;> omega

theorem Paced.render (hw : Paced w) : Paced (render w) := by
  have h₀ : Paced (applyMemo { w with renderDue := false }) := hw.congr rfl rfl rfl
  have h₁ := h₀.load
  dsimp only [AIReviewPolling.render]
  split_ifs
  · exact h₁
  · exact h₁.cleanup.runEffect

/-! ## Every step -/

theorem Paced.step {e : Event} (hw : Paced w) (hs : step w e = some w') : Paced w' := by
  cases e with
  | fire h =>
    obtain ⟨t, ht, hp, rfl⟩ := step_fire hs
    exact hw.fire ht hp
  | respond f a =>
    obtain ⟨x, hx, hp, rfl⟩ := step_respond hs
    exact (hw.setFetch hx fun j => by rw [hp]; rfl).congr rfl rfl rfl
  | settle f =>
    obtain ⟨x, hx, hu, h⟩ := step_settle hs
    rcases h with ⟨hi, rfl⟩ | ⟨i, hi, rfl⟩
    · exact hw.setFetch hx fun j => by simp [hi]
    · exact hw.settle hx hu hi
  | rerender =>
    cases hs
    exact hw.render
  | setProps p =>
    cases hs
    exact hw.congr rfl rfl rfl

theorem Reachable.paced (hw : Reachable w) : Paced w := by
  induction hw with
  | mount p => exact Paced.render ⟨fun j => by simp [World.refetches, initial],
      fun j => by simp [World.armed, initial]⟩
  | step e _ hs ih => exact ih.step hs

/-- **Each run alternates timer and refetch.** In every state of the mounted hook, an effect run
has sent no more refetches than it has had timers fire, and has had at most one more timer fire
than it has had refetches resolve: `pollingFn` runs only when the run's timer fires, and the run's
next timer is set only by the `.then` of a refetch that resolved. -/
theorem polling_is_paced (hw : Reachable w) (j : Nat) :
    w.refetches j ≤ w.fired j ∧ w.fired j ≤ w.resolved j + 1 := by
  have hle : w.fired j ≤ w.armed j :=
    List.countP_mono_left fun t _ ht => by simp only [Bool.and_eq_true] at ht; exact ht.1
  have := hw.paced.armed j
  exact ⟨hw.paced.sent j, by split_ifs at this <;> omega⟩

theorem polling_is_paced_fired :
    ∃ w, run (mount ⟨some "acme/web", some 7⟩) [.fire 0] = some w ∧
      w.refetches 0 ≤ w.fired 0 ∧ w.fired 0 ≤ w.resolved 0 + 1 :=
  ⟨_, rfl, polling_is_paced (reachable_run (p := ⟨some "acme/web", some 7⟩) [.fire 0] rfl) 0⟩

end AIReviewPolling
