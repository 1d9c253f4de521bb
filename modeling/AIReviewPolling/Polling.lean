/-
Whether the hook keeps polling. The live effect run has `complete` as the memo set it, and
the memo sets it for every answer that is present: polling goes on while the last render saw
no data, and stops at the first answer rendered, a `pending` one included
(`pending_answer_stops_polling`).

While the live run should poll, it holds a pending timer or an unsettled `refetch`: a
`refetch` always resolves, so its `.then` sets the next timer. Once a render has seen data,
only the live run is not torn down and it was started with `complete` set, so no run sends a
`refetch` until a render sees no data (`Answered`).
-/
import AIReviewPolling.Discipline
import AIReviewPolling.Pacing

namespace AIReviewPolling

variable {w w' : World} {i j k h f : Nat} {t : Timer} {x : Fetch} {p : Poller}

/-- The index of the live effect run, the last one. -/
def World.live (w : World) : Nat := w.pollers.length - 1

/-- A step that adds a request or a timer, or changes the state of another run's, leaves each
run's count at least as it was. -/
theorem busy_le_issue (o : Option Nat) (path : String) (k : Nat) :
    busy w k ≤ busy { w with fetches := w.fetches ++ [⟨o, path, .inFlight⟩] } k := by
  rw [busy_issue]; omega

theorem busy_le_arm (ps : List Poller) (i k : Nat) :
    busy w k ≤ busy { w with pollers := ps, timers := w.timers ++ [⟨i, .pending⟩] } k := by
  rw [busy_arm]; omega

theorem busy_setTimer_of_ne (ht : w.timers[h]? = some t) (hk : t.owner ≠ k) {s : TimerState}
    (hs : s ≠ .pending) : busy { w with timers := w.timers.set h { t with state := s } } k = busy w k := by
  simpa [Timer.pendingOf, hk] using busy_setTimer ht hs k

theorem busy_le_pollingFn (j k : Nat) : busy w k ≤ busy (pollingFn w j) k := by
  rcases pollingFn_spec (w := w) (j := j) with ⟨_, -, -, -, -, he⟩ | ⟨he, -⟩ <;> rw [he]
  exact busy_le_issue _ _ k

theorem busy_le_afterRefetch (j k : Nat) : busy w k ≤ busy (afterRefetch w j) k := by
  rcases afterRefetch_spec (w := w) (j := j) with ⟨_, -, -, he⟩ | ⟨he, -⟩ <;> rw [he]
  exact busy_le_arm _ _ k

/-! ## The invariant -/

/-- What the effect runs keep over every run: only the live one is not torn down; a run that
should poll does; and every `refetch` came from a run whose render saw no data. -/
structure RunsOK (w : World) : Prop where
  torn_iff : ∀ i p, w.pollers[i]? = some p → (p.tornDown = true ↔ i + 1 < w.pollers.length)
  polling : ∀ i p, w.pollers[i]? = some p → p.tornDown = false → truthy p.path = true →
    p.complete = false → 0 < busy w i
  refetch_from : ∀ x ∈ w.fetches, ∀ i, x.owner = some i → ∃ p, w.pollers[i]? = some p ∧ p.complete = false

/-- After a render, the live run was started with the props' path and the memo's `complete`,
which says whether there is data. -/
def Committed (w : World) : Prop :=
  w.renderDue = false → liveDeps w = some (w.props.path, w.complete) ∧ w.complete = w.data.isSome

/-- What the invariant reads of a run: everything but `interval` and `refetch`. -/
def Poller.flags (p : Poller) : Option String × Bool × Bool := (p.path, p.complete, p.tornDown)

/-- Runs whose flags did not change. -/
theorem flags_of_map {ps : List Poller} (hf : ∀ i : Nat, (ps[i]?).map Poller.flags = (w.pollers[i]?).map Poller.flags)
    (hr : ps[i]? = some p) : ∃ q, w.pollers[i]? = some q ∧ p.tornDown = q.tornDown ∧ p.path = q.path ∧
      p.complete = q.complete := by
  have := hf i
  rw [hr] at this
  obtain ⟨q, hq, he⟩ := Option.map_eq_some'.mp this.symm
  simp only [Poller.flags, Prod.mk.injEq] at he
  exact ⟨q, hq, he.2.2.symm, he.1.symm, he.2.1.symm⟩

theorem length_of_map {ps : List Poller} (hf : ∀ i : Nat, (ps[i]?).map Poller.flags = (w.pollers[i]?).map Poller.flags) :
    ps.length = w.pollers.length := by
  by_contra hne
  rcases Nat.lt_or_gt_of_ne hne with h | h
  · have := hf ps.length
    rw [List.getElem?_eq_none (le_refl _), (List.getElem?_eq_some_iff.mpr ⟨h, rfl⟩ : _ = some _)] at this
    simp at this
  · have := hf w.pollers.length
    rw [List.getElem?_eq_none (le_refl _), (List.getElem?_eq_some_iff.mpr ⟨h, rfl⟩ : _ = some _)] at this
    simp at this

/-- Changing runs without changing their flags (only `interval`) keeps the invariant, when
every run that should poll still does. -/
theorem RunsOK.of_flags (hw : RunsOK w) (hf : ∀ i : Nat, (w'.pollers[i]?).map Poller.flags = (w.pollers[i]?).map Poller.flags)
    (hpoll : ∀ i p, w'.pollers[i]? = some p → p.tornDown = false → truthy p.path = true →
      p.complete = false → 0 < busy w' i)
    (hfetch : ∀ y ∈ w'.fetches, ∀ i, y.owner = some i → ∃ p, w.pollers[i]? = some p ∧ p.complete = false) :
    RunsOK w' where
  torn_iff i p hp := by
    obtain ⟨q, hq, ht, -, -⟩ := flags_of_map hf hp
    rw [ht, length_of_map hf]; exact hw.torn_iff i q hq
  polling := hpoll
  refetch_from y hy i hi := by
    obtain ⟨q, hq, hc⟩ := hfetch y hy i hi
    have := hf i
    rw [hq] at this
    obtain ⟨r, hr, he⟩ := Option.map_eq_some'.mp this
    simp only [Poller.flags, Prod.mk.injEq] at he
    exact ⟨r, hr, he.2.1.trans hc⟩

/-! ## Each step keeps it -/

theorem RunsOK.fire (hw : RunsOK w) (ht : w.timers[h]? = some t) :
    RunsOK (pollingFn { w with timers := w.timers.set h { t with state := .fired } } t.owner) := by
  have hpol : ∀ k, k ≠ t.owner → 0 < busy w k →
      0 < busy { w with timers := w.timers.set h { t with state := .fired } } k :=
    fun k hk hp => by rwa [busy_setTimer_of_ne ht (Ne.symm hk) (by decide)]
  rcases pollingFn_spec (w := { w with timers := w.timers.set h { t with state := .fired } }) (j := t.owner)
    with ⟨q, hq, h₁, h₂, h₃, he⟩ | ⟨he, hno⟩ <;> rw [he]
  · refine hw.of_flags (fun _ => rfl) (fun k r hr hk₁ hk₂ hk₃ => ?_) (fun y hy i hi => ?_)
    · rcases eq_or_ne k t.owner with rfl | hne
      · rw [busy_issue]; simp
      · exact (hpol k hne (hw.polling k r hr hk₁ hk₂ hk₃)).trans_le (busy_le_issue _ _ k)
    · rcases List.mem_append.mp hy with hy | hy
      · exact hw.refetch_from y hy i hi
      · rw [List.mem_singleton.mp hy, Option.some.injEq] at hi
        exact hi ▸ ⟨q, hq, h₂⟩
  · refine hw.of_flags (fun _ => rfl) (fun k r hr hk₁ hk₂ hk₃ => ?_) hw.refetch_from
    rcases eq_or_ne k t.owner with rfl | hne
    · simp [hno r hr hk₂ hk₃] at hk₁
    · exact hpol k hne (hw.polling k r hr hk₁ hk₂ hk₃)

theorem RunsOK.respond (hw : RunsOK w) (hx : w.fetches[f]? = some x) (hs : x.state = .inFlight)
    (a : Option TypesAIRequest) :
    RunsOK { w with fetches := w.fetches.set f { x with state := .answered }, data := a,
                       dataFrom := some f, renderDue := true } where
  torn_iff := hw.torn_iff
  polling k r hr hk₁ hk₂ hk₃ := (hw.polling k r hr hk₁ hk₂ hk₃).trans_eq
    (busy_setFetch_eq hx fun _ => by simp [hs, FetchState.unsettled]).symm
  refetch_from y hy i hi := by
    rcases List.mem_or_eq_of_mem_set hy with hy | rfl
    · exact hw.refetch_from y hy i hi
    · exact hw.refetch_from x (List.getElem?_mem hx) i hi

/-- The resolved request keeps its owner; every other run that should poll still does. -/
theorem RunsOK.setFetch (hw : RunsOK w) (hx : w.fetches[f]? = some x) (s : FetchState)
    (hpol : ∀ k, x.owner = some k → ∀ p, w.pollers[k]? = some p → p.tornDown = false →
      truthy p.path = true → p.complete = false → 0 < busy { w with fetches := w.fetches.set f { x with state := s } } k) :
    RunsOK { w with fetches := w.fetches.set f { x with state := s } } := by
  refine hw.of_flags (fun _ => rfl) (fun k r hr hk₁ hk₂ hk₃ => ?_) (fun y hy i hi => ?_)
  · by_cases hk : x.owner = some k
    · exact hpol k hk r hr hk₁ hk₂ hk₃
    · exact (hw.polling k r hr hk₁ hk₂ hk₃).trans_eq (busy_setFetch_eq hx fun h => absurd h hk).symm
  · rcases List.mem_or_eq_of_mem_set hy with hy | rfl
    · exact hw.refetch_from y hy i hi
    · exact hw.refetch_from x (List.getElem?_mem hx) i hi

/-- A `refetch` of run `j` resolves and its `.then` runs. -/
theorem RunsOK.settle (hw : RunsOK w) (hx : w.fetches[f]? = some x) (hj : x.owner = some j) :
    RunsOK (afterRefetch { w with fetches := w.fetches.set f { x with state := .resolved } } j) := by
  have hfetch : ∀ y ∈ w.fetches.set f { x with state := .resolved }, ∀ i, y.owner = some i →
      ∃ p, w.pollers[i]? = some p ∧ p.complete = false := fun y hy i hi => by
    rcases List.mem_or_eq_of_mem_set hy with hy | rfl
    · exact hw.refetch_from y hy i hi
    · exact hw.refetch_from x (List.getElem?_mem hx) i hi
  rcases afterRefetch_spec (w := { w with fetches := w.fetches.set f { x with state := .resolved } }) (j := j)
    with ⟨q, hq, h₁, he⟩ | ⟨he, hno⟩ <;> rw [he]
  · refine hw.of_flags (fun i => map_getElem?_set Poller.flags hq rfl) (fun k r hr' hk₁ hk₂ hk₃ => ?_)
      hfetch
    rcases eq_or_ne k j with rfl | hne
    · rw [busy_arm]; simp
    · rw [List.getElem?_set_ne hne.symm] at hr'
      exact ((hw.polling k r hr' hk₁ hk₂ hk₃).trans_eq
        (busy_setFetch_eq hx fun h => by simp [hj, hne.symm] at h).symm).trans_le (busy_le_arm _ _ k)
  · refine hw.of_flags (fun _ => rfl) (fun k r hr' hk₁ hk₂ hk₃ => ?_) hfetch
    rcases eq_or_ne k j with rfl | hne
    · simp [hno r hr'] at hk₁
    · exact (hw.polling k r hr' hk₁ hk₂ hk₃).trans_eq
        (busy_setFetch_eq hx fun h => by simp [hj, hne.symm] at h).symm

theorem RunsOK.load (hw : RunsOK w) : RunsOK (load w) := by
  rcases load_spec (w := w) with he | he <;> rw [he]
  · exact hw
  · refine hw.of_flags (fun _ => rfl)
      (fun k r hr h₁ h₂ h₃ => (hw.polling k r hr h₁ h₂ h₃).trans_le (busy_le_issue _ _ k))
      fun y hy i hi => ?_
    rcases List.mem_append.mp hy with hy | hy
    · exact hw.refetch_from y hy i hi
    · simp [List.mem_singleton.mp hy] at hi

/-- Every run torn down, every `refetch` from a run whose render saw no data: the state
between a cleanup and the new run. -/
structure Quiesced (w : World) : Prop where
  torn : ∀ (i : Nat) (p : Poller), w.pollers[i]? = some p → p.tornDown = true
  refetch_from : ∀ x ∈ w.fetches, ∀ i, x.owner = some i → ∃ p, w.pollers[i]? = some p ∧ p.complete = false

theorem RunsOK.cleanup (hw : RunsOK w) : Quiesced (cleanup w) := by
  rcases cleanup_spec (w := w) with ⟨h₀, hc⟩ | ⟨l, hl, hc⟩ <;> rw [hc]
  · exact ⟨fun i p hp => by simp [h₀] at hp, hw.refetch_from⟩
  · rw [List.getLast?_eq_getElem?] at hl
    rw [clearTimeout_eq]
    refine ⟨fun i p hp => ?_, fun y hy i hi => ?_⟩
    · rcases eq_or_ne (w.pollers.length - 1) i with rfl | hne
      · rw [getElem?_set_of_getElem? hl, Option.some.injEq] at hp
        rw [← hp]
      · rw [List.getElem?_set_ne hne] at hp
        have := (List.getElem?_eq_some_iff.mp hp).1
        exact (hw.torn_iff i p hp).mpr (by omega)
    · obtain ⟨p, hp, hc⟩ := hw.refetch_from y hy i hi
      rcases eq_or_ne (w.pollers.length - 1) i with rfl | hne
      · exact ⟨_, getElem?_set_of_getElem? hl, by rw [← hc, Option.some.inj (hl.symm.trans hp)]⟩
      · exact ⟨p, by rwa [List.getElem?_set_ne hne], hc⟩

theorem Quiesced.runEffect (hw : Quiesced w) : RunsOK (runEffect w) := by
  have hnew : ∀ i p, (w.pollers ++ [⟨w.props.path, w.complete, lastAIReviewPath w.props, false,
      w.timers.length⟩])[i]? = some p → (i < w.pollers.length ∧ w.pollers[i]? = some p) ∨
      (i = w.pollers.length ∧ p.tornDown = false) := fun i p hp => by
    rcases getElem?_concat_eq_some.mp hp with hp | ⟨rfl, rfl⟩
    · exact .inl ⟨(List.getElem?_eq_some_iff.mp hp).1, hp⟩
    · exact .inr ⟨rfl, rfl⟩
  refine ⟨fun i p hp => ?_, fun k r hr h₁ _ _ => ?_, fun y hy i hi => ?_⟩
  · rcases hnew i p hp with ⟨hi, hp⟩ | ⟨rfl, hd⟩
    · simp only [AIReviewPolling.runEffect, List.length_append, List.length_singleton, hw.torn i p hp,
        true_iff]; omega
    · simp [AIReviewPolling.runEffect, hd]
  · rcases hnew k r hr with ⟨-, hr⟩ | ⟨rfl, -⟩
    · simp [hw.torn k r hr] at h₁
    · simp [AIReviewPolling.runEffect, busy_arm]
  · obtain ⟨p, hp, hc⟩ := hw.refetch_from y hy i hi
    exact ⟨p, List.getElem?_append_left (List.getElem?_eq_some_iff.mp hp).1 |>.trans hp, hc⟩

theorem RunsOK.congr (hw : RunsOK w) (hp : w'.pollers = w.pollers) (ht : w'.timers = w.timers)
    (hf : w'.fetches = w.fetches) : RunsOK w' := by
  obtain ⟨h₁, h₂, h₃⟩ := hw
  refine ⟨?_, ?_, ?_⟩ <;> simp only [busy, hp, ht, hf] at * <;> assumption

theorem RunsOK.render (hw : RunsOK w) : RunsOK (render w) := by
  have h₀ : RunsOK (applyMemo { w with renderDue := false }) := hw.congr rfl rfl rfl
  have h₁ := h₀.load
  dsimp only [AIReviewPolling.render]
  split_ifs
  · exact h₁
  · exact h₁.cleanup.runEffect

theorem RunsOK.step {e : Event} (hw : RunsOK w) (hs : step w e = some w') : RunsOK w' := by
  cases e with
  | fire h =>
    obtain ⟨t, ht, -, rfl⟩ := step_fire hs
    exact hw.fire ht
  | respond f a =>
    obtain ⟨x, hx, hp, rfl⟩ := step_respond hs
    exact hw.respond hx hp a
  | settle f =>
    obtain ⟨x, hx, -, h⟩ := step_settle hs
    rcases h with ⟨ho, rfl⟩ | ⟨j, hj, rfl⟩
    · exact hw.setFetch hx _ fun k hk => by simp [ho] at hk
    · exact hw.settle hx hj
  | rerender => cases hs; exact hw.render
  | setProps p => cases hs; exact hw.congr rfl rfl rfl

/-! ## After a render -/

theorem liveDeps_of_flags (hf : ∀ i : Nat, (w'.pollers[i]?).map Poller.flags = (w.pollers[i]?).map Poller.flags) :
    liveDeps w' = liveDeps w := by
  have := hf (w.pollers.length - 1)
  simp only [liveDeps, List.getLast?_eq_getElem?, length_of_map hf]
  cases h₁ : w'.pollers[w.pollers.length - 1]? <;> cases h₂ : w.pollers[w.pollers.length - 1]? <;>
    simp_all [Poller.flags]

theorem Committed.render (w : World) : Committed (render w) := by
  intro _
  have h₁ : (load (applyMemo { w with renderDue := false })).complete =
      (load (applyMemo { w with renderDue := false })).data.isSome := by
    rw [load_eq]; exact memo_complete w.data
  dsimp only [AIReviewPolling.render]
  split_ifs with h
  · exact ⟨h, h₁⟩
  · rw [liveDeps_runEffect, cleanup_eq]; exact ⟨rfl, h₁⟩

theorem Committed.step {e : Event} (hc : Committed w) (hs : step w e = some w') : Committed w' := by
  cases e with
  | fire h =>
    obtain ⟨t, ht, -, rfl⟩ := step_fire hs
    rw [pollingFn_eq]
    exact hc
  | respond f a =>
    obtain ⟨x, -, -, rfl⟩ := step_respond hs
    intro h; cases h
  | settle f =>
    obtain ⟨x, -, -, h⟩ := step_settle hs
    rcases h with ⟨-, rfl⟩ | ⟨j, -, rfl⟩
    · exact hc
    · rcases afterRefetch_spec (w := { w with fetches := w.fetches.set f { x with state := .resolved } }) (j := j)
        with ⟨q, hq, -, he⟩ | ⟨he, -⟩ <;> rw [he]
      · intro hd
        rw [liveDeps_of_flags fun i => map_getElem?_set (b := { q with interval := w.timers.length }) Poller.flags hq rfl]
        exact hc hd
      · exact hc
  | rerender => cases hs; exact .render w
  | setProps p => cases hs; intro h; cases h

theorem RunsOK.mount (p : Props) : RunsOK (mount p) :=
  RunsOK.render ⟨by simp [initial], by simp [initial], by simp [initial]⟩

theorem Reachable.runsOK {w : World} (hw : Reachable w) : RunsOK w ∧ Committed w := by
  induction hw with
  | mount p => exact ⟨.mount p, .render _⟩
  | step e _ hs ih => exact ⟨ih.1.step hs, ih.2.step hs⟩

/-- A run is not torn down exactly when it is the live one. -/
theorem RunsOK.live_iff (hr : RunsOK w) (hp : w.pollers[i]? = some p) : p.tornDown = false ↔ i = w.live := by
  have hi := (List.getElem?_eq_some_iff.mp hp).1
  have h := hr.torn_iff i p hp
  unfold World.live
  cases hd : p.tornDown <;> simp only [hd, Bool.false_eq_true, false_iff, true_iff, Bool.true_eq_false] at h ⊢ <;>
    omega

/-- **One effect run is live, the last one started.** In every state the mounted hook
reaches, an effect run is not torn down exactly when it is the last: every earlier run has
had its cleanup. -/
theorem live_run_is_last {w : World} (hw : Reachable w) {i : Nat} {p : Poller} (hp : w.pollers[i]? = some p) :
    p.tornDown = false ↔ i = w.live :=
  hw.runsOK.1.live_iff hp

/-- An answer rendered: the first run, started with no data, is torn down and is not the live
one; the run started after it is. -/
theorem live_run_is_last_answered :
    ∃ w, run (mount ⟨some "acme/web", some 7⟩)
        [.respond 0 (some ⟨some "success", some "approved"⟩), .rerender] = some w ∧
      w.pollers[0]? = some ⟨some "acme/web", false, "/api/v1/repos/acme/web/+/pullreq/7/last-aireview", true, 0⟩ ∧
      ((true = false) ↔ 0 = w.live) ∧
      w.pollers[1]? = some ⟨some "acme/web", true, "/api/v1/repos/acme/web/+/pullreq/7/last-aireview", false, 1⟩ ∧
      ((false = false) ↔ 1 = w.live) :=
  ⟨_, rfl, by decide,
    live_run_is_last (reachable_run (p := ⟨some "acme/web", some 7⟩)
      [.respond 0 (some ⟨some "success", some "approved"⟩), .rerender] rfl) (i := 0)
      (p := ⟨some "acme/web", false, "/api/v1/repos/acme/web/+/pullreq/7/last-aireview", true, 0⟩) (by decide),
    by decide,
    live_run_is_last (reachable_run (p := ⟨some "acme/web", some 7⟩)
      [.respond 0 (some ⟨some "success", some "approved"⟩), .rerender] rfl) (i := 1)
      (p := ⟨some "acme/web", true, "/api/v1/repos/acme/web/+/pullreq/7/last-aireview", false, 1⟩) (by decide)⟩

/-! ## While an answer is shown -/

/-- The live run was started with the `complete` the hook holds: only a render changes either,
and it re-runs the effect when they differ. -/
def LiveComplete (w : World) : Prop := ∀ d, liveDeps w = some d → d.2 = w.complete

theorem LiveComplete.render (w : World) : LiveComplete (render w) := by
  intro d hd
  dsimp only [AIReviewPolling.render] at hd ⊢
  split_ifs at hd ⊢ with h
  · rw [h] at hd; cases hd; rfl
  · rw [liveDeps_runEffect] at hd; cases hd; rfl

theorem LiveComplete.step {e : Event} (hl : LiveComplete w) (hs : step w e = some w') : LiveComplete w' := by
  cases e with
  | fire h =>
    obtain ⟨t, -, -, rfl⟩ := step_fire hs
    rw [pollingFn_eq]
    exact hl
  | respond f a =>
    obtain ⟨x, -, -, rfl⟩ := step_respond hs
    exact hl
  | settle f =>
    obtain ⟨x, -, -, h⟩ := step_settle hs
    rcases h with ⟨-, rfl⟩ | ⟨j, -, rfl⟩
    · exact hl
    · rcases afterRefetch_spec (w := { w with fetches := w.fetches.set f { x with state := .resolved } }) (j := j)
        with ⟨q, hq, -, he⟩ | ⟨he, -⟩ <;> rw [he]
      · intro d
        rw [liveDeps_of_flags fun i => map_getElem?_set (b := { q with interval := w.timers.length }) Poller.flags hq rfl]
        exact hl d
      · exact hl
  | rerender => cases hs; exact .render w
  | setProps p => cases hs; exact hl

theorem Reachable.liveComplete {w : World} (hw : Reachable w) : LiveComplete w := by
  induction hw with
  | mount p => exact .render _
  | step e _ hs ih => exact ih.step hs

/-- Steps along which every render saw data, so that the hook's `complete` stays set. -/
def Answered : World → World → Prop :=
  Relation.ReflTransGen fun w w' => (∃ e, step w e = some w') ∧ w'.complete = true

theorem refetches_setFetch (hx : w.fetches[f]? = some x) (s : FetchState) (j : Nat) :
    World.refetches { w with fetches := w.fetches.set f { x with state := s } } j = w.refetches j :=
  countP_fetch_owner hx s j

/-- A render adds `useGet`'s own load at most, which is no run's. -/
theorem refetches_render (j : Nat) : (render w).refetches j = w.refetches j := by
  rw [render_eq]
  rcases load_spec (w := applyMemo { w with renderDue := false }) with he | he <;> rw [he]
  · rfl
  · simp [World.refetches, AIReviewPolling.applyMemo, List.countP_append]

/-- While `complete` is set, no step sends a `refetch`: the only run not torn down is the live
one, and it was started with `complete` set. -/
theorem refetches_step (hr : RunsOK w) (hl : LiveComplete w) (hc : w.complete = true) {e : Event}
    (hs : step w e = some w') (j : Nat) : w'.refetches j = w.refetches j := by
  cases e with
  | fire h =>
    obtain ⟨t, -, -, rfl⟩ := step_fire hs
    rcases pollingFn_spec (w := { w with timers := w.timers.set h { t with state := .fired } }) (j := t.owner)
      with ⟨q, hq, -, hqc, hqt, -⟩ | ⟨he, -⟩
    · have hlive : liveDeps w = some (q.path, q.complete) := by
        rw [liveDeps, List.getLast?_eq_getElem?, ← World.live, ← (hr.live_iff hq).mp hqt, hq]; rfl
      exact absurd (hl _ hlive) (by simp [hqc, hc])
    · rw [he]; rfl
  | respond f a =>
    obtain ⟨x, hx, -, rfl⟩ := step_respond hs
    exact refetches_setFetch hx _ j
  | settle f =>
    obtain ⟨x, hx, -, h⟩ := step_settle hs
    rcases h with ⟨-, rfl⟩ | ⟨i, -, rfl⟩
    · exact refetches_setFetch hx _ j
    · rw [afterRefetch_eq]; exact refetches_setFetch hx _ j
  | rerender => cases hs; exact refetches_render j
  | setProps p => cases hs; rfl

/-- Once a render has seen data, no run sends a `refetch` until a render sees none. -/
theorem Reachable.refetches_answered (hw : Reachable w) (hc : w.complete = true) (h : Answered w w') (j : Nat) :
    w'.refetches j = w.refetches j := by
  induction h using Relation.ReflTransGen.head_induction_on with
  | refl => rfl
  | head hs _ ih =>
    obtain ⟨⟨e, hs⟩, hc'⟩ := hs
    rw [ih (hw.step e hs) hc', refetches_step hw.runsOK.1 hw.liveComplete hc hs]

/-! ## What the hook does with an answer -/

/-- **Polling goes on while the last render saw no data, and only then.** In every state the
mounted hook reaches: when the last render saw no data and `repoMetadata.path` is set, the
live effect run has a pending timer or an unsettled `refetch` (a `refetch` always resolves, so
its `.then` sets the next timer); after a render, the live run's `complete` says whether there
is data at all, whatever its `status`; and once a render has seen data, a `pending` answer
included, no run sends a `refetch` in any later state until a render sees no data. -/
theorem polls_until_answer_rendered {w : World} (hw : Reachable w) :
    (w.renderDue = false → w.data = none → truthy w.props.path = true → 0 < busy w w.live) ∧
    (w.renderDue = false → ∀ p, w.pollers.getLast? = some p → p.complete = w.data.isSome) ∧
    (w.complete = true → ∀ w', Answered w w' → ∀ j, w'.refetches j = w.refetches j) := by
  obtain ⟨hr, hc⟩ := hw.runsOK
  refine ⟨fun hd hn ht => ?_, fun hd p hp => ?_, fun hcomp w' h j => hw.refetches_answered hcomp h j⟩
  · obtain ⟨hl, hcomp⟩ := hc hd
    simp only [liveDeps, Option.map_eq_some', Prod.mk.injEq] at hl
    obtain ⟨p, hp, hpath, hpc⟩ := hl
    rw [List.getLast?_eq_getElem?] at hp
    exact hr.polling _ p hp ((hr.live_iff hp).mpr rfl) (by rw [hpath]; exact ht) (by rw [hpc, hcomp, hn]; rfl)
  · obtain ⟨hl, hcomp⟩ := hc hd
    simp only [liveDeps, hp, Option.map_some', Option.some.injEq, Prod.mk.injEq] at hl
    rw [hl.2, hcomp]

/-- An approved review answered and rendered: the live run was started with `complete` set. -/
theorem polls_until_answer_rendered_answered :
    ∃ w, run (mount ⟨some "acme/web", some 7⟩)
        [.respond 0 (some ⟨some "success", some "approved"⟩), .rerender] = some w ∧
      w.complete = true ∧
      (w.renderDue = false → w.data = none → truthy w.props.path = true → 0 < busy w w.live) ∧
      (w.renderDue = false → ∀ p, w.pollers.getLast? = some p → p.complete = w.data.isSome) ∧
      (w.complete = true → ∀ w', Answered w w' → ∀ j, w'.refetches j = w.refetches j) :=
  ⟨_, rfl, by decide, polls_until_answer_rendered (reachable_run (p := ⟨some "acme/web", some 7⟩)
    [.respond 0 (some ⟨some "success", some "approved"⟩), .rerender] rfl)⟩

/-- **An answer still `pending` ends the polling.** The first `refetch` answers
`{ status: 'pending' }`; once that is rendered the live run has `complete` set, its timer
fires and does nothing, and from then on it has no timer and no request, while the review is
not done. -/
theorem pending_answer_stops_polling :
    ¬ ∀ w, Reachable w → w.renderDue = false → truthy w.props.path = true →
      (∀ d, w.data = some d → d.status ≠ some "success" ∧ d.status ≠ some "error") →
      0 < busy w w.live := by
  intro h
  obtain ⟨w, hr, h₁, h₂, h₃, h₄⟩ : ∃ w, run (mount ⟨some "acme/web", some 7⟩)
      [.fire 0, .respond 1 (some ⟨some "pending", none⟩), .rerender, .settle 1, .fire 1] = some w ∧
      w.renderDue = false ∧ truthy w.props.path = true ∧ w.data = some ⟨some "pending", none⟩ ∧
      busy w w.live = 0 :=
    ⟨_, rfl, by decide, by decide, by decide, by decide⟩
  have := h w (reachable_run _ hr) h₁ h₂ fun d hd => by rw [h₃] at hd; cases hd; decide
  omega

end AIReviewPolling
