/-
Unmounting. `PullRequestOverviewPanel` draws `AIReviewSection` only while the pull request is
not closed, so closing it, or leaving the page, unmounts the section and its hook. React then
runs the cleanup of the live effect run, `tornDown = true; window.clearTimeout(interval)`,
which is `cleanup`. Nothing renders the hook again; what is left are the timers still set and
the requests still out, which fire, are answered or resolve in any order (`Detached`).

A torn-down run never has a pending timer (`torn_run_has_no_timer`): its cleanup cleared its
`interval`, the only timer it could have pending, and it sets none after. Every run but the
live one is torn down, so after the unmount no timer is pending at all, and whatever order
the requests still out come back in, no timer fires or is set and no request is sent
(`unmount_stops_polling`).
-/
import AIReviewPolling.Polling

namespace AIReviewPolling

variable {w w' : World} {i j k h : Nat} {t : Timer} {p : Poller}

/-- Every torn-down run has no pending timer. -/
def TornIdle (w : World) : Prop :=
  ∀ i p, w.pollers[i]? = some p → p.tornDown = true → w.timers.countP (Timer.pendingOf i) = 0

theorem TornIdle.congr (ht : TornIdle w) (hp : w'.pollers = w.pollers) (hh : w'.timers = w.timers) :
    TornIdle w' := fun i p hi hd => hh ▸ ht i p (hp ▸ hi) hd

/-! ## Timers changing state -/

theorem countP_setTimer_le (ht : w.timers[h]? = some t) {s : TimerState} (hs : s ≠ .pending) (i : Nat) :
    (w.timers.set h { t with state := s }).countP (Timer.pendingOf i) ≤ w.timers.countP (Timer.pendingOf i) := by
  have := countP_set_add (Timer.pendingOf i) ht (b := { t with state := s })
  have hs' : (s == .pending) = false := by simpa using hs
  simp only [Timer.pendingOf, hs', Bool.and_false, Bool.false_eq_true, if_false] at this
  omega

theorem TornIdle.setTimer (ht : TornIdle w) (hh : w.timers[h]? = some t) {s : TimerState} (hs : s ≠ .pending) :
    TornIdle { w with timers := w.timers.set h { t with state := s } } := fun i p hi hd =>
  Nat.eq_zero_of_le_zero ((countP_setTimer_le hh hs i).trans_eq (ht i p hi hd))

theorem countP_clearTimeout_le (h i : Nat) :
    (w.clearTimeout h).timers.countP (Timer.pendingOf i) ≤ w.timers.countP (Timer.pendingOf i) := by
  rcases World.clearTimeout_spec (w := w) (h := h) with ⟨t, ht, -, he⟩ | ⟨he, -⟩ <;> rw [he]
  · exact countP_setTimer_le ht (by decide) i

/-! ## Timers set -/

/-- A timer set by run `j`, which no torn-down run is. -/
theorem TornIdle.arm (ht : TornIdle w) {ps : List Poller}
    (hps : ∀ k q, ps[k]? = some q → q.tornDown = true → k ≠ j ∧ ∃ r, w.pollers[k]? = some r ∧ r.tornDown = true) :
    TornIdle { w with pollers := ps, timers := w.timers ++ [⟨j, .pending⟩] } := by
  intro k q hq hd
  obtain ⟨hkj, r, hr, hrd⟩ := hps k q hq hd
  simp [List.countP_append, Timer.pendingOf, ht k r hr hrd, hkj.symm]

theorem TornIdle.afterRefetch (ht : TornIdle w) (j : Nat) : TornIdle (afterRefetch w j) := by
  rcases afterRefetch_spec (w := w) (j := j) with ⟨p, hp, hd, he⟩ | ⟨he, -⟩ <;> rw [he]
  · refine ht.arm fun k q hq hqd => ?_
    rcases eq_or_ne j k with rfl | hne
    · rw [getElem?_set_of_getElem? hp, Option.some.injEq] at hq
      simp [← hq, hd] at hqd
    · rw [List.getElem?_set_ne hne] at hq
      exact ⟨hne.symm, q, hq, hqd⟩
  · exact ht

theorem TornIdle.runEffect (ht : TornIdle w) : TornIdle (runEffect w) := by
  refine ht.arm fun k q hq hqd => ?_
  rcases getElem?_concat_eq_some.mp hq with hq | ⟨rfl, rfl⟩
  · exact ⟨(List.getElem?_eq_some_iff.mp hq).1.ne, q, hq, hqd⟩
  · simp at hqd

/-! ## The cleanup -/

/-- The cleanup tears the live run down and clears its `interval`, its only pending timer. -/
theorem TornIdle.cleanup (hw : EffectsOK w) (ht : TornIdle w) : TornIdle (cleanup w) := by
  rcases cleanup_spec (w := w) with ⟨-, he⟩ | ⟨p, hp, he⟩ <;> rw [he]
  · exact ht
  · rw [List.getLast?_eq_getElem?] at hp
    have hw₁ := hw.setPoller (q := { p with tornDown := true }) hp rfl
    intro k q hq hd
    rw [clearTimeout_eq] at hq
    rcases eq_or_ne (w.pollers.length - 1) k with rfl | hne
    · exact hw₁.clear_interval (p := { p with tornDown := true }) (getElem?_set_of_getElem? hp)
    · rw [List.getElem?_set_ne hne] at hq
      exact Nat.eq_zero_of_le_zero ((countP_clearTimeout_le _ k).trans_eq (ht k q hq hd))

theorem TornIdle.render (hw : EffectsOK w) (ht : TornIdle w) : TornIdle (render w) := by
  have h₀ : EffectsOK (applyMemo { w with renderDue := false }) := hw.congr rfl rfl rfl
  have h₁ : TornIdle (load (applyMemo { w with renderDue := false })) := by rw [load_eq]; exact ht
  dsimp only [AIReviewPolling.render]
  split_ifs
  · exact h₁
  · exact (h₁.cleanup h₀.load).runEffect

/-! ## Every step -/

theorem TornIdle.step {e : Event} (hw : EffectsOK w) (ht : TornIdle w) (hs : step w e = some w') :
    TornIdle w' := by
  cases e with
  | fire h =>
    obtain ⟨t, hh, -, rfl⟩ := step_fire hs
    rw [pollingFn_eq]
    exact ht.setTimer hh (by decide)
  | respond f a =>
    obtain ⟨x, -, -, rfl⟩ := step_respond hs
    exact ht.congr rfl rfl
  | settle f =>
    obtain ⟨x, -, -, h⟩ := step_settle hs
    have h₁ : TornIdle { w with fetches := w.fetches.set f { x with state := .resolved } } := ht.congr rfl rfl
    rcases h with ⟨-, rfl⟩ | ⟨i, -, rfl⟩
    · exact h₁
    · exact h₁.afterRefetch i
  | rerender => cases hs; exact ht.render hw
  | setProps p => cases hs; exact ht.congr rfl rfl

theorem Reachable.tornIdle (hw : Reachable w) : TornIdle w := by
  induction hw with
  | mount p =>
    exact TornIdle.render ⟨by simp [initial], by simp [initial], by simp [busy, initial], by simp [initial],
      by simp [initial]⟩ fun i p hp => by simp [initial] at hp
  | step e hr hs ih => exact ih.step hr.effectsOK hs

/-- **A torn-down effect run never has a pending timer.** In every state the mounted hook
reaches, whatever the order of timers, answers, promises, renders and prop changes before,
no timer of a run whose cleanup has run is still pending: the cleanup cleared the only one it
could have, and it sets none after. -/
theorem torn_run_has_no_timer {w : World} (hw : Reachable w) {i : Nat} {p : Poller}
    (hp : w.pollers[i]? = some p) (hd : p.tornDown = true) :
    ∀ t ∈ w.timers, t.owner = i → t.state ≠ .pending := by
  intro t ht ho hs
  have := List.countP_eq_zero.mp (hw.tornIdle i p hp hd) t ht
  simp [Timer.pendingOf, ho, hs] at this

/-- The first run, torn down when the load's answer is rendered, while its first timer was
still pending. -/
theorem torn_run_has_no_timer_answered :
    ∃ w, run (mount ⟨some "acme/web", some 7⟩) [.respond 0 (some ⟨some "success", some "approved"⟩), .rerender] =
        some w ∧
      w.pollers[0]? = some ⟨some "acme/web", false, "/api/v1/repos/acme/web/+/pullreq/7/last-aireview", true, 0⟩ ∧
      (⟨some "acme/web", false, "/api/v1/repos/acme/web/+/pullreq/7/last-aireview", true, 0⟩ : Poller).tornDown = true ∧
      ∀ t ∈ w.timers, t.owner = 0 → t.state ≠ .pending :=
  ⟨_, rfl, by decide, rfl, torn_run_has_no_timer
    (reachable_run (p := ⟨some "acme/web", some 7⟩) [.respond 0 (some ⟨some "success", some "approved"⟩), .rerender] rfl)
    (p := ⟨some "acme/web", false, "/api/v1/repos/acme/web/+/pullreq/7/last-aireview", true, 0⟩) (by decide) rfl⟩

/-! ## The hook unmounted -/

/-- Unmounting: React runs the cleanup of the live effect run. -/
def unmount (w : World) : World := cleanup w

/-- What can still happen to an unmounted hook: its timers fire and its requests are
answered and resolve. Nothing renders it and it gets no props. -/
def Event.detached : Event → Bool
  | .fire _ | .respond _ _ | .settle _ => true
  | .rerender | .setProps _ => false

/-- Some steps of an unmounted hook lead from `w` to `w'`. -/
def Detached : World → World → Prop :=
  Relation.ReflTransGen fun w w' => ∃ e, e.detached = true ∧ step w e = some w'

/-- Every run torn down and no timer pending. -/
structure Stopped (w : World) : Prop where
  torn : ∀ (i : Nat) (p : Poller), w.pollers[i]? = some p → p.tornDown = true
  idle : ∀ t ∈ w.timers, t.state ≠ .pending

/-- A stopped hook's step creates nothing: no timer can fire, and a `.then` finds its run torn
down. -/
theorem Stopped.step {e : Event} (hw : Stopped w) (he : e.detached = true) (hs : step w e = some w') :
    Stopped w' ∧ w'.timers = w.timers ∧ w'.fetches.length = w.fetches.length := by
  cases e with
  | fire h =>
    obtain ⟨t, ht, hp, -⟩ := step_fire hs
    exact absurd hp (hw.idle t (List.getElem?_mem ht))
  | respond f a =>
    obtain ⟨x, -, -, rfl⟩ := step_respond hs
    exact ⟨⟨hw.torn, hw.idle⟩, rfl, List.length_set _ _ _⟩
  | settle f =>
    obtain ⟨x, -, -, h⟩ := step_settle hs
    have h₁ : afterRefetch { w with fetches := w.fetches.set f { x with state := .resolved } } =
        fun _ => { w with fetches := w.fetches.set f { x with state := .resolved } } := by
      funext j
      rcases afterRefetch_spec (w := { w with fetches := w.fetches.set f { x with state := .resolved } }) (j := j)
        with ⟨p, hp, hd, -⟩ | ⟨he, -⟩
      · simp [hw.torn j p hp] at hd
      · exact he
    rcases h with ⟨-, rfl⟩ | ⟨i, -, rfl⟩ <;> (try rw [h₁]) <;> exact ⟨⟨hw.torn, hw.idle⟩, rfl, List.length_set _ _ _⟩
  | rerender => cases he
  | setProps p => cases he

theorem Stopped.detached (hw : Stopped w) (h : Detached w w') :
    Stopped w' ∧ w'.timers = w.timers ∧ w'.fetches.length = w.fetches.length := by
  induction h with
  | refl => exact ⟨hw, rfl, rfl⟩
  | tail _ hs ih =>
    obtain ⟨e, he, hs⟩ := hs
    obtain ⟨h₁, h₂, h₃⟩ := ih.1.step he hs
    exact ⟨h₁, h₂.trans ih.2.1, h₃.trans ih.2.2⟩

/-- The cleanup of a reachable state stops the hook: the live run was the only one not torn
down, and every run's pending timers are gone. -/
theorem Reachable.stopped_unmount (hw : Reachable w) : Stopped (unmount w) := by
  have hok := hw.effectsOK.cleanup
  have hidle := hw.tornIdle.cleanup hw.effectsOK
  have htorn := hw.runsOK.1.cleanup.torn
  refine ⟨htorn, fun t ht hs => ?_⟩
  have hlt := hok.timer_owner t ht
  have hq := List.getElem?_eq_getElem hlt
  have := List.countP_eq_zero.mp (hidle t.owner _ hq (htorn _ _ hq)) t ht
  simp [Timer.pendingOf, hs] at this

/-- **Unmounting stops the polling for good.** From every state the mounted hook reaches,
its unmount leaves no timer pending, and in whatever order the timers and the requests still
out then fire, are answered or resolve, no timer fires or is set and no request is
sent. -/
theorem unmount_stops_polling {w : World} (hw : Reachable w) :
    (∀ t ∈ (unmount w).timers, t.state ≠ .pending) ∧
    ∀ w', Detached (unmount w) w' →
      w'.timers = (unmount w).timers ∧ w'.fetches.length = (unmount w).fetches.length :=
  ⟨hw.stopped_unmount.idle, fun _ h => (hw.stopped_unmount.detached h).2⟩

/-- The hook unmounted right after it mounted. -/
theorem unmount_stops_polling_mount :
    (∀ t ∈ (unmount (mount ⟨some "acme/web", some 7⟩)).timers, t.state ≠ .pending) ∧
    ∀ w', Detached (unmount (mount ⟨some "acme/web", some 7⟩)) w' →
      w'.timers = (unmount (mount ⟨some "acme/web", some 7⟩)).timers ∧
        w'.fetches.length = (unmount (mount ⟨some "acme/web", some 7⟩)).fetches.length :=
  unmount_stops_polling (.mount _)

end AIReviewPolling
