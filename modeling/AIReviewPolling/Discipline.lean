/-
Each run of the polling effect keeps to itself. At any time it has at most one pending timer
or unsettled `refetch` (`busy`), so it never sends a request while its last one is unsettled;
its `interval` holds the handle of the last timer it set, which is the only one of its timers
that can still be pending, so the cleanup's `clearTimeout(interval)` leaves it none; and once
torn down it sets no timer and sends no request again.
-/
import AIReviewPolling.Step

namespace AIReviewPolling

variable {w w' : World} {i j h k f : Nat} {t : Timer} {x : Fetch} {p q : Poller}

/-- The discipline of the effect runs, over all of them at once. -/
structure EffectsOK (w : World) : Prop where
  timer_owner : ∀ t ∈ w.timers, t.owner < w.pollers.length
  fetch_owner : ∀ x ∈ w.fetches, ∀ i, x.owner = some i → i < w.pollers.length
  busy_le : ∀ i, busy w i ≤ 1
  latest : ∀ i p, w.pollers[i]? = some p → LatestTimer w i p.interval
  pending_at : ∀ i (p : Poller) h (t : Timer), w.pollers[i]? = some p → w.timers[h]? = some t →
    t.pendingOf i = true →
    h = p.interval

theorem EffectsOK.congr (hw : EffectsOK w) (hp : w'.pollers = w.pollers) (ht : w'.timers = w.timers)
    (hf : w'.fetches = w.fetches) : EffectsOK w' := by
  obtain ⟨h₁, h₂, h₃, h₄, h₅⟩ := hw
  constructor <;> simp only [busy, LatestTimer, hp, ht, hf] at * <;> assumption

/-! ## Timers and requests changing state -/

theorem busy_setTimer (ht : w.timers[h]? = some t) {s : TimerState} (hs : s ≠ .pending) (i : Nat) :
    busy { w with timers := w.timers.set h { t with state := s } } i + (if t.pendingOf i then 1 else 0) =
      busy w i := by
  have := countP_set_add (Timer.pendingOf i) ht (b := { t with state := s })
  have hs' : (s == .pending) = false := by simpa using hs
  simp only [busy, Timer.pendingOf, hs', Bool.and_false, Bool.false_eq_true, if_false] at *
  omega

/-- Firing or clearing a pending timer takes one off its owner's count. -/
theorem busy_setTimer_owner (ht : w.timers[h]? = some t) (hp : t.state = .pending) {s : TimerState}
    (hs : s ≠ .pending) : busy { w with timers := w.timers.set h { t with state := s } } t.owner + 1 = busy w t.owner := by
  simpa [Timer.pendingOf, hp] using busy_setTimer ht hs t.owner

theorem EffectsOK.setTimer (hw : EffectsOK w) (ht : w.timers[h]? = some t) {s : TimerState}
    (hs : s ≠ .pending) : EffectsOK { w with timers := w.timers.set h { t with state := s } } where
  timer_owner u hu := by
    rcases List.mem_or_eq_of_mem_set hu with hu | rfl
    · exact hw.timer_owner u hu
    · exact hw.timer_owner t (List.getElem?_mem ht)
  fetch_owner := hw.fetch_owner
  busy_le i := by have := busy_setTimer ht hs i; have := hw.busy_le i; omega
  latest i p hp := by
    simpa only [LatestTimer, map_getElem?_set (b := { t with state := s }) Timer.owner ht rfl] using
      hw.latest i p hp
  pending_at i p k u hp hk hu := by
    rcases eq_or_ne h k with rfl | hne
    · rw [getElem?_set_of_getElem? ht, Option.some.injEq] at hk
      subst hk; simp [Timer.pendingOf, hs] at hu
    · rw [List.getElem?_set_ne hne] at hk
      exact hw.pending_at i p k u hp hk hu

theorem EffectsOK.clearTimeout (hw : EffectsOK w) (h : Nat) : EffectsOK (w.clearTimeout h) := by
  rcases World.clearTimeout_spec (w := w) (h := h) with ⟨t, ht, -, he⟩ | ⟨he, -⟩ <;> rw [he]
  · exact hw.setTimer ht (by decide)
  · exact hw

theorem busy_setFetch (hx : w.fetches[f]? = some x) (s : FetchState) (i : Nat) :
    busy { w with fetches := w.fetches.set f { x with state := s } } i + (if x.unsettledOf i then 1 else 0) =
      busy w i + (if Fetch.unsettledOf i { x with state := s } then 1 else 0) := by
  have := countP_set_add (Fetch.unsettledOf i) hx (b := { x with state := s })
  simp only [busy] at *
  omega

/-- A request that does not become unsettled adds to no count. -/
theorem busy_setFetch_le (hx : w.fetches[f]? = some x) {s : FetchState} (hs : s.unsettled → x.state.unsettled)
    (i : Nat) : busy { w with fetches := w.fetches.set f { x with state := s } } i ≤ busy w i := by
  have h₁ := busy_setFetch hx s i
  have h₂ : Fetch.unsettledOf i { x with state := s } = true → x.unsettledOf i = true := by
    simp only [Fetch.unsettledOf, Bool.and_eq_true]
    exact fun ⟨ho, hu⟩ => ⟨ho, hs hu⟩
  revert h₁ h₂
  cases Fetch.unsettledOf i { x with state := s } <;> cases x.unsettledOf i <;> simp <;> omega

/-- A request of another run, or one that stays as settled as it was, leaves a count as it was. -/
theorem busy_setFetch_eq (hx : w.fetches[f]? = some x) {s : FetchState}
    (hs : x.owner = some i → s.unsettled = x.state.unsettled) :
    busy { w with fetches := w.fetches.set f { x with state := s } } i = busy w i := by
  have := busy_setFetch hx s i
  by_cases ho : x.owner = some i <;> simp_all [Fetch.unsettledOf]

/-- Settling an unsettled request takes one off its owner's count. -/
theorem busy_setFetch_owner (hx : w.fetches[f]? = some x) (hu : x.state.unsettled = true) (ho : x.owner = some i)
    {s : FetchState} (hs : s.unsettled = false) :
    busy { w with fetches := w.fetches.set f { x with state := s } } i + 1 = busy w i := by
  simpa [Fetch.unsettledOf, ho, hu, hs] using busy_setFetch hx s i

theorem EffectsOK.setFetch (hw : EffectsOK w) (hx : w.fetches[f]? = some x) {s : FetchState}
    (hs : s.unsettled → x.state.unsettled) :
    EffectsOK { w with fetches := w.fetches.set f { x with state := s } } where
  timer_owner := hw.timer_owner
  fetch_owner u hu := by
    rcases List.mem_or_eq_of_mem_set hu with hu | rfl
    · exact hw.fetch_owner u hu
    · exact hw.fetch_owner x (List.getElem?_mem hx)
  busy_le i := (busy_setFetch_le hx hs i).trans (hw.busy_le i)
  latest := hw.latest
  pending_at := hw.pending_at

/-! ## Requests sent -/

theorem busy_issue (o : Option Nat) (path : String) (i : Nat) :
    busy { w with fetches := w.fetches ++ [⟨o, path, .inFlight⟩] } i =
      busy w i + (if o = some i then 1 else 0) := by
  simp only [busy, List.countP_append, List.countP_singleton, Fetch.unsettledOf, FetchState.unsettled,
    Bool.and_true, beq_iff_eq]
  omega

/-- A request sent for run `i` (or for none), when `i` had nothing pending. -/
theorem EffectsOK.issue (hw : EffectsOK w) {o : Option Nat} (ho : ∀ i, o = some i → busy w i = 0 ∧
    i < w.pollers.length) (path : String) :
    EffectsOK { w with fetches := w.fetches ++ [⟨o, path, .inFlight⟩] } where
  timer_owner := hw.timer_owner
  fetch_owner u hu i hi := by
    rcases List.mem_append.mp hu with hu | hu
    · exact hw.fetch_owner u hu i hi
    · rw [List.mem_singleton.mp hu] at hi; exact (ho i hi).2
  busy_le i := by
    rw [busy_issue]
    split_ifs with hi
    · rw [(ho i hi).1]
    · exact hw.busy_le i
  latest := hw.latest
  pending_at := hw.pending_at

theorem EffectsOK.pollingFn (hw : EffectsOK w) (hb : busy w i = 0) : EffectsOK (pollingFn w i) := by
  rcases pollingFn_spec (w := w) (j := i) with ⟨p, hp, -, -, -, he⟩ | ⟨he, -⟩ <;> rw [he]
  · exact hw.issue (fun j hj => by cases hj; exact ⟨hb, (List.getElem?_eq_some_iff.mp hp).1⟩) _
  · exact hw

theorem EffectsOK.load (hw : EffectsOK w) : EffectsOK (load w) := by
  rcases load_spec (w := w) with he | he <;> rw [he]
  · exact hw
  · exact (hw.issue (o := none) (by simp) _).congr rfl rfl rfl

/-! ## Runs changing their variables -/

/-- A run's closure changed without touching `interval`. -/
theorem EffectsOK.setPoller (hw : EffectsOK w) (hp : w.pollers[k]? = some p) (hq : q.interval = p.interval) :
    EffectsOK { w with pollers := w.pollers.set k q } where
  timer_owner := by simpa using hw.timer_owner
  fetch_owner := by simpa using hw.fetch_owner
  busy_le := hw.busy_le
  latest i r hr := by
    rcases eq_or_ne k i with rfl | hne
    · rw [getElem?_set_of_getElem? hp, Option.some.injEq] at hr
      subst hr; rw [hq]; exact hw.latest k p hp
    · rw [List.getElem?_set_ne hne] at hr; exact hw.latest i r hr
  pending_at i r h u hr hh hu := by
    rcases eq_or_ne k i with rfl | hne
    · rw [getElem?_set_of_getElem? hp, Option.some.injEq] at hr
      subst hr; rw [hq]; exact hw.pending_at k p h u hp hh hu
    · rw [List.getElem?_set_ne hne] at hr; exact hw.pending_at i r h u hr hh hu

/-! ## Timers set -/

theorem busy_arm {ps : List Poller} (i j : Nat) :
    busy { w with pollers := ps, timers := w.timers ++ [⟨i, .pending⟩] } j =
      busy w j + (if i = j then 1 else 0) := by
  simp only [busy, List.countP_append, List.countP_singleton, Timer.pendingOf, beq_iff_eq,
    beq_self_eq_true, Bool.and_true, decide_eq_true_eq]
  omega

/-- Run `i` sets a timer and keeps its handle in `interval`, every other run unchanged; `i`
had nothing pending. -/
theorem EffectsOK.arm (hw : EffectsOK w) {ps : List Poller}
    (hi : (ps[i]?).map Poller.interval = some w.timers.length)
    (hother : ∀ j, j ≠ i → ps[j]? = w.pollers[j]?) (hlen : w.pollers.length ≤ ps.length)
    (hb : busy w i = 0) :
    EffectsOK { w with pollers := ps, timers := w.timers ++ [⟨i, .pending⟩] } where
  timer_owner u hu := by
    rcases List.mem_append.mp hu with hu | hu
    · exact (hw.timer_owner u hu).trans_le hlen
    · rw [List.mem_singleton.mp hu]
      exact List.getElem?_eq_some_iff.mp (Option.map_eq_some'.mp hi).choose_spec.1 |>.1
  fetch_owner u hu j hj := (hw.fetch_owner u hu j hj).trans_le hlen
  busy_le j := by
    rw [busy_arm]
    split_ifs with hij
    · subst hij; omega
    · exact hw.busy_le j
  latest j r hr := by
    dsimp only at hr
    simp only [LatestTimer, getElem?_concat]
    rcases eq_or_ne j i with rfl | hne
    · have : r.interval = w.timers.length := by simpa [hr] using hi
      refine ⟨by simp [this], fun h' hh' => ?_⟩
      rw [if_neg (by omega), if_neg (by omega)]
      simp
    · obtain ⟨h₁, h₂⟩ := hw.latest j r (by rwa [← hother j hne])
      refine ⟨by rw [if_pos (lt_of_map_getElem? h₁), h₁], fun h' hh' => ?_⟩
      split_ifs
      · exact h₂ h' hh'
      · simpa using hne.symm
      · simp
  pending_at j r h u hr hh hu := by
    dsimp only at hr hh
    rcases getElem?_concat_eq_some.mp hh with hold | ⟨rfl, rfl⟩
    · rcases eq_or_ne j i with rfl | hne
      · have : w.timers.countP (Timer.pendingOf j) = 0 := by simp only [busy] at hb; omega
        exact absurd hu (List.countP_eq_zero.mp this u (List.getElem?_mem hold))
      · exact hw.pending_at j r h u (by rwa [← hother j hne]) hold hu
    · obtain rfl : i = j := by simpa [Timer.pendingOf] using hu
      simpa [hr] using hi.symm

theorem EffectsOK.afterRefetch (hw : EffectsOK w) (hb : busy w i = 0) : EffectsOK (afterRefetch w i) := by
  rcases afterRefetch_spec (w := w) (j := i) with ⟨p, hp, -, he⟩ | ⟨he, -⟩ <;> rw [he]
  · exact hw.arm (by rw [getElem?_set_of_getElem? hp]; rfl) (fun j hj => List.getElem?_set_ne hj.symm)
      (by simp) hb
  · exact hw

/-- A run that does not exist yet owns nothing. -/
theorem EffectsOK.busy_new (hw : EffectsOK w) : busy w w.pollers.length = 0 := by
  simp only [busy, Nat.add_eq_zero, List.countP_eq_zero, Timer.pendingOf, Fetch.unsettledOf,
    Bool.and_eq_true, beq_iff_eq, not_and]
  exact ⟨fun t ht h => absurd (hw.timer_owner t ht) (by omega),
    fun x hx h => absurd (hw.fetch_owner x hx _ h) (by omega)⟩

theorem EffectsOK.runEffect (hw : EffectsOK w) : EffectsOK (runEffect w) := by
  refine hw.arm (by simp) (fun j hj => ?_) (by simp) hw.busy_new
  rw [getElem?_concat, if_neg hj]
  split_ifs with h
  · rfl
  · exact (List.getElem?_eq_none (by omega)).symm

theorem EffectsOK.cleanup (hw : EffectsOK w) : EffectsOK (cleanup w) := by
  rcases cleanup_spec (w := w) with ⟨-, he⟩ | ⟨p, hp, he⟩ <;> rw [he]
  · exact hw
  · rw [List.getLast?_eq_getElem?] at hp
    exact (hw.setPoller (q := { p with tornDown := true }) hp rfl).clearTimeout _

theorem EffectsOK.render (hw : EffectsOK w) : EffectsOK (render w) := by
  have h₀ : EffectsOK (applyMemo { w with renderDue := false }) := hw.congr rfl rfl rfl
  have h₁ := h₀.load
  dsimp only [AIReviewPolling.render]
  split_ifs
  · exact h₁
  · exact h₁.cleanup.runEffect

/-! ## Every step -/

theorem EffectsOK.step {e : Event} (hw : EffectsOK w) (hs : step w e = some w') : EffectsOK w' := by
  cases e with
  | fire h =>
    obtain ⟨t, ht, hp, rfl⟩ := step_fire hs
    have := busy_setTimer_owner ht hp (s := .fired) (by decide)
    exact (hw.setTimer ht (by decide)).pollingFn (by have := hw.busy_le t.owner; omega)
  | respond f a =>
    obtain ⟨x, hx, hp, rfl⟩ := step_respond hs
    exact (hw.setFetch hx (s := .answered) fun _ => by simp [hp, FetchState.unsettled]).congr rfl rfl rfl
  | settle f =>
    obtain ⟨x, hx, hu, h⟩ := step_settle hs
    have h₁ := hw.setFetch hx (s := .resolved) (by simp [FetchState.unsettled])
    rcases h with ⟨-, rfl⟩ | ⟨i, hi, rfl⟩
    · exact h₁
    · have := busy_setFetch_owner hx hu hi (s := .resolved) rfl
      exact h₁.afterRefetch (by have := hw.busy_le i; omega)
  | rerender =>
    cases hs
    exact hw.render
  | setProps p =>
    cases hs
    exact hw.congr rfl rfl rfl

theorem EffectsOK.mount (p : Props) : EffectsOK (mount p) :=
  EffectsOK.render ⟨by simp [initial], by simp [initial], by simp [busy, initial], by simp [initial],
    by simp [initial]⟩

theorem Reachable.effectsOK {w : World} (hw : Reachable w) : EffectsOK w := by
  induction hw with
  | mount p => exact .mount p
  | step e _ hs ih => exact ih.step hs

/-! ## A torn-down run stays quiet -/

/-- Run `i` is torn down, and no timer from handle `nt` on and no request from `nf` on is its. -/
structure Quiet (w : World) (i nt nf : Nat) : Prop where
  torn : ∃ p, w.pollers[i]? = some p ∧ p.tornDown = true
  timers : ∀ h, nt ≤ h → (w.timers[h]?).map Timer.owner ≠ some i
  fetches : ∀ f, nf ≤ f → (w.fetches[f]?).map Fetch.owner ≠ some (some i)

section Quiet

variable {nt nf : Nat}

theorem Quiet.ne (hq : Quiet w i nt nf) (hj : w.pollers[j]? = some p) (hp : p.tornDown = false) : j ≠ i := by
  rintro rfl
  obtain ⟨p', hp', ht⟩ := hq.torn
  rw [hj, Option.some.injEq] at hp'
  subst hp'
  simp_all

theorem Quiet.congr (hq : Quiet w i nt nf) (hp : w'.pollers = w.pollers) (ht : w'.timers = w.timers)
    (hf : w'.fetches = w.fetches) : Quiet w' i nt nf := by
  obtain ⟨h₁, h₂, h₃⟩ := hq
  exact ⟨hp ▸ h₁, ht ▸ h₂, hf ▸ h₃⟩

theorem Quiet.setTimer (hq : Quiet w i nt nf) (ht : w.timers[h]? = some t) (s : TimerState) :
    Quiet { w with timers := w.timers.set h { t with state := s } } i nt nf :=
  ⟨hq.torn, fun k hk => by
    rw [map_getElem?_set (b := { t with state := s }) Timer.owner ht rfl]; exact hq.timers k hk, hq.fetches⟩

theorem Quiet.setFetch (hq : Quiet w i nt nf) (hx : w.fetches[f]? = some x) (s : FetchState) :
    Quiet { w with fetches := w.fetches.set f { x with state := s } } i nt nf :=
  ⟨hq.torn, hq.timers, fun k hk => by
    rw [map_getElem?_set (b := { x with state := s }) Fetch.owner hx rfl]; exact hq.fetches k hk⟩

theorem Quiet.clearTimeout (hq : Quiet w i nt nf) (h : Nat) : Quiet (w.clearTimeout h) i nt nf := by
  rcases World.clearTimeout_spec (w := w) (h := h) with ⟨t, ht, -, he⟩ | ⟨he, -⟩ <;> rw [he]
  · exact hq.setTimer ht _
  · exact hq

theorem Quiet.issue (hq : Quiet w i nt nf) {o : Option Nat} (ho : o ≠ some i) (path : String) :
    Quiet { w with fetches := w.fetches ++ [⟨o, path, .inFlight⟩] } i nt nf := by
  refine ⟨hq.torn, hq.timers, fun k hk => ?_⟩
  simp only [getElem?_concat]
  split_ifs
  · exact hq.fetches k hk
  · simpa using ho
  · simp

theorem Quiet.pollingFn (hq : Quiet w i nt nf) (j : Nat) : Quiet (pollingFn w j) i nt nf := by
  rcases pollingFn_spec (w := w) (j := j) with ⟨p, hp, -, -, hd, he⟩ | ⟨he, -⟩ <;> rw [he]
  · exact hq.issue (by simpa using hq.ne hp hd) _
  · exact hq

theorem Quiet.load (hq : Quiet w i nt nf) : Quiet (load w) i nt nf := by
  rcases load_spec (w := w) with he | he <;> rw [he]
  · exact hq
  · exact (hq.issue (o := none) (by simp) _).congr rfl rfl rfl

/-- A run that sets a timer is not torn down, so it is not `i`. -/
theorem Quiet.arm (hq : Quiet w i nt nf) {ps : List Poller} (hji : j ≠ i) (hi : ps[i]? = w.pollers[i]?) :
    Quiet { w with pollers := ps, timers := w.timers ++ [⟨j, .pending⟩] } i nt nf := by
  refine ⟨by simpa [hi] using hq.torn, fun k hk => ?_, hq.fetches⟩
  simp only [getElem?_concat]
  split_ifs
  · exact hq.timers k hk
  · simpa using hji
  · simp

theorem Quiet.afterRefetch (hq : Quiet w i nt nf) (j : Nat) : Quiet (afterRefetch w j) i nt nf := by
  rcases afterRefetch_spec (w := w) (j := j) with ⟨p, hp, hd, he⟩ | ⟨he, -⟩ <;> rw [he]
  · exact hq.arm (hq.ne hp hd) (List.getElem?_set_ne (hq.ne hp hd))
  · exact hq

theorem Quiet.runEffect (hq : Quiet w i nt nf) : Quiet (runEffect w) i nt nf := by
  obtain ⟨p, hp, -⟩ := hq.torn
  have hi := (List.getElem?_eq_some_iff.mp hp).1
  exact hq.arm (by omega) (List.getElem?_append_left hi)

theorem Quiet.tearDown (hq : Quiet w i nt nf) (hp : w.pollers[k]? = some p) :
    Quiet { w with pollers := w.pollers.set k { p with tornDown := true } } i nt nf := by
  refine ⟨?_, hq.timers, hq.fetches⟩
  rcases eq_or_ne k i with rfl | hne
  · exact ⟨_, getElem?_set_of_getElem? hp, rfl⟩
  · simpa [List.getElem?_set_ne hne] using hq.torn

theorem Quiet.cleanup (hq : Quiet w i nt nf) : Quiet (cleanup w) i nt nf := by
  rcases cleanup_spec (w := w) with ⟨-, he⟩ | ⟨p, hp, he⟩ <;> rw [he]
  · exact hq
  · rw [List.getLast?_eq_getElem?] at hp
    exact (hq.tearDown hp).clearTimeout _

theorem Quiet.render (hq : Quiet w i nt nf) : Quiet (render w) i nt nf := by
  have h₀ : Quiet (applyMemo { w with renderDue := false }) i nt nf := hq.congr rfl rfl rfl
  have h₁ := h₀.load
  dsimp only [AIReviewPolling.render]
  split_ifs
  · exact h₁
  · exact h₁.cleanup.runEffect

theorem Quiet.step {e : Event} (hq : Quiet w i nt nf) (hs : step w e = some w') : Quiet w' i nt nf := by
  cases e with
  | fire h =>
    obtain ⟨t, ht, -, rfl⟩ := step_fire hs
    exact (hq.setTimer ht _).pollingFn _
  | respond f a =>
    obtain ⟨x, hx, -, rfl⟩ := step_respond hs
    exact (hq.setFetch hx _).congr rfl rfl rfl
  | settle f =>
    obtain ⟨x, hx, -, h⟩ := step_settle hs
    rcases h with ⟨-, rfl⟩ | ⟨j, -, rfl⟩
    · exact hq.setFetch hx _
    · exact (hq.setFetch hx _).afterRefetch j
  | rerender => cases hs; exact hq.render
  | setProps p => cases hs; exact hq.congr rfl rfl rfl

theorem Quiet.steps (hq : Quiet w i nt nf) (h : Steps w w') : Quiet w' i nt nf := by
  induction h with
  | refl => exact hq
  | tail _ he ih => obtain ⟨e, he⟩ := he; exact ih.step he

end Quiet

/-! ## The cleanup -/

theorem clearTimeout_getElem? {u : Timer} (hk : (w.clearTimeout h).timers[k]? = some u) :
    u.state ≠ .pending ∨ (k ≠ h ∧ w.timers[k]? = some u) := by
  rcases World.clearTimeout_spec (w := w) (h := h) with ⟨t, ht, -, he⟩ | ⟨he, hn⟩ <;> rw [he] at hk
  · rcases eq_or_ne h k with rfl | hne
    · rw [getElem?_set_of_getElem? ht] at hk; cases hk; simp
    · rw [List.getElem?_set_ne hne] at hk; exact .inr ⟨hne.symm, hk⟩
  · rcases eq_or_ne k h with rfl | hne
    · exact .inl (hn u hk)
    · exact .inr ⟨hne, hk⟩

/-- Clearing a run's `interval` leaves it no pending timer. -/
theorem EffectsOK.clear_interval (hw : EffectsOK w) (hp : w.pollers[i]? = some p) :
    (w.clearTimeout p.interval).timers.countP (Timer.pendingOf i) = 0 := by
  rw [List.countP_eq_zero]
  intro u hu hpu
  obtain ⟨k, hk⟩ := List.mem_iff_getElem?.mp hu
  rcases clearTimeout_getElem? hk with hs | ⟨hne, hk⟩
  · simp [Timer.pendingOf, hs] at hpu
  · exact hne (hw.pending_at i p k u hp hk hpu)

/-- The cleanup only reads the timers through `clearTimeout(interval)`. -/
theorem clearTimeout_timers (ps : List Poller) :
    ({ w with pollers := ps }.clearTimeout h).timers = (w.clearTimeout h).timers := by
  simp only [World.clearTimeout]
  cases w.timers[h]? with
  | none => rfl
  | some t => dsimp only; split_ifs <;> rfl

/-- The cleanup of the live run `i` tears it down and clears its `interval`. -/
theorem cleanup_live (hp : w.pollers[i]? = some p) (hi : i + 1 = w.pollers.length) :
    (cleanup w).pollers[i]? = some { p with tornDown := true } ∧
      (cleanup w).timers = (w.clearTimeout p.interval).timers := by
  have hk : w.pollers.length - 1 = i := by omega
  rcases cleanup_spec (w := w) with ⟨h₀, -⟩ | ⟨q, hq, he⟩
  · simp [h₀] at hp
  · rw [List.getLast?_eq_getElem?, hk, hp, Option.some.injEq] at hq
    subst hq
    rw [he, clearTimeout_eq, clearTimeout_timers, hk]
    exact ⟨getElem?_set_of_getElem? hp, rfl⟩

/-- Run `i` set no timer and sent no request after `w`: none of the timers and requests `w'`
has beyond those of `w` is its. -/
def Silent (w w' : World) (i : Nat) : Prop :=
  (∀ h, w.timers.length ≤ h → (w'.timers[h]?).map Timer.owner ≠ some i) ∧
  ∀ f, w.fetches.length ≤ f → (w'.fetches[f]?).map Fetch.owner ≠ some (some i)

/-- A torn-down run stays silent over any steps. -/
theorem Silent.of_torn (hp : w.pollers[i]? = some p) (ht : p.tornDown = true) (h : Steps w w') :
    Silent w w' i :=
  have hq : Quiet w i w.timers.length w.fetches.length :=
    ⟨⟨p, hp, ht⟩, fun k hk => by simp [List.getElem?_eq_none hk],
      fun k hk => by simp [List.getElem?_eq_none hk]⟩
  ⟨(hq.steps h).timers, (hq.steps h).fetches⟩

/-- **Each run of the polling effect keeps to itself.** In every state the mounted hook
reaches, whatever the order of timers firing, answers landing, promises resolving, renders and
prop changes, each effect run `i`: has at most one pending timer or unsettled `refetch`, so it
never sends a request while its last one is unsettled; holds in `interval` the handle of the
last timer it set, and clearing that handle leaves it no pending timer; when it is the live
run, its cleanup tears it down and leaves it no pending timer, and from there on it sets no
timer and sends no request; and once torn down, it sets no timer and sends no request in any
later state. -/
theorem effect_run_discipline {w : World} (hw : Reachable w) {i : Nat} {p : Poller}
    (hp : w.pollers[i]? = some p) :
    busy w i ≤ 1 ∧
    (LatestTimer w i p.interval ∧ (w.clearTimeout p.interval).timers.countP (Timer.pendingOf i) = 0) ∧
    (i + 1 = w.pollers.length →
      (cleanup w).pollers[i]? = some { p with tornDown := true } ∧
      (cleanup w).timers.countP (Timer.pendingOf i) = 0 ∧
      ∀ w', Steps (cleanup w) w' → Silent (cleanup w) w' i) ∧
    (p.tornDown = true → ∀ w', Steps w w' → Silent w w' i) := by
  have hok := hw.effectsOK
  refine ⟨hok.busy_le i, ⟨hok.latest i p hp, hok.clear_interval hp⟩, fun hi => ?_,
    fun ht _ => Silent.of_torn hp ht⟩
  obtain ⟨hc, htm⟩ := cleanup_live hp hi
  exact ⟨hc, htm ▸ hok.clear_interval hp, fun _ => Silent.of_torn hc rfl⟩

/-- An answer rendered: run 0, started with no data, has had its cleanup; run 1 is live. -/
theorem effect_run_discipline_answered :
    ∃ w, run (mount ⟨some "acme/web", some 7⟩)
        [.respond 0 (some ⟨some "success", some "approved"⟩), .rerender] = some w ∧
      w.pollers[0]? = some ⟨some "acme/web", false, "/api/v1/repos/acme/web/+/pullreq/7/last-aireview", true, 0⟩ ∧
      (busy w 0 ≤ 1 ∧
        (LatestTimer w 0 0 ∧ (w.clearTimeout 0).timers.countP (Timer.pendingOf 0) = 0) ∧
        (0 + 1 = w.pollers.length →
          (cleanup w).pollers[0]? = some ⟨some "acme/web", false,
            "/api/v1/repos/acme/web/+/pullreq/7/last-aireview", true, 0⟩ ∧
          (cleanup w).timers.countP (Timer.pendingOf 0) = 0 ∧
          ∀ w', Steps (cleanup w) w' → Silent (cleanup w) w' 0) ∧
        (true = true → ∀ w', Steps w w' → Silent w w' 0)) ∧
      w.pollers[1]? = some ⟨some "acme/web", true, "/api/v1/repos/acme/web/+/pullreq/7/last-aireview", false, 1⟩ ∧
      (busy w 1 ≤ 1 ∧
        (LatestTimer w 1 1 ∧ (w.clearTimeout 1).timers.countP (Timer.pendingOf 1) = 0) ∧
        (1 + 1 = w.pollers.length →
          (cleanup w).pollers[1]? = some ⟨some "acme/web", true,
            "/api/v1/repos/acme/web/+/pullreq/7/last-aireview", true, 1⟩ ∧
          (cleanup w).timers.countP (Timer.pendingOf 1) = 0 ∧
          ∀ w', Steps (cleanup w) w' → Silent (cleanup w) w' 1) ∧
        (false = true → ∀ w', Steps w w' → Silent w w' 1)) :=
  ⟨_, rfl, by decide,
    effect_run_discipline (reachable_run (p := ⟨some "acme/web", some 7⟩)
      [.respond 0 (some ⟨some "success", some "approved"⟩), .rerender] rfl) (i := 0)
      (p := ⟨some "acme/web", false, "/api/v1/repos/acme/web/+/pullreq/7/last-aireview", true, 0⟩) (by decide),
    by decide,
    effect_run_discipline (reachable_run (p := ⟨some "acme/web", some 7⟩)
      [.respond 0 (some ⟨some "success", some "approved"⟩), .rerender] rfl) (i := 1)
      (p := ⟨some "acme/web", true, "/api/v1/repos/acme/web/+/pullreq/7/last-aireview", false, 1⟩) (by decide)⟩

end AIReviewPolling
