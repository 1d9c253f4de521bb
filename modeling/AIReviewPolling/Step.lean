/-
The polling effect of `usePRAIReviews` and what drives it, as one step function: a timer
fires and calls `pollingFn`, an answer lands in `useGet`'s `data`, a `refetch` promise
resolves (running its `.then`), the parent passes new props, and React renders,
which runs the memo and, when `[repoMetadata?.path, complete]` changed, the effect's cleanup
and a new run of it.

`useGet` is taken as the hook's callers see it: `refetch` requests the path of the render it
came from, an answer (a payload, or `none` for a transport error) replaces `data` when it
lands, its promise resolves whatever the answer was, and `useGet` requests its path by itself
on mount and whenever that path changes.
-/
import AIReviewPolling.World
import Mathlib.Logic.Relation

namespace AIReviewPolling

/-- `pollingFn` of effect run `i`: `refetch({ debounce: 1 })` when
`repoMetadata?.path && !complete && !tornDown`, and nothing otherwise. -/
def pollingFn (w : World) (i : Nat) : World :=
  match w.pollers[i]? with
  | some p =>
    if truthy p.path && !p.complete && !p.tornDown then
      { w with fetches := w.fetches ++ [⟨some i, p.refetch, .inFlight⟩] }
    else w
  | none => w

/-- The `.then` of run `i`'s `refetch`: unless torn down,
`interval = window.setTimeout(pollingFn, POLLING_INTERVAL)`. -/
def afterRefetch (w : World) (i : Nat) : World :=
  match w.pollers[i]? with
  | some p =>
    if !p.tornDown then
      { w with pollers := w.pollers.set i { p with interval := w.timers.length },
               timers := w.timers ++ [⟨i, .pending⟩] }
    else w
  | none => w

/-- The cleanup of the live run: `tornDown = true; window.clearTimeout(interval)`. -/
def cleanup (w : World) : World :=
  match w.pollers.getLast? with
  | some p =>
    World.clearTimeout { w with pollers := w.pollers.set (w.pollers.length - 1) { p with tornDown := true } }
      p.interval
  | none => w

/-- The effect's body: a new run, whose closure holds this render's `repoMetadata?.path`,
`complete` and `refetch`, starting with `let interval = window.setTimeout(pollingFn, POLLING_INTERVAL)`. -/
def runEffect (w : World) : World :=
  { w with pollers := w.pollers ++ [⟨w.props.path, w.complete, lastAIReviewPath w.props, false, w.timers.length⟩],
           timers := w.timers ++ [⟨w.pollers.length, .pending⟩] }

/-- `useGet`'s own request, made when the path it is given is not the one it last requested. -/
def load (w : World) : World :=
  if w.loaded = some (lastAIReviewPath w.props) then w
  else { w with fetches := w.fetches ++ [⟨none, lastAIReviewPath w.props, .inFlight⟩],
                loaded := some (lastAIReviewPath w.props) }

/-- The memo's calls of `setColor`, `setBackground` and `setComplete`, and the status it returns.
On the `data` it last saw it changes nothing, so running it at every render is running it when
`data` changed. -/
def applyMemo (w : World) : World :=
  let m := memo w.data
  { w with complete := m.complete, overallStatus := m.status,
           color := (m.colors.map Prod.fst).getD w.color,
           background := (m.colors.map Prod.snd).getD w.background }

/-- The `[repoMetadata?.path, complete]` the live run was started with. -/
def liveDeps (w : World) : Option (Option String × Bool) :=
  w.pollers.getLast?.map fun p => (p.path, p.complete)

/-- A render and its commit: the memo, `useGet`'s own load, and, when the effect's
dependencies changed, the cleanup of the live run and a new run. -/
def render (w : World) : World :=
  let w := load (applyMemo { w with renderDue := false })
  if liveDeps w = some (w.props.path, w.complete) then w else runEffect (cleanup w)

/-- The hook before its first render: `useState(true)` for `complete`, `Color.GREEN_500` and
`Color.GREEN_50`, no data. -/
def initial (p : Props) : World :=
  ⟨p, none, none, true, .GREEN_500, .GREEN_50, none, none, [], [], [], true⟩

/-- The hook mounted: its first render committed. -/
def mount (p : Props) : World := render (initial p)

/-- What can happen next. -/
inductive Event where
  /-- The timer with handle `h` expires. -/
  | fire (h : Nat)
  /-- Request `f`'s answer lands in `data`: a payload, or `none` for a transport error. -/
  | respond (f : Nat) (answer : Option TypesAIRequest)
  /-- Request `f`'s promise resolves and its `.then` runs. -/
  | settle (f : Nat)
  | rerender
  | setProps (p : Props)
  deriving DecidableEq, Repr

/-- One step, or `none` when the event cannot happen in `w`. -/
def step (w : World) : Event → Option World
  | .fire h =>
    match w.timers[h]? with
    | some t =>
      if t.state = .pending then
        some (pollingFn { w with timers := w.timers.set h { t with state := .fired } } t.owner)
      else none
    | none => none
  | .respond f a =>
    match w.fetches[f]? with
    | some x =>
      if x.state = .inFlight then
        some { w with fetches := w.fetches.set f { x with state := .answered },
                      data := a, dataFrom := some f, renderDue := true }
      else none
    | none => none
  | .settle f =>
    match w.fetches[f]? with
    | some x =>
      if x.state.unsettled then
        let w' := { w with fetches := w.fetches.set f { x with state := .resolved } }
        some (match x.owner with
          | some i => afterRefetch w' i
          | none => w')
      else none
    | none => none
  | .rerender => some (render w)
  | .setProps p => some { w with props := p, renderDue := true }

/-! ## What each step does -/

section Inversion

variable {w w' : World} {h f j : Nat}

/-- `pollingFn` sends run `j`'s `refetch` exactly when the path is set, the render saw no data
and the run is not torn down; otherwise it does nothing. -/
theorem pollingFn_spec :
    (∃ p, w.pollers[j]? = some p ∧ truthy p.path = true ∧ p.complete = false ∧ p.tornDown = false ∧
      pollingFn w j = { w with fetches := w.fetches ++ [⟨some j, p.refetch, .inFlight⟩] }) ∨
    (pollingFn w j = w ∧ ∀ p, w.pollers[j]? = some p → truthy p.path = true → p.complete = false →
      p.tornDown = true) := by
  unfold pollingFn
  split
  · next p hp =>
    by_cases hc : truthy p.path = true ∧ p.complete = false ∧ p.tornDown = false
    · exact .inl ⟨p, hp, hc.1, hc.2.1, hc.2.2, by simp [hc]⟩
    · refine .inr ⟨by simp_all, fun q hq h₁ h₂ => ?_⟩
      cases hp.symm.trans hq
      simpa [h₁, h₂] using hc
  · next hp => exact .inr ⟨rfl, fun q hq => by simp [hp] at hq⟩

/-- The `.then` of run `j`'s `refetch` sets a timer exactly when the run is not torn down. -/
theorem afterRefetch_spec :
    (∃ p, w.pollers[j]? = some p ∧ p.tornDown = false ∧
      afterRefetch w j = { w with pollers := w.pollers.set j { p with interval := w.timers.length },
                                  timers := w.timers ++ [⟨j, .pending⟩] }) ∨
    (afterRefetch w j = w ∧ ∀ p, w.pollers[j]? = some p → p.tornDown = true) := by
  unfold afterRefetch
  split
  · next p hp =>
    cases hd : p.tornDown
    · exact .inl ⟨p, hp, hd, by simp [hd]⟩
    · exact .inr ⟨by simp [hd], fun q hq => by cases hp.symm.trans hq; exact hd⟩
  · next hp => exact .inr ⟨rfl, fun q hq => by simp [hp] at hq⟩

/-- `useGet`'s own load sends an unowned request, or nothing. -/
theorem load_spec : load w = w ∨ load w = { w with
    fetches := w.fetches ++ [⟨none, lastAIReviewPath w.props, .inFlight⟩],
    loaded := some (lastAIReviewPath w.props) } := by
  unfold load
  split_ifs
  · exact .inl rfl
  · exact .inr rfl

/-- The cleanup tears down the live run and clears its `interval`. -/
theorem cleanup_spec : (w.pollers = [] ∧ cleanup w = w) ∨ ∃ p, w.pollers.getLast? = some p ∧
    cleanup w = World.clearTimeout
      { w with pollers := w.pollers.set (w.pollers.length - 1) { p with tornDown := true } } p.interval := by
  unfold cleanup
  split
  · next p hp => exact .inr ⟨p, hp, rfl⟩
  · next hp => exact .inl ⟨List.getLast?_eq_none_iff.mp hp, rfl⟩

/-- `useGet`'s own load touches its requests only. -/
theorem load_eq : load w = { w with fetches := (load w).fetches, loaded := (load w).loaded } := by
  rcases load_spec (w := w) with h | h <;> rw [h]

/-- `clearTimeout` touches the timers only. -/
theorem clearTimeout_eq : w.clearTimeout h = { w with timers := (w.clearTimeout h).timers } := by
  rcases World.clearTimeout_spec (w := w) (h := h) with ⟨_, -, -, he⟩ | ⟨he, -⟩ <;> rw [he]

theorem step_fire (hs : step w (.fire h) = some w') :
    ∃ t, w.timers[h]? = some t ∧ t.state = .pending ∧
      w' = pollingFn { w with timers := w.timers.set h { t with state := .fired } } t.owner := by
  simp only [step] at hs
  split at hs
  · next t ht =>
    split_ifs at hs with hp
    exact ⟨t, ht, hp, (Option.some.inj hs).symm⟩
  · cases hs

theorem step_respond {a : Option TypesAIRequest} (hs : step w (.respond f a) = some w') :
    ∃ x, w.fetches[f]? = some x ∧ x.state = .inFlight ∧
      w' = { w with fetches := w.fetches.set f { x with state := .answered }, data := a,
                    dataFrom := some f, renderDue := true } := by
  simp only [step] at hs
  split at hs
  · next x hx =>
    split_ifs at hs with hp
    exact ⟨x, hx, hp, (Option.some.inj hs).symm⟩
  · cases hs

/-- A settled request's `.then` runs only for a `refetch` of an effect run. -/
theorem step_settle (hs : step w (.settle f) = some w') :
    ∃ x, w.fetches[f]? = some x ∧ x.state.unsettled = true ∧
      let w₁ := { w with fetches := w.fetches.set f { x with state := .resolved } }
      (x.owner = none ∧ w' = w₁) ∨ ∃ i, x.owner = some i ∧ w' = afterRefetch w₁ i := by
  simp only [step] at hs
  split at hs
  · next x hx =>
    split_ifs at hs with hp
    refine ⟨x, hx, hp, ?_⟩
    cases ho : x.owner <;> simp only [ho, Option.some.injEq] at hs <;> simp [hs]
  · cases hs

/-- `pollingFn` touches the requests only. -/
theorem pollingFn_eq : pollingFn w j = { w with fetches := (pollingFn w j).fetches } := by
  rcases pollingFn_spec (w := w) (j := j) with ⟨_, -, -, -, -, he⟩ | ⟨he, -⟩ <;> rw [he]

/-- The `.then` of a `refetch` touches the runs and the timers only. -/
theorem afterRefetch_eq :
    afterRefetch w j = { w with pollers := (afterRefetch w j).pollers, timers := (afterRefetch w j).timers } := by
  rcases afterRefetch_spec (w := w) (j := j) with ⟨_, -, -, he⟩ | ⟨he, -⟩ <;> rw [he]

/-- The cleanup touches the runs and the timers only. -/
theorem cleanup_eq : cleanup w = { w with pollers := (cleanup w).pollers, timers := (cleanup w).timers } := by
  rcases cleanup_spec (w := w) with ⟨-, h⟩ | ⟨p, -, h⟩ <;> rw [h]
  rw [clearTimeout_eq]

theorem liveDeps_runEffect : liveDeps (runEffect w) = some (w.props.path, w.complete) := by
  simp [liveDeps, runEffect]

/-- Beyond the memo and `useGet`'s load, a render touches the runs and the timers only. -/
theorem render_eq : render w = { load (applyMemo { w with renderDue := false }) with
    pollers := (render w).pollers, timers := (render w).timers } := by
  dsimp only [render]
  split_ifs
  · rfl
  · rw [cleanup_eq]; rfl

end Inversion

/-- A run of events, or `none` when one of them cannot happen. -/
def run (w : World) : List Event → Option World
  | [] => some w
  | e :: es => (step w e).bind fun w' => run w' es

/-- Some step leads from `w` to `w'`. -/
def Steps : World → World → Prop := Relation.ReflTransGen fun w w' => ∃ e, step w e = some w'

/-- The states a mounted hook reaches. -/
inductive Reachable : World → Prop where
  | mount (p : Props) : Reachable (mount p)
  | step {w w' : World} (e : Event) : Reachable w → step w e = some w' → Reachable w'

theorem run_steps : ∀ {w w' : World} (es : List Event), run w es = some w' → Steps w w'
  | _, _, [], h => by cases h; exact .refl
  | w, _, e :: es, h => by
    simp only [run, Option.bind_eq_some] at h
    obtain ⟨w₁, h₁, h₂⟩ := h
    exact .head ⟨e, h₁⟩ (run_steps es h₂)

theorem Reachable.steps {w w' : World} (hw : Reachable w) (h : Steps w w') : Reachable w' := by
  induction h with
  | refl => exact hw
  | tail _ he ih => obtain ⟨e, he⟩ := he; exact .step e ih he

theorem reachable_run {p : Props} {w : World} (es : List Event) (h : run (mount p) es = some w) :
    Reachable w :=
  (Reachable.mount p).steps (run_steps es h)

end AIReviewPolling
