/-
`AISettings`, the repository setting that turns AI review on: the settings `useGet` loads, the
Formik form built from them once they arrive, the toggle, the Save button, and the `PATCH` that
`handleSubmit` sends.

Formik sets `isSubmitting` when a submit starts and clears it by itself only when `onSubmit`
returns a promise. This `onSubmit` calls `handleSubmit` inside braces and returns nothing, so only
the `resetForm` of a successful save clears it. `one_save_in_flight`: at most one `PATCH` is in
flight at any time. `failed_save_blocks_saving`: once a save fails, no later event sends another,
since the button that could stays disabled.
-/
import Mathlib.Logic.Relation
import AIReviewPolling.World

namespace AIReviewPolling.Settings

/-- The fields of the settings answer the page reads. -/
structure AISettingsAnswer where
  ai_review_enabled : Option Bool
  space_ai_provider : Option Nat
  deriving DecidableEq, Repr

/-- `!!x` of an optional boolean. -/
def toBoolean : Option Bool → Bool
  | some b => b
  | none => false

/-- Formik's state of the form `{ aiReviewEnable }`: its values, the values it was last
initialised or reset to, and `isSubmitting`. -/
structure FormikState where
  values : Bool
  initialValues : Bool
  isSubmitting : Bool
  deriving DecidableEq, Repr

/-- The `PATCH` `handleSubmit` sends: its `ai_review_enabled`, and whether it has settled. -/
structure Patch where
  ai_review_enabled : Bool
  settled : Bool
  deriving DecidableEq, Repr

/-- The page: whether `permissionProps` leaves its controls enabled, the loaded settings, the form
(mounted once `aiSettings` is set), and every `PATCH` sent. -/
structure Page where
  permitted : Bool
  aiSettings : Option AISettingsAnswer
  formik : Option FormikState
  patches : List Patch
  deriving DecidableEq, Repr

/-- `initialValues={{ aiReviewEnable: !!aiSettings?.ai_review_enabled }}` -/
def initialForm (a : AISettingsAnswer) : FormikState :=
  ⟨toBoolean a.ai_review_enabled, toBoolean a.ai_review_enabled, false⟩

/-- `resetForm({ values: ... })`: values and initial values both become `b`, and the submit ends. -/
def resetForm (b : Bool) : FormikState := ⟨b, b, false⟩

/-- Whether Save can be clicked. The button rendered when `aiSettings?.space_ai_provider == 0` is
always disabled, the other one while `formik.isSubmitting`; `permissionProps` disables both when
the user may not edit the repository. -/
def saveEnabled (p : Page) : Bool :=
  match p.aiSettings, p.formik with
  | some a, some f => p.permitted && a.space_ai_provider != some 0 && !f.isSubmitting
  | _, _ => false

/-- Whether Formik's `isSubmitting` is set. -/
def Page.submitting (p : Page) : Bool :=
  match p.formik with
  | some f => f.isSubmitting
  | none => false

/-- The number of `PATCH`es in flight. -/
def Page.pending (p : Page) : Nat := p.patches.countP (!·.settled)

/-- The page as it mounts: nothing loaded, no form, nothing sent. -/
def mount (permitted : Bool) : Page := ⟨permitted, none, none, []⟩

inductive Event where
  /-- `useGet` answers with the settings. -/
  | load (a : AISettingsAnswer)
  /-- The user flips the toggle. -/
  | toggle
  /-- The user clicks Save: `submitForm`, then `handleSubmit` sends the `PATCH`. -/
  | save
  /-- `PATCH` `i` succeeds; `response.ai_review_enabled` is `r`. -/
  | answer (i : Nat) (r : Option Bool)
  /-- `PATCH` `i` fails: `handleSubmit` shows the error and nothing else. -/
  | fail (i : Nat)
  deriving DecidableEq, Repr

/-- `PATCH` `i` settles, if it is in flight. -/
def settle (p : Page) (i : Nat) : Option Page :=
  match p.patches[i]? with
  | some x => if x.settled then none else some { p with patches := p.patches.set i { x with settled := true } }
  | none => none

/-- One step, or `none` when the event cannot happen in `p`. -/
def step (p : Page) : Event → Option Page
  | .load a => some { p with aiSettings := some a, formik := p.formik <|> some (initialForm a) }
  | .toggle =>
    match p.formik with
    | some f => if p.permitted then some { p with formik := some { f with values := !f.values } } else none
    | none => none
  | .save =>
    match p.formik with
    | some f =>
      if saveEnabled p then
        some { p with formik := some { f with isSubmitting := true }, patches := p.patches ++ [⟨f.values, false⟩] }
      else none
    | none => none
  | .answer i r => (settle p i).map fun p' => { p' with formik := p'.formik.map fun _ => resetForm (toBoolean r) }
  | .fail i => settle p i

/-- A sequence of events. -/
def run (p : Page) : List Event → Option Page
  | [] => some p
  | e :: es => (step p e).bind fun p' => run p' es

/-- Some events lead from `p` to `p'`. -/
def Steps : Page → Page → Prop := Relation.ReflTransGen fun p p' => ∃ e, step p e = some p'

/-- The states of the mounted page. -/
inductive Reachable : Page → Prop where
  | mount (permitted : Bool) : Reachable (mount permitted)
  | step {p p' : Page} (e : Event) : Reachable p → step p e = some p' → Reachable p'

theorem reachable_run : ∀ {p p' : Page} (es : List Event), Reachable p → run p es = some p' → Reachable p'
  | _, _, [], hp, h => by cases h; exact hp
  | p, _, e :: es, hp, h => by
    simp only [run, Option.bind_eq_some] at h
    obtain ⟨p₁, h₁, h₂⟩ := h
    exact reachable_run es (.step e hp h₁) h₂

/-! ## What each step does -/

variable {p p' : Page} {i : Nat}

/-- Settling takes one `PATCH` off the flight and touches nothing else. -/
theorem settle_spec (h : settle p i = some p') :
    p.pending = p'.pending + 1 ∧ p'.formik = p.formik ∧ p'.aiSettings = p.aiSettings ∧
      p'.patches.length = p.patches.length := by
  unfold settle at h
  split at h
  · next x hx =>
    split at h
    · cases h
    · next hs =>
      cases h
      have := countP_set_add (!·.settled) hx (b := { x with settled := true })
      simp only [hs, Bool.not_false, if_true, Bool.not_true, Bool.false_eq_true, if_false] at this
      exact ⟨by simp only [Page.pending]; omega, rfl, rfl, List.length_set ..⟩
  · cases h

theorem saveEnabled_spec (h : saveEnabled p = true) :
    p.submitting = false ∧ ∃ a, p.aiSettings = some a ∧ a.space_ai_provider ≠ some 0 := by
  unfold saveEnabled at h
  split at h
  · next a f ha hf =>
    simp only [Bool.and_eq_true, bne_iff_ne, ne_eq, Bool.not_eq_true'] at h
    exact ⟨by simp [Page.submitting, hf, h.2], a, ha, h.1.2⟩
  · cases h

/-- What a step changes of the `PATCH`es and of `isSubmitting`, event by event; and a mounted
form stays mounted. -/
theorem step_cases {e : Event} (h : step p e = some p') :
    (p.formik.isSome → p'.formik.isSome) ∧
    ((p'.patches = p.patches ∧ (p.formik.isSome → p'.submitting = p.submitting)) ∨
      (saveEnabled p = true ∧ p'.submitting = true ∧ p'.pending = p.pending + 1 ∧
        p'.patches.length = p.patches.length + 1) ∨
      (p.pending = p'.pending + 1 ∧ p'.patches.length = p.patches.length ∧
        (p'.submitting = false ∨ p'.submitting = p.submitting))) := by
  cases e with
  | load a =>
    cases h
    refine ⟨fun hf => ?_, .inl ⟨rfl, fun hf => ?_⟩⟩ <;>
      obtain ⟨f, hf⟩ := Option.isSome_iff_exists.mp hf <;> simp [Page.submitting, hf]
  | toggle =>
    simp only [step] at h
    split at h
    · next f hf =>
      split at h
      · cases h; exact ⟨fun _ => rfl, .inl ⟨rfl, fun _ => by simp [Page.submitting, hf]⟩⟩
      · cases h
    · cases h
  | save =>
    simp only [step] at h
    split at h
    · next f hf =>
      split at h
      · next he =>
        cases h
        exact ⟨fun _ => rfl, .inr (.inl ⟨he, rfl, by simp [Page.pending, List.countP_append], by simp⟩)⟩
      · cases h
    · cases h
  | answer j r =>
    simp only [step, Option.map_eq_some'] at h
    obtain ⟨p₁, h₁, rfl⟩ := h
    obtain ⟨hn, hf, -, hl⟩ := settle_spec h₁
    refine ⟨fun h => by simpa [hf] using h, .inr (.inr ⟨hn, hl, .inl ?_⟩)⟩
    cases hp : p₁.formik <;> simp [Page.submitting, hp, resetForm]
  | fail j =>
    obtain ⟨hn, hf, -, hl⟩ := settle_spec h
    exact ⟨fun h => hf ▸ h, .inr (.inr ⟨hn, hl, .inr (by simp only [Page.submitting, hf])⟩)⟩

/-! ## One save at a time -/

/-- At most one `PATCH` is in flight, and only while the form is submitting. -/
def OneSave (p : Page) : Prop := p.pending = 0 ∨ (p.pending = 1 ∧ p.submitting = true ∧ p.formik.isSome)

theorem OneSave.step {e : Event} (hp : OneSave p) (h : step p e = some p') : OneSave p' := by
  obtain ⟨hsome, hc⟩ := step_cases h
  rcases hc with ⟨hq, hs⟩ | ⟨he, hs, hn, -⟩ | ⟨hn, -, -⟩
  · have hn : p'.pending = p.pending := by simp only [Page.pending, hq]
    rcases hp with h0 | ⟨h1, hsub, hf⟩
    · exact .inl (hn.trans h0)
    · exact .inr ⟨hn.trans h1, (hs hf).trans hsub, hsome hf⟩
  · have : p.pending = 0 := by
      rcases hp with h0 | ⟨-, hsub, -⟩
      · exact h0
      · simp [(saveEnabled_spec he).1] at hsub
    refine .inr ⟨by omega, hs, ?_⟩
    cases hf : p'.formik <;> simp_all [Page.submitting]
  · exact .inl (by rcases hp with h0 | ⟨h1, -⟩ <;> omega)

theorem Reachable.oneSave (hp : Reachable p) : OneSave p := by
  induction hp with
  | mount => exact .inl rfl
  | step e _ h ih => exact ih.step h

/-- **At most one save is in flight.** In every state of the page, at most one `PATCH` of the
settings is unsettled: Save is disabled from the click that sends one until the answer to it. -/
theorem one_save_in_flight (hp : Reachable p) : p.pending ≤ 1 := by
  rcases hp.oneSave with h | ⟨h, -⟩ <;> omega

theorem one_save_in_flight_sent :
    run (mount true) [.load ⟨some false, some 1⟩, .toggle, .save] =
        some ⟨true, some ⟨some false, some 1⟩, some ⟨true, false, true⟩, [⟨true, false⟩]⟩ ∧
      Page.pending ⟨true, some ⟨some false, some 1⟩, some ⟨true, false, true⟩, [⟨true, false⟩]⟩ ≤ 1 :=
  ⟨rfl, one_save_in_flight (reachable_run [.load ⟨some false, some 1⟩, .toggle, .save] (.mount true) rfl)⟩

/-! ## A failed save -/

/-- The form is submitting with nothing in flight: what a failed save leaves. -/
def Stuck (p : Page) : Prop := p.submitting = true ∧ p.pending = 0 ∧ p.formik.isSome

theorem Stuck.step {e : Event} (hp : Stuck p) (h : step p e = some p') :
    Stuck p' ∧ p'.patches.length = p.patches.length := by
  obtain ⟨hs, h0, hf⟩ := hp
  obtain ⟨hsome, hc⟩ := step_cases h
  rcases hc with ⟨hq, hs'⟩ | ⟨he, -⟩ | ⟨hn, -⟩
  · exact ⟨⟨(hs' hf).trans hs, by simp only [Page.pending, hq] at h0 ⊢; exact h0, hsome hf⟩, by rw [hq]⟩
  · simp [(saveEnabled_spec he).1] at hs
  · omega

theorem Stuck.steps {p'' : Page} (hp : Stuck p) (h : Steps p p'') :
    Stuck p'' ∧ p''.patches.length = p.patches.length := by
  induction h with
  | refl => exact ⟨hp, rfl⟩
  | tail _ he ih =>
    obtain ⟨e, he⟩ := he
    obtain ⟨hs, hl⟩ := ih.1.step he
    exact ⟨hs, hl.trans ih.2⟩

theorem Stuck.save_disabled (hp : Stuck p) : saveEnabled p = false := by
  cases he : saveEnabled p
  · rfl
  · exact absurd hp.1 (by simp [(saveEnabled_spec he).1])

/-- **A failed save blocks saving.** After a `PATCH` fails, whatever the user and the server do
next, no further `PATCH` is sent and Save stays disabled: `onSubmit` returns no promise, so Formik
leaves `isSubmitting` set, and only the `resetForm` of a successful save would clear it. -/
theorem failed_save_blocks_saving {p₁ p₂ : Page} (hp : Reachable p) (hf : step p (.fail i) = some p₁)
    (hs : Steps p₁ p₂) : p₂.patches.length = p₁.patches.length ∧ saveEnabled p₂ = false := by
  obtain ⟨hn, hfk, -, -⟩ := settle_spec hf
  have hstuck : Stuck p₁ := by
    rcases hp.oneSave with h0 | ⟨h1, hsub, hsome⟩
    · omega
    · exact ⟨by simp only [Page.submitting, hfk] at hsub ⊢; exact hsub, by omega, hfk ▸ hsome⟩
  obtain ⟨hs₂, hl⟩ := hstuck.steps hs
  exact ⟨hl, hs₂.save_disabled⟩

theorem failed_save_blocks_saving_retry :
    run (mount true) [.load ⟨some false, some 1⟩, .toggle, .save, .fail 0] =
        some ⟨true, some ⟨some false, some 1⟩, some ⟨true, false, true⟩, [⟨true, true⟩]⟩ ∧
      ∀ p₂, Steps ⟨true, some ⟨some false, some 1⟩, some ⟨true, false, true⟩, [⟨true, true⟩]⟩ p₂ →
        p₂.patches.length = 1 ∧ saveEnabled p₂ = false :=
  ⟨rfl, fun _ hs => failed_save_blocks_saving
    (p := ⟨true, some ⟨some false, some 1⟩, some ⟨true, false, true⟩, [⟨true, false⟩]⟩) (i := 0)
    (reachable_run [.load ⟨some false, some 1⟩, .toggle, .save] (.mount true) rfl) rfl hs⟩

end AIReviewPolling.Settings
