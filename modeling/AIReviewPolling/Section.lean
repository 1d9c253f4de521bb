/-
`AIReviewSection`, the part of the pull-request overview panel that calls `usePRAIReviews`
and draws its `data`: a container marked merged when the pull request is, the circle of
`AIStatusCircle` with `generateStatusSummary(data)`, a title from its `statusMessage` state, a
notice, and a link to the pull request's AI review when the answer has a `review_status`. Two
effects keep the title in step with `data`: `[data]` copies a present `data` into `prData`,
and `[prData]` sets `statusMessage` from `determineStatusMessage`. Each of these state changes
renders the component again, hook included; such a render of the hook finds nothing to do
(`render_render`), so the hook moves as its own model does (`AIReviewSection.Reachable.hook`).

Once a render and the effects after it are done, what the section draws is a function of
`data` and the props (`section_view_settled`): the title is never one left over from an
earlier answer. An answer that is neither `success` nor `error`, which ends the polling, is
drawn as a skipped review under the old-version title (`other_answer_shown_skipped`).
-/
import AIReviewPolling.Polling

namespace AIReviewPolling

variable {w : World}

/-! ## Renders that find nothing to do -/

@[simp] theorem load_loaded : (load w).loaded = some (lastAIReviewPath w.props) := by
  unfold load
  split_ifs with h
  · exact h
  · rfl

@[simp] theorem render_renderDue : (render w).renderDue = false := by rw [render_eq, load_eq]; rfl

@[simp] theorem render_data : (render w).data = w.data := by rw [render_eq, load_eq]; rfl

@[simp] theorem render_props : (render w).props = w.props := by rw [render_eq, load_eq]; rfl

@[simp] theorem render_loaded : (render w).loaded = some (lastAIReviewPath w.props) := by
  rw [render_eq]; exact load_loaded

/-- A render that finds the memo applied, its path loaded and the effect's dependencies
unchanged changes nothing. -/
theorem render_of_settled (h₁ : w.renderDue = false) (h₂ : applyMemo w = w)
    (h₃ : w.loaded = some (lastAIReviewPath w.props)) (h₄ : liveDeps w = some (w.props.path, w.complete)) :
    render w = w := by
  have h₀ : { w with renderDue := false } = w := by rw [← h₁]
  have h₅ : load w = w := by simp [load, h₃]
  dsimp only [render]
  rw [h₀, h₂, h₅, if_pos h₄]

theorem applyMemo_render : applyMemo (render w) = render w := by
  rw [render_eq, load_eq]
  cases h : (memo w.data).colors <;> simp [applyMemo, h]

/-- A render right after a render sends no request and starts no run. -/
theorem render_render : render (render w) = render w :=
  render_of_settled render_renderDue applyMemo_render (by simp)
    (by simpa using (Committed.render w render_renderDue).1)

/-! ## What the section draws -/

/-- What `generateStatusSummary` hands to `AIStatusCircle`. -/
structure Summary where
  message : String
  status : String
  deriving DecidableEq, Repr

/-- `generateStatusSummary(checks)`. -/
def generateStatusSummary (checks : TypesAIRequest) : Summary :=
  if checks.status = some "error" then ⟨"", "error"⟩
  else if checks.status = some "success" then
    if checks.review_status = some "approved" then ⟨"AI Review approved", "success"⟩
    else if checks.review_status = some "rejected" then ⟨"AI Review rejected", "failed"⟩
    else if checks.review_status = some "ignore" then ⟨"AI Review Ignored", "skipped"⟩
    else if checks.review_status = some "unknown" then ⟨"AI Review Error", "killed"⟩
    else ⟨"AI Review Skipped", "skipped"⟩
  else ⟨"AI Review Skipped", "skipped"⟩

/-- The section's `statusMessage` state, `{ color, title }`. The title is the key handed to
`getString`, whose string table is outside the model; the colour is `none` for the `''` of
the initial state. -/
structure StatusMessage where
  color : Option Color
  title : String
  deriving DecidableEq, Repr

/-- `{ color: '', title: '' }`: the initial state, and the fallback of
`curStatusMessage || { color: '', title: '' }`. -/
def StatusMessage.empty : StatusMessage := ⟨none, ""⟩

/-- `determineStatusMessage(checks)`; its type allows `undefined`, which it never returns. -/
def determineStatusMessage (checks : TypesAIRequest) : Option StatusMessage :=
  let title := "prAIReview.oldVersion"
  let color := Color.GREY_450
  if checks.status = some "success" then
    if checks.review_status = some "approved" then some ⟨some .GREEN_800, "prAIReview.approved"⟩
    else if checks.review_status = some "rejected" then some ⟨some .RED_700, "prAIReview.rejected"⟩
    else if checks.review_status = some "ignore" then some ⟨some .GREY_450, "prAIReview.ignore"⟩
    else if checks.review_status = some "unknown" then some ⟨some .GREY_450, "prAIReview.unknown"⟩
    else some ⟨some color, title⟩
  else some ⟨some color, title⟩

/-- What the details link hands to `routes.toCODEPullRequest`, besides
`pullRequestSection: PullRequestSection.AI_REVIEW`: `repoMetadata.path as string` (the cast
changes nothing, so `undefined` stays) and `String(pullReqMetadata.number)`. The route table
is outside the model. -/
structure DetailsLink where
  repoPath : Option String
  pullRequestId : String
  deriving DecidableEq, Repr

/-- What the section draws for an answer: whether the container has the `mergedContainer`
class, the circle's summary, the title in its colour, the notice under it, and the details
link when there is one. -/
structure View where
  merged : Bool
  summary : Summary
  title : String
  titleColor : Option Color
  notice : String
  details : Option DetailsLink
  deriving DecidableEq, Repr

/-- The section's markup for `data` under the title `m`, with the props `p` and
`pullReqMetadata.merged`: `{ [css.mergedContainer]: pullReqMetadata.merged }`,
`data?.review_status ? getString('prAIReview.notice') : getString('prAIReview.oldNotice')`, and
the link when `data?.review_status`. -/
def drawn (p : Props) (merged : Bool) (data : TypesAIRequest) (m : StatusMessage) : View :=
  ⟨merged, generateStatusSummary data, m.title, m.color,
    if truthy data.review_status then "prAIReview.notice" else "prAIReview.oldNotice",
    if truthy data.review_status then some ⟨p.path, hole (p.number.map toString)⟩ else none⟩

/-- The component's state: its hook's (whose props are the section's `repoMetadata` and
`pullReqMetadata`), `pullReqMetadata.merged`, which only the section reads, and its own
`statusMessage` and `prData`. -/
structure AIReviewSection where
  hook : World
  merged : Bool
  statusMessage : StatusMessage
  prData : Option TypesAIRequest
  deriving DecidableEq, Repr

/-- What happens to the section: a step of its hook, or the parent passing a pull request whose
`merged` is `b`. -/
inductive SectionEvent where
  | hook (e : Event)
  | setMerged (b : Bool)
  deriving DecidableEq, Repr

namespace AIReviewSection

variable {s s' : AIReviewSection} {e : SectionEvent}

/-- `return data ? (...) : null`. -/
def view (s : AIReviewSection) : Option View :=
  s.hook.data.map fun d => drawn s.hook.props s.merged d s.statusMessage

/-- The `[prData]` effect, `if (prData) setStatusMessage(...)`, and the render it causes. -/
def statusEffect (s : AIReviewSection) : AIReviewSection :=
  match s.prData with
  | some d => { s with statusMessage := (determineStatusMessage d).getD .empty, hook := render s.hook }
  | none => s

/-- The `[data]` effect, `if (data) setPrData(data)`, the render it causes and the `[prData]`
effect after it. Taken after every commit: when `data` is the one of the commit before, it
finds `prData` and `statusMessage` already set from it and changes nothing. -/
def dataEffect (s : AIReviewSection) : AIReviewSection :=
  match s.hook.data with
  | some d => statusEffect { s with prData := some d, hook := render s.hook }
  | none => s

/-- The section mounted: the hook's first render, then the section's effects. -/
def mount (p : Props) (merged : Bool) : AIReviewSection :=
  dataEffect ⟨AIReviewPolling.mount p, merged, .empty, none⟩

/-- A step of the hook, a render followed by the section's effects; new props render the
section again, as they do the hook. -/
def step (s : AIReviewSection) : SectionEvent → Option AIReviewSection
  | .hook e => (AIReviewPolling.step s.hook e).map fun w =>
    match e with
    | .rerender => dataEffect { s with hook := w }
    | _ => { s with hook := w }
  | .setMerged b => some { s with merged := b, hook := { s.hook with renderDue := true } }

/-- The states a mounted section reaches. -/
inductive Reachable : AIReviewSection → Prop where
  | mount (p : Props) (merged : Bool) : Reachable (mount p merged)
  | step {s s' : AIReviewSection} (e : SectionEvent) : Reachable s → step s e = some s' → Reachable s'

/-- A run of events, or `none` when one of them cannot happen. -/
def run (s : AIReviewSection) : List SectionEvent → Option AIReviewSection
  | [] => some s
  | e :: es => (s.step e).bind fun s' => s'.run es

theorem reachable_run : ∀ {s s' : AIReviewSection} (es : List SectionEvent), s.Reachable → s.run es = some s' →
    s'.Reachable
  | _, _, [], hs, h => by cases h; exact hs
  | s, _, e :: es, hs, h => by
    simp only [run, Option.bind_eq_some] at h
    obtain ⟨s₁, h₁, h₂⟩ := h
    exact reachable_run es (.step e hs h₁) h₂

/-! ## The hook inside the section -/

theorem hook_dataEffect (s : AIReviewSection) (w : World) :
    (dataEffect { s with hook := render w }).hook = render w := by
  unfold dataEffect
  split
  · simp [statusEffect, render_render]
  · rfl

/-- A step of the section is one of its hook; new props with the same path and number are
`setProps` of the props the hook has. -/
theorem hook_step (h : step s e = some s') : ∃ e', AIReviewPolling.step s.hook e' = some s'.hook := by
  cases e with
  | hook e =>
    simp only [step, Option.map_eq_some'] at h
    obtain ⟨w, hw, rfl⟩ := h
    refine ⟨e, ?_⟩
    cases e with
    | rerender => cases hw; rw [hook_dataEffect]; rfl
    | _ => exact hw
  | setMerged b => cases h; exact ⟨.setProps s.hook.props, rfl⟩

/-- Every state of the section's hook is one the hook reaches on its own. -/
theorem Reachable.hook (hs : s.Reachable) : AIReviewPolling.Reachable s.hook := by
  induction hs with
  | mount p b =>
    rw [show (AIReviewSection.mount p b).hook = AIReviewPolling.mount p from
      hook_dataEffect ⟨initial p, b, .empty, none⟩ _]
    exact .mount p
  | step e _ h ih =>
    obtain ⟨e', he'⟩ := hook_step h
    exact .step e' ih he'

/-! ## The title follows `data` -/

/-- After a render and the effects after it, `prData` and `statusMessage` are those of
`data`. -/
def Settled (s : AIReviewSection) : Prop :=
  s.hook.renderDue = false → ∀ d, s.hook.data = some d →
    s.prData = some d ∧ s.statusMessage = (determineStatusMessage d).getD .empty

theorem settled_dataEffect (s : AIReviewSection) : Settled (dataEffect s) := by
  unfold dataEffect
  split
  · next d hd => intro _ d' hd'; simp_all [statusEffect]
  · next hd => intro _ d' hd'; simp [hd] at hd'

theorem Settled.congr (hs : Settled s) (hd : w.data = s.hook.data) (hr : w.renderDue = s.hook.renderDue) :
    Settled { s with hook := w } := by
  intro h₁ d h₂; exact hs (hr ▸ h₁) d (hd ▸ h₂)

theorem Settled.step (hs : Settled s) (h : step s e = some s') : Settled s' := by
  cases e with
  | setMerged b => cases h; intro h; cases h
  | hook e =>
    simp only [AIReviewSection.step, Option.map_eq_some'] at h
    obtain ⟨w, hw, rfl⟩ := h
    cases e with
    | fire h =>
      obtain ⟨t, -, -, rfl⟩ := step_fire hw
      rw [pollingFn_eq]
      exact hs.congr rfl rfl
    | respond f a =>
      obtain ⟨x, -, -, rfl⟩ := step_respond hw
      intro h; cases h
    | settle f =>
      obtain ⟨x, -, -, h⟩ := step_settle hw
      rcases h with ⟨-, rfl⟩ | ⟨i, -, rfl⟩
      · exact hs.congr rfl rfl
      · rw [afterRefetch_eq]
        exact hs.congr rfl rfl
    | rerender => exact settled_dataEffect _
    | setProps p =>
      cases hw
      intro h; cases h

theorem Reachable.settled (hs : s.Reachable) : Settled s := by
  induction hs with
  | mount p b => exact settled_dataEffect _
  | step e _ h ih => exact ih.step h

end AIReviewSection

/-- **After a render, the section draws `data` and its props alone.** In every state the
mounted section reaches, once a render and the effects after it are done, it draws nothing
without `data`, and otherwise, for the props it has, the summary of `data` under the title
`determineStatusMessage(data)` gives: whatever answers, renders and prop changes came before,
the title is never one left from an earlier answer. -/
theorem section_view_settled {s : AIReviewSection} (hs : s.Reachable) (hd : s.hook.renderDue = false) :
    s.view = s.hook.data.map fun d => drawn s.hook.props s.merged d ((determineStatusMessage d).getD .empty) := by
  unfold AIReviewSection.view
  cases h : s.hook.data with
  | none => rfl
  | some d => simp [(hs.settled hd d h).2]

/-- An approved review of a merged pull request, answered and rendered: the title is the
approved one and the link goes to pull request 7 of `acme/web`. -/
theorem section_view_settled_approved :
    ∃ s, (AIReviewSection.mount ⟨some "acme/web", some 7⟩ true).run
        [.hook (.fire 0), .hook (.respond 1 (some ⟨some "success", some "approved"⟩)), .hook .rerender] = some s ∧
      s.hook.renderDue = false ∧
      s.view = some ⟨true, ⟨"AI Review approved", "success"⟩, "prAIReview.approved", some .GREEN_800,
        "prAIReview.notice", some ⟨some "acme/web", "7"⟩⟩ ∧
      s.view = s.hook.data.map fun d => drawn s.hook.props s.merged d ((determineStatusMessage d).getD .empty) :=
  ⟨_, rfl, by decide, by decide, section_view_settled
    (AIReviewSection.reachable_run
      [.hook (.fire 0), .hook (.respond 1 (some ⟨some "success", some "approved"⟩)), .hook .rerender]
      (.mount ⟨some "acme/web", some 7⟩ true) rfl) (by decide)⟩

/-- **An answer neither `success` nor `error` is shown as a skipped review, and the polling
is over.** In every state the mounted section reaches after a render, when `data` holds such
an answer (`pending`, say), the circle says `AI Review Skipped`, the title is the old-version
one, and the live effect run has `complete` set, so it sends no `refetch`. -/
theorem other_answer_shown_skipped {s : AIReviewSection} (hs : s.Reachable) (hd : s.hook.renderDue = false)
    {d : TypesAIRequest} (hdata : s.hook.data = some d) (he : d.status ≠ some "error")
    (hsu : d.status ≠ some "success") :
    s.view.map View.summary = some ⟨"AI Review Skipped", "skipped"⟩ ∧
    s.view.map View.title = some "prAIReview.oldVersion" ∧
    ∀ p, s.hook.pollers.getLast? = some p → p.complete = true := by
  obtain ⟨-, hm⟩ := hs.settled hd d hdata
  obtain ⟨hl, hc⟩ := (hs.hook.runsOK.2 : Committed s.hook) hd
  refine ⟨?_, ?_, fun p hp => ?_⟩
  · simp [AIReviewSection.view, hdata, drawn, generateStatusSummary, he, hsu]
  · simp [AIReviewSection.view, hdata, drawn, hm, determineStatusMessage, hsu]
  · simp only [liveDeps, hp, Option.map_some', Option.some.injEq, Prod.mk.injEq] at hl
    rw [hl.2, hc, hdata]; rfl

/-- The first `refetch` answers `{ status: 'pending' }` and that answer is rendered. -/
theorem other_answer_shown_skipped_pending :
    ∃ s, (AIReviewSection.mount ⟨some "acme/web", some 7⟩ false).run
        [.hook (.fire 0), .hook (.respond 1 (some ⟨some "pending", none⟩)), .hook .rerender] = some s ∧
      s.hook.renderDue = false ∧ s.hook.data = some ⟨some "pending", none⟩ ∧
      (s.view.map View.summary = some ⟨"AI Review Skipped", "skipped"⟩ ∧
        s.view.map View.title = some "prAIReview.oldVersion" ∧
        ∀ p, s.hook.pollers.getLast? = some p → p.complete = true) :=
  ⟨_, rfl, by decide, by decide, other_answer_shown_skipped
    (AIReviewSection.reachable_run
      [.hook (.fire 0), .hook (.respond 1 (some ⟨some "pending", none⟩)), .hook .rerender]
      (.mount ⟨some "acme/web", some 7⟩ false) rfl)
    (d := ⟨some "pending", none⟩) (by decide) (by decide) (by decide) (by decide)⟩

end AIReviewPolling
