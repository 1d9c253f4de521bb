/-
What `usePRAIReviews` reads and derives, before any polling: the `TypesAIRequest` the
`last-aireview` endpoint answers with, the path `useGet` requests it from, and the `useMemo`
over `data` that picks the overall status, the colours and the value of `complete`.

The memo gives `complete` the value `true` for every answer that is present, whatever its
`status`: an answer still `pending` completes the poll as much as a `success` does
(`memo_complete`).
-/
import Mathlib.Data.List.Basic

namespace AIReviewPolling

/-- The fields of `TypesAIRequest` the hook and `AIReviewSection` read. -/
structure TypesAIRequest where
  status : Option String
  review_status : Option String
  deriving DecidableEq, Repr

/-- The members of `ExecutionState` the hook returns. -/
inductive ExecutionState where
  | ERROR | SUCCESS | FAILURE | SKIPPED
  deriving DecidableEq, Repr

/-- The design-system colours the hook and `AIReviewSection` use. -/
inductive Color where
  | GREEN_500 | GREEN_50 | GREEN_800 | RED_900 | RED_700 | RED_50 | GREY_600 | GREY_450 | GREY_100
  deriving DecidableEq, Repr

/-- What the `useMemo` over `[data]` computes: the status it returns, the pair it hands to
`setColor` and `setBackground` (none when it calls neither), and the value it hands to
`setComplete`. -/
structure Memo where
  status : Option ExecutionState
  colors : Option (Color × Color)
  complete : Bool
  deriving DecidableEq, Repr

/-- The memo's body, on the `data` `useGet` holds (`none` for `null`). -/
def memo : Option TypesAIRequest → Memo
  | none => ⟨none, none, false⟩
  | some data =>
    if data.status = some "error" then ⟨some .ERROR, some (.RED_900, .RED_50), true⟩
    else if data.status = some "success" then
      if data.review_status = some "approved" then ⟨some .SUCCESS, some (.GREEN_800, .GREEN_50), true⟩
      else if data.review_status = some "rejected" then ⟨some .FAILURE, some (.RED_900, .RED_50), true⟩
      else ⟨some .SKIPPED, some (.GREY_600, .GREY_100), true⟩
    else ⟨none, none, true⟩

/-- `setComplete` is told whether there is data at all. -/
@[simp] theorem memo_complete (d : Option TypesAIRequest) : (memo d).complete = d.isSome := by
  unfold memo
  split
  · rfl
  · split_ifs <;> rfl

/-- The hook's props, as far as the poll reads them: `repoMetadata?.path` and
`pullReqMetadata?.number`. -/
structure Props where
  path : Option String
  number : Option Nat
  deriving DecidableEq, Repr

/-- A template-literal hole: `undefined` prints as such. -/
def hole : Option String → String
  | none => "undefined"
  | some s => s

/-- The path `useGet` is given: `/api/v1/repos/${repoMetadata?.path}/+/pullreq/${pullReqMetadata?.number}/last-aireview`. -/
def lastAIReviewPath (p : Props) : String :=
  "/api/v1/repos/" ++ hole p.path ++ "/+/pullreq/" ++ hole (p.number.map toString) ++ "/last-aireview"

/-- JavaScript truthiness of `repoMetadata?.path`: `undefined` and `''` are falsy. -/
def truthy : Option String → Bool
  | none => false
  | some s => !s.isEmpty

example : lastAIReviewPath ⟨some "acme/web", some 7⟩ = "/api/v1/repos/acme/web/+/pullreq/7/last-aireview" := by
  decide

end AIReviewPolling
