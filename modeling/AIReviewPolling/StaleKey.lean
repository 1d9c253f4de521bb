/-
A change of pull request while the hook is mounted. The polling effect depends on
`[repoMetadata?.path, complete]` only, so a render after new props with the same path starts no
effect run: the live run keeps the `refetch` of an earlier render, which requests the earlier
pull request's review. And an answer lands in `data` whatever the props are by then, so that
answer is rendered for the new pull request (`old_key_answer_rendered`), the race the source's
own comment names: "an ongoing refetch of the old sha overwrites the new one".
-/
import AIReviewPolling.Polling

namespace AIReviewPolling

/-- The path of the request whose answer `data` holds. -/
def World.dataPath (w : World) : Option String :=
  w.dataFrom.bind fun f => (w.fetches[f]?).map Fetch.path

/-- **An old pull request's review is requested, and rendered, after the pull request
changed.** Mounted for pull request 1 of `acme/web`, the hook is given pull request 2; after
that render it has sent two requests, the load of each pull request. The live run still holds
the first render's `refetch`, so its timer sends a third request (number 2), for pull
request 1; its answer lands in `data` and is rendered with the props of pull request 2. -/
theorem old_key_answer_rendered :
    lastAIReviewPath ⟨some "acme/web", some 1⟩ ≠ lastAIReviewPath ⟨some "acme/web", some 2⟩ ∧
    (run (mount ⟨some "acme/web", some 1⟩) [.setProps ⟨some "acme/web", some 2⟩, .rerender]).map
        (fun w => (w.props, w.fetches.length)) = some (⟨some "acme/web", some 2⟩, 2) ∧
    (run (mount ⟨some "acme/web", some 1⟩) [.setProps ⟨some "acme/web", some 2⟩, .rerender, .fire 0,
        .respond 2 (some ⟨some "success", some "approved"⟩), .rerender]).map
        (fun w => (w.renderDue, w.props, w.dataFrom, w.dataPath)) =
      some (false, ⟨some "acme/web", some 2⟩, some 2, some (lastAIReviewPath ⟨some "acme/web", some 1⟩)) := by
  decide

end AIReviewPolling
