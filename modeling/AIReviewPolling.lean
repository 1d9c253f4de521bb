import AIReviewPolling.Review
import AIReviewPolling.World
import AIReviewPolling.Step
import AIReviewPolling.Discipline
import AIReviewPolling.Pacing
import AIReviewPolling.Polling
import AIReviewPolling.StaleKey
import AIReviewPolling.Section
import AIReviewPolling.Unmount
import AIReviewPolling.Pattern
import AIReviewPolling.ProviderForm
import AIReviewPolling.Settings
