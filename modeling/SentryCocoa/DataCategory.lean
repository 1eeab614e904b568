import Mathlib.Data.List.Basic

/-! The categories by which the server limits and counts what it is sent, and the
reasons why something is not sent. -/
namespace SentryCocoa.DataCategory

inductive SentryDataCategory where
  | all | default | error | session | transaction | attachment | userFeedback | profile
  | metricBucket | replay | profileChunk | span | unknown
  deriving DecidableEq, Repr

/-- In the order of their raw values. -/
def categories : List SentryDataCategory :=
  [.all, .default, .error, .session, .transaction, .attachment, .userFeedback, .profile,
    .metricBucket, .replay, .profileChunk, .span, .unknown]

def SentryDataCategory.rawValue (category : SentryDataCategory) : Nat := categories.idxOf category

def sentryDataCategoryForNSUInteger (value : Nat) : SentryDataCategory :=
  (categories[value]?).getD .unknown

@[simp] theorem sentryDataCategoryForNSUInteger_rawValue (category : SentryDataCategory) :
    sentryDataCategoryForNSUInteger category.rawValue = category := by
  cases category <;> rfl

def nameForSentryDataCategory : SentryDataCategory → String
  | .all => ""
  | .default => "default"
  | .error => "error"
  | .session => "session"
  | .transaction => "transaction"
  | .attachment => "attachment"
  | .userFeedback => "user_report"
  | .profile => "profile"
  | .profileChunk => "profile_chunk"
  | .metricBucket => "metric_bucket"
  | .unknown => "unknown"
  | .replay => "replay"
  | .span => "span"

/-- Every name but that of the unknown category is recognized. -/
def sentryDataCategoryForString (value : String) : SentryDataCategory :=
  (categories.find? fun category => nameForSentryDataCategory category == value).getD .unknown

inductive SentryDiscardReason where
  | beforeSend | eventProcessor | sampleRate | networkError | queueOverflow | cacheOverflow
  | rateLimitBackoff | insufficientData
  deriving DecidableEq, Repr

def nameForSentryDiscardReason : SentryDiscardReason → String
  | .beforeSend => "before_send"
  | .eventProcessor => "event_processor"
  | .sampleRate => "sample_rate"
  | .networkError => "network_error"
  | .queueOverflow => "queue_overflow"
  | .cacheOverflow => "cache_overflow"
  | .rateLimitBackoff => "ratelimit_backoff"
  | .insufficientData => "insufficient_data"

end SentryCocoa.DataCategory
