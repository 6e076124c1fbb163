import UnsBridge.Envelope

/-!
# The relay knobs of the site instance

The typed `uplink`, `reply` and `queue` blocks of the site entry of `component.instances[]`, with
their defaults, and the clock types that the time-dependent knobs are measured in.
-/

namespace UnsBridge

/-- `std::time::Duration`, in nanoseconds. -/
abbrev Duration : Type := ℕ

/-- `std::time::Instant`, in nanoseconds after some epoch. -/
abbrev Instant : Type := ℤ

/-- `Duration::from_secs`. -/
def Duration.fromSecs (secs : ℕ) : Duration := secs * 1000000000

/-- The addition of an instant and a duration; it panics, here `none`, when the seconds of the sum
do not fit a signed 64-bit integer. -/
def Instant.checkedAdd (t : Instant) (d : Duration) : Option Instant :=
  if t + d < 2 ^ 63 * 1000000000 then some (t + d) else none

/-- A sum that does not panic is the exact sum. -/
theorem Instant.eq_of_checkedAdd {t s : Instant} {d : Duration}
    (h : Instant.checkedAdd t d = some s) : s = t + d := by
  unfold Instant.checkedAdd at h
  split at h
  · exact (Option.some.inj h).symm
  · cases h

/-- `DEFAULT_EVT_BUFFER_MAX`. -/
def DEFAULT_EVT_BUFFER_MAX : ℕ := 1000

/-- `DEFAULT_REPLY_TTL_SECS`. -/
def DEFAULT_REPLY_TTL_SECS : ℕ := 60

/-- `DEFAULT_MAX_PENDING`. -/
def DEFAULT_MAX_PENDING : ℕ := 1024

/-- `DEFAULT_DATA_QUEUE`. -/
def DEFAULT_DATA_QUEUE : ℕ := 512

/-- `DEFAULT_QUEUE`. -/
def DEFAULT_QUEUE : ℕ := 64

/-- `DisconnectBufferConfig`: the `evt` replay buffer. -/
structure DisconnectBufferConfig where
  enabled : Bool := true
  maxMessages : ℕ := DEFAULT_EVT_BUFFER_MAX

/-- `ClassPolicy`: the uplink knobs of one class. -/
structure ClassPolicy where
  enabled : Option Bool := none
  maxRatePerSec : Option ℕ := none
  burst : Option ℕ := none
  bufferWhileDisconnected : Option DisconnectBufferConfig := none

/-- `UplinkConfig`: the per-class policies, keyed by class token. -/
structure UplinkConfig where
  classes : StrMap ClassPolicy := ∅

/-- `UplinkConfig::app_enabled`. -/
def UplinkConfig.appEnabled (cfg : UplinkConfig) : Bool :=
  ((cfg.classes.lookup "app").bind ClassPolicy.enabled).getD false

/-- `ReplyConfig`: the knobs of the correlation map. -/
structure ReplyConfig where
  ttlSecs : ℕ := DEFAULT_REPLY_TTL_SECS
  maxPending : ℕ := DEFAULT_MAX_PENDING

/-- `ReplyConfig::ttl`. -/
def ReplyConfig.ttl (cfg : ReplyConfig) : Duration := Duration.fromSecs cfg.ttlSecs

/-- `QueueConfig`: the depths of the subscription queues. -/
structure QueueConfig where
  data : ℕ := DEFAULT_DATA_QUEUE
  defaultDepth : ℕ := DEFAULT_QUEUE

end UnsBridge
