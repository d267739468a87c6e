import PeerCalls.Time

/-!
# Settings of a channel
-/

namespace PeerCalls

/-- How a channel and the queue that it serves behave. -/
structure Settings where
  /-- How long calls without a timeout of their own wait. -/
  defaultTimeout : Span
  /-- How long a channel with nothing to do waits before it looks again. -/
  idleWait : Span
  /-- The pause before a failed call is sent again. -/
  retryDelay : Span
  /-- How many calls may be queued. -/
  maxQueueLength : Nat
  /-- How many replies are remembered for repeated calls. -/
  rememberedReplies : Nat
  /-- Somebody is told how calls end. -/
  hasListener : Bool
  deriving Repr, DecidableEq, Inhabited

namespace Settings

def standard : Settings where
  defaultTimeout := Span.ofSeconds 30
  idleWait := Span.ofMilliseconds 50
  retryDelay := Span.ofMilliseconds 100
  maxQueueLength := 10000
  rememberedReplies := 1000
  hasListener := false

/-- The longest pause before a failed call is sent again. -/
def maxRetryDelay : Span := Span.ofSeconds 86400

/-- What is wrong with settings. -/
inductive Fault where
  | zeroTimeout
  | zeroIdleWait
  | longRetryDelay
  | zeroQueueLength
  | zeroRememberedReplies
  deriving Repr, DecidableEq

def Fault.message : Fault → String
  | zeroTimeout => "default timeout must be positive"
  | zeroIdleWait => "idle wait must be positive"
  | longRetryDelay => "retry delay must be at most " ++ maxRetryDelay.text
  | zeroQueueLength => "queue length must be positive"
  | zeroRememberedReplies => "executed call cache size must be positive"

/-- The first thing that is wrong. -/
def validate (settings : Settings) : Except Fault Unit :=
  if settings.defaultTimeout.isZero then .error .zeroTimeout
  else if settings.idleWait.isZero then .error .zeroIdleWait
  else if maxRetryDelay < settings.retryDelay then .error .longRetryDelay
  else if settings.maxQueueLength = 0 then .error .zeroQueueLength
  else if settings.rememberedReplies = 0 then .error .zeroRememberedReplies
  else .ok ()

/-- A named field of a record. -/
def fieldText (name value : String) : String := name ++ ": " ++ value

/-- A record: its name, and its fields between braces. -/
def recordText (name : String) (fields : List String) : String :=
  name ++ " \x7b " ++ ", ".intercalate fields ++ " \x7d"

/-- The settings as they are shown. -/
def text (settings : Settings) : String :=
  recordText "ChannelConfig" [
    fieldText "default_timeout" settings.defaultTimeout.text,
    fieldText "idle_wait" settings.idleWait.text,
    fieldText "retry_delay" settings.retryDelay.text,
    fieldText "max_queue_len" (toString settings.maxQueueLength),
    fieldText "executed_cache_size" (toString settings.rememberedReplies),
    fieldText "outcome_listener" (toString settings.hasListener)]

end Settings

end PeerCalls
