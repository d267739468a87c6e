import PeerCalls.Address
import PeerCalls.Channel.Settings
import PeerCalls.Frame.Greeting
import PeerCalls.Text.Quoted

/-!
# Settings of clients and servers
-/

namespace PeerCalls

/-- Who a client is, where its server is, and how it connects again. -/
structure ClientSettings where
  id : String
  server : Address
  initialDelay : Span
  maxDelay : Span
  factor : Nat
  channel : Settings
  deriving Repr, DecidableEq, Inhabited

/-- Where a server listens, and how long it waits for a greeting. -/
structure ServerSettings where
  address : Address
  greetingTimeout : Span
  channel : Settings
  deriving Repr, DecidableEq, Inhabited

namespace ClientSettings

def standard (id : String) (server : Address) : ClientSettings where
  id
  server
  initialDelay := Span.ofMilliseconds 100
  maxDelay := Span.ofSeconds 10
  factor := 2
  channel := Settings.standard

/-- What is wrong with settings. -/
inductive Fault where
  | greeting (fault : Greeting.Fault)
  | longInitialDelay
  | channel (fault : Settings.Fault)
  deriving Repr, DecidableEq

def Fault.message : Fault → String
  | greeting fault => fault.message
  | longInitialDelay =>
    "initial reconnect delay must not be greater than the maximum reconnect delay"
  | channel fault => fault.message

/-- The first thing that is wrong. -/
def validate (settings : ClientSettings) : Except Fault Unit := do
  (Greeting.check settings.id).mapError Fault.greeting
  if settings.maxDelay < settings.initialDelay then
    throw .longInitialDelay
  (settings.channel.validate).mapError Fault.channel

/-- The settings as they are shown. -/
def text (settings : ClientSettings) : String :=
  Settings.recordText "ClientConfig" [
    Settings.fieldText "client_id" (Quoted.text settings.id),
    Settings.fieldText "server_addr" settings.server.text,
    Settings.fieldText "initial_reconnect_delay" settings.initialDelay.text,
    Settings.fieldText "max_reconnect_delay" settings.maxDelay.text,
    Settings.fieldText "reconnect_backoff_factor" (toString settings.factor),
    Settings.fieldText "channel" settings.channel.text]

end ClientSettings

namespace ServerSettings

def standard (address : Address) : ServerSettings where
  address
  greetingTimeout := Span.ofSeconds 5
  channel := Settings.standard

/-- The settings as they are shown. -/
def text (settings : ServerSettings) : String :=
  Settings.recordText "ServerConfig" [
    Settings.fieldText "bind_addr" settings.address.text,
    Settings.fieldText "hello_timeout" settings.greetingTimeout.text,
    Settings.fieldText "channel" settings.channel.text]

end ServerSettings

end PeerCalls
