/-
The life of a provider.

A provider is ready once its client has started, and failed while the last attempt to start it
did not succeed.  Stopping always leads back to the beginning, also when the client fails to stop.

* `Provider.start` — starts the client, unless the provider is ready;
* `Provider.stop` — stops the client;
* `Provider.phase_stop` — a provider that was stopped is not ready, whatever its client did.
-/
import Rollout.Provider.Basic

namespace Rollout

namespace Provider

variable {σ : Type}

/-- An event of a provider, under its name. -/
def event (level : LogLevel) (what : String) (fields : Assoc String Value) : LogEvent :=
  ⟨level, some loggerName, what, fields⟩

/-- The event of a provider that became ready. -/
def readyEvent (settings : Settings) : LogEvent :=
  event .info "provider_ready"
    [("provider", .text name), ("mode", .text settings.mode.name), ("options", settings.options)]

/-- The event of a client that failed to start. -/
def startFailedEvent (message : String) : LogEvent :=
  event .error "provider_start_failed" [("provider", .text name), ("error", .text message)]

/-- The event of a provider that was stopped. -/
def stoppedEvent : LogEvent := event .info "provider_shutdown" [("provider", .text name)]

/-- The failure of a provider whose client failed to start. -/
def startupFailure (message : String) (failure : Failure) : Failure :=
  .reportCause .startup ("assignment client failed to start: " ++ message) failure

/-- Starts the client.  Nothing happens when the provider is ready.  A failure whose text cannot be
taken is not reported. -/
def start (p : Provider σ) (phase : Phase) (w : σ) : Except Failure Unit × Phase × σ :=
  if phase = .ready then (.ok (), phase, w)
  else
    match p.client.start w with
    | (.ok (), w) => (.ok (), .ready, p.log (readyEvent p.settings) w)
    | (.error failure, w) =>
      match failure.message with
      | .ok message =>
        (.error (startupFailure message failure), .failed, p.log (startFailedEvent message) w)
      | .error other => (.error other, .failed, w)

/-- Stops the client.  The failure of a client that does not stop is passed on. -/
def stop (p : Provider σ) (w : σ) : Except Failure Unit × Phase × σ :=
  match p.client.stop w with
  | (.ok (), w) => (.ok (), .notReady, p.log stoppedEvent w)
  | (.error failure, w) => (.error failure, .notReady, w)

@[simp] theorem start_ready (p : Provider σ) (w : σ) : p.start .ready w = (.ok (), .ready, w) := rfl

@[simp] theorem phase_stop (p : Provider σ) (w : σ) : (p.stop w).2.1 = .notReady := by
  unfold stop
  split <;> rfl

end Provider

end Rollout
