import SharedDataLayer.Hiredis.Core

/-!
# The life of a connection (`src/redis/asynchirediscommanddispatcher.cpp`)

The dispatcher connects in its constructor and, by its retry timer, whenever the connection is lost.
A connection that is up is verified with `COMMAND` before the service state is `CONNECTED`, except
for one that is used for Sentinel. The functions are those of the source; a function that calls
`setConnected` is a `Verified` result for the system to act on, since `setConnected` calls the
connect ack.

* `Dispatcher.Life`: the invariant of the states in which no callback is being called.
-/

namespace Sdl
namespace Hiredis

open Redis

/-- The hiredis context: freed or not there, not connected yet, or connected. -/
inductive Link where
  | none | connecting | up
  deriving DecidableEq

/-- The action of the retry timer. -/
inductive RetryAction where
  | connect | verifyConnection
  deriving DecidableEq

structure Dispatcher (κ : Type) where
  core : Core κ
  link : Link
  connectionRetryTimer : Option RetryAction

/-- What the reply of the connection verification leads to. -/
inductive Verified where
  | retry | setConnected | abort

/-- The decision of `verifyConnectionReply`. -/
def verified (error : ErrorCode) (reply : Reply) : Verified :=
  if error.isError then .retry
  else if checkRedisModuleCommands (parseCommandListReply reply) then .setConnected
  else .abort

theorem verified_error {error : ErrorCode} (h : error.isError = true) (reply : Reply) :
    verified error reply = .retry := by
  unfold verified
  rw [if_pos h]

namespace Dispatcher

variable {κ : Type}

def setDisconnected (d : Dispatcher κ) : Dispatcher κ where
  core := { d.core with serviceState := .disconnected }
  link := d.link
  connectionRetryTimer := some .connect

/-- `connect`. `ok` says whether hiredis returns a context without an error. -/
def connect (d : Dispatcher κ) (ok : Bool) : Dispatcher κ :=
  if ok then { d with link := .connecting } else { d with link := .none }.setDisconnected

/-- `verifyConnection` of a dispatcher that is not used for Sentinel. -/
def verifyConnection (d : Dispatcher κ) (accept : Bool) (err : ContextError) :
    Dispatcher κ × List (Posted κ) :=
  let core := { d.core with serviceState := .connectionVerification }
  let (core, posted) := core.dispatchAsync accept err .verifyConnectionReply false
  (⟨core, d.link, none⟩, posted)

/-- `verifyConnectionReply` after an error. -/
def retryVerification (d : Dispatcher κ) : Dispatcher κ :=
  if d.connectionRetryTimer.isNone then { d with connectionRetryTimer := some .verifyConnection }
  else d

/-- The constructor. -/
def new (self : Nat) (ok : Bool) : Dispatcher κ := connect ⟨Core.new self, .none, none⟩ ok

/-- Between callbacks: `cbs` holds the pending commands; none is pending while the service is
disconnected, and the timer connects only then. -/
structure Life (d : Dispatcher κ) : Prop where
  ok : d.core.Ok none
  freeing : d.core.freeing = false
  pending : d.core.serviceState = .disconnected → d.core.pending = []
  timer : d.connectionRetryTimer = some .connect → d.core.serviceState = .disconnected

theorem life_new (self : Nat) (ok : Bool) : Life (new self ok : Dispatcher κ) := by
  unfold new connect
  split
  · exact ⟨Core.ok_new self, rfl, fun _ => rfl, fun h => by cases h⟩
  · have h := Core.ok_new (κ := κ) self
    exact ⟨⟨h.nodup, h.lt, h.pending, h.held⟩, rfl, fun _ => rfl, fun _ => rfl⟩

end Dispatcher

end Hiredis
end Sdl
