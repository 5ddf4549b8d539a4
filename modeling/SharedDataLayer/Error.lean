import SharedDataLayer.Basic

/-!
# Error codes (`private/error.hpp`, `src/error.cpp`, `src/errorqueries.cpp`)

An implementation specific error code is mapped to an `InternalError`, and that to the
`shareddatalayer::Error` values that a client compares with. `ErrorCode` has the two categories of
this library, the default constructed `std::error_code()` and the codes of other categories: an
`AsyncStorage` that is not this library's own may pass any `std::error_code` to an ack.

`throwExceptionForErrorCode` (`src/syncstorageimpl.cpp`) is the exception of the synchronous API
for a code. It never gives `RejectedBySdl`: the only codes that are equivalent to
`Error::REJECTED_BY_SDL` are caught before, as `InvalidNamespace`.
-/

namespace Sdl

/-- `AsyncRedisCommandDispatcherErrorCode`. -/
inductive DispatcherErrorCode where
  | success | unknownError | connectionLost | protocolError | outOfMemory | datasetLoading
  | notConnected | inputOutputError | writingToSlave | endMarker
  deriving DecidableEq, Repr

/-- `AsyncRedisStorage::ErrorCode`. -/
inductive StorageErrorCode where
  | success | redisNotYetDiscovered | invalidNamespace | endMarker
  deriving DecidableEq, Repr

/-- `std::error_code`. `foreign` is a code of a category outside the library. -/
inductive ErrorCode where
  | none
  | dispatcher (c : DispatcherErrorCode)
  | storage (c : StorageErrorCode)
  | foreign (category : String) (value : Int) (message : String)
  deriving DecidableEq, Repr

/-- `InternalError`. -/
inductive InternalError where
  | success | sdlNotReady | sdlNotConnectedToBackend | sdlErrorCodeLogicError
  | sdlReceivedInvalidParameter | backendConnectionLost | backendNotReady | backendRejectedRequest
  | backendError
  deriving DecidableEq, Repr

/-- `shareddatalayer::Error`. -/
inductive Error where
  | success | notConnected | operationInterrupted | backendFailure | rejectedByBackend
  | rejectedBySdl
  deriving DecidableEq, Repr

/-- `AsyncRedisCommandDispatcherErrorCategory::default_error_condition`. -/
def DispatcherErrorCode.defaultErrorCondition : DispatcherErrorCode → InternalError
  | .success => .success
  | .connectionLost => .backendConnectionLost
  | .protocolError => .backendRejectedRequest
  | .outOfMemory => .backendError
  | .datasetLoading => .backendNotReady
  | .notConnected => .sdlNotConnectedToBackend
  | .unknownError => .backendError
  | .inputOutputError => .backendError
  | .writingToSlave => .backendError
  | .endMarker => .sdlErrorCodeLogicError

/-- `AsyncRedisStorageErrorCategory::default_error_condition`. -/
def StorageErrorCode.defaultErrorCondition : StorageErrorCode → InternalError
  | .success => .success
  | .redisNotYetDiscovered => .sdlNotReady
  | .invalidNamespace => .sdlReceivedInvalidParameter
  | .endMarker => .sdlErrorCodeLogicError

/-- `AsyncRedisCommandDispatcherErrorCategory::message`. -/
def DispatcherErrorCode.message : DispatcherErrorCode → String
  | .success => "Success"
  | .connectionLost => "redis connection lost"
  | .protocolError => "redis protocol error"
  | .outOfMemory => "redis out of memory"
  | .datasetLoading => "redis dataset still being loaded into memory"
  | .notConnected => "not connected to redis, SDL operation not started"
  | .unknownError => "redis error"
  | .inputOutputError => "redis I/O error"
  | .writingToSlave => "writing to slave"
  | .endMarker => "unsupported error code for message()"

/-- `AsyncRedisStorageErrorCategory::message`. -/
def StorageErrorCode.message : StorageErrorCode → String
  | .success => "Success"
  | .redisNotYetDiscovered => "connection to the underlying data storage not yet available"
  | .invalidNamespace => "invalid namespace identifier passed to SDL API"
  | .endMarker => "unsupported error code for message()"

namespace ErrorCode

/-- `std::error_code::operator bool`: the value is not zero. -/
def isError : ErrorCode → Bool
  | .none => false
  | .dispatcher c => c != .success
  | .storage c => c != .success
  | .foreign _ v _ => v != 0

/-- `ec == InternalError::x` holds for the `x` that this gives. The default constructed code is
in the system category, which has no internal error. -/
def internalError : ErrorCode → Option InternalError
  | .none => Option.none
  | .dispatcher c => some c.defaultErrorCondition
  | .storage c => some c.defaultErrorCondition
  | .foreign _ _ _ => Option.none

/-- `std::error_code::message`. -/
def message : ErrorCode → String
  | .none => "Success"
  | .dispatcher c => c.message
  | .storage c => c.message
  | .foreign _ _ m => m

/-- `std::error_code::category().name()`. -/
def categoryName : ErrorCode → String
  | .none => "system"
  | .dispatcher _ => "asyncrediscommanddispatcher"
  | .storage _ => "asyncredisstorage"
  | .foreign c _ _ => c

/-- `std::error_code::value`. -/
def value : ErrorCode → Int
  | .none => 0
  | .dispatcher c => c.ctorIdx
  | .storage c => c.ctorIdx
  | .foreign _ v _ => v

/-- `ec == e` (`SharedDataLayerErrorCategory::equivalent`). -/
def equivalent (ec : ErrorCode) : Error → Bool
  | .success => ec.internalError = some .success || ec = .none
  | .notConnected =>
    ec.internalError = some .sdlNotConnectedToBackend || ec.internalError = some .backendNotReady ||
      ec.internalError = some .sdlNotReady
  | .operationInterrupted => ec.internalError = some .backendConnectionLost
  | .backendFailure =>
    ec.internalError = some .backendError || ec.internalError = some .sdlErrorCodeLogicError
  | .rejectedByBackend => ec.internalError = some .backendRejectedRequest
  | .rejectedBySdl => ec.internalError = some .sdlReceivedInvalidParameter

end ErrorCode

/-- The exceptions of the synchronous API, and the `std::range_error` of a code without one. -/
inductive ExceptionType where
  | backendError | notConnected | operationInterrupted | rejectedByBackend | invalidNamespace
  | rejectedBySdl | rangeError
  deriving DecidableEq, Repr

/-- A thrown exception with the text that its constructor is given. -/
structure Exception where
  type : ExceptionType
  text : String
  deriving DecidableEq, Repr

/-- `throwExceptionForErrorCode`. -/
def throwExceptionForErrorCode (ec : ErrorCode) : Exception :=
  if ec.equivalent .backendFailure then ⟨.backendError, ec.message⟩
  else if ec.equivalent .notConnected then ⟨.notConnected, ec.message⟩
  else if ec.equivalent .operationInterrupted then ⟨.operationInterrupted, ec.message⟩
  else if ec.equivalent .rejectedByBackend then ⟨.rejectedByBackend, ec.message⟩
  else if ec = .storage .invalidNamespace then ⟨.invalidNamespace, ec.message⟩
  else if ec.equivalent .rejectedBySdl then ⟨.rejectedBySdl, ec.message⟩
  else ⟨.rangeError, "No corresponding SDL exception found for error code: " ++ ec.categoryName ++
    " " ++ toString ec.value⟩

theorem throwExceptionForErrorCode_ne_rejectedBySdl (ec : ErrorCode) :
    (throwExceptionForErrorCode ec).type ≠ .rejectedBySdl := by
  cases ec with
  | none => decide
  | dispatcher c => cases c <;> decide
  | storage c => cases c <;> decide
  | foreign cat v m => simp [throwExceptionForErrorCode, ErrorCode.equivalent,
    ErrorCode.internalError]

end Sdl
