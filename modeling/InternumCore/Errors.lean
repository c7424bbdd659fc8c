import InternumCore.Json

/-!
# The exceptions of the service

`PyError` has one constructor for each exception class the modelled functions
raise or catch.  The classes of `api.common.errors` keep their fields; what the
libraries raise is kept apart as far as a handler tells it apart.

`asyncio.CancelledError` is the one that is not an `Exception`: a handler written
`except Exception` lets it pass.
-/

namespace InternumCore

/-- `UpstreamError`, with the attempt it was raised in. -/
structure UpstreamError where
  message : String
  attempt : Option Int := none
  deriving DecidableEq

/-- `SchemaError`. -/
structure SchemaError where
  message : String
  details : Option Json := none
  deriving DecidableEq

/-- `IntakeError`. -/
structure IntakeError where
  message : String
  code : String := "intake_error"
  details : Option Json := none
  intakeEventLogged : Bool := false
  deriving DecidableEq

/-- A raised exception. -/
inductive PyError where
  | upstream (error : UpstreamError)
  | schema (error : SchemaError)
  | intake (error : IntakeError)
  /-- `_RetryableAttemptError`. -/
  | retryableAttempt (error : UpstreamError) (reason : String) (statusCode : Option Nat)
  /-- `_MappedStatusError`. -/
  | mappedStatus (error : UpstreamError) (statusCode : Nat)
  | timeout
  /-- `httpx.RequestError`. -/
  | request (text : String)
  /-- Any other `Exception`. -/
  | other (text : String)
  | cancelled
  deriving DecidableEq

/-- What an awaited call of a library can raise. -/
inductive Interruption where
  | timeout
  /-- `httpx.RequestError`. -/
  | request (text : String)
  /-- Any other `Exception`. -/
  | other (text : String)
  | cancelled
  deriving DecidableEq

def Interruption.toError : Interruption → PyError
  | .timeout => .timeout
  | .request text => .request text
  | .other text => .other text
  | .cancelled => .cancelled

namespace PyError

/-- `isinstance(error, Exception)`. -/
def isException : PyError → Bool
  | .cancelled => false
  | _ => true

/-- `str(error)`. -/
def text : PyError → String
  | .upstream error => error.message
  | .schema error => error.message
  | .intake error => error.message
  | .retryableAttempt error _ _ => error.message
  | .mappedStatus error _ => error.message
  | .timeout => ""
  | .request text => text
  | .other text => text
  | .cancelled => ""

end PyError
end InternumCore
