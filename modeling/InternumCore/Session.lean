import InternumCore.Errors
import InternumCore.Program

/-!
# The session of a request

Everything a request leaves behind: the events it logs, the usage it records,
the temporary files on disk, and the world it talks to.  The world is a type of
its own with whatever state the upstream, the clock and the disk have; a function
of the world stands for one call out, and a theorem about every such function is
a theorem about every behaviour of the outside.

`attempts` is a history variable: the HTTP attempts made so far, with the world
each was started in and what came of it.  No function reads it.

Durations are left out of the events, and so is what an extractor logs: to the service
an extractor is a function of the file and the world.
-/

namespace InternumCore

/-- `structured_mode`. -/
inductive StructuredMode where
  | native
  | fallback
  deriving DecidableEq

/-- The level of a log event. -/
inductive Level where
  | debug
  | info
  | warning
  | error
  deriving DecidableEq

/-- `UsageRecord`. -/
structure UsageRecord where
  provider : String
  model : String
  promptTokens : Int
  completionTokens : Int
  totalTokens : Int
  costUsd : Option ℚ
  capability : String
  consumerId : Option String
  requestId : Option String
  deriving DecidableEq

/-- The events of `log_event`, each with its fields. -/
inductive LogEvent where
  | modelRequest (model : String) (mode : StructuredMode) (attempt : Int)
      (requestId : Option String)
  | modelRetry (reason : String) (attempt : Int) (statusCode : Option Nat) (model : Option String)
      (requestId : Option String)
  | modelSucceeded (attempt : Int) (mode : StructuredMode) (model : String)
      (provider : Option String) (promptTokens completionTokens totalTokens : Int)
      (costUsd : Option ℚ) (requestId : Option String)
  | modelFailed (errorCode : String) (attempt : Int) (mode : StructuredMode) (model : String)
      (statusCode : Option Nat) (requestId : Option String)
  | usageRecorded (record : UsageRecord)
  | schemaValidation (passed repairApplied validationRetryTriggered : Bool)
  | schemaValues (values : Json)
  | schemaPostcheck (op : String) (passed : Bool) (detail : Json) (requestId : Option String)
  | chunkPlan (totalRows chunkCount rowsPerChunk : Nat) (requestId : Option String)
  | chunkRequest (index : Nat) (requestId : Option String)
  | chunkSucceeded (index rowCount : Nat) (requestId : Option String)
  | chunkFailed (index : Nat) (requestId : Option String)
  | chunkPartial (failedChunks : List Nat) (requestId : Option String)
  | intakeStored (documentType : String) (sizeBytes : Nat) (declared detected : Option String)
  | intakeRejected (code documentType : String)
  deriving DecidableEq

/-- The level an event is logged at. -/
def LogEvent.level : LogEvent → Level
  | .modelRequest .. => .info
  | .modelRetry .. => .warning
  | .modelSucceeded .. => .info
  | .modelFailed .. => .warning
  | .usageRecorded .. => .info
  | .schemaValidation passed _ _ => if passed then .info else .warning
  | .schemaValues _ => .debug
  | .schemaPostcheck _ passed _ _ => if passed then .info else .warning
  | .chunkPlan .. => .info
  | .chunkRequest .. => .info
  | .chunkSucceeded .. => .info
  | .chunkFailed .. => .warning
  | .chunkPartial .. => .warning
  | .intakeStored .. => .info
  | .intakeRejected .. => .warning

/-- `OpenRouterRequest`, without the images this service never sends. -/
structure OpenRouterRequest where
  model : String
  systemPrompt : String
  userContent : String
  schema : Json
  capability : String
  models : Option (List String) := none
  consumerId : Option String := none
  requestId : Option String := none
  validationRetryPrompt : Option String := none
  attempt : Int := 1
  reasoningEffort : Option String := none
  temperature : Option ℚ := none
  maxOutputTokens : Option Nat := none
  cacheControl : Bool := false
  deriving DecidableEq

/-- A request for any object, with every default. -/
def plainRequest : OpenRouterRequest where
  model := "default"
  systemPrompt := "prompt"
  userContent := ""
  schema := .obj [("type", .str "object")]
  capability := "document_parsing"

/-- `OpenRouterResult`. -/
structure OpenRouterResult where
  content : String
  model : String
  provider : Option String
  promptTokens : Int
  completionTokens : Int
  totalTokens : Int
  costUsd : Option ℚ
  attempt : Int := 1
  deriving DecidableEq

/-- One HTTP attempt. -/
structure Attempt (ω : Type) where
  request : OpenRouterRequest
  mode : StructuredMode
  number : Int
  timeout : ℚ
  startedIn : ω
  outcome : Except PyError OpenRouterResult

/-- A temporary file: its name, its suffix and its bytes. -/
structure TempFile where
  name : Nat
  suffix : String
  contents : List UInt8
  deriving DecidableEq

/-- What a request has done so far. -/
structure Session (ω : Type) where
  world : ω
  log : List LogEvent := []
  records : List UsageRecord := []
  attempts : List (Attempt ω) := []
  /-- The temporary files on disk. -/
  files : List TempFile := []
  /-- The name the next temporary file gets. -/
  nextFile : Nat := 0

/-- A method of the service. -/
abbrev Method (ω α : Type) := Program (Session ω) PyError α

section Steps

variable {ω α : Type}

/-- A call out. -/
def callWorld (f : ω → α × ω) : Method ω α :=
  Program.step fun s => ((f s.world).1, { s with world := (f s.world).2 })

/-- `log_event`. -/
def logEvent (event : LogEvent) : Method ω Unit :=
  Program.step fun s => ((), { s with log := s.log ++ [event] })

/-- `UsageTracker.record`. -/
def recordUsage (record : UsageRecord) : Method ω Unit :=
  Program.step fun s => ((), { s with records := s.records ++ [record] })

end Steps

end InternumCore
