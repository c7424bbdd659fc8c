import InternumCore.Dict
import InternumCore.Json
import InternumCore.LineSplit
import InternumCore.PyText
import InternumCore.TableScan
import InternumCore.Blocks
import InternumCore.ChunkPlan
import InternumCore.BoundaryJoin
import InternumCore.ChunkMerge
import InternumCore.Errors
import InternumCore.Program
import InternumCore.Coroutine
import InternumCore.BoundedGather
import InternumCore.Validator
import InternumCore.SchemaSplit
import InternumCore.Settings
import InternumCore.Session
import InternumCore.Libraries
import InternumCore.Streaming
import InternumCore.Client
import InternumCore.Attempts
import InternumCore.TimeBudget
import InternumCore.StoredUpload
import InternumCore.Postprocess
import InternumCore.NormalizeAccepts
import InternumCore.PostChecks
import InternumCore.CheckReadings
import InternumCore.ValidatedCompletion
import InternumCore.Service
import InternumCore.Billing
import InternumCore.Conformance
import InternumCore.Auth
import InternumCore.StreamNoise
import InternumCore.AdjacentBoundary
import InternumCore.Ranges
import InternumCore.PartialFailure
import InternumCore.ChunkScheduling
import InternumCore.ModelSchema
import InternumCore.ModelAccepts
import InternumCore.NullableFields
import InternumCore.LogSecrecy
import InternumCore.ArchiveGate
import InternumCore.CheckOutcomes
import InternumCore.JsonPointer
import InternumCore.PointerResolution
import InternumCore.NormalizeFrame
import InternumCore.DateNormalization
import InternumCore.NormalizeIdempotent
import InternumCore.ModelFrame
import InternumCore.FileTree
import InternumCore.Extraction
import InternumCore.PdfPreflight
import InternumCore.ScratchDirectory
import InternumCore.DominantTable
import InternumCore.PlanLines
import InternumCore.ModelChain
import InternumCore.JsonRoundTrip
import InternumCore.Logging
import InternumCore.Payload
import InternumCore.CompletionStream
import InternumCore.DisconnectSupervisor
import InternumCore.UploadIntegrity
import InternumCore.MultipartIntake
import InternumCore.Attribution
import InternumCore.RequestPipeline
import InternumCore.ServerHistory
import InternumCore.Submission
