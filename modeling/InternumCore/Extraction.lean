import InternumCore.ArchiveGate
import InternumCore.FileTree
import InternumCore.Service
import InternumCore.WorkerThread

/-!
# Extraction

`MarkItDownExtractor.extract` turns a stored upload into Markdown.  A PDF is looked
through page by page first (`preflightPdf`), and if its pages have their text in
them that text is the result.  A legacy Word document is first converted by
LibreOffice in a scratch directory of its own (`convertDocToDocx`).  All the rest is
left to MarkItDown.

What one run meets outside is a `Host`: which calls raise, what the PDF holds, how
LibreOffice ends and what it leaves in the scratch directory, what `shutil.rmtree`
cannot remove, what MarkItDown returns.  LibreOffice is given two directories, both in
the scratch directory, and writes nowhere else; MarkItDown only reads.

The conversion is a worker thread.  A task that is cancelled while it waits for it raises
at once, wherever the thread stands (`inThread`), and nobody gets its result; but the
thread goes on, and `stateLater` is what it has made of the state by then.

`extract` with its state in place of the world is an `extract` of
`DocumentParsingService`.
-/

namespace InternumCore

/-! ## Data -/

/-- The settings of `CoreSettings` that extraction reads, with their bounds. -/
structure ExtractionSettings where
  maxPdfPages : Nat := 200
  maxOcrPages : Nat := 25
  maxOcrRenderedPixels : Nat := 20000000
  libreofficeBinary : String := "soffice"
  docConversionTimeoutSeconds : ℚ := 30
  maxPdfPages_pos : 0 < maxPdfPages := by decide
  maxOcrRenderedPixels_pos : 0 < maxOcrRenderedPixels := by decide
  libreofficeBinary_ne : libreofficeBinary ≠ "" := by decide
  docConversionTimeoutSeconds_pos : 0 < docConversionTimeoutSeconds := by decide

/-- A page of a PDF.  The size is the one it is rendered at for OCR, which
`_enforce_ocr_pixel_budget` computes in floating point from `page.rect`. -/
structure PdfPage where
  rawText : String
  hasImage : Bool
  widthPixels : Nat
  heightPixels : Nat

/-- An open PDF.  Iterating over it yields `page_count` pages. -/
structure PdfDocument where
  isEncrypted : Bool := false
  needsPass : Bool := false
  pageCount : Nat
  pages : List PdfPage
  pages_length : pages.length = pageCount

/-- `PdfPreflightResult`. -/
structure PdfPreflightResult where
  pageCount : Nat
  nativeTextPages : Nat
  scanLikePages : Nat
  extractionMode : ExtractionMode
  nativeText : Option String
  deriving DecidableEq

/-- `ExtractionMode.value`. -/
def ExtractionMode.value : ExtractionMode → String
  | native => "native"
  | scan => "scan"
  | mixed => "mixed"
  | empty => "empty"

/-- `SupportedDocumentType.extension`. -/
def SupportedDocumentType.extension (documentType : SupportedDocumentType) : String :=
  "." ++ documentType.value

/-! ## The preflight of a PDF -/

/-- `_enforce_ocr_pixel_budget`. -/
def enforceOcrPixelBudget (settings : ExtractionSettings) (page : PdfPage) :
    Except IntakeError Unit :=
  let pixels := page.widthPixels * page.heightPixels
  if settings.maxOcrRenderedPixels < pixels then
    .error
      { message := "OCR page exceeds the configured pixel limit"
        code := "ocr_image_too_large"
        details := some (.obj [("width", .int page.widthPixels),
          ("height", .int page.heightPixels), ("maxPixels", .int settings.maxOcrRenderedPixels)]) }
  else .ok ()

/-- `has_native_text`. -/
def PdfPage.hasNativeText (page : PdfPage) : Bool := 20 ≤ (strip page.rawText).length

/-- What the loop over the pages has counted and collected. -/
structure PageTally where
  nativeTextPages : Nat := 0
  scanLikePages : Nat := 0
  emptyPages : Nat := 0
  pageTexts : List String := []

/-- The counters after one more page. -/
def countPage (settings : ExtractionSettings) (tally : PageTally) (page : PdfPage) :
    Except IntakeError PageTally :=
  if page.hasNativeText then .ok { tally with nativeTextPages := tally.nativeTextPages + 1 }
  else if page.hasImage then do
    enforceOcrPixelBudget settings page
    return { tally with scanLikePages := tally.scanLikePages + 1 }
  else .ok { tally with emptyPages := tally.emptyPages + 1 }

/-- One turn of the loop over the pages. -/
def tallyPage (settings : ExtractionSettings) (tally : PageTally) (page : PdfPage) :
    Except IntakeError PageTally := do
  let tally ← countPage settings tally page
  return { tally with pageTexts := tally.pageTexts ++ [page.rawText] }

/-- The mode of a document with these pages. -/
def PageTally.mode (tally : PageTally) (pageCount : Nat) : ExtractionMode :=
  if tally.nativeTextPages ≠ 0 ∧ tally.scanLikePages ≠ 0 then .mixed
  else if tally.scanLikePages ≠ 0 then .scan
  else if tally.nativeTextPages ≠ 0 then .native
  else if tally.emptyPages = pageCount then .empty
  else .native

/-- `_preflight_pdf`; `none` is a file that `fitz` cannot open. -/
def preflightPdf (settings : ExtractionSettings) (file : Option PdfDocument) :
    Except IntakeError PdfPreflightResult := do
  match file with
  | none => throw { message := "Unsupported file type", code := "unsupported_file_type" }
  | some document =>
    if document.isEncrypted || document.needsPass then
      throw { message := "Encrypted PDFs are not supported", code := "encrypted_pdf" }
    else if settings.maxPdfPages < document.pageCount then
      throw
        { message := "PDF exceeds the configured page limit"
          code := "pdf_page_limit_exceeded"
          details := some (.obj [("pageCount", .int document.pageCount),
            ("maxPdfPages", .int settings.maxPdfPages)]) }
    else
      let tally ← document.pages.foldlM (tallyPage settings) {}
      if settings.maxOcrPages < tally.scanLikePages then
        throw
          { message := "PDF exceeds the configured OCR page limit"
            code := "ocr_page_limit_exceeded"
            details := some (.obj [("ocrPageCount", .int tally.scanLikePages),
              ("maxOcrPages", .int settings.maxOcrPages)]) }
      else
        let mode := tally.mode document.pageCount
        return {
          pageCount := document.pageCount
          nativeTextPages := tally.nativeTextPages
          scanLikePages := tally.scanLikePages
          extractionMode := mode
          nativeText :=
            if mode = .native then some (joinLines tally.pageTexts) else none }

/-! ## What a run meets -/

abbrev DiskPath := List String

abbrev Disk := FileTree String (List UInt8)

/-- How `subprocess.run` ends. -/
inductive SubprocessOutcome where
  | completed (returncode : Int)
  | timeoutExpired
  | fileNotFound
  /-- Any other `OSError`. -/
  | osError
  /-- Any other exception. -/
  | raises (error : PyError)

/-- When a task is cancelled that waits for a worker thread: before there is a thread for
its call, or when the thread has changed the state so often. -/
inductive Cancellation where
  | unstarted
  | after (steps : ℕ)

/-- What one run of `extract` meets outside.  The fields that end in `Error` are
what a call raises, if it does. -/
structure Host where
  /-- Where the temporary file of this name lies. -/
  pathOf : Nat → DiskPath
  /-- `fitz.open`. -/
  pdf : Option PdfDocument := none
  resolveError : Option String := none
  /-- `candidate.exists() and candidate.is_file() and os.access(candidate, os.X_OK)`. -/
  isExecutable : String → Bool
  which : String → Option String
  /-- `tempfile.gettempdir()`. -/
  tempDir : DiskPath
  /-- The random names `mkdtemp` tries. -/
  candidates : List String
  tempError : Option String := none
  outputDirError : Option String := none
  profileDirError : Option String := none
  readError : Option String := none
  writeError : Option String := none
  /-- What a write that raises leaves of the copy. -/
  partialCopy : Option (List UInt8) := none
  /-- `profile_dir.resolve().as_uri()`. -/
  profileError : Option String := none
  libreOffice : SubprocessOutcome
  /-- What then lies below the scratch directory. -/
  leftBehind : Disk
  existsError : Option String := none
  /-- What `shutil.rmtree` leaves below the scratch directory, where it cannot remove
  it. -/
  unremoved : Option Disk := none
  /-- The task is cancelled while it waits for the conversion. -/
  cancelled : Option Cancellation := none
  /-- `convert_local`, with the `text_content` of its result where that is a string. -/
  convertLocal : Except PyError (Option String)

/-- The events of extraction, each with its fields. -/
inductive ExtractionEvent where
  | preflightRejected (errorCode : String) (pageCount : Option Json)
  | preflightPassed (pageCount nativeTextPages scanLikePages : Nat) (extractionMode : String)
  | pdfExtract (extension : String) (markdownLength : Nat)
  | pdfExtractOutput (markdown : String)
  | docConvert (returnCode : Option Int) (timedOut failed : Bool)
  | markitdownFailed (extension : String)
  | markitdownEmpty (extension : String) (markdownLength : Nat)
  | markitdownSucceeded (extension : String) (markdownLength : Nat)
  | markitdownOutput (markdown : String)
  deriving DecidableEq

/-- What a run has done so far. -/
structure ExtractionState where
  disk : Disk
  log : List ExtractionEvent := []
  /-- The directories `mkdtemp` has made. -/
  scratch : List DiskPath := []
  /-- The files MarkItDown was called with, and their extensions. -/
  conversions : List (DiskPath × String) := []

/-- A step of `extract`. -/
abbrev Extraction (α : Type) := Program ExtractionState PyError α

/-- The text of a function that `extract` has run in a worker thread. -/
abbrev Threaded (α : Type) := Thread ExtractionState PyError α

/-- The state after one more event. -/
def recorded (event : ExtractionEvent) (s : ExtractionState) : ExtractionState :=
  { s with log := s.log ++ [event] }

/-- `log_event`. -/
def logExtraction (event : ExtractionEvent) : Extraction Unit :=
  Program.step fun s => ((), recorded event s)

/-! ## The disk -/

/-- Raises what a call is said to raise. -/
def orRaise : Option String → Threaded Unit
  | some text => .raise (.other text)
  | none => return ()

/-- A call that changes the disk, or raises where it cannot. -/
def changeDisk (change : Disk → Option Disk) : Threaded Unit :=
  .look fun s =>
    match change s.disk with
    | some disk => .act fun s => { s with disk := disk }
    | none => .raise (.other "OSError")

/-- `(path / name).mkdir()`. -/
def makeDirectory (error : Option String) (path : DiskPath) (name : String) : Threaded Unit := do
  orRaise error
  changeDisk (·.mkdir path name)

/-- The contents of the file at a path. -/
def contentsAt (path : DiskPath) : Threaded (List UInt8) :=
  .look fun s =>
    match s.disk.entry path with
    | some (.file bytes) => return bytes
    | _ => .raise (.other "OSError")

/-- `path.read_bytes()`. -/
def readBytes (host : Host) (path : DiskPath) : Threaded (List UInt8) := do
  orRaise host.readError
  contentsAt path

/-- `(path / name).write_bytes(bytes)`. -/
def writeBytes (host : Host) (path : DiskPath) (name : String) (bytes : List UInt8) :
    Threaded Unit :=
  match host.writeError, host.partialCopy with
  | none, _ => changeDisk (·.write path name bytes)
  | some text, none => .raise (.other text)
  | some text, some copied => do
    changeDisk (·.write path name copied)
    .raise (.other text)

/-- The start of the names of scratch directories. -/
def scratchStart : String := "internum-doc-convert-"

/-- What `mkdtemp` does to the disk: the first name that is not taken. -/
def makeScratch (host : Host) (disk : Disk) : Option (DiskPath × Disk) :=
  host.candidates.findSome? fun candidate =>
    (disk.mkdir host.tempDir (scratchStart ++ candidate)).map
      (host.tempDir ++ [scratchStart ++ candidate], ·)

/-- Makes the scratch directory at the first name that is not taken. -/
def takeScratch (host : Host) : Threaded DiskPath :=
  .look fun s =>
    match makeScratch host s.disk with
    | some (root, disk) => do
      .act fun s => { s with disk := disk, scratch := s.scratch ++ [root] }
      return root
    | none => .raise (.other "No usable temporary directory name found")

/-- `tempfile.mkdtemp(..)`. -/
def mkdtemp (host : Host) : Threaded DiskPath := do
  orRaise host.tempError
  takeScratch host

/-- The state after `shutil.rmtree(path, ignore_errors=True)`, which says nothing where
it cannot remove everything. -/
def removed (host : Host) (path : DiskPath) (s : ExtractionState) : ExtractionState :=
  if s.disk.entry path = some .directory then
    { s with
      disk :=
        match host.unremoved with
        | none => s.disk.removeTree path
        | some rest => s.disk.fill path rest }
  else s

/-- What lies at a path. -/
def entryAt (path : DiskPath) : Extraction (Option (Entry (List UInt8))) :=
  Program.step fun s => (s.disk.entry path, s)

/-- `path.unlink(missing_ok=True)`. -/
def unlinkPath (path : DiskPath) : Extraction Unit := do
  match ← entryAt path with
  | some .directory => throw (.other "OSError")
  | some (.file _) => Program.step fun s => ((), { s with disk := s.disk.removeTree path })
  | none => return ()

/-- `path.exists()`. -/
def pathExists (host : Host) (path : DiskPath) : Threaded Bool := do
  orRaise host.existsError
  .look fun s => return (s.disk.entry path).isSome

/-! ## The conversion of a legacy Word document -/

/-- `str(path)`. -/
def PurePosixPath.text (path : PurePosixPath) : String :=
  if path.root = [] ∧ path.tail = [] then "."
  else String.ofList (path.root ++ LineSplit.join '/' path.tail)

/-- `_resolve_executable`. -/
def resolveExecutable (host : Host) (binary : String) : Except PyError (Option String) :=
  let candidate := PurePosixPath.ofName binary
  if candidate.isAbsolute || binary.toList.contains '/' then
    match host.resolveError with
    | some text => .error (.other text)
    | none => .ok (if host.isExecutable candidate.text then some candidate.text else none)
  else .ok (host.which binary)

/-- `_log_doc_conversion`. -/
def logDocConversion (returnCode : Option Int) (timedOut failed : Bool) : Threaded Unit :=
  .act (recorded (.docConvert returnCode timedOut failed))

/-- What each handler of the conversion does before it raises its error. -/
def giveUp {α : Type} (host : Host) (root : DiskPath) (returnCode : Option Int) (timedOut : Bool)
    (error : IntakeError) : Threaded α := do
  .act (removed host root)
  logDocConversion returnCode timedOut true
  .raise (.intake error)

/-- `returncode != 0 or not path.exists()`. -/
def conversionFailed (host : Host) (returncode : Int) (path : DiskPath) : Threaded Bool := do
  if returncode ≠ 0 then return true
  else return !(← pathExists host path)

/-- `_convert_doc_to_docx` between `mkdtemp` and the call of LibreOffice. -/
def prepareCopy (host : Host) (path root : DiskPath) : Threaded Unit := do
  makeDirectory host.outputDirError root "out"
  makeDirectory host.profileDirError root "profile"
  let bytes ← readBytes host path
  writeBytes host root "input.doc" bytes
  orRaise host.profileError

/-- `_convert_doc_to_docx` when `subprocess.run` is through. -/
def takeConverted (settings : ExtractionSettings) (host : Host) (root : DiskPath) :
    Threaded DiskPath := do
  let unavailable : IntakeError :=
    { message := "DOC converter is unavailable", code := "doc_converter_unavailable" }
  match host.libreOffice with
  | .timeoutExpired =>
    giveUp host root none true
      { message := "DOC conversion timed out"
        code := "doc_conversion_timeout"
        details := some (.obj
          [("timeoutSeconds", .float (.finite settings.docConversionTimeoutSeconds))]) }
  | .fileNotFound => giveUp host root none false unavailable
  | .osError => giveUp host root none false unavailable
  | .raises error => .raise error
  | .completed returncode =>
    let convertedPath := root ++ ["out", "input.docx"]
    if ← conversionFailed host returncode convertedPath then
      giveUp host root (some returncode) false
        { message := "DOC conversion failed"
          code := "doc_conversion_failed"
          details := some (.obj [("returnCode", .int returncode)]) }
    else
      logDocConversion (some returncode) false false
      return convertedPath

/-- `_convert_doc_to_docx` from the call of LibreOffice on. -/
def convertCopy (settings : ExtractionSettings) (host : Host) (root : DiskPath) :
    Threaded DiskPath := do
  .act fun s => { s with disk := s.disk.fill root host.leftBehind }
  takeConverted settings host root

/-- `_convert_doc_to_docx`. -/
def convertDocToDocx (settings : ExtractionSettings) (host : Host) (path : DiskPath) :
    Threaded DiskPath := do
  match ← Thread.ended (resolveExecutable host settings.libreofficeBinary) with
  | none =>
    logDocConversion none false true
    .raise (.intake
      { message := "DOC converter is unavailable"
        code := "doc_converter_unavailable"
        details := some (.obj [("binary", .str settings.libreofficeBinary)]) })
  | some _ =>
    let root ← mkdtemp host
    prepareCopy host path root
    convertCopy settings host root

/-- `_cleanup_conversion_path`. -/
def cleanupConversionPath (host : Host) (path : DiskPath) : Extraction Unit :=
  match (FileTree.parents path).find? fun parent => startsWith (parent.getLast?.getD "") scratchStart with
  | some parent => Program.step fun s => ((), removed host parent s)
  | none => unlinkPath path

/-! ## `extract` -/

/-- `MarkItDownExtractor`, in one run. -/
structure MarkItDownExtractor where
  settings : ExtractionSettings
  host : Host

/-- `_metadata_for`. -/
def metadataFor (documentType : SupportedDocumentType) (preflight : Option PdfPreflightResult)
    (converter : String) : ParseMetadata where
  documentType := documentType
  extractionMode := preflight.map (·.extractionMode)
  pageCount := preflight.map (·.pageCount)
  ocrPageCount := preflight.map (·.scanLikePages)
  converter := some converter

/-- `exc.details.get("pageCount")`, where the details are a dictionary. -/
def IntakeError.pageCount (error : IntakeError) : Option Json :=
  error.details.bind (·.get? "pageCount")

/-- The call of MarkItDown, in its `try` with `except` and `finally`. -/
def callMarkItDown (host : Host) (documentType : SupportedDocumentType)
    (uploadPath sourcePath : DiskPath) (extension : String) : Extraction (Option String) := do
  let conversion : Extraction (Option String) := do
    Program.step fun s =>
      ((), { s with conversions := s.conversions ++ [(sourcePath, extension)] })
    match host.convertLocal with
    | .ok textContent => return textContent
    | .error error =>
      if error.isException then
        logExtraction (.markitdownFailed extension)
        throw (.intake
          { message := "Document could not be converted to Markdown"
            code := "document_conversion_failed"
            details := some (.obj [("documentType", .str documentType.value)]) })
      else throw error
  Program.ensure conversion
    (if sourcePath ≠ uploadPath then cleanupConversionPath host sourcePath else return ())

/-- The second half of `extract`: MarkItDown reads `sourcePath`. -/
def convertToMarkdown (host : Host) (documentType : SupportedDocumentType)
    (preflight : Option PdfPreflightResult) (uploadPath sourcePath : DiskPath)
    (extension : String) : Extraction Extracted := do
  let textContent ← callMarkItDown host documentType uploadPath sourcePath extension
  match textContent.filter (strip · ≠ "") with
  | none =>
    logExtraction (.markitdownEmpty extension ((textContent.map String.length).getD 0))
    throw (.intake
      { message := "Document conversion produced no Markdown content"
        code := "document_conversion_failed"
        details := some (.obj [("documentType", .str documentType.value)]) })
  | some markdown =>
    logExtraction (.markitdownSucceeded extension markdown.length)
    logExtraction (.markitdownOutput markdown)
    return .document markdown (metadataFor documentType preflight "markitdown")

/-- `await run_in_threadpool(..)`.  A task that is cancelled meanwhile raises where the
thread then stands, and nobody gets the result of the thread. -/
def inThread {α : Type} (cancelled : Option Cancellation) (t : Threaded α) : Extraction α :=
  match cancelled with
  | none => t.awaited
  | some .unstarted => throw .cancelled
  | some (.after steps) => do
    Program.step fun s => ((), (t.after steps s).2)
    throw .cancelled

/-- `MarkItDownExtractor.extract`. -/
def MarkItDownExtractor.extract (self : MarkItDownExtractor) (upload : StoredUpload) :
    Extraction Extracted := do
  let uploadPath := self.host.pathOf upload.path
  let extension := upload.documentType.extension
  match upload.documentType with
  | .pdf =>
    match preflightPdf self.settings self.host.pdf with
    | .error error =>
      logExtraction (.preflightRejected error.code error.pageCount)
      throw (.intake error)
    | .ok preflight =>
      logExtraction (.preflightPassed preflight.pageCount preflight.nativeTextPages
        preflight.scanLikePages preflight.extractionMode.value)
      match preflight.nativeText.filter
          fun text => preflight.extractionMode = .native ∧ text ≠ "" ∧ strip text ≠ "" with
      | some nativeText =>
        logExtraction (.pdfExtract extension nativeText.length)
        logExtraction (.pdfExtractOutput nativeText)
        return .document nativeText (metadataFor upload.documentType (some preflight) "pymupdf")
      | none =>
        convertToMarkdown self.host upload.documentType (some preflight) uploadPath uploadPath
          extension
  | .doc =>
    let sourcePath ← inThread self.host.cancelled
      (convertDocToDocx self.settings self.host uploadPath)
    convertToMarkdown self.host upload.documentType none uploadPath sourcePath
      SupportedDocumentType.docx.extension
  | _ =>
    convertToMarkdown self.host upload.documentType none uploadPath uploadPath extension

/-- The state when `extract` is through and a thread that it has left behind has made so
many more changes. -/
def MarkItDownExtractor.stateLater (self : MarkItDownExtractor) (upload : StoredUpload)
    (further : ℕ) (s : ExtractionState) : ExtractionState :=
  match upload.documentType, self.host.cancelled with
  | .doc, some (.after steps) =>
    let left :=
      (convertDocToDocx self.settings self.host (self.host.pathOf upload.path)).after steps s
    (left.1.after further left.2).2
  | _, _ => ((self.extract upload).outcome s).2

end InternumCore
