import InternumCore.Attempts

/-!
# The uploaded file on disk

`storedUpload` copies an upload into a temporary file, checks its type, runs the
body of the `async with` block on it, and removes it.  Two handlers share the
removal: `streamToTemp` owns the file until it returns, `storedUpload` from then
on.

What the awaited reads give is a script, one entry for each turn of the reading
loop, since the loop can only go on while the limit lasts.  The type check, the
image check and the body are calls out that see the files on disk.

A file stays behind in two cases (`LeavesFile`, `storedUpload_files`): a read is
cancelled, which `except Exception` does not catch, or `upload.close()` raises
before the removal.
-/

namespace InternumCore

/-- `SupportedDocumentType`. -/
inductive SupportedDocumentType where
  | pdf
  | docx
  | doc
  | html
  | xlsx
  | xls
  | jpeg
  | png
  deriving DecidableEq

def SupportedDocumentType.value : SupportedDocumentType → String
  | pdf => "pdf"
  | docx => "docx"
  | doc => "doc"
  | html => "html"
  | xlsx => "xlsx"
  | xls => "xls"
  | jpeg => "jpg"
  | png => "png"

/-- One turn of the reading loop: what `upload.read` gives, and what writing it to
the file raises. -/
inductive ReadTurn where
  | chunk (bytes : List UInt8) (writeError : Option String)
  | raises (interruption : Interruption)

/-- `UploadFile`.  After the turns of `reads` comes the end of the data. -/
structure UploadFile where
  filename : Option String
  contentType : Option String
  reads : List ReadTurn
  /-- What `close()` raises. -/
  closeRaises : Option Interruption := none

/-- What creating a temporary file and closing it raise. -/
structure TempStorage where
  createRaises : Option String := none
  flushRaises : Option String := none

/-- `StoredUpload`; the path is the name of the temporary file. -/
structure StoredUpload where
  path : Nat
  documentType : SupportedDocumentType
  sizeBytes : Nat
  originalFilename : Option String
  detectedMime : Option String

/-- The checks of a stored file.  They read the files on disk. -/
structure Intake (ω : Type) where
  storage : TempStorage := {}
  detectDocumentType : CoreSettings → Nat → List TempFile → ω →
    Except PyError (SupportedDocumentType × Option String) × ω
  validateImageDimensions : CoreSettings → Nat → List TempFile → ω → Except PyError Unit × ω

/-! ## Names -/

/-- `Path(filename).name`. -/
def pathName (filename : String) : List Char :=
  ((filename.toList.splitOn '/').filter (· ∉ [[], ['.']])).getLast?.getD []

/-- `Path(filename).suffix`. -/
def pathSuffix (filename : String) : String :=
  let name := pathName filename
  let extension := (name.reverse.takeWhile (· ≠ '.')).reverse
  if extension ≠ [] ∧ extension.length + 1 < name.length then String.ofList ('.' :: extension)
  else ""

/-- `_safe_suffix`. -/
def safeSuffix : Option String → String
  | none => ""
  | some filename =>
    let suffix := lowerAscii (pathSuffix filename)
    if suffix ∈ [".pdf", ".docx", ".doc", ".html", ".htm", ".xlsx", ".xls", ".jpg", ".jpeg", ".png"]
    then suffix else ""

section Files

variable {ω α : Type}

/-! ## Files -/

/-- A call out that sees the files on disk and may raise. -/
def callDisk (f : List TempFile → ω → Except PyError α × ω) : Method ω α := do
  let outcome ← Program.step fun s => ((f s.files s.world).1, { s with world := (f s.files s.world).2 })
  Program.ofExcept outcome

/-- Raises what a call is said to raise. -/
def raising : Option Interruption → Method ω Unit
  | some interruption => throw interruption.toError
  | none => return ()

/-- `NamedTemporaryFile(..)`. -/
def createTemp (suffix : String) : Method ω Nat :=
  Program.step fun s => (s.nextFile,
    { s with files := s.files ++ [⟨s.nextFile, suffix, []⟩], nextFile := s.nextFile + 1 })

/-- `temp.write(chunk)`. -/
def writeTemp (path : Nat) (bytes : List UInt8) : Method ω Unit :=
  Program.step fun s => ((), { s with
    files := s.files.map fun file =>
      if file.name = path then { file with contents := file.contents ++ bytes } else file })

/-- `path.unlink(missing_ok=True)`. -/
def unlink (path : Nat) : Method ω Unit :=
  Program.step fun s => ((), { s with files := s.files.filter (·.name ≠ path) })

/-- The reading loop of `_stream_to_temp`. -/
def readAll (path maxUploadBytes : Nat) : List ReadTurn → Nat → Method ω Nat
  | [], sizeBytes => return sizeBytes
  | .raises interruption :: _, _ => throw interruption.toError
  | .chunk bytes writeError :: rest, sizeBytes =>
    if bytes = [] then return sizeBytes
    else if maxUploadBytes < sizeBytes + bytes.length then
      throw (.intake
        { message := "Uploaded file exceeds the configured size limit"
          details := some (.obj [("maxUploadBytes", .int maxUploadBytes)]) })
    else
      match writeError with
      | some text => throw (.other text)
      | none => do
        writeTemp path bytes
        readAll path maxUploadBytes rest (sizeBytes + bytes.length)

/-- `_stream_to_temp`. -/
def streamToTemp (storage : TempStorage) (upload : UploadFile) (maxUploadBytes : Nat) :
    Method ω (Nat × Nat) := do
  let suffix := safeSuffix upload.filename
  match storage.createRaises with
  | some text => throw (.other text)
  | none =>
    let path ← createTemp suffix
    -- the end of the `with` block closes the file, and what that raises goes first
    let close := raising (storage.flushRaises.map .other)
    match ← Program.capture (Program.ensure (readAll path maxUploadBytes upload.reads 0) close) with
    | .error error =>
      if error.isException then
        unlink path
        throw error
      else throw error
    | .ok sizeBytes =>
      if sizeBytes = 0 then
        unlink path
        throw (.intake { message := "Uploaded file is empty" })
      else return (path, sizeBytes)

/-- `_log_intake_rejection`. -/
def logIntakeRejection (error : IntakeError) (documentType : String) : Method ω IntakeError := do
  if error.intakeEventLogged then return error
  else
    logEvent (.intakeRejected error.code documentType)
    return { error with intakeEventLogged := true }

/-- The `except IntakeError` clause of `stored_upload`. -/
def rejecting (documentType : String) (p : Method ω α) : Method ω α := do
  match ← Program.capture p with
  | .error (.intake error) =>
    let error ← logIntakeRejection error documentType
    throw (.intake error)
  | .error error => throw error
  | .ok a => return a

/-- Images have their size checked. -/
def checkImage (intake : Intake ω) (settings : CoreSettings) (path : Nat)
    (documentType : SupportedDocumentType) : Method ω Unit :=
  if documentType = .jpeg ∨ documentType = .png then
    callDisk (intake.validateImageDimensions settings path)
  else return ()

/-- The `try` block of `stored_upload` once the file is stored. -/
def inspectAndRun (intake : Intake ω) (settings : CoreSettings) (upload : UploadFile)
    (path sizeBytes : Nat) (body : StoredUpload → List TempFile → ω → Except PyError α × ω) :
    Method ω α := do
  match ← Program.capture (callDisk (intake.detectDocumentType settings path)) with
  | .error error => rejecting "unknown" (throw error)
  | .ok (documentType, detectedMime) =>
    rejecting documentType.value do
      checkImage intake settings path documentType
      logEvent (.intakeStored documentType.value sizeBytes upload.contentType detectedMime)
      callDisk (body ⟨path, documentType, sizeBytes, upload.filename, detectedMime⟩)

/-- `async with stored_upload(upload, ..) as stored: body(stored)`. -/
def storedUpload (intake : Intake ω) (settings : CoreSettings) (upload : UploadFile)
    (body : StoredUpload → List TempFile → ω → Except PyError α × ω) : Method ω α := do
  match ← Program.capture (streamToTemp intake.storage upload settings.maxUploadBytes) with
  | .error error =>
    -- `temp_path` is still `None`
    Program.ensure (rejecting "unknown" (throw error)) (raising upload.closeRaises)
  | .ok (path, sizeBytes) =>
    Program.ensure (inspectAndRun intake settings upload path sizeBytes body) do
      raising upload.closeRaises
      unlink path

/-! ## Where the reading loop ends -/

/-- The data ends here. -/
def AtEnd : List ReadTurn → Prop
  | [] => True
  | .chunk bytes _ :: _ => bytes = []
  | .raises _ :: _ => False

/-- The next read is cancelled. -/
def AtCancellation : List ReadTurn → Prop
  | .raises .cancelled :: _ => True
  | _ => False

/-- The loop gets to a turn from which `P` holds: every chunk before it has data,
fits the limit and is written. -/
inductive Reaches (maxUploadBytes : Nat) (P : List ReadTurn → Prop) : Nat → List ReadTurn → Prop
  | here {sizeBytes : Nat} {reads : List ReadTurn} : P reads → Reaches maxUploadBytes P sizeBytes reads
  | chunk {sizeBytes : Nat} {bytes : List UInt8} {rest : List ReadTurn} : bytes ≠ [] →
      sizeBytes + bytes.length ≤ maxUploadBytes →
      Reaches maxUploadBytes P (sizeBytes + bytes.length) rest →
      Reaches maxUploadBytes P sizeBytes (.chunk bytes none :: rest)

/-- The whole upload, some data within the limit, gets onto the disk. -/
structure Stores (storage : TempStorage) (upload : UploadFile) (maxUploadBytes : Nat) : Prop where
  created : storage.createRaises = none
  flushed : storage.flushRaises = none
  complete : Reaches maxUploadBytes AtEnd 0 upload.reads
  some_data : ¬AtEnd upload.reads

/-- A read is cancelled while the file is open, and closing it raises nothing. -/
structure CancelledReading (storage : TempStorage) (upload : UploadFile) (maxUploadBytes : Nat) :
    Prop where
  created : storage.createRaises = none
  flushed : storage.flushRaises = none
  cancelled : Reaches maxUploadBytes AtCancellation 0 upload.reads

/-- The uploads whose temporary file stays behind. -/
def LeavesFile (storage : TempStorage) (upload : UploadFile) (maxUploadBytes : Nat) : Prop :=
  CancelledReading storage upload maxUploadBytes ∨
    Stores storage upload maxUploadBytes ∧ upload.closeRaises ≠ none

section Ends

variable {maxUploadBytes sizeBytes : Nat} {P : List ReadTurn → Prop}

@[simp] theorem reaches_nil : Reaches maxUploadBytes P sizeBytes [] ↔ P [] := by
  constructor
  · intro hr
    obtain ⟨h⟩ := hr
    exact h
  · exact .here

@[simp] theorem reaches_raises {interruption : Interruption} {rest : List ReadTurn} :
    Reaches maxUploadBytes P sizeBytes (.raises interruption :: rest) ↔
      P (.raises interruption :: rest) := by
  constructor
  · intro hr
    obtain ⟨h⟩ := hr
    exact h
  · exact .here

theorem reaches_chunk {bytes : List UInt8} {writeError : Option String} {rest : List ReadTurn} :
    Reaches maxUploadBytes P sizeBytes (.chunk bytes writeError :: rest) ↔
      P (.chunk bytes writeError :: rest) ∨ bytes ≠ [] ∧ writeError = none ∧
        sizeBytes + bytes.length ≤ maxUploadBytes ∧
        Reaches maxUploadBytes P (sizeBytes + bytes.length) rest := by
  constructor
  · rintro (h | ⟨hb, hs, h⟩)
    · exact Or.inl h
    · exact Or.inr ⟨hb, rfl, hs, h⟩
  · rintro (h | ⟨hb, rfl, hs, h⟩)
    · exact .here h
    · exact .chunk hb hs h

end Ends

/-! ## What each step does to the files -/

/-- No file on disk has the name the next one gets. -/
def Session.Fresh (s : Session ω) : Prop := ∀ file ∈ s.files, file.name < s.nextFile

/-- Besides given files there is one more, under a given name. -/
def OneMore (files : List TempFile) (path : Nat) (s : Session ω) : Prop :=
  ∃ file : TempFile, file.name = path ∧ s.files = files ++ [file]

section Steps

variable {files : List TempFile} {path : Nat} {s s' : Session ω}

theorem OneMore.congr (h : OneMore files path s) (hf : s'.files = s.files) :
    OneMore files path s' := by
  obtain ⟨file, hn, hs⟩ := h
  exact ⟨file, hn, hf.trans hs⟩

theorem writeTemp_files {bytes : List UInt8} (hpath : ∀ file ∈ files, file.name ≠ path)
    (h : OneMore files path s) {R : PyError → Session ω → Prop} :
    (writeTemp path bytes).Triple s (fun _ s' => OneMore files path s') R := by
  obtain ⟨file, rfl, hs⟩ := h
  refine .step ⟨{ file with contents := file.contents ++ bytes }, rfl, ?_⟩
  have hold : files.map (fun f => if f.name = file.name then
      { f with contents := f.contents ++ bytes } else f) = files := by
    rw [List.map_congr_left fun f hf => if_neg (hpath f hf)]
    exact List.map_id files
  simpa [hs] using hold

theorem unlink_files (hpath : ∀ file ∈ files, file.name ≠ path) (h : OneMore files path s)
    {R : PyError → Session ω → Prop} :
    (unlink path).Triple s (fun _ s' => s'.files = files) R := by
  obtain ⟨file, rfl, hs⟩ := h
  have hold : files.filter (fun f => decide (f.name ≠ file.name)) = files :=
    List.filter_eq_self.mpr fun f hf => by simpa using hpath f hf
  refine .step ?_
  simpa [hs, List.filter_append] using hold

theorem raising_files {error : Option Interruption} :
    (raising error).Triple s (fun _ s' => s' = s ∧ error = none)
      (fun e s' => s' = s ∧ ∃ interruption, error = some interruption ∧
        e = interruption.toError) := by
  cases error with
  | none => exact .pure ⟨rfl, rfl⟩
  | some interruption => exact .throw ⟨rfl, interruption, rfl, rfl⟩

end Steps

/-! ## Refusals -/

/-- A refusal that has not been logged. -/
def Unlogged (error : PyError) : Prop := ∀ e, error = .intake e → e.intakeEventLogged = false

theorem unlogged_intake {error : IntakeError} (h : error.intakeEventLogged = false) :
    Unlogged (.intake error) := fun _ he => by cases he; exact h

theorem unlogged_other (text : String) : Unlogged (.other text) := fun _ h => by cases h

theorem unlogged_interruption (interruption : Interruption) : Unlogged interruption.toError := by
  cases interruption <;> exact fun _ h => by cases h

/-! ## What adds nothing -/

section Keeping

theorem callDisk_adds (f : List TempFile → ω → Except PyError α × ω) :
    (callDisk f).Keeps AddsNothing :=
  .bind (.step fun s => by constructor <;> simp) fun _ => .ofExcept _

theorem logIntakeRejection_adds (error : IntakeError) (documentType : String) :
    (logIntakeRejection error documentType : Method ω IntakeError).Keeps AddsNothing := by
  unfold logIntakeRejection
  split
  · exact .pure _
  · exact .bind (fun _ => adds_logEvent _) fun _ => .pure _

theorem rejecting_adds {documentType : String} {p : Method ω α} (hp : p.Keeps AddsNothing) :
    (rejecting documentType p).Keeps AddsNothing := by
  refine .bind hp.capture fun outcome => ?_
  rcases outcome with (_ | _ | error | _ | _ | _ | _ | _ | _) | a
  case error.intake => exact .bind (logIntakeRejection_adds error documentType) fun _ => .throw _
  case ok => exact .pure a
  all_goals exact .throw _

theorem inspectAndRun_adds (intake : Intake ω) (settings : CoreSettings) (upload : UploadFile)
    (path sizeBytes : Nat) (body : StoredUpload → List TempFile → ω → Except PyError α × ω) :
    (inspectAndRun intake settings upload path sizeBytes body).Keeps AddsNothing := by
  refine .bind (callDisk_adds _).capture fun outcome => ?_
  cases outcome with
  | error error => exact rejecting_adds (.throw error)
  | ok found =>
    have hchecked : (checkImage intake settings path found.1).Keeps AddsNothing := by
      unfold checkImage
      split
      · exact callDisk_adds _
      · exact .pure ()
    refine rejecting_adds (.bind hchecked fun _ => ?_)
    refine .bind (fun _ => adds_logEvent _) fun _ => ?_
    exact callDisk_adds _

end Keeping

/-! ## Storing the upload -/

section Storing

variable {maxUploadBytes : Nat}

/-- **The reading loop.**  It returns where the data ends, and lets a
cancellation through where a read is cancelled. -/
theorem readAll_files {files : List TempFile} {path : Nat}
    (hpath : ∀ file ∈ files, file.name ≠ path) {reads : List ReadTurn} {sizeBytes : Nat}
    {s : Session ω} (h : OneMore files path s) :
    (readAll path maxUploadBytes reads sizeBytes).Triple s
      (fun size s' => OneMore files path s' ∧ Reaches maxUploadBytes AtEnd sizeBytes reads ∧
        ¬Reaches maxUploadBytes AtCancellation sizeBytes reads ∧
        (size = 0 ↔ sizeBytes = 0 ∧ AtEnd reads))
      (fun e s' => OneMore files path s' ∧ ¬Reaches maxUploadBytes AtEnd sizeBytes reads ∧
        (e.isException = false ↔ Reaches maxUploadBytes AtCancellation sizeBytes reads)) := by
  induction reads generalizing sizeBytes s with
  | nil => exact .pure ⟨h, by simp [AtEnd, AtCancellation]⟩
  | cons turn rest ih =>
    cases turn with
    | raises interruption =>
      refine .throw ⟨h, by simp [AtEnd], ?_⟩
      cases interruption <;> simp [Interruption.toError, PyError.isException, AtCancellation]
    | chunk bytes writeError =>
      unfold readAll
      split
      · next hb => exact .pure ⟨h, by simp [reaches_chunk, AtEnd, AtCancellation, hb]⟩
      next hb =>
      split
      · next hlimit =>
        have hno : ¬sizeBytes + bytes.length ≤ maxUploadBytes := by omega
        exact .throw ⟨h, by simp [reaches_chunk, AtEnd, AtCancellation, PyError.isException, hb, hno]⟩
      next hlimit =>
      have hfits : sizeBytes + bytes.length ≤ maxUploadBytes := by omega
      cases writeError with
      | some text =>
        exact .throw ⟨h, by simp [reaches_chunk, AtEnd, AtCancellation, PyError.isException, hb]⟩
      | none =>
        have hpos : 0 < bytes.length := List.length_pos_iff.mpr hb
        refine (writeTemp_files hpath h).bind fun _ s' h' => (ih h').mono ?_ ?_
        · intro size s'' hr
          obtain ⟨hmore, hend, hno, hzero⟩ := hr
          refine ⟨hmore, by simp [reaches_chunk, hb, hfits, hend], ?_, ?_⟩
          · simp [reaches_chunk, AtCancellation, hno]
          · rw [hzero]
            simp [AtEnd, hb]
        · intro e s'' hr
          obtain ⟨hmore, hno, hexc⟩ := hr
          refine ⟨hmore, by simp [reaches_chunk, AtEnd, hb, hno], ?_⟩
          rw [hexc]
          simp [reaches_chunk, AtCancellation, hb, hfits]

/-- What the outcome of the `with` block of `_stream_to_temp` says of the upload. -/
def BlockEnds (maxUploadBytes : Nat) (flushRaises : Option String) (reads : List ReadTurn) :
    Except PyError Nat → Prop
  | .ok size => flushRaises = none ∧ Reaches maxUploadBytes AtEnd 0 reads ∧
      ¬Reaches maxUploadBytes AtCancellation 0 reads ∧ (size = 0 ↔ AtEnd reads)
  | .error e => ¬(flushRaises = none ∧ Reaches maxUploadBytes AtEnd 0 reads) ∧
      (e.isException = false ↔ flushRaises = none ∧ Reaches maxUploadBytes AtCancellation 0 reads)

/-- The `with` block of `_stream_to_temp`: the reading loop, and the closing of the
file on every way out of it. -/
theorem readAndClose_files {files : List TempFile} {path : Nat}
    (hpath : ∀ file ∈ files, file.name ≠ path) {reads : List ReadTurn}
    {flushRaises : Option String} {s : Session ω} (h : OneMore files path s) :
    (Program.ensure (readAll path maxUploadBytes reads 0) (raising (flushRaises.map .other))).Triple s
      (fun size s' => OneMore files path s' ∧ BlockEnds maxUploadBytes flushRaises reads (.ok size))
      (fun e s' => OneMore files path s' ∧
        BlockEnds maxUploadBytes flushRaises reads (.error e)) := by
  refine Program.Triple.ensure (M := fun r s' => OneMore files path s' ∧ match r with
    | .ok size => Reaches maxUploadBytes AtEnd 0 reads ∧
        ¬Reaches maxUploadBytes AtCancellation 0 reads ∧ (size = 0 ↔ AtEnd reads)
    | .error e => ¬Reaches maxUploadBytes AtEnd 0 reads ∧
        (e.isException = false ↔ Reaches maxUploadBytes AtCancellation 0 reads)) ?_ ?_
  · refine (readAll_files hpath h).mono ?_ ?_
    · intro size s' hp
      obtain ⟨hmore, hend, hno, hzero⟩ := hp
      exact ⟨hmore, hend, hno, by simpa using hzero⟩
    · exact fun e s' hr => hr
  · intro r s₁ hpost
    obtain ⟨hmore, hr⟩ := hpost
    refine raising_files.mono ?_ ?_
    · intro _ s₂ hpost
      obtain ⟨rfl, hflush⟩ := hpost
      have hnone : flushRaises = none := by simpa using hflush
      constructor
      · rintro size rfl
        exact ⟨hmore, hnone, hr⟩
      · rintro e rfl
        exact ⟨hmore, fun hx => hr.1 hx.2, by simp [hnone, hr.2]⟩
    -- what closing raises replaces the outcome of the loop, a cancellation included
    · intro e s₂ hp
      obtain ⟨rfl, interruption, hflush, rfl⟩ := hp
      obtain ⟨text, hsome, rfl⟩ := Option.map_eq_some_iff.mp hflush
      exact ⟨hmore, by simp [hsome], by simp [hsome, Interruption.toError, PyError.isException]⟩

/-- The handler of `_stream_to_temp` removes the file after an exception, and not
after a cancellation. -/
theorem streamToTemp_failed {storage : TempStorage} {upload : UploadFile} {s s' : Session ω}
    (hs : s.Fresh) (hcreate : storage.createRaises = none) {e : PyError}
    (hmore : OneMore s.files s.nextFile s')
    (hends : BlockEnds maxUploadBytes storage.flushRaises upload.reads (.error e)) :
    (if e.isException = true then do
        unlink s.nextFile
        throw e
      else throw e : Method ω (Nat × Nat)).Triple s'
      (fun _ _ => False)
      (fun _ s' => ¬Stores storage upload maxUploadBytes ∧
        (CancelledReading storage upload maxUploadBytes → OneMore s.files s.nextFile s') ∧
        (¬CancelledReading storage upload maxUploadBytes → s'.files = s.files)) := by
  obtain ⟨hend, hexc⟩ := hends
  have hpath : ∀ file ∈ s.files, file.name ≠ s.nextFile := fun file hf => (hs file hf).ne
  have hstores : ¬Stores storage upload maxUploadBytes := fun h => hend ⟨h.flushed, h.complete⟩
  split
  · next he =>
    have hno : ¬CancelledReading storage upload maxUploadBytes := by
      intro h
      rw [hexc.mpr ⟨h.flushed, h.cancelled⟩] at he
      cases he
    exact (unlink_files hpath hmore).bind fun _ s₃ h₃ => .throw
      ⟨hstores, fun h => absurd h hno, fun _ => h₃⟩
  · next he =>
    obtain ⟨hflush, hcancel⟩ := hexc.mp (by simpa using he)
    exact .throw ⟨hstores, fun _ => hmore, fun h => absurd ⟨hcreate, hflush, hcancel⟩ h⟩

/-- `_stream_to_temp` hands the file over, or has removed it, or a cancellation
made it leave the file. -/
theorem streamToTemp_files {storage : TempStorage} {upload : UploadFile} {s : Session ω}
    (hs : s.Fresh) :
    (streamToTemp storage upload maxUploadBytes).Triple s
      (fun stored s' => stored.1 = s.nextFile ∧ OneMore s.files s.nextFile s' ∧
        Stores storage upload maxUploadBytes ∧ ¬CancelledReading storage upload maxUploadBytes)
      (fun _ s' => ¬Stores storage upload maxUploadBytes ∧
        (CancelledReading storage upload maxUploadBytes → OneMore s.files s.nextFile s') ∧
        (¬CancelledReading storage upload maxUploadBytes → s'.files = s.files)) := by
  have hpath : ∀ file ∈ s.files, file.name ≠ s.nextFile := fun file hf => (hs file hf).ne
  unfold streamToTemp
  dsimp only
  cases hcreate : storage.createRaises with
  | some text =>
    have hno : ¬storage.createRaises = none := by simp [hcreate]
    exact .throw ⟨fun h => hno h.created, fun h => absurd h.created hno, fun _ => rfl⟩
  | none =>
    refine Program.Triple.bind (M := fun path s' => path = s.nextFile ∧
      OneMore s.files s.nextFile s') (.step ⟨rfl, _, rfl, rfl⟩) ?_
    intro _ s₁ hp
    obtain ⟨rfl, h₁⟩ := hp
    refine (readAndClose_files hpath h₁).capture_bind ?_ ?_
    · rintro size s₂ ⟨hmore, hflush, hend, hcancel, hzero⟩
      have hno : ¬CancelledReading storage upload maxUploadBytes := fun h => hcancel h.cancelled
      dsimp only
      split
      · next hsize =>
        exact (unlink_files hpath hmore).bind fun _ s₃ h₃ => .throw
          ⟨fun h => h.some_data (hzero.mp hsize), fun h => absurd h hno, fun _ => h₃⟩
      · next hsize =>
        exact .pure ⟨rfl, hmore, ⟨hcreate, hflush, hend, fun h => hsize (hzero.mpr h)⟩, hno⟩
    · rintro e s₂ ⟨hmore, hends⟩
      exact (streamToTemp_failed hs hcreate hmore hends).mono (fun _ _ h => h.elim) fun _ _ h => h

/-- The files a run leaves on disk: one more for the uploads of `LeavesFile`, the
same for all others. -/
def FilesAfter (storage : TempStorage) (upload : UploadFile) (maxUploadBytes : Nat)
    (s s' : Session ω) : Prop :=
  (LeavesFile storage upload maxUploadBytes → OneMore s.files s.nextFile s') ∧
    (¬LeavesFile storage upload maxUploadBytes → s'.files = s.files)

/-- The cleanup of an upload that was stored: it removes the file unless
`upload.close()` raises before. -/
theorem closeAndUnlink_files {upload : UploadFile} {path : Nat} {files : List TempFile}
    {s : Session ω} (hpath : ∀ file ∈ files, file.name ≠ path) (h : OneMore files path s) :
    (do raising upload.closeRaises; unlink path : Method ω Unit).Triple s
      (fun _ s' => upload.closeRaises = none ∧ s'.files = files)
      (fun _ s' => upload.closeRaises ≠ none ∧ OneMore files path s') := by
  refine (raising_files.mono (fun _ s' h => h) ?_).bind ?_
  · intro e s' hr
    obtain ⟨rfl, interruption, hsome, -⟩ := hr
    exact ⟨by simp [hsome], h⟩
  · intro _ s' hpost
    obtain ⟨rfl, hnone⟩ := hpost
    exact (unlink_files hpath h).mono (fun _ s'' hf => ⟨hnone, hf⟩) fun _ _ h => h

/-- The cleanup of an upload that was not stored leaves the files as they are. -/
theorem closeUnstored_files {storage : TempStorage} {upload : UploadFile} {e : PyError}
    {s s₁ : Session ω} (h : FilesAfter storage upload maxUploadBytes s s₁) :
    (Program.ensure (rejecting "unknown" (throw e)) (raising upload.closeRaises) :
        Method ω α).Triple s₁
      (fun _ s' => FilesAfter storage upload maxUploadBytes s s')
      (fun _ s' => FilesAfter storage upload maxUploadBytes s s') := by
  have hkeep : ∀ s' : Session ω, s'.files = s₁.files →
      FilesAfter storage upload maxUploadBytes s s' := fun s' hf =>
    ⟨fun hl => (h.1 hl).congr hf, fun hl => hf.trans (h.2 hl)⟩
  refine Program.Triple.ensure (M := fun _ s' => AddsNothing s₁ s')
    (rejecting_adds (.throw e) s₁) fun r s₂ h₂ => raising_files.mono ?_ ?_
  · intro _ s₃ hpost
    obtain ⟨rfl, -⟩ := hpost
    exact ⟨fun _ _ => hkeep _ h₂.files, fun _ _ => hkeep _ h₂.files⟩
  · intro _ s₃ hpost
    obtain ⟨rfl, -⟩ := hpost
    exact hkeep _ h₂.files

/-- **What a run leaves on disk.**  The file goes unless a read was cancelled or
closing the upload raised. -/
theorem storedUpload_files {intake : Intake ω} {settings : CoreSettings} {upload : UploadFile}
    {body : StoredUpload → List TempFile → ω → Except PyError α × ω} {s : Session ω}
    (hs : s.Fresh) :
    (storedUpload intake settings upload body).Triple s
      (fun _ s' => FilesAfter intake.storage upload settings.maxUploadBytes s s')
      (fun _ s' => FilesAfter intake.storage upload settings.maxUploadBytes s s') := by
  have hpath : ∀ file ∈ s.files, file.name ≠ s.nextFile := fun file hf => (hs file hf).ne
  have hstored : (streamToTemp intake.storage upload settings.maxUploadBytes).Triple s
      (fun stored s' => stored.1 = s.nextFile ∧ OneMore s.files s.nextFile s' ∧
        Stores intake.storage upload settings.maxUploadBytes ∧
        ¬CancelledReading intake.storage upload settings.maxUploadBytes)
      fun _ s' => FilesAfter intake.storage upload settings.maxUploadBytes s s' := by
    refine (streamToTemp_files hs).mono (fun _ _ h => h) ?_
    intro e s' hpost
    obtain ⟨hstores, hyes, hno⟩ := hpost
    refine ⟨fun h => hyes ?_, fun h => hno fun hc => h (Or.inl hc)⟩
    exact h.resolve_right fun hx => hstores hx.1
  refine hstored.capture_bind ?_ fun e s₁ h => closeUnstored_files h
  rintro ⟨path, sizeBytes⟩ s₁ ⟨rfl, hmore, hstores, hcancel⟩
  -- the body makes no file, so the cleanup finds the one that was stored
  refine Program.Triple.ensure (M := fun _ s' => AddsNothing s₁ s')
    (inspectAndRun_adds _ _ _ _ _ _ s₁) fun r s₂ h₂ =>
      (closeAndUnlink_files hpath (hmore.congr h₂.files)).mono ?_ ?_
  · intro _ s₃ hpost
    obtain ⟨hnone, hf⟩ := hpost
    have hno : ¬LeavesFile intake.storage upload settings.maxUploadBytes := by
      rintro (h | h)
      · exact hcancel h
      · exact h.2 hnone
    exact ⟨fun _ _ => ⟨fun h => absurd h hno, fun _ => hf⟩,
      fun _ _ => ⟨fun h => absurd h hno, fun _ => hf⟩⟩
  · intro e s₃ hpost
    obtain ⟨hsome, hf⟩ := hpost
    exact ⟨fun _ => hf, fun h => absurd (Or.inr ⟨hstores, hsome⟩) h⟩

end Storing

/-! ## The calls to the model -/

theorem raising_sameCalls (error : Option Interruption) :
    (raising error : Method ω Unit).Keeps SameCalls := by
  cases error with
  | none => exact .pure ()
  | some interruption => exact .throw _

theorem unlink_sameCalls (path : Nat) : (unlink path : Method ω Unit).Keeps SameCalls :=
  .step fun _ => ⟨rfl, rfl, rfl⟩

theorem readAll_sameCalls (path maxUploadBytes : Nat) (reads : List ReadTurn) (sizeBytes : Nat) :
    (readAll path maxUploadBytes reads sizeBytes : Method ω Nat).Keeps SameCalls := by
  induction reads generalizing sizeBytes with
  | nil => exact .pure _
  | cons turn rest ih =>
    cases turn with
    | raises interruption => exact .throw _
    | chunk bytes writeError =>
      unfold readAll
      split
      · exact .pure _
      split
      · exact .throw _
      cases writeError with
      | some text => exact .throw _
      | none => exact .bind (.step fun _ => ⟨rfl, rfl, rfl⟩) fun _ => ih _

theorem streamToTemp_sameCalls (storage : TempStorage) (upload : UploadFile)
    (maxUploadBytes : Nat) :
    (streamToTemp storage upload maxUploadBytes : Method ω (Nat × Nat)).Keeps SameCalls := by
  unfold streamToTemp
  dsimp only
  split
  · exact .throw _
  refine .bind (.step fun _ => ⟨rfl, rfl, rfl⟩) fun path => ?_
  refine .bind (.capture (.ensure (readAll_sameCalls _ _ _ _) (raising_sameCalls _))) fun r => ?_
  cases r with
  | error e =>
    dsimp only
    split
    · exact .bind (unlink_sameCalls _) fun _ => .throw _
    · exact .throw _
  | ok sizeBytes =>
    dsimp only
    split
    · exact .bind (unlink_sameCalls _) fun _ => .throw _
    · exact .pure _

/-- Storing an upload, with all that happens to it, calls no model. -/
theorem storedUpload_sameCalls (intake : Intake ω) (settings : CoreSettings) (upload : UploadFile)
    (body : StoredUpload → List TempFile → ω → Except PyError α × ω) :
    (storedUpload intake settings upload body).Keeps SameCalls := by
  refine .bind (streamToTemp_sameCalls _ _ _).capture fun r => ?_
  cases r with
  | error e =>
    refine .ensure (fun s => ?_) (raising_sameCalls _)
    exact (rejecting_adds (.throw e) s).mono (fun _ _ h => h.sameCalls) fun _ _ h => h.sameCalls
  | ok stored =>
    refine .ensure (fun s => ?_) (.bind (raising_sameCalls _) fun _ => unlink_sameCalls _)
    exact (inspectAndRun_adds _ _ _ _ _ _ s).mono (fun _ _ h => h.sameCalls)
      fun _ _ h => h.sameCalls

/-! ## No document stays on disk -/

/-- No file is on disk that was not there before. -/
def NoFileLeft (s s' : Session ω) : Prop := ∀ file ∈ s'.files, file ∈ s.files

instance (s s' : Session ω) : Decidable (NoFileLeft s s') :=
  inferInstanceAs (Decidable (∀ file ∈ s'.files, file ∈ s.files))

/-- **Every temporary file a run created is gone, exactly unless** a read was
cancelled with the file open, or closing the stored upload raised. -/
theorem stored_upload_removes_iff {intake : Intake ω} {settings : CoreSettings}
    {upload : UploadFile} {body : StoredUpload → List TempFile → ω → Except PyError α × ω}
    {s : Session ω} (hs : s.Fresh) :
    NoFileLeft s ((storedUpload intake settings upload body).outcome s).2 ↔
      ¬LeavesFile intake.storage upload settings.maxUploadBytes := by
  have hafter : FilesAfter intake.storage upload settings.maxUploadBytes s
      ((storedUpload intake settings upload body).outcome s).2 := (storedUpload_files hs).state
  constructor
  · intro hgone hleaves
    obtain ⟨file, hname, hfiles⟩ := hafter.1 hleaves
    have hold := hgone file (by rw [hfiles]; exact List.mem_append_right _ List.mem_cons_self)
    exact absurd hname (hs file hold).ne
  · intro hleaves file hf
    rwa [hafter.2 hleaves] at hf

end Files

/-! ## A cancelled upload -/

/-- An intake that takes everything for a PDF. -/
def pdfIntake {ω : Type} : Intake ω where
  detectDocumentType _ _ _ w := (.ok (.pdf, none), w)
  validateImageDimensions _ _ _ w := (.ok (), w)

/-- An upload whose second read is as given. -/
def twoReads (second : ReadTurn) : UploadFile where
  filename := some "Report.PDF"
  contentType := some "application/pdf"
  reads := [.chunk [0x25, 0x50, 0x44, 0x46, 0x2D] none, second]

/-- The body that does nothing. -/
def noBody (_ : StoredUpload) (_ : List TempFile) (w : Unit) : Except PyError Unit × Unit := (.ok (), w)

/-- A disk with a file of its own. -/
def usedDisk : Session Unit := { world := (), files := [⟨0, "", []⟩], nextFile := 1 }

/-- The file of an upload cancelled in its second read stays. -/
theorem cancelled_upload_stays :
    ¬NoFileLeft usedDisk
      ((storedUpload pdfIntake .plain (twoReads (.raises .cancelled)) noBody).outcome usedDisk).2 := by
  decide

theorem received_upload_removed :
    NoFileLeft usedDisk
      ((storedUpload pdfIntake .plain (twoReads (.chunk [] none)) noBody).outcome usedDisk).2 := by
  refine (stored_upload_removes_iff ?_).mpr ?_
  · simp [Session.Fresh, usedDisk]
  · rintro (h | h)
    · have hc := h.cancelled
      simp [twoReads, reaches_chunk, AtCancellation] at hc
    · exact h.2 rfl

end InternumCore
