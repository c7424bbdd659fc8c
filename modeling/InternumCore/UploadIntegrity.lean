import InternumCore.Billing
import InternumCore.DocumentDetection

/-!
# From the upload to the extractor

An upload arrives in chunks, is copied into a temporary file chunk by chunk, checked,
and handed to the extractor as that file.  Two things are said about the way there,
for whole runs of the service.

* The cuts between the chunks do not matter (`runParse_cuts`): `_stream_to_temp`, on
  an upload that is read without trouble, is `storeWhole`, which has all the bytes at
  once and either creates the whole file or none.
* The extractor sees vetted files only (`extraction_vetted`): whatever else goes wrong
  on the way, it is started on a file that holds the uploaded bytes, all of them and
  within the limit, whose type its content bears out, and whose archive or image passed
  its gate.
-/

namespace InternumCore

/-! ## What an upload delivers -/

/-- The data of an upload: its chunks up to the first empty one. -/
def uploaded : List ReadTurn → List UInt8
  | .chunk bytes _ :: rest => if bytes = [] then [] else bytes ++ uploaded rest
  | _ => []

/-- The upload is read and written without trouble and comes to these bytes. -/
inductive Delivers : List ReadTurn → List UInt8 → Prop
  | ended : Delivers [] []
  | empty (writeError : Option String) (rest : List ReadTurn) :
      Delivers (.chunk [] writeError :: rest) []
  | chunk {bytes more : List UInt8} {rest : List ReadTurn} (hb : bytes ≠ [])
      (h : Delivers rest more) : Delivers (.chunk bytes none :: rest) (bytes ++ more)

/-- The error for an upload over the limit. -/
def uploadTooLarge (maxUploadBytes : Nat) : PyError :=
  .intake
    { message := "Uploaded file exceeds the configured size limit"
      details := some (.obj [("maxUploadBytes", .int maxUploadBytes)]) }

/-- `_stream_to_temp` where all the data is there at once: the whole file is created,
or none. -/
def storeWhole {ω : Type} (storage : TempStorage) (filename : Option String) (maxUploadBytes : Nat)
    (bytes : List UInt8) : Method ω (Nat × Nat) := do
  match storage.createRaises with
  | some text => throw (.other text)
  | none =>
    let path ← Program.step fun s => (s.nextFile, { s with nextFile := s.nextFile + 1 })
    match storage.flushRaises with
    | some text => throw (.other text)
    | none =>
      if maxUploadBytes < bytes.length then throw (uploadTooLarge maxUploadBytes)
      else if bytes = [] then throw (.intake { message := "Uploaded file is empty" })
      else
        Program.step fun s =>
          ((path, bytes.length), { s with files := s.files ++ [⟨path, safeSuffix filename, bytes⟩] })

section Storing

variable {ω : Type} {maxUploadBytes sizeBytes : Nat} {before : List TempFile} {file : TempFile}
  {reads : List ReadTurn} {bytes : List UInt8} {s : Session ω}

/-- The session with one more file. -/
def withFile (s : Session ω) (before : List TempFile) (file : TempFile) : Session ω :=
  { s with files := before ++ [file] }

@[simp] theorem withFile_withFile (file' : TempFile) :
    withFile (withFile s before file) before file' = withFile s before file' := rfl

/-- Writing adds to the end of the file and touches no other. -/
theorem outcome_writeTemp (hpath : ∀ f ∈ before, f.name ≠ file.name) :
    (writeTemp file.name bytes).outcome (withFile s before file) =
      (.ok (), withFile s before { file with contents := file.contents ++ bytes }) := by
  have hold : before.map (fun f => if f.name = file.name then
      { f with contents := f.contents ++ bytes } else f) = before := by
    rw [List.map_congr_left fun f hf => if_neg (hpath f hf)]
    exact List.map_id before
  simp [writeTemp, withFile, hold]

/-- Removing the file leaves the others. -/
theorem outcome_unlink (hpath : ∀ f ∈ before, f.name ≠ file.name) :
    (unlink file.name).outcome (withFile s before file) = (.ok (), { s with files := before }) := by
  simpa [unlink, withFile, List.filter_append] using hpath

/-- **The reading loop**, where nothing goes wrong: the data is in the file, or the
limit was passed on the way. -/
theorem outcome_readAll (hdelivers : Delivers reads bytes)
    (hpath : ∀ f ∈ before, f.name ≠ file.name) :
    ∃ contents, (readAll file.name maxUploadBytes reads sizeBytes).outcome (withFile s before file) =
        (if maxUploadBytes < sizeBytes + bytes.length ∧ bytes ≠ [] then
          .error (uploadTooLarge maxUploadBytes) else .ok (sizeBytes + bytes.length),
          withFile s before { file with contents := contents }) ∧
      (¬(maxUploadBytes < sizeBytes + bytes.length ∧ bytes ≠ []) →
        contents = file.contents ++ bytes) := by
  induction hdelivers generalizing file sizeBytes with
  | ended => exact ⟨file.contents, by simp [readAll], by simp⟩
  | empty writeError rest => exact ⟨file.contents, by simp [readAll], by simp⟩
  | @chunk bytes more rest hb _ ih =>
    have hpos : 0 < bytes.length := List.length_pos_iff.mpr hb
    have hne : bytes ++ more ≠ [] := by simp [hb]
    rw [readAll, if_neg hb, List.length_append, ← Nat.add_assoc]
    -- the limit is checked before the chunk is written
    by_cases hlimit : maxUploadBytes < sizeBytes + bytes.length
    · have hall : maxUploadBytes < sizeBytes + bytes.length + more.length := by omega
      refine ⟨file.contents, ?_, fun h => absurd ⟨hall, hne⟩ h⟩
      rw [if_pos hlimit, if_pos ⟨hall, hne⟩]
      rfl
    · obtain ⟨contents, hrest, hcontents⟩ := @ih (sizeBytes + bytes.length)
        { file with contents := file.contents ++ bytes } hpath
      -- this chunk is within the limit: only the others can pass it
      have hiff : (maxUploadBytes < sizeBytes + bytes.length + more.length ∧ more ≠ []) ↔
          maxUploadBytes < sizeBytes + bytes.length + more.length ∧ bytes ++ more ≠ [] := by
        refine and_congr_right fun h => iff_of_true ?_ hne
        rintro rfl
        rw [List.length_nil] at h
        omega
      refine ⟨contents, ?_, fun h => ?_⟩
      · rw [if_neg hlimit, Program.outcome_bind_ok (outcome_writeTemp hpath), hrest]
        simp only [hiff]
      · rw [hcontents (hiff.not.mpr h), List.append_assoc]

/-- **All or nothing.**  However an upload was cut, storing it is storing the whole. -/
theorem outcome_streamToTemp {storage : TempStorage} {upload : UploadFile} (hs : s.Fresh)
    (hdelivers : Delivers upload.reads bytes) :
    (streamToTemp storage upload maxUploadBytes).outcome s =
      (storeWhole storage upload.filename maxUploadBytes bytes).outcome s := by
  unfold streamToTemp storeWhole
  dsimp only
  cases storage.createRaises with
  | some text => rfl
  | none =>
    have hpath : ∀ f ∈ s.files, f.name ≠ s.nextFile := fun f hf => (hs f hf).ne
    let s₁ : Session ω := { s with nextFile := s.nextFile + 1 }
    let file : TempFile := ⟨s.nextFile, safeSuffix upload.filename, []⟩
    have hcreated : (createTemp (safeSuffix upload.filename)).outcome s =
        (.ok file.name, withFile s₁ s.files file) := rfl
    have hnamed : (Program.step fun s : Session ω =>
        (s.nextFile, { s with nextFile := s.nextFile + 1 }) : Method ω Nat).outcome s =
        (.ok s.nextFile, s₁) := rfl
    rw [Program.outcome_bind_ok hcreated, Program.outcome_bind_ok hnamed]
    obtain ⟨contents, hread, hcontents⟩ := @outcome_readAll ω maxUploadBytes 0 s.files file _ _ s₁
      hdelivers hpath
    have hremoved : (unlink file.name).outcome
        (withFile s₁ s.files { file with contents := contents }) = (.ok (), s₁) :=
      outcome_unlink hpath
    rw [Program.outcome_bind_ok (Program.outcome_capture _ _)]
    -- leaving the `with` block flushes the file, whatever the loop came to
    cases storage.flushRaises with
    | some text =>
      have hblock : (Program.ensure (readAll file.name maxUploadBytes upload.reads 0)
          (raising ((some text).map .other))).outcome (withFile s₁ s.files file) =
          (.error (.other text), withFile s₁ s.files { file with contents := contents }) := by
        rw [Program.outcome_ensure, hread]
        rfl
      rw [hblock]
      show (unlink file.name >>= fun _ => throw (.other text)).outcome _ = _
      rw [Program.outcome_bind_ok hremoved]
    | none =>
      have hblock : (Program.ensure (readAll file.name maxUploadBytes upload.reads 0)
          (raising ((none : Option String).map .other))).outcome (withFile s₁ s.files file) =
          ((if maxUploadBytes < 0 + bytes.length ∧ bytes ≠ [] then
            .error (uploadTooLarge maxUploadBytes) else .ok (0 + bytes.length)),
            withFile s₁ s.files { file with contents := contents }) := by
        rw [Program.outcome_ensure, hread]
        rfl
      rw [hblock]
      by_cases hlimit : maxUploadBytes < 0 + bytes.length ∧ bytes ≠ []
      · have hover : maxUploadBytes < bytes.length := by omega
        rw [if_pos hlimit]
        show (unlink file.name >>= fun _ => throw (uploadTooLarge maxUploadBytes)).outcome _ = _
        rw [Program.outcome_bind_ok hremoved]
        dsimp only
        rw [if_pos hover]
      · have hover : ¬maxUploadBytes < bytes.length := by
          intro h
          have hpos : 0 < bytes.length := by omega
          exact hlimit ⟨by omega, List.length_pos_iff.mp hpos⟩
        rw [if_neg hlimit, Nat.zero_add]
        dsimp only
        rw [if_neg hover]
        -- an empty upload is stored, found empty and removed
        by_cases hempty : bytes = []
        · rw [if_pos hempty, if_pos (by rw [hempty]; rfl), Program.outcome_bind_ok hremoved]
        · rw [if_neg hempty, if_neg (by simpa using hempty), hcontents hlimit]
          rfl

/-- The handler and the cleanup of `stored_upload` see what `_stream_to_temp` left. -/
theorem outcome_storedUpload_cuts {α : Type} {intake : Intake ω} {settings : CoreSettings}
    {upload : UploadFile} {reads' : List ReadTurn}
    {body : StoredUpload → List TempFile → ω → Except PyError α × ω} (hs : s.Fresh)
    (h : Delivers upload.reads bytes) (h' : Delivers reads' bytes) :
    (storedUpload intake settings upload body).outcome s =
      (storedUpload intake settings { upload with reads := reads' } body).outcome s := by
  have hrecut : (streamToTemp intake.storage { upload with reads := reads' }
      settings.maxUploadBytes).outcome s =
      (storeWhole intake.storage upload.filename settings.maxUploadBytes bytes).outcome s :=
    outcome_streamToTemp hs h'
  refine Program.outcome_bind_congr (Program.outcome_capture_congr
    ((outcome_streamToTemp hs h).trans hrecut.symm)) fun r t _ => ?_
  cases r with
  | error e => rfl
  | ok stored => rfl

end Storing

/-- **The cuts do not matter.**  Two requests whose uploads come to the same bytes, in
whatever chunks, have the same result and leave the same behind. -/
theorem runParse_cuts {ω : Type} (service : DocumentParsingService ω)
    (request : ParseMultipartRequest) (reads' : List ReadTurn) (bytes : List UInt8)
    (consumerId requestId : Option String) (s : Session ω) (hs : s.Fresh)
    (h : Delivers request.upload.reads bytes) (h' : Delivers reads' bytes) :
    (service.runParse request consumerId requestId).outcome s =
      (service.runParse { request with upload := { request.upload with reads := reads' } }
        consumerId requestId).outcome s := by
  have hstored : (service.storeAndExtract request).outcome s = (service.storeAndExtract
      { request with upload := { request.upload with reads := reads' } }).outcome s :=
    Program.outcome_bind_congr (outcome_storedUpload_cuts hs h h') fun _ _ _ => rfl
  exact Program.outcome_bind_congr hstored fun _ _ _ => rfl

/-- A document in two pieces and in one, with more behind its end. -/
theorem recut_upload :
    ((sampleService wavering).runParse
        { plainParse with upload := twoReads (.chunk [0x31] none) } none none).outcome { world := 0 } =
      ((sampleService wavering).runParse
        { plainParse with upload :=
          { twoReads (.chunk [0x31] none) with reads :=
            [.chunk [0x25, 0x50, 0x44, 0x46, 0x2D, 0x31] none, .chunk [] none, .raises .timeout] } }
        none none).outcome { world := 0 } :=
  runParse_cuts (sampleService wavering) { plainParse with upload := twoReads (.chunk [0x31] none) }
    _ [0x25, 0x50, 0x44, 0x46, 0x2D, 0x31] none none { world := 0 } (fun _ hf => by cases hf)
    (.chunk (by decide) (.chunk (by decide) .ended)) (.chunk (by decide) (.empty none _))

/-! ## What the extractor is given -/

/-- What is known of an image that passed its check. -/
def ImageFits (probes : FileProbes) (settings : CoreSettings) (contents : List UInt8)
    (documentType : SupportedDocumentType) : Prop :=
  documentType = .jpeg ∨ documentType = .png → ∃ width height,
    probes.imageSize contents = some (width, height) ∧ width * height ≤ settings.maxImagePixels

/-- **What the extractor may rely on**: the file holds what was uploaded, its content
bears out its type, and an image is within the limit. -/
structure Vetted (probes : FileProbes) (settings : CoreSettings) (upload : UploadFile)
    (before : List TempFile) (stored : StoredUpload) (files : List TempFile) : Prop where
  on_disk : files = before ++ [⟨stored.path, safeSuffix upload.filename, uploaded upload.reads⟩]
  size : stored.sizeBytes = (uploaded upload.reads).length
  some_data : 0 < stored.sizeBytes
  within_limit : stored.sizeBytes ≤ settings.maxUploadBytes
  original_name : stored.originalFilename = upload.filename
  content : Content probes settings
    ⟨stored.path, safeSuffix upload.filename, uploaded upload.reads⟩ stored.documentType
  image : ImageFits probes settings (uploaded upload.reads) stored.documentType

section Vetting

variable {ω α : Type} {maxUploadBytes sizeBytes : Nat} {before : List TempFile} {file : TempFile}
  {reads : List ReadTurn} {s : Session ω}

/-- The reading loop, whatever happens: where it returns, the data is in the file. -/
theorem readAll_uploaded (hpath : ∀ f ∈ before, f.name ≠ file.name)
    (hsize : sizeBytes ≤ maxUploadBytes) :
    (readAll file.name maxUploadBytes reads sizeBytes).Triple (withFile s before file)
      (fun size s' => size = sizeBytes + (uploaded reads).length ∧ size ≤ maxUploadBytes ∧
        s' = withFile s before { file with contents := file.contents ++ uploaded reads })
      fun _ _ => True := by
  induction reads generalizing file sizeBytes with
  | nil => exact .pure ⟨rfl, hsize, by simp [uploaded]⟩
  | cons turn rest ih =>
    cases turn with
    | raises interruption => exact .throw trivial
    | chunk bytes writeError =>
      unfold readAll
      -- an empty read ends the upload, whatever comes after it
      by_cases hb : bytes = []
      · rw [if_pos hb]
        exact .pure ⟨by simp [uploaded, hb], hsize, by simp [uploaded, hb]⟩
      rw [if_neg hb]
      by_cases hlimit : maxUploadBytes < sizeBytes + bytes.length
      · rw [if_pos hlimit]
        exact .throw trivial
      rw [if_neg hlimit]
      cases writeError with
      | some text => exact .throw trivial
      | none =>
        have hfits : sizeBytes + bytes.length ≤ maxUploadBytes := by omega
        have hwritten := @outcome_writeTemp ω before file bytes s hpath
        refine Program.Triple.bind (M := fun _ s' => s' = withFile s before
          { file with contents := file.contents ++ bytes }) ?_ ?_
        · exact Program.Triple.of_outcome (fun _ _ h => (Prod.mk.inj (hwritten.symm.trans h)).2.symm)
            fun _ _ _ => trivial
        · rintro _ _ rfl
          refine (@ih (sizeBytes + bytes.length)
            { file with contents := file.contents ++ bytes } hpath hfits).mono ?_ fun _ _ h => h
          intro size s' h
          obtain ⟨hcount, hle, hfile⟩ := h
          rw [uploaded, if_neg hb, List.length_append]
          exact ⟨by omega, hle, by rw [hfile, List.append_assoc]⟩

/-- What `_stream_to_temp` hands over is the whole upload. -/
theorem streamToTemp_uploaded {storage : TempStorage} {upload : UploadFile} (hs : s.Fresh) :
    (streamToTemp storage upload maxUploadBytes).Triple s
      (fun stored s' => stored = (s.nextFile, (uploaded upload.reads).length) ∧
        0 < stored.2 ∧ stored.2 ≤ maxUploadBytes ∧
        s'.files = s.files ++ [⟨s.nextFile, safeSuffix upload.filename, uploaded upload.reads⟩])
      fun _ _ => True := by
  unfold streamToTemp
  dsimp only
  cases storage.createRaises with
  | some text => exact .throw trivial
  | none =>
    let s₁ : Session ω := { s with nextFile := s.nextFile + 1 }
    let file : TempFile := ⟨s.nextFile, safeSuffix upload.filename, []⟩
    have hpath : ∀ f ∈ s.files, f.name ≠ file.name := fun f hf => (hs f hf).ne
    refine Program.Triple.bind (M := fun path s' => path = file.name ∧
      s' = withFile s₁ s.files file) (.step ⟨rfl, rfl⟩) ?_
    rintro _ _ ⟨rfl, rfl⟩
    refine (Program.Triple.capture (Q := fun r s' => ∀ size, r = .ok size →
      size = (uploaded upload.reads).length ∧ size ≤ maxUploadBytes ∧
        s' = withFile s₁ s.files { file with contents := uploaded upload.reads }) ?_).bind ?_
    · refine Program.Triple.ensure (M := fun r s' => ∀ size, r = .ok size →
        size = (uploaded upload.reads).length ∧ size ≤ maxUploadBytes ∧
          s' = withFile s₁ s.files { file with contents := uploaded upload.reads })
        ((readAll_uploaded hpath (Nat.zero_le _)).mono ?_ fun e s' _ size h => by cases h) ?_
      · rintro size s' ⟨hcount, hle, rfl⟩ _ hsize
        cases hsize
        exact ⟨by omega, hle, by simp [file]⟩
      · intro r s' hr
        refine raising_files.mono ?_ fun _ _ _ _ h => by cases h
        rintro _ _ ⟨rfl, -⟩
        constructor
        · rintro size rfl _ hsize
          cases hsize
          exact hr size rfl
        · rintro e rfl _ hsize
          cases hsize
    intro r s' hr
    cases r with
    | error e =>
      dsimp only
      split
      · exact .bind_any (fun _ _ => trivial) fun _ _ => .throw trivial
      · exact .throw trivial
    | ok size =>
      obtain ⟨rfl, hle, rfl⟩ := hr size rfl
      dsimp only
      split
      · exact .bind_any (fun _ _ => trivial) fun _ _ => .throw trivial
      · next hpos => exact .pure ⟨rfl, Nat.pos_of_ne_zero hpos, hle, rfl⟩

/-! ## One way into the extractor -/

variable {probes : FileProbes} {settings : CoreSettings} {files : List TempFile} {w : ω}

/-- A check finds the file it is about. -/
theorem checkFile_eq (check : TempFile → Except IntakeError α)
    (hpath : ∀ f ∈ before, f.name ≠ file.name) (hfiles : files = before ++ [file]) :
    checkFile check file.name files w = ((check file).mapError .intake, w) := by
  have hfind : files.find? (·.name = file.name) = some file := by
    rw [hfiles, List.find?_append, List.find?_eq_none.mpr fun f hf => by simpa using hpath f hf]
    simp
  rw [checkFile, hfind]

theorem outcome_callDisk (f : List TempFile → ω → Except PyError α × ω) :
    (callDisk f).outcome s = ((f s.files s.world).1, { s with world := (f s.files s.world).2 }) := by
  unfold callDisk
  rw [Program.outcome_bind_ok (Program.outcome_step _ s), Program.outcome_ofExcept]

/-- A handler does the same for what has the same outcome. -/
theorem outcome_rejecting_congr {documentType : String} {p p' : Method ω α}
    (hp : p.outcome s = p'.outcome s) :
    (rejecting documentType p).outcome s = (rejecting documentType p').outcome s :=
  Program.outcome_bind_congr (Program.outcome_capture_congr hp) fun _ _ _ => rfl

theorem imageFits_of_validateImageDimensions {documentType : SupportedDocumentType}
    (h : validateImageDimensions probes settings file = .ok ()) :
    ImageFits probes settings file.contents documentType := by
  intro _
  unfold validateImageDimensions at h
  split at h
  · cases h
  · next width height hsize =>
    split at h
    · cases h
    · next hpixels => exact ⟨width, height, hsize, by omega⟩

theorem checkImage_fits {storage : TempStorage} {documentType : SupportedDocumentType}
    (hpath : ∀ f ∈ before, f.name ≠ file.name) (hfiles : s.files = before ++ [file]) :
    (checkImage (fileIntake probes storage) settings file.name documentType).Triple s
      (fun _ s' => s' = s ∧ ImageFits probes settings file.contents documentType)
      fun _ _ => True := by
  unfold checkImage
  by_cases himage : documentType = .jpeg ∨ documentType = .png
  · rw [if_pos himage]
    refine Program.Triple.of_outcome (fun _ s' h => ?_) fun _ _ _ => trivial
    rw [outcome_callDisk] at h
    have hcheck : (fileIntake probes storage).validateImageDimensions settings file.name s.files
        s.world = _ := checkFile_eq (validateImageDimensions probes settings) hpath hfiles
    rw [hcheck] at h
    obtain ⟨hvalid, hstate⟩ := Prod.mk.inj h
    refine ⟨hstate.symm, ?_⟩
    cases hvalidate : validateImageDimensions probes settings file with
    | error e =>
      rw [hvalidate] at hvalid
      cases hvalid
    | ok => exact imageFits_of_validateImageDimensions hvalidate
  · rw [if_neg himage]
    exact .pure ⟨rfl, fun h => absurd h himage⟩

/-- The body is run on a file of a type that was detected. -/
theorem outcome_inspectAndRun_congr {storage : TempStorage} {upload : UploadFile} {sizeBytes : Nat}
    {body body' : StoredUpload → List TempFile → ω → Except PyError α × ω}
    (hpath : ∀ f ∈ before, f.name ≠ file.name) (hfiles : s.files = before ++ [file])
    (hagree : ∀ documentType mime w,
      detectDocumentType probes settings file = .ok (documentType, mime) →
      ImageFits probes settings file.contents documentType →
      body ⟨file.name, documentType, sizeBytes, upload.filename, mime⟩ s.files w =
        body' ⟨file.name, documentType, sizeBytes, upload.filename, mime⟩ s.files w) :
    (inspectAndRun (fileIntake probes storage) settings upload file.name sizeBytes body).outcome s =
      (inspectAndRun (fileIntake probes storage) settings upload file.name sizeBytes body').outcome
        s := by
  unfold inspectAndRun
  refine Program.outcome_bind_congr rfl fun r t h => ?_
  rw [Program.outcome_capture, outcome_callDisk] at h
  have hcheck : (fileIntake probes storage).detectDocumentType settings file.name s.files s.world =
      _ := checkFile_eq (detectDocumentType probes settings) hpath hfiles
  rw [hcheck] at h
  obtain ⟨hdetected, hstate⟩ := Prod.mk.inj h
  obtain rfl : s = t := hstate
  cases r with
  | error e => rfl
  | ok found =>
    obtain ⟨documentType, mime⟩ := found
    have hdetect : detectDocumentType probes settings file = .ok (documentType, mime) := by
      cases hd : detectDocumentType probes settings file with
      | error e =>
        rw [hd] at hdetected
        cases hdetected
      | ok found =>
        rw [hd] at hdetected
        cases hdetected
        rfl
    -- up to the body the two runs are the same
    refine outcome_rejecting_congr (Program.outcome_bind_congr rfl fun _ t hchecked => ?_)
    obtain ⟨rfl, hfits⟩ := (checkImage_fits hpath hfiles).of_ok hchecked
    refine Program.outcome_bind_congr rfl fun _ t hlogged => ?_
    obtain rfl : _ = t := (Prod.mk.inj hlogged).2
    rw [outcome_callDisk, outcome_callDisk]
    dsimp only
    rw [hagree documentType mime _ hdetect hfits]

/-- The body of `stored_upload` is run on vetted files only. -/
theorem outcome_storedUpload_congr {storage : TempStorage} {upload : UploadFile}
    {body body' : StoredUpload → List TempFile → ω → Except PyError α × ω} (hs : s.Fresh)
    (hagree : ∀ stored files w, Vetted probes settings upload s.files stored files →
      body stored files w = body' stored files w) :
    (storedUpload (fileIntake probes storage) settings upload body).outcome s =
      (storedUpload (fileIntake probes storage) settings upload body').outcome s := by
  refine Program.outcome_bind_congr rfl fun r t h => ?_
  cases r with
  | error e => rfl
  | ok stored =>
    obtain ⟨path, sizeBytes⟩ := stored
    rw [Program.outcome_capture] at h
    obtain ⟨hreturned, hstate⟩ := Prod.mk.inj h
    have hstored : (streamToTemp storage upload settings.maxUploadBytes).outcome s =
        (.ok (path, sizeBytes), t) := Prod.ext (Except.ok.inj hreturned) hstate
    obtain ⟨heq, hpos, hle, hfiles⟩ := (streamToTemp_uploaded hs).of_ok hstored
    obtain ⟨rfl, rfl⟩ := Prod.mk.inj heq
    let file : TempFile := ⟨s.nextFile, safeSuffix upload.filename, uploaded upload.reads⟩
    have hpath : ∀ f ∈ s.files, f.name ≠ file.name := fun f hf => (hs f hf).ne
    have hinspect : (inspectAndRun (fileIntake probes storage) settings upload file.name
        (uploaded upload.reads).length body).outcome t = (inspectAndRun (fileIntake probes storage)
        settings upload file.name (uploaded upload.reads).length body').outcome t := by
      refine outcome_inspectAndRun_congr hpath hfiles fun documentType mime w hdetect hfits => ?_
      have hcontent := content_of_detectDocumentType hdetect
      exact hagree _ _ _ ⟨hfiles, rfl, hpos, hle, rfl, hcontent, hfits⟩
    exact Program.outcome_ensure_congr hinspect

end Vetting

/-- **The extractor sees vetted files only.**  Two extractors that agree on vetted files
cannot be told apart by any run, whatever is uploaded and whatever goes wrong. -/
theorem extraction_vetted {ω : Type} (service : DocumentParsingService ω) (probes : FileProbes)
    (storage : TempStorage) (hintake : service.intake = fileIntake probes storage)
    (extract' : StoredUpload → List TempFile → ω → Except PyError Extracted × ω)
    (request : ParseMultipartRequest) (consumerId requestId : Option String) (s : Session ω)
    (hs : s.Fresh)
    (hagree : ∀ stored files w,
      Vetted probes service.settings request.upload s.files stored files →
        service.extract stored files w = extract' stored files w) :
    (service.runParse request consumerId requestId).outcome s =
      ({ service with extract := extract' }.runParse request consumerId requestId).outcome s := by
  have hstored : (service.storeAndExtract request).outcome s =
      ({ service with extract := extract' }.storeAndExtract request).outcome s := by
    refine Program.outcome_bind_congr ?_ fun _ _ _ => rfl
    show (storedUpload service.intake service.settings request.upload _).outcome s =
      (storedUpload service.intake service.settings request.upload _).outcome s
    rw [hintake]
    refine outcome_storedUpload_congr hs fun stored files w hvetted => ?_
    rw [hagree stored files w hvetted]
  exact Program.outcome_bind_congr hstored fun _ _ _ => rfl

/-- Probes that take no file for an archive or an image. -/
def plainProbes : FileProbes where
  detectMime _ := none
  isZipfile _ := false
  openZip _ := none
  imageSize _ := none

/-- An extractor that refuses whatever is over the limit of the settings. -/
def guardedExtract (stored : StoredUpload) (_ : List TempFile) (w : Nat) :
    Except PyError Extracted × Nat :=
  if CoreSettings.plain.maxUploadBytes < stored.sizeBytes then (.error (.other "too large"), w)
  else (.ok (.text "report"), w)

theorem guardedExtract_eq {stored : StoredUpload} {files : List TempFile} {w : Nat}
    (h : stored.sizeBytes ≤ CoreSettings.plain.maxUploadBytes) :
    guardedExtract stored files w = (.ok (.text "report"), w) :=
  if_neg (Nat.not_lt.mpr h)

/-- Its guard is never needed. -/
theorem guarded_extraction :
    ({ sampleService wavering with intake := fileIntake plainProbes {} }.runParse
        plainParse none none).outcome { world := 0 } =
      ({ sampleService wavering with intake := fileIntake plainProbes {}, extract := guardedExtract
          }.runParse plainParse none none).outcome { world := 0 } :=
  extraction_vetted { sampleService wavering with intake := fileIntake plainProbes {} } plainProbes {}
    rfl guardedExtract plainParse none none { world := 0 } (fun _ hf => by cases hf)
    fun stored files w h => by
      have hle : stored.sizeBytes ≤ CoreSettings.plain.maxUploadBytes := h.within_limit
      exact (guardedExtract_eq hle).symm

end InternumCore
