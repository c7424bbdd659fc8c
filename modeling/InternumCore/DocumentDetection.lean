import InternumCore.ArchiveGate

/-!
# What kind of document a file is

`detectDocumentType` looks at the first bytes of a stored file, then at the
directory of a zip archive, and at last at the suffix of its name.  What it calls
for that (libmagic, `zipfile`, Pillow) is a `FileProbes`; each sees the bytes of the
file and nothing else.

The suffix comes from the name the client gave.  `detectDocumentType_name` says how
far that name is trusted: it tells `.doc` from `.xls`, and it is what makes a text
with HTML in it HTML.
-/

namespace InternumCore

/-- What the checks of a stored file call. -/
structure FileProbes where
  /-- `_detect_mime`. -/
  detectMime : List UInt8 → Option String
  /-- `zipfile.is_zipfile`. -/
  isZipfile : List UInt8 → Bool
  /-- `archive.infolist()`; `none` is `BadZipFile`. -/
  openZip : List UInt8 → Option (List ZipEntry)
  /-- `image.size`; `none` is a file that Pillow cannot open. -/
  imageSize : List UInt8 → Option (Nat × Nat)

/-! ## Bytes -/

/-- The bytes of an ASCII text. -/
def asciiBytes (text : String) : List UInt8 := text.toList.map fun c => c.toNat.toUInt8

/-- `HEADER_BYTES`. -/
def headerBytes : Nat := 4096

def pdfSignature : List UInt8 := asciiBytes "%PDF-"

def pngSignature : List UInt8 := 0x89 :: asciiBytes "PNG\r\n" ++ [0x1a, 0x0a]

def jpegSignature : List UInt8 := [0xff, 0xd8, 0xff]

/-- `OLE_CFB_SIGNATURE`. -/
def oleCfbSignature : List UInt8 := [0xd0, 0xcf, 0x11, 0xe0, 0xa1, 0xb1, 0x1a, 0xe1]

/-- What `bytes.lstrip()` removes. -/
def isSpaceByte (byte : UInt8) : Bool := byte = 0x20 ∨ 0x09 ≤ byte ∧ byte ≤ 0x0d

/-- `bytes.lower()`, of one byte. -/
def lowerByte (byte : UInt8) : UInt8 := if 0x41 ≤ byte ∧ byte ≤ 0x5a then byte + 0x20 else byte

/-- `pattern in bytes`. -/
def containsBytes (pattern bytes : List UInt8) : Bool := bytes.tails.any pattern.isPrefixOf

/-! ## The checks -/

/-- `IntakeError("Unsupported file type", code="unsupported_file_type")`. -/
def unsupportedFileType : IntakeError :=
  { message := "Unsupported file type", code := "unsupported_file_type" }

/-- `_looks_like_html`. -/
def looksLikeHtml (header : List UInt8) : Bool :=
  let sample := (header.dropWhile isSpaceByte).map lowerByte
  ["<!doctype html", "<html", "<head", "<body"].any (fun tag => (asciiBytes tag).isPrefixOf sample) ||
    containsBytes (asciiBytes "<html") sample

/-- `_detect_legacy_office_type`. -/
def detectLegacyOfficeType (suffix : String) (detectedMime : Option String) :
    Except IntakeError SupportedDocumentType :=
  let mime := lowerAscii (detectedMime.getD "")
  if suffix = ".doc" ∨ mime = "application/msword" then .ok .doc
  else if suffix = ".xls" ∨ mime = "application/vnd.ms-excel" then .ok .xls
  else .error unsupportedFileType

/-- `detect_document_type`; the suffix of the path is the one the file was made with. -/
def detectDocumentType (probes : FileProbes) (settings : CoreSettings) (file : TempFile) :
    Except IntakeError (SupportedDocumentType × Option String) :=
  let header := file.contents.take headerBytes
  let detectedMime := probes.detectMime header
  let suffix := lowerAscii file.suffix
  if pdfSignature.isPrefixOf header then .ok (.pdf, detectedMime)
  else if pngSignature.isPrefixOf header then .ok (.png, detectedMime)
  else if jpegSignature.isPrefixOf header then .ok (.jpeg, detectedMime)
  -- before the zip: the end marker of an archive may lie in an OLE container
  else if oleCfbSignature.isPrefixOf header then
    (detectLegacyOfficeType suffix detectedMime).map (·, detectedMime)
  else if probes.isZipfile file.contents then
    (detectOfficeZip settings (probes.openZip file.contents)).map (·, detectedMime)
  else if looksLikeHtml header ∧ (suffix = ".html" ∨ suffix = ".htm") then
    .ok (.html, detectedMime)
  else .error unsupportedFileType

/-- `_validate_image_dimensions`. -/
def validateImageDimensions (probes : FileProbes) (settings : CoreSettings) (file : TempFile) :
    Except IntakeError Unit :=
  match probes.imageSize file.contents with
  | none => .error unsupportedFileType
  | some (width, height) =>
    if settings.maxImagePixels < width * height then
      .error
        { message := "Image exceeds the configured pixel limit"
          code := "image_too_large"
          details := some (.obj [("width", .int width), ("height", .int height),
            ("maxPixels", .int settings.maxImagePixels)]) }
    else .ok ()

/-- Opens the file at a path and checks it. -/
def checkFile {ω α : Type} (check : TempFile → Except IntakeError α) (path : Nat)
    (files : List TempFile) (w : ω) : Except PyError α × ω :=
  match files.find? (·.name = path) with
  | none => (.error (.other "FileNotFoundError"), w)
  | some file => ((check file).mapError .intake, w)

/-- The checks of `stored_upload`, with these probes. -/
def fileIntake {ω : Type} (probes : FileProbes) (storage : TempStorage) : Intake ω where
  storage := storage
  detectDocumentType settings := checkFile (detectDocumentType probes settings)
  validateImageDimensions settings := checkFile (validateImageDimensions probes settings)

/-! ## What each type stands for -/

section Detection

variable {probes : FileProbes} {settings : CoreSettings} {file file' : TempFile}
  {documentType : SupportedDocumentType} {mime : Option String}

theorem legacy_of_detectLegacyOfficeType {suffix : String}
    (h : detectLegacyOfficeType suffix mime = .ok documentType) :
    documentType = .doc ∨ documentType = .xls := by
  unfold detectLegacyOfficeType at h
  dsimp only at h
  split at h
  · cases h
    exact Or.inl rfl
  · split at h
    · cases h
      exact Or.inr rfl
    · cases h

theorem office_of_detectOfficeZip {archive : Option (List ZipEntry)}
    (h : detectOfficeZip settings archive = .ok documentType) :
    documentType = .docx ∨ documentType = .xlsx := by
  cases archive with
  | none => cases h
  | some entries =>
    rw [detectOfficeZip] at h
    cases hv : validateOoxmlArchive settings.maxOoxmlZipEntries settings.maxOoxmlUncompressedBytes
        settings.maxOoxmlCompressionRatio entries with
    | error error =>
      rw [hv] at h
      cases h
    | ok =>
      rw [hv] at h
      change (if _ then _ else _) = _ at h
      split at h
      · cases h
      split at h
      · cases h
        exact Or.inl rfl
      · split at h
        · cases h
          exact Or.inr rfl
        · cases h

/-- What a file of each type holds. -/
inductive Content (probes : FileProbes) (settings : CoreSettings) (file : TempFile) :
    SupportedDocumentType → Prop
  | pdf (h : pdfSignature <+: file.contents) : Content probes settings file .pdf
  | png (h : pngSignature <+: file.contents) : Content probes settings file .png
  | jpeg (h : jpegSignature <+: file.contents) : Content probes settings file .jpeg
  | legacy {documentType : SupportedDocumentType} (h : oleCfbSignature <+: file.contents)
      (ht : documentType = .doc ∨ documentType = .xls) : Content probes settings file documentType
  | archive {documentType : SupportedDocumentType} {entries : List ZipEntry}
      (h : probes.openZip file.contents = some entries)
      (safe : SafeArchive settings.maxOoxmlZipEntries settings.maxOoxmlUncompressedBytes
        settings.maxOoxmlCompressionRatio entries)
      (ht : documentType = .docx ∨ documentType = .xlsx) : Content probes settings file documentType
  | html (h : looksLikeHtml (file.contents.take headerBytes) = true) :
      Content probes settings file .html

theorem prefix_of_isPrefixOf_take {signature contents : List UInt8} {n : Nat}
    (h : signature.isPrefixOf (contents.take n) = true) : signature <+: contents :=
  (List.isPrefixOf_iff_prefix.mp h).trans (List.take_prefix n contents)

/-- **The type tells the content.** -/
theorem content_of_detectDocumentType
    (h : detectDocumentType probes settings file = .ok (documentType, mime)) :
    Content probes settings file documentType := by
  unfold detectDocumentType at h
  dsimp only at h
  split at h
  -- the signatures are tried in this order, and the first one decides
  · next hpdf =>
    cases h
    exact .pdf (prefix_of_isPrefixOf_take hpdf)
  split at h
  · next hpng =>
    cases h
    exact .png (prefix_of_isPrefixOf_take hpng)
  split at h
  · next hjpeg =>
    cases h
    exact .jpeg (prefix_of_isPrefixOf_take hjpeg)
  split at h
  · next hole =>
    cases hlegacy : detectLegacyOfficeType (lowerAscii file.suffix)
        (probes.detectMime (file.contents.take headerBytes)) with
    | error error =>
      rw [hlegacy] at h
      cases h
    | ok found =>
      rw [hlegacy] at h
      cases h
      exact .legacy (prefix_of_isPrefixOf_take hole) (legacy_of_detectLegacyOfficeType hlegacy)
  split at h
  · cases hzip : detectOfficeZip settings (probes.openZip file.contents) with
    | error error =>
      rw [hzip] at h
      cases h
    | ok found =>
      rw [hzip] at h
      cases h
      obtain ⟨entries, hopen, hsafe⟩ := safeArchive_of_detectOfficeZip hzip
      exact .archive hopen hsafe (office_of_detectOfficeZip hzip)
  split at h
  · next hhtml =>
    cases h
    exact .html hhtml.1
  · cases h

/-- **What a name decides.**  Two files with the same bytes are taken for the same,
or refused alike, unless they are OLE containers or look like HTML. -/
theorem detectDocumentType_name (hcontents : file.contents = file'.contents)
    (hole : oleCfbSignature.isPrefixOf (file.contents.take headerBytes) = false)
    (hhtml : looksLikeHtml (file.contents.take headerBytes) = false) :
    detectDocumentType probes settings file = detectDocumentType probes settings file' := by
  unfold detectDocumentType
  dsimp only
  rw [← hcontents, hole, hhtml]
  simp only [Bool.false_eq_true, if_false, false_and]

end Detection

end InternumCore
