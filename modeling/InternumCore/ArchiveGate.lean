import Mathlib.Algebra.BigOperators.Group.List.Basic
import Mathlib.Algebra.Order.Field.Basic
import Mathlib.Data.List.Perm.Basic
import Mathlib.Tactic.Positivity
import InternumCore.StoredUpload

/-!
# The archive gate

A `.docx` or `.xlsx` is a zip archive, and before anything in it is opened its
directory is checked: how many entries there are, how large they unpack, how far
they are compressed, and that no name leads out of the directory the archive would
be unpacked to.

`validateOoxmlArchive` is one loop that keeps a running total and stops at the
first entry it does not like.  `archive_gate` says what that comes to: a condition
on the entries in which their order plays no part (`SafeArchive`), and which keeps
every step of every name below the directory it starts from (`visited`).
-/

namespace InternumCore

/-! ## Paths -/

/-- `posixpath.splitroot`, of which the drive is always empty. -/
def splitroot : List Char → List Char × List Char
  | '/' :: '/' :: '/' :: rel => (['/'], '/' :: '/' :: rel)
  | '/' :: '/' :: rel => (['/', '/'], rel)
  | '/' :: rel => (['/'], rel)
  | rel => ([], rel)

/-- `PurePosixPath`, as far as it is read. -/
structure PurePosixPath where
  root : List Char
  tail : List (List Char)

/-- `PurePosixPath(name)`. -/
def PurePosixPath.ofName (name : String) : PurePosixPath where
  root := (splitroot name.toList).1
  tail := ((splitroot name.toList).2.splitOn '/').filter fun part => part ≠ [] ∧ part ≠ ['.']

/-- `path.is_absolute()`. -/
def PurePosixPath.isAbsolute (path : PurePosixPath) : Bool := path.root ≠ []

/-- `path.parts`. -/
def PurePosixPath.parts (path : PurePosixPath) : List (List Char) :=
  if path.root = [] then path.tail else path.root :: path.tail

/-! ## The gate -/

/-- An entry of `archive.infolist()`. -/
structure ZipEntry where
  filename : String
  fileSize : Nat
  compressSize : Nat

/-- `_is_unsafe_zip_path`. -/
def isUnsafeZipPath (name : String) : Bool :=
  if name = "" ∨ '\\' ∈ name.toList ∨ startsWith name "/" = true then true
  else
    let path := PurePosixPath.ofName name
    path.isAbsolute || path.parts.contains ['.', '.']

/-- `max_ooxml_ratio_detail`. -/
def maxOoxmlRatioDetail (value : ℚ) : Json :=
  if value.isInt then .int value.num else .float (.finite value)

/-- The loop of `_validate_ooxml_archive`. -/
def validateEntries (maxUncompressedBytes : Nat) (maxCompressionRatio : ℚ) :
    Nat → List ZipEntry → Except IntakeError Unit
  | _, [] => .ok ()
  | totalUncompressed, entry :: entries =>
    if isUnsafeZipPath entry.filename then
      .error { message := "OOXML archive contains an unsafe path", code := "unsafe_archive" }
    else
      let totalUncompressed := totalUncompressed + entry.fileSize
      if maxUncompressedBytes < totalUncompressed then
        .error
          { message := "OOXML archive exceeds the configured uncompressed size limit"
            code := "unsafe_archive"
            details := some (.obj [("maxUncompressedBytes", .int maxUncompressedBytes)]) }
      else if entry.compressSize = 0 then
        if 0 < entry.fileSize then
          .error
            { message := "OOXML archive has an unsafe compression ratio"
              code := "unsafe_archive" }
        else validateEntries maxUncompressedBytes maxCompressionRatio totalUncompressed entries
      else if maxCompressionRatio < (entry.fileSize : ℚ) / entry.compressSize then
        .error
          { message := "OOXML archive has an unsafe compression ratio"
            code := "unsafe_archive"
            details := some (.obj [("maxCompressionRatio", maxOoxmlRatioDetail maxCompressionRatio)]) }
      else validateEntries maxUncompressedBytes maxCompressionRatio totalUncompressed entries

/-- `_validate_ooxml_archive`. -/
def validateOoxmlArchive (maxEntries maxUncompressedBytes : Nat) (maxCompressionRatio : ℚ)
    (entries : List ZipEntry) : Except IntakeError Unit :=
  if maxEntries < entries.length then
    .error
      { message := "OOXML archive contains too many entries"
        code := "unsafe_archive"
        details := some (.obj [("maxEntries", .int maxEntries)]) }
  else validateEntries maxUncompressedBytes maxCompressionRatio 0 entries

/-- `_detect_office_zip`; `none` is an archive that `zipfile` cannot read. -/
def detectOfficeZip (settings : CoreSettings) (archive : Option (List ZipEntry)) :
    Except IntakeError SupportedDocumentType :=
  let unsupported : IntakeError :=
    { message := "Unsupported file type", code := "unsupported_file_type" }
  match archive with
  | none => .error unsupported
  | some entries => do
    validateOoxmlArchive settings.maxOoxmlZipEntries settings.maxOoxmlUncompressedBytes
      settings.maxOoxmlCompressionRatio entries
    let names := entries.map (·.filename)
    if "[Content_Types].xml" ∉ names then throw unsupported
    else if names.any (startsWith · "word/") then return .docx
    else if names.any (startsWith · "xl/") then return .xlsx
    else throw unsupported

/-! ## Safe archives -/

/-- A name that stays in the directory the archive is unpacked to. -/
structure SafeName (name : String) : Prop where
  nonempty : name ≠ ""
  no_backslash : '\\' ∉ name.toList
  relative : name.toList.head? ≠ some '/'
  no_parent : ['.', '.'] ∉ name.toList.splitOn '/'

/-- An entry that is not compressed further than the limit. -/
def SafeRatio (maxCompressionRatio : ℚ) (entry : ZipEntry) : Prop :=
  if entry.compressSize = 0 then entry.fileSize = 0
  else (entry.fileSize : ℚ) ≤ maxCompressionRatio * entry.compressSize

/-- **What the gate is for**, with no word about the order of the entries. -/
structure SafeArchive (maxEntries maxUncompressedBytes : Nat) (maxCompressionRatio : ℚ)
    (entries : List ZipEntry) : Prop where
  count : entries.length ≤ maxEntries
  size : (entries.map (·.fileSize)).sum ≤ maxUncompressedBytes
  ratio : ∀ entry ∈ entries, SafeRatio maxCompressionRatio entry
  name : ∀ entry ∈ entries, SafeName entry.filename

section Names

/-- A relative name has no root. -/
theorem splitroot_relative {chars : List Char} (h : chars.head? ≠ some '/') :
    splitroot chars = ([], chars) := by
  unfold splitroot
  split
  · exact absurd rfl h
  · exact absurd rfl h
  · exact absurd rfl h
  · rfl

/-- Dropping empty names and single dots does not hide a parent. -/
theorem isUnsafeZipPath_eq_false_iff {name : String} :
    isUnsafeZipPath name = false ↔ SafeName name := by
  unfold isUnsafeZipPath
  split
  · next hbad =>
    constructor
    · intro h
      cases h
    · intro h
      rcases hbad with hempty | hbackslash | hslash
      · exact absurd hempty h.nonempty
      · exact absurd hbackslash h.no_backslash
      · exact absurd (startsWith_slash_iff.mp hslash) h.relative
  · next hgood =>
    rw [not_or, not_or, startsWith_slash_iff] at hgood
    obtain ⟨hempty, hbackslash, hslash⟩ := hgood
    have hparts : (PurePosixPath.ofName name).parts =
        (name.toList.splitOn '/').filter fun part => part ≠ [] ∧ part ≠ ['.'] := by
      simp [PurePosixPath.parts, PurePosixPath.ofName, splitroot_relative hslash]
    have hroot : (PurePosixPath.ofName name).isAbsolute = false := by
      simp [PurePosixPath.isAbsolute, PurePosixPath.ofName, splitroot_relative hslash]
    dsimp only
    rw [hparts, hroot, Bool.false_or, ← Bool.not_eq_true, List.contains_iff_mem, List.mem_filter]
    constructor
    · intro h
      exact ⟨hempty, hbackslash, hslash, fun hm => h ⟨hm, by decide⟩⟩
    · exact fun h hm => h.no_parent hm.1

end Names

section Loop

variable {maxEntries maxUncompressedBytes : Nat} {maxCompressionRatio : ℚ}

theorem safeRatio_of_stored {entry : ZipEntry} (h : entry.compressSize = 0) :
    SafeRatio maxCompressionRatio entry ↔ ¬0 < entry.fileSize := by
  rw [SafeRatio, if_pos h]
  omega

theorem safeRatio_of_compressed {entry : ZipEntry} (h : entry.compressSize ≠ 0) :
    SafeRatio maxCompressionRatio entry ↔
      ¬maxCompressionRatio < (entry.fileSize : ℚ) / entry.compressSize := by
  have hpos : (0 : ℚ) < entry.compressSize := by
    exact_mod_cast Nat.pos_of_ne_zero h
  rw [SafeRatio, if_neg h, not_lt, div_le_iff₀ hpos]

/-- **The loop.**  While the running total is within the limit, the loop passes
exactly the entries of which each is safe and all together stay within it. -/
theorem validateEntries_ok_iff {entries : List ZipEntry} {total : Nat}
    (htotal : total ≤ maxUncompressedBytes) :
    validateEntries maxUncompressedBytes maxCompressionRatio total entries = .ok () ↔
      total + (entries.map (·.fileSize)).sum ≤ maxUncompressedBytes ∧
        (∀ entry ∈ entries, SafeRatio maxCompressionRatio entry) ∧
        ∀ entry ∈ entries, SafeName entry.filename := by
  induction entries generalizing total with
  | nil => simp [validateEntries, htotal]
  | cons entry entries ih =>
    rw [validateEntries, List.map_cons, List.sum_cons, List.forall_mem_cons, List.forall_mem_cons,
      ← isUnsafeZipPath_eq_false_iff]
    dsimp only
    by_cases hname : isUnsafeZipPath entry.filename = true
    · simp [hname]
    rw [if_neg hname]
    rw [Bool.not_eq_true] at hname
    by_cases hsize : maxUncompressedBytes < total + entry.fileSize
    · rw [if_pos hsize]
      constructor
      · intro h
        cases h
      · intro h
        have hsum := h.1
        omega
    rw [if_neg hsize]
    have hrest := ih (Nat.le_of_not_lt hsize)
    rw [Nat.add_assoc] at hrest
    -- an entry that is stored in no bytes has no ratio, and may only be empty
    by_cases hstored : entry.compressSize = 0
    · rw [if_pos hstored, safeRatio_of_stored hstored]
      by_cases hfile : 0 < entry.fileSize
      · simp [hfile]
      · rw [if_neg hfile, hrest]
        simp [hname, hfile]
    · rw [if_neg hstored, safeRatio_of_compressed hstored]
      by_cases hratio : maxCompressionRatio < (entry.fileSize : ℚ) / entry.compressSize
      · simp [hratio]
      · rw [if_neg hratio, hrest]
        simp only [hratio, hname, not_false_eq_true, true_and]

theorem validateEntries_code {entries : List ZipEntry} {total : Nat} {error : IntakeError}
    (h : validateEntries maxUncompressedBytes maxCompressionRatio total entries = .error error) :
    error.code = "unsafe_archive" := by
  induction entries generalizing total with
  | nil => cases h
  | cons entry entries ih =>
    rw [validateEntries] at h
    dsimp only at h
    split at h
    · cases h
      rfl
    · split at h
      · cases h
        rfl
      · split at h
        · split at h
          · cases h
            rfl
          · exact ih h
        · split at h
          · cases h
            rfl
          · exact ih h

theorem validateOoxmlArchive_ok_iff {entries : List ZipEntry} :
    validateOoxmlArchive maxEntries maxUncompressedBytes maxCompressionRatio entries = .ok () ↔
      SafeArchive maxEntries maxUncompressedBytes maxCompressionRatio entries := by
  unfold validateOoxmlArchive
  by_cases hcount : maxEntries < entries.length
  · rw [if_pos hcount]
    constructor
    · intro h
      cases h
    · intro h
      have hle := h.count
      omega
  · rw [if_neg hcount, validateEntries_ok_iff (Nat.zero_le _), Nat.zero_add]
    constructor
    · intro h
      exact ⟨Nat.le_of_not_lt hcount, h.1, h.2.1, h.2.2⟩
    · exact fun h => ⟨h.size, h.ratio, h.name⟩

/-- Whatever the gate refuses, it refuses as an unsafe archive. -/
theorem validateOoxmlArchive_code {entries : List ZipEntry} {error : IntakeError}
    (h : validateOoxmlArchive maxEntries maxUncompressedBytes maxCompressionRatio entries =
      .error error) : error.code = "unsafe_archive" := by
  unfold validateOoxmlArchive at h
  split at h
  · cases h
    rfl
  · exact validateEntries_code h

/-- The entries of a safe archive may stand in any order. -/
theorem SafeArchive.perm {entries entries' : List ZipEntry} (hperm : entries.Perm entries')
    (h : SafeArchive maxEntries maxUncompressedBytes maxCompressionRatio entries) :
    SafeArchive maxEntries maxUncompressedBytes maxCompressionRatio entries' where
  count := hperm.length_eq ▸ h.count
  size := (hperm.map (·.fileSize)).sum_eq ▸ h.size
  ratio entry hm := h.ratio entry (hperm.mem_iff.mpr hm)
  name entry hm := h.name entry (hperm.mem_iff.mpr hm)

/-- An archive that is recognised as a document has passed the gate. -/
theorem safeArchive_of_detectOfficeZip {settings : CoreSettings} {archive : Option (List ZipEntry)}
    {type : SupportedDocumentType} (h : detectOfficeZip settings archive = .ok type) :
    ∃ entries, archive = some entries ∧ SafeArchive settings.maxOoxmlZipEntries
      settings.maxOoxmlUncompressedBytes settings.maxOoxmlCompressionRatio entries := by
  cases archive with
  | none => cases h
  | some entries =>
    refine ⟨entries, rfl, validateOoxmlArchive_ok_iff.mp ?_⟩
    rw [detectOfficeZip] at h
    cases hv : validateOoxmlArchive settings.maxOoxmlZipEntries settings.maxOoxmlUncompressedBytes
        settings.maxOoxmlCompressionRatio entries with
    | ok => rfl
    | error error =>
      rw [hv] at h
      cases h

end Loop

/-! ## Following a name

A place in the file system is the list of the names that lead to it. -/

/-- One step along a name: a dot stays, two dots go up, and any other name goes down. -/
def enter (place : List (List Char)) (component : List Char) : List (List Char) :=
  if component = [] ∨ component = ['.'] then place
  else if component = ['.', '.'] then place.dropLast
  else place ++ [component]

/-- The places that are come to when a name is followed from a directory.  A name
with a leading slash starts at the top of the file system. -/
def visited (root : List (List Char)) (name : String) : List (List (List Char)) :=
  (name.toList.splitOn '/').scanl enter (if name.toList.head? = some '/' then [] else root)

theorem prefix_enter {root place : List (List Char)} {component : List Char}
    (hplace : root <+: place) (hparent : component ≠ ['.', '.']) : root <+: enter place component := by
  unfold enter
  rw [if_neg hparent]
  split
  · exact hplace
  · exact hplace.trans (List.prefix_append place [component])

/-- Without a parent among its components no step of a name goes up. -/
theorem prefix_of_mem_scanl {root place : List (List Char)} {components : List (List Char)}
    (hplace : root <+: place) (hparent : ['.', '.'] ∉ components) :
    ∀ place' ∈ components.scanl enter place, root <+: place' := by
  induction components generalizing place with
  | nil =>
    intro place' hm
    rw [List.scanl_nil, List.mem_singleton] at hm
    exact hm ▸ hplace
  | cons component components ih =>
    rw [List.mem_cons, not_or] at hparent
    intro place' hm
    rw [List.scanl_cons] at hm
    rcases List.mem_cons.mp hm with rfl | hm
    · exact hplace
    · exact ih (prefix_enter hplace (Ne.symm hparent.1)) hparent.2 place' hm

theorem SafeName.prefix_visited {name : String} (h : SafeName name) (root : List (List Char)) :
    ∀ place ∈ visited root name, root <+: place := by
  unfold visited
  rw [if_neg h.relative]
  exact prefix_of_mem_scanl List.prefix_rfl h.no_parent

/-- **The archive gate.**  It passes the safe archives and refuses all others as
unsafe, in whatever order their entries stand, and no name of an archive that it
passes leads out of the directory it is followed from. -/
theorem archive_gate (maxEntries maxUncompressedBytes : Nat) (maxCompressionRatio : ℚ)
    (entries : List ZipEntry) :
    let gate := validateOoxmlArchive maxEntries maxUncompressedBytes maxCompressionRatio
    (gate entries = .ok () ↔
      SafeArchive maxEntries maxUncompressedBytes maxCompressionRatio entries) ∧
    (gate entries ≠ .ok () →
      ∃ error, gate entries = .error error ∧ error.code = "unsafe_archive") ∧
    (∀ entries', entries.Perm entries' → (gate entries' = .ok () ↔ gate entries = .ok ())) ∧
    (gate entries = .ok () → ∀ entry ∈ entries, ∀ root, ∀ place ∈ visited root entry.filename,
      root <+: place) := by
  dsimp only
  refine ⟨validateOoxmlArchive_ok_iff, ?_, ?_, ?_⟩
  · intro hrefused
    cases h : validateOoxmlArchive maxEntries maxUncompressedBytes maxCompressionRatio entries with
    | ok => exact absurd h hrefused
    | error error => exact ⟨error, rfl, validateOoxmlArchive_code h⟩
  · intro entries' hperm
    rw [validateOoxmlArchive_ok_iff, validateOoxmlArchive_ok_iff]
    exact ⟨fun h => h.perm hperm.symm, fun h => h.perm hperm⟩
  · intro hpassed entry hm
    exact ((validateOoxmlArchive_ok_iff.mp hpassed).name entry hm).prefix_visited

end InternumCore
