import InternumCore.Extraction

/-!
# What becomes of the scratch directory

A legacy Word document is converted in a directory that `mkdtemp` makes, and which
is to be gone when `extract` is through.  Four places remove it: three handlers
around `subprocess.run`, the check of its result, and the `finally` of `extract`,
which finds the directory by walking up from the converted file.

While the directory is there everything happens in it (`Working`), so removing it
brings the disk back to what it was (`Working.removed`).  What raises before
LibreOffice is called, and what `subprocess.run` raises that is no `OSError`, gets
past all of these places and leaves the directory behind.  So does a cancellation
that comes while the thread of the conversion still has the directory: `extract`
raises, and nobody is told of the path.  `scratch_removed_iff` says so of every run.
-/

namespace InternumCore

/-! ## The runs that leave nothing behind -/

/-- The scratch directories are gone and the upload is what it was. -/
structure ScratchRemoved (disk : Disk) (uploadPath : DiskPath) (s : ExtractionState) : Prop where
  scratch : ∀ root ∈ s.scratch, s.disk.entry root = none
  upload : s.disk.entry uploadPath = disk.entry uploadPath

/-- The conversion gets as far as a scratch directory. -/
structure MakesScratch (settings : ExtractionSettings) (host : Host) (disk : Disk) : Prop where
  binary : ∃ binary, resolveExecutable host settings.libreofficeBinary = .ok (some binary)
  temp : host.tempError = none
  name : (makeScratch host disk).isSome

/-- Nothing fails between the scratch directory and the call of LibreOffice. -/
structure PreparesCopy (host : Host) (disk : Disk) (uploadPath : DiskPath) : Prop where
  outputDir : host.outputDirError = none
  profileDir : host.profileDirError = none
  read : host.readError = none
  upload : ∃ bytes, disk.entry uploadPath = some (.file bytes)
  write : host.writeError = none
  profile : host.profileError = none

/-- LibreOffice ends in a way that a handler is written for. -/
def Handled (host : Host) : Prop :=
  match host.libreOffice with
  | .raises _ => False
  | .completed returncode => returncode = 0 → host.existsError = none
  | _ => True

/-- LibreOffice leaves a converted document. -/
def Converts (host : Host) : Prop :=
  host.libreOffice = .completed 0 ∧ (host.leftBehind.entry ["out", "input.docx"]).isSome

/-- The change of a failing conversion that removes the scratch directory: `mkdtemp`, the
two directories in it, the copy and what LibreOffice writes come before. -/
def removalStep : ℕ := 6

/-- A task that is cancelled while it waits for the conversion finds the directory
removed already. -/
def RemovedInTime (host : Host) : Prop :=
  ∀ steps, host.cancelled = some (.after steps) → ¬Converts host ∧ removalStep ≤ steps

/-- No failure of a conversion gets past the places that remove the scratch directory. -/
def Caught (settings : ExtractionSettings) (host : Host) (disk : Disk)
    (uploadPath : DiskPath) : Prop :=
  MakesScratch settings host disk →
    PreparesCopy host disk uploadPath ∧ Handled host ∧ host.unremoved = none ∧ RemovedInTime host

/-- There is no conversion, or no failure of it gets past those places. -/
def Covered (settings : ExtractionSettings) (host : Host) (disk : Disk)
    (uploadPath : DiskPath) : Prop :=
  host.cancelled = some .unstarted ∨ Caught settings host disk uploadPath

/-! ## The disk while there is a scratch directory -/

/-- The scratch directory is there, and nothing but what lies in it has changed. -/
structure Working (disk : Disk) (root : DiskPath) (s : ExtractionState) : Prop where
  fresh : disk.entry root = none
  made : s.disk.entry root = some .directory
  agree : FileTree.AgreeOutside root disk s.disk
  scratch : s.scratch = [root]

/-- While the copy is made: only these names are taken in the scratch directory, and
the files are those there were. -/
structure Building (disk : Disk) (root : DiskPath) (names : List String)
    (s : ExtractionState) : Prop extends Working disk root s where
  free : ∀ name, name ∉ names → s.disk.entry (root ++ [name]) = none
  files : ∀ path bytes, s.disk.entry path = some (.file bytes) ↔
    disk.entry path = some (.file bytes)

/-- The disk is what it was before the run. -/
structure Cleaned (disk : Disk) (s : ExtractionState) : Prop where
  disk_eq : s.disk = disk
  scratch : ∀ root ∈ s.scratch, disk.entry root = none

variable {settings : ExtractionSettings} {host : Host} {disk : Disk} {root path : DiskPath}
  {names : List String} {name : String} {s : ExtractionState}

/-- It does not matter what else a run has done. -/
theorem Working.congr {s' : ExtractionState} (h : Working disk root s) (hdisk : s'.disk = s.disk)
    (hscratch : s'.scratch = s.scratch) : Working disk root s' where
  fresh := h.fresh
  made := by rw [hdisk, h.made]
  agree := by rw [hdisk]; exact h.agree
  scratch := hscratch.trans h.scratch

theorem Cleaned.removed (h : Cleaned disk s) (uploadPath : DiskPath) :
    ScratchRemoved disk uploadPath s where
  scratch := by
    rw [h.disk_eq]
    exact h.scratch
  upload := by rw [h.disk_eq]

theorem Working.not_removed (h : Working disk root s) (uploadPath : DiskPath) :
    ¬ScratchRemoved disk uploadPath s := by
  intro hremoved
  have hnone := hremoved.scratch root (by rw [h.scratch]; exact List.mem_singleton_self _)
  rw [h.made] at hnone
  exact absurd hnone (by simp)

/-- What `shutil.rmtree` makes of the scratch directory. -/
def AfterRemoval (host : Host) (disk : Disk) (root : DiskPath) (s : ExtractionState) : Prop :=
  (host.unremoved = none ∧ Cleaned disk s) ∨ (host.unremoved ≠ none ∧ Working disk root s)

/-- Removing the scratch directory brings the disk back to what it was. -/
theorem Working.removed (h : Working disk root s) (host : Host) :
    AfterRemoval host disk root (removed host root s) := by
  unfold InternumCore.removed
  rw [if_pos h.made]
  cases hrest : host.unremoved with
  | none =>
    refine .inl ⟨hrest, h.agree.removeTree_eq h.fresh, ?_⟩
    intro other hother
    rw [h.scratch, List.mem_singleton] at hother
    rw [hother]
    exact h.fresh
  | some rest =>
    refine .inr ⟨by simp [hrest], h.fresh, ?_, h.agree.trans (.fill _), h.scratch⟩
    exact (FileTree.entry_fill_self _ _ _).trans h.made

theorem Cleaned.recorded (h : Cleaned disk s) (event : ExtractionEvent) :
    Cleaned disk (recorded event s) := ⟨h.disk_eq, h.scratch⟩

theorem AfterRemoval.recorded (h : AfterRemoval host disk root s) (event : ExtractionEvent) :
    AfterRemoval host disk root (recorded event s) :=
  h.imp (fun h' => ⟨h'.1, h'.2.recorded event⟩) fun h' => ⟨h'.1, h'.2.congr rfl rfl⟩

theorem AfterRemoval.removed_iff (h : AfterRemoval host disk root s) (uploadPath : DiskPath) :
    ScratchRemoved disk uploadPath s ↔ host.unremoved = none := by
  rcases h with ⟨hall, hcleaned⟩ | ⟨hrest, hworking⟩
  · exact iff_of_true (hcleaned.removed uploadPath) hall
  · exact iff_of_false (hworking.not_removed uploadPath) hrest

/-! ## Making the copy -/

theorem orRaise_spec (error : Option String) :
    (orRaise error).Triple s 0 (fun _ s' => error = none ∧ s' = s)
      fun _ s' => error ≠ none ∧ s' = s := by
  cases error with
  | none => exact .pure ⟨rfl, rfl⟩
  | some text => exact .raise ⟨by simp, rfl⟩

/-- A call that may raise before it does what it is to do. -/
theorem orRaise_bind {α : Type} {error : Option String} {n : ℕ} {t : Threaded α}
    {Q : α → ExtractionState → Prop} {R : PyError → ExtractionState → Prop}
    (ht : error = none → t.Triple s n Q R) (hR : error ≠ none → ∀ e, R e s) :
    (orRaise error >>= fun _ => t).Triple s n Q R := by
  cases error with
  | none => exact ht rfl
  | some text => exact .raise (hR (by simp) _)

theorem changeDisk_spec {change : Disk → Option Disk} {changed : Disk}
    (h : change s.disk = some changed) {Q : Unit → ExtractionState → Prop}
    {R : PyError → ExtractionState → Prop} (hQ : Q () { s with disk := changed }) :
    (changeDisk change).Triple s 1 Q R := by
  refine .look ?_
  simp only [h]
  exact .act hQ

theorem Building.mkdir (h : Building disk root names s) (hname : name ∉ names) :
    ∃ changed, s.disk.mkdir root name = some changed ∧
      Building disk root (name :: names) { s with disk := changed } := by
  obtain ⟨changed, hchanged⟩ := Option.isSome_iff_exists.mp
    (FileTree.mkdir_isSome_iff.mpr ⟨h.made, h.free name hname⟩)
  have hroot : root ≠ root ++ [name] := by simp
  refine ⟨changed, hchanged, ⟨h.fresh, ?_, ?_, h.scratch⟩, ?_, ?_⟩
  · rw [FileTree.entry_mkdir hchanged, if_neg hroot]
    exact h.made
  · exact h.agree.trans (.mkdir (List.prefix_append _ _) hchanged)
  · intro other hother
    rw [FileTree.entry_mkdir hchanged, if_neg (by simpa using List.ne_of_not_mem_cons hother)]
    exact h.free other (List.not_mem_of_not_mem_cons hother)
  · intro path bytes
    exact (FileTree.mkdir_file_iff hchanged path bytes).trans (h.files path bytes)

theorem Building.write (h : Building disk root names s) (hname : name ∉ names)
    (bytes : List UInt8) :
    ∃ changed, s.disk.write root name bytes = some changed ∧
      Working disk root { s with disk := changed } := by
  have hwrite : (s.disk.write root name bytes).isSome :=
    FileTree.write_isSome_iff.mpr ⟨h.made, by rw [h.free name hname]; simp⟩
  obtain ⟨changed, hchanged⟩ := Option.isSome_iff_exists.mp hwrite
  have hroot : root ≠ root ++ [name] := by simp
  refine ⟨changed, hchanged, h.fresh, ?_, ?_, h.scratch⟩
  · rw [FileTree.entry_write hchanged, if_neg hroot]
    exact h.made
  · exact h.agree.trans (.write (List.prefix_append _ _) hchanged)

theorem makeDirectory_spec (h : Building disk root names s) (hname : name ∉ names)
    (error : Option String) :
    (makeDirectory error root name).Triple s 1
      (fun _ s' => error = none ∧ Building disk root (name :: names) s')
      fun _ s' => error ≠ none ∧ Working disk root s' := by
  obtain ⟨changed, hchanged, hbuilding⟩ := h.mkdir hname
  refine orRaise_bind (fun herror => ?_) fun herror _ => ⟨herror, h.toWorking⟩
  exact changeDisk_spec hchanged ⟨herror, hbuilding⟩

/-- The upload is read as it was before the run. -/
theorem readBytes_spec (h : Building disk root names s) :
    (readBytes host path).Triple s 0
      (fun _ s' => (host.readError = none ∧ ∃ bytes, disk.entry path = some (.file bytes)) ∧ s' = s)
      fun _ s' => ¬(host.readError = none ∧ ∃ bytes, disk.entry path = some (.file bytes)) ∧
        s' = s := by
  refine orRaise_bind (fun herror => .look ?_) fun herror _ => ⟨fun hread => herror hread.1, rfl⟩
  have hraise (hnone : ∀ bytes, s.disk.entry path ≠ some (.file bytes)) :
      ¬∃ bytes, disk.entry path = some (.file bytes) := by
    rintro ⟨bytes, hbytes⟩
    exact hnone bytes ((h.files path bytes).mpr hbytes)
  rcases hfound : s.disk.entry path with _ | _ | bytes
  · exact .raise ⟨fun hread => hraise (by simp [hfound]) hread.2, rfl⟩
  · exact .raise ⟨fun hread => hraise (by simp [hfound]) hread.2, rfl⟩
  · exact .pure ⟨⟨herror, bytes, (h.files path bytes).mp hfound⟩, rfl⟩

theorem writeBytes_spec (h : Building disk root names s) (hname : name ∉ names)
    (bytes : List UInt8) :
    (writeBytes host root name bytes).Triple s 1
      (fun _ s' => host.writeError = none ∧ Working disk root s')
      fun _ s' => host.writeError ≠ none ∧ Working disk root s' := by
  unfold writeBytes
  split
  · next hnone =>
    obtain ⟨changed, hchanged, hworking⟩ := h.write hname bytes
    exact changeDisk_spec hchanged ⟨hnone, hworking⟩
  · next hsome _ => exact .raise ⟨by simp [hsome], h.toWorking⟩
  · next copied hsome _ =>
    obtain ⟨changed, hchanged, hworking⟩ := h.write hname copied
    refine Thread.Triple.bind (n := 1) (m := 0) (M := fun _ s' => Working disk root s')
      (changeDisk_spec hchanged hworking) fun _ s' h' => .raise ⟨by simp [hsome], h'⟩

/-- Making the copy: whatever raises leaves the scratch directory there. -/
theorem prepareCopy_spec (h : Building disk root [] s) :
    (prepareCopy host path root).Triple s 3
      (fun _ s' => PreparesCopy host disk path ∧ Working disk root s')
      fun _ s' => ¬PreparesCopy host disk path ∧ Working disk root s' := by
  show Thread.Triple _ _ (1 + (1 + (0 + (1 + 0)))) _ _
  refine ((makeDirectory_spec h List.not_mem_nil _).mono (fun _ _ h' => h') ?_).bind ?_
  · exact fun _ s' h' => ⟨fun hcopy => h'.1 hcopy.outputDir, h'.2⟩
  rintro _ s₁ ⟨hout, h₁⟩
  refine ((makeDirectory_spec h₁ (by decide) _).mono (fun _ _ h' => h') ?_).bind ?_
  · exact fun _ s' h' => ⟨fun hcopy => h'.1 hcopy.profileDir, h'.2⟩
  rintro _ s₂ ⟨hprofile, h₂⟩
  refine ((readBytes_spec h₂).mono (fun _ _ h' => h') ?_).bind ?_
  · rintro _ s' ⟨hread, rfl⟩
    exact ⟨fun hcopy => hread ⟨hcopy.read, hcopy.upload⟩, h₂.toWorking⟩
  rintro bytes s₃ ⟨hread, rfl⟩
  refine ((writeBytes_spec h₂ (by decide) bytes).mono (fun _ _ h' => h') ?_).bind ?_
  · exact fun _ s' h' => ⟨fun hcopy => h'.1 hcopy.write, h'.2⟩
  rintro _ s₄ ⟨hwrite, h₄⟩
  refine (orRaise_spec _).mono ?_ ?_
  · rintro _ s' ⟨hresolve, rfl⟩
    exact ⟨⟨hout, hprofile, hread.1, hread.2, hwrite, hresolve⟩, h₄⟩
  · rintro _ s' ⟨hresolve, rfl⟩
    exact ⟨fun hcopy => hresolve hcopy.profile, h₄⟩

/-! ## Taking what LibreOffice leaves -/

section Giving

variable {α : Type} {returnCode : Option Int} {timedOut : Bool} {error : IntakeError}

/-- A handler removes the scratch directory and raises. -/
theorem giveUp_spec (h : Working disk root s) {n : ℕ} {Q : α → ExtractionState → Prop} :
    (giveUp host root returnCode timedOut error).Triple s n Q
      fun _ s' => AfterRemoval host disk root s' := (h.removed host).recorded _

/-- From its first change on the directory is gone, if it can be removed. -/
theorem giveUp_after (h : Working disk root s) (hall : host.unremoved = none) (m : ℕ) :
    Cleaned disk ((giveUp host root returnCode timedOut error : Threaded α).after (m + 1) s).2 := by
  obtain ⟨-, hcleaned⟩ | ⟨hrest, -⟩ := h.removed host
  · have hlater : (do logDocConversion returnCode timedOut true; .raise (.intake error) :
        Threaded α).Always (Cleaned disk) (removed host root s) :=
      ⟨hcleaned, hcleaned.recorded _⟩
    exact hlater.after m
  · exact absurd hall hrest

end Giving

theorem pathExists_spec :
    (pathExists host path).Triple s 0
      (fun found s' => host.existsError = none ∧ found = (s.disk.entry path).isSome ∧ s' = s)
      fun _ s' => host.existsError ≠ none ∧ s' = s :=
  orRaise_bind (fun herror => .look (.pure ⟨herror, rfl, rfl⟩)) fun herror _ => ⟨herror, rfl⟩

/-- The check of the result, of which a failure to look is the one way to raise. -/
theorem conversionFailed_spec (returncode : Int) :
    (conversionFailed host returncode path).Triple s 0
      (fun failed s' => (returncode = 0 → host.existsError = none) ∧
        (failed = false ↔ returncode = 0 ∧ (s.disk.entry path).isSome) ∧ s' = s)
      fun _ s' => ¬(returncode = 0 → host.existsError = none) ∧ s' = s := by
  unfold conversionFailed
  by_cases hcode : returncode = 0
  · rw [if_neg (by simp [hcode])]
    refine (pathExists_spec.mono (fun _ _ h => h) ?_).bind (m := 0) ?_
    · exact fun _ s' h => ⟨fun h' => h.1 (h' hcode), h.2⟩
    · rintro found _ ⟨herror, rfl, rfl⟩
      exact .pure ⟨fun _ => herror, by simp [hcode], rfl⟩
  · rw [if_pos hcode]
    exact .pure ⟨fun h => absurd h hcode, by simp [hcode], rfl⟩

/-- LibreOffice has been there. -/
def Filled (host : Host) (root : DiskPath) (s : ExtractionState) : Prop :=
  s.disk.entry (root ++ ["out", "input.docx"]) = host.leftBehind.entry ["out", "input.docx"]

theorem converts_iff (hfilled : Filled host root s) {returncode : Int}
    (houtcome : host.libreOffice = .completed returncode) :
    Converts host ↔ returncode = 0 ∧ (s.disk.entry (root ++ ["out", "input.docx"])).isSome := by
  unfold Converts
  rw [hfilled, houtcome, SubprocessOutcome.completed.injEq]

theorem handled_iff {returncode : Int} (houtcome : host.libreOffice = .completed returncode) :
    Handled host ↔ (returncode = 0 → host.existsError = none) := by
  unfold Handled
  rw [houtcome]

/-- The end of the conversion: it returns the converted document if there is one, and a
failure that no handler is written for leaves the scratch directory there. -/
theorem takeConverted_spec (h : Working disk root s) (hfilled : Filled host root s) :
    (takeConverted settings host root).Triple s 1
      (fun converted s' => converted = root ++ ["out", "input.docx"] ∧ Handled host ∧
        Converts host ∧ Working disk root s')
      fun _ s' => (Handled host ∧ ¬Converts host ∧ AfterRemoval host disk root s') ∨
        (¬Handled host ∧ Working disk root s') := by
  unfold takeConverted
  -- every way of giving up does the same
  have hgiveUp (hhandled : Handled host) (hconverts : ¬Converts host) (returnCode : Option Int)
      (timedOut : Bool) (error : IntakeError) {Q : DiskPath → ExtractionState → Prop} :
      (giveUp host root returnCode timedOut error).Triple s 1 Q
        fun _ s' => (Handled host ∧ ¬Converts host ∧ AfterRemoval host disk root s') ∨
          (¬Handled host ∧ Working disk root s') :=
    (giveUp_spec h).mono (fun _ _ h' => h') fun _ _ h' => .inl ⟨hhandled, hconverts, h'⟩
  cases houtcome : host.libreOffice with
  | timeoutExpired =>
    exact hgiveUp (by simp [Handled, houtcome]) (by simp [Converts, houtcome]) _ _ _
  | fileNotFound =>
    exact hgiveUp (by simp [Handled, houtcome]) (by simp [Converts, houtcome]) _ _ _
  | osError => exact hgiveUp (by simp [Handled, houtcome]) (by simp [Converts, houtcome]) _ _ _
  | raises error => exact .raise (.inr ⟨by simp [Handled, houtcome], h⟩)
  | completed returncode =>
    refine ((conversionFailed_spec returncode).mono (fun _ _ h' => h') ?_).bind (m := 1) ?_
    · rintro _ s' ⟨herror, rfl⟩
      exact .inr ⟨fun h' => herror ((handled_iff houtcome).mp h'), h⟩
    · rintro failed _ ⟨herror, hfailed, rfl⟩
      rw [← converts_iff hfilled houtcome] at hfailed
      cases failed with
      | true =>
        refine hgiveUp ((handled_iff houtcome).mpr herror) (fun h' => ?_) _ _ _
        exact absurd (hfailed.mpr h') (by simp)
      | false =>
        refine Thread.Triple.bind (n := 1) (m := 0) (M := fun _ s' => Working disk root s')
          (.act (h.congr rfl rfl)) fun _ s' h' => ?_
        exact .pure ⟨rfl, (handled_iff houtcome).mpr herror, hfailed.mp rfl, h'⟩

/-- From its first change on a conversion that fails has removed the directory. -/
theorem takeConverted_after (h : Working disk root s) (hfilled : Filled host root s)
    (hhandled : Handled host) (hconverts : ¬Converts host) (hall : host.unremoved = none) (m : ℕ) :
    Cleaned disk ((takeConverted settings host root).after (m + 1) s).2 := by
  unfold takeConverted
  cases houtcome : host.libreOffice with
  | timeoutExpired => exact giveUp_after h hall m
  | fileNotFound => exact giveUp_after h hall m
  | osError => exact giveUp_after h hall m
  | raises error =>
    unfold Handled at hhandled
    rw [houtcome] at hhandled
    exact hhandled.elim
  | completed returncode =>
    rw [← Nat.zero_add (m + 1)]
    refine (conversionFailed_spec returncode).moment ?_ ?_
    · exact fun _ _ h' => h'.1 ((handled_iff houtcome).mp hhandled)
    · rintro failed _ ⟨-, hfailed, rfl⟩
      rw [← converts_iff hfilled houtcome] at hfailed
      cases failed with
      | true => exact giveUp_after h hall m
      | false => exact absurd (hfailed.mp rfl) hconverts

/-! ## The directory that `mkdtemp` makes -/

/-- A name that the `finally` of `extract` recognises. -/
def ScratchName (root : DiskPath) : Prop :=
  ∃ parent candidate, root = parent ++ [scratchStart ++ candidate]

theorem startsWith_append (text rest : String) : startsWith (text ++ rest) text = true := by
  unfold startsWith
  rw [String.toList_append, List.isPrefixOf_iff_prefix]
  exact List.prefix_append _ _

/-- The walk up from the converted file ends at the scratch directory. -/
theorem cleanupConversionPath_eq (h : ScratchName root) :
    cleanupConversionPath host (root ++ ["out", "input.docx"]) =
      Program.step fun s => ((), removed host root s) := by
  obtain ⟨parent, candidate, rfl⟩ := h
  have hparents : FileTree.parents (parent ++ [scratchStart ++ candidate] ++ ["out", "input.docx"]) =
      (parent ++ [scratchStart ++ candidate] ++ ["out"]) ::
        (parent ++ [scratchStart ++ candidate]) :: FileTree.parents (parent ++ [scratchStart ++ candidate]) := by
    rw [show ["out", "input.docx"] = ["out"] ++ ["input.docx"] from rfl, ← List.append_assoc]
    rw [FileTree.parents_append_singleton, FileTree.parents_append_singleton]
  unfold cleanupConversionPath
  rw [hparents, List.find?_cons_of_neg, List.find?_cons_of_pos]
  · simp [startsWith_append]
  · rw [List.getLast?_append_cons]
    decide

theorem makeScratch_eq_some {made : DiskPath × Disk} (h : makeScratch host disk = some made) :
    ScratchName made.1 ∧ ∀ s : ExtractionState, s.disk = disk → s.scratch = [] →
      Building disk made.1 [] { s with disk := made.2, scratch := s.scratch ++ [made.1] } := by
  obtain ⟨candidate, -, hmade⟩ := List.exists_of_findSome?_eq_some h
  obtain ⟨changed, hchanged, rfl⟩ := Option.map_eq_some_iff.mp hmade
  have hfree := (FileTree.mkdir_isSome_iff.mp (Option.isSome_of_eq_some hchanged)).2
  refine ⟨⟨_, _, rfl⟩, ?_⟩
  rintro s rfl hscratch
  refine ⟨⟨hfree, ?_, .mkdir (List.prefix_refl _) hchanged, by rw [hscratch]; rfl⟩, ?_, ?_⟩
  · rw [FileTree.entry_mkdir hchanged, if_pos rfl]
  · intro name _
    rw [FileTree.entry_mkdir hchanged, if_neg (by simp)]
    exact FileTree.entry_below hfree (List.prefix_append _ _)
  · exact FileTree.mkdir_file_iff hchanged

theorem mkdtemp_spec (hdisk : s.disk = disk) (hscratch : s.scratch = []) :
    (mkdtemp host).Triple s 1
      (fun root s' => (host.tempError = none ∧ (makeScratch host disk).isSome) ∧
        ScratchName root ∧ Building disk root [] s')
      fun _ s' => ¬(host.tempError = none ∧ (makeScratch host disk).isSome) ∧ s' = s := by
  refine orRaise_bind (fun herror => .look ?_) fun herror _ => ⟨fun h => herror h.1, rfl⟩
  rw [hdisk]
  cases hmade : makeScratch host disk with
  | none => exact .raise ⟨by simp, rfl⟩
  | some made =>
    obtain ⟨hname, hbuilding⟩ := makeScratch_eq_some hmade
    refine Thread.Triple.bind (n := 1) (m := 0) (.act (Q := fun _ s' =>
      s' = { s with disk := made.2, scratch := s.scratch ++ [made.1] }) rfl) ?_
    rintro _ _ rfl
    exact .pure ⟨⟨herror, rfl⟩, hname, hbuilding s hdisk hscratch⟩

/-! ## The conversion -/

/-- How the conversion raises. -/
inductive Raised (settings : ExtractionSettings) (host : Host) (disk : Disk) (path : DiskPath)
    (s : ExtractionState) : Prop where
  | idle (unmade : ¬MakesScratch settings host disk) (cleaned : Cleaned disk s)
  | failed {root : DiskPath} (made : MakesScratch settings host disk)
      (copied : PreparesCopy host disk path) (handled : Handled host)
      (unconverted : ¬Converts host) (removal : AfterRemoval host disk root s)
  | uncovered {root : DiskPath} (made : MakesScratch settings host disk)
      (unhandled : ¬(PreparesCopy host disk path ∧ Handled host)) (working : Working disk root s)

/-- What LibreOffice leaves lies where it is looked for. -/
theorem Working.filled (h : Working disk root s) (host : Host) :
    Working disk root { s with disk := s.disk.fill root host.leftBehind } ∧
      Filled host root { s with disk := s.disk.fill root host.leftBehind } :=
  ⟨⟨h.fresh, (FileTree.entry_fill_self _ _ _).trans h.made, h.agree.trans (.fill _), h.scratch⟩,
    FileTree.entry_fill_append h.made (by simp)⟩

/-- A conversion returns a document in a scratch directory, or it raises. -/
theorem convertDocToDocx_spec (hdisk : s.disk = disk) (hscratch : s.scratch = []) :
    (convertDocToDocx settings host path).Triple s 6
      (fun converted s' => ∃ root, converted = root ++ ["out", "input.docx"] ∧ ScratchName root ∧
        Working disk root s' ∧ MakesScratch settings host disk ∧ PreparesCopy host disk path ∧
        Handled host ∧ Converts host)
      fun _ s' => Raised settings host disk path s' := by
  have hcleaned : Cleaned disk s := ⟨hdisk, by simp [hscratch]⟩
  show Thread.Triple _ _ (0 + (1 + (3 + (1 + 1)))) _ _
  refine Thread.Triple.bind (M := fun found s' =>
    resolveExecutable host settings.libreofficeBinary = .ok found ∧ s' = s)
    (.ofExcept (fun _ h => ⟨h, rfl⟩) fun e herror => .idle (fun hmakes => ?_) hcleaned) ?_
  · obtain ⟨binary, hbinary⟩ := hmakes.binary
    rw [herror] at hbinary
    exact absurd hbinary (by simp)
  rintro found s ⟨hfound, rfl⟩
  cases found with
  | none =>
    refine Thread.Triple.bind (M := fun _ s' => Cleaned disk s') (.act (hcleaned.recorded _))
      fun _ s' h' => .raise (.idle (fun hmakes => ?_) h')
    obtain ⟨binary, hbinary⟩ := hmakes.binary
    rw [hfound] at hbinary
    exact absurd hbinary (by simp)
  | some binary =>
    refine ((mkdtemp_spec hdisk hscratch).mono (fun _ _ h => h) ?_).bind ?_
    · rintro _ s' ⟨htemp, rfl⟩
      exact .idle (fun hmakes => htemp ⟨hmakes.temp, hmakes.name⟩) hcleaned
    rintro root s' ⟨⟨htemp, hmade⟩, hname, hbuilding⟩
    have hmakes : MakesScratch settings host disk := ⟨⟨binary, hfound⟩, htemp, hmade⟩
    refine ((prepareCopy_spec hbuilding).mono (fun _ _ h => h) ?_).bind ?_
    · exact fun _ s'' h => .uncovered hmakes (fun h' => h.1 h'.1) h.2
    rintro _ s'' ⟨hcopy, hworking⟩
    obtain ⟨hworking', hfilled⟩ := hworking.filled host
    refine Thread.Triple.bind (.act (Q := fun _ s' =>
      s' = { s'' with disk := s''.disk.fill root host.leftBehind }) rfl) ?_
    rintro _ _ rfl
    refine (takeConverted_spec hworking' hfilled).mono ?_ ?_
    · rintro converted s₃ ⟨hpath, hhandled, hconverts, h₃⟩
      exact ⟨root, hpath, hname, h₃, hmakes, hcopy, hhandled, hconverts⟩
    · rintro _ s₃ (⟨hhandled, hconverts, h₃⟩ | ⟨hhandled, h₃⟩)
      · exact .failed hmakes hcopy hhandled hconverts h₃
      · exact .uncovered hmakes (fun h' => hhandled h'.2) h₃

/-- `mkdtemp` that makes no directory does nothing. -/
theorem mkdtemp_idle (hdisk : s.disk = disk) (hscratch : s.scratch = [])
    (h : ¬(host.tempError = none ∧ (makeScratch host disk).isSome)) :
    (mkdtemp host).Always (Cleaned disk) s := by
  have hcleaned : Cleaned disk s := ⟨hdisk, by simp [hscratch]⟩
  unfold mkdtemp
  cases htemp : host.tempError with
  | some text => exact hcleaned
  | none =>
    have hnone : makeScratch host s.disk = none := by
      rw [hdisk]
      by_contra hne
      exact h ⟨htemp, Option.isSome_iff_ne_none.mpr hne⟩
    refine Thread.Always.look ?_
    simp only [hnone]
    exact hcleaned

/-- Where no scratch directory is made, there is none at any moment. -/
theorem convertDocToDocx_idle (hdisk : s.disk = disk) (hscratch : s.scratch = [])
    (h : ¬MakesScratch settings host disk) :
    (convertDocToDocx settings host path).Always (Cleaned disk) s := by
  have hcleaned : Cleaned disk s := ⟨hdisk, by simp [hscratch]⟩
  unfold convertDocToDocx
  cases hfound : resolveExecutable host settings.libreofficeBinary with
  | error e => exact hcleaned
  | ok found =>
    cases found with
    | none => exact ⟨hcleaned, hcleaned.recorded _⟩
    | some binary =>
      have hunmade : ¬(host.tempError = none ∧ (makeScratch host disk).isSome) :=
        fun hmade => h ⟨⟨binary, hfound⟩, hmade.1, hmade.2⟩
      refine (mkdtemp_idle hdisk hscratch hunmade).bind_ok fun root s' hmade => ?_
      exact absurd ((mkdtemp_spec hdisk hscratch).of_ok hmade).1 hunmade

/-- Five changes bring a conversion to the end of LibreOffice. -/
theorem convertDocToDocx_moment (hdisk : s.disk = disk) (hscratch : s.scratch = [])
    (hmakes : MakesScratch settings host disk) (hcopy : PreparesCopy host disk path) (m : ℕ)
    {I : ExtractionState → Prop} (hI : ∀ root s', Working disk root s' → Filled host root s' →
      I ((takeConverted settings host root).after m s').2) :
    I ((convertDocToDocx settings host path).after (m + 5) s).2 := by
  obtain ⟨binary, hbinary⟩ := hmakes.binary
  unfold convertDocToDocx
  rw [hbinary, show m + 5 = 1 + (3 + (m + 1)) by omega]
  refine (mkdtemp_spec hdisk hscratch).moment (fun _ _ h => h.1 ⟨hmakes.temp, hmakes.name⟩) ?_
  rintro root s₁ ⟨-, -, hbuilding⟩
  refine (prepareCopy_spec hbuilding).moment (fun _ _ h => h.1 hcopy) ?_
  rintro _ s₂ ⟨-, hworking⟩
  exact hI root _ (hworking.filled host).1 (hworking.filled host).2

/-! ## The rest of `extract` -/

/-- Whatever comes of the call of MarkItDown, its `finally` removes the scratch
directory. -/
theorem callMarkItDown_spec {documentType : SupportedDocumentType} {uploadPath : DiskPath}
    {extension : String} (h : Working disk root s) (hname : ScratchName root)
    (hupload : ∃ bytes, disk.entry uploadPath = some (.file bytes)) :
    Program.Triple (callMarkItDown host documentType uploadPath (root ++ ["out", "input.docx"])
      extension) s (fun _ s' => AfterRemoval host disk root s')
      fun _ s' => AfterRemoval host disk root s' := by
  have hne : root ++ ["out", "input.docx"] ≠ uploadPath := by
    rintro rfl
    obtain ⟨bytes, hbytes⟩ := hupload
    rw [FileTree.entry_below h.fresh (List.prefix_append _ _)] at hbytes
    exact absurd hbytes (by simp)
  unfold callMarkItDown
  rw [if_pos hne, cleanupConversionPath_eq hname]
  refine Program.Triple.ensure (M := fun _ s' => Working disk root s') ?_ ?_
  · refine Program.Triple.bind (M := fun _ s' => Working disk root s')
      (.step (h.congr rfl rfl)) fun _ s' h' => ?_
    cases host.convertLocal with
    | ok textContent => exact .pure h'
    | error error =>
      by_cases hexception : error.isException = true
      · simp only [if_pos hexception]
        exact Program.Triple.bind (M := fun _ s'' => Working disk root s'')
          (.step (h'.congr rfl rfl)) fun _ s'' h'' => .throw h''
      · simp only [if_neg hexception]
        exact .throw h'
  · intro result s' h'
    exact .step ⟨fun _ _ => h'.removed host, fun _ _ => h'.removed host⟩

theorem convertToMarkdown_spec {documentType : SupportedDocumentType}
    {preflight : Option PdfPreflightResult} {uploadPath : DiskPath} {extension : String}
    (h : Working disk root s) (hname : ScratchName root)
    (hupload : ∃ bytes, disk.entry uploadPath = some (.file bytes)) :
    Program.Triple (convertToMarkdown host documentType preflight uploadPath
      (root ++ ["out", "input.docx"]) extension) s (fun _ s' => AfterRemoval host disk root s')
      fun _ s' => AfterRemoval host disk root s' := by
  have hlogged (event : ExtractionEvent) {s' : ExtractionState}
      (h' : AfterRemoval host disk root s') {R : PyError → ExtractionState → Prop} :
      Program.Triple (logExtraction event) s' (fun _ s'' => AfterRemoval host disk root s'') R :=
    .step (h'.recorded event)
  unfold convertToMarkdown
  refine (callMarkItDown_spec h hname hupload).bind fun textContent s' h' => ?_
  cases textContent.filter (strip · ≠ "") with
  | none => exact (hlogged _ h').bind fun _ s'' h'' => .throw h''
  | some markdown =>
    refine (hlogged _ h').bind fun _ s'' h'' => ?_
    exact (hlogged _ h'').bind fun _ s₃ h₃ => .pure h₃

/-! ## A whole run -/

section Runs

variable {extractor : MarkItDownExtractor} {upload : StoredUpload}

theorem Raised.removed_iff (h : Raised settings host disk path s) (hwaits : RemovedInTime host) :
    ScratchRemoved disk path s ↔ Caught settings host disk path := by
  cases h with
  | idle unmade cleaned => exact iff_of_true (cleaned.removed path) fun made => absurd made unmade
  | failed made copied handled unconverted removal =>
    rw [removal.removed_iff path]
    exact ⟨fun hall _ => ⟨copied, handled, hall, hwaits⟩, fun hcovered => (hcovered made).2.2.1⟩
  | uncovered made unhandled working =>
    refine iff_of_false (working.not_removed path) fun hcovered => unhandled ?_
    exact ⟨(hcovered made).1, (hcovered made).2.1⟩

/-- A task that is not cancelled sees the conversion to its end, and after it the
`finally`. -/
theorem removed_iff_of_waits (hdoc : upload.documentType = .doc)
    (hcancelled : extractor.host.cancelled = none) :
    ScratchRemoved disk (extractor.host.pathOf upload.path)
        ((extractor.extract upload).outcome { disk := disk }).2 ↔
      Caught extractor.settings extractor.host disk (extractor.host.pathOf upload.path) := by
  have hwaits : RemovedInTime extractor.host := fun steps h => by
    rw [hcancelled] at h
    cases h
  refine Program.Triple.state (I := fun s => ScratchRemoved disk
    (extractor.host.pathOf upload.path) s ↔ _) ?_
  unfold MarkItDownExtractor.extract inThread
  simp only [hdoc, hcancelled]
  refine ((convertDocToDocx_spec rfl rfl).awaited.mono (fun _ _ h => h) ?_).bind ?_
  · exact fun _ s' h => h.removed_iff hwaits
  · rintro _ s' ⟨root, rfl, hname, hworking, hmakes, hcopy, hhandled, -⟩
    have hremoved {s'' : ExtractionState} (h : AfterRemoval extractor.host disk root s'') :
        ScratchRemoved disk (extractor.host.pathOf upload.path) s'' ↔
          Caught extractor.settings extractor.host disk (extractor.host.pathOf upload.path) := by
      rw [h.removed_iff]
      exact ⟨fun hall _ => ⟨hcopy, hhandled, hall, hwaits⟩, fun hcaught => (hcaught hmakes).2.2.1⟩
    exact (convertToMarkdown_spec hworking hname hcopy.upload).mono (fun _ _ h => hremoved h)
      fun _ _ h => hremoved h

/-- What a cancelled task leaves behind it, from the moment on at which it raises. -/
theorem removed_iff_of_cancelled {steps : ℕ} (hcancelled : host.cancelled = some (.after steps)) :
    (∀ further, ScratchRemoved disk path
        ((convertDocToDocx settings host path).after (steps + further) { disk := disk }).2) ↔
      Caught settings host disk path := by
  have hspec := @convertDocToDocx_spec settings host disk path { disk := disk } rfl rfl
  constructor
  · intro hremoved hmakes
    -- in the end the thread has removed the directory
    have hend := hremoved ((convertDocToDocx settings host path).steps { disk := disk })
    rw [Thread.after_of_steps_le (Nat.le_add_left _ _)] at hend
    obtain ⟨hcopy, hhandled, hconverts, hall⟩ : PreparesCopy host disk path ∧ Handled host ∧
        ¬Converts host ∧ host.unremoved = none := by
      rcases hrun : (convertDocToDocx settings host path).run { disk := disk } with ⟨e | a, s'⟩
      · rw [hrun] at hend
        cases hspec.of_error hrun with
        | idle unmade _ => exact absurd hmakes unmade
        | failed _ copied handled unconverted removal =>
          exact ⟨copied, handled, unconverted, (removal.removed_iff path).mp hend⟩
        | uncovered _ _ working => exact absurd hend (working.not_removed path)
      · rw [hrun] at hend
        obtain ⟨root, -, -, hworking, -⟩ := hspec.of_ok hrun
        exact absurd hend (hworking.not_removed path)
    refine ⟨hcopy, hhandled, hall, fun steps' hsteps => ⟨hconverts, ?_⟩⟩
    obtain rfl : steps = steps' := by
      rw [hcancelled] at hsteps
      exact Cancellation.after.inj (Option.some.inj hsteps)
    -- and it had removed it already when the task raised
    by_contra hearly
    have hfive := hremoved (5 - steps)
    have hmoment : steps + (5 - steps) = 0 + 5 := by
      unfold removalStep at hearly
      omega
    rw [hmoment] at hfive
    revert hfive
    refine convertDocToDocx_moment (I := (¬ScratchRemoved disk path ·)) rfl rfl hmakes hcopy 0 ?_
    intro root s' hworking _
    rw [Thread.after_zero]
    exact hworking.not_removed path
  · intro hcaught further
    by_cases hmakes : MakesScratch settings host disk
    · obtain ⟨hcopy, hhandled, hall, hintime⟩ := hcaught hmakes
      obtain ⟨hconverts, hsteps⟩ := hintime steps hcancelled
      obtain ⟨m, hm⟩ : ∃ m, steps + further = m + 1 + 5 := by
        unfold removalStep at hsteps
        exact ⟨steps + further - 6, by omega⟩
      rw [hm]
      refine convertDocToDocx_moment (I := ScratchRemoved disk path) rfl rfl hmakes hcopy _ ?_
      intro root s' hworking hfilled
      exact (takeConverted_after hworking hfilled hhandled hconverts hall m).removed path
    · have hidle := @convertDocToDocx_idle settings host disk path { disk := disk } rfl rfl hmakes
      exact (hidle.after _).removed path

end Runs

/-- **The scratch directory is gone exactly when no failure gets past the places that
remove it**: from the end of every run of `extract` on a legacy Word document on, whatever
the disk is at the start and whatever the run meets. -/
theorem scratch_removed_iff (extractor : MarkItDownExtractor) (disk : Disk)
    {upload : StoredUpload} (hdoc : upload.documentType = .doc) :
    (∀ further, ScratchRemoved disk (extractor.host.pathOf upload.path)
        (extractor.stateLater upload further { disk := disk })) ↔
      Covered extractor.settings extractor.host disk (extractor.host.pathOf upload.path) := by
  unfold MarkItDownExtractor.stateLater Covered
  rcases hcancelled : extractor.host.cancelled with _ | _ | steps
  · simp only [hdoc, reduceCtorEq, false_or]
    rw [removed_iff_of_waits hdoc hcancelled]
    exact forall_const ℕ
  · refine iff_of_true (fun _ => ?_) (Or.inl rfl)
    unfold MarkItDownExtractor.extract inThread
    simp only [hdoc, hcancelled]
    have hcleaned : Cleaned disk { disk := disk } := ⟨rfl, by simp⟩
    exact hcleaned.removed _
  · simp only [hdoc, Option.some.injEq, reduceCtorEq, false_or, Thread.after_add]
    exact removed_iff_of_cancelled hcancelled

/-- A disk with an upload on it. -/
def uploadDisk : Disk :=
  (FileTree.bare.place [] "tmp" .directory rfl (by decide)).place ["tmp"] "upload.doc" (.file [1])
    (by decide) (by decide)

/-- A run in which nothing fails. -/
def calmHost : Host where
  pathOf _ := ["tmp", "upload.doc"]
  isExecutable _ := true
  which := some
  tempDir := ["tmp"]
  candidates := ["a"]
  libreOffice := .completed 0
  leftBehind := (FileTree.bare.place [] "out" .directory rfl (by decide)).place ["out"] "input.docx"
    (.file [2]) (by decide) (by decide)
  convertLocal := .ok (some "text")

theorem calm_run_removed :
    ScratchRemoved uploadDisk ["tmp", "upload.doc"]
      (MarkItDownExtractor.stateLater ⟨{}, calmHost⟩ ⟨0, .doc, 1, none, none⟩ 0
        { disk := uploadDisk }) := by
  refine (@scratch_removed_iff ⟨{}, calmHost⟩ uploadDisk ⟨0, .doc, 1, none, none⟩ rfl).mpr ?_ 0
  refine Or.inr fun _ => ⟨⟨rfl, rfl, rfl, ⟨[1], by decide⟩, rfl, rfl⟩, fun _ => rfl, rfl, ?_⟩
  intro steps h
  cases h

/-- Where the copy cannot be written the scratch directory stays. -/
theorem full_disk_leaves_scratch :
    ¬ScratchRemoved uploadDisk ["tmp", "upload.doc"]
      ((MarkItDownExtractor.extract
        ⟨{}, { calmHost with writeError := some "No space left on device" }⟩
        ⟨0, .doc, 1, none, none⟩).outcome { disk := uploadDisk }).2 := by
  intro h
  have hgone := h.scratch ["tmp", "internum-doc-convert-a"] (by decide)
  exact absurd hgone (by decide)

end InternumCore
