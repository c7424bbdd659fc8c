import InternumCore.Extraction

/-!
# What the preflight of a PDF decides

A page has its text in it, is an image to be read by OCR, or has nothing on it.
`_preflight_pdf` counts the three kinds in one loop, which also collects the texts
and which ends early at an image that is too large.

`tallyPages_ok_iff` says what the loop comes to: it runs to its end exactly when
every image is within the budget, and then it has counted every page once and has
the texts in their order.  `preflight_contract` is what follows for the whole: when
a document is let through, what is reported of it, and that a document whose text
is all there never gets to MarkItDown.
-/

namespace InternumCore

/-! ## The kinds of pages -/

/-- An image without text. -/
def PdfPage.scanLike (page : PdfPage) : Bool := !page.hasNativeText && page.hasImage

/-- Neither text nor an image. -/
def PdfPage.isBlank (page : PdfPage) : Bool := !page.hasNativeText && !page.hasImage

/-- Every page is of one kind. -/
theorem kinds_add_up (pages : List PdfPage) :
    pages.countP (·.hasNativeText) + pages.countP (·.scanLike) + pages.countP (·.isBlank) =
      pages.length := by
  induction pages with
  | nil => rfl
  | cons page pages ih =>
    have hone : (if page.hasNativeText then 1 else 0) + (if page.scanLike then 1 else 0) +
        (if page.isBlank then 1 else 0) = 1 := by
      unfold PdfPage.scanLike PdfPage.isBlank
      cases page.hasNativeText <;> cases page.hasImage <;> rfl
    simp only [List.countP_cons, List.length_cons]
    omega

/-! ## The loop over the pages -/

/-- An image to be read is not too large. -/
def InBudget (settings : ExtractionSettings) (page : PdfPage) : Prop :=
  page.scanLike = true → page.widthPixels * page.heightPixels ≤ settings.maxOcrRenderedPixels

/-- A tally with some more pages in it. -/
def PageTally.after (tally : PageTally) (pages : List PdfPage) : PageTally where
  nativeTextPages := tally.nativeTextPages + pages.countP (·.hasNativeText)
  scanLikePages := tally.scanLikePages + pages.countP (·.scanLike)
  emptyPages := tally.emptyPages + pages.countP (·.isBlank)
  pageTexts := tally.pageTexts ++ pages.map (·.rawText)

theorem PageTally.after_nil (tally : PageTally) : tally.after [] = tally := by
  simp [PageTally.after]

theorem PageTally.after_cons (tally : PageTally) (page : PdfPage) (pages : List PdfPage) :
    tally.after (page :: pages) = (tally.after [page]).after pages := by
  simp only [PageTally.after, List.countP_cons, List.countP_nil, List.map_cons, List.map_nil,
    List.append_assoc, List.singleton_append, Nat.zero_add, PageTally.mk.injEq]
  refine ⟨?_, ?_, ?_, trivial⟩ <;> omega

variable {settings : ExtractionSettings}

theorem bind_eq_ok_iff {ε α β : Type} {x : Except ε α} {f : α → Except ε β} {b : β} :
    x >>= f = .ok b ↔ ∃ a, x = .ok a ∧ f a = .ok b := by
  cases x with
  | error e => exact ⟨fun h => absurd h (by simp [bind, Except.bind]), fun ⟨a, h, _⟩ => absurd h (by simp)⟩
  | ok a => exact ⟨fun h => ⟨a, rfl, h⟩, fun ⟨_, h, hf⟩ => Except.ok.inj h ▸ hf⟩

theorem throw_ne_ok {ε α : Type} (e : ε) (a : α) : (throw e : Except ε α) ≠ .ok a :=
  fun h => absurd h (by simp [throw, throwThe, MonadExceptOf.throw])

theorem enforceOcrPixelBudget_ok_iff {page : PdfPage} {result : Unit} :
    enforceOcrPixelBudget settings page = .ok result ↔
      page.widthPixels * page.heightPixels ≤ settings.maxOcrRenderedPixels := by
  unfold enforceOcrPixelBudget
  by_cases h : settings.maxOcrRenderedPixels < page.widthPixels * page.heightPixels
  · simp only [if_pos h]
    exact ⟨fun he => absurd he (by simp), fun hle => absurd h (by omega)⟩
  · simp only [if_neg h]
    exact ⟨fun _ => by omega, fun _ => trivial⟩

/-- One page: it is counted as what it is, unless it is too large. -/
theorem tallyPage_ok_iff {tally tally' : PageTally} {page : PdfPage} :
    tallyPage settings tally page = .ok tally' ↔
      InBudget settings page ∧ tally' = tally.after [page] := by
  unfold tallyPage countPage InBudget
  rw [bind_eq_ok_iff]
  by_cases hnative : page.hasNativeText = true
  · have hscan : page.scanLike = false := by simp [PdfPage.scanLike, hnative]
    have hblank : page.isBlank = false := by simp [PdfPage.isBlank, hnative]
    simp [PageTally.after, hnative, hscan, hblank, pure, Except.pure, eq_comm]
  · by_cases himage : page.hasImage = true
    · have hscan : page.scanLike = true := by simp [PdfPage.scanLike, hnative, himage]
      have hblank : page.isBlank = false := by simp [PdfPage.isBlank, himage]
      rw [if_neg hnative, if_pos himage]
      simp only [bind_eq_ok_iff, enforceOcrPixelBudget_ok_iff]
      simp [PageTally.after, hnative, hscan, hblank, pure, Except.pure, eq_comm]
    · have hscan : page.scanLike = false := by simp [PdfPage.scanLike, himage]
      have hblank : page.isBlank = true := by simp [PdfPage.isBlank, hnative, himage]
      rw [if_neg hnative, if_neg himage]
      simp [PageTally.after, hnative, hscan, hblank, pure, Except.pure, eq_comm]

/-- The whole loop: no page may be too large, and every page is counted once. -/
theorem tallyPages_ok_iff {tally tally' : PageTally} {pages : List PdfPage} :
    pages.foldlM (tallyPage settings) tally = .ok tally' ↔
      (∀ page ∈ pages, InBudget settings page) ∧ tally' = tally.after pages := by
  induction pages generalizing tally with
  | nil =>
    rw [List.foldlM_nil, PageTally.after_nil]
    exact ⟨fun h => ⟨fun _ hpage => absurd hpage List.not_mem_nil, (Except.ok.inj h).symm⟩,
      fun h => by rw [h.2]; rfl⟩
  | cons page pages ih =>
    rw [List.foldlM_cons, List.forall_mem_cons, PageTally.after_cons, bind_eq_ok_iff]
    constructor
    · rintro ⟨mid, hmid, hrest⟩
      obtain ⟨hpage, rfl⟩ := tallyPage_ok_iff.mp hmid
      obtain ⟨hpages, rfl⟩ := ih.mp hrest
      exact ⟨⟨hpage, hpages⟩, rfl⟩
    · rintro ⟨⟨hpage, hpages⟩, rfl⟩
      exact ⟨_, tallyPage_ok_iff.mpr ⟨hpage, rfl⟩, ih.mpr ⟨hpages, rfl⟩⟩

/-! ## What is reported of a document -/

/-- The mode of a document that has pages with text, or images to be read. -/
def modeOf (native scan : Bool) : ExtractionMode :=
  match native, scan with
  | true, true => .mixed
  | false, true => .scan
  | true, false => .native
  | false, false => .empty

/-- The limits a document has to keep. -/
structure WithinLimits (settings : ExtractionSettings) (document : PdfDocument) : Prop where
  pages : document.pageCount ≤ settings.maxPdfPages
  ocrPages : document.pages.countP (·.scanLike) ≤ settings.maxOcrPages
  pixels : ∀ page ∈ document.pages, InBudget settings page

/-- What the pages of a document say. -/
def PdfDocument.report (document : PdfDocument) : PdfPreflightResult :=
  let native := document.pages.countP (·.hasNativeText)
  let scan := document.pages.countP (·.scanLike)
  let mode := modeOf (native ≠ 0) (scan ≠ 0)
  { pageCount := document.pageCount
    nativeTextPages := native
    scanLikePages := scan
    extractionMode := mode
    nativeText :=
      if mode = .native then some (joinLines (document.pages.map (·.rawText))) else none }

/-- Where no page has text and none is an image, all are blank. -/
theorem emptyPages_eq {document : PdfDocument}
    (hnative : document.pages.countP (·.hasNativeText) = 0)
    (hscan : document.pages.countP (·.scanLike) = 0) :
    document.pages.countP (·.isBlank) = document.pageCount := by
  have h := kinds_add_up document.pages
  rw [document.pages_length] at h
  omega

/-- The last `else` of the choice of the mode is never taken. -/
theorem mode_after (document : PdfDocument) :
    (({} : PageTally).after document.pages).mode document.pageCount =
      modeOf (document.pages.countP (·.hasNativeText) ≠ 0)
        (document.pages.countP (·.scanLike) ≠ 0) := by
  have hblank := @emptyPages_eq document
  unfold PageTally.mode PageTally.after modeOf
  simp only [Nat.zero_add]
  by_cases hnative : document.pages.countP (·.hasNativeText) = 0
  · by_cases hscan : document.pages.countP (·.scanLike) = 0
    · simp [hnative, hscan, hblank]
    · simp [hnative, hscan]
  · by_cases hscan : document.pages.countP (·.scanLike) = 0
    · simp [hnative, hscan]
    · simp [hnative, hscan]

/-- What the loop leaves is what is reported. -/
theorem report_eq_after (document : PdfDocument) :
    let tally := ({} : PageTally).after document.pages
    let mode := tally.mode document.pageCount
    document.report =
      { pageCount := document.pageCount
        nativeTextPages := tally.nativeTextPages
        scanLikePages := tally.scanLikePages
        extractionMode := mode
        nativeText := if mode = .native then some (joinLines tally.pageTexts) else none } := by
  intro tally mode
  have hmode : mode = _ := mode_after document
  rw [hmode]
  simp [PdfDocument.report, tally, PageTally.after]

/-- **The preflight of a document that is not encrypted**: it returns exactly when
every limit is kept, and then what the pages say. -/
theorem preflightPdf_ok_iff {document : PdfDocument} {result : PdfPreflightResult}
    (hplain : (document.isEncrypted || document.needsPass) = false) :
    preflightPdf settings (some document) = .ok result ↔
      WithinLimits settings document ∧ result = document.report := by
  have hscan : (({} : PageTally).after document.pages).scanLikePages =
      document.pages.countP (·.scanLike) := Nat.zero_add _
  unfold preflightPdf
  simp only [hplain]
  rw [if_neg Bool.false_ne_true]
  by_cases hpages : settings.maxPdfPages < document.pageCount
  · rw [if_pos hpages]
    exact ⟨fun h => absurd h (throw_ne_ok _ _), fun h => absurd h.1.pages (by omega)⟩
  rw [if_neg hpages, bind_eq_ok_iff]
  constructor
  · rintro ⟨tally, htally, hrest⟩
    obtain ⟨hpixels, rfl⟩ := tallyPages_ok_iff.mp htally
    by_cases hocr : settings.maxOcrPages < (({} : PageTally).after document.pages).scanLikePages
    · rw [if_pos hocr] at hrest
      exact absurd hrest (throw_ne_ok _ _)
    · rw [if_neg hocr] at hrest
      rw [hscan] at hocr
      refine ⟨⟨by omega, by omega, hpixels⟩, ?_⟩
      rw [report_eq_after]
      exact (Except.ok.inj hrest).symm
  · rintro ⟨hlimits, rfl⟩
    have hocr := hlimits.ocrPages
    refine ⟨_, tallyPages_ok_iff.mpr ⟨hlimits.pixels, rfl⟩, ?_⟩
    rw [if_neg (by omega), report_eq_after]
    rfl

/-! ## The text of a native document -/

theorem PdfPage.exists_not_space {page : PdfPage} (h : page.hasNativeText = true) :
    ∃ c ∈ page.rawText.toList, isSpace c = false := by
  refine strip_ne_empty_iff.mp fun hempty => ?_
  unfold PdfPage.hasNativeText at h
  rw [hempty] at h
  exact absurd (of_decide_eq_true h) (by decide)

/-- Where a page has text, the joined text is not blank. -/
theorem strip_joinLines_ne_empty {pages : List PdfPage}
    (h : pages.countP (·.hasNativeText) ≠ 0) :
    strip (joinLines (pages.map (·.rawText))) ≠ "" := by
  obtain ⟨page, hpage, hnative⟩ := List.countP_pos_iff.mp (Nat.pos_of_ne_zero h)
  obtain ⟨c, hc, hspace⟩ := page.exists_not_space hnative
  refine strip_ne_empty_iff.mpr ⟨c, ?_, hspace⟩
  unfold joinLines
  rw [String.toList_ofList, List.map_map]
  exact LineSplit.mem_join (List.mem_map_of_mem hpage) hc

theorem modeOf_eq_native_iff {native scan : Bool} :
    modeOf native scan = .native ↔ native = true ∧ scan = false := by
  cases native <;> cases scan <;> simp [modeOf]

/-- A document in native mode is its own text. -/
theorem extract_native {settings : ExtractionSettings} {host : Host} {upload : StoredUpload}
    {result : PdfPreflightResult} {text : String} (hpdf : upload.documentType = .pdf)
    (hok : preflightPdf settings host.pdf = .ok result) (hmode : result.extractionMode = .native)
    (htext : result.nativeText = some text) (hblank : strip text ≠ "") (s : ExtractionState) :
    ∃ log, (MarkItDownExtractor.extract ⟨settings, host⟩ upload).outcome s =
      (.ok (.document text (metadataFor .pdf (some result) "pymupdf")), { s with log := log }) := by
  have hne : text ≠ "" := by
    rintro rfl
    exact hblank rfl
  unfold MarkItDownExtractor.extract
  simp only [hpdf, hok, htext, hmode]
  rw [Option.filter_some, if_pos (by simp [hne, hblank])]
  exact ⟨_, rfl⟩

/-! ## The contract -/

/-- What is reported of a document that is let through. -/
structure Reported (document : PdfDocument) (result : PdfPreflightResult) : Prop where
  pageCount : result.pageCount = document.pageCount
  native : result.nativeTextPages = document.pages.countP (·.hasNativeText)
  scan : result.scanLikePages = document.pages.countP (·.scanLike)
  add_up : result.nativeTextPages + result.scanLikePages + document.pages.countP (·.isBlank) =
    result.pageCount
  mode : result.extractionMode =
    modeOf (0 < result.nativeTextPages) (0 < result.scanLikePages)
  text_iff : result.nativeText.isSome ↔ result.extractionMode = .native
  text : ∀ text, result.nativeText = some text →
    text = joinLines (document.pages.map (·.rawText)) ∧ strip text ≠ ""

theorem reported (document : PdfDocument) : Reported document document.report where
  pageCount := rfl
  native := rfl
  scan := rfl
  add_up := (kinds_add_up document.pages).trans document.pages_length
  mode := by simp [PdfDocument.report, Nat.pos_iff_ne_zero]
  text_iff := by
    simp only [PdfDocument.report]
    split <;> simp_all
  text := by
    intro text htext
    simp only [PdfDocument.report] at htext
    split at htext
    · next hmode =>
      obtain rfl := Option.some.inj htext
      exact ⟨rfl, strip_joinLines_ne_empty (by simpa using (modeOf_eq_native_iff.mp hmode).1)⟩
    · exact absurd htext (by simp)

/-- **The preflight classifies every page once and enforces every limit.**  A
document that is not encrypted is let through exactly when it keeps every limit, and
is rejected otherwise; what is reported of it adds up; and a document in native mode
is returned as its own text without a call of MarkItDown. -/
theorem pdf_preflight_exact {document : PdfDocument}
    (hplain : (document.isEncrypted || document.needsPass) = false) :
    ((∃ result, preflightPdf settings (some document) = .ok result) ↔
      WithinLimits settings document) ∧
    (¬WithinLimits settings document →
      ∃ error, preflightPdf settings (some document) = .error error) ∧
    (∀ tally, document.pages.foldlM (tallyPage settings) {} = .ok tally →
      tally.nativeTextPages = 0 → tally.scanLikePages = 0 →
        tally.emptyPages = document.pageCount) ∧
    ∀ result, preflightPdf settings (some document) = .ok result →
      Reported document result ∧
      (result.extractionMode = .native → ∀ (host : Host) (upload : StoredUpload) s,
        host.pdf = some document → upload.documentType = .pdf →
          ∃ text log, result.nativeText = some text ∧
            (MarkItDownExtractor.extract ⟨settings, host⟩ upload).outcome s =
              (.ok (.document text (metadataFor .pdf (some result) "pymupdf")),
                { s with log := log })) := by
  refine ⟨⟨?_, ?_⟩, ?_, ?_, ?_⟩
  · rintro ⟨result, hok⟩
    exact ((preflightPdf_ok_iff hplain).mp hok).1
  · intro hlimits
    exact ⟨_, (preflightPdf_ok_iff hplain).mpr ⟨hlimits, rfl⟩⟩
  · intro hlimits
    rcases hr : preflightPdf settings (some document) with error | result
    · exact ⟨error, rfl⟩
    · exact absurd ((preflightPdf_ok_iff hplain).mp hr).1 hlimits
  -- the last `else` of `_preflight_pdf` is for no document
  · intro tally htally hnative hscan
    obtain ⟨-, rfl⟩ := tallyPages_ok_iff.mp htally
    simp only [PageTally.after, Nat.zero_add] at hnative hscan ⊢
    exact emptyPages_eq hnative hscan
  · intro result hok
    obtain ⟨hlimits, rfl⟩ := (preflightPdf_ok_iff hplain).mp hok
    have hreported := reported document
    refine ⟨hreported, fun hmode host upload s hhost hpdf => ?_⟩
    obtain ⟨text, htext⟩ := Option.isSome_iff_exists.mp (hreported.text_iff.mpr hmode)
    rw [← hhost] at hok
    obtain ⟨log, hrun⟩ := extract_native hpdf hok hmode htext (hreported.text text htext).2 s
    exact ⟨text, log, htext, hrun⟩

/-- A page with text and a blank one. -/
def writtenPages : PdfDocument where
  pageCount := 2
  pages := [⟨"The text of the first page.", false, 0, 0⟩, ⟨" ", false, 0, 0⟩]
  pages_length := rfl

theorem writtenPages_preflighted :
    ∃ result, preflightPdf {} (some writtenPages) = .ok result ∧ Reported writtenPages result := by
  have hplain : (writtenPages.isEncrypted || writtenPages.needsPass) = false := rfl
  have hlimits : WithinLimits {} writtenPages :=
    { pages := by decide
      ocrPages := by decide
      pixels := by simp [writtenPages, InBudget, PdfPage.scanLike] }
  obtain ⟨hiff, -, -, hreported⟩ := @pdf_preflight_exact {} writtenPages hplain
  obtain ⟨result, hok⟩ := hiff.mpr hlimits
  exact ⟨result, hok, (hreported result hok).1⟩

end InternumCore
