import InternumCore.Client

/-!
# The attempts of a completion

What a run of the client adds to the session: requests in the log, HTTP attempts
in the history, records in the usage tracker (`Adds`).  A phase adds a
gap-free run of attempts in one mode, at most `max_retries + 1` of them, all of
which fail except possibly the last (`Phase`); `postPayload_phase` is the
invariant of the retry loop.  A completion is one phase, or a native phase and a
fallback phase that goes on counting where the first stopped
(`complete_completion`).
-/

namespace InternumCore

/-- The attempts the log announces, as `model.request` events. -/
def modelRequests (log : List LogEvent) : List (Int × StructuredMode) :=
  log.filterMap fun
    | .modelRequest _ mode attempt _ => some (attempt, mode)
    | _ => none

@[simp] theorem modelRequests_append (log log' : List LogEvent) :
    modelRequests (log ++ log') = modelRequests log ++ modelRequests log' :=
  List.filterMap_append

/-- How a request of the log refers to an attempt. -/
def Attempt.key {ω : Type} (a : Attempt ω) : Int × StructuredMode := (a.number, a.mode)

/-- What a run adds to the session: requests to the log, attempts to the history,
records to the tracker, and no file. -/
structure Adds {ω : Type} (s s' : Session ω) (requests : List (Int × StructuredMode))
    (new : List (Attempt ω)) (records : List UsageRecord) : Prop where
  log : modelRequests s'.log = modelRequests s.log ++ requests
  attempts : s'.attempts = s.attempts ++ new
  records : s'.records = s.records ++ records
  files : s'.files = s.files
  nextFile : s'.nextFile = s.nextFile

section Adding

variable {ω : Type} {s s' s'' : Session ω}

theorem Adds.refl (s : Session ω) : Adds s s [] [] [] := by
  constructor <;> simp

theorem Adds.trans {requests requests' : List (Int × StructuredMode)} {new new' : List (Attempt ω)}
    {records records' : List UsageRecord} (h : Adds s s' requests new records)
    (h' : Adds s' s'' requests' new' records') :
    Adds s s'' (requests ++ requests') (new ++ new') (records ++ records') where
  log := by rw [h'.log, h.log, List.append_assoc]
  attempts := by rw [h'.attempts, h.attempts, List.append_assoc]
  records := by rw [h'.records, h.records, List.append_assoc]
  files := h'.files.trans h.files
  nextFile := h'.nextFile.trans h.nextFile

/-- A step that adds nothing, before one that does. -/
theorem Adds.skip {requests : List (Int × StructuredMode)} {new : List (Attempt ω)}
    {records : List UsageRecord} (h : Adds s s' [] [] [])
    (h' : Adds s' s'' requests new records) : Adds s s'' requests new records := by
  simpa using h.trans h'

theorem adds_callWorld {α : Type} (f : ω → α × ω) {R : PyError → Session ω → Prop} :
    (callWorld f).Triple s (fun _ s' => Adds s s' [] [] []) R := by
  constructor <;> simp

theorem adds_logEvent (event : LogEvent) {R : PyError → Session ω → Prop} :
    (logEvent event).Triple s (fun _ s' => Adds s s' (modelRequests [event]) [] []) R := by
  constructor <;> simp

theorem adds_recordUsage (record : UsageRecord) {R : PyError → Session ω → Prop} :
    (recordUsage record).Triple s (fun _ s' => Adds s s' [] [] [record]) R := by
  constructor <;> simp

end Adding

/-! Two relations that a call which makes no attempt keeps. -/

/-- A run that adds nothing to the session. -/
abbrev AddsNothing {ω : Type} (s s' : Session ω) : Prop := Adds s s' [] [] []

/-- A run that makes no attempt and records nothing, whatever it does to the files. -/
structure SameCalls {ω : Type} (s s' : Session ω) : Prop where
  log : modelRequests s'.log = modelRequests s.log
  attempts : s'.attempts = s.attempts
  records : s'.records = s.records

section Relations

variable {ω : Type}

instance : Std.Refl (AddsNothing (ω := ω)) := ⟨Adds.refl⟩

instance : IsTrans (Session ω) AddsNothing := ⟨fun _ _ _ h h' => h.trans h'⟩

instance : Std.Refl (SameCalls (ω := ω)) := ⟨fun _ => ⟨rfl, rfl, rfl⟩⟩

instance : IsTrans (Session ω) SameCalls :=
  ⟨fun _ _ _ h h' => ⟨h'.log.trans h.log, h'.attempts.trans h.attempts,
    h'.records.trans h.records⟩⟩

theorem AddsNothing.sameCalls {s s' : Session ω} (h : AddsNothing s s') : SameCalls s s' :=
  ⟨by simpa using h.log, by simpa using h.attempts, by simpa using h.records⟩

end Relations

/-! ## Numbering -/

/-- `first, first + 1, …`, `n` numbers. -/
def consecutive (first : Int) : Nat → List Int
  | 0 => []
  | n + 1 => first :: consecutive (first + 1) n

@[simp] theorem length_consecutive (first : Int) (n : Nat) :
    (consecutive first n).length = n := by
  induction n generalizing first with
  | zero => rfl
  | succ n ih => rw [consecutive, List.length_cons, ih]

theorem consecutive_add (first : Int) (m n : Nat) :
    consecutive first (m + n) = consecutive first m ++ consecutive (first + m) n := by
  induction m generalizing first with
  | zero => simp [consecutive]
  | succ m ih =>
    rw [Nat.succ_add, consecutive, consecutive, ih, List.cons_append]
    congr 3
    omega

/-- A gap-free run of attempts at one request, in one mode. -/
structure Phase {ω : Type} (request : OpenRouterRequest) (mode : StructuredMode) (first : Int)
    (new : List (Attempt ω)) : Prop where
  numbers : new.map (·.number) = consecutive first new.length
  modes : ∀ a ∈ new, a.mode = mode
  requests : ∀ a ∈ new, a.request = request

section Phases

variable {ω : Type} {request : OpenRouterRequest} {mode : StructuredMode} {first : Int}

theorem Phase.nil : Phase (ω := ω) request mode first [] :=
  ⟨rfl, by simp, by simp⟩

theorem Phase.cons {a : Attempt ω} {new : List (Attempt ω)} (hn : a.number = first)
    (hm : a.mode = mode) (hr : a.request = request) (h : Phase request mode (first + 1) new) :
    Phase request mode first (a :: new) where
  numbers := by rw [List.map_cons, h.numbers, hn, List.length_cons, consecutive]
  modes := by simpa [hm] using h.modes
  requests := by simpa [hr] using h.requests

end Phases

/-! ## One attempt -/

/-- The completion an attempt brought: what was asked and the result. -/
def Attempt.completion? {ω : Type} (a : Attempt ω) : Option (OpenRouterRequest × OpenRouterResult) :=
  match a.outcome with
  | .ok result => some (a.request, result)
  | .error _ => none

/-- The completions among the attempts. -/
def completions {ω : Type} (attempts : List (Attempt ω)) :
    List (OpenRouterRequest × OpenRouterResult) :=
  attempts.filterMap Attempt.completion?

@[simp] theorem completions_append {ω : Type} (attempts attempts' : List (Attempt ω)) :
    completions (attempts ++ attempts') = completions attempts ++ completions attempts' :=
  List.filterMap_append

section OneAttempt

variable {ω : Type} {client : OpenRouterClient ω} {s : Session ω} {request : OpenRouterRequest}
  {mode : StructuredMode} {n : Int} {t : ℚ}

theorem runAttempt_attempt {lib : Libraries} {reply : Except Interruption Response}
    {result : OpenRouterResult} (h : runAttempt lib request n reply = .ok result) :
    result.attempt = n := by
  unfold runAttempt at h
  split at h
  · cases h
  · split at h
    · split at h <;> cases h
    · split at h
      · cases h
      · dsimp only at h
        split at h
        · cases h
        · cases h
          rfl

theorem Interruption.toError_ne_retryable (i : Interruption) {exc : UpstreamError} {reason : String}
    {status : Option Nat} : i.toError ≠ .retryableAttempt exc reason status := by
  cases i <;> simp [Interruption.toError]

theorem LoadsError.toError_ne_retryable (e : LoadsError) {exc : UpstreamError} {reason : String}
    {status : Option Nat} : e.toError ≠ .retryableAttempt exc reason status := by
  cases e <;> simp [LoadsError.toError]

theorem consumeCompletionStream_ne_retryable {lib : Libraries} {response : Response}
    {exc : UpstreamError} {reason : String} {status : Option Nat} :
    consumeCompletionStream lib response ≠ .error (.retryableAttempt exc reason status) := by
  intro h
  unfold consumeCompletionStream at h
  split at h
  · cases h
  · cases h
  · exact LoadsError.toError_ne_retryable _ (Except.error.inj h)
  · split at h
    · exact Interruption.toError_ne_retryable _ (Except.error.inj h)
    · cases h

theorem decimalUsageCost_ne_retryable {lib : Libraries} {value : Option Json}
    {exc : UpstreamError} {reason : String} {status : Option Nat} :
    decimalUsageCost lib value ≠ .error (.retryableAttempt exc reason status) := by
  intro h
  unfold decimalUsageCost at h
  split at h
  · cases h
  · cases h
  · split at h
    · cases h
    · cases h
    · split at h <;> cases h

/-- `_run_attempt` itself never raises what the retry loop catches. -/
theorem runAttempt_ne_retryable {lib : Libraries} {reply : Except Interruption Response}
    {exc : UpstreamError} {reason : String} {status : Option Nat} :
    runAttempt lib request n reply ≠ .error (.retryableAttempt exc reason status) := by
  intro h
  unfold runAttempt at h
  split at h
  · exact Interruption.toError_ne_retryable _ (Except.error.inj h)
  · split at h
    · split at h
      · exact Interruption.toError_ne_retryable _ (Except.error.inj h)
      · cases h
    · split at h
      · next e he =>
        obtain rfl := Except.error.inj h
        exact consumeCompletionStream_ne_retryable he
      · dsimp only at h
        split at h
        · next e he =>
          obtain rfl := Except.error.inj h
          exact decimalUsageCost_ne_retryable he
        · cases h

/-- What one attempt adds. -/
structure Made (request : OpenRouterRequest) (mode : StructuredMode) (n : Int)
    (s s' : Session ω) (a : Attempt ω) : Prop where
  adds : Adds s s' [] [a] []
  number : a.number = n
  mode_eq : a.mode = mode
  request_eq : a.request = request

theorem Made.log {s s' s'' : Session ω} {a : Attempt ω} (h : Made request mode n s s' a)
    (h' : Adds s' s'' [] [] []) : Made request mode n s s'' a :=
  ⟨by simpa using h.adds.trans h', h.number, h.mode_eq, h.request_eq⟩

/-- What an attempt that has ended says of itself: the number is on the result
and on the errors the retry loop looks at. -/
def AttemptEnd {ω : Type} (request : OpenRouterRequest) (n : Int) (a : Attempt ω) :
    Except PyError OpenRouterResult → Prop
  | .ok result => a.completion? = some (request, result) ∧ result.attempt = n
  | .error e => a.completion? = none ∧ (∀ exc, e = .upstream exc → exc.attempt = some n) ∧
      ∀ exc reason status, e = .retryableAttempt exc reason status → exc.attempt = some n

theorem exchange_triple :
    (client.exchange request mode n t).Triple s
      (fun result s' => ∃ a, Made request mode n s s' a ∧ a.completion? = some (request, result) ∧
        result.attempt = n)
      (fun e s' => ∃ a, Made request mode n s s' a ∧ a.completion? = none ∧
        ∀ exc reason status, e ≠ .retryableAttempt exc reason status) := by
  refine .bind (M := fun outcome s' => outcome = runAttempt client.lib request n
    (client.upstream.exchange request mode t s.world).1 ∧
      Made request mode n s s' ⟨request, mode, n, t, s.world, outcome⟩) ?_ ?_
  · exact .step ⟨rfl, ⟨by constructor <;> simp, rfl, rfl, rfl⟩⟩
  · intro outcome s' houtcome
    obtain ⟨ho, hm⟩ := houtcome
    refine .ofExcept (fun result hr => ⟨_, hm, ?_, ?_⟩) fun e he => ⟨_, hm, ?_, ?_⟩
    · rw [hr]
      rfl
    · exact runAttempt_attempt (ho.symm.trans hr)
    · rw [he]
      rfl
    · rintro exc reason status rfl
      exact runAttempt_ne_retryable (ho.symm.trans he)

theorem logFailedResponse_adds {status : Option Nat} {R : PyError → Session ω → Prop} :
    (OpenRouterClient.logFailedResponse request n mode status).Triple s
      (fun _ s' => Adds s s' [] [] []) R :=
  adds_logEvent _

/-- **One attempt** enters itself into the history; what it raises carries its
number. -/
theorem attempt_triple :
    (client.attempt request mode n t).Triple s
      (fun result s' => ∃ a, Made request mode n s s' a ∧ AttemptEnd request n a (.ok result))
      (fun e s' => ∃ a, Made request mode n s s' a ∧ AttemptEnd request n a (.error e)) := by
  refine exchange_triple.capture_bind ?_ ?_
  · rintro result s' ⟨a, hm, ho⟩
    exact .pure ⟨a, hm, ho⟩
  · rintro e s' ⟨a, hm, hc, hne⟩
    cases e with
    | timeout =>
      refine logFailedResponse_adds.bind fun _ s'' hl => .throw ⟨a, hm.log hl, hc, ?_, ?_⟩
      · rintro exc ⟨⟩
      · rintro exc reason status ⟨⟩
        rfl
    | request text =>
      refine logFailedResponse_adds.bind fun _ s'' hl => .throw ⟨a, hm.log hl, hc, ?_, ?_⟩
      · rintro exc ⟨⟩
      · rintro exc reason status ⟨⟩
        rfl
    -- the retryable statuses are tried again, the others raised
    | mappedStatus error statusCode =>
      refine logFailedResponse_adds.bind fun _ s'' hl => ?_
      split
      · refine .throw ⟨a, hm.log hl, hc, ?_, ?_⟩
        · rintro exc ⟨⟩
        · rintro exc reason status ⟨⟩
          rfl
      · refine .throw ⟨a, hm.log hl, hc, ?_, ?_⟩
        · rintro exc ⟨⟩
          rfl
        · rintro exc reason status ⟨⟩
    | upstream error =>
      refine logFailedResponse_adds.bind fun _ s'' hl => .throw ⟨a, hm.log hl, hc, ?_, ?_⟩
      · rintro exc ⟨⟩
        rfl
      · rintro exc reason status ⟨⟩
    | retryableAttempt exc reason status => exact absurd rfl (hne exc reason status)
    | _ =>
      refine .throw ⟨a, hm, hc, ?_, ?_⟩
      · rintro exc ⟨⟩
      · rintro exc reason status ⟨⟩

end OneAttempt

/-! ## The retry loop -/

section RetryLoop

variable {ω : Type} {client : OpenRouterClient ω} {request : OpenRouterRequest}
  {mode : StructuredMode} {start : Int} {deadline : ℚ}

theorem remainingBudget_adds {s : Session ω} {R : PyError → Session ω → Prop} :
    (client.remainingBudget deadline).Triple s (fun _ s' => Adds s s' [] [] []) R :=
  (adds_callWorld _).bind fun _ _ h => .pure h

theorem backoffWithJitter_adds {s : Session ω} {base remaining : ℚ} {offset : Nat}
    {R : PyError → Session ω → Prop} :
    (client.backoffWithJitter base offset remaining).Triple s
      (fun _ s' => Adds s s' [] [] []) R := by
  unfold OpenRouterClient.backoffWithJitter
  dsimp only
  split
  · exact .pure (.refl s)
  · exact (adds_callWorld _).bind fun _ _ h => .pure h

theorem sleep_adds {s : Session ω} {backoff : ℚ} :
    (client.sleep backoff).Triple s (fun _ s' => Adds s s' [] [] [])
      (fun e s' => Adds s s' [] [] [] ∧ ∀ exc, e ≠ .upstream exc) := by
  refine (adds_callWorld _).bind fun o s' h => ?_
  cases o with
  | none => exact .pure h
  | some interruption =>
    refine .throw ⟨h, fun exc => ?_⟩
    cases interruption <;> simp [Interruption.toError]

/-- What the loop adds from the turn `offset` on. -/
structure Looped (client : OpenRouterClient ω) (request : OpenRouterRequest)
    (mode : StructuredMode) (start : Int) (offset : Nat) (s s' : Session ω)
    (new : List (Attempt ω)) (records : List UsageRecord) : Prop where
  adds : Adds s s' (new.map Attempt.key) new records
  phase : Phase request mode (start + offset) new
  bound : new.length + offset ≤ client.maxRetries + 1

/-- The number an error of the loop carries: that of the attempt before it, or,
when no attempt was made at all, none that asks for a fallback. -/
def CarriesNumber (start : Int) (offset : Nat) (made : Nat) (e : PyError) : Prop :=
  ∀ exc, e = .upstream exc →
    (made = 0 ∧ offset = 0 ∧ isNativeSchemaRejection exc = false) ∨
      0 < offset + made ∧ exc.attempt = some (start + offset + made - 1)

theorem Looped.none {s s' : Session ω} {offset : Nat} (h : Adds s s' [] [] [])
    (hoff : offset ≤ client.maxRetries) :
    Looped client request mode start offset s s' [] [] :=
  ⟨h, .nil, by simp; omega⟩

/-- One attempt, and then what the later turns add. -/
theorem Looped.cons {s s₁ s₂ s₃ s' : Session ω} {offset : Nat} {a : Attempt ω}
    {new : List (Attempt ω)} {records : List UsageRecord}
    (hlog : Adds s s₁ [(start + offset, mode)] [] [])
    (ha : Made request mode (start + offset) s₁ s₂ a) (hskip : Adds s₂ s₃ [] [] [])
    (h : Looped client request mode start (offset + 1) s₃ s' new records) :
    Looped client request mode start offset s s' (a :: new) records where
  adds := by
    have hkey : a.key = (start + offset, mode) := by rw [Attempt.key, ha.number, ha.mode_eq]
    simpa [hkey] using (hlog.trans ha.adds).trans (hskip.skip h.adds)
  phase := by
    refine .cons ha.number ha.mode_eq ha.request_eq ?_
    have hp := h.phase
    rwa [Nat.cast_add, Nat.cast_one, ← add_assoc] at hp
  bound := by
    have hb := h.bound
    simp only [List.length_cons]
    omega

/-- One attempt with which the loop ends. -/
theorem Looped.last {s s₁ s₂ s' : Session ω} {offset : Nat} {a : Attempt ω}
    {records : List UsageRecord} (hoff : offset ≤ client.maxRetries)
    (hlog : Adds s s₁ [(start + offset, mode)] [] [])
    (ha : Made request mode (start + offset) s₁ s₂ a) (hrec : Adds s₂ s' [] [] records) :
    Looped client request mode start offset s s' [a] records where
  adds := by
    have hkey : a.key = (start + offset, mode) := by rw [Attempt.key, ha.number, ha.mode_eq]
    simpa [hkey] using (hlog.trans ha.adds).trans hrec
  phase := .cons ha.number ha.mode_eq ha.request_eq .nil
  bound := by simp; omega

/-- Running out of time is no rejection of the native format. -/
theorem not_rejection_of_budget {number : Option Int} :
    isNativeSchemaRejection ⟨"OpenRouter request exceeded its total time budget", number⟩ =
      false := by
  unfold isNativeSchemaRejection
  dsimp only
  decide +kernel

theorem CarriesNumber.last {offset : Nat} {e : PyError}
    (h : ∀ exc, e = .upstream exc → exc.attempt = some (start + offset)) :
    CarriesNumber start offset 1 e := by
  intro exc he
  refine Or.inr ⟨by omega, ?_⟩
  rw [h exc he]
  congr 1
  omega

theorem CarriesNumber.cons {offset made : Nat} {e : PyError}
    (h : CarriesNumber start (offset + 1) made e) : CarriesNumber start offset (made + 1) e := by
  intro exc he
  rcases h exc he with ⟨-, h0, -⟩ | ⟨-, h⟩
  · cases h0
  · refine Or.inr ⟨by omega, ?_⟩
    rw [h]
    congr 1
    push_cast
    omega

/-- **The retry loop.**  From any turn on it adds a gap-free run of attempts, at
most what `max_retries` leaves room for.  If it returns, the last of them
succeeded and its usage was recorded; if it raises, none succeeded and none was
recorded. -/
theorem postPayload_triple {offset : Nat} {lastError : Option UpstreamError} {s : Session ω}
    (hoff : offset ≤ client.maxRetries)
    (hlast : offset = 0 ∧ lastError = none ∨
      0 < offset ∧ ∃ exc, lastError = some exc ∧ exc.attempt = some (start + offset - 1)) :
    (client.postPayload request mode start deadline offset lastError).Triple s
      (fun result s' => ∃ new, Looped client request mode start offset s s' new
          [usageRecord result request] ∧ completions new = [(request, result)] ∧
        result.attempt = start + offset + new.length - 1)
      (fun e s' => ∃ new, Looped client request mode start offset s s' new [] ∧
        completions new = [] ∧ CarriesNumber start offset new.length e) := by
  induction hk : client.maxRetries - offset using Nat.strong_induction_on
    generalizing offset lastError s with
  | _ k ih =>
  rw [OpenRouterClient.postPayload]
  refine remainingBudget_adds.bind fun remaining s₁ h₁ => ?_
  split
  -- out of time: the error of the last attempt is raised, if there was one
  · refine .throw ⟨[], .none h₁ hoff, rfl, ?_⟩
    rintro exc ⟨⟩
    rcases hlast with ⟨rfl, rfl⟩ | ⟨hpos, exc, rfl, hexc⟩
    · exact Or.inl ⟨rfl, rfl, not_rejection_of_budget⟩
    · exact Or.inr ⟨hpos, by simpa using hexc⟩
  refine (adds_logEvent _).bind fun _ s₂ h₂ => ?_
  have hlog := h₁.skip h₂
  refine attempt_triple.capture_bind ?_ ?_
  · rintro result s₃ ⟨a, ha, hend⟩
    refine ((adds_recordUsage _).bind fun _ s₄ h₄ => (adds_logEvent _).mono
      (fun _ s₅ h₅ => h₄.trans h₅) fun _ _ h => h).bind fun _ s₅ h₅ => ?_
    refine (adds_logEvent _).bind fun _ s₆ h₆ => .pure ⟨[a], .last hoff hlog ha (h₅.trans h₆), ?_, ?_⟩
    · simp [completions, hend.1]
    · simp [hend.2]
  · rintro e s₃ ⟨a, ha, hc, hup, hretryable⟩
    have hnone : completions [a] = [] := by simp [completions, hc]
    cases e with
    | retryableAttempt error reason status =>
      have hn := hretryable error reason status rfl
      have hcarry : CarriesNumber start offset 1 (.upstream error) :=
        .last fun exc he => by cases he; exact hn
      -- only this error asks for another turn, and only while turns are left
      refine remainingBudget_adds.bind fun remaining s₄ h₄ => ?_
      split
      · next hretry =>
        refine backoffWithJitter_adds.bind fun backoff s₅ h₅ => ?_
        have h₅ := h₄.skip h₅
        cases backoff with
        | none => exact .throw ⟨[a], .last hoff hlog ha h₅, hnone, hcarry⟩
        | some backoff =>
          refine (adds_logEvent _).bind fun _ s₆ h₆ => ?_
          have h₆ := h₅.skip h₆
          refine (sleep_adds.mono (fun _ _ h => h) fun e s₇ h₇ => ?_).bind fun _ s₇ h₇ => ?_
          · exact ⟨[a], .last hoff hlog ha (h₆.skip h₇.1), hnone,
              fun exc he => absurd he (h₇.2 exc)⟩
          · refine (ih _ (by omega) hretry ?_ rfl).mono ?_ ?_
            · exact Or.inr ⟨by omega, error, rfl, by rw [hn]; congr 1; push_cast; omega⟩
            · intro result s' hr
              obtain ⟨new, hnew, hcomp, hres⟩ := hr
              refine ⟨a :: new, hnew.cons hlog ha (h₆.skip h₇), ?_, ?_⟩
              · simpa [completions, hc] using hcomp
              · rw [hres, List.length_cons]
                push_cast
                omega
            · intro e s' hr
              obtain ⟨new, hnew, hcomp, hcar⟩ := hr
              refine ⟨a :: new, hnew.cons hlog ha (h₆.skip h₇), ?_, hcar.cons⟩
              simpa [completions, hc] using hcomp
      · exact .throw ⟨[a], .last hoff hlog ha h₄, hnone, hcarry⟩
    | _ =>
      exact .throw ⟨[a], .last hoff hlog ha (.refl _), hnone, .last hup⟩

end RetryLoop

/-! ## A completion -/

/-- `max(1, request.attempt)`. -/
def firstAttempt (request : OpenRouterRequest) : Int := max 1 request.attempt

theorem one_le_firstAttempt (request : OpenRouterRequest) : 1 ≤ firstAttempt request :=
  le_max_left 1 request.attempt

/-- What a completion adds: a native phase, and then perhaps a fallback phase
that goes on counting. -/
structure Completed {ω : Type} (client : OpenRouterClient ω) (request : OpenRouterRequest)
    (s s' : Session ω) (direct fallback : List (Attempt ω)) (records : List UsageRecord) :
    Prop where
  adds : Adds s s' ((direct ++ fallback).map Attempt.key) (direct ++ fallback) records
  native_phase : Phase request .native (firstAttempt request) direct
  fallback_phase : Phase request .fallback (firstAttempt request + direct.length) fallback
  native_bound : direct.length ≤ client.maxRetries + 1
  fallback_bound : fallback.length ≤ client.maxRetries + 1

section Completions

variable {ω : Type} {client : OpenRouterClient ω} {request : OpenRouterRequest} {s : Session ω}

/-- A completion that never fell back. -/
theorem Completed.of_native {s₁ s' : Session ω} {direct : List (Attempt ω)}
    {records : List UsageRecord} (h₁ : Adds s s₁ [] [] [])
    (h : Looped client request .native (firstAttempt request) 0 s₁ s' direct records) :
    Completed client request s s' direct [] records where
  adds := by simpa using h₁.skip h.adds
  native_phase := by simpa using h.phase
  fallback_phase := .nil
  native_bound := by simpa using h.bound
  fallback_bound := by simp

/-- A completion that fell back. -/
theorem Completed.of_fallback {s₁ s₂ s₃ s' : Session ω} {direct fallback : List (Attempt ω)}
    {records : List UsageRecord} (h₁ : Adds s s₁ [] [] [])
    (hn : Looped client request .native (firstAttempt request) 0 s₁ s₂ direct [])
    (h₃ : Adds s₂ s₃ [] [] [])
    (hf : Looped client request .fallback (firstAttempt request + direct.length) 0 s₃ s' fallback
      records) :
    Completed client request s s' direct fallback records where
  adds := by simpa using (h₁.skip hn.adds).trans (h₃.skip hf.adds)
  native_phase := by simpa using hn.phase
  fallback_phase := by simpa using hf.phase
  native_bound := by simpa using hn.bound
  fallback_bound := by simpa using hf.bound

/-- The number the fallback phase starts from. -/
theorem attemptOr_of_carries {made : Nat} {exc : UpstreamError}
    (h : CarriesNumber (firstAttempt request) 0 made (.upstream exc))
    (hrej : isNativeSchemaRejection exc = true) :
    OpenRouterClient.attemptOr exc (firstAttempt request) + 1 = firstAttempt request + made := by
  have h1 := one_le_firstAttempt request
  rcases h exc rfl with ⟨-, -, hno⟩ | ⟨hpos, hnum⟩
  · rw [hno] at hrej
    cases hrej
  · rw [OpenRouterClient.attemptOr, hnum]
    dsimp only
    split <;> push_cast at * <;> omega

/-- **One completion.**  If it returns, exactly one of its attempts succeeded, the
last, and exactly that result was recorded; if it raises, none succeeded and
none was recorded. -/
theorem complete_triple :
    (client.complete request).Triple s
      (fun result s' => ∃ direct fallback, Completed client request s s' direct fallback
          [usageRecord result request] ∧
        completions (direct ++ fallback) = [(request, result)] ∧
        result.attempt = firstAttempt request + (direct ++ fallback).length - 1)
      (fun _ s' => ∃ direct fallback, Completed client request s s' direct fallback [] ∧
        completions (direct ++ fallback) = []) := by
  refine (adds_callWorld _).bind fun now s₁ h₁ => ?_
  refine (postPayload_triple (Nat.zero_le _) (Or.inl ⟨rfl, rfl⟩)).capture_bind ?_ ?_
  · rintro result s₂ ⟨direct, hl, hc, hr⟩
    have hnumber : result.attempt = firstAttempt request + direct.length - 1 := by
      simpa [firstAttempt] using hr
    exact .pure ⟨direct, [], .of_native h₁ hl, by rw [List.append_nil, hc],
      by rw [List.append_nil, hnumber]⟩
  · rintro e s₂ ⟨direct, hl, hc, hcar⟩
    have hraise : ∃ direct fallback, Completed client request s s₂ direct fallback [] ∧
        completions (direct ++ fallback) = [] :=
      ⟨direct, [], .of_native h₁ hl, by rw [List.append_nil, hc]⟩
    cases e with
    | upstream exc =>
      dsimp only
      cases hrej : isNativeSchemaRejection exc with
      | true =>
        rw [if_pos rfl]
        refine (adds_logEvent _).bind fun _ s₃ h₃ => ?_
        -- the rejection carries the number of the last native attempt
        have hfirst := attemptOr_of_carries hcar hrej
        unfold firstAttempt at hfirst
        rw [hfirst]
        refine (postPayload_triple (Nat.zero_le _) (Or.inl ⟨rfl, rfl⟩)).mono ?_ ?_
        · intro result s' hp
          obtain ⟨fallback, hf, hcf, hr⟩ := hp
          refine ⟨direct, fallback, .of_fallback h₁ hl h₃ hf, ?_, ?_⟩
          · rw [completions_append, hc, hcf, List.nil_append]
          · rw [hr, List.length_append, firstAttempt]
            push_cast
            omega
        · intro e s' hp
          obtain ⟨fallback, hf, hcf, -⟩ := hp
          refine ⟨direct, fallback, .of_fallback h₁ hl h₃ hf, ?_⟩
          rw [completions_append, hc, hcf, List.nil_append]
      | false =>
        rw [if_neg Bool.false_ne_true]
        exact .throw hraise
    | _ => exact .throw hraise

end Completions

end InternumCore
