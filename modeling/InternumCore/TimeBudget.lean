import Mathlib.Tactic.Linarith
import Mathlib.Tactic.Positivity
import InternumCore.Attempts

/-!
# The time budget of a completion

`complete` fixes a deadline when it is entered, and both of its phases keep to it:
every attempt is given at most what remains until then, and no backoff is slept
that would reach it.  `complete_within_budget` is that statement, for a world in
which the clock tells the time, an attempt lasts at most its timeout, a sleep at
most its length, and nothing else takes time (`Upstream.Timed`).
-/

namespace InternumCore

/-- The upstream keeps time: `now` is the time in a state of the world. -/
structure Upstream.Timed {ω : Type} (upstream : Upstream ω) (now : ω → ℚ) : Prop where
  monotonic : ∀ w, (upstream.monotonic w).1 = now w ∧ now (upstream.monotonic w).2 = now w
  uniform : ∀ high w, 0 ≤ high → (upstream.uniform high w).1 ≤ high ∧
    now (upstream.uniform high w).2 = now w
  sleep : ∀ seconds w, now (upstream.sleep seconds w).2 ≤ now w + seconds
  exchange : ∀ request mode timeout w,
    now (upstream.exchange request mode timeout w).2 ≤ now w + timeout

/-- The run ended by the deadline and started no attempt at it or later. -/
structure InTime {ω : Type} (now : ω → ℚ) (deadline : ℚ) (s s' : Session ω) : Prop where
  ended : now s'.world ≤ deadline
  started : ∃ new, s'.attempts = s.attempts ++ new ∧ ∀ a ∈ new, now a.startedIn < deadline

/-- The run took no time and made no attempt. -/
structure Instant {ω : Type} (now : ω → ℚ) (s s' : Session ω) : Prop where
  time : now s'.world = now s.world
  attempts : s'.attempts = s.attempts

section

variable {ω : Type} {now : ω → ℚ} {deadline : ℚ} {s s' s'' : Session ω}

theorem Instant.trans (h : Instant now s s') (h' : Instant now s' s'') : Instant now s s'' :=
  ⟨h'.time.trans h.time, h'.attempts.trans h.attempts⟩

theorem Instant.inTime (h : Instant now s s') (hd : now s.world ≤ deadline) :
    InTime now deadline s s' :=
  ⟨h.time.trans_le hd, [], by rw [h.attempts, List.append_nil], by simp⟩

theorem InTime.trans (h : InTime now deadline s s') (h' : InTime now deadline s' s'') :
    InTime now deadline s s'' := by
  obtain ⟨new, ha, hnew⟩ := h.started
  obtain ⟨new', ha', hnew'⟩ := h'.started
  refine ⟨h'.ended, new ++ new', by rw [ha', ha, List.append_assoc], ?_⟩
  simpa [or_imp, forall_and] using ⟨hnew, hnew'⟩

theorem instant_logEvent (now : ω → ℚ) (event : LogEvent) {R : PyError → Session ω → Prop} :
    (logEvent event).Triple s (fun _ s' => Instant now s s') R :=
  ⟨rfl, rfl⟩

theorem instant_recordUsage (now : ω → ℚ) (record : UsageRecord) {R : PyError → Session ω → Prop} :
    (recordUsage record).Triple s (fun _ s' => Instant now s s') R :=
  ⟨rfl, rfl⟩

variable {client : OpenRouterClient ω} {request : OpenRouterRequest} {mode : StructuredMode}

theorem remainingBudget_timed (htimed : client.upstream.Timed now)
    {R : PyError → Session ω → Prop} :
    (client.remainingBudget deadline).Triple s
      (fun remaining s' => remaining = deadline - now s.world ∧ Instant now s s') R := by
  obtain ⟨hread, htime⟩ := htimed.monotonic s.world
  refine .bind (M := fun t s' => t = now s.world ∧ Instant now s s') ⟨hread, htime, rfl⟩ ?_
  intro t s' hpost
  obtain ⟨rfl, h⟩ := hpost
  exact .pure ⟨rfl, h⟩

/-- A backoff is shorter than what remains. -/
theorem backoffWithJitter_timed (htimed : client.upstream.Timed now) {base remaining : ℚ}
    (hbase : 0 ≤ base) {offset : Nat} {R : PyError → Session ω → Prop} :
    (client.backoffWithJitter base offset remaining).Triple s
      (fun backoff s' => (∀ b, backoff = some b → b < remaining) ∧ Instant now s s') R := by
  unfold OpenRouterClient.backoffWithJitter
  dsimp only
  split
  · exact .pure ⟨by simp, rfl, rfl⟩
  · next hlt =>
    obtain ⟨hle, htime⟩ := htimed.uniform (base * 2 ^ offset) s.world (by positivity)
    refine .bind (M := fun b s' => b ≤ base * 2 ^ offset ∧ Instant now s s') ⟨hle, htime, rfl⟩ ?_
    intro b s' hpost
    obtain ⟨hb, h⟩ := hpost
    refine .pure ⟨fun c hc => ?_, h⟩
    obtain rfl := Option.some.inj hc
    linarith

theorem sleep_timed (htimed : client.upstream.Timed now) {backoff : ℚ}
    (hd : now s.world + backoff ≤ deadline) :
    (client.sleep backoff).Triple s (fun _ s' => InTime now deadline s s')
      (fun _ s' => InTime now deadline s s') := by
  have hin : InTime now deadline s
      { s with world := (client.upstream.sleep backoff s.world).2 } :=
    ⟨(htimed.sleep backoff s.world).trans hd, [], by simp, by simp⟩
  refine .bind (M := fun _ s' => InTime now deadline s s') hin fun o s' h => ?_
  cases o with
  | none => exact .pure h
  | some interruption => exact .throw h

/-- An attempt started before the deadline, with no more time than remains. -/
theorem attempt_timed (htimed : client.upstream.Timed now) {n : Int} {t : ℚ}
    (hlt : now s.world < deadline) (ht : now s.world + t ≤ deadline) :
    (client.attempt request mode n t).Triple s (fun _ s' => InTime now deadline s s')
      (fun _ s' => InTime now deadline s s') := by
  have hex : (client.exchange request mode n t).Triple s (fun _ s' => InTime now deadline s s')
      (fun _ s' => InTime now deadline s s') := by
    refine .bind (M := fun _ s' => InTime now deadline s s') ?_ fun o s' h =>
      .ofExcept (fun _ _ => h) fun _ _ => h
    exact ⟨(htimed.exchange request mode t s.world).trans ht, [_], rfl, by simpa using hlt⟩
  refine .bind (M := fun _ s' => InTime now deadline s s') (.capture hex) fun o s₁ h => ?_
  have hlog (status : Option Nat) :
      (OpenRouterClient.logFailedResponse request n mode status).Triple s₁
        (fun _ s₂ => InTime now deadline s s₂) (fun _ s₂ => InTime now deadline s s₂) :=
    (instant_logEvent now _).mono (fun _ _ h' => h.trans (h'.inTime h.ended)) fun _ _ h' => h'
  cases o with
  | ok result => exact .pure h
  | error e =>
    cases e with
    | timeout => exact (hlog none).bind fun _ _ h => .throw h
    | request text => exact (hlog none).bind fun _ _ h => .throw h
    | upstream error => exact (hlog none).bind fun _ _ h => .throw h
    | mappedStatus error status =>
      refine (hlog (some status)).bind fun _ _ h => ?_
      split <;> exact .throw h
    | _ => exact .throw h

/-- **The retry loop keeps to the deadline.** -/
theorem postPayload_timed (htimed : client.upstream.Timed now)
    (hbase : 0 ≤ client.backoffSeconds) {start : Int} {offset : Nat}
    {lastError : Option UpstreamError} {s : Session ω} (hd : now s.world ≤ deadline) :
    (client.postPayload request mode start deadline offset lastError).Triple s
      (fun _ s' => InTime now deadline s s') (fun _ s' => InTime now deadline s s') := by
  induction hk : client.maxRetries - offset using Nat.strong_induction_on
    generalizing offset lastError s with
  | _ k ih =>
  rw [OpenRouterClient.postPayload]
  refine (remainingBudget_timed htimed).bind ?_
  intro remaining s₁ hr
  obtain ⟨rfl, h₁⟩ := hr
  split
  · exact .throw (h₁.inTime hd)
  next hpos =>
  refine (instant_logEvent now _).bind fun _ s₂ h₂ => ?_
  have h₂ := h₁.trans h₂
  -- an attempt gets no more than what is left
  have hcap := min_le_right client.settings.requestAttemptTimeoutSeconds (deadline - now s.world)
  have hatt : (client.attempt request mode (start + offset) (effectiveAttemptTimeout
      (deadline - now s.world) client.settings.requestAttemptTimeoutSeconds)).Triple s₂
        (fun _ s₃ => InTime now deadline s₂ s₃) (fun _ s₃ => InTime now deadline s₂ s₃) := by
    refine attempt_timed htimed ?_ ?_
    · rw [h₂.time]
      linarith
    · rw [h₂.time]
      unfold effectiveAttemptTimeout
      linarith
  refine (Program.Triple.capture (Q := fun _ s₃ => InTime now deadline s₂ s₃) hatt).bind
    fun outcome s₃ h₃ => ?_
  have h₃ := (h₂.inTime hd).trans h₃
  have quiet {s₄ : Session ω} (h : Instant now s₃ s₄) : InTime now deadline s s₄ :=
    h₃.trans (h.inTime h₃.ended)
  cases outcome with
  | ok result =>
    refine ((instant_recordUsage now _).bind fun _ s₄ h₄ => (instant_logEvent now _).mono
      (fun _ s₅ h₅ => h₄.trans h₅) fun _ _ h => h).bind fun _ s₅ h₅ => ?_
    exact (instant_logEvent now _).bind fun _ s₆ h₆ => .pure (quiet (h₅.trans h₆))
  | error e =>
    cases e with
    | retryableAttempt error reason status =>
      refine (remainingBudget_timed htimed).bind ?_
      intro remaining s₄ hr
      obtain ⟨rfl, h₄⟩ := hr
      split
      · next hretry =>
        refine (backoffWithJitter_timed htimed hbase).bind ?_
        intro backoff s₅ hr
        obtain ⟨hshort, h₅⟩ := hr
        have h₅ := h₄.trans h₅
        cases backoff with
        | none => exact .throw (quiet h₅)
        | some backoff =>
          -- a backoff is only given out if it fits into what is left
          refine (instant_logEvent now _).bind fun _ s₆ h₆ => ?_
          have h₆ := h₅.trans h₆
          have hend : now s₆.world + backoff ≤ deadline := by
            have := hshort backoff rfl
            rw [h₆.time]
            linarith
          refine ((sleep_timed htimed hend).mono (fun _ _ h => h) fun _ _ h =>
            (quiet h₆).trans h).bind fun _ s₇ h₇ => ?_
          refine (ih _ (by omega) h₇.ended rfl).mono ?_ ?_
          · exact fun _ _ h => ((quiet h₆).trans h₇).trans h
          · exact fun _ _ h => ((quiet h₆).trans h₇).trans h
      · exact .throw (quiet h₄)
    | _ => exact .throw h₃

end

/-- **The total time budget of a completion is never exceeded.**  Whatever the
attempts come to, no attempt starts at or after the deadline fixed on entry, and
the completion has ended by then. -/
theorem complete_within_budget {ω : Type} (client : OpenRouterClient ω) (now : ω → ℚ)
    (htimed : client.upstream.Timed now) (hbase : 0 ≤ client.backoffSeconds)
    (request : OpenRouterRequest) (s : Session ω) :
    InTime now (now s.world + client.settings.requestTotalTimeoutSeconds) s
      ((client.complete request).outcome s).2 := by
  have hpos := client.settings.requestTotalTimeoutSeconds_pos
  obtain ⟨hread, htime⟩ := htimed.monotonic s.world
  refine Program.Triple.state (.bind (M := fun t s₁ => t = now s.world ∧ Instant now s s₁)
    ⟨hread, htime, rfl⟩ ?_)
  intro t s₁ hr
  obtain ⟨rfl, h₁⟩ := hr
  have hin := h₁.inTime (le_add_of_nonneg_right hpos.le)
  refine (postPayload_timed htimed hbase hin.ended).capture_bind
    (fun _ _ h₂ => .pure (hin.trans h₂)) fun e s₂ h₂ => ?_
  have h₂ := hin.trans h₂
  cases e with
  | upstream error =>
    dsimp only
    split
    -- the fallback has the deadline of the native attempts
    · refine (instant_logEvent now _).bind fun _ s₃ h₃ => ?_
      have h₃ := h₂.trans (h₃.inTime h₂.ended)
      exact (postPayload_timed htimed hbase h₃.ended).mono (fun _ _ h => h₃.trans h)
        fun _ _ h => h₃.trans h
    · exact .throw h₂
  | _ => exact .throw h₂

/-- A provider that never answers; the world is the time. -/
def stalledUpstream : Upstream ℚ where
  monotonic t := (t, t)
  uniform high t := (high, t)
  sleep seconds t := (none, t + seconds)
  exchange _ _ timeout t := (.error .timeout, t + timeout)

def stalledClient : OpenRouterClient ℚ where
  settings := .plain
  lib := plainLibraries fun _ => none
  upstream := stalledUpstream

/-- Against a provider that never answers, a completion entered at time zero ends
by its 300 seconds. -/
theorem stalled_within_budget :
    InTime id (0 + 300) { world := 0 }
      ((stalledClient.complete plainRequest).outcome { world := 0 }).2 :=
  complete_within_budget stalledClient id
    ⟨fun _ => ⟨rfl, rfl⟩, fun _ _ _ => ⟨le_refl _, rfl⟩, fun _ _ => le_refl _,
      fun _ _ _ _ => le_refl _⟩ (by decide +kernel) plainRequest { world := 0 }

end InternumCore
