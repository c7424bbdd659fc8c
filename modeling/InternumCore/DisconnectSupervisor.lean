import InternumCore.Service

/-!
# The disconnect supervisor

`_run_with_disconnect_supervisor` runs the parse as a task of its own, beside a poller
that asks again and again whether the client has gone and if so cancels the task.  When
the task has ended the poller is cancelled and awaited, whatever it raises.

`Step` is one step of the event loop: the task ends, the poller moves, the request goes
on, or the server cancels the request.  The task is anything at all; `body n` are the
outcomes it may have after it was told `n` times to cancel.  As `asyncio` has it, a
cancellation goes to what a task is waiting for; if that is done already it is raised
where the task goes on; and the call that awaits a task hands a cancellation down to it.
`is_disconnected` may answer in any way, raise, or swallow a cancellation.

* `supervised_outcome`: when the call is through, so are the task and the poller; the
  outcome is the task's, unless the request was cancelled after the task had ended; and
  the poller has cancelled the task at most once, if the client had gone.
* `supervised_ends`: once the task has ended the call is through after at most four
  steps, in any order, and until then some step can be taken.
-/

namespace InternumCore

/-! ## One step of the event loop -/

/-- Where the task `_poll_disconnect` is. -/
inductive PollerStage where
  | starting
  /-- In `await is_disconnected()`. -/
  | probing
  /-- In `await asyncio.sleep(..)`. -/
  | sleeping
  | ended
  deriving DecidableEq

/-- Where the request is. -/
inductive ParentStage (α : Type) where
  /-- In `await task`; `mustCancel` is a cancellation that found the task done. -/
  | awaitingTask (mustCancel : Bool)
  /-- In the `finally`, with what the `try` block came to. -/
  | awaitingPoller (outcome : Except PyError α)
  | finished (outcome : Except PyError α)

/-- The two tasks and the request. -/
structure Supervision (α : Type) where
  /-- The outcome of the task, once it is done. -/
  task : Option (Except PyError α) := none
  /-- How often the task was told to cancel. -/
  taskCancels : Nat := 0
  poller : PollerStage := .starting
  /-- A cancellation is on its way to the poller. -/
  pollerCancelled : Bool := false
  parent : ParentStage α := .awaitingTask false

/-- What happens in a step. -/
inductive SupervisorEvent (α : Type) where
  | taskEnds (outcome : Except PyError α)
  /-- The poller looks whether the task is done. -/
  | pollerChecks
  | probeAnswers (disconnected : Bool)
  | probeRaises
  /-- `CancelledError` is raised in the poller. -/
  | pollerStops
  | parentResumes
  | parentEnds
  /-- The server cancels the request. -/
  | cancelParent

namespace Supervision

section Steps

variable {α : Type} (body : Nat → Except PyError α → Prop)

/-- One step. -/
inductive Step : Supervision α → SupervisorEvent α → Supervision α → Prop
  | taskEnds {s : Supervision α} {outcome : Except PyError α} (running : s.task = none)
      (allowed : body s.taskCancels outcome) :
      Step s (.taskEnds outcome) { s with task := some outcome }
  /-- `while not task.done()`, from the start or when the sleep is over. -/
  | pollerChecks {s : Supervision α} (at_check : s.poller = .starting ∨ s.poller = .sleeping)
      (going : s.pollerCancelled = false) :
      Step s .pollerChecks { s with poller := if s.task.isSome then .ended else .probing }
  /-- `task.cancel(); return`, without effect on a task that is done. -/
  | disconnected {s : Supervision α} (probing : s.poller = .probing) :
      Step s (.probeAnswers true)
        { s with
          poller := .ended
          taskCancels := if s.task.isSome then s.taskCancels else s.taskCancels + 1 }
  | connected {s : Supervision α} (probing : s.poller = .probing) :
      Step s (.probeAnswers false) { s with poller := .sleeping, pollerCancelled := false }
  | probeRaises {s : Supervision α} (probing : s.poller = .probing) :
      Step s .probeRaises { s with poller := .ended }
  | pollerStops {s : Supervision α} (at_check : s.poller = .starting ∨ s.poller = .sleeping)
      (stopped : s.pollerCancelled = true) : Step s .pollerStops { s with poller := .ended }
  /-- `poller.cancel()`, and `await poller` if there is something to wait for. -/
  | parentResumes {s : Supervision α} {mustCancel : Bool} {outcome : Except PyError α}
      (awaiting : s.parent = .awaitingTask mustCancel) (done : s.task = some outcome) :
      Step s .parentResumes
        { s with
          pollerCancelled := true
          parent :=
            let outcome := if mustCancel then .error .cancelled else outcome
            if s.poller = .ended then .finished outcome else .awaitingPoller outcome }
  /-- `except (asyncio.CancelledError, Exception): pass`. -/
  | parentEnds {s : Supervision α} {outcome : Except PyError α}
      (awaiting : s.parent = .awaitingPoller outcome) (done : s.poller = .ended) :
      Step s .parentEnds { s with parent := .finished outcome }
  /-- The cancellation goes to the task; if that is done it waits for the request. -/
  | cancelParent {s : Supervision α} {mustCancel : Bool}
      (awaiting : s.parent = .awaitingTask mustCancel) :
      Step s .cancelParent
        (if s.task.isSome then { s with parent := .awaitingTask true }
          else { s with taskCancels := s.taskCancels + 1 })
  /-- The cancellation goes to the poller, or is raised where it is swallowed. -/
  | cancelCollecting {s : Supervision α} {outcome : Except PyError α}
      (awaiting : s.parent = .awaitingPoller outcome) :
      Step s .cancelParent { s with pollerCancelled := true }

/-- A run from one moment to a later one, with what happened. -/
inductive Run : Supervision α → List (SupervisorEvent α) → Supervision α → Prop
  | refl (s : Supervision α) : Run s [] s
  | next {s t u : Supervision α} {events : List (SupervisorEvent α)} {event : SupervisorEvent α}
      (run : Run s events t) (step : Step body t event u) : Run s (events ++ [event]) u

end Steps

/-! ## What a step can do -/

section Cases

variable {α : Type} {body : Nat → Except PyError α → Prop} {s s' : Supervision α}
  {event : SupervisorEvent α}

/-- The outcome of the task is set once. -/
theorem Step.task_cases (h : Step body s event s') :
    s'.task = s.task ∧ (∀ outcome, event ≠ .taskEnds outcome) ∨
      ∃ outcome, event = .taskEnds outcome ∧ s.task = none ∧ body s.taskCancels outcome ∧
        s' = { s with task := some outcome } := by
  cases h with
  | taskEnds running allowed => exact Or.inr ⟨_, rfl, running, allowed, rfl⟩
  | cancelParent awaiting => exact Or.inl ⟨by split <;> rfl, by simp⟩
  | _ => exact Or.inl ⟨rfl, by simp⟩

/-- The task is told to cancel by the request and by the poller, while it runs. -/
theorem Step.cancels_cases (h : Step body s event s') :
    s'.taskCancels = s.taskCancels ∨
      s.task = none ∧ s'.taskCancels = s.taskCancels + 1 ∧
        (event = .cancelParent ∨ event = .probeAnswers true) := by
  cases h with
  | disconnected probing =>
    cases htask : s.task with
    | none => exact Or.inr ⟨rfl, rfl, Or.inr rfl⟩
    | some outcome => exact Or.inl rfl
  | cancelParent awaiting =>
    cases htask : s.task with
    | none => exact Or.inr ⟨rfl, rfl, Or.inl rfl⟩
    | some outcome => exact Or.inl rfl
  | _ => exact Or.inl rfl

/-- A poller that has ended stays so, and it ends where it finds the client gone. -/
theorem Step.poller_cases (h : Step body s event s') :
    (s.poller = .ended → s'.poller = .ended) ∧
      (event = .probeAnswers true → s.poller = .probing ∧ s'.poller = .ended) := by
  cases h with
  | pollerChecks at_check going =>
    refine ⟨fun hended => ?_, by simp⟩
    rcases at_check with hs | hs <;> rw [hended] at hs <;> cases hs
  | disconnected probing => exact ⟨fun _ => rfl, fun _ => ⟨probing, rfl⟩⟩
  | connected probing => exact ⟨fun hended => by simp [probing] at hended, by simp⟩
  | probeRaises probing => exact ⟨fun _ => rfl, by simp⟩
  | pollerStops at_check stopped => exact ⟨fun _ => rfl, by simp⟩
  | cancelParent awaiting => exact ⟨fun hended => by split <;> exact hended, by simp⟩
  | _ => exact ⟨id, by simp⟩

/-- What moves the request. -/
inductive ParentMove (s : Supervision α) : SupervisorEvent α → ParentStage α → Prop
  | stays {event : SupervisorEvent α} (other : event ≠ .parentResumes) : ParentMove s event s.parent
  | late {mustCancel : Bool} (awaiting : s.parent = .awaitingTask mustCancel)
      (done : s.task.isSome = true) : ParentMove s .cancelParent (.awaitingTask true)
  | resumes {mustCancel : Bool} {outcome : Except PyError α}
      (awaiting : s.parent = .awaitingTask mustCancel) (done : s.task = some outcome) :
      ParentMove s .parentResumes
        (let outcome := if mustCancel then .error .cancelled else outcome
          if s.poller = .ended then .finished outcome else .awaitingPoller outcome)
  | ends {outcome : Except PyError α} (awaiting : s.parent = .awaitingPoller outcome)
      (done : s.poller = .ended) : ParentMove s .parentEnds (.finished outcome)

theorem Step.parent_move (h : Step body s event s') : ParentMove s event s'.parent := by
  cases h with
  | parentResumes awaiting done => exact .resumes awaiting done
  | parentEnds awaiting done => exact .ends awaiting done
  | cancelParent awaiting =>
    cases htask : s.task with
    | none => exact .stays (by simp)
    | some outcome => exact .late awaiting (by simp [htask])
  | _ => exact .stays (by simp)

end Cases

/-! ## The books of a run -/

section Books

variable {α : Type} {body : Nat → Except PyError α → Prop}

/-- The request was cancelled after the task had ended and before it went on. -/
def CancelledLate (events : List (SupervisorEvent α)) : Prop :=
  ∃ before after, events = before ++ .cancelParent :: after ∧
    (∃ outcome, .taskEnds outcome ∈ before) ∧ .parentResumes ∉ before

/-- How often the server cancelled the request. -/
def requestCancels (events : List (SupervisorEvent α)) : Nat :=
  events.countP fun
    | .cancelParent => true
    | _ => false

/-- How often the poller found the client gone. -/
def timesGone (events : List (SupervisorEvent α)) : Nat :=
  events.countP fun
    | .probeAnswers true => true
    | _ => false

/-- What the `try` block came to, once the request has gone on. -/
def settled : ParentStage α → Option (Except PyError α)
  | .awaitingTask _ => none
  | .awaitingPoller outcome => some outcome
  | .finished outcome => some outcome

/-- The task: it is told to cancel by the request and once by the poller, and its
outcome is one it may have. -/
structure TaskBook (body : Nat → Except PyError α → Prop) (events : List (SupervisorEvent α))
    (s : Supervision α) : Prop where
  ended : ∀ outcome, s.task = some outcome →
    .taskEnds outcome ∈ events ∧ body s.taskCancels outcome
  cancels : s.taskCancels ≤ requestCancels events + timesGone events
  gone : timesGone events = 0 ∨ timesGone events = 1 ∧ s.poller = .ended

/-- The request: it goes on with the outcome of the task or with a late cancellation,
and it is through when the poller is. -/
structure RequestBook (events : List (SupervisorEvent α)) (s : Supervision α) : Prop where
  awaiting : settled s.parent = none → .parentResumes ∉ events
  late : s.parent = .awaitingTask true → CancelledLate events
  outcome : ∀ outcome, settled s.parent = some outcome → ∃ result,
    s.task = some result ∧ (outcome = result ∨ outcome = .error .cancelled ∧ CancelledLate events)
  collected : ∀ outcome, s.parent = .finished outcome → s.poller = .ended

variable {events : List (SupervisorEvent α)} {event : SupervisorEvent α} {s s' : Supervision α}

theorem CancelledLate.append (h : CancelledLate events) (more : List (SupervisorEvent α)) :
    CancelledLate (events ++ more) := by
  obtain ⟨before, after, rfl, hb⟩ := h
  exact ⟨before, after ++ more, by simp, hb⟩

theorem TaskBook.next (h : TaskBook body events s) (step : Step body s event s') :
    TaskBook body (events ++ [event]) s' where
  ended outcome houtcome := by
    rcases step.task_cases with ⟨hsame, -⟩ | ⟨result, rfl, -, hallowed, rfl⟩
    · rw [hsame] at houtcome
      obtain ⟨hmem, hallowed⟩ := h.ended outcome houtcome
      refine ⟨List.mem_append_left _ hmem, ?_⟩
      rcases step.cancels_cases with hcancels | ⟨hnone, -⟩
      · rw [hcancels]
        exact hallowed
      · rw [hnone] at houtcome
        cases houtcome
    · obtain rfl := Option.some.inj houtcome
      exact ⟨by simp, hallowed⟩
  cancels := by
    have hbefore := h.cancels
    simp only [requestCancels, timesGone, List.countP_append] at hbefore ⊢
    rcases step.cancels_cases with hcancels | ⟨-, hcancels, rfl | rfl⟩ <;> rw [hcancels]
    · omega
    · simp
      omega
    · simp
      omega
  gone := by
    obtain ⟨hstays, hends⟩ := step.poller_cases
    have hsplit : timesGone (events ++ [event]) = timesGone events + timesGone [event] :=
      List.countP_append
    -- the poller that finds the client gone ends at once: there is no second time
    by_cases hevent : event = .probeAnswers true
    · obtain ⟨hprobing, hended⟩ := hends hevent
      have hone : timesGone [event] = 1 := by rw [hevent]; rfl
      rcases h.gone with hzero | ⟨-, hpoller⟩
      · exact Or.inr ⟨by omega, hended⟩
      · rw [hprobing] at hpoller
        cases hpoller
    · have hzero : timesGone [event] = 0 := by
        rcases event with _ | _ | (_ | _) | _ | _ | _ | _ | _ <;> first
          | exact absurd rfl hevent
          | rfl
      rcases h.gone with hbefore | ⟨hbefore, hpoller⟩
      · exact Or.inl (by omega)
      · exact Or.inr ⟨by omega, hstays hpoller⟩

theorem RequestBook.next (h : RequestBook events s) (htask : TaskBook body events s)
    (step : Step body s event s') : RequestBook (events ++ [event]) s' := by
  have hpoller := step.poller_cases.1
  have htasks : ∀ result, s.task = some result → s'.task = some result := by
    intro result hresult
    rcases step.task_cases with ⟨hsame, -⟩ | ⟨-, -, hnone, -⟩
    · rw [hsame, hresult]
    · rw [hnone] at hresult
      cases hresult
  -- the cases are what the request does; the other steps leave its book as it is
  have hmove := step.parent_move
  generalize hparent : s'.parent = parent at hmove
  cases hmove with
  | stays other =>
    refine ⟨fun hs => ?_, fun hs => ?_, fun outcome hs => ?_, fun outcome hs => ?_⟩
    · rw [hparent] at hs
      simpa [Ne.symm other] using h.awaiting hs
    · exact (h.late (hparent ▸ hs)).append _
    · obtain ⟨result, hresult, ho⟩ := h.outcome outcome (hparent ▸ hs)
      exact ⟨result, htasks result hresult, ho.imp id fun hl => ⟨hl.1, hl.2.append _⟩⟩
    · exact hpoller (h.collected outcome (hparent ▸ hs))
  -- the cancellation comes after the end of the task and before the request resumes
  | late awaiting done =>
    have hresumed : .parentResumes ∉ events := h.awaiting (by rw [awaiting]; rfl)
    have hlate : CancelledLate (events ++ [.cancelParent]) := by
      obtain ⟨outcome, houtcome⟩ := Option.isSome_iff_exists.mp done
      exact ⟨events, [], rfl, ⟨outcome, (htask.ended outcome houtcome).1⟩, hresumed⟩
    refine ⟨fun _ => by simpa using hresumed, fun _ => hlate, ?_, ?_⟩
    · intro outcome hs
      rw [hparent] at hs
      cases hs
    · intro outcome hs
      rw [hparent] at hs
      cases hs
  | @resumes mustCancel result awaiting done =>
    obtain ⟨outcome, houtcome⟩ :
        ∃ outcome, (if mustCancel then Except.error .cancelled else result) = outcome := ⟨_, rfl⟩
    have hsettles : outcome = result ∨ outcome = .error .cancelled ∧
        CancelledLate (events ++ [.parentResumes]) := by
      cases mustCancel with
      | true => exact Or.inr ⟨houtcome.symm, (h.late awaiting).append _⟩
      | false => exact Or.inl houtcome.symm
    simp only [houtcome] at hparent
    -- the outcome is settled here; whether it is final depends on the poller
    by_cases hended : s.poller = .ended
    · rw [if_pos hended] at hparent
      refine ⟨?_, ?_, fun outcome' hs => ?_, fun _ _ => hpoller hended⟩
      · simp [hparent, settled]
      · simp [hparent]
      · rw [hparent] at hs
        obtain rfl := Option.some.inj hs
        exact ⟨result, htasks result done, hsettles⟩
    · rw [if_neg hended] at hparent
      refine ⟨?_, ?_, fun outcome' hs => ?_, ?_⟩
      · simp [hparent, settled]
      · simp [hparent]
      · rw [hparent] at hs
        obtain rfl := Option.some.inj hs
        exact ⟨result, htasks result done, hsettles⟩
      · simp [hparent]
  | @ends outcome awaiting done =>
    refine ⟨?_, ?_, fun outcome' hs => ?_, fun _ _ => hpoller done⟩
    · intro hs
      rw [hparent] at hs
      cases hs
    · intro hs
      rw [hparent] at hs
      cases hs
    · rw [hparent] at hs
      obtain rfl := Option.some.inj hs
      obtain ⟨result, hresult, ho⟩ := h.outcome outcome (by rw [awaiting]; rfl)
      exact ⟨result, htasks result hresult, ho.imp id fun hl => ⟨hl.1, hl.2.append _⟩⟩

theorem Run.books (h : Run body s events s') (hs : s = {}) :
    TaskBook body events s' ∧ RequestBook events s' := by
  induction h with
  | refl =>
    subst hs
    exact ⟨⟨by simp, Nat.zero_le _, Or.inl rfl⟩, ⟨by simp, by simp, by simp [settled], by simp⟩⟩
  | next _ step ih =>
    obtain ⟨htask, hrequest⟩ := ih
    exact ⟨htask.next step, hrequest.next htask step⟩

end Books

/-! ## The outcome of the call -/

section Outcome

variable {α : Type}

/-- **The call collects both tasks.**  Whatever the order of the steps: when the call is
through, the task and the poller have ended.  The outcome is the task's, unless the
request was cancelled after the task had ended.  The task was told to cancel at most as
often as the request was, and once more if the client had gone; where neither
happened, the call comes to what the task does by itself. -/
theorem supervised_outcome (body : Nat → Except PyError α → Prop)
    (events : List (SupervisorEvent α)) (s : Supervision α) (run : Run body {} events s)
    (outcome : Except PyError α) (through : s.parent = .finished outcome) :
    s.poller = .ended ∧
      (∃ result, s.task = some result ∧ body s.taskCancels result ∧
        (outcome = result ∨ outcome = .error .cancelled ∧ CancelledLate events)) ∧
      s.taskCancels ≤ requestCancels events + timesGone events ∧ timesGone events ≤ 1 ∧
      (requestCancels events = 0 → timesGone events = 0 → body 0 outcome) := by
  obtain ⟨htask, hrequest⟩ := run.books rfl
  obtain ⟨result, hresult, ho⟩ := hrequest.outcome outcome (by rw [through]; rfl)
  have hallowed := (htask.ended result hresult).2
  have hcancels := htask.cancels
  refine ⟨hrequest.collected outcome through, ⟨result, hresult, hallowed, ho⟩, hcancels, ?_, ?_⟩
  · rcases htask.gone with hgone | ⟨hgone, -⟩ <;> omega
  · intro hnone hgone
    have hzero : s.taskCancels = 0 := by omega
    rw [hzero] at hallowed
    rcases ho with rfl | ⟨-, before, after, rfl, -⟩
    · exact hallowed
    · simp [requestCancels] at hnone

/-- The outcomes of `_run_parse` as a task: its own, unless it is told to cancel. -/
def parseOutcomes {ω : Type} (service : DocumentParsingService ω) (request : ParseMultipartRequest)
    (consumerId requestId : Option String) (start : Session ω) (told : Nat)
    (outcome : Except PyError ParsedDocument) : Prop :=
  told = 0 → outcome = ((service.runParse request consumerId requestId).outcome start).1

/-- A parse that nobody disturbs comes to what `_run_parse` comes to. -/
theorem parse_undisturbed {ω : Type} {service : DocumentParsingService ω}
    {request : ParseMultipartRequest} {consumerId requestId : Option String} {start : Session ω}
    {events : List (SupervisorEvent ParsedDocument)} {s : Supervision ParsedDocument}
    (run : Run (parseOutcomes service request consumerId requestId start) {} events s)
    (uncancelled : requestCancels events = 0) (connected : timesGone events = 0)
    {outcome : Except PyError ParsedDocument} (through : s.parent = .finished outcome) :
    outcome = ((service.runParse request consumerId requestId).outcome start).1 :=
  (supervised_outcome _ events s run outcome through).2.2.2.2 uncancelled connected rfl

/-- A task that ends cancelled once it is told to. -/
def obedient (told : Nat) (outcome : Except PyError Unit) : Prop :=
  outcome = if told = 0 then .ok () else .error .cancelled

/-- The client is there, then gone; the task ends cancelled. -/
def goneEvents : List (SupervisorEvent Unit) :=
  [.pollerChecks, .probeAnswers false, .pollerChecks, .probeAnswers true,
    .taskEnds (.error .cancelled), .parentResumes]

def goneState : Supervision Unit where
  task := some (.error .cancelled)
  taskCancels := 1
  poller := .ended
  pollerCancelled := true
  parent := .finished (.error .cancelled)

theorem run_goneEvents : Run obedient {} goneEvents goneState := by
  have hlooks : Run obedient {} [.pollerChecks] { poller := .probing } :=
    Run.next (.refl {}) (.pollerChecks (Or.inl rfl) rfl)
  have hsleeps : Run obedient {} _ { poller := .sleeping } := hlooks.next (.connected rfl)
  have hchecks : Run obedient {} _ { poller := .probing } :=
    hsleeps.next (.pollerChecks (Or.inr rfl) rfl)
  have hgone : Run obedient {} _ { poller := .ended, taskCancels := 1 } :=
    hchecks.next (.disconnected rfl)
  have hends : Run obedient {} _
      { poller := .ended, taskCancels := 1, task := some (.error .cancelled) } :=
    hgone.next (.taskEnds rfl rfl)
  have hwaits : ({ poller := .ended, taskCancels := 1, task := some (.error .cancelled) } :
      Supervision Unit).parent = .awaitingTask false := rfl
  exact hends.next (.parentResumes hwaits rfl)

/-- The outcome is the cancellation the poller asked for. -/
theorem gone_client_outcome : obedient goneState.taskCancels (.error .cancelled) := by
  obtain ⟨-, ⟨result, hresult, hallowed, -⟩, -⟩ :=
    supervised_outcome obedient goneEvents goneState run_goneEvents _ rfl
  obtain rfl := Option.some.inj hresult
  exact hallowed

/-- **A cancellation is lost while the poller is collected**: from then on the outcome
stays what it is, however often the request is cancelled. -/
theorem cancellation_lost (body : Nat → Except PyError α → Prop) {s s' : Supervision α}
    {events : List (SupervisorEvent α)} (run : Run body s events s') {outcome : Except PyError α}
    (collecting : settled s.parent = some outcome) : settled s'.parent = some outcome := by
  induction run with
  | refl => exact collecting
  | next _ step ih =>
    have hbefore := ih
    have hmove := step.parent_move
    generalize hparent : Supervision.parent _ = parent at hmove ⊢
    cases hmove with
    | stays => exact hbefore
    | late awaiting => rw [awaiting] at hbefore; cases hbefore
    | resumes awaiting => rw [awaiting] at hbefore; cases hbefore
    | ends awaiting => rw [awaiting] at hbefore; exact hbefore

/-! ## The end of the call -/

/-- How many steps the poller may still take once the task has ended. -/
def pollerRank : PollerStage → Nat
  | .starting => 1
  | .probing => 2
  | .sleeping => 1
  | .ended => 0

def parentRank : ParentStage α → Nat
  | .awaitingTask _ => 2
  | .awaitingPoller _ => 1
  | .finished _ => 0

/-- How many steps there may still be once the task has ended. -/
def rank (s : Supervision α) : Nat := pollerRank s.poller + parentRank s.parent

/-- Steps other than cancellations of the request. -/
def moves (events : List (SupervisorEvent α)) : Nat :=
  events.countP fun
    | .cancelParent => false
    | _ => true

variable {body : Nat → Except PyError α → Prop} {s s' : Supervision α}
  {event : SupervisorEvent α} {events : List (SupervisorEvent α)}

/-- Every step but a cancellation brings the end nearer. -/
theorem Step.rank_lt (step : Step body s event s') (done : s.task.isSome = true) :
    rank s' + moves [event] ≤ rank s ∧ s'.task.isSome = true := by
  cases step with
  | taskEnds running allowed => simp [running] at done
  | pollerChecks at_check going =>
    refine ⟨?_, done⟩
    rcases at_check with hs | hs
    all_goals
      simp only [rank, hs, moves, done, pollerRank, List.countP_singleton, if_true]
      omega
  | disconnected probing =>
    refine ⟨?_, done⟩
    simp only [rank, probing, moves, pollerRank, List.countP_singleton, if_true]
    omega
  | connected probing =>
    refine ⟨?_, done⟩
    simp only [rank, probing, moves, pollerRank, List.countP_singleton, if_true]
    omega
  | probeRaises probing =>
    refine ⟨?_, done⟩
    simp only [rank, probing, moves, pollerRank, List.countP_singleton, if_true]
    omega
  | pollerStops at_check stopped =>
    refine ⟨?_, done⟩
    rcases at_check with hs | hs
    all_goals
      simp only [rank, hs, moves, pollerRank, List.countP_singleton, if_true]
      omega
  | parentResumes awaiting task_done =>
    refine ⟨?_, done⟩
    by_cases hended : s.poller = .ended
    · simp [rank, moves, awaiting, parentRank, hended]
    · simp [rank, moves, awaiting, parentRank, hended]
  | parentEnds awaiting poller_ended => exact ⟨by simp [rank, moves, awaiting, parentRank], done⟩
  -- cancellations are not counted, and do not raise the rank
  | cancelParent awaiting =>
    rw [if_pos done]
    exact ⟨by simp [rank, moves, awaiting, parentRank], done⟩
  | cancelCollecting awaiting => exact ⟨by simp [rank, moves], done⟩

/-- Until the call is through some step can be taken. -/
theorem exists_step (done : s.task.isSome = true)
    (going : ∀ outcome, s.parent ≠ .finished outcome) :
    ∃ event s', event ≠ .cancelParent ∧ Step body s event s' := by
  obtain ⟨outcome, houtcome⟩ := Option.isSome_iff_exists.mp done
  cases hparent : s.parent with
  | awaitingTask mustCancel => exact ⟨_, _, by simp, .parentResumes hparent houtcome⟩
  | finished outcome => exact absurd hparent (going outcome)
  | awaitingPoller outcome =>
    have hstep : ∀ stage, s.poller = stage → (stage = .starting ∨ stage = .sleeping) →
        ∃ event s', event ≠ .cancelParent ∧ Step body s event s' := by
      intro stage hstage hcheck
      rw [← hstage] at hcheck
      cases hcancelled : s.pollerCancelled with
      | true => exact ⟨_, _, by simp, .pollerStops hcheck hcancelled⟩
      | false => exact ⟨_, _, by simp, .pollerChecks hcheck hcancelled⟩
    cases hpoller : s.poller with
    | starting => exact hstep _ hpoller (Or.inl rfl)
    | sleeping => exact hstep _ hpoller (Or.inr rfl)
    | probing => exact ⟨_, _, by simp, .probeRaises hpoller⟩
    | ended => exact ⟨_, _, by simp, .parentEnds hparent hpoller⟩

/-- **The call ends with the task.**  From a moment at which the task has ended there are
at most four more steps, however they come and whatever the poller is answered; and as
long as the call is not through there is one. -/
theorem supervised_ends (body : Nat → Except PyError α → Prop) (s s' : Supervision α)
    (events : List (SupervisorEvent α)) (done : s.task.isSome = true) (run : Run body s events s') :
    moves events ≤ 4 ∧
      ((¬∃ event s'', event ≠ .cancelParent ∧ Step body s' event s'') →
        ∃ outcome, s'.parent = .finished outcome) := by
  have hrank : rank s' + moves events ≤ rank s ∧ s'.task.isSome = true := by
    induction run with
    | refl => exact ⟨by simp [moves], done⟩
    | next _ step ih =>
      obtain ⟨hle, htask⟩ := ih
      obtain ⟨hstep, htask'⟩ := step.rank_lt htask
      refine ⟨?_, htask'⟩
      simp only [moves, List.countP_append] at hle hstep ⊢
      omega
  obtain ⟨hle, htask⟩ := hrank
  constructor
  · have hpoller : pollerRank s.poller ≤ 2 := by cases s.poller <;> simp [pollerRank]
    have hparent : parentRank s.parent ≤ 2 := by cases s.parent <;> simp [parentRank]
    have hbound : rank s ≤ 4 := Nat.add_le_add hpoller hparent
    omega
  · intro hstuck
    by_contra hgoing
    exact hstuck (exists_step htask fun outcome ho => hgoing ⟨outcome, ho⟩)

/-- A task that has ended while the poller was asking. -/
def endedState : Supervision Unit := { task := some (.ok ()), poller := .probing }

/-- The request goes on, is cancelled, and the poller swallows it. -/
def endingEvents : List (SupervisorEvent Unit) :=
  [.parentResumes, .cancelParent, .probeAnswers false, .pollerChecks, .parentEnds]

theorem ending_moves : moves endingEvents ≤ 4 := by
  have hwaits : endedState.parent = .awaitingTask false := rfl
  have hresumes : Run obedient endedState [.parentResumes] _ :=
    Run.next (.refl endedState) (.parentResumes hwaits rfl)
  have hcancelled := hresumes.next (.cancelCollecting rfl)
  have hanswers := hcancelled.next (.connected rfl)
  have hchecks := hanswers.next (.pollerChecks (Or.inr rfl) rfl)
  exact (supervised_ends obedient endedState _ endingEvents rfl (hchecks.next (.parentEnds rfl rfl))).1

end Outcome
end Supervision
end InternumCore
