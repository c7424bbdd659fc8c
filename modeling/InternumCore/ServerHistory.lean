import InternumCore.RequestPipeline
import Mathlib.Logic.Relation

/-!
# What the server's ledger says

The server works on many requests at once.  What they share is the ledger of
`InMemoryUsageTracker`, and in one `ServerStep` a request arrives, or one of those under way
puts its next record there.  What is charged for a request is what is charged for it when it
runs alone in the world it meets (`Arrival.handled`); that world is any, so that whatever the
requests do to each other's upstream there is a world for each.  The chunks of a document are
asked for at once, so that the records of a request come in any order.

In every state the server can reach, every record names a consumer that some request came with
the key of, and that request (`ledger_names_callers`).
-/

namespace InternumCore
open Relation

/-! ## Requests -/

/-- A request as it arrives, and what it meets. -/
structure Arrival (ω : Type) where
  request : HttpRequest
  uuid : String
  world : ω
  files : List TempFile := []
  nextFile : Nat := 0

/-- A request under way, with what was charged for it so far. -/
structure InFlight (ω : Type) where
  arrival : Arrival ω
  records : List UsageRecord := []

/-- The server. -/
structure Server (ω : Type) where
  requests : List (InFlight ω) := []
  ledger : List UsageRecord := []

namespace Arrival

variable {ω π : Type} (app : App ω π) (arrival : Arrival ω)

/-- The id the middleware gives it. -/
def id : String := arrival.request.contextId arrival.uuid

/-- What it starts from. -/
def session : Session ω where
  world := arrival.world
  files := arrival.files
  nextFile := arrival.nextFile

/-- What becomes of it. -/
def handled : Except AppError HttpResponse × Handling ω :=
  (app.dispatch arrival.request arrival.uuid).outcome (.start arrival.session)

/-- All that is charged for it. -/
def records : List UsageRecord := (arrival.handled app).2.session.records

/-- The consumer it is let in with. -/
def consumerId : Option String := (arrival.handled app).2.consumer.map (·.id)

end Arrival

/-! ## Steps -/

section Steps

variable {ω π : Type} (app : App ω π)

/-- A request arrives, or one under way is charged. -/
inductive ServerStep : Server ω → Server ω → Prop
  | arrives {s : Server ω} (arrival : Arrival ω) :
      ServerStep s { s with requests := s.requests ++ [{ arrival := arrival }] }
  | charges {s : Server ω} {before after : List (InFlight ω)} {r : InFlight ω}
      {record : UsageRecord} {rest : List UsageRecord}
      (under_way : s.requests = before ++ r :: after)
      (next : (r.records ++ record :: rest).Perm (r.arrival.records app)) :
      ServerStep s { s with
        requests := before ++ { r with records := r.records ++ [record] } :: after
        ledger := s.ledger ++ [record] }

/-- The states the server can reach. -/
def ServerReachable (s : Server ω) : Prop := ReflTransGen (ServerStep app) {} s

/-- **The invariant**: the requests were charged with what is theirs, and the ledger holds
nothing else. -/
structure Consistent (s : Server ω) : Prop where
  records : ∀ r ∈ s.requests, r.records ⊆ r.arrival.records app
  ledger : ∀ record ∈ s.ledger, ∃ r ∈ s.requests, record ∈ r.records

end Steps

section Invariant

variable {ω π : Type} {app : App ω π} {s s' : Server ω}

theorem Consistent.step (h : Consistent app s) (hstep : ServerStep app s s') :
    Consistent app s' := by
  cases hstep with
  | arrives arrival =>
    refine ⟨?_, fun record hrecord => ?_⟩
    · rw [List.forall_mem_append, List.forall_mem_singleton]
      exact ⟨h.records, List.nil_subset _⟩
    · obtain ⟨r, hr, hmem⟩ := h.ledger record hrecord
      exact ⟨r, List.mem_append_left _ hr, hmem⟩
  | @charges before after r new rest under_way next =>
    obtain ⟨hrecords, hledger⟩ := h
    rw [under_way] at hrecords hledger
    refine ⟨?_, fun record hrecord => ?_⟩
    · -- the request has been charged with one of its own
      have hcharged : r.records ++ [new] ⊆ r.arrival.records app := by
        refine List.Subset.trans ?_ next.subset
        exact List.append_subset.mpr ⟨List.subset_append_left _ _, by simp⟩
      simp only [List.forall_mem_append, List.forall_mem_cons] at hrecords ⊢
      exact ⟨hrecords.1, hcharged, hrecords.2.2⟩
    · rcases List.mem_append.mp hrecord with hold | hnew
      · obtain ⟨q, hq, hmem⟩ := hledger record hold
        rcases List.mem_append.mp hq with hbefore | hq
        · exact ⟨q, List.mem_append_left _ hbefore, hmem⟩
        · rcases List.mem_cons.mp hq with rfl | hafter
          · exact ⟨_, List.mem_append_right _ List.mem_cons_self, List.mem_append_left _ hmem⟩
          · exact ⟨q, List.mem_append_right _ (List.mem_cons_of_mem _ hafter), hmem⟩
      · exact ⟨_, List.mem_append_right _ List.mem_cons_self, List.mem_append_right _ hnew⟩

theorem consistent_of_reachable (h : ServerReachable app s) : Consistent app s := by
  induction h with
  | refl =>
    exact ⟨fun _ hr => absurd hr List.not_mem_nil, fun _ hr => absurd hr List.not_mem_nil⟩
  | tail _ hstep ih => exact ih.step hstep

end Invariant

/-! ## One request -/

section OneRequest

variable {ω π : Type} {app : App ω π}

theorem Arrival.doneWith (happ : app.Standard) (arrival : Arrival ω) :
    DoneWith app arrival.request arrival.id arrival.session (arrival.handled app).2 :=
  ((dispatch_progress happ arrival.uuid).mono
    (fun _ _ ⟨rejected, hlength, hprogress, _⟩ => ⟨rejected, hlength, hprogress⟩)
    fun _ _ h => h).state

/-- What is charged for a request is charged to the consumer it came with the key of. -/
theorem Arrival.charged (happ : app.Standard) {arrival : Arrival ω} {record : UsageRecord}
    (h : record ∈ arrival.records app) :
    (∃ settings service key c, app.configured = some (settings, service) ∧
      arrival.request.apiKey = some key ∧ findConsumerByKey key settings.apiConsumers = .ok (some c) ∧
      c.revoked = false ∧ arrival.consumerId app = some c.id) ∧
    record.consumerId = arrival.consumerId app ∧ record.requestId = some arrival.id := by
  obtain ⟨rejected, -, hprogress⟩ := arrival.doneWith happ
  rcases hprogress.admitted with huntouched | hadmitted
  · rw [Arrival.records, huntouched.session] at h
    exact absurd h List.not_mem_nil
  · obtain ⟨new, hnew, hnamed⟩ := hadmitted.charged
    have hrecord := hnamed record (by rw [Arrival.records, hnew] at h; exact h)
    obtain ⟨settings, service, key, c, hconfigured, hkey, hfind, hrevoked, hconsumer⟩ :=
      hadmitted.consumer
    refine ⟨⟨settings, service, key, c, hconfigured, hkey, hfind, hrevoked, ?_⟩, hrecord⟩
    rw [Arrival.consumerId, hconsumer]
    rfl

end OneRequest

/-! ## All requests -/

/-- **The ledger names its callers.**  Whatever is on record was charged to a consumer that
some request came with the key of, while it was not revoked, and to that request. -/
theorem ledger_names_callers {ω π : Type} (app : App ω π) (happ : app.Standard) (s : Server ω)
    (hs : ServerReachable app s) (record : UsageRecord) (hrecord : record ∈ s.ledger) :
    ∃ r ∈ s.requests, ∃ settings service key c, app.configured = some (settings, service) ∧
      r.arrival.request.apiKey = some key ∧
      findConsumerByKey key settings.apiConsumers = .ok (some c) ∧ c.revoked = false ∧
      record.consumerId = some c.id ∧ record.requestId = some r.arrival.id := by
  have hconsistent := consistent_of_reachable hs
  obtain ⟨r, hr, hmem⟩ := hconsistent.ledger record hrecord
  obtain ⟨⟨settings, service, key, c, hconfigured, hkey, hfind, hrevoked, hconsumer⟩, hcharged, hid⟩ :=
    Arrival.charged happ (hconsistent.records r hr hmem)
  exact ⟨r, hr, settings, service, key, c, hconfigured, hkey, hfind, hrevoked,
    hcharged.trans hconsumer, hid⟩

/-! ### A request that is charged -/

/-- A form with a page, and any object for a schema. -/
def pageForm : FormData :=
  [("file", .file { filename := some "page.html", contentType := none
                    reads := [.chunk (asciiBytes "<html>") none] }),
    ("schema", .text "\x7b\"type\":\"object\"\x7d")]

/-- A request with that form. -/
def pageArrival : Arrival Nat where
  request := sampleHttp "shared"
  uuid := "c"
  world := 0

/-- A completion of `"first"`. -/
def pageRecord (promptTokens completionTokens : Int) : UsageRecord where
  provider := "openrouter"
  model := "default"
  promptTokens := promptTokens
  completionTokens := completionTokens
  totalTokens := 10
  costUsd := none
  capability := "document_parsing"
  consumerId := some "first"
  requestId := some "c"

/-- The first completion is on record, the second is to come. -/
def chargedServer : Server Nat where
  requests := [⟨pageArrival, [pageRecord 7 3]⟩]
  ledger := [pageRecord 7 3]

theorem chargedServer_reachable : ServerReachable (sampleApp pageForm) chargedServer := by
  have hrecords : pageArrival.records (sampleApp pageForm) = [pageRecord 7 3, pageRecord 8 2] := by
    decide +kernel
  have harrived : ServerReachable (sampleApp pageForm) { requests := [⟨pageArrival, []⟩] } :=
    .tail .refl (.arrives pageArrival)
  have hnext : ([] ++ [pageRecord 7 3, pageRecord 8 2]).Perm
      (pageArrival.records (sampleApp pageForm)) := by
    rw [hrecords]
    exact List.Perm.refl _
  exact .tail harrived
    (@ServerStep.charges _ _ _ _ [] [] ⟨pageArrival, []⟩ (pageRecord 7 3) [pageRecord 8 2] rfl hnext)

/-- Its record names the request and the first consumer with the key. -/
theorem page_record_named :
    ∃ r ∈ chargedServer.requests, ∃ settings service key c,
      (sampleApp pageForm).configured = some (settings, service) ∧
      r.arrival.request.apiKey = some key ∧
      findConsumerByKey key settings.apiConsumers = .ok (some c) ∧ c.revoked = false ∧
      (pageRecord 7 3).consumerId = some c.id ∧ (pageRecord 7 3).requestId = some r.arrival.id :=
  ledger_names_callers (sampleApp pageForm) (sampleApp_standard pageForm) chargedServer
    chargedServer_reachable (pageRecord 7 3) (by simp [chargedServer])

end InternumCore
