import InternumCore.Program
import InternumCore.PyText

/-!
# Who may call

Every request presents a key in `X-API-Key`, and `requireConsumer` looks for the
configured consumer it belongs to.  The settings are validated when they are
loaded: there is a consumer, no two have the same id, no key is empty.  Nothing
is said about keys that two consumers share, or about their characters.

* The lookup takes the **first** consumer with the key, so a revoked consumer
  behind another one with the same key does not count (`revocation_effective_iff`).
* `hmac.compare_digest` raises on text that is not ASCII, and nobody catches it
  (`authentication_error_only_iff`).
-/

namespace InternumCore

/-! ## Settings -/

/-- `ApiConsumerSettings`, with its id stripped. -/
structure ApiConsumerSettings where
  id : String
  apiKey : String
  revoked : Bool := false
  id_ne : id ≠ ""
  apiKey_ne : apiKey ≠ ""

/-- The validation of one `ApiConsumerSettings`; `none` is `ValidationError`. -/
def validateConsumer (id apiKey : String) (revoked : Bool) : Option ApiConsumerSettings :=
  if hkey : apiKey = "" then none
  else if hid : strip id = "" then none
  else some ⟨strip id, apiKey, revoked, hid, hkey⟩

/-- The loop of `require_unique_consumer_ids`. -/
def requireUniqueConsumerIds (seen : List String) : List ApiConsumerSettings → Bool
  | [] => true
  | consumer :: consumers =>
    if consumer.id ∈ seen then false
    else requireUniqueConsumerIds (consumer.id :: seen) consumers

/-- `CoreSettings`, as far as authentication reads it: the consumers that its
validators accept. -/
structure ConsumerSettings where
  apiConsumers : List ApiConsumerSettings
  apiConsumers_ne : apiConsumers ≠ []
  unique_ids : requireUniqueConsumerIds [] apiConsumers = true

/-- The validation of `CoreSettings.api_consumers`: ids, keys and revocation flags. -/
def validateConsumers (entries : List (String × String × Bool)) : Option ConsumerSettings := do
  let consumers ← entries.mapM fun entry => validateConsumer entry.1 entry.2.1 entry.2.2
  if h : consumers ≠ [] ∧ requireUniqueConsumerIds [] consumers = true then
    some ⟨consumers, h.1, h.2⟩
  else none

/-- The validators accept every value of the type whose ids are stripped. -/
theorem validateConsumers_self (settings : ConsumerSettings)
    (h : ∀ c ∈ settings.apiConsumers, strip c.id = c.id) :
    validateConsumers (settings.apiConsumers.map fun c => (c.id, c.apiKey, c.revoked)) =
      some settings := by
  have hone : ∀ c ∈ settings.apiConsumers,
      validateConsumer c.id c.apiKey c.revoked = some c := by
    intro c hc
    simp [validateConsumer, h c hc, c.id_ne, c.apiKey_ne]
  have hall : ∀ l : List ApiConsumerSettings,
      (∀ c ∈ l, validateConsumer c.id c.apiKey c.revoked = some c) →
      (l.map fun c => (c.id, c.apiKey, c.revoked)).mapM
        (fun entry => validateConsumer entry.1 entry.2.1 entry.2.2) = some l := by
    intro l hl
    induction l with
    | nil => rfl
    | cons c l ih =>
      rw [List.map_cons, List.mapM_cons, hl c List.mem_cons_self,
        ih fun d hd => hl d (List.mem_cons_of_mem _ hd)]
      rfl
  unfold validateConsumers
  rw [hall _ hone]
  exact dif_pos ⟨settings.apiConsumers_ne, settings.unique_ids⟩

/-- What the validator accepts is free of repeated ids. -/
theorem requireUniqueConsumerIds_iff {seen : List String} {consumers : List ApiConsumerSettings} :
    requireUniqueConsumerIds seen consumers = true ↔
      (consumers.map (·.id)).Nodup ∧ ∀ c ∈ consumers, c.id ∉ seen := by
  induction consumers generalizing seen with
  | nil => simp [requireUniqueConsumerIds]
  | cons c consumers ih =>
    unfold requireUniqueConsumerIds
    by_cases hc : c.id ∈ seen
    · simp [hc]
    · rw [if_neg hc, ih, List.map_cons, List.nodup_cons]
      constructor
      · intro h
        obtain ⟨hnodup, hnew⟩ := h
        refine ⟨⟨fun hm => ?_, hnodup⟩, fun d hd => ?_⟩
        · obtain ⟨d, hd, he⟩ := List.mem_map.mp hm
          exact hnew d hd (he ▸ List.mem_cons_self)
        · rcases List.mem_cons.mp hd with rfl | hd
          · exact hc
          · exact fun hs => hnew d hd (List.mem_cons_of_mem _ hs)
      · intro h
        obtain ⟨⟨hfirst, hnodup⟩, hnew⟩ := h
        refine ⟨hnodup, fun d hd hm => ?_⟩
        rcases List.mem_cons.mp hm with he | hs
        · exact hfirst (List.mem_map.mpr ⟨d, hd, he⟩)
        · exact hnew d (List.mem_cons_of_mem _ hd) hs

/-! ## The lookup -/

/-- `text.isascii()`. -/
def isAscii (text : String) : Bool := text.toList.all fun c => c.toNat < 128

/-- `hmac.compare_digest(a, b)` on two strings; `none` is `TypeError`. -/
def compareDigest (a b : String) : Option Bool :=
  if isAscii a && isAscii b then some (a == b) else none

/-- `AuthenticationError`. -/
structure AuthenticationError where
  code : String
  message : String
  statusCode : Nat := 401
  deriving DecidableEq

/-- What `require_consumer` raises. -/
inductive AuthFailure where
  | authentication (error : AuthenticationError)
  | configuration (message : String)
  /-- `TypeError`, from `compare_digest`. -/
  | typeError
  deriving DecidableEq

/-- The loop of `find_consumer_by_key`. -/
def findConsumerByKey (apiKey : String) :
    List ApiConsumerSettings → Except AuthFailure (Option ApiConsumerSettings)
  | [] => .ok none
  | consumer :: consumers =>
    match compareDigest consumer.apiKey apiKey with
    | none => .error .typeError
    | some true => .ok (some consumer)
    | some false => findConsumerByKey apiKey consumers

/-- The consumers listed before the first one with the key. -/
def listedBefore (apiKey : String) (consumers : List ApiConsumerSettings) :
    List ApiConsumerSettings :=
  consumers.takeWhile (·.apiKey ≠ apiKey)

section Lookup

variable {apiKey : String} {consumers : List ApiConsumerSettings} {c : ApiConsumerSettings}

/-! One turn of the loop finds the key, passes another one over, or raises. -/

theorem findConsumerByKey_cons_eq (hascii : isAscii apiKey = true) (hc : c.apiKey = apiKey) :
    findConsumerByKey apiKey (c :: consumers) = .ok (some c) := by
  simp [findConsumerByKey, compareDigest, hascii, hc]

theorem findConsumerByKey_cons_ne (hascii : isAscii apiKey = true) (hc : isAscii c.apiKey = true)
    (hne : c.apiKey ≠ apiKey) :
    findConsumerByKey apiKey (c :: consumers) = findConsumerByKey apiKey consumers := by
  simp [findConsumerByKey, compareDigest, hascii, hc, beq_eq_false_iff_ne.mpr hne]

theorem findConsumerByKey_cons_raises (h : ¬(isAscii c.apiKey = true ∧ isAscii apiKey = true)) :
    findConsumerByKey apiKey (c :: consumers) = .error .typeError := by
  simp [findConsumerByKey, compareDigest, h]

/-- The lookup returns the first consumer with the key, if it gets there. -/
theorem findConsumerByKey_eq_some_iff (hascii : isAscii apiKey = true) :
    findConsumerByKey apiKey consumers = .ok (some c) ↔
      ∃ before after, consumers = before ++ c :: after ∧ c.apiKey = apiKey ∧
        ∀ b ∈ before, b.apiKey ≠ apiKey ∧ isAscii b.apiKey = true := by
  induction consumers with
  | nil => simp [findConsumerByKey]
  | cons d consumers ih =>
    constructor
    · intro h
      by_cases he : d.apiKey = apiKey
      · rw [findConsumerByKey_cons_eq hascii he] at h
        cases h
        exact ⟨[], consumers, rfl, he, fun b hb => by cases hb⟩
      · by_cases hd : isAscii d.apiKey = true
        · rw [findConsumerByKey_cons_ne hascii hd he] at h
          obtain ⟨before, after, rfl, hc, hbefore⟩ := ih.mp h
          refine ⟨d :: before, after, rfl, hc, fun b hb => ?_⟩
          rcases List.mem_cons.mp hb with rfl | hb
          · exact ⟨he, hd⟩
          · exact hbefore b hb
        -- `compare_digest` raises for a key that is not ASCII, and ends the loop
        · rw [findConsumerByKey_cons_raises fun h => hd h.1] at h
          cases h
    · intro h
      obtain ⟨before, after, hlist, hc, hbefore⟩ := h
      cases before with
      | nil =>
        cases hlist
        exact findConsumerByKey_cons_eq hascii hc
      | cons b before =>
        cases hlist
        obtain ⟨hne, hb⟩ := hbefore d List.mem_cons_self
        rw [findConsumerByKey_cons_ne hascii hb hne]
        exact ih.mpr ⟨before, after, rfl, hc, fun b hb => hbefore b (List.mem_cons_of_mem _ hb)⟩

/-- The lookup raises unless all the keys it compares are ASCII. -/
theorem findConsumerByKey_isOk_iff :
    (∃ found, findConsumerByKey apiKey consumers = .ok found) ↔
      consumers = [] ∨ isAscii apiKey = true ∧
        ∀ c ∈ listedBefore apiKey consumers, isAscii c.apiKey = true := by
  induction consumers with
  | nil => simp [findConsumerByKey]
  | cons d consumers ih =>
    by_cases hascii : isAscii apiKey = true
    · by_cases he : d.apiKey = apiKey
      · rw [findConsumerByKey_cons_eq hascii he]
        simp [listedBefore, he, hascii]
      · have hrest : listedBefore apiKey (d :: consumers) = d :: listedBefore apiKey consumers := by
          simp [listedBefore, he]
        by_cases hd : isAscii d.apiKey = true
        · have hlast : consumers = [] → ∀ c ∈ listedBefore apiKey consumers,
              isAscii c.apiKey = true := by
            rintro rfl c hc
            cases hc
          rw [findConsumerByKey_cons_ne hascii hd he, ih, hrest]
          simp only [reduceCtorEq, false_or, hascii, true_and, List.forall_mem_cons, hd]
          exact ⟨fun h => h.elim hlast id, Or.inr⟩
        · rw [findConsumerByKey_cons_raises fun h => hd h.1, hrest]
          simp [hd]
    · rw [findConsumerByKey_cons_raises fun h => hascii h.2]
      simp [hascii]

theorem findConsumerByKey_error {e : AuthFailure}
    (h : findConsumerByKey apiKey consumers = .error e) : e = .typeError := by
  induction consumers with
  | nil => cases h
  | cons c consumers ih =>
    unfold findConsumerByKey at h
    split at h
    · cases h
      rfl
    · cases h
    · exact ih h

/-- What the lookup returns is configured. -/
theorem mem_of_findConsumerByKey (h : findConsumerByKey apiKey consumers = .ok (some c)) :
    c ∈ consumers := by
  induction consumers with
  | nil => cases h
  | cons d consumers ih =>
    unfold findConsumerByKey at h
    split at h
    · cases h
    · cases h
      exact List.mem_cons_self
    · exact List.mem_cons_of_mem _ (ih h)

end Lookup

/-! ## The request -/

/-- `ConsumerIdentity`. -/
structure ConsumerIdentity where
  id : String
  deriving DecidableEq

/-- A request, as far as authentication reads and writes it. -/
structure AppRequest where
  /-- `request.app.state.settings`, if these are settings. -/
  settings : Option ConsumerSettings
  /-- `request.state.consumer`. -/
  consumer : Option ConsumerIdentity := none

/-- `get_settings`. -/
def getSettings : Program AppRequest AuthFailure ConsumerSettings := do
  match ← Program.step fun request => (request.settings, request) with
  | some settings => return settings
  | none => throw (.configuration "Invalid server configuration")

/-- `require_consumer`. -/
def requireConsumer (apiKey : Option String) :
    Program AppRequest AuthFailure ConsumerIdentity := do
  match apiKey.filter (· ≠ "") with
  | none => throw (.authentication { code := "missing_api_key", message := "Missing API key" })
  | some apiKey =>
    let settings ← getSettings
    match ← Program.ofExcept (findConsumerByKey apiKey settings.apiConsumers) with
    | none => throw (.authentication { code := "invalid_api_key", message := "Invalid API key" })
    | some consumer =>
      if consumer.revoked then
        throw (.authentication
          { code := "revoked_api_key", message := "API key has been revoked", statusCode := 403 })
      else
        let identity : ConsumerIdentity := ⟨consumer.id⟩
        Program.step fun request => ((), { request with consumer := some identity })
        return identity

section Requests

variable {settings : ConsumerSettings} {consumer : Option ConsumerIdentity}

@[simp] theorem outcome_getSettings :
    getSettings.outcome ⟨some settings, consumer⟩ = (.ok settings, ⟨some settings, consumer⟩) := rfl

/-- Without a key nothing is looked up. -/
theorem requireConsumer_missing {apiKey : Option String} (h : apiKey.filter (· ≠ "") = none) :
    (requireConsumer apiKey).outcome ⟨some settings, consumer⟩ =
      (.error (.authentication { code := "missing_api_key", message := "Missing API key" }),
        ⟨some settings, consumer⟩) := by
  unfold requireConsumer
  rw [h]
  rfl

/-- With a key the lookup decides. -/
theorem requireConsumer_present {key : String} (hkey : key ≠ "") :
    (requireConsumer (some key)).outcome ⟨some settings, consumer⟩ =
      match findConsumerByKey key settings.apiConsumers with
      | .error e => (.error e, ⟨some settings, consumer⟩)
      | .ok none =>
        (.error (.authentication { code := "invalid_api_key", message := "Invalid API key" }),
          ⟨some settings, consumer⟩)
      | .ok (some found) =>
        if found.revoked then
          (.error (.authentication
            { code := "revoked_api_key", message := "API key has been revoked", statusCode := 403 }),
            ⟨some settings, consumer⟩)
        else (.ok ⟨found.id⟩, ⟨some settings, some ⟨found.id⟩⟩) := by
  have hfilter : (some key).filter (· ≠ "") = some key := by simp [hkey]
  unfold requireConsumer
  rw [hfilter]
  dsimp only
  rw [Program.outcome_bind, outcome_getSettings]
  dsimp only
  rw [Program.outcome_bind, Program.outcome_ofExcept]
  cases findConsumerByKey key settings.apiConsumers with
  | error e => rfl
  | ok found =>
    cases found with
    | none => rfl
    | some found =>
      dsimp only
      -- `revoked` is looked at for the first consumer with the key only
      by_cases hr : found.revoked = true
      · rw [if_pos hr, if_pos hr]
        rfl
      · rw [if_neg hr, if_neg hr]
        rfl

/-- A request is admitted with the first consumer that has its key, unless that
one is revoked. -/
theorem requireConsumer_eq_ok_iff {key : String} (hkey : key ≠ "") {identity : ConsumerIdentity}
    {request : AppRequest} :
    (requireConsumer (some key)).outcome ⟨some settings, consumer⟩ = (.ok identity, request) ↔
      ∃ c, findConsumerByKey key settings.apiConsumers = .ok (some c) ∧ c.revoked = false ∧
        identity = ⟨c.id⟩ ∧ request = ⟨some settings, some ⟨c.id⟩⟩ := by
  rw [requireConsumer_present hkey]
  cases findConsumerByKey key settings.apiConsumers with
  | error e => simp
  | ok found =>
    cases found with
    | none => simp
    | some found =>
      by_cases hr : found.revoked = true
      · simp [hr]
      · rw [Bool.not_eq_true] at hr
        simp only [hr, Bool.false_eq_true, if_false, Prod.mk.injEq, Except.ok.injEq,
          Option.some.injEq]
        constructor
        · rintro ⟨rfl, rfl⟩
          exact ⟨found, rfl, hr, rfl, rfl⟩
        · rintro ⟨c, rfl, -, rfl, rfl⟩
          exact ⟨rfl, rfl⟩

end Requests

/-! ## Revocation -/

/-- What the caller may be told when a request with this key is admitted: the key
is configured, none of its consumers is revoked, and one of them is the identity. -/
structure Admissible (settings : ConsumerSettings) (apiKey : String) (identity : ConsumerIdentity) :
    Prop where
  configured : ∃ c ∈ settings.apiConsumers, c.apiKey = apiKey
  not_revoked : ∀ c ∈ settings.apiConsumers, c.apiKey = apiKey → c.revoked = false
  identified : ∃ c ∈ settings.apiConsumers, c.apiKey = apiKey ∧ c.id = identity.id

/-- A revoked consumer is listed behind one that is not revoked and has the same
key; the comparison gets as far as that one. -/
def RevocationShadowed (consumers : List ApiConsumerSettings) (apiKey : String) : Prop :=
  ∃ before c after, consumers = before ++ c :: after ∧ c.apiKey = apiKey ∧
    (∀ b ∈ before, b.apiKey ≠ apiKey ∧ isAscii b.apiKey = true) ∧ c.revoked = false ∧
    ∃ d ∈ after, d.apiKey = apiKey ∧ d.revoked = true

/-- The first consumer with the key is admissible, if neither it nor any other
one behind it is revoked. -/
theorem admissible_of_first {settings : ConsumerSettings} {apiKey : String}
    {c : ApiConsumerSettings} {before after : List ApiConsumerSettings}
    (hlist : settings.apiConsumers = before ++ c :: after) (hc : c.apiKey = apiKey)
    (hbefore : ∀ b ∈ before, b.apiKey ≠ apiKey) (hr : c.revoked = false)
    (hafter : ∀ d ∈ after, d.apiKey = apiKey → d.revoked = false) :
    Admissible settings apiKey ⟨c.id⟩ := by
  have hmem : c ∈ settings.apiConsumers := by simp [hlist]
  refine ⟨⟨c, hmem, hc⟩, fun d hd hk => ?_, ⟨c, hmem, hc, rfl⟩⟩
  rw [hlist, List.mem_append, List.mem_cons] at hd
  rcases hd with hd | rfl | hd
  · exact absurd hk (hbefore d hd)
  · exact hr
  · exact hafter d hd hk

/-- **Revocation is effective exactly when** no consumer that is not revoked
stands before a revoked one with the same key. -/
theorem revocation_effective_iff (settings : ConsumerSettings)
    (consumer : Option ConsumerIdentity) (apiKey : String) (hascii : isAscii apiKey = true) :
    (requireConsumer (some apiKey)).Triple ⟨some settings, consumer⟩
        (fun identity request => Admissible settings apiKey identity ∧
          request.consumer = some identity)
        (fun _ _ => True) ↔
      ¬RevocationShadowed settings.apiConsumers apiKey := by
  rw [Program.Triple.iff_outcome]
  by_cases hkey : apiKey = ""
  · -- no consumer has the empty key, and no request without a key is admitted
    have hmissing := @requireConsumer_missing settings consumer (some apiKey) (by simp [hkey])
    have hno : ¬RevocationShadowed settings.apiConsumers apiKey := by
      intro h
      obtain ⟨before, c, after, -, hc, -⟩ := h
      exact c.apiKey_ne (hc.trans hkey)
    refine ⟨fun _ => hno, fun _ => ⟨fun identity request hok => ?_, fun _ _ _ => trivial⟩⟩
    rw [hmissing] at hok
    cases hok
  · constructor
    -- the first consumer with the key is let in, for all that a later one is revoked
    · intro h hshadowed
      obtain ⟨before, c, after, hlist, hc, hbefore, hr, d, hd, hdk, hdr⟩ := hshadowed
      have hfind := (findConsumerByKey_eq_some_iff hascii).mpr ⟨before, after, hlist, hc, hbefore⟩
      have hok := (@requireConsumer_eq_ok_iff settings consumer _ hkey _ _).mpr
        ⟨c, hfind, hr, rfl, rfl⟩
      have hadmissible := (h.1 _ _ hok).1
      have hnot := hadmissible.not_revoked d (by simp [hlist, hd]) hdk
      rw [hdr] at hnot
      cases hnot
    · intro hno
      refine ⟨fun identity request hok => ?_, fun _ _ _ => trivial⟩
      obtain ⟨c, hfind, hr, rfl, rfl⟩ := (requireConsumer_eq_ok_iff hkey).mp hok
      obtain ⟨before, after, hlist, hc, hbefore⟩ := (findConsumerByKey_eq_some_iff hascii).mp hfind
      refine ⟨admissible_of_first hlist hc (fun b hb => (hbefore b hb).1) hr fun d hd hdk => ?_, rfl⟩
      by_contra hdr
      exact hno ⟨before, c, after, hlist, hc, hbefore, hr, d, hd, hdk, by simpa using hdr⟩

/-! ### A key that two consumers share -/

/-- A consumer with the key `"shared"`. -/
def sharedKeyConsumer (id : String) (revoked : Bool) (hid : id ≠ "") : ApiConsumerSettings where
  id := id
  apiKey := "shared"
  revoked := revoked
  id_ne := hid
  apiKey_ne := by decide

/-- Two consumers share a key, and the second one is revoked. -/
def sharedKeySettings : ConsumerSettings where
  apiConsumers := [sharedKeyConsumer "first" false (by decide),
    sharedKeyConsumer "second" true (by decide)]
  apiConsumers_ne := by simp
  unique_ids := by decide

/-- The key of a revoked consumer is admitted. -/
theorem shared_key_admitted :
    ((requireConsumer (some "shared")).outcome ⟨some sharedKeySettings, none⟩).1.toOption =
        some ⟨"first"⟩ ∧
      ∃ c ∈ sharedKeySettings.apiConsumers, c.apiKey = "shared" ∧ c.revoked = true := by
  refine ⟨by decide, sharedKeyConsumer "second" true (by decide), ?_, rfl, rfl⟩
  simp [sharedKeySettings]

/-- With the two consumers in the other order the key is refused. -/
def revokedFirstSettings : ConsumerSettings where
  apiConsumers := [sharedKeyConsumer "second" true (by decide),
    sharedKeyConsumer "first" false (by decide)]
  apiConsumers_ne := by simp
  unique_ids := by decide

theorem shared_key_effective_iff :
    (requireConsumer (some "shared")).Triple ⟨some revokedFirstSettings, none⟩
        (fun identity request => Admissible revokedFirstSettings "shared" identity ∧
          request.consumer = some identity)
        (fun _ _ => True) ↔
      ¬RevocationShadowed revokedFirstSettings.apiConsumers "shared" :=
  revocation_effective_iff revokedFirstSettings none "shared" (by decide)

/-! ## Failing closed -/

/-- The comparisons of the lookup are all between ASCII strings. -/
def Comparable (consumers : List ApiConsumerSettings) (apiKey : String) : Prop :=
  isAscii apiKey = true ∧ ∀ c ∈ listedBefore apiKey consumers, isAscii c.apiKey = true

/-- What a caller may get: the identity of a configured consumer, or an
authentication error that says why not. -/
def FailsClosed (settings : ConsumerSettings) : Except AuthFailure ConsumerIdentity → Prop
  | .ok identity => ∃ c ∈ settings.apiConsumers, c.id = identity.id
  | .error (.authentication error) =>
    error.code ∈ ["missing_api_key", "invalid_api_key", "revoked_api_key"]
  | .error _ => False

/-- **Authentication fails closed exactly when** there is no key, or the lookup
compares ASCII strings only. -/
theorem authentication_error_only_iff (settings : ConsumerSettings)
    (consumer : Option ConsumerIdentity) (apiKey : Option String) :
    FailsClosed settings ((requireConsumer apiKey).outcome ⟨some settings, consumer⟩).1 ↔
      ∀ key, apiKey = some key → key ≠ "" → Comparable settings.apiConsumers key := by
  -- without a key nothing is compared
  by_cases hmissing : apiKey.filter (· ≠ "") = none
  · rw [requireConsumer_missing hmissing]
    refine ⟨fun _ key he hkey => ?_, fun _ => by simp [FailsClosed]⟩
    simp [he, hkey] at hmissing
  · obtain ⟨key, hkey⟩ := Option.ne_none_iff_exists'.mp hmissing
    obtain ⟨rfl, hne⟩ := Option.filter_eq_some_iff.mp hkey
    have hne : key ≠ "" := by simpa using hne
    have hiff : (∃ found, findConsumerByKey key settings.apiConsumers = .ok found) ↔
        Comparable settings.apiConsumers key := by
      rw [findConsumerByKey_isOk_iff]
      exact ⟨fun h => h.resolve_left settings.apiConsumers_ne, Or.inr⟩
    have hsome : (∀ k, some key = some k → k ≠ "" → Comparable settings.apiConsumers k) ↔
        Comparable settings.apiConsumers key :=
      ⟨fun h => h key rfl hne, fun h k he _ => Option.some.inj he ▸ h⟩
    rw [requireConsumer_present hne, hsome, ← hiff]
    cases hfind : findConsumerByKey key settings.apiConsumers with
    | error e =>
      obtain rfl := findConsumerByKey_error hfind
      simp [FailsClosed]
    | ok found =>
      cases found with
      | none => simp [FailsClosed]
      | some found =>
        have hmem : ∃ c ∈ settings.apiConsumers, c.id = found.id :=
          ⟨found, mem_of_findConsumerByKey hfind, rfl⟩
        by_cases hr : found.revoked = true
        · simp [hr, FailsClosed]
        · simp [hr, FailsClosed, hmem]

/-- A key that is not ASCII ends in a `TypeError`. -/
theorem latin_key_raises :
    (requireConsumer (some "é")).outcome ⟨some sharedKeySettings, none⟩ =
      (.error .typeError, ⟨some sharedKeySettings, none⟩) := rfl

end InternumCore
