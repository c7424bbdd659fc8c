import InternumCore.JsonRoundTrip
import InternumCore.PyText

/-!
# The application log

`log_event` builds a payload and hands it to the logger `internum.api`;
`configure_logging` gives the logger its one handler, which prints a payload as a
line of JSON in production and as readable text otherwise.

`LoggerState` is the logger with what it has written to standard output, which encodes
every text in UTF-8 and refuses what cannot be encoded.  A record may fail to be printed
(`LogRecord.printError`): then nothing of it is written.  The root logger, to which records
also go until `configure_logging` has run, writes elsewhere.
-/

namespace InternumCore

open JsonText

/-! ## Payloads -/

/-- A value a caller puts into an event, as `_json_safe` tells them apart.  Keys are
what `str(key)` makes of them, so that one may come twice. -/
inductive LogValue where
  /-- A `Decimal`, by its text. -/
  | decimal (text : String)
  /-- An `Enum`; those of the program are `StrEnum`s. -/
  | enum (value : String)
  | mapping (entries : List (String × LogValue))
  /-- A `list`, `tuple` or `set`. -/
  | sequence (items : List LogValue)
  | null
  | bool (b : Bool)
  | int (n : Int)
  | float (x : PyFloat)
  | str (s : String)
  /-- Anything else, by its text. -/
  | other (text : String)

mutual

/-- `_json_safe`. -/
def jsonSafe : LogValue → Json
  | .decimal text => .str text
  | .enum value => .str value
  | .mapping entries => .obj (dictOf (jsonSafeEntries entries))
  | .sequence items => .arr (jsonSafeItems items)
  | .null => .null
  | .bool b => .bool b
  | .int n => .int n
  | .float x => .float x
  | .str s => .str s
  | .other text => .str text

def jsonSafeEntries : List (String × LogValue) → List (String × Json)
  | [] => []
  | (key, value) :: entries => (key, jsonSafe value) :: jsonSafeEntries entries

def jsonSafeItems : List LogValue → List Json
  | [] => []
  | item :: items => jsonSafe item :: jsonSafeItems items

end

/-- A `LogRecord`. -/
structure LogRecord where
  level : Nat
  levelName : String
  message : String
  /-- `event_payload`, if it is there and a mapping. -/
  eventPayload : Option (List (String × LogValue)) := none
  /-- `formatException(exc_info)`: the lines of a traceback. -/
  exception : Option String := none
  /-- Half a surrogate pair is in what is printed of the record.  No `String` has one: the
  texts of such a record stand for others. -/
  unpaired : Bool := false

/-- The entries a formatter starts with. -/
def LogRecord.entries (record : LogRecord) : List (String × LogValue) :=
  record.eventPayload.getD [("event", .str record.message)]

/-- `_payload_for`. -/
def payloadFor (record : LogRecord) : List (String × Json) :=
  dictOf (jsonSafeEntries record.entries)

/-! ### What cannot be printed -/

mutual

/-- How deep `_json_safe` goes. -/
def LogValue.nesting : LogValue → Nat
  | .mapping entries => nestingEntries entries + 1
  | .sequence items => nestingItems items + 1
  | _ => 0

def nestingEntries : List (String × LogValue) → Nat
  | [] => 0
  | (_, value) :: entries => max value.nesting (nestingEntries entries)

def nestingItems : List LogValue → Nat
  | [] => 0
  | item :: items => max item.nesting (nestingItems items)

end

mutual

/-- The values in a value that are no containers. -/
def scalars : Json → List Json
  | .arr items => scalarsOfItems items
  | .obj fields => scalarsOfFields fields
  | v => [v]

def scalarsOfItems : List Json → List Json
  | [] => []
  | v :: items => scalars v ++ scalarsOfItems items

def scalarsOfFields : List (String × Json) → List Json
  | [] => []
  | (_, v) :: fields => scalars v ++ scalarsOfFields fields

end

/-- An integer of more digits than Python prints. -/
def tooLong : Json → Bool
  | .int n => decide (maxStrDigits < (Nat.toDigits 10 n.natAbs).length)
  | _ => false

/-- What printing a record raises. -/
inductive PrintError where
  /-- `RecursionError`, from `_json_safe`. -/
  | recursion
  /-- The `ValueError` for an integer of more than 4300 digits. -/
  | digits
  /-- `UnicodeEncodeError`, from the stream, which encodes a text before it writes any
  of it. -/
  | encoding
  deriving DecidableEq

/-- What printing the record raises, where Python goes `depth` deep. -/
def LogRecord.printError (depth : Nat) (record : LogRecord) : Option PrintError :=
  if depth < nestingEntries record.entries + 1 then some .recursion
  else if (scalars (.obj (payloadFor record))).any tooLong then some .digits
  else if record.unpaired then some .encoding
  else none

/-- The payload `_JsonFormatter` prints. -/
def productionPayload (record : LogRecord) : List (String × Json) :=
  match record.exception with
  | some text => Dict.set (payloadFor record) "exception" (.str text)
  | none => payloadFor record

/-- `log_event`, up to the call of the logger. -/
def eventPayload (requestId : Option String) (event : String)
    (fields : List (String × LogValue)) : List (String × LogValue) :=
  let present := fields.filter fun field => match field.2 with
    | .null => false
    | _ => true
  let start := ("event", LogValue.str event) :: (requestId.map fun id => ("requestId", LogValue.str id)).toList
  present.foldl (fun payload field => Dict.set payload field.1 field.2) start

/-! ## Formatters -/

/-- `environment`. -/
inductive Environment where
  | development
  | production
  deriving DecidableEq

/-- The style of `_JsonFormatter`. -/
def productionStyle : DumpStyle := { ensureAscii := false, compact := true, sortKeys := true }

/-- The style of `_PrettyFormatter`. -/
def prettyStyle : DumpStyle := { ensureAscii := false, compact := true }

section Format

variable (fmt : FloatText)

/-- `_JsonFormatter.format`. -/
def formatJson (record : LogRecord) : String :=
  dumps fmt productionStyle (.obj (productionPayload record))

/-- `str(payload.pop("event", record.getMessage()))`. -/
def eventText (str : Json → String) (record : LogRecord) : String :=
  (((payloadFor record).lookup "event").map str).getD record.message

/-- `_PrettyFormatter.format`. -/
def formatPretty (str : Json → String) (record : LogRecord) : String :=
  let payload := (payloadFor record).filter (·.1 ≠ "event")
  let fields := " ".intercalate ((payload.insertionSort fun a b => a.1 ≤ b.1).map fun field =>
    field.1 ++ "=" ++ dumps fmt prettyStyle field.2)
  let line := record.levelName ++ " " ++ eventText str record
  let line := if fields = "" then line else line ++ " " ++ fields
  match record.exception with
  | some text => line ++ "\n" ++ text
  | none => line

end Format

/-- What the formatters take from Python: the texts of floats, `str`, and how deep it goes. -/
structure LogText where
  fmt : FloatText
  str : Json → String
  depth : Nat

/-- The text of a record, if it is printed. -/
def formatRecord (text : LogText) (environment : Environment) (record : LogRecord) :
    Except PrintError String :=
  match record.printError text.depth, environment with
  | some error, _ => .error error
  | none, .production => .ok (formatJson text.fmt record)
  | none, .development => .ok (formatPretty text.fmt text.str record)

/-! ## The logger -/

/-- `logging.getLevelNamesMapping()`. -/
def levelNamesMapping : List (String × Nat) :=
  [("CRITICAL", 50), ("FATAL", 50), ("ERROR", 40), ("WARN", 30), ("WARNING", 30), ("INFO", 20),
    ("DEBUG", 10), ("NOTSET", 0)]

/-- `c.upper()` on the characters that can become part of a level name: besides the
letters of ASCII these are the dotless i and the long s. -/
def upperChar (c : Char) : Char :=
  if c = 'ı' then 'I' else if c = 'ſ' then 'S' else c.toUpper

/-- `text.upper()`, as far as level names go. -/
def upperText (text : String) : String := String.ofList (text.toList.map upperChar)

/-- A `StreamHandler` on standard output. -/
structure StreamHandler where
  id : Nat
  environment : Environment
  level : Nat
  deriving DecidableEq

/-- The logger `internum.api`, and standard output. -/
structure LoggerState where
  handlers : List StreamHandler := []
  level : Nat := 0
  propagate : Bool := true
  closed : List StreamHandler := []
  nextHandler : Nat := 0
  output : String := ""

/-- A call of the module. -/
inductive LogCall where
  | configure (environment : Environment) (logLevel : Option String)
  | log (record : LogRecord)

/-- The level `configure_logging` looks up. -/
def requestedLevel (environment : Environment) (logLevel : Option String) : Option Nat :=
  let default := if environment = .production then "INFO" else "DEBUG"
  let name := match logLevel.filter (· ≠ "") with
    | some name => name
    | none => default
  levelNamesMapping.lookup (upperText name)

/-- `configure_logging`; `none` is `ValueError`. -/
def configureLogging (environment : Environment) (logLevel : Option String) (s : LoggerState) :
    Option LoggerState :=
  match requestedLevel environment logLevel with
  | none => none
  | some level =>
    some { s with
      handlers := [⟨s.nextHandler, environment, level⟩]
      closed := s.closed ++ s.handlers
      nextHandler := s.nextHandler + 1
      level := level
      propagate := false }

/-- `logger.getEffectiveLevel()`: a level of zero leaves it to the root logger. -/
def effectiveLevel (rootLevel level : Nat) : Nat := if level = 0 then rootLevel else level

section Calls

variable (text : LogText) (rootLevel : Nat)

/-- `StreamHandler.emit` on every handler that takes the record. -/
def emitRecord (record : LogRecord) : List StreamHandler → String
  | [] => ""
  | handler :: handlers =>
    if handler.level ≤ record.level then
      match formatRecord text handler.environment record with
      | .ok line => line ++ "\n" ++ emitRecord record handlers
      -- this one is raised again, and the handlers behind do not come to it
      | .error .recursion => ""
      -- of the others `handleError` tells standard error
      | .error _ => emitRecord record handlers
    else emitRecord record handlers

/-- `logger.log`. -/
def logRecord (record : LogRecord) (s : LoggerState) : LoggerState :=
  if effectiveLevel rootLevel s.level ≤ record.level then
    { s with output := s.output ++ emitRecord text record s.handlers }
  else s

/-- What one call leaves, whether it returns or raises. -/
def logStep (s : LoggerState) : LogCall → LoggerState
  | .configure environment logLevel => (configureLogging environment logLevel s).getD s
  | .log record => logRecord text rootLevel record s

/-- A run of calls. -/
def logRun (calls : List LogCall) : LoggerState := calls.foldl (logStep text rootLevel) {}

end Calls

/-! ## What is logged -/

/-- The records that are written, where `threshold` is the level in force: none before
the first `configure_logging`. -/
def written (rootLevel : Nat) : Option Nat → List LogCall → List LogRecord
  | _, [] => []
  | threshold, .configure environment logLevel :: calls =>
    written rootLevel ((requestedLevel environment logLevel).or threshold) calls
  | none, .log _ :: calls => written rootLevel none calls
  | some level, .log record :: calls =>
    if effectiveLevel rootLevel level ≤ record.level then
      record :: written rootLevel (some level) calls
    else written rootLevel (some level) calls

/-- The records that can be printed. -/
def printed (depth : Nat) (records : List LogRecord) : List LogRecord :=
  records.filter fun record => record.printError depth = none

/-- The lines of a text, if the last of them is ended. -/
def endedLines (text : String) : Option (List String) :=
  let pieces := text.toList.splitOn '\n'
  if pieces.getLast? = some [] then some (pieces.dropLast.map String.ofList) else none

/-- Every call of `configure_logging` asks for production. -/
def InProduction (calls : List LogCall) : Prop :=
  ∀ environment logLevel, .configure environment logLevel ∈ calls → environment = .production

/-- The text of a float is read as the float. -/
def ReadsFloat (fmt : FloatText) : PyFloat → Prop
  | .finite q => fmt.Prints q
  | .negZero => fmt.read ['-', '0', '.', '0'] = .negZero
  | .infinite _ | .nan => True

/-- The floats in the payloads are read back. -/
def FloatsRead (fmt : FloatText) (calls : List LogCall) : Prop :=
  ∀ record, .log record ∈ calls → ∀ x, .float x ∈ scalars (.obj (payloadFor record)) →
    ReadsFloat fmt x

/-- The logger has the one handler of the last `configure_logging`, and no other is
open. -/
structure OneHandler (level : Nat) (s : LoggerState) : Prop where
  level_eq : s.level = level
  handlers_eq : ∃ id, s.handlers = [⟨id, .production, level⟩]
  propagate_eq : s.propagate = false

/-- What the calls so far have made of the logger. -/
def Configured (threshold : Option Nat) (s : LoggerState) : Prop :=
  match threshold with
  | none => s.handlers = []
  | some level => OneHandler level s

theorem endedLines_join {lines : List String} (h : ∀ line ∈ lines, '\n' ∉ line.toList) :
    endedLines (String.join (lines.map (· ++ "\n"))) = some lines := by
  have hsplit : (String.join (lines.map (· ++ "\n"))).toList.splitOn '\n' =
      lines.map String.toList ++ [[]] := by
    induction lines with
    | nil => rfl
    | cons line lines ih =>
      rw [List.map_cons, String.join_cons, String.toList_append, String.toList_append,
        List.append_assoc]
      show (line.toList ++ '\n' :: (String.join (lines.map (· ++ "\n"))).toList).splitOn '\n' = _
      rw [List.splitOn_append_cons_self_of_not_mem (h line List.mem_cons_self),
        ih fun line hl => h line (List.mem_cons_of_mem _ hl)]
      rfl
  unfold endedLines
  simp only [hsplit, List.getLast?_concat, List.dropLast_concat, List.map_map, if_true]
  simp [Function.comp_def]

section Payload

theorem nodup_keys_productionPayload (record : LogRecord) :
    (Dict.keys (productionPayload record)).Nodup := by
  unfold productionPayload
  split
  · exact Dict.nodup_keys_set (nodup_keys_dictOf _) _ _
  · exact nodup_keys_dictOf _

theorem scalars_subset_items {v : Json} {items : List Json} (h : v ∈ items) :
    scalars v ⊆ scalarsOfItems items := by
  induction items with
  | nil => cases h
  | cons w items ih =>
    rw [scalarsOfItems]
    rcases List.mem_cons.mp h with rfl | hrest
    · exact List.subset_append_left _ _
    · exact List.subset_append_of_subset_right _ (ih hrest)

theorem scalars_subset_fields {k : String} {v : Json} {fields : List (String × Json)}
    (h : (k, v) ∈ fields) : scalars v ⊆ scalarsOfFields fields := by
  induction fields with
  | nil => cases h
  | cons field fields ih =>
    obtain ⟨l, w⟩ := field
    rw [scalarsOfFields]
    rcases List.mem_cons.mp h with heq | hrest
    · obtain ⟨rfl, rfl⟩ := Prod.mk.inj heq
      exact List.subset_append_left _ _
    · exact List.subset_append_of_subset_right _ (ih hrest)

end Payload

/-! ## What can be printed -/

section Printing

variable {fmt : FloatText}

/-- The scalars are printed, and read back. -/
def Prints (fmt : FloatText) (values : List Json) : Prop :=
  ∀ v ∈ values, tooLong v = false ∧ ∀ x, v = .float x → ReadsFloat fmt x

theorem Prints.subset {values values' : List Json} (h : Prints fmt values)
    (hsubset : values' ⊆ values) : Prints fmt values' :=
  fun v hv => h v (hsubset hv)

mutual

/-- **`_json_safe` makes values that can be printed** where they are nested no deeper than
Python goes. -/
theorem printable_jsonSafe {depth : Nat} (value : LogValue) (hdepth : value.nesting ≤ depth)
    (h : Prints fmt (scalars (jsonSafe value))) : Printable fmt depth (jsonSafe value) := by
  cases value with
  | decimal text => exact .str text
  | enum text => exact .str text
  | null => exact .null
  | bool b => exact .bool b
  | str s => exact .str s
  | other text => exact .str text
  | int n =>
    have hlong := (h (.int n) List.mem_cons_self).1
    exact .int (not_lt.mp (of_decide_eq_false hlong))
  | float x =>
    have hfloat := (h (.float x) List.mem_cons_self).2 x rfl
    cases x with
    | finite q => exact .finite hfloat
    | negZero => exact .negZero hfloat
    | infinite negative => exact .infinite negative
    | nan => exact .nan
  | mapping entries =>
    rw [LogValue.nesting] at hdepth
    obtain ⟨d, rfl⟩ := Nat.exists_eq_add_of_le' (Nat.le_of_add_left_le hdepth)
    refine .obj (nodup_keys_dictOf _) fun k v hv => ?_
    refine printable_jsonSafeEntries entries (Nat.le_of_succ_le_succ hdepth)
      (mem_of_mem_dictOf hv) (h.subset ?_)
    exact scalars_subset_fields hv
  | sequence items =>
    rw [LogValue.nesting] at hdepth
    obtain ⟨d, rfl⟩ := Nat.exists_eq_add_of_le' (Nat.le_of_add_left_le hdepth)
    refine .arr fun v hv => ?_
    refine printable_jsonSafeItems items (Nat.le_of_succ_le_succ hdepth) hv (h.subset ?_)
    exact scalars_subset_items hv

theorem printable_jsonSafeEntries {depth : Nat} (entries : List (String × LogValue))
    (hdepth : nestingEntries entries ≤ depth) {k : String} {v : Json}
    (hv : (k, v) ∈ jsonSafeEntries entries) (h : Prints fmt (scalars v)) :
    Printable fmt depth v := by
  cases entries with
  | nil => cases hv
  | cons entry entries =>
    obtain ⟨key, value⟩ := entry
    rw [nestingEntries] at hdepth
    rw [jsonSafeEntries] at hv
    rcases List.mem_cons.mp hv with heq | hrest
    · obtain ⟨rfl, rfl⟩ := Prod.mk.inj heq
      exact printable_jsonSafe value (le_trans (le_max_left _ _) hdepth) h
    · exact printable_jsonSafeEntries entries (le_trans (le_max_right _ _) hdepth) hrest h

theorem printable_jsonSafeItems {depth : Nat} (items : List LogValue)
    (hdepth : nestingItems items ≤ depth) {v : Json} (hv : v ∈ jsonSafeItems items)
    (h : Prints fmt (scalars v)) : Printable fmt depth v := by
  cases items with
  | nil => cases hv
  | cons item items =>
    rw [nestingItems] at hdepth
    rw [jsonSafeItems] at hv
    rcases List.mem_cons.mp hv with rfl | hrest
    · exact printable_jsonSafe item (le_trans (le_max_left _ _) hdepth) h
    · exact printable_jsonSafeItems items (le_trans (le_max_right _ _) hdepth) hrest h

end

/-- A record of which nothing raises has a payload that is printed and read back. -/
theorem printable_productionPayload {depth : Nat} {record : LogRecord}
    (h : record.printError depth = none)
    (hfloats : ∀ x, .float x ∈ scalars (.obj (payloadFor record)) → ReadsFloat fmt x) :
    Printable fmt depth (.obj (productionPayload record)) := by
  unfold LogRecord.printError at h
  split_ifs at h with hdeep hlong hunpaired
  obtain ⟨d, rfl⟩ := Nat.exists_eq_add_of_le' (Nat.le_of_add_left_le (not_lt.mp hdeep))
  have hprints : Prints fmt (scalars (.obj (payloadFor record))) := by
    intro v hv
    constructor
    · have hnone := List.any_eq_false.mp (Bool.eq_false_of_not_eq_true hlong) v hv
      exact Bool.eq_false_of_not_eq_true hnone
    · rintro x rfl
      exact hfloats x hv
  have hpayload (k : String) (v : Json) (hv : (k, v) ∈ payloadFor record) : Printable fmt d v :=
    printable_jsonSafeEntries record.entries (Nat.le_of_succ_le_succ (not_lt.mp hdeep))
      (mem_of_mem_dictOf hv) (hprints.subset (scalars_subset_fields hv))
  refine .obj (nodup_keys_productionPayload record) fun k v hv => ?_
  unfold productionPayload at hv
  split at hv
  · rcases Dict.mem_of_mem_set hv with heq | hold
    · obtain ⟨rfl, rfl⟩ := Prod.mk.inj heq
      exact .str _
    · exact hpayload k v hold
  · exact hpayload k v hv

end Printing

section Runs

variable {text : LogText} {rootLevel : Nat}

/-- A record in production is one line, and the line reads as the payload. -/
theorem formatJson_line {fmt : FloatText} {depth : Nat} {record : LogRecord}
    (hprint : Printable fmt depth (.obj (productionPayload record))) :
    '\n' ∉ (formatJson fmt record).toList ∧
      loads fmt depth (formatJson fmt record) =
        .ok (sortTree (.obj (productionPayload record))) := by
  constructor
  · intro hm
    have hshows := (dumps_shows hprint productionStyle '\n' hm).1
    exact absurd hshows (by decide)
  · exact loads_dumps hprint productionStyle

/-- The lines of the records that can be printed. -/
def logLines (text : LogText) (records : List LogRecord) : List String :=
  (printed text.depth records).map (formatJson text.fmt)

/-- The text on standard output that has these lines. -/
def logText (text : LogText) (records : List LogRecord) : String :=
  String.join ((logLines text records).map (· ++ "\n"))

theorem emitRecord_one {level id : Nat} {record : LogRecord} (h : level ≤ record.level) :
    emitRecord text record [⟨id, .production, level⟩] = logText text [record] := by
  unfold emitRecord formatRecord logText logLines printed
  rw [if_pos h]
  cases herror : record.printError text.depth with
  | none => simp [herror, emitRecord]
  | some error => cases error <;> simp [herror, emitRecord]

theorem logText_cons (record : LogRecord) (records : List LogRecord) :
    logText text (record :: records) = logText text [record] ++ logText text records := by
  have hlines : logLines text (record :: records) =
      logLines text [record] ++ logLines text records := by
    have hcons : record :: records = [record] ++ records := rfl
    rw [logLines, printed, hcons, List.filter_append, List.map_append]
    rfl
  rw [logText, hlines, List.map_append, String.join_append]
  rfl

/-- A level in force is met by the handler too. -/
theorem le_of_effectiveLevel {level n : Nat} (h : effectiveLevel rootLevel level ≤ n) : level ≤ n := by
  unfold effectiveLevel at h
  split at h <;> omega

/-- **One step**: it keeps the handler, and writes what is to be written. -/
theorem logStep_configure (text : LogText) (rootLevel : Nat) {environment : Environment}
    {logLevel : Option String} {threshold : Option Nat} {s : LoggerState} (henv : environment = .production)
    (hs : Configured threshold s) :
    Configured ((requestedLevel environment logLevel).or threshold)
        (logStep text rootLevel s (.configure environment logLevel)) ∧
      (logStep text rootLevel s (.configure environment logLevel)).output = s.output := by
  subst henv
  show Configured _ ((configureLogging .production logLevel s).getD s) ∧
    ((configureLogging .production logLevel s).getD s).output = s.output
  unfold configureLogging
  cases hlevel : requestedLevel .production logLevel with
  | none => exact ⟨hs, rfl⟩
  | some level => exact ⟨⟨rfl, ⟨s.nextHandler, rfl⟩, rfl⟩, rfl⟩

theorem logRecord_configured (text : LogText) (rootLevel : Nat) (record : LogRecord)
    {threshold : Option Nat} {s : LoggerState} (hs : Configured threshold s) :
    Configured threshold (logRecord text rootLevel record s) := by
  unfold logRecord
  split
  · cases threshold with
    | none => exact hs
    | some level => exact ⟨hs.level_eq, hs.handlers_eq, hs.propagate_eq⟩
  · exact hs

/-- **The run**: besides what was there, the lines of the records to be written. -/
theorem foldl_logStep {calls : List LogCall} (hproduction : InProduction calls)
    {threshold : Option Nat} {s : LoggerState} (hs : Configured threshold s) :
    (calls.foldl (logStep text rootLevel) s).output =
      s.output ++ logText text (written rootLevel threshold calls) := by
  induction calls generalizing threshold s with
  | nil => simp [written, logText, logLines, printed]
  | cons call calls ih =>
    have hrest : InProduction calls := fun environment logLevel hm =>
      hproduction environment logLevel (List.mem_cons_of_mem _ hm)
    cases call with
    | configure environment logLevel =>
      obtain ⟨hconfigured, houtput⟩ := logStep_configure text rootLevel
        (hproduction environment logLevel List.mem_cons_self) hs
      rw [List.foldl_cons, ih hrest hconfigured, houtput, written]
    | log record =>
      have hconfigured := logRecord_configured text rootLevel record hs
      rw [List.foldl_cons]
      refine (ih hrest hconfigured).trans ?_
      -- before the first configuration there is no handler
      cases threshold with
      | none =>
        have hempty : (logRecord text rootLevel record s).output = s.output := by
          unfold logRecord
          split
          · have hhandlers : s.handlers = [] := hs
            simp [hhandlers, emitRecord]
          · rfl
        rw [hempty, written]
      | some level =>
        obtain ⟨id, hhandlers⟩ := hs.handlers_eq
        rw [logRecord, written, hs.level_eq]
        by_cases hlevel : effectiveLevel rootLevel level ≤ record.level
        · rw [if_pos hlevel, if_pos hlevel, logText_cons, hhandlers,
            emitRecord_one (le_of_effectiveLevel hlevel), String.append_assoc]
        · rw [if_neg hlevel, if_neg hlevel]

/-- Only what was logged is written. -/
theorem mem_of_mem_written {calls : List LogCall} {threshold : Option Nat} {record : LogRecord}
    (h : record ∈ written rootLevel threshold calls) : .log record ∈ calls := by
  induction calls generalizing threshold with
  | nil => cases threshold <;> cases h
  | cons call calls ih =>
    cases call with
    | configure environment logLevel =>
      rw [written] at h
      exact List.mem_cons_of_mem _ (ih h)
    | log logged =>
      cases threshold with
      | none => exact List.mem_cons_of_mem _ (ih h)
      | some level =>
        rw [written] at h
        split at h
        · rcases List.mem_cons.mp h with rfl | h
          · exact List.mem_cons_self
          · exact List.mem_cons_of_mem _ (ih h)
        · exact List.mem_cons_of_mem _ (ih h)

/-- **The production log reads back.**  However often the logger was configured and
whatever was logged, control characters, tracebacks and all: standard output, split at its
line feeds, is one JSON text for each record at or above the level in force that can be
printed at all, in order, and each reads as the payload of its record with the keys in
order; behind the last line feed there is nothing. -/
theorem production_log_reads_back (text : LogText) (rootLevel : Nat) (calls : List LogCall)
    (hproduction : InProduction calls) (hfloats : FloatsRead text.fmt calls) :
    (endedLines (logRun text rootLevel calls).output).map
        (fun lines => lines.map (loads text.fmt text.depth)) =
      some ((printed text.depth (written rootLevel none calls)).map fun record =>
        .ok (sortTree (.obj (productionPayload record)))) := by
  have hstart : Configured none {} := rfl
  have hrun : (logRun text rootLevel calls).output = logText text (written rootLevel none calls) := by
    rw [logRun, foldl_logStep hproduction hstart]
    exact String.empty_append
  have hprintable (record : LogRecord)
      (hr : record ∈ printed text.depth (written rootLevel none calls)) :
      Printable text.fmt text.depth (.obj (productionPayload record)) := by
    obtain ⟨hwritten, hprinted⟩ := List.mem_filter.mp hr
    exact printable_productionPayload (of_decide_eq_true hprinted)
      (hfloats record (mem_of_mem_written hwritten))
  have hlines : endedLines (logText text (written rootLevel none calls)) =
      some (logLines text (written rootLevel none calls)) := by
    refine endedLines_join fun line hline => ?_
    obtain ⟨record, hr, rfl⟩ := List.mem_map.mp hline
    exact (formatJson_line (hprintable record hr)).1
  rw [hrun, hlines, Option.map_some, logLines, List.map_map]
  exact congrArg some (List.map_congr_left fun record hr => (formatJson_line (hprintable record hr)).2)

end Runs

/-! ## A log with a traceback in it -/

/-- The texts of whole floats; no event of the run below holds anything else. -/
def plainText : LogText := ⟨wholeFloats, fun _ => "", 1⟩

/-- A failed request, with a line feed in its path and a traceback. -/
def failedRecord : LogRecord where
  level := 40
  levelName := "ERROR"
  message := "request.failed"
  eventPayload := some (eventPayload (some "r\n1") "request.failed"
    [("code", .str "internal_error"), ("statusCode", .int 500), ("durationMs", .float (.finite 12))])
  exception := some "Traceback\n\tValueError: \"x\""

/-- A record with a list, where no list can be printed. -/
def deepRecord : LogRecord where
  level := 50
  levelName := "CRITICAL"
  message := "schema.postcheck"
  eventPayload := some [("addendValues", .sequence [])]

/-- The logger is configured twice, with a level that does not exist in between. -/
def reconfiguredCalls : List LogCall :=
  [.log failedRecord, .configure .production none, .configure .production (some "loud"),
    .log failedRecord, .log { failedRecord with unpaired := true }, .log deepRecord,
    .configure .production (some "critical"), .log failedRecord]

theorem floatsRead_reconfigured : FloatsRead wholeFloats reconfiguredCalls := by
  intro record hm x hx
  have hscalars : scalars (.obj (payloadFor record)) ⊆
      [.str "request.failed", .str "r\n1", .str "internal_error", .int 500, .float (.finite 12)] := by
    simp only [reconfiguredCalls, List.mem_cons, List.not_mem_nil, or_false, reduceCtorEq,
      LogCall.log.injEq, false_or] at hm
    rcases hm with rfl | rfl | rfl | rfl | rfl <;> decide +kernel
  have hfloat := hscalars hx
  simp only [List.mem_cons, List.not_mem_nil, or_false, reduceCtorEq, Json.float.injEq,
    false_or] at hfloat
  rw [hfloat]
  exact wholeFloats_prints 12

/-- One of five records is written. -/
theorem reconfigured_log_reads_back :
    (endedLines (logRun plainText 30 reconfiguredCalls).output).map
        (fun lines => lines.map (loads wholeFloats 1)) =
      some [.ok (sortTree (.obj (productionPayload failedRecord)))] := by
  refine (production_log_reads_back plainText 30 reconfiguredCalls ?_ floatsRead_reconfigured).trans ?_
  · intro environment logLevel hm
    simp only [reconfiguredCalls, List.mem_cons, List.not_mem_nil, or_false, reduceCtorEq,
      LogCall.configure.injEq, false_or] at hm
    rcases hm with h | h | h <;> exact h.1
  · rfl

end InternumCore
