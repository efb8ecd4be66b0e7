import Mathlib.Data.List.Basic
import Mathlib.Data.Rat.Defs

/-!
# The read-only endpoint (`api.php`)

* `Request` — `$_GET`, a query string of texts.
* `Php` — what PHP makes of a text that is to be a number.
* `Table`, `QuestDB` — `sensor_readings`, and what QuestDB makes of it. A query
  is the list of its conditions, which are joined by AND, and its LIMIT.
* `api` — the endpoint: a `Response`, or the failure it reports instead.

The summary and the detail of a failure are left out: nobody reads them but the
person in front of the page.
-/

namespace Aitsm.Visualization

/-- A string of PHP, as its characters. -/
abbrev Text : Type := List Char

/-- `$_GET`. -/
abbrev Request : Type := String → Option Text

/-- The conversions of a text to a number. -/
structure Php where
  /-- `(int) $value` -/
  intval : Text → ℤ
  /-- `is_numeric($value)` -/
  isNumeric : Text → Bool
  /-- `(float) $value`, put into a string again -/
  floatText : Text → Text

/-- A row of `sensor_readings`. The time is in microseconds since the epoch; the
values are what the JSON carries, and may be NULL. -/
structure Row where
  timestamp : ℕ
  deviceId : Text
  temperature : Option ℚ
  battery : Option ℚ
  deriving DecidableEq

/-- What QuestDB makes of texts. -/
structure QuestDB where
  /-- how a time stands in an answer -/
  format : ℕ → Text
  /-- what a condition says about a row; `none` when QuestDB refuses it -/
  evaluate : Text → Option (Row → Bool)

/-- The table, in the order in which QuestDB returns it under ORDER BY timestamp
DESC: it falls in the time, and rows of the same time stand in a fixed order. -/
structure Table where
  rows : List Row
  falls : rows.Pairwise fun a b => b.timestamp ≤ a.timestamp
  /-- DEDUP UPSERT KEYS(timestamp, device_id) -/
  keyed : rows.Pairwise fun a b => (a.timestamp, a.deviceId) ≠ (b.timestamp, b.deviceId)

namespace QuestDB

variable (db : QuestDB)

/-- The WHERE clause of a query. -/
def holds (conditions : List Text) : Option (Row → Bool) :=
  (conditions.mapM db.evaluate).map fun ps r => ps.all (· r)

/-- `SELECT count() … WHERE …`. -/
def count (table : Table) (conditions : List Text) : Option ℕ :=
  (db.holds conditions).map fun p => (table.rows.filter p).length

/-- `SELECT … WHERE … ORDER BY timestamp DESC LIMIT …`. -/
def select (table : Table) (conditions : List Text) (limit : ℕ) : Option (List Row) :=
  (db.holds conditions).map fun p => (table.rows.filter p).take limit

end QuestDB

/-! ## The request -/

/-- What the endpoint reports instead of readings. -/
inductive Failure where
  /-- HTTP 400 -/
  | reject (message : Text)
  /-- HTTP 502, "Kunne ikke hente sensordata fra QuestDB." -/
  | unavailable
  deriving DecidableEq

/-- `isset($_GET[$name]) && $_GET[$name] !== ''`. -/
def Request.given (get : Request) (name : String) : Option Text :=
  match get name with
  | some [] => none
  | value => value

/-- A pattern `/^[…]+$/`; a line feed may follow. -/
def matchesAll (allowed : Char → Bool) (value : Text) : Bool :=
  let line := if value.getLast? = some '\n' then value.dropLast else value
  line ≠ [] && line.all allowed

/-- `[0-9T:\-.+Z ]`. -/
def isTimeChar (c : Char) : Bool := c.isDigit || "T:-.+Z ".toList.contains c

/-- `[A-Za-z0-9._:-]`. -/
def isDeviceChar (c : Char) : Bool := c.isAlphanum || "._:-".toList.contains c

/-- What passes for an ISO 8601 time, in `cursor`, `from` and `to`. -/
def isTimestamp (value : Text) : Bool := value.length ≤ 40 && matchesAll isTimeChar value

/-- `validateTimestamp`. -/
def validateTimestamp (value : Text) (parameter : String) : Except Failure Text :=
  if isTimestamp value then .ok value else .error (.reject s!"Ugyldig {parameter}.".toList)

/-- `validateNumber`, with what the query shows of the number. -/
def validateNumber (php : Php) (get : Request) (parameter : String) :
    Except Failure (Option Text) :=
  match get.given parameter with
  | none => .ok none
  | some value =>
    if php.isNumeric value then .ok (some (php.floatText value))
    else .error (.reject s!"Ugyldig {parameter} (forventet tal).".toList)

/-- The sizes a page may have. -/
def allowedPageSizes : List ℤ := [10, 25, 50, 100]

/-- `$pageSize`. -/
def pageSize (php : Php) (get : Request) : ℕ :=
  let requested := php.intval (((get "page_size").orElse fun _ => get "limit").getD "50".toList)
  if requested ∈ allowedPageSizes then requested.toNat else 50

/-- `$cursor`. -/
def cursor (get : Request) : Except Failure (Option Text) :=
  match get.given "cursor" with
  | none => .ok none
  | some value => (validateTimestamp value "cursor").map some

/-- A number of decimal digits. -/
def digits (value : Text) : ℕ := value.foldl (fun n c => n * 10 + (c.toNat - '0'.toNat)) 0

/-- A number in at least `width` digits. -/
def padded (width n : ℕ) : Text :=
  let text := (toString n).toList
  List.replicate (width - text.length) '0' ++ text

/-- The days of a month. -/
def daysInMonth (year month : ℕ) : ℕ :=
  if month = 2 then
    if year % 4 = 0 ∧ (year % 100 ≠ 0 ∨ year % 400 = 0) then 29 else 28
  else if month ∈ [4, 6, 9, 11] then 30
  else 31

/-- `checkdate`, for a year of four digits. -/
def checkdate (month day year : ℕ) : Bool :=
  1 ≤ year && 1 ≤ month && month ≤ 12 && 1 ≤ day && day ≤ daysInMonth year month

/-- Midnight, as `Y-m-d\TH:i:s.v\Z`. -/
def midnight (year month day : ℕ) : Text :=
  padded 4 year ++ '-' :: padded 2 month ++ '-' :: padded 2 day ++ "T00:00:00.000Z".toList

/-- Midnight of the day after. -/
def nextMidnight (year month day : ℕ) : Text :=
  if day < daysInMonth year month then midnight year month (day + 1)
  else if month < 12 then midnight year (month + 1) 1
  else midnight (year + 1) 1 1

/-- `/^\d{4}-\d{2}-\d{2}$/` and `checkdate`: the year, the month and the day. -/
def parseDate (value : Text) : Option (ℕ × ℕ × ℕ) :=
  let line := if value.getLast? = some '\n' then value.dropLast else value
  match line with
  | [y1, y2, y3, y4, '-', m1, m2, '-', d1, d2] =>
    let (year, month, day) := (digits [y1, y2, y3, y4], digits [m1, m2], digits [d1, d2])
    if [y1, y2, y3, y4, m1, m2, d1, d2].all Char.isDigit ∧ checkdate month day year then
      some (year, month, day)
    else none
  | _ => none

/-- `$from` and `$to`. -/
def period (get : Request) : Except Failure (Option Text × Option Text) := do
  match get.given "date" with
  | some value =>
    match parseDate value with
    | none => throw (.reject "Ugyldig date (forventet YYYY-MM-DD).".toList)
    | some (year, month, day) =>
      if (get "from").isSome ∨ (get "to").isSome then
        throw (.reject "Brug enten date eller from/to, ikke begge.".toList)
      return (some (midnight year month day), some (nextMidnight year month day))
  | none =>
    let fromTime ← match get.given "from" with
      | none => pure none
      | some value => (validateTimestamp value "from").map some
    let toTime ← match get.given "to" with
      | none => pure none
      | some value => (validateTimestamp value "to").map some
    return (fromTime, toTime)

/-- `$deviceId`. -/
def device (get : Request) : Except Failure (Option Text) :=
  match get.given "device_id" with
  | none => .ok none
  | some value =>
    if value.length ≤ 64 ∧ matchesAll isDeviceChar value then .ok (some value)
    else .error (.reject "Ugyldig device_id.".toList)

/-- `"timestamp < '{$value}'"`. -/
def before (value : Text) : Text := "timestamp < '".toList ++ value ++ "'".toList

/-- `$conditions`, from the filters of a request. -/
def filters (php : Php) (get : Request) : Except Failure (List Text) := do
  let (fromTime, toTime) ← period get
  let deviceId ← device get
  let temperatureMin ← validateNumber php get "temperature_min"
  let temperatureMax ← validateNumber php get "temperature_max"
  let batteryMin ← validateNumber php get "battery_min"
  let batteryMax ← validateNumber php get "battery_max"
  return List.flatten [
    (fromTime.map fun v => "timestamp >= '".toList ++ v ++ "'".toList).toList,
    (toTime.map before).toList,
    (deviceId.map fun v => "device_id = '".toList ++ v ++ "'".toList).toList,
    (temperatureMin.map fun v => "temperature >= ".toList ++ v).toList,
    (temperatureMax.map fun v => "temperature <= ".toList ++ v).toList,
    (batteryMin.map fun v => "battery >= ".toList ++ v).toList,
    (batteryMax.map fun v => "battery <= ".toList ++ v).toList]

/-! ## The answer -/

/-- A row, as the JSON shows it. -/
structure Reading where
  deviceId : Text
  timestamp : Text
  temperature : Option ℚ
  battery : Option ℚ
  deriving DecidableEq

/-- The JSON of a successful request. -/
structure Response where
  pageSize : ℕ
  total : ℕ
  hasMore : Bool
  nextCursor : Option Text
  readings : List Reading
  deriving DecidableEq

/-- A row of the answer of QuestDB. -/
def reading (db : QuestDB) (r : Row) : Reading :=
  { deviceId := r.deviceId, timestamp := db.format r.timestamp, temperature := r.temperature,
    battery := r.battery }

/-- The answer, from the rows that were selected; one more than the page holds
tells that there is another page. -/
def respond (db : QuestDB) (pageSize total : ℕ) (selected : List Row) : Response :=
  let hasMore := decide (pageSize < selected.length)
  let readings := selected.map (reading db)
  let readings := if hasMore then readings.take pageSize else readings
  { pageSize := pageSize
    total := total
    hasMore := hasMore
    nextCursor := if hasMore then readings.getLast?.map Reading.timestamp else none
    readings := readings }

/-- A query of the endpoint; when it fails, so does the request. -/
def query {α : Type} (answer : Option α) : Except Failure α :=
  match answer with
  | none => .error .unavailable
  | some a => .ok a

/-- `api.php`. -/
def api (php : Php) (db : QuestDB) (table : Table) (get : Request) : Except Failure Response := do
  let cursor ← cursor get
  let conditions ← filters php get
  let total ← query (db.count table conditions)
  let selected ← query (db.select table (conditions ++ (cursor.map before).toList)
    (pageSize php get + 1))
  return respond db (pageSize php get) total selected

end Aitsm.Visualization
