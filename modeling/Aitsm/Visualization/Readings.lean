import Aitsm.Library.System
import Aitsm.Visualization.Paging

/-!
# The displayed page (`useReadings`)

* `fetchReadings` — the request of the dashboard, and what `api.php` makes of it.
* `Hook` — the state of the hook: what is displayed, the list of cursors, the
  `current` page, and the loads that are in flight.
* `useReadings` — the hook as a system. Loads start at any moment and complete in
  any order; a step reports the filters the user applies.

A load takes its page, its cursor and its filters when it starts, but labels the
rows and keeps the cursor when it completes, with whatever is current then. When
these differ the page does not match its labels (`late_answer_mislabelled`). As
long as every load still fits what it completes into (`Timely`), it does
(`display_matches`).
-/

namespace Aitsm.Visualization

open Library Library.Keyset

/-! ## `fetchReadings` -/

/-- `ReadingsFilters`, with the numbers as `String` shows them. -/
structure ReadingsFilters where
  date : Option Text := none
  deviceId : Option Text := none
  temperatureMin : Option Text := none
  temperatureMax : Option Text := none
  batteryMin : Option Text := none
  batteryMax : Option Text := none
  deriving DecidableEq

/-- The query string of `fetchReadings`. -/
def request (pageSize : ℕ) (cursor : Option Text) (filters : ReadingsFilters) : Request :=
  fun name =>
    if name = "page_size" then some (toString pageSize).toList
    else if name = "cursor" then cursor
    else if name = "date" then filters.date.filter (· ≠ [])
    else if name = "device_id" then filters.deviceId.filter (· ≠ [])
    else if name = "temperature_min" then filters.temperatureMin
    else if name = "temperature_max" then filters.temperatureMax
    else if name = "battery_min" then filters.batteryMin
    else if name = "battery_max" then filters.batteryMax
    else none

/-- `fetchReadings`; `none` when it throws. -/
def fetchReadings (php : Php) (db : QuestDB) (table : Table) (pageSize : ℕ) (cursor : Option Text)
    (filters : ReadingsFilters) : Option Response :=
  match api php db table (request pageSize cursor filters) with
  | .error _ => none
  | .ok data => some data

/-! ## The hook -/

inductive ConnectionStatus where
  | pending | online | offline
  deriving DecidableEq

/-- `ReadingsState`. -/
structure ReadingsState where
  readings : List Reading := []
  total : ℕ := 0
  hasMore : Bool := false
  pageSize : ℕ := 50
  pageIndex : ℕ := 0
  filters : ReadingsFilters := {}
  status : ConnectionStatus := .pending
  loading : Bool := true
  deriving DecidableEq

/-- `current`. -/
structure Current where
  pageIndex : ℕ := 0
  pageSize : ℕ := 50
  filters : ReadingsFilters := {}
  deriving DecidableEq

/-- What a load has read when it awaits its answer. -/
structure Load where
  pageIndex : ℕ
  pageSize : ℕ
  cursor : Option Text
  filters : ReadingsFilters
  deriving DecidableEq

/-- The hook. An element of `cursors` that was never written is `none`, as one
that is null: both are read with `?? null`. -/
structure Hook where
  state : ReadingsState := {}
  cursors : List (Option Text) := [none]
  current : Current := {}
  inFlight : List Load := []
  deriving DecidableEq

/-- `xs[i] = v`, which may leave holes. -/
def assign (xs : List (Option Text)) (i : ℕ) (v : Option Text) : List (Option Text) :=
  if i < xs.length then xs.set i v else xs ++ List.replicate (i - xs.length) none ++ [v]

/-- `xs.length = n`, which may leave holes. -/
def setLength (xs : List (Option Text)) (n : ℕ) : List (Option Text) :=
  xs.take n ++ List.replicate (n - xs.length) none

namespace Hook

/-- `load`, up to its `await`. -/
def load (h : Hook) (requestedIndex : ℤ) (requestedPageSize : Option ℕ) : Hook :=
  let pageSize := requestedPageSize.getD h.current.pageSize
  let pageIndex := requestedIndex.toNat
  let cursor := h.cursors.getD pageIndex none
  { h with
    state := { h.state with loading := true }
    inFlight := h.inFlight ++
      [{ pageIndex := pageIndex, pageSize := pageSize, cursor := cursor,
         filters := h.current.filters }] }

/-- The rest of `load`, with an answer. -/
def arrive (h : Hook) (l : Load) (data : Response) : Hook :=
  { h with
    current :=
      { pageIndex := l.pageIndex, pageSize := data.pageSize, filters := h.current.filters }
    cursors :=
      match data.hasMore, data.nextCursor with
      | true, some (c :: value) => assign h.cursors (l.pageIndex + 1) (some (c :: value))
      | _, _ => setLength h.cursors (l.pageIndex + 1)
    state :=
      { readings := data.readings, total := data.total, hasMore := data.hasMore,
        pageSize := data.pageSize, pageIndex := l.pageIndex, filters := h.current.filters,
        status := .online, loading := false } }

/-- The rest of `load`, when it throws. -/
def fail (h : Hook) : Hook :=
  { h with state := { h.state with readings := [], status := .offline, loading := false } }

def goToPage (h : Hook) (index : ℤ) : Hook := h.load index none

def changePageSize (h : Hook) (pageSize : ℕ) : Hook :=
  { h with cursors := [none] }.load 0 (some pageSize)

def applyFilters (h : Hook) (filters : ReadingsFilters) : Hook :=
  { h with current := { h.current with filters := filters }, cursors := [none] }.load 0 none

def refresh (h : Hook) : Hook := h.load h.current.pageIndex none

end Hook

inductive Action where
  /-- the effect of the component, when it is mounted -/
  | mount
  /-- its timer -/
  | tick
  | goToPage (index : ℤ)
  | changePageSize (pageSize : ℕ)
  | applyFilters (filters : ReadingsFilters)
  | refresh
  /-- a load in flight completes; `delivered` tells whether its answer arrived -/
  | complete (k : ℕ) (delivered : Bool)
  deriving DecidableEq

section System

variable (php : Php) (db : QuestDB) (table : Table)

/-- What a load has asked for. -/
def Load.answer (l : Load) : Option Response :=
  fetchReadings php db table l.pageSize l.cursor l.filters

/-- One step of the hook. -/
def hookStep (h : Hook) : Action → Option (Hook × List ReadingsFilters)
  | .mount => some (h.load 0 none, [])
  | .tick => some (h.load h.current.pageIndex none, [])
  | .goToPage index => some (h.goToPage index, [])
  | .changePageSize pageSize => some (h.changePageSize pageSize, [])
  | .applyFilters filters => some (h.applyFilters filters, [filters])
  | .refresh => some (h.refresh, [])
  | .complete k delivered =>
    match h.inFlight[k]? with
    | none => none
    | some l =>
      let waiting := { h with inFlight := h.inFlight.eraseIdx k }
      match if delivered then l.answer php db table else none with
      | some data => some (waiting.arrive l data, [])
      | none => some (waiting.fail, [])

/-- `useReadings`, with the filters the user applies as its events. -/
def useReadings : System Hook Action ReadingsFilters where
  start := {}
  step := hookStep php db table

/-- The filters last applied by the user. -/
def lastApplied (τ : List ReadingsFilters) : ReadingsFilters := τ.getLast?.getD {}

/-- The rows that filters leave; `none` when the endpoint does not accept them. -/
def matching (f : ReadingsFilters) : Option (List Row) :=
  match filters php (request 50 none f) with
  | .error _ => none
  | .ok conditions => (db.holds conditions).map (table.rows.filter ·)

/-- What is displayed is the page that it says it is. -/
def Matches (s : ReadingsState) : Prop :=
  ∃ rows, matching php db table s.filters = some rows ∧
    s.readings = ((rows.drop (s.pageIndex * s.pageSize)).take s.pageSize).map (reading db)

/-- The cursor that starts a page: none for the first page, and for the others
the time of the last row before it. -/
def Starts (f : ReadingsFilters) (pageSize pageIndex : ℕ) (cursor : Option Text) : Prop :=
  (pageIndex = 0 ∧ cursor = none) ∨
    ∃ rows r, matching php db table f = some rows ∧ 0 < pageIndex ∧
      pageIndex * pageSize < rows.length ∧ rows[pageIndex * pageSize - 1]? = some r ∧
      cursor = some (db.format r.timestamp)

/-- A load that completes fits the state it completes into. Its page is one that
the list of cursors has; the size of its page is the current one, unless the load
is for the first page and no cursor of another size is kept. If it is the last
load in flight, or brings a cursor, it was asked for with the current filters and
a cursor of its page. -/
def fits (h : Hook) (l : Load) : Bool :=
  match l.answer php db table with
  | none => true
  | some data =>
    (h.inFlight.length ≠ 1 && !data.hasMore ||
      decide (l.filters = h.current.filters) && (l.pageIndex == 0 || l.cursor.isSome)) &&
    decide (l.pageIndex < h.cursors.length) &&
    (data.pageSize == h.current.pageSize ||
      l.pageIndex == 0 && (decide (h.cursors.length ≤ 2) || !data.hasMore))

/-- Every answer that arrives fits the state it arrives in. -/
def Timely (h : Hook) (_ : List ReadingsFilters) (a : Action) : Prop :=
  match a with
  | .complete k true => ∀ l ∈ h.inFlight[k]?, fits php db table h l
  | _ => True

end System

/-! ## What the endpoint makes of the request -/

section Page

variable {php : Php} {db : QuestDB} {table : Table}

theorem request_at (pageSize : ℕ) (cursor : Option Text) (f : ReadingsFilters) :
    request pageSize cursor f = (request pageSize none f).at cursor := by
  funext name
  by_cases hcursor : name = "cursor"
  · subst hcursor
    rfl
  · simp only [request, Request.at, hcursor, if_false]

theorem filters_request (pageSize : ℕ) (cursor : Option Text) (f : ReadingsFilters) :
    filters php (request pageSize cursor f) = filters php (request 50 none f) := rfl

theorem pageSize_request (pageSize : ℕ) (cursor : Option Text) (f : ReadingsFilters) :
    Visualization.pageSize php (request pageSize cursor f) =
      Visualization.pageSize php (request pageSize none f) := rfl

/-- An answer has the size that the endpoint made of the request, and filters
that it accepts. -/
theorem api_ok {get : Request} {data : Response} (h : api php db table get = .ok data) :
    data.pageSize = Visualization.pageSize php get ∧ ∃ p, Selects php db get p := by
  rw [api] at h
  rcases hcursor : cursor get with e | c
  · rw [hcursor] at h
    cases h
  rcases hfilters : filters php get with e | conditions
  · rw [hcursor, hfilters] at h
    cases h
  rw [hcursor, hfilters] at h
  rcases hholds : db.holds conditions with _ | p
  · simp [bind, Except.bind, QuestDB.count, hholds, query] at h
  rcases hselect : db.select table (conditions ++ (c.map before).toList)
    (Visualization.pageSize php get + 1) with _ | rows
  · simp [bind, Except.bind, QuestDB.count, hholds, query, hselect] at h
  simp only [bind, Except.bind, QuestDB.count, hholds, query, hselect, Option.map_some, pure,
    Except.pure, Except.ok.injEq] at h
  refine ⟨?_, p, conditions, hfilters, hholds⟩
  rw [← h]
  rfl

/-- The sizes a page may have stand for themselves. -/
theorem pageSize_of_allowed
    (hintval : ∀ n : ℕ, (n : ℤ) ∈ allowedPageSizes → php.intval (toString n).toList = n)
    {n : ℕ} (hn : (n : ℤ) ∈ allowedPageSizes) (cursor : Option Text) (f : ReadingsFilters) :
    Visualization.pageSize php (request n cursor f) = n := by
  have hread : php.intval (((request n cursor f "page_size").orElse fun _ =>
      request n cursor f "limit").getD "50".toList) = n := hintval n hn
  simp only [Visualization.pageSize, hread, hn, if_true, Int.toNat_natCast]

theorem pageSize_allowed (get : Request) :
    (Visualization.pageSize php get : ℤ) ∈ allowedPageSizes := by
  simp only [Visualization.pageSize]
  split
  · rename_i hallowed
    have hnonneg : ∀ n ∈ allowedPageSizes, (0 : ℤ) ≤ n := by decide
    rwa [Int.toNat_of_nonneg (hnonneg _ hallowed)]
  · decide

theorem matching_sublist {f : ReadingsFilters} {rows : List Row}
    (h : matching php db table f = some rows) : rows.Sublist table.rows := by
  rw [matching] at h
  split at h
  · cases h
  · obtain ⟨p, -, rfl⟩ := Option.map_eq_some_iff.mp h
    exact List.filter_sublist

/-- The first page is asked for without a cursor. -/
theorem Starts.zero_iff {f : ReadingsFilters} {n : ℕ} {c : Option Text} :
    Starts php db table f n 0 c ↔ c = none := by
  constructor
  · rintro (⟨-, hc⟩ | ⟨-, -, -, hpos, -⟩)
    · exact hc
    · exact absurd hpos (Nat.lt_irrefl 0)
  · exact fun hc => .inl ⟨rfl, hc⟩

theorem answer_ok {l : Load} {data : Response} (h : l.answer php db table = some data) :
    api php db table (request l.pageSize l.cursor l.filters) = .ok data := by
  rw [Load.answer, fetchReadings] at h
  split at h
  · cases h
  · rename_i heq
    rw [heq, Option.some.inj h]

/-- A load whose cursor starts its page is answered with that page. -/
theorem answer_page (hreads : Reads db table)
    (hdistinct : table.rows.Pairwise fun a b => a.timestamp ≠ b.timestamp) {l : Load}
    {data : Response} (h : l.answer php db table = some data)
    (hstarts : Starts php db table l.filters data.pageSize l.pageIndex l.cursor) :
    ∃ rows, matching php db table l.filters = some rows ∧
      data = respond db data.pageSize rows.length
        ((rows.drop (l.pageIndex * data.pageSize)).take (data.pageSize + 1)) := by
  have hok := answer_ok h
  obtain ⟨hsize, p, conditions, hfilters, hholds⟩ := api_ok hok
  have hrows : matching php db table l.filters = some (table.rows.filter p) := by
    rw [filters_request] at hfilters
    simp only [matching, hfilters, hholds, Option.map_some]
  have hsub : (table.rows.filter p).Sublist table.rows := List.filter_sublist
  have hselects : Selects php db (request l.pageSize none l.filters) p :=
    ⟨conditions, hfilters, hholds⟩
  rw [request_at] at hok
  rw [pageSize_request] at hsize
  refine ⟨_, hrows, ?_⟩
  rcases hstarts with ⟨hfirst, hcursor⟩ | ⟨rows, r, hmatching, hpos, hlen, hlast, hcursor⟩
  · -- the first page
    have hpage := api_at (c := none) hreads hselects (by simp)
    rw [hcursor] at hok
    rw [hfirst, Nat.zero_mul, List.drop_zero]
    exact Except.ok.inj (hok.symm.trans (hsize ▸ hpage))
  · obtain rfl := Option.some.inj (hrows.symm.trans hmatching)
    have hmem : r ∈ table.rows := hsub.subset (List.mem_of_getElem? hlast)
    have hpage := api_at (c := some r.timestamp) hreads hselects (by simpa using ⟨r, hmem, rfl⟩)
    have hn : 0 < data.pageSize := by
      rw [hsize]
      exact pageSize_pos _ _
    have hnext : (table.rows.filter p)[l.pageIndex * data.pageSize]?.map Row.timestamp ≠
        some r.timestamp := by
      have hpos := Nat.mul_pos hpos hn
      obtain ⟨hprev, rfl⟩ := List.getElem?_eq_some_iff.mp hlast
      rw [List.getElem?_eq_getElem hlen, Option.map_some]
      have hne := List.pairwise_iff_getElem.mp (hdistinct.sublist hsub)
        (l.pageIndex * data.pageSize - 1) (l.pageIndex * data.pageSize) hprev hlen (by omega)
      exact fun heq => hne (Option.some.inj heq).symm
    have hfalls : Falls Row.timestamp (table.rows.filter p) := table.falls.sublist hsub
    have hdrop := beyond_eq_drop hfalls (Nat.mul_pos hpos hn) hlast hnext
    rw [hcursor] at hok
    rw [hdrop, ← hsize] at hpage
    exact Except.ok.inj (hok.symm.trans hpage)

/-- The rows of an answer. -/
theorem respond_readings (n total : ℕ) (rest : List Row) :
    (respond db n total (rest.take (n + 1))).readings = (rest.take n).map (reading db) := by
  by_cases hlen : n < rest.length
  · rw [respond_full hlen]
  · rw [respond_last (by omega), List.take_of_length_le (by omega)]

/-! ## The list of cursors -/

theorem getElem?_assign {xs : List (Option Text)} {i : ℕ} {v : Option Text} (hi : i ≤ xs.length)
    (j : ℕ) : (assign xs i v)[j]? = if j = i then some v else xs[j]? := by
  rw [assign]
  split
  · rename_i hlt
    rw [List.getElem?_set]
    by_cases hj : i = j
    · subst hj
      simp [hlt]
    · simp [hj, Ne.symm hj]
  · rename_i hlt
    obtain rfl : i = xs.length := by omega
    rw [Nat.sub_self, List.replicate_zero, List.append_nil, List.getElem?_append]
    by_cases hj : j < xs.length
    · simp [hj, hj.ne]
    · by_cases heq : j = xs.length
      · simp [heq]
      · have : j - xs.length ≠ 0 := by omega
        simp [hj, heq, this]

theorem setLength_of_le {xs : List (Option Text)} {n : ℕ} (h : n ≤ xs.length) :
    setLength xs n = xs.take n := by
  rw [setLength, Nat.sub_eq_zero_of_le h, List.replicate_zero, List.append_nil]

variable (php db table) in
/-- A load whose page was known when it started has the cursor of that page. -/
def Load.Sound (l : Load) : Prop :=
  l.pageIndex = 0 ∨ l.cursor.isSome → Starts php db table l.filters
    (Visualization.pageSize php (request l.pageSize l.cursor l.filters)) l.pageIndex l.cursor

variable (php db table) in
/-- The cursors are those of the current filters and the current page size. -/
structure Sound (h : Hook) : Prop where
  nonempty : 0 < h.cursors.length
  cursors : ∀ i c, h.cursors[i]? = some c →
    Starts php db table h.current.filters h.current.pageSize i c
  size : (h.current.pageSize : ℤ) ∈ allowedPageSizes
  loads : ∀ l ∈ h.inFlight, l.Sound php db table

namespace Sound

variable {h : Hook}

theorem start : Sound php db table {} := by
  refine ⟨Nat.one_pos, fun i c hc => ?_, by decide, by simp⟩
  rcases i with _ | i
  · obtain rfl := Option.some.inj hc
    exact Starts.zero_iff.mpr rfl
  · cases hc

/-- A load may start at any moment. -/
theorem load
    (hintval : ∀ n : ℕ, (n : ℤ) ∈ allowedPageSizes → php.intval (toString n).toList = n)
    (hs : Sound php db table h) {index : ℤ} {pageSize : Option ℕ}
    (hfirst : pageSize = none ∨ index = 0) : Sound php db table (h.load index pageSize) := by
  refine ⟨hs.nonempty, hs.cursors, hs.size, fun l hl => ?_⟩
  rcases List.mem_append.mp hl with hl | hl
  · exact hs.loads l hl
  · rw [List.mem_singleton] at hl
    subst hl
    intro hknown
    dsimp only at hknown ⊢
    rw [List.getD_eq_getElem?_getD] at hknown ⊢
    rcases hi : index.toNat with _ | i
    · -- the first page
      rw [Starts.zero_iff, List.getElem?_eq_getElem hs.nonempty, Option.getD_some]
      exact Starts.zero_iff.mp (hs.cursors 0 _ (List.getElem?_eq_getElem hs.nonempty))
    · rw [hi] at hknown
      rcases hc : h.cursors[i + 1]? with _ | c
      · simp [hc] at hknown
      · obtain rfl : pageSize = none := by
          rcases hfirst with rfl | rfl
          · rfl
          · simp at hi
        rw [Option.getD_none, pageSize_of_allowed hintval hs.size, Option.getD_some]
        exact hs.cursors _ _ hc

/-- The list of cursors may start again, for any filters. -/
theorem reset (hs : Sound php db table h) (f : ReadingsFilters) :
    Sound php db table { h with current := { h.current with filters := f }, cursors := [none] } := by
  refine ⟨Nat.one_pos, fun i c hc => ?_, hs.size, hs.loads⟩
  rcases i with _ | i
  · obtain rfl := Option.some.inj hc
    exact Starts.zero_iff.mpr rfl
  · cases hc

/-- What the cursors up to the page of a load are worth for the size of its
answer. -/
theorem kept (hs : Sound php db table h) {i n : ℕ} (hsize : n = h.current.pageSize ∨ i = 0) :
    ∀ j ≤ i, ∀ c, h.cursors[j]? = some c → Starts php db table h.current.filters n j c := by
  intro j hj c hc
  have hstarts := hs.cursors j c hc
  rcases hsize with rfl | rfl
  · exact hstarts
  · obtain rfl := Nat.le_zero.mp hj
    exact Starts.zero_iff.mpr (Starts.zero_iff.mp hstarts)

/-- The last page cuts the list of cursors. -/
theorem arrive_last (hs : Sound php db table h) {l : Load} {data : Response}
    (hmore : data.hasMore = false) (hallowed : (data.pageSize : ℤ) ∈ allowedPageSizes)
    (hlt : l.pageIndex < h.cursors.length)
    (hsize : data.pageSize = h.current.pageSize ∨ l.pageIndex = 0) :
    Sound php db table (h.arrive l data) := by
  have hcursors : (h.arrive l data).cursors = h.cursors.take (l.pageIndex + 1) := by
    simp only [Hook.arrive, hmore]
    exact setLength_of_le hlt
  refine ⟨?_, ?_, hallowed, hs.loads⟩
  · rw [hcursors, List.length_take]
    omega
  · rw [hcursors]
    intro j c hc
    rw [List.getElem?_take] at hc
    split at hc
    · exact hs.kept hsize j (by omega) c hc
    · cases hc

/-- Any other page adds the cursor of the next one. -/
theorem arrive_more (hreads : Reads db table) (hs : Sound php db table h) {l : Load}
    {data : Response} {rows : List Row} (hallowed : (data.pageSize : ℤ) ∈ allowedPageSizes)
    (hrows : matching php db table h.current.filters = some rows)
    (hdata : data = respond db data.pageSize rows.length
      ((rows.drop (l.pageIndex * data.pageSize)).take (data.pageSize + 1)))
    (hmore : data.hasMore = true) (hlt : l.pageIndex < h.cursors.length)
    (hsize : data.pageSize = h.current.pageSize ∨
      l.pageIndex = 0 ∧ h.cursors.length ≤ 2) :
    Sound php db table (h.arrive l data) := by
  have hn : 0 < data.pageSize := by
    have hpos : ∀ n ∈ allowedPageSizes, (0 : ℤ) < n := by decide
    exact Int.natCast_pos.mp (hpos _ hallowed)
  have hlen : data.pageSize < (rows.drop (l.pageIndex * data.pageSize)).length := by
    by_contra hle
    rw [respond_last (by omega)] at hdata
    rw [hdata] at hmore
    cases hmore
  obtain ⟨r, hmem, hlast, hnext⟩ := nextCursor_take Row.timestamp hn hlen
  have hnextCursor : data.nextCursor = some (db.format r.timestamp) := by
    rw [respond_full hlen, hnext] at hdata
    rw [hdata, Option.map_some]
  have hrow : r ∈ table.rows :=
    (matching_sublist hrows).subset (List.mem_of_mem_drop hmem)
  have hcursors : (h.arrive l data).cursors =
      assign h.cursors (l.pageIndex + 1) (some (db.format r.timestamp)) := by
    have htext := hreads.isTimestamp r hrow
    rcases hformat : db.format r.timestamp with _ | ⟨c, value⟩
    · rw [hformat] at htext
      simp [isTimestamp, matchesAll] at htext
    · simp only [Hook.arrive, hmore, hnextCursor, hformat]
  have hget := fun j => getElem?_assign (v := some (db.format r.timestamp))
    (Nat.succ_le_of_lt hlt) j
  refine ⟨?_, fun j c hc => ?_, hallowed, hs.loads⟩
  · by_contra hempty
    have hnew := hget (l.pageIndex + 1)
    rw [← hcursors, List.getElem?_eq_none (by omega)] at hnew
    simp at hnew
  · change Starts php db table h.current.filters data.pageSize j c
    rw [hcursors, hget] at hc
    split at hc
    · -- the cursor that was written
      rename_i hj
      obtain rfl := Option.some.inj hc
      subst hj
      rw [List.length_drop] at hlen
      rw [List.getElem?_drop] at hlast
      refine .inr ⟨rows, r, hrows, Nat.succ_pos _, ?_, ?_, rfl⟩
      · rw [Nat.succ_mul]
        omega
      · rw [← hlast, Nat.succ_mul]
        congr 1
        omega
    · -- a cursor that was kept
      have hstarts := hs.cursors j c hc
      obtain ⟨hj, -⟩ := List.getElem?_eq_some_iff.mp hc
      rcases hsize with hsize | ⟨hfirst, htwo⟩
      · exact hsize ▸ hstarts
      · exact hs.kept (.inr hfirst) j (by omega) c hc

end Sound

/-! ## Runs -/

variable (php db table) in
/-- What every run under `Timely` keeps. -/
structure Kept (h : Hook) (τ : List ReadingsFilters) : Prop where
  sound : Sound php db table h
  applied : h.current.filters = lastApplied τ
  shown : h.inFlight = [] → h.state.status = .online →
    Matches php db table h.state ∧ h.state.filters = h.current.filters

theorem Hook.load_inFlight {h : Hook} {index : ℤ} {pageSize : Option ℕ} :
    (h.load index pageSize).inFlight ≠ [] := List.append_ne_nil_of_right_ne_nil _ (by simp)

namespace Kept

variable {h : Hook} {τ : List ReadingsFilters}

/-- While a load is in flight nothing is promised about the display. -/
theorem of_load
    (hintval : ∀ n : ℕ, (n : ℤ) ∈ allowedPageSizes → php.intval (toString n).toList = n)
    (hs : Sound php db table h) (happlied : h.current.filters = lastApplied τ) {index : ℤ}
    {pageSize : Option ℕ} (hfirst : pageSize = none ∨ index = 0) :
    Kept php db table (h.load index pageSize) τ :=
  ⟨hs.load hintval hfirst, happlied, fun hnone => absurd hnone Hook.load_inFlight⟩

/-- A load that fails leaves the cursors alone. -/
theorem fail (hk : Kept php db table h τ) (k : ℕ) :
    Kept php db table { h with inFlight := h.inFlight.eraseIdx k }.fail τ := by
  refine ⟨⟨hk.sound.nonempty, hk.sound.cursors, hk.sound.size, fun l hl => ?_⟩, hk.applied,
    fun _ honline => by cases honline⟩
  exact hk.sound.loads l (List.mem_of_mem_eraseIdx hl)

/-- An answer that fits what it arrives into. -/
theorem arrive (hreads : Reads db table)
    (hdistinct : table.rows.Pairwise fun a b => a.timestamp ≠ b.timestamp)
    (hk : Kept php db table h τ) {k : ℕ} {l : Load} (hl : h.inFlight[k]? = some l)
    {data : Response} (hanswer : l.answer php db table = some data)
    (hfits : fits php db table h l) :
    Kept php db table ({ h with inFlight := h.inFlight.eraseIdx k }.arrive l data) τ := by
  have hmem : l ∈ h.inFlight := List.mem_of_getElem? hl
  obtain ⟨hanswered, -⟩ := api_ok (answer_ok hanswer)
  have hallowed : (data.pageSize : ℤ) ∈ allowedPageSizes := by
    rw [hanswered]
    exact pageSize_allowed _
  have hsound : Sound php db table { h with inFlight := h.inFlight.eraseIdx k } :=
    ⟨hk.sound.nonempty, hk.sound.cursors, hk.sound.size,
      fun l hl => hk.sound.loads l (List.mem_of_mem_eraseIdx hl)⟩
  simp only [fits, hanswer, Bool.and_eq_true, Bool.or_eq_true, decide_eq_true_eq, beq_iff_eq,
    Bool.not_eq_true', ne_eq] at hfits
  obtain ⟨⟨hasked, hlt⟩, hsize⟩ := hfits
  -- what a load shows that was asked for with the current filters
  have hpage : l.filters = h.current.filters ∧ (l.pageIndex = 0 ∨ l.cursor.isSome) →
      ∃ rows, matching php db table h.current.filters = some rows ∧
        data = respond db data.pageSize rows.length
          ((rows.drop (l.pageIndex * data.pageSize)).take (data.pageSize + 1)) := by
    rintro ⟨hfilters, hknown⟩
    have hstarts := hk.sound.loads l hmem hknown
    rw [← hanswered] at hstarts
    obtain ⟨rows, hrows, hdata⟩ := answer_page hreads hdistinct hanswer hstarts
    exact ⟨rows, hfilters ▸ hrows, hdata⟩
  refine ⟨?_, hk.applied, fun hnone _ => ⟨?_, rfl⟩⟩
  · rcases hmore : data.hasMore with _ | _
    · exact hsound.arrive_last hmore hallowed hlt (hsize.imp_right And.left)
    · rw [hmore] at hasked hsize
      obtain ⟨rows, hrows, hdata⟩ := hpage (hasked.resolve_left fun h => by simp at h)
      exact hsound.arrive_more hreads hallowed hrows hdata hmore hlt
        (hsize.imp_right fun h => ⟨h.1, h.2.resolve_right (by simp)⟩)
  · have hlast : h.inFlight.length = 1 := by
      have hlength := congrArg List.length hnone
      obtain ⟨hk, -⟩ := List.getElem?_eq_some_iff.mp hl
      simp only [Hook.arrive, List.length_eraseIdx_of_lt hk, List.length_nil] at hlength
      omega
    obtain ⟨rows, hrows, hdata⟩ := hpage (hasked.resolve_left fun h => h.1 hlast)
    refine ⟨rows, hrows, ?_⟩
    change data.readings = ((rows.drop (l.pageIndex * data.pageSize)).take data.pageSize).map _
    rw [← respond_readings data.pageSize rows.length, ← hdata]

theorem step (hreads : Reads db table)
    (hdistinct : table.rows.Pairwise fun a b => a.timestamp ≠ b.timestamp)
    (hintval : ∀ n : ℕ, (n : ℤ) ∈ allowedPageSizes → php.intval (toString n).toList = n)
    (hk : Kept php db table h τ) {a : Action} (htimely : Timely php db table h τ a)
    {h' : Hook} {es : List ReadingsFilters} (hstep : hookStep php db table h a = some (h', es)) :
    Kept php db table h' (τ ++ es) := by
  cases a with
  | mount | tick | goToPage | refresh =>
    obtain ⟨rfl, rfl⟩ := Prod.mk.inj (Option.some.inj hstep)
    rw [List.append_nil]
    exact of_load hintval hk.sound hk.applied (.inl rfl)
  | changePageSize pageSize =>
    obtain ⟨rfl, rfl⟩ := Prod.mk.inj (Option.some.inj hstep)
    rw [List.append_nil]
    exact of_load hintval (hk.sound.reset h.current.filters) hk.applied (.inr rfl)
  | applyFilters f =>
    obtain ⟨rfl, rfl⟩ := Prod.mk.inj (Option.some.inj hstep)
    refine of_load hintval (hk.sound.reset f) ?_ (.inl rfl)
    rw [lastApplied, List.getLast?_concat, Option.getD_some]
  | complete k delivered =>
    rw [hookStep] at hstep
    rcases hl : h.inFlight[k]? with _ | l
    · rw [hl] at hstep
      cases hstep
    rw [hl] at hstep
    rcases hanswer : (if delivered then l.answer php db table else none) with _ | data
    · simp only [hanswer] at hstep
      obtain ⟨rfl, rfl⟩ := Prod.mk.inj (Option.some.inj hstep)
      rw [List.append_nil]
      exact hk.fail k
    · simp only [hanswer] at hstep
      obtain ⟨rfl, rfl⟩ := Prod.mk.inj (Option.some.inj hstep)
      cases delivered with
      | false => cases hanswer
      | true =>
        rw [List.append_nil]
        exact hk.arrive hreads hdistinct hl hanswer (htimely l hl)

end Kept

/-- **The page that is displayed is the page that its labels say**, in every run
whose answers fit the state they arrive in. -/
theorem display_matches (hreads : Reads db table)
    (hdistinct : table.rows.Pairwise fun a b => a.timestamp ≠ b.timestamp)
    (hintval : ∀ n : ℕ, (n : ℤ) ∈ allowedPageSizes → php.intval (toString n).toList = n)
    {h : Hook} {τ : List ReadingsFilters}
    (hr : (useReadings php db table).Run (Timely php db table) h τ) :
    (h.inFlight = [] → h.state.status = .online →
      Matches php db table h.state ∧ h.state.filters = lastApplied τ) ∧
    ∀ i c, h.cursors[i]? = some c →
      Starts php db table h.current.filters h.current.pageSize i c := by
  have hkept : Kept php db table h τ := by
    refine System.Run.invariant (I := Kept php db table) ?_ ?_ hr
    · exact ⟨.start, rfl, fun _ honline => by cases honline⟩
    · exact fun s τ a s' es hk htimely hs => hk.step hreads hdistinct hintval htimely hs
  refine ⟨fun hnone honline => ?_, hkept.sound.cursors⟩
  obtain ⟨hmatches, hfilters⟩ := hkept.shown hnone honline
  exact ⟨hmatches, hfilters.trans hkept.applied⟩

end Page

/-! ## An afternoon at the dashboard -/

/-- QuestDB, with the condition on the device as well. -/
def dashboardDb : QuestDB :=
  { sampleDb with
    evaluate := fun condition =>
      if condition.take 13 = "device_id = '".toList then
        some fun r => decide (r.deviceId = (condition.drop 13).dropLast)
      else sampleDb.evaluate condition }

/-- Only one device. -/
def onlyDevice (deviceId : String) : ReadingsFilters := { deviceId := some deviceId.toList }

instance (php : Php) (db : QuestDB) (table : Table) (s : ReadingsState) :
    Decidable (Matches php db table s) :=
  match hrows : matching php db table s.filters with
  | none => .isFalse (by simp [Matches, hrows])
  | some rows => decidable_of_iff (s.readings =
      ((rows.drop (s.pageIndex * s.pageSize)).take s.pageSize).map (reading db))
      (by simp [Matches, hrows])

instance (php : Php) (db : QuestDB) (table : Table) (h : Hook) (τ : List ReadingsFilters)
    (a : Action) : Decidable (Timely php db table h τ a) :=
  match a with
  | .complete k true => inferInstanceAs (Decidable (∀ l ∈ h.inFlight[k]?, _))
  | .complete _ false | .mount | .tick | .goToPage _ | .changePageSize _ | .applyFilters _
  | .refresh => inferInstanceAs (Decidable True)

/-- The second page of ten rows, a timer on it, and a filter. -/
def calm : List Action :=
  [.mount, .complete 0 true, .changePageSize 10, .complete 0 true, .goToPage 1, .complete 0 true,
    .tick, .complete 0 false, .tick, .complete 0 true, .applyFilters (onlyDevice "a"),
    .complete 0 true, .goToPage 1, .complete 0 true]

theorem calm_replays :
    ((useReadings samplePhp dashboardDb steadyTable).replay
      (Timely samplePhp dashboardDb steadyTable) {} [] calm).isSome := by
  decide +kernel

theorem samplePhp_intval : ∀ n : ℕ, (n : ℤ) ∈ allowedPageSizes →
    samplePhp.intval (toString n).toList = n := by
  intro n hn
  obtain rfl | rfl | rfl | rfl : n = 10 ∨ n = 25 ∨ n = 50 ∨ n = 100 := by
    simp only [allowedPageSizes, List.mem_cons, List.not_mem_nil, or_false] at hn
    omega
  all_goals decide +kernel

theorem display_matches_calm :
    ∃ h τ, (useReadings samplePhp dashboardDb steadyTable).Run
        (Timely samplePhp dashboardDb steadyTable) h τ ∧
      h.inFlight = [] ∧ h.state.status = .online ∧ h.cursors.length = 2 ∧
      Matches samplePhp dashboardDb steadyTable h.state ∧ h.state.filters = lastApplied τ ∧
      ∀ i c, h.cursors[i]? = some c →
        Starts samplePhp dashboardDb steadyTable h.current.filters h.current.pageSize i c := by
  have hreads : Reads dashboardDb steadyTable := by constructor <;> decide +kernel
  have hdistinct : steadyTable.rows.Pairwise fun a b => a.timestamp ≠ b.timestamp := by
    decide +kernel
  have hr := System.Run.of_isSome calm_replays
  obtain ⟨hshown, hcursors⟩ := display_matches hreads hdistinct samplePhp_intval hr
  obtain ⟨hmatches, hfilters⟩ := hshown (by decide +kernel) (by decide +kernel)
  exact ⟨_, _, hr, by decide +kernel, by decide +kernel, by decide +kernel, hmatches, hfilters,
    hcursors⟩

/-- One reading of each of two devices. -/
def mixedTable : Table where
  rows := [sampleRow 1 "a", sampleRow 0 "b"]
  falls := by decide +kernel
  keyed := by decide +kernel

/-- A filter is applied while a refresh is in flight, and is answered first. -/
def hurried : List Action :=
  [.mount, .complete 0 true, .refresh, .applyFilters (onlyDevice "b"), .complete 1 true,
    .complete 0 true]

theorem hurried_replays :
    ((useReadings samplePhp dashboardDb mixedTable).replay System.anyStep {} [] hurried).any
      fun r => decide (r.1.inFlight = [] ∧ r.1.state.status = .online ∧
        ¬Matches samplePhp dashboardDb mixedTable r.1.state) := by
  decide +kernel

/-- **A late answer is shown under the labels of another one**: nothing is in
flight, and the rows of both devices stand under a filter for one. -/
theorem late_answer_mislabelled :
    (mixedTable.rows.Pairwise fun a b => a.timestamp ≠ b.timestamp) ∧
    ∃ h τ, (useReadings samplePhp dashboardDb mixedTable).Run System.anyStep h τ ∧
      h.inFlight = [] ∧ h.state.status = .online ∧
      ¬Matches samplePhp dashboardDb mixedTable h.state := by
  refine ⟨by decide +kernel, ?_⟩
  obtain ⟨⟨h, τ⟩, hreplay, hresult⟩ := (Option.any_eq_true _ _).mp hurried_replays
  obtain ⟨hnone, honline, hwrong⟩ := of_decide_eq_true hresult
  exact ⟨h, τ, .of_replay_from .start hreplay, hnone, honline, hwrong⟩

end Aitsm.Visualization
