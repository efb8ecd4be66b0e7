import Aitsm.Library.Keyset
import Aitsm.Visualization.Api

/-!
# Paging through the history

Whoever follows `next_cursor` until `has_more` is false walks the rows of the
filters with the time as the key (`follow_pages`). The cursor is exclusive and
knows the time only, but a row is a time and a device: when a page ends between
two rows of the same time, the others are never shown. Where no page does, the
walk shows every row once (`history_shown_iff`).
-/

namespace Aitsm.Visualization

open Library Library.Keyset

variable {php : Php} {db : QuestDB} {table : Table} {get : Request}

/-- The same request with another cursor. -/
def Request.at (get : Request) (cursor : Option Text) : Request :=
  fun name => if name = "cursor" then cursor else get name

/-- The answers from a cursor on, until there are no more pages; `none` when one
fails or the fuel runs out. -/
def follow (php : Php) (db : QuestDB) (table : Table) (get : Request) :
    ℕ → Option Text → Option (List Response)
  | 0, _ => none
  | fuel + 1, cursor =>
    match api php db table (get.at cursor) with
    | .error _ => none
    | .ok r =>
      if r.hasMore then (follow php db table get fuel r.nextCursor).map (r :: ·) else some [r]

/-- QuestDB writes times in ISO 8601, and understands a comparison with a time
that it has written. -/
structure Reads (db : QuestDB) (table : Table) : Prop where
  isTimestamp : ∀ r ∈ table.rows, isTimestamp (db.format r.timestamp)
  before : ∀ r ∈ table.rows, (db.evaluate (before (db.format r.timestamp))).map table.rows.map =
    some (table.rows.map fun x => decide (x.timestamp < r.timestamp))

/-! ## One request -/

theorem pageSize_pos (php : Php) (get : Request) : 0 < pageSize php get := by
  simp only [pageSize]
  split
  · rename_i hallowed
    simp only [allowedPageSizes, List.mem_cons, List.not_mem_nil, or_false] at hallowed
    omega
  · omega

/-- Only the cursor looks at the cursor. -/
@[simp] theorem pageSize_at (c : Option Text) : pageSize php (get.at c) = pageSize php get := rfl

@[simp] theorem filters_at (c : Option Text) : filters php (get.at c) = filters php get := rfl

theorem cursor_none : cursor (get.at none) = .ok none := rfl

theorem cursor_some {value : Text} (h : isTimestamp value) :
    cursor (get.at (some value)) = .ok (some value) := by
  have hgiven : (get.at (some value)).given "cursor" = some value := by
    cases value with
    | nil => simp [isTimestamp, matchesAll] at h
    | cons c value => rfl
  simp only [cursor, hgiven, validateTimestamp, h, if_true]
  rfl

theorem holds_append {conditions : List Text} {condition : Text} {p q : Row → Bool}
    (hp : db.holds conditions = some p) (hq : db.evaluate condition = some q) :
    db.holds (conditions ++ [condition]) = some fun r => p r && q r := by
  obtain ⟨ps, hps, rfl⟩ := Option.map_eq_some_iff.mp hp
  have happend : (conditions ++ [condition]).mapM db.evaluate = some (ps ++ [q]) := by
    simp [List.mapM_append, hps, hq]
  simp [QuestDB.holds, happend]

/-- A page that is followed by another one. -/
theorem respond_full {n total : ℕ} {rest : List Row} (hlen : n < rest.length) :
    respond db n total (rest.take (n + 1)) =
      { pageSize := n, total := total, hasMore := true,
        nextCursor := (nextCursor Row.timestamp (rest.take n)).map db.format,
        readings := (rest.take n).map (reading db) } := by
  have hmore : n < (rest.take (n + 1)).length := by
    rw [List.length_take_of_le hlen]
    exact n.lt_succ_self
  have hlast : ∀ rows : List Row, (rows.map (reading db)).getLast?.map Reading.timestamp =
      (nextCursor Row.timestamp rows).map db.format := by
    intro rows
    rw [nextCursor, List.getLast?_map, Option.map_map, Option.map_map]
    rfl
  simp only [respond, hmore, decide_true, if_true]
  rw [← List.map_take, List.take_take, Nat.min_eq_left n.le_succ, hlast]

/-- The last page. -/
theorem respond_last {n total : ℕ} {rest : List Row} (hlen : rest.length ≤ n) :
    respond db n total (rest.take (n + 1)) =
      { pageSize := n, total := total, hasMore := false, nextCursor := none,
        readings := rest.map (reading db) } := by
  rw [List.take_of_length_le (by omega)]
  simp [respond, hlen]

/-- The rows that the filters of a request leave. -/
def Selects (php : Php) (db : QuestDB) (get : Request) (p : Row → Bool) : Prop :=
  ∃ conditions, filters php get = .ok conditions ∧ db.holds conditions = some p

/-- The answer to a request shows the rows beyond its cursor. -/
theorem api_at {p : Row → Bool} {c : Option ℕ} (hreads : Reads db table)
    (hselects : Selects php db get p) (hc : ∀ t ∈ c, ∃ r ∈ table.rows, r.timestamp = t) :
    api php db table (get.at (c.map db.format)) =
      .ok (respond db (pageSize php get) (table.rows.filter p).length
        ((beyond Row.timestamp c (table.rows.filter p)).take (pageSize php get + 1))) := by
  obtain ⟨conditions, hfilters, hholds⟩ := hselects
  have hcount : db.count table conditions = some (table.rows.filter p).length := by
    rw [QuestDB.count, hholds, Option.map_some]
  cases c with
  | none =>
    have hselect : db.select table (conditions ++ (none.map before).toList) (pageSize php get + 1) =
        some ((table.rows.filter p).take (pageSize php get + 1)) := by
      simp [QuestDB.select, hholds]
    simp only [api, Option.map_none, cursor_none, filters_at, hfilters, pageSize_at]
    simp only [bind, Except.bind, hcount, query, hselect, beyond]
    rfl
  | some t =>
    obtain ⟨r, hr, rfl⟩ := hc t rfl
    obtain ⟨q, hq, hmap⟩ := Option.map_eq_some_iff.mp (hreads.before r hr)
    have hbelow : ∀ x ∈ table.rows, q x = decide (x.timestamp < r.timestamp) :=
      List.map_inj_left.mp hmap
    have hrows : table.rows.filter (fun x => p x && q x) =
        beyond Row.timestamp (some r.timestamp) (table.rows.filter p) := by
      rw [beyond, List.filter_filter]
      refine List.filter_congr fun x hx => ?_
      rw [hbelow x hx, Bool.and_comm]
    have hselect : db.select table
        (conditions ++ ((some (db.format r.timestamp)).map before).toList)
        (pageSize php get + 1) = some ((beyond Row.timestamp (some r.timestamp)
          (table.rows.filter p)).take (pageSize php get + 1)) := by
      simp only [Option.map_some, Option.toList_some, QuestDB.select, holds_append hholds hq,
        hrows]
    simp only [api, Option.map_some, cursor_some (hreads.isTimestamp r hr), filters_at, hfilters,
      pageSize_at]
    simp only [bind, Except.bind, hcount, query]
    rw [hselect]
    rfl

/-! ## All pages -/

/-- The answers show the pages. -/
theorem follow_pages {p : Row → Bool} (hreads : Reads db table) (hselects : Selects php db get p) :
    ∀ fuel c, (∀ t ∈ c, ∃ r ∈ table.rows, r.timestamp = t) →
      ∀ ps, pages Row.timestamp (pageSize php get) (table.rows.filter p) fuel c = some ps →
        ∃ rs, follow php db table get fuel (c.map db.format) = some rs ∧
          rs.map Response.readings = ps.map (List.map (reading db)) ∧
          ∀ r ∈ rs, r.total = (table.rows.filter p).length := by
  intro fuel
  induction fuel with
  | zero => intro c _ ps h; cases h
  | succ fuel ih =>
    intro c hc ps h
    have hn := pageSize_pos php get
    rw [pages] at h
    rw [follow, api_at hreads hselects hc]
    generalize hrest : beyond Row.timestamp c (table.rows.filter p) = rest at h ⊢
    have hmem : ∀ r ∈ rest, r ∈ table.rows := fun r hr =>
      List.mem_of_mem_filter ((beyond_sublist c).subset (hrest ▸ hr))
    split at h
    · rename_i hlen
      obtain ⟨ps, hps, rfl⟩ := Option.map_eq_some_iff.mp h
      obtain ⟨r, hr, -, hnext⟩ := nextCursor_take Row.timestamp hn hlen
      obtain ⟨rs, hrs, hreadings, htotal⟩ := ih _ (fun t ht => by
        rw [hnext] at ht
        obtain rfl := Option.some.inj ht
        exact ⟨r, hmem r hr, rfl⟩) ps hps
      rw [respond_full hlen]
      simp only [if_true, hrs, Option.map_some]
      refine ⟨_, rfl, ?_, ?_⟩
      · rw [List.map_cons, List.map_cons, hreadings]
      · intro r' hr'
        rcases List.mem_cons.mp hr' with rfl | hr'
        · rfl
        · exact htotal r' hr'
    · rename_i hlen
      obtain rfl := Option.some.inj h
      rw [respond_last (by omega)]
      exact ⟨_, rfl, rfl, fun r' hr' => by rw [List.mem_singleton.mp hr']⟩

/-- The answers show every matching row once, the newest first, and count them. -/
def ShowsAll (db : QuestDB) (matching : List Row) (rs : List Response) : Prop :=
  ∃ shown : List Row, rs.flatMap Response.readings = shown.map (reading db) ∧
    shown.Perm matching ∧ (shown.Pairwise fun a b => b.timestamp ≤ a.timestamp) ∧
    ∀ r ∈ rs, r.total = shown.length

/-- **Paging ends, and shows every row exactly when no page ends between two rows
of the same time.** -/
theorem history_shown_iff {p : Row → Bool} (hreads : Reads db table)
    (hselects : Selects php db get p) :
    ∃ fuel rs, follow php db table get fuel none = some rs ∧
      (ShowsAll db (table.rows.filter p) rs ↔
        Unsplit Row.timestamp (pageSize php get) (table.rows.filter p)) := by
  have hn := pageSize_pos php get
  have hfalls : Falls Row.timestamp (table.rows.filter p) :=
    table.falls.sublist List.filter_sublist
  obtain ⟨ps, hps, hsub, hall⟩ :=
    pages_spec hn hfalls ((table.rows.filter p).length + 1) none (Nat.lt_succ_self _)
  obtain ⟨rs, hrs, hreadings, htotal⟩ :=
    follow_pages hreads hselects _ none (by simp) ps hps
  have hshown : rs.flatMap Response.readings = ps.flatten.map (reading db) := by
    rw [List.flatMap_def, hreadings, List.map_flatten]
  refine ⟨_, rs, hrs, fun ⟨shown, hsame, hperm, _⟩ => hall.mp ?_, fun hunsplit => ?_⟩
  · have hlength : shown.length = ps.flatten.length := by
      rw [hshown] at hsame
      simpa only [List.length_map] using (congrArg List.length hsame).symm
    exact hsub.eq_of_length (hlength.symm.trans hperm.length_eq)
  · have heq : ps.flatten = table.rows.filter p := hall.mpr hunsplit
    exact ⟨table.rows.filter p, by rw [hshown, heq], .refl _, hfalls, htotal⟩

/-! ## A table -/

/-- 2026-10-01 08:06:00 UTC. -/
def sampleTime : ℕ := 1790841960000000

/-- QuestDB, as far as this minute goes. -/
def sampleDb : QuestDB where
  format t :=
    "2026-10-01T08:06:".toList ++ padded 2 ((t - sampleTime) / 1000000) ++ ".000000Z".toList
  evaluate condition :=
    if condition.take 13 = "timestamp < '".toList then
      some fun r =>
        decide (r.timestamp < sampleTime + digits ((condition.drop 30).take 2) * 1000000)
    else none

/-- PHP, as far as numbers of two digits go. -/
def samplePhp : Php where
  intval value := digits value
  isNumeric value := value.all Char.isDigit
  floatText value := value

/-- A reading of a device at a second of the minute. -/
def sampleRow (second : ℕ) (deviceId : String) : Row :=
  { timestamp := sampleTime + second * 1000000, deviceId := deviceId.toList,
    temperature := some 21, battery := some 90 }

/-- One device, one reading a second. -/
def steadyTable : Table where
  rows := (List.range 12).reverse.map fun second => sampleRow second "a"
  falls := by decide +kernel
  keyed := by decide +kernel

/-- Two devices read at the same time, at the end of the first page. -/
def crowdedTable : Table where
  rows := List.flatten [(List.range 9).reverse.map fun k => sampleRow (k + 2) "a",
    [sampleRow 1 "a", sampleRow 1 "b"]]
  falls := by decide +kernel
  keyed := by decide +kernel

/-- Ten rows a page, and no filters. -/
def tenRows : Request := fun name => if name = "page_size" then some "10".toList else none

theorem history_shown_steady :
    ∃ fuel rs, follow samplePhp sampleDb steadyTable tenRows fuel none = some rs ∧
      ShowsAll sampleDb steadyTable.rows rs := by
  have hreads : Reads sampleDb steadyTable := by constructor <;> decide +kernel
  have hselects : Selects samplePhp sampleDb tenRows fun _ => true := ⟨[], rfl, rfl⟩
  obtain ⟨fuel, rs, hrs, hiff⟩ := history_shown_iff hreads hselects
  rw [List.filter_true] at hiff
  refine ⟨fuel, rs, hrs, hiff.mpr fun k hk hlt => ?_⟩
  have hsize : pageSize samplePhp tenRows = 10 := by decide +kernel
  have hlength : steadyTable.rows.length = 12 := rfl
  obtain rfl : k = 1 := by
    rw [hsize] at hlt
    omega
  decide +kernel

/-- **A row can stay hidden**: of eleven rows, ten are shown. -/
theorem history_hides_a_row :
    ∃ rs, follow samplePhp sampleDb crowdedTable tenRows 3 none = some rs ∧
      ¬ShowsAll sampleDb crowdedTable.rows rs := by
  have hends : (follow samplePhp sampleDb crowdedTable tenRows 3 none).isSome := by decide +kernel
  have hcounts : (follow samplePhp sampleDb crowdedTable tenRows 3 none).map
      (fun rs => (rs.map Response.total, (rs.flatMap Response.readings).length)) =
      some ([11, 11], 10) := by
    decide +kernel
  obtain ⟨rs, hrs⟩ := Option.isSome_iff_exists.mp hends
  rw [hrs, Option.map_some, Option.some.injEq, Prod.mk.injEq] at hcounts
  obtain ⟨htotals, hcount⟩ := hcounts
  refine ⟨rs, hrs, fun ⟨shown, hsame, _, _, htotal⟩ => ?_⟩
  have hlength : shown.length = 10 := by
    rw [← hcount, hsame, List.length_map]
  have hmem : 11 ∈ rs.map Response.total := by
    rw [htotals]
    exact List.mem_cons_self
  obtain ⟨r, hr, htotal'⟩ := List.mem_map.mp hmem
  have := htotal r hr
  omega

end Aitsm.Visualization
