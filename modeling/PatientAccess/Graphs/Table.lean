/-
# Graphs.Table -- the table of statistics, and the series of the plots

`generate_statistics_table` goes through the routes in the data, and for each through the
test types that occur with it; both are sets, whose order is Python's own.  A row has mean,
median and mode of each metric.  `plot_metric_vs_transaction` files the entries of a route
under their labels, and draws a line for each.

Neither loses an entry nor counts one twice (`table_rows`, `series_exact`), and no statistic
leaves the bounds of what was measured (`table_within`).  The order of the data matters to
the table only in which of several modes it names (`tables_agree_of_perm`); so it does not
matter in which order the text log was appended to (`append_order_tables`).
-/
import PatientAccess.Graphs.Pipeline
import PatientAccess.Theory.Statistics

namespace PatientAccess.Graphs

open PatientAccess.Theory PatientAccess.Theory.Doubles
open PatientAccess.Theory.Statistics (frequency groups flatMap_filter_perm_self)

set_option autoImplicit false

/-! ## The source -/

/-- A metric of the entries. -/
inductive Metric where
  | cpuUsageDiff
  | ramUsageDiff
  | transactionCost
  | latency
  deriving DecidableEq

/-- `entry[metric]`. -/
def Metric.of {T : Type} (entry : ParsedEntry T) : Metric → Double
  | .cpuUsageDiff => entry.cpuUsageDiff
  | .ramUsageDiff => entry.ramUsageDiff
  | .transactionCost => entry.transactionCost
  | .latency => entry.latency

/-- How the elements of a set come in a loop: each once, in an order of Python's own. -/
structure SetOrder where
  order : List PyStr → List PyStr
  nodup : ∀ l, (order l).Nodup
  mem : ∀ l x, x ∈ order l ↔ x ∈ l

/-- Sets in the order of their last mention. -/
def lastMention : SetOrder where
  order := List.dedup
  nodup := List.nodup_dedup
  mem _ _ := List.mem_dedup

structure Stats where
  mean : Double
  median : Double
  mode : Double

structure Row where
  route : PyStr
  testType : PyStr
  stats : List (Metric × Option Stats)

/-- The points of a line, and what its label names. -/
structure Series where
  testType : PyStr
  totalTransactions : Int
  route : PyStr
  points : List (Int × Double)

section Source

variable {T : Type} (p : Python T) (sets : SetOrder)

/-- `median(values)`. -/
def medianOf (values : List Double) : Option Double :=
  if ∀ x ∈ values, x ≠ .nan then Statistics.median Statistics.middle values
  else some (p.medianOfNan values)

/-- Mean, median and mode; without values `mean` raises. -/
def statistics (values : List Double) : Option Stats := do
  let mean ← Statistics.mean values
  let median ← medianOf p values
  let mode ← Statistics.mode values
  some { mean, median, mode }

def calculateStatistics (data : List (ParsedEntry T)) (metric : Metric) : Option Stats :=
  statistics p (data.map fun entry => metric.of entry)

/-- `none` stands for `'N/A'`. -/
def generateStatisticsTable (data : List (ParsedEntry T)) (metrics : List Metric) : List Row :=
  (sets.order (data.map ParsedEntry.route)).flatMap fun route =>
    (sets.order ((data.filter fun entry => entry.route = route).map ParsedEntry.testType)).map
      fun testType =>
        let subset := data.filter fun entry => entry.route = route ∧ entry.testType = testType
        { route, testType
          stats := metrics.map fun metric =>
            (metric, statistics p (subset.map fun entry => metric.of entry)) }

/-- The lines of `plot_metric_vs_transaction`. -/
def plotMetricVsTransaction (data : List (ParsedEntry T)) (metric : Metric) : List Series :=
  (groups (fun entry : ParsedEntry T => (entry.testType, entry.totalTransactions, entry.route))
      data).map fun ((testType, totalTransactions, route), entries) =>
    { testType, totalTransactions, route
      points := entries.map fun entry =>
        (entry.requestNumber, if metric.of entry ≠ .zero then metric.of entry else .zero) }

/-- The plots of `metric` that `main` draws, one for each route. -/
def transactionPlots (data : List (ParsedEntry T)) (metric : Metric) : List (List Series) :=
  (sets.order (data.map ParsedEntry.route)).map fun route =>
    plotMetricVsTransaction (data.filter fun entry => entry.route = route) metric

end Source

/-! ## Every entry once -/

def ParsedEntry.key {T : Type} (entry : ParsedEntry T) : PyStr × PyStr :=
  (entry.route, entry.testType)

def Row.key (row : Row) : PyStr × PyStr := (row.route, row.testType)

section Rows

variable {T : Type} (p : Python T) (sets : SetOrder) (data : List (ParsedEntry T))

/-- The entries of a row. -/
def entriesOf (key : PyStr × PyStr) : List (ParsedEntry T) :=
  data.filter fun entry => entry.key = key

/-- The keys of the rows, in the order of the two loops. -/
def keysOf : List (PyStr × PyStr) :=
  (sets.order (data.map ParsedEntry.route)).flatMap fun route =>
    (sets.order ((data.filter fun entry => entry.route = route).map ParsedEntry.testType)).map
      fun testType => (route, testType)

theorem generateStatisticsTable_eq (metrics : List Metric) :
    generateStatisticsTable p sets data metrics =
      (keysOf sets data).map fun key =>
        { route := key.1, testType := key.2
          stats := metrics.map fun metric =>
            (metric, calculateStatistics p (entriesOf data key) metric) } := by
  rw [generateStatisticsTable, keysOf, List.map_flatMap]
  simp only [List.map_map]
  refine List.flatMap_congr fun route _ => List.map_congr_left fun testType _ => ?_
  have subset : (data.filter fun entry => entry.route = route ∧ entry.testType = testType) =
      entriesOf data (route, testType) := by
    refine List.filter_congr fun entry _ => ?_
    simp [ParsedEntry.key]
  simp only [subset, Function.comp_apply, calculateStatistics]

theorem nodup_keysOf : (keysOf sets data).Nodup := by
  refine List.nodup_flatMap.mpr ⟨fun route _ => ?_, ?_⟩
  · exact (sets.nodup _).map fun _ _ same => (Prod.mk.inj same).2
  · refine (sets.nodup _).imp ?_
    intro route route' other
    rw [Function.onFun, List.disjoint_left]
    intro key inOne inOther
    obtain ⟨_, -, rfl⟩ := List.mem_map.mp inOne
    obtain ⟨_, -, same⟩ := List.mem_map.mp inOther
    exact other (Prod.mk.inj same).1.symm

theorem mem_keysOf (key : PyStr × PyStr) :
    key ∈ keysOf sets data ↔ key ∈ data.map ParsedEntry.key := by
  simp only [keysOf, List.mem_flatMap, List.mem_map, sets.mem, List.mem_filter, decide_eq_true_eq]
  constructor
  · rintro ⟨route, -, testType, ⟨entry, ⟨member, rfl⟩, rfl⟩, rfl⟩
    exact ⟨entry, member, rfl⟩
  · rintro ⟨entry, member, rfl⟩
    exact ⟨_, ⟨entry, member, rfl⟩, _, ⟨entry, ⟨member, rfl⟩, rfl⟩, rfl⟩

theorem map_key_table (metrics : List Metric) :
    (generateStatisticsTable p sets data metrics).map Row.key = keysOf sets data := by
  rw [generateStatisticsTable_eq, List.map_map]
  exact List.map_id _

theorem entriesOf_ne_nil {key : PyStr × PyStr} (member : key ∈ data.map ParsedEntry.key) :
    entriesOf data key ≠ [] := by
  obtain ⟨entry, inData, rfl⟩ := List.mem_map.mp member
  exact List.ne_nil_of_mem (List.mem_filter.mpr ⟨inData, decide_eq_true rfl⟩)

theorem exists_statistics {values : List Double} (nonempty : values ≠ []) :
    ∃ s, statistics p values = some s ∧ Statistics.mean values = some s.mean ∧
      medianOf p values = some s.median ∧ Statistics.mode values = some s.mode := by
  obtain ⟨mean, isMean⟩ := Option.isSome_iff_exists.mp (Statistics.isSome_mean nonempty)
  obtain ⟨mode, isMode⟩ := Option.isSome_iff_exists.mp (Statistics.isSome_mode nonempty)
  have some_ : (medianOf p values).isSome = true := by
    unfold medianOf
    split
    · exact Statistics.isSome_median _ nonempty
    · rfl
  obtain ⟨median, isMedian⟩ := Option.isSome_iff_exists.mp some_
  refine ⟨⟨mean, median, mode⟩, ?_, isMean, isMedian, isMode⟩
  rw [statistics, isMean, isMedian, isMode]
  rfl

/-- A table has one row for each route and test type that occur together, the statistics of
a row are those of the entries with its key, and exist; and the entries of all rows are the
data. -/
structure RowsExact (metrics : List Metric) (table : List Row) : Prop where
  nodup : (table.map Row.key).Nodup
  keys : ∀ key, key ∈ table.map Row.key ↔ key ∈ data.map ParsedEntry.key
  exact : ∀ row ∈ table, row.stats = metrics.map fun metric =>
    (metric, calculateStatistics p (entriesOf data row.key) metric)
  exist : ∀ row ∈ table, ∀ metric stats, (metric, stats) ∈ row.stats → stats.isSome = true
  all : (table.flatMap fun row => entriesOf data row.key).Perm data

/-- **Every entry counts in one row**, whatever order the sets have. -/
theorem table_rows (metrics : List Metric) :
    RowsExact p data metrics (generateStatisticsTable p sets data metrics) := by
  let table := generateStatisticsTable p sets data metrics
  have keys : table.map Row.key = keysOf sets data := map_key_table p sets data metrics
  have exact : ∀ row ∈ table, row.stats = metrics.map fun metric =>
      (metric, calculateStatistics p (entriesOf data row.key) metric) := by
    intro row member
    rw [show table = _ from generateStatisticsTable_eq p sets data metrics] at member
    obtain ⟨key, -, rfl⟩ := List.mem_map.mp member
    rfl
  have occurs : ∀ key, key ∈ table.map Row.key ↔ key ∈ data.map ParsedEntry.key := by
    intro key
    rw [keys]
    exact mem_keysOf sets data key
  have nodup : (table.map Row.key).Nodup := by
    rw [keys]
    exact nodup_keysOf sets data
  refine ⟨nodup, occurs, exact, ?_, ?_⟩
  · intro row member metric stats has
    rw [exact row member] at has
    obtain ⟨metric', -, same⟩ := List.mem_map.mp has
    have isStats := (Prod.mk.inj same).2
    have occupied := entriesOf_ne_nil data ((occurs row.key).mp (List.mem_map_of_mem member))
    have nonempty : ((entriesOf data row.key).map fun entry => metric'.of entry) ≠ [] :=
      fun none => occupied (List.map_eq_nil_iff.mp none)
    obtain ⟨s, is, -⟩ := exists_statistics p nonempty
    rw [← isStats, calculateStatistics, is]
    rfl
  · have flat : (table.flatMap fun row => entriesOf data row.key) =
        (table.map Row.key).flatMap fun key => data.filter fun entry => entry.key = key := by
      rw [List.flatMap_map]
      rfl
    rw [flat, keys]
    refine flatMap_filter_perm_self ParsedEntry.key data (nodup_keysOf sets data) fun entry member => ?_
    exact (mem_keysOf sets data _).mpr (List.mem_map_of_mem member)

end Rows

/-! ## Every entry plotted once -/

def ParsedEntry.label {T : Type} (entry : ParsedEntry T) : PyStr × Int × PyStr :=
  (entry.testType, entry.totalTransactions, entry.route)

def Series.label (series : Series) : PyStr × Int × PyStr :=
  (series.testType, series.totalTransactions, series.route)

/-- Where an entry is in the plot of a metric. -/
def Metric.point {T : Type} (metric : Metric) (entry : ParsedEntry T) : Int × Double :=
  (entry.requestNumber, metric.of entry)

section Plots

variable {T : Type} (sets : SetOrder) (data : List (ParsedEntry T)) (metric : Metric)

/-- The lines of a plot are the groups, and zero is plotted as what it is. -/
theorem plotMetricVsTransaction_eq :
    plotMetricVsTransaction data metric =
      (groups ParsedEntry.label data).map fun group =>
        { testType := group.1.1, totalTransactions := group.1.2.1, route := group.1.2.2
          points := group.2.map metric.point } := by
  refine List.map_congr_left fun group _ => ?_
  have value : ∀ entry : ParsedEntry T,
      (if metric.of entry ≠ .zero then metric.of entry else .zero) = metric.of entry := by
    intro entry
    split
    · rfl
    · next zero => exact (not_not.mp zero).symm
  simp only [value]
  rfl

/-- The labels in the plot of a route. -/
theorem mem_label_plot {route : PyStr} {label : PyStr × Int × PyStr} :
    label ∈ (plotMetricVsTransaction (data.filter fun entry => entry.route = route) metric).map
        Series.label ↔ ∃ entry ∈ data, entry.route = route ∧ entry.label = label := by
  have keys := (Statistics.filed_groups ParsedEntry.label
    (data.filter fun entry => entry.route = route)).keys label
  rw [plotMetricVsTransaction_eq, List.map_map]
  refine Iff.trans keys ?_
  simp [and_assoc]

theorem nodup_label_plot (route : PyStr) :
    ((plotMetricVsTransaction (data.filter fun entry => entry.route = route) metric).map
      Series.label).Nodup := by
  rw [plotMetricVsTransaction_eq, List.map_map]
  exact (Statistics.filed_groups _ _).nodup

/-- The points of a line are those of the entries with its label. -/
theorem points_of_mem {route : PyStr} {series : Series} (member :
    series ∈ plotMetricVsTransaction (data.filter fun entry => entry.route = route) metric) :
    series.points =
      (data.filter fun entry => entry.label = series.label).map metric.point := by
  have isLabel : series.label ∈
      (plotMetricVsTransaction (data.filter fun entry => entry.route = route) metric).map
        Series.label := List.mem_map_of_mem member
  obtain ⟨entry, -, onRoute, same⟩ := (mem_label_plot data metric).mp isLabel
  have isRoute : series.label.2.2 = route := by
    rw [← same, ← onRoute]
    rfl
  rw [plotMetricVsTransaction_eq] at member
  obtain ⟨group, inGroups, rfl⟩ := List.mem_map.mp member
  have exact := (Statistics.filed_groups ParsedEntry.label
    (data.filter fun entry => entry.route = route)).exact group inGroups
  show group.2.map metric.point = _
  rw [exact, List.filter_filter]
  congr 1
  refine List.filter_congr fun other _ => ?_
  by_cases labelled : other.label = group.1
  · have here : other.route = route := by
      rw [← isRoute]
      exact congrArg (fun label => label.2.2) labelled
    simp [labelled, here, Series.label]
  · simp [labelled, Series.label]

/-- Lines have each label that occurs once, the points of a line are those of the entries
with its label, in order, and the points of all lines are those of the data. -/
structure SeriesExact (series : List Series) : Prop where
  nodup : (series.map Series.label).Nodup
  labels : ∀ label, label ∈ series.map Series.label ↔ label ∈ data.map ParsedEntry.label
  exact : ∀ s ∈ series, s.points =
    (data.filter fun entry => entry.label = s.label).map metric.point
  all : (series.flatMap Series.points).Perm (data.map metric.point)

/-- **Every entry is one point** of the plots of a metric for all routes. -/
theorem series_exact : SeriesExact data metric (transactionPlots sets data metric).flatten := by
  let series := (transactionPlots sets data metric).flatten
  have flat : series = (sets.order (data.map ParsedEntry.route)).flatMap fun route =>
      plotMetricVsTransaction (data.filter fun entry => entry.route = route) metric := rfl
  have nodup : (series.map Series.label).Nodup := by
    rw [flat, List.map_flatMap]
    refine List.nodup_flatMap.mpr ⟨fun route _ => nodup_label_plot data metric route, ?_⟩
    refine (sets.nodup _).imp ?_
    intro route route' other
    rw [Function.onFun, List.disjoint_left]
    intro label inOne inOther
    obtain ⟨entry, -, rfl, same⟩ := (mem_label_plot data metric).mp inOne
    obtain ⟨entry', -, rfl, same'⟩ := (mem_label_plot data metric).mp inOther
    exact other (congrArg (fun label => label.2.2) (same.trans same'.symm))
  have occurs : ∀ label, label ∈ series.map Series.label ↔ label ∈ data.map ParsedEntry.label := by
    intro label
    rw [flat, List.map_flatMap]
    simp only [List.mem_flatMap, sets.mem, mem_label_plot]
    constructor
    · rintro ⟨route, -, entry, member, -, rfl⟩
      exact List.mem_map_of_mem member
    · intro isLabel
      obtain ⟨entry, member, rfl⟩ := List.mem_map.mp isLabel
      exact ⟨entry.route, List.mem_map_of_mem member, entry, member, rfl, rfl⟩
  have exact : ∀ s ∈ series, s.points =
      (data.filter fun entry => entry.label = s.label).map metric.point := by
    intro s member
    rw [flat] at member
    obtain ⟨route, -, inPlot⟩ := List.mem_flatMap.mp member
    exact points_of_mem data metric inPlot
  refine ⟨nodup, occurs, exact, ?_⟩
  have points : series.flatMap Series.points = ((series.map Series.label).flatMap fun label =>
      data.filter fun entry => entry.label = label).map metric.point := by
    rw [List.map_flatMap, List.flatMap_map]
    exact List.flatMap_congr exact
  rw [points]
  refine (flatMap_filter_perm_self ParsedEntry.label data nodup fun entry member => ?_).map _
  exact (occurs _).mpr (List.mem_map_of_mem member)

end Plots

/-! ## Bounds -/

/-- A value is between two numbers. -/
def Between (lo hi : ℚ) (fitsLo : Fits lo) (fitsHi : Fits hi) (x : Double) : Prop :=
  .finite lo fitsLo ≤ x ∧ x ≤ .finite hi fitsHi

section Bounds

variable {T : Type} (p : Python T) {lo hi : ℚ} {fitsLo : Fits lo} {fitsHi : Fits hi}

theorem Between.ne_nan {x : Double} (between : Between lo hi fitsLo fitsHi x) : x ≠ .nan := by
  rintro rfl
  obtain ⟨q, fits, same, -⟩ := Double.exists_finite between.1 between.2
  cases same

theorem statistics_between {values : List Double} (twiceLo : Fits (2 * lo)) (twiceHi : Fits (2 * hi))
    (all : ∀ x ∈ values, Between lo hi fitsLo fitsHi x) (nonempty : values ≠ []) :
    ∃ s, statistics p values = some s ∧ Between lo hi fitsLo fitsHi s.mean ∧
      Between lo hi fitsLo fitsHi s.median ∧ Between lo hi fitsLo fitsHi s.mode := by
  obtain ⟨s, is, isMean, isMedian, isMode⟩ := exists_statistics p nonempty
  rw [medianOf, if_pos fun x member => (all x member).ne_nan] at isMedian
  refine ⟨s, is, Statistics.mean_between all isMean, ?_, all _ (Statistics.mode_mem isMode)⟩
  exact Statistics.median_of_forall (P := Between lo hi fitsLo fitsHi)
    (fun a b isA isB _ => Statistics.middle_between twiceLo twiceHi isA isB) all isMedian

/-- **No statistic leaves the bounds of what was measured.**  Whatever two numbers, small
enough to be doubled, all values of a metric in a row are between, its mean, median and mode
are between them as well, for all that they are rounded. -/
theorem table_within (sets : SetOrder) (data : List (ParsedEntry T)) (metrics : List Metric)
    (twiceLo : Fits (2 * lo)) (twiceHi : Fits (2 * hi)) {row : Row}
    (member : row ∈ generateStatisticsTable p sets data metrics) {metric : Metric}
    (has : metric ∈ metrics)
    (all : ∀ entry ∈ entriesOf data row.key, Between lo hi fitsLo fitsHi (metric.of entry)) :
    ∃ s, (metric, some s) ∈ row.stats ∧ Between lo hi fitsLo fitsHi s.mean ∧
      Between lo hi fitsLo fitsHi s.median ∧ Between lo hi fitsLo fitsHi s.mode := by
  rw [generateStatisticsTable_eq] at member
  obtain ⟨key, isKey, rfl⟩ := List.mem_map.mp member
  have occurs := (mem_keysOf sets data key).mp isKey
  have values : ∀ x ∈ (entriesOf data key).map fun entry => metric.of entry,
      Between lo hi fitsLo fitsHi x := by
    intro x isValue
    obtain ⟨entry, inRow, rfl⟩ := List.mem_map.mp isValue
    exact all entry inRow
  have nonempty : ((entriesOf data key).map fun entry => metric.of entry) ≠ [] :=
    fun none => entriesOf_ne_nil data occurs (List.map_eq_nil_iff.mp none)
  obtain ⟨s, is, within⟩ := statistics_between p twiceLo twiceHi values nonempty
  refine ⟨s, ?_, within⟩
  refine List.mem_map.mpr ⟨metric, has, ?_⟩
  rw [calculateStatistics, is]

end Bounds

/-- A query of `latency` milliseconds. -/
def query (latency : ℤ) (small : |latency| < 2 ^ 53) : ParsedEntry PyStr where
  duration := .finite latency (fits_intCast small)
  cpuUsageStart := .zero
  cpuUsageEnd := .zero
  ramUsageStart := .zero
  ramUsageEnd := .zero
  cpuUsageDiff := .zero
  ramUsageDiff := .zero
  transactionCost := .zero
  latency := .finite latency (fits_intCast small)
  timestamp := lit "2024-11-24T04:42:13.251+00:00"
  groupID := .str (lit "9b1d")
  requestNumber := 1
  totalTransactions := 2
  testType := lit "sequential"
  parametersLength := 2
  method := .str (lit "GET")
  route := lit "GET /role/"
  refTime := .zero
  proofSize := .zero

def queries : List (ParsedEntry PyStr) := [query 10 (by decide), query 13 (by decide)]

/-- Two queries of 10 and 13 milliseconds. -/
theorem table_within_queries :
    ∃ row ∈ generateStatisticsTable asciiPython lastMention queries [.latency],
      ∃ s, (Metric.latency, some s) ∈ row.stats ∧
        Between (10 : ℤ) (13 : ℤ) (fits_intCast (by decide)) (fits_intCast (by decide)) s.mean ∧
        Between (10 : ℤ) (13 : ℤ) (fits_intCast (by decide)) (fits_intCast (by decide)) s.median ∧
        Between (10 : ℤ) (13 : ℤ) (fits_intCast (by decide)) (fits_intCast (by decide)) s.mode := by
  have isKey : (lit "GET /role/", lit "sequential") ∈
      (generateStatisticsTable asciiPython lastMention queries [.latency]).map Row.key := by
    rw [map_key_table, mem_keysOf]
    exact List.mem_cons_self
  obtain ⟨row, member, -⟩ := List.mem_map.mp isKey
  have twice : ∀ n : ℤ, |2 * n| < 2 ^ 53 → Fits (2 * (n : ℚ)) := by
    intro n small
    have fits := fits_intCast small
    rwa [Int.cast_mul, Int.cast_ofNat] at fits
  refine ⟨row, member, table_within asciiPython lastMention queries [.latency] (twice 10 (by decide))
    (twice 13 (by decide)) member (List.mem_singleton_self _) fun entry inRow => ?_⟩
  have low : ((10 : ℤ) : ℚ) ≤ (13 : ℤ) := Int.cast_le.mpr (by decide)
  rcases List.mem_cons.mp (List.mem_of_mem_filter inRow) with rfl | last
  · exact ⟨(Double.finite_le_finite _ _).mpr le_rfl, (Double.finite_le_finite _ _).mpr low⟩
  · rw [List.mem_singleton.mp last]
    exact ⟨(Double.finite_le_finite _ _).mpr low, (Double.finite_le_finite _ _).mpr le_rfl⟩

/-! ## The order of the data -/

/-- Two statistics of the same values: the modes may differ, but they are met equally often.
The median of values that are not all numbers is left open. -/
structure Agree (values : List Double) (s t : Stats) : Prop where
  mean : s.mean = t.mean
  median : (∀ x ∈ values, x ≠ .nan) → s.median = t.median
  mode : frequency values s.mode = frequency values t.mode

/-- Two tables of the same data have the same rows, and these agree. -/
structure TablesAgree {T : Type} (data : List (ParsedEntry T)) (metrics : List Metric)
    (table table' : List Row) : Prop where
  keys : (table.map Row.key).Perm (table'.map Row.key)
  rows : ∀ row ∈ table, ∀ row' ∈ table', row.key = row'.key → ∀ metric ∈ metrics,
    ∃ s t, (metric, some s) ∈ row.stats ∧ (metric, some t) ∈ row'.stats ∧
      Agree ((entriesOf data row.key).map fun entry => metric.of entry) s t

section Order

variable {T : Type} (p : Python T)

theorem statistics_agree {values values' : List Double} (same : values.Perm values')
    (nonempty : values ≠ []) :
    ∃ s t, statistics p values = some s ∧ statistics p values' = some t ∧ Agree values s t := by
  have nonempty' : values' ≠ [] := by
    rintro rfl
    exact nonempty same.eq_nil
  obtain ⟨s, isS, meanS, medianS, modeS⟩ := exists_statistics p nonempty
  obtain ⟨t, isT, meanT, medianT, modeT⟩ := exists_statistics p nonempty'
  refine ⟨s, t, isS, isT, ?_, fun numbers => ?_, Statistics.frequency_mode_perm same modeS modeT⟩
  · rw [Statistics.mean_perm same, meanT] at meanS
    exact (Option.some.inj meanS).symm
  · have numbers' : ∀ x ∈ values', x ≠ .nan := fun x member => numbers x (same.symm.subset member)
    rw [medianOf, if_pos numbers, Statistics.median_perm _ same] at medianS
    rw [medianOf, if_pos numbers', medianS] at medianT
    exact Option.some.inj medianT

theorem tables_agree_of_perm (sets sets' : SetOrder) {data data' : List (ParsedEntry T)}
    (same : data.Perm data') (metrics : List Metric) :
    TablesAgree data metrics (generateStatisticsTable p sets data metrics)
      (generateStatisticsTable p sets' data' metrics) where
  keys := by
    rw [map_key_table, map_key_table]
    refine (List.perm_ext_iff_of_nodup (nodup_keysOf sets data) (nodup_keysOf sets' data')).mpr ?_
    intro key
    rw [mem_keysOf, mem_keysOf]
    exact (same.map _).mem_iff
  rows := by
    intro row member row' member' sameKey metric has
    rw [generateStatisticsTable_eq] at member member'
    obtain ⟨key, isKey, rfl⟩ := List.mem_map.mp member
    obtain ⟨key', -, rfl⟩ := List.mem_map.mp member'
    have keys : key = key' := sameKey
    subst keys
    have nonempty := entriesOf_ne_nil data ((mem_keysOf sets data key).mp isKey)
    have values : ((entriesOf data key).map fun entry => metric.of entry).Perm
        ((entriesOf data' key).map fun entry => metric.of entry) := (same.filter _).map _
    obtain ⟨s, t, isS, isT, agree⟩ := statistics_agree p values
      fun none => nonempty (List.map_eq_nil_iff.mp none)
    refine ⟨s, t, List.mem_map.mpr ⟨metric, has, ?_⟩, List.mem_map.mpr ⟨metric, has, ?_⟩, agree⟩
    · rw [calculateStatistics, isS]
    · rw [calculateStatistics, isT]

/-- **It does not matter which append came first.**  Requests with plain values are in the
text log in one order or in another: then the tables made of it agree, in whatever order
either of them goes through its sets. -/
theorem append_order_tables (sets sets' : SetOrder) (metrics : List Metric)
    {rs rs' : List Log.FinishedRequest} (plain : ∀ r ∈ rs, Plain r) (appends : rs.Perm rs') :
    ∃ data data', (readData "text" (Log.textLog rs)).map (parseData p) = some data ∧
      (readData "text" (Log.textLog rs')).map (parseData p) = some data' ∧
      TablesAgree data metrics (generateStatisticsTable p sets data metrics)
        (generateStatisticsTable p sets' data' metrics) :=
  ⟨_, _, parseData_text p plain,
    parseData_text p fun r member => plain r (appends.symm.subset member),
    tables_agree_of_perm p sets sets' (appends.filterMap _) metrics⟩

end Order

theorem append_order_tables_oneByOne :
    ∃ data data', (readData "text" (Log.textLog (Log.finishedRequests Log.oneByOne))).map
        (parseData asciiPython) = some data ∧
      (readData "text" (Log.textLog (Log.finishedRequests Log.oneByOne).reverse)).map
        (parseData asciiPython) = some data' ∧
      TablesAgree data [.latency] (generateStatisticsTable asciiPython lastMention data [.latency])
        (generateStatisticsTable asciiPython lastMention data' [.latency]) :=
  append_order_tables asciiPython lastMention lastMention [.latency] plain_roleRequests
    (List.reverse_perm _).symm

end PatientAccess.Graphs
