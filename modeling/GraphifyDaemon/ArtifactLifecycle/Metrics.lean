import Mathlib.Data.List.DropRight
import Mathlib.Algebra.BigOperators.Group.List.Basic
import Mathlib.Algebra.Ring.Int.Defs
import GraphifyDaemon.Library.OrderStatistic
import GraphifyDaemon.Library.OrderedDict

/-! `Metrics`, over all the calls that were made on it. Each method holds the lock, so the calls
of all threads come one after the other. -/
namespace GraphifyDaemon
open Library Library.OrderStatistic

variable {δ : Type}

/-- `Metrics`. Numbers of seconds and gauge values are a parameter. -/
structure Metrics (δ : Type) where
  counters : OrderedDict String Int
  gauges : OrderedDict String δ
  eventTimes : OrderedDict String δ
  latencies : OrderedDict String (List δ)
  latencyWindow : Nat

structure Percentiles (δ : Type) where
  p50 : δ
  p95 : δ
  p99 : δ
  deriving DecidableEq

/-- A call that changes the metrics. The time of an event is what `time.monotonic` answers. -/
inductive MetricsCall (δ : Type) where
  | increment (name : String) (amount : Int)
  | setGauge (name : String) (value : δ)
  | recordEventTime (name : String) (now : δ)
  | recordLatency (name : String) (seconds : δ)

def DEFAULT_LATENCY_WINDOW : Nat := 1000

namespace Metrics

def initial (latencyWindow : Nat) : Metrics δ := ⟨.empty, .empty, .empty, .empty, latencyWindow⟩

def counter (name : String) (m : Metrics δ) : Int := (m.counters.get name).getD 0

def gauge (name : String) (m : Metrics δ) : Option δ := m.gauges.get name

def secondsSinceEvent [Sub δ] (name : String) (now : δ) (m : Metrics δ) : Option δ :=
  (m.eventTimes.get name).map fun eventTime => now - eventTime

def increment (name : String) (amount : Int) (m : Metrics δ) : Metrics δ :=
  { m with counters := m.counters.set name (m.counter name + amount) }

def setGauge (name : String) (value : δ) (m : Metrics δ) : Metrics δ :=
  { m with gauges := m.gauges.set name value }

def recordEventTime (name : String) (now : δ) (m : Metrics δ) : Metrics δ :=
  { m with eventTimes := m.eventTimes.set name now }

/-- The samples kept under a name, in a `deque(maxlen=latency_window)`. -/
def samples (name : String) (m : Metrics δ) : List δ := (m.latencies.get name).getD []

def recordLatency (name : String) (seconds : δ) (m : Metrics δ) : Metrics δ :=
  { m with latencies := m.latencies.set name ((m.samples name ++ [seconds]).rtake m.latencyWindow) }

/-- `_pct`, of the fraction `percent / 100`. -/
def pct [Zero δ] (percent : Nat) (samples : List δ) : δ :=
  samples.getD (min (samples.length - 1) (samples.length * percent / 100)) 0

def latencyPercentiles [LinearOrder δ] [Zero δ] (name : String) (m : Metrics δ) : Percentiles δ :=
  let samples := sorted (m.samples name)
  if samples = [] then ⟨0, 0, 0⟩ else ⟨pct 50 samples, pct 95 samples, pct 99 samples⟩

def apply (m : Metrics δ) : MetricsCall δ → Metrics δ
  | .increment name amount => m.increment name amount
  | .setGauge name value => m.setGauge name value
  | .recordEventTime name now => m.recordEventTime name now
  | .recordLatency name seconds => m.recordLatency name seconds

end Metrics

namespace MetricsCall

/-- What a call adds to a counter. -/
def increases (name : String) : MetricsCall δ → Int
  | increment name' amount => if name' = name then amount else 0
  | setGauge _ _ | recordEventTime _ _ | recordLatency _ _ => 0

/-- The value that a call sets a gauge to. -/
def gaugeSet (name : String) : MetricsCall δ → Option δ
  | setGauge name' value => if name' = name then some value else none
  | increment _ _ | recordEventTime _ _ | recordLatency _ _ => none

def eventRecorded (name : String) : MetricsCall δ → Option δ
  | recordEventTime name' now => if name' = name then some now else none
  | increment _ _ | setGauge _ _ | recordLatency _ _ => none

def latencyRecorded (name : String) : MetricsCall δ → Option δ
  | recordLatency name' seconds => if name' = name then some seconds else none
  | increment _ _ | setGauge _ _ | recordEventTime _ _ => none

end MetricsCall

section History
variable {m : Metrics δ} {latencyWindow : Nat} {history : List (MetricsCall δ)} {name : String}

@[simp] theorem apply_latencyWindow (call : MetricsCall δ) : (m.apply call).latencyWindow = m.latencyWindow := by
  cases call <;> rfl

private theorem apply_counter (call : MetricsCall δ) : (m.apply call).counter name =
    m.counter name + call.increases name := by
  cases call with
  | increment name' amount =>
    simp only [Metrics.apply, Metrics.increment, Metrics.counter, MetricsCall.increases, OrderedDict.get_set]
    split_ifs with h
    · rw [h, Option.getD_some]
    · rw [add_zero]
  | setGauge | recordEventTime | recordLatency => exact (add_zero _).symm

private theorem apply_gauge (call : MetricsCall δ) : (m.apply call).gauge name = (call.gaugeSet name).or
    (m.gauge name) := by
  cases call with
  | setGauge name' value =>
    simp only [Metrics.apply, Metrics.setGauge, Metrics.gauge, MetricsCall.gaugeSet, OrderedDict.get_set]
    split_ifs <;> rfl
  | increment | recordEventTime | recordLatency => rfl

private theorem apply_eventTimes (call : MetricsCall δ) :
    (m.apply call).eventTimes.get name = (call.eventRecorded name).or (m.eventTimes.get name) := by
  cases call with
  | recordEventTime name' now =>
    simp only [Metrics.apply, Metrics.recordEventTime, MetricsCall.eventRecorded, OrderedDict.get_set]
    split_ifs <;> rfl
  | increment | setGauge | recordLatency => rfl

theorem apply_samples (call : MetricsCall δ) : (m.apply call).samples name =
    match call.latencyRecorded name with
    | some seconds => (m.samples name ++ [seconds]).rtake m.latencyWindow
    | none => m.samples name := by
  cases call with
  | recordLatency name' seconds =>
    simp only [Metrics.apply, Metrics.recordLatency, Metrics.samples, MetricsCall.latencyRecorded, OrderedDict.get_set]
    split_ifs with h
    · rw [h]
      rfl
    · rfl
  | increment | setGauge | recordEventTime => rfl

/-- The last samples of one more are the last of the kept ones and that one. -/
theorem rtake_append_singleton (xs : List δ) (x : δ) (n : Nat) : (xs.rtake n ++ [x]).rtake n = (xs ++ [x]).rtake n := by
  cases n with
  | zero => rw [List.rtake_zero, List.rtake_zero]
  | succ n =>
    rw [List.rtake_concat_succ, List.rtake_concat_succ]
    simp only [List.rtake, List.length_drop, List.drop_drop]
    congr 2
    omega

/-- The state after a history of calls, by what the calls of the history did. -/
structure Tells (latencyWindow : Nat) (history : List (MetricsCall δ)) (m : Metrics δ) : Prop where
  window : m.latencyWindow = latencyWindow
  counter : ∀ name, m.counter name = (history.map (MetricsCall.increases name)).sum
  gauge : ∀ name, m.gauge name = (history.filterMap (MetricsCall.gaugeSet name)).getLast?
  eventTime : ∀ name, m.eventTimes.get name = (history.filterMap (MetricsCall.eventRecorded name)).getLast?
  samples : ∀ name, m.samples name = (history.filterMap (MetricsCall.latencyRecorded name)).rtake latencyWindow

theorem Tells.apply (h : Tells latencyWindow history m) (call : MetricsCall δ) :
    Tells latencyWindow (history ++ [call]) (m.apply call) where
  window := by rw [apply_latencyWindow, h.window]
  counter name := by
    rw [apply_counter, h.counter, List.map_append, List.sum_append]
    simp
  gauge name := by
    rw [apply_gauge, h.gauge, List.filterMap_append, List.getLast?_append]
    cases hset : call.gaugeSet name <;> simp [hset]
  eventTime name := by
    rw [apply_eventTimes, h.eventTime, List.filterMap_append, List.getLast?_append]
    cases hrecorded : call.eventRecorded name <;> simp [hrecorded]
  samples name := by
    rw [apply_samples, h.samples, h.window, List.filterMap_append]
    cases hrecorded : call.latencyRecorded name with
    | none => simp [hrecorded]
    | some seconds =>
      rw [List.filterMap_cons_some hrecorded, List.filterMap_nil]
      exact rtake_append_singleton _ _ _

private theorem tells_history (latencyWindow : Nat) (history : List (MetricsCall δ)) :
    Tells latencyWindow history (history.foldl Metrics.apply (.initial latencyWindow)) := by
  induction history using List.reverseRecOn with
  | nil => exact ⟨rfl, fun _ => rfl, fun _ => rfl, fun _ => rfl, fun _ => (List.rtake_nil _).symm⟩
  | append_singleton history call ih =>
    rw [List.foldl_concat]
    exact ih.apply call

variable [LinearOrder δ] [Zero δ]

/-- The rank that a percentile is taken at. -/
def percentileRank (percent count : Nat) : Nat := min (count - 1) (count * percent / 100)

theorem atRank_pct {samples : List δ} (hsome : samples ≠ []) (percent : Nat) :
    AtRank samples (percentileRank percent samples.length) (Metrics.pct percent (sorted samples)) := by
  have hpositive : 0 < samples.length := List.length_pos_iff.mpr hsome
  have hrank : percentileRank percent samples.length < (sorted samples).length := by
    rw [length_sorted, percentileRank]
    omega
  apply atRank_sorted
  rw [Metrics.pct, length_sorted, ← percentileRank, List.getD_eq_getElem?_getD, List.getElem?_eq_getElem hrank,
    Option.getD_some]

theorem latencyPercentiles_of_none (h : m.samples name = []) : m.latencyPercentiles name = ⟨0, 0, 0⟩ := by
  rw [Metrics.latencyPercentiles, h]
  rfl

theorem latencyPercentiles_of_some {recent : List δ} (hsamples : m.samples name = recent) (hsome : recent ≠ []) :
    m.latencyPercentiles name =
      ⟨Metrics.pct 50 (sorted recent), Metrics.pct 95 (sorted recent), Metrics.pct 99 (sorted recent)⟩ := by
  rw [Metrics.latencyPercentiles, hsamples, if_neg]
  intro hnil
  exact hsome (List.length_eq_zero_iff.mp (by rw [← length_sorted, hnil, List.length_nil]))

/-- After any calls of any threads, a counter is the sum of its increments, a gauge the value
that it was last set to and the time since an event that since it was last recorded; the
percentiles are those of the last samples that fit into the window, each the sample at its rank,
and they do not decrease. -/
theorem metrics_tell_their_history [Sub δ] (latencyWindow : Nat) (history : List (MetricsCall δ)) (name : String) :
    let m : Metrics δ := history.foldl Metrics.apply (.initial latencyWindow)
    let recent := (history.filterMap (MetricsCall.latencyRecorded name)).rtake latencyWindow
    let percentiles := m.latencyPercentiles name
    m.counter name = (history.map (MetricsCall.increases name)).sum ∧
      m.gauge name = (history.filterMap (MetricsCall.gaugeSet name)).getLast? ∧
      (∀ now, m.secondsSinceEvent name now =
        (history.filterMap (MetricsCall.eventRecorded name)).getLast?.map fun eventTime => now - eventTime) ∧
      (recent = [] → percentiles = ⟨0, 0, 0⟩) ∧
      (recent ≠ [] → AtRank recent (percentileRank 50 recent.length) percentiles.p50 ∧
        AtRank recent (percentileRank 95 recent.length) percentiles.p95 ∧
        AtRank recent (percentileRank 99 recent.length) percentiles.p99 ∧
        percentiles.p50 ≤ percentiles.p95 ∧ percentiles.p95 ≤ percentiles.p99) := by
  intro m recent percentiles
  have htells := tells_history latencyWindow history
  have hsamples : m.samples name = recent := htells.samples name
  refine ⟨htells.counter name, htells.gauge name, fun now => ?_, ?_, ?_⟩
  · rw [Metrics.secondsSinceEvent, htells.eventTime]
  · intro hnone
    exact latencyPercentiles_of_none (hsamples.trans hnone)
  · intro hsome
    have hpercentiles : percentiles = _ := latencyPercentiles_of_some hsamples hsome
    have hrank : ∀ low high, low ≤ high → percentileRank low recent.length ≤ percentileRank high recent.length := by
      intro low high hle
      have hproduct : recent.length * low / 100 ≤ recent.length * high / 100 :=
        Nat.div_le_div_right (Nat.mul_le_mul_left _ hle)
      simp only [percentileRank]
      omega
    rw [hpercentiles]
    exact ⟨atRank_pct hsome 50, atRank_pct hsome 95, atRank_pct hsome 99,
      (atRank_pct hsome 50).mono (atRank_pct hsome 95) (hrank 50 95 (by decide)),
      (atRank_pct hsome 95).mono (atRank_pct hsome 99) (hrank 95 99 (by decide))⟩

end History

/-- The oldest of three samples no longer counts in a window of two. -/
example : ((([.recordLatency "query" 9, .recordLatency "query" 1, .increment "extraction_errors" 1,
    .recordLatency "query" 2] : List (MetricsCall Nat)).foldl Metrics.apply (.initial 2)).latencyPercentiles "query") =
      ⟨2, 2, 2⟩ := by
  decide

end GraphifyDaemon
