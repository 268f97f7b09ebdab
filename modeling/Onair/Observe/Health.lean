import Onair.Lib.Checked
import Onair.Lib.OrdMap
import Onair.Lib.Window

/-!
# The health of backends

`BackendHealthStore` keeps a record for each backend: how its requests and probes ended, and when it
failed lately. The failures are pruned when one is recorded, and not when a snapshot is taken.

* `recordSuccessWithSource`, `recordFailureWithSource`, `snapshot`: the operations of the store;
* `Observation`, `recordAll`: observations of any backends, one after another;
* `failuresSince`, `HealthReflects`: what a snapshot at time `t` ought to say of a backend;
* `recentFailures_recordAll`: the record of a backend holds the window of its failures, by induction
  on the observations; those of other backends leave it alone;
* **`health_reflects_iff`**: a snapshot says this of each backend exactly where the failures of the
  last 60 seconds are those that no later failure has pruned.
-/

namespace Onair

/-! ### Records -/

/-- Where an observation comes from. -/
inductive ObservationSource where
  | traffic
  | probe
  deriving DecidableEq, Repr

/-- The name of a source in a snapshot. -/
def ObservationSource.asStr : ObservationSource → String
  | traffic => "traffic"
  | probe => "probe"

/-- The number of failures that make a backend unhealthy. -/
def unhealthyFailureThreshold : ℕ := 3

/-- The window of failures, in nanoseconds. -/
def failureWindow : ℕ := 60 * 1000000000

/-- What is known of a backend. An instant is given in nanoseconds from the first one that the clock
can represent. -/
structure BackendHealthRecord where
  trafficSuccesses : UInt64 := 0
  trafficFailures : UInt64 := 0
  probeSuccesses : UInt64 := 0
  probeFailures : UInt64 := 0
  recentFailures : List ℕ := []
  lastSuccessUnixMs : Option UInt64 := none
  lastFailureUnixMs : Option UInt64 := none
  lastObservedUnixMs : Option UInt64 := none
  lastStatus : Option UInt16 := none
  lastErrorKind : Option String := none
  lastLatencyMs : Option UInt64 := none
  lastSource : Option ObservationSource := none
  deriving DecidableEq, Repr

namespace BackendHealthRecord

/-- The successes of both sources. -/
def successes (r : BackendHealthRecord) : UInt64 := r.trafficSuccesses + r.probeSuccesses

/-- The failures of both sources. -/
def failures (r : BackendHealthRecord) : UInt64 := r.trafficFailures + r.probeFailures

/-- The status of a backend. -/
def status (r : BackendHealthRecord) : String :=
  if r.lastObservedUnixMs.isNone then "unknown"
  else if r.recentFailures.isEmpty then "healthy"
  else if unhealthyFailureThreshold ≤ r.recentFailures.length then "unhealthy"
  else "degraded"

end BackendHealthRecord

/-- A duration in whole milliseconds. -/
def durationMillis (nanos : ℕ) : UInt64 := .ofNat (min (nanos / 1000000) (2 ^ 64 - 1))

/-- Failures before this instant are pruned when one is recorded: the clock may not reach back by
the window, and then this is the instant itself. -/
def cutoff (now : ℕ) : ℕ := if failureWindow ≤ now then now - failureWindow else now

/-! ### The store -/

/-- The records by backend. -/
abbrev BackendHealthStore := List (String × BackendHealthRecord)

/-- What the clocks say: milliseconds of the wall clock, and an instant. -/
structure Reading where
  unixMs : UInt64
  now : ℕ
  deriving DecidableEq, Repr

namespace BackendHealthStore

/-- The record of a backend, which may be new. -/
def recordOf (store : BackendHealthStore) (backend : String) : BackendHealthRecord :=
  (OrdMap.get backend store).getD {}

/-- Record a success. -/
def recordSuccessWithSource (store : BackendHealthStore) (clock : Reading) (backend : String)
    (latency : ℕ) (status : UInt16) (source : ObservationSource) : BackendHealthStore :=
  let record := store.recordOf backend
  let record := match source with
    | .traffic => { record with trafficSuccesses := saturatingSucc record.trafficSuccesses }
    | .probe => { record with probeSuccesses := saturatingSucc record.probeSuccesses }
  OrdMap.insert backend { record with
    recentFailures := []
    lastSuccessUnixMs := some clock.unixMs
    lastObservedUnixMs := some clock.unixMs
    lastStatus := some status
    lastErrorKind := none
    lastLatencyMs := some (durationMillis latency)
    lastSource := some source } store

/-- Record a failure. -/
def recordFailureWithSource (store : BackendHealthStore) (clock : Reading) (backend : String)
    (latency : ℕ) (status : UInt16) (errorKind : String) (source : ObservationSource) :
    BackendHealthStore :=
  let record := store.recordOf backend
  let record := match source with
    | .traffic => { record with trafficFailures := saturatingSucc record.trafficFailures }
    | .probe => { record with probeFailures := saturatingSucc record.probeFailures }
  OrdMap.insert backend { record with
    recentFailures := Window.push cutoff record.recentFailures clock.now
    lastFailureUnixMs := some clock.unixMs
    lastObservedUnixMs := some clock.unixMs
    lastStatus := some status
    lastErrorKind := some errorKind
    lastLatencyMs := some (durationMillis latency)
    lastSource := some source } store

/-- Record a request that succeeded. -/
def recordSuccess (store : BackendHealthStore) (clock : Reading) (backend : String) (latency : ℕ)
    (status : UInt16) : BackendHealthStore :=
  store.recordSuccessWithSource clock backend latency status .traffic

/-- Record a request that failed. -/
def recordFailure (store : BackendHealthStore) (clock : Reading) (backend : String) (latency : ℕ)
    (status : UInt16) (errorKind : String) : BackendHealthStore :=
  store.recordFailureWithSource clock backend latency status errorKind .traffic

/-- Record a probe that succeeded. -/
def recordProbeSuccess (store : BackendHealthStore) (clock : Reading) (backend : String)
    (latency : ℕ) (status : UInt16) : BackendHealthStore :=
  store.recordSuccessWithSource clock backend latency status .probe

/-- Record a probe that failed. -/
def recordProbeFailure (store : BackendHealthStore) (clock : Reading) (backend : String)
    (latency : ℕ) (status : UInt16) (errorKind : String) : BackendHealthStore :=
  store.recordFailureWithSource clock backend latency status errorKind .probe

end BackendHealthStore

/-- What a snapshot says of a backend. -/
structure BackendHealthSnapshot where
  backend : String
  status : String
  successes : UInt64
  failures : UInt64
  trafficSuccesses : UInt64
  trafficFailures : UInt64
  probeSuccesses : UInt64
  probeFailures : UInt64
  consecutiveFailures : ℕ
  lastSuccessUnixMs : Option UInt64
  lastFailureUnixMs : Option UInt64
  lastObservedUnixMs : Option UInt64
  lastStatus : Option UInt16
  lastErrorKind : Option String
  lastLatencyMs : Option UInt64
  lastSource : Option String
  deriving DecidableEq, Repr

/-- The snapshot of a record. -/
def BackendHealthRecord.snapshot (r : BackendHealthRecord) (backend : String) :
    BackendHealthSnapshot where
  backend := backend
  status := r.status
  successes := r.successes
  failures := r.failures
  trafficSuccesses := r.trafficSuccesses
  trafficFailures := r.trafficFailures
  probeSuccesses := r.probeSuccesses
  probeFailures := r.probeFailures
  consecutiveFailures := r.recentFailures.length
  lastSuccessUnixMs := r.lastSuccessUnixMs
  lastFailureUnixMs := r.lastFailureUnixMs
  lastObservedUnixMs := r.lastObservedUnixMs
  lastStatus := r.lastStatus
  lastErrorKind := r.lastErrorKind
  lastLatencyMs := r.lastLatencyMs
  lastSource := r.lastSource.map ObservationSource.asStr

/-- A snapshot of the configured backends. -/
def BackendHealthStore.snapshot (store : BackendHealthStore) (configuredBackends : List String) :
    List BackendHealthSnapshot :=
  configuredBackends.map fun backend => (store.recordOf backend).snapshot backend

/-! ### Observations -/

/-- How a request or probe ended. -/
inductive Outcome where
  | success
  | failure (errorKind : String)
  deriving DecidableEq, Repr

/-- A request to a backend or a probe of it that ended. -/
structure Observation where
  backend : String
  source : ObservationSource
  outcome : Outcome
  latency : ℕ
  status : UInt16
  clock : Reading
  deriving DecidableEq, Repr

namespace Observation

/-- The observation is of a failure. -/
def failed (o : Observation) : Bool := o.outcome != .success

/-- Record an observation. -/
def record (store : BackendHealthStore) (o : Observation) : BackendHealthStore :=
  match o.source, o.outcome with
  | .traffic, .success => store.recordSuccess o.clock o.backend o.latency o.status
  | .traffic, .failure errorKind =>
    store.recordFailure o.clock o.backend o.latency o.status errorKind
  | .probe, .success => store.recordProbeSuccess o.clock o.backend o.latency o.status
  | .probe, .failure errorKind =>
    store.recordProbeFailure o.clock o.backend o.latency o.status errorKind

end Observation

/-- The store after some observations. -/
def recordAll (os : List Observation) : BackendHealthStore := os.foldl Observation.record []

/-- When a backend failed since its last success. -/
def failuresSince (backend : String) (os : List Observation) : List ℕ :=
  ((os.filter (·.backend == backend)).rtakeWhile Observation.failed).map (·.clock.now)

/-- The status of a backend by the number of its failures. -/
def statusOf (observed : Bool) (failures : ℕ) : String :=
  if !observed then "unknown"
  else if failures = 0 then "healthy"
  else if failures < 3 then "degraded"
  else "unhealthy"

/-- What a snapshot at `t` ought to say of a backend: how often it failed since its last success and
in the last 60 seconds, and the status by this number. -/
def HealthReflects (os : List Observation) (t : ℕ) (s : BackendHealthSnapshot) : Prop :=
  let failures := (failuresSince s.backend os).countP fun f => f ≤ t ∧ t ≤ f + failureWindow
  s.consecutiveFailures = failures ∧
    s.status = statusOf (os.any (·.backend == s.backend)) failures

/-- The failures of the last 60 seconds before `t` are those that no later failure has pruned. -/
def Pruned (t : ℕ) (failures : List ℕ) : Prop :=
  ∀ f later, f :: later <:+ failures → (t ≤ f + failureWindow ↔ ∀ g ∈ later, cutoff g ≤ f)

/-! ### What a record holds -/

section Runs

variable {os : List Observation} {backend : String}

theorem recordOf_record_ne (store : BackendHealthStore) {o : Observation}
    (h : backend ≠ o.backend) :
    (Observation.record store o).recordOf backend = store.recordOf backend := by
  have hinsert : ∀ r, BackendHealthStore.recordOf (OrdMap.insert o.backend r store) backend =
      store.recordOf backend := fun r =>
    congrArg (·.getD {}) (OrdMap.get_insert_ne h r store)
  unfold Observation.record
  split <;> exact hinsert _

theorem recordOf_insert_self (store : BackendHealthStore) (backend : String)
    (r : BackendHealthRecord) :
    BackendHealthStore.recordOf (OrdMap.insert backend r store) backend = r :=
  congrArg (·.getD {}) (OrdMap.get_insert_self backend r store)

theorem recordOf_record_self (store : BackendHealthStore) (o : Observation) :
    ((Observation.record store o).recordOf o.backend).recentFailures =
        (if o.failed then Window.push cutoff (store.recordOf o.backend).recentFailures o.clock.now
          else []) ∧
      ((Observation.record store o).recordOf o.backend).lastObservedUnixMs =
        some o.clock.unixMs := by
  obtain ⟨backend, source, outcome, latency, status, clock⟩ := o
  cases source <;> cases outcome <;>
    exact ⟨congrArg _ (recordOf_insert_self ..), congrArg _ (recordOf_insert_self ..)⟩

theorem recordAll_append (os : List Observation) (o : Observation) :
    recordAll (os ++ [o]) = Observation.record (recordAll os) o := by
  rw [recordAll, List.foldl_append]
  rfl

theorem failuresSince_append_ne {o : Observation} (h : o.backend ≠ backend) :
    failuresSince backend (os ++ [o]) = failuresSince backend os := by
  rw [failuresSince, List.filter_append, List.filter_cons_of_neg (by simpa using h)]
  simp [failuresSince]

theorem failuresSince_append_self (os : List Observation) (o : Observation) :
    failuresSince o.backend (os ++ [o]) =
      if o.failed then failuresSince o.backend os ++ [o.clock.now] else [] := by
  rw [failuresSince, List.filter_append, List.filter_cons_of_pos (by simp), List.filter_nil,
    List.rtakeWhile_concat]
  split_ifs
  · rw [List.map_append]
    rfl
  · rfl

/-- The record of a backend holds the window of its failures since its last success. -/
theorem recentFailures_recordAll (os : List Observation) (backend : String) :
    ((recordAll os).recordOf backend).recentFailures =
      Window.window cutoff (failuresSince backend os) := by
  induction os using List.reverseRecOn with
  | nil => rfl
  | append_singleton os o ih =>
    rw [recordAll_append]
    by_cases h : o.backend = backend
    · subst h
      rw [(recordOf_record_self _ o).1, failuresSince_append_self, ih]
      split_ifs
      · rw [Window.window, Window.window, List.foldl_append]
        rfl
      · rfl
    · rw [recordOf_record_ne _ (Ne.symm h), ih, failuresSince_append_ne h]

/-- A backend was observed exactly if its record says when. -/
theorem lastObserved_recordAll (os : List Observation) (backend : String) :
    ((recordAll os).recordOf backend).lastObservedUnixMs.isNone =
      !os.any (·.backend == backend) := by
  induction os using List.reverseRecOn with
  | nil => rfl
  | append_singleton os o ih =>
    rw [recordAll_append, List.any_append]
    by_cases h : o.backend = backend
    · subst h
      rw [(recordOf_record_self _ o).2]
      simp
    · rw [recordOf_record_ne _ (Ne.symm h), ih]
      simp [h]

theorem cutoff_le (now : ℕ) : cutoff now ≤ now := by
  unfold cutoff
  split_ifs
  · exact Nat.sub_le _ _
  · exact le_rfl

theorem failuresSince_pairwise (h : os.Pairwise fun o p => o.clock.now ≤ p.clock.now) :
    (failuresSince backend os).Pairwise (· ≤ ·) := by
  refine List.Pairwise.map _ (fun o p hop => hop) ?_
  exact h.sublist ((List.rtakeWhile_suffix _ _).sublist.trans List.filter_sublist)

theorem failuresSince_le {t : ℕ} (ht : ∀ o ∈ os, o.clock.now ≤ t) :
    ∀ f ∈ failuresSince backend os, f ≤ t := by
  intro f hf
  obtain ⟨o, ho, rfl⟩ := List.mem_map.mp hf
  exact ht o ((List.rtakeWhile_suffix _ _).sublist.trans List.filter_sublist |>.subset ho)

theorem pruned_iff {t : ℕ} {failures : List ℕ} :
    Pruned t failures ↔ Window.Exact cutoff (t - failureWindow) failures := by
  simp only [Pruned, Window.Exact, Nat.sub_le_iff_le_add]

/-- The number in a snapshot is that of the failures in the window exactly where these are the ones
that have not been pruned. -/
theorem recentFailures_length_iff (h : os.Pairwise fun o p => o.clock.now ≤ p.clock.now) {t : ℕ}
    (ht : ∀ o ∈ os, o.clock.now ≤ t) :
    ((recordAll os).recordOf backend).recentFailures.length =
        (failuresSince backend os).countP (fun f => f ≤ t ∧ t ≤ f + failureWindow) ↔
      Pruned t (failuresSince backend os) := by
  have hsorted : (failuresSince backend os).Pairwise (· ≤ ·) := failuresSince_pairwise h
  have hcount : (failuresSince backend os).countP (fun f => f ≤ t ∧ t ≤ f + failureWindow) =
      (failuresSince backend os).countP (fun f => t ≤ f + failureWindow) := by
    refine List.countP_congr fun f hf => ?_
    have hle : f ≤ t := failuresSince_le ht f hf
    simp [hle]
  rw [hcount, recentFailures_recordAll, Window.window_eq_kept cutoff_le hsorted, pruned_iff,
    ← Window.length_kept_eq_iff hsorted, List.countP_eq_length_filter]
  simp only [Nat.sub_le_iff_le_add]

theorem status_recordAll (os : List Observation) (backend : String) :
    ((recordAll os).recordOf backend).status =
      statusOf (os.any (·.backend == backend))
        ((recordAll os).recordOf backend).recentFailures.length := by
  rw [BackendHealthRecord.status, statusOf, lastObserved_recordAll]
  generalize ((recordAll os).recordOf backend).recentFailures = l
  generalize (!os.any (·.backend == backend)) = unobserved
  cases unobserved with
  | true => rfl
  | false =>
    cases l with
    | nil => rfl
    | cons f l =>
      simp only [Bool.false_eq_true, if_false, List.isEmpty_cons, List.length_eq_zero_iff,
        reduceCtorEq]
      by_cases hl : unhealthyFailureThreshold ≤ (f :: l).length
      · have hthree : ¬ (f :: l).length < 3 := Nat.not_lt.mpr hl
        rw [if_pos hl, if_neg hthree]
      · have hthree : (f :: l).length < 3 := Nat.lt_of_not_le hl
        rw [if_neg hl, if_pos hthree]

/-- **A snapshot at `t` counts the failures of the last 60 seconds exactly where these are the ones
that no later failure has pruned.** -/
theorem health_reflects_iff (os : List Observation)
    (h : os.Pairwise fun o p => o.clock.now ≤ p.clock.now) (t : ℕ) (ht : ∀ o ∈ os, o.clock.now ≤ t)
    (configuredBackends : List String) :
    (∀ s ∈ (recordAll os).snapshot configuredBackends, HealthReflects os t s) ↔
      ∀ backend ∈ configuredBackends, Pruned t (failuresSince backend os) := by
  rw [BackendHealthStore.snapshot, List.forall_mem_map]
  refine forall₂_congr fun backend _ => ?_
  rw [← recentFailures_length_iff h ht]
  constructor
  · intro hr
    exact hr.1
  · intro hcount
    refine ⟨hcount, ?_⟩
    change ((recordAll os).recordOf backend).status = statusOf _ _
    rw [status_recordAll, hcount]
    rfl

end Runs

/-! ### A failure and what a minute makes of it -/

/-- A request that failed to connect, at the given second. -/
def connectFailure (second : ℕ) : Observation where
  backend := "gpu"
  source := .traffic
  outcome := .failure "connect"
  latency := 0
  status := 502
  clock := ⟨0, second * 1000000000⟩

/-- Two failures a minute and a second apart: the second prunes the first. -/
theorem health_reflects_pruned :
    HealthReflects [connectFailure 100, connectFailure 161] (161 * 1000000000)
      (((recordAll [connectFailure 100, connectFailure 161]).recordOf "gpu").snapshot "gpu") := by
  refine (health_reflects_iff _ (by decide) _ (by decide) ["gpu"]).mpr ?_ _
    (List.mem_singleton.mpr rfl)
  refine List.forall_mem_singleton.mpr (pruned_iff.mpr ?_)
  have hsince : failuresSince "gpu" [connectFailure 100, connectFailure 161] =
      [100 * 1000000000, 161 * 1000000000] := rfl
  rw [hsince, Window.exact_cons, Window.exact_cons]
  exact ⟨by decide, by decide, fun f later hs => absurd (List.suffix_nil.mp hs) (by simp)⟩

/-- A failure that is a minute and a second old is still counted. -/
theorem not_health_reflects_old :
    ¬ ∀ (os : List Observation) (t : ℕ), os.Pairwise (fun o p => o.clock.now ≤ p.clock.now) →
      (∀ o ∈ os, o.clock.now ≤ t) → ∀ configuredBackends : List String,
        ∀ s ∈ (recordAll os).snapshot configuredBackends, HealthReflects os t s := by
  intro h
  have hold := h [connectFailure 100] (161 * 1000000000) (by decide) (by decide) ["gpu"] _
    (List.mem_singleton.mpr rfl)
  exact absurd hold.1 (by decide +kernel)

end Onair
