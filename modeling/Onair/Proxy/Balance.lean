import Onair.Lib.Mealy
import Onair.Lib.Turns
import Onair.Proxy.Selection

/-!
# Balancing

Two strategies balance the load: round robin takes turns among the candidates of a target, whatever
is selected for other targets in between, and the weighted strategy rotates by a random number.

* `SelectionCall`, `Target`, `outcomes`: calls that share the counters, and what those for one
  target give;
* `call_step`: what one call does to the counter of a target;
* **`roundRobin_fair`**: the calls for a target take turns;
* `weightedIndex_eq`: the loop over the weights is the scan of the library;
* **`weighted_exact`**: every candidate is first for as many random numbers as it has weight.
-/

namespace Onair

open Turns

/-! ### Round robin -/

/-- A call of the selection, with the configuration it is made under. -/
structure SelectionCall where
  backends : List ResolvedBackend
  routes : List ResolvedRoute
  request : BackendSelectionRequest
  random : ℕ

/-- What backends are selected for: a model, or a path without a model. -/
inductive Target where
  | model (model : String)
  | path (path : String)
  deriving DecidableEq, Repr

/-- The key under which the turns of a target are counted. -/
def Target.key : Target → String
  | .model name => name
  | .path route => route

namespace SelectionCall

/-- The target of a call. -/
def target (call : SelectionCall) : Target :=
  match call.request.model with
  | some model => .model model
  | none => .path call.request.path

/-- The eligible candidates of a call, in their order. -/
def candidates (call : SelectionCall) : List SelectedRoute :=
  eligibleCandidates call.backends call.routes call.request

/-- One call under the round-robin strategy: the counters afterwards, and what the call gives. -/
def step (counters : RoundRobinCounters) (call : SelectionCall) :
    RoundRobinCounters × List (Target × Except ApiError (List SelectedRoute)) :=
  match selectBackendCandidates call.backends call.routes .roundRobin call.request call.random
      counters with
  | some (result, counters) => (counters, [(call.target, result)])
  | none => (counters, [])

end SelectionCall

/-- What the calls for a target give, in a run of calls for any targets from the given counters. -/
def outcomes (target : Target) (counters : RoundRobinCounters) (calls : List SelectionCall) :
    List (Except ApiError (List SelectedRoute)) :=
  ((Mealy.run SelectionCall.step counters calls).2.filter fun outcome =>
    outcome.1 = target).map Prod.snd

/-- The number of calls for a target. -/
def callCount (target : Target) (calls : List SelectionCall) : ℕ :=
  calls.countP fun call => call.target = target

/-- No public model is named like the path of a call without a model. -/
def NoModelNamedLikePath (calls : List SelectionCall) : Prop :=
  ∀ call ∈ calls, ∀ route ∈ call.routes, ∀ model, route.key = .publicModel model →
    ∀ other ∈ calls, other.target ≠ .path model

section

variable {counters : RoundRobinCounters} {call : SelectionCall} {target : Target}

theorem SelectionCall.key_target (call : SelectionCall) :
    call.request.model.getD call.request.path = call.target.key := by
  unfold SelectionCall.target
  cases call.request.model <;> rfl

/-- A call with candidates starts at the turn of its target, and passes it on. -/
theorem SelectionCall.step_of_ne_nil (h : call.candidates ≠ []) :
    SelectionCall.step counters call =
      (Function.update counters call.target.key (counters call.target.key + 1),
        [(call.target, .ok (call.candidates.rotate
          ((counters call.target.key).toNat % call.candidates.length)))]) := by
  have hlength : call.candidates.length ≠ 0 := fun hzero => h (List.length_eq_zero_iff.mp hzero)
  unfold SelectionCall.step selectBackendCandidates
  obtain ⟨flag, hlist⟩ | ⟨model, -, -, -, hnil⟩ :=
    listCandidates_spec call.backends call.routes call.request
  · rw [hlist]
    change eligibleCandidates call.backends call.routes call.request ≠ [] at h
    change (eligibleCandidates call.backends call.routes call.request).length ≠ 0 at hlength
    simp only [List.isEmpty_iff, h, if_false, orderCandidates, nextIndex, hlength,
      call.key_target, List.rotate_eq_nil_iff]
    rfl
  · exact absurd hnil h

/-- A call without candidates fails, and leaves the turns alone. -/
theorem SelectionCall.step_of_eq_nil (h : call.candidates = []) : ∃ error,
    SelectionCall.step counters call = (counters, [(call.target, .error error)]) := by
  unfold SelectionCall.step selectBackendCandidates
  change eligibleCandidates call.backends call.routes call.request = [] at h
  obtain ⟨flag, hlist⟩ | ⟨model, -, -, hlist, -⟩ :=
    listCandidates_spec call.backends call.routes call.request
  · rw [hlist, h]
    exact ⟨_, rfl⟩
  · rw [hlist]
    exact ⟨_, rfl⟩

theorem SelectionCall.exists_route (h : call.candidates ≠ []) {model : String}
    (htarget : call.target = .model model) :
    ∃ route ∈ call.routes, route.key = .publicModel model := by
  have hmodel : call.request.model = some model := by
    unfold SelectionCall.target at htarget
    cases hm : call.request.model with
    | none => simp [hm] at htarget
    | some m => simpa [hm] using htarget
  unfold SelectionCall.candidates eligibleCandidates at h
  rw [hmodel] at h
  cases hroute : publicRoute call.routes model with
  | none => simp [hroute] at h
  | some route =>
    exact ⟨route, List.mem_of_find?_eq_some hroute, by simpa using List.find?_some hroute⟩

/-- The turns of two targets are counted under different keys, if no model is named like a path. -/
theorem key_ne {calls : List SelectionCall} (hnames : NoModelNamedLikePath calls)
    {a b : SelectionCall} (ha : a ∈ calls) (hb : b ∈ calls) (hcanda : a.candidates ≠ [])
    (hcandb : b.candidates ≠ []) (hne : a.target ≠ b.target) : a.target.key ≠ b.target.key := by
  intro hkey
  cases hta : a.target with
  | model m =>
    cases htb : b.target with
    | model m' =>
      rw [hta, htb] at hkey hne
      exact hne (congrArg Target.model hkey)
    | path p =>
      rw [hta, htb] at hkey
      obtain ⟨route, hroute, hpublic⟩ := SelectionCall.exists_route hcanda hta
      exact hnames a ha route hroute m hpublic b hb (htb.trans (congrArg Target.path hkey.symm))
  | path p =>
    cases htb : b.target with
    | model m =>
      rw [hta, htb] at hkey
      obtain ⟨route, hroute, hpublic⟩ := SelectionCall.exists_route hcandb htb
      exact hnames b hb route hroute m hpublic a ha (hta.trans (congrArg Target.path hkey))
    | path p' =>
      rw [hta, htb] at hkey hne
      exact hne (congrArg Target.path hkey)

theorem outcomes_cons (target : Target) (counters : RoundRobinCounters) (call : SelectionCall)
    (calls : List SelectionCall) : outcomes target counters (call :: calls) =
      (((SelectionCall.step counters call).2.filter fun outcome =>
          outcome.1 = target).map Prod.snd) ++
        outcomes target (SelectionCall.step counters call).1 calls := by
  rw [outcomes, Mealy.run_cons, List.filter_append, List.map_append]
  rfl

theorem callCount_cons (target : Target) (call : SelectionCall) (calls : List SelectionCall) :
    callCount target (call :: calls) =
      if call.target = target then callCount target calls + 1 else callCount target calls := by
  rw [callCount, List.countP_cons]
  by_cases h : call.target = target <;> simp [h, callCount]

theorem outcome_other (target : Target) (counters : RoundRobinCounters) {call : SelectionCall}
    (htarget : call.target ≠ target) :
    ((SelectionCall.step counters call).2.filter fun outcome => outcome.1 = target) = [] := by
  by_cases hcand : call.candidates = []
  · obtain ⟨error, hstep⟩ : ∃ error,
        SelectionCall.step counters call = (counters, [(call.target, .error error)]) :=
      SelectionCall.step_of_eq_nil hcand
    rw [hstep]
    simp [htarget]
  · rw [SelectionCall.step_of_ne_nil hcand]
    simp [htarget]

theorem counter_other (counters : RoundRobinCounters) {call : SelectionCall} {key : String}
    (hkey : call.candidates ≠ [] → key ≠ call.target.key) :
    (SelectionCall.step counters call).1 key = counters key := by
  by_cases hcand : call.candidates = []
  · obtain ⟨error, hstep⟩ : ∃ error,
        SelectionCall.step counters call = (counters, [(call.target, .error error)]) :=
      SelectionCall.step_of_eq_nil hcand
    rw [hstep]
  · rw [SelectionCall.step_of_ne_nil hcand]
    exact Function.update_of_ne (hkey hcand) _ _

theorem outcomes_of_none {calls : List SelectionCall}
    (h : ∀ call ∈ calls, call.target ≠ target) (counters : RoundRobinCounters) :
    outcomes target counters calls = [] := by
  induction calls generalizing counters with
  | nil => rfl
  | cons call calls ih =>
    obtain ⟨hcall, hrest⟩ := List.forall_mem_cons.mp h
    rw [outcomes_cons, outcome_other target counters hcall, ih hrest]
    rfl

theorem callCount_eq_zero {calls : List SelectionCall}
    (h : ∀ call ∈ calls, call.target ≠ target) : callCount target calls = 0 :=
  List.countP_eq_zero.mpr fun call hcall htarget => h call hcall (of_decide_eq_true htarget)

/-- **Calls for a target take turns**, from the turn that its counter is at. -/
theorem outcomes_eq {candidates : List SelectedRoute} (hne : candidates ≠ [])
    {all calls : List SelectionCall} (hsub : ∀ call ∈ calls, call ∈ all)
    (hnames : NoModelNamedLikePath all)
    (hsame : ∀ call ∈ all, call.target = target → call.candidates = candidates)
    (hmem : ∃ call ∈ all, call.target = target) (counters : RoundRobinCounters) :
    outcomes target counters calls = (List.range (callCount target calls)).map fun k =>
      .ok (candidates.rotate
        ((counters target.key + UInt64.ofNat k).toNat % candidates.length)) := by
  induction calls generalizing counters with
  | nil => rfl
  | cons call calls ih =>
    obtain ⟨hcall, hrest⟩ := List.forall_mem_cons.mp hsub
    rw [outcomes_cons, ih hrest, callCount_cons]
    by_cases htarget : call.target = target
    · have hcand : call.candidates = candidates := hsame call hcall htarget
      have hfirst : counters target.key + UInt64.ofNat 0 = counters target.key := UInt64.add_zero _
      have hnext : ∀ k, counters target.key + 1 + UInt64.ofNat k =
          counters target.key + UInt64.ofNat (k + 1) := by
        intro k
        rw [UInt64.add_assoc, UInt64.ofNat_add, UInt64.add_comm 1]
        rfl
      rw [if_pos htarget, List.range_succ_eq_map, List.map_cons, List.map_map,
        SelectionCall.step_of_ne_nil (hcand ▸ hne), hfirst, hcand, htarget]
      simp only [Function.update_self, hnext, decide_true, List.filter_cons_of_pos, List.filter_nil,
        List.map_cons, List.map_nil, List.singleton_append]
      rfl
    · obtain ⟨other, hother, rfl⟩ := hmem
      have hkeep := counter_other counters fun hcand => key_ne hnames hother hcall
        (hsame other hother rfl ▸ hne) hcand (Ne.symm htarget)
      rw [if_neg htarget, outcome_other other.target counters htarget, hkeep]
      rfl

theorem outcomes_start {candidates : List SelectedRoute} (hne : candidates ≠ [])
    {calls : List SelectionCall} (hnames : NoModelNamedLikePath calls)
    (hsame : ∀ call ∈ calls, call.target = target → call.candidates = candidates) :
    outcomes target (fun _ => 0) calls = (List.range (callCount target calls)).map fun k =>
      .ok (candidates.rotate ((UInt64.ofNat k).toNat % candidates.length)) := by
  by_cases hmem : ∃ call ∈ calls, call.target = target
  · rw [outcomes_eq hne (fun _ h => h) hnames hsame hmem]
    simp only [UInt64.zero_add]
  · have hnone : ∀ call ∈ calls, call.target ≠ target := fun call hcall heq =>
      hmem ⟨call, hcall, heq⟩
    rw [outcomes_of_none hnone, callCount_eq_zero hnone]
    rfl

theorem NoModelNamedLikePath.mono {calls before : List SelectionCall}
    (h : NoModelNamedLikePath calls) (hsub : ∀ call ∈ before, call ∈ calls) :
    NoModelNamedLikePath before := fun call hcall route hroute model hmodel other hother =>
  h call (hsub call hcall) route hroute model hmodel other (hsub other hother)

/-- **Round robin is fair**: in every run of calls for any targets, if no public model is named like
a path and all calls for a target have the same candidates, then these calls start at one candidate
after the other, and after any number of them no candidate was first more than once more often than
another. -/
theorem roundRobin_fair {calls : List SelectionCall} (hnames : NoModelNamedLikePath calls)
    {target : Target} {candidates : List SelectedRoute} (hne : candidates ≠ [])
    (hsame : ∀ call ∈ calls, call.target = target → call.candidates = candidates) :
    (outcomes target (fun _ => 0) calls).length = callCount target calls ∧
    (∀ k < callCount target calls, k + 1 < 2 ^ 64 →
      (outcomes target (fun _ => 0) calls)[k]? =
        some (.ok (candidates.rotate (k % candidates.length)))) ∧
    ∀ before after, before ++ after = calls → callCount target before < 2 ^ 64 →
      ∃ starts : List ℕ,
        outcomes target (fun _ => 0) before = starts.map (fun i => .ok (candidates.rotate i)) ∧
        ∀ i < candidates.length, ∀ j < candidates.length, starts.count i ≤ starts.count j + 1 := by
  have hoffset : ∀ k < 2 ^ 64, (UInt64.ofNat k).toNat = k :=
    fun k hk => UInt64.toNat_ofNat_of_lt' hk
  refine ⟨?_, ?_, ?_⟩
  · rw [outcomes_start hne hnames hsame, List.length_map, List.length_range]
  · intro k hk hlt
    rw [outcomes_start hne hnames hsame, List.getElem?_map, List.getElem?_range hk, Option.map_some,
      hoffset k (by omega)]
  · rintro before after rfl hcount
    have hsub : ∀ call ∈ before, call ∈ before ++ after := fun call hcall =>
      List.mem_append_left after hcall
    refine ⟨turns candidates.length (callCount target before), ?_, fun i hi j hj =>
      count_turns_le hi hj _⟩
    rw [outcomes_start hne (hnames.mono hsub) fun call hcall => hsame call (hsub call hcall), turns,
      List.map_map]
    refine List.map_congr_left fun k hk => ?_
    rw [hoffset k ((List.mem_range.mp hk).trans hcount), Function.comp_apply]

end

/-- A route to two backends. -/
def twoBackendsRoute : ResolvedRoute where
  key := .publicModel "gpt"
  backends := [⟨"a", "gpt"⟩, ⟨"b", "gpt"⟩]

/-- A call under a configuration with two backends for one model. -/
def twoBackendsCall (path : String) (model : Option String) : SelectionCall where
  backends := [{ id := "a", supports := {"all"}, weight := 1 },
    { id := "b", supports := {"all"}, weight := 2 }]
  routes := [twoBackendsRoute]
  request := ⟨path, model, false, false, none⟩
  random := 0

/-- A call for the model of the sample. -/
def gptCall : SelectionCall := twoBackendsCall "/v1/chat/completions" (some "gpt")

/-- A call without a model. -/
def modelsCall : SelectionCall := twoBackendsCall "/v1/models" none

/-- The second call for a model starts at the second candidate, with a call for a path in
between. -/
theorem roundRobin_fair_sample :
    (outcomes (.model "gpt") (fun _ => 0) [gptCall, modelsCall, gptCall])[1]? =
      some (.ok (gptCall.candidates.rotate 1)) := by
  have hlength : gptCall.candidates.length = 2 := by decide +kernel
  have hne : gptCall.candidates ≠ [] := by
    intro hnil
    rw [hnil] at hlength
    cases hlength
  have hnames : NoModelNamedLikePath [gptCall, modelsCall, gptCall] := by
    intro call hcall route hroute model hmodel other hother
    have hgpt : model = "gpt" := by
      have hroutes : call.routes = [twoBackendsRoute] := by
        simp only [List.mem_cons, List.not_mem_nil, or_false] at hcall
        rcases hcall with rfl | rfl | rfl <;> rfl
      rw [hroutes] at hroute
      obtain rfl := List.mem_singleton.mp hroute
      exact (RouteKey.publicModel.inj hmodel).symm
    subst hgpt
    revert other
    decide
  have hsame : ∀ call ∈ [gptCall, modelsCall, gptCall], call.target = .model "gpt" →
      call.candidates = gptCall.candidates := by
    intro call hcall htarget
    simp only [List.mem_cons, List.not_mem_nil, or_false] at hcall
    rcases hcall with rfl | rfl | rfl
    · rfl
    · cases htarget
    · rfl
  have hsecond := (roundRobin_fair hnames hne hsame).2.1 1 (by decide) (by decide)
  rwa [hlength] at hsecond

/-! ### By weight -/

/-- The weight of a candidate, as a number. -/
def SelectedRoute.weightNat (candidate : SelectedRoute) : ℕ := candidate.weight.toNat

/-- The sum of all weights. -/
def totalWeight (candidates : List SelectedRoute) : ℕ :=
  (candidates.map SelectedRoute.weightNat).sum

theorem weightedIndex_eq (pick cumulative : ℕ) (candidates : List SelectedRoute) :
    weightedIndex pick cumulative candidates =
      scan SelectedRoute.weightNat pick cumulative candidates := by
  induction candidates generalizing cumulative with
  | nil => rfl
  | cons candidate rest ih =>
    rw [weightedIndex, scan, ih]
    rfl

theorem weightNat_lt (candidate : SelectedRoute) : candidate.weightNat ≤ 2 ^ 32 - 1 :=
  Nat.le_sub_one_of_lt candidate.weight.toNat_lt

theorem totalWeight_pos {candidates : List SelectedRoute} (hpos : ∀ c ∈ candidates, c.weight ≠ 0)
    (hne : candidates ≠ []) : 0 < totalWeight candidates := by
  obtain ⟨c, hc⟩ := List.exists_mem_of_ne_nil candidates hne
  have hweight : 0 < c.weightNat := by
    refine Nat.pos_of_ne_zero fun hzero => hpos c hc ?_
    exact UInt32.toNat_inj.mp hzero
  exact hweight.trans_le (List.single_le_sum (fun _ _ => Nat.zero_le _) _ (List.mem_map_of_mem hc))

theorem weightedRotate_eq {candidates : List SelectedRoute}
    (hpos : ∀ c ∈ candidates, c.weight ≠ 0) (hne : candidates ≠ []) (random : ℕ) :
    ∃ i, weightedIndex (random % totalWeight candidates) 0 candidates = some i ∧
      weightedRotate random candidates = some (candidates.rotate i) := by
  have htotal := totalWeight_pos hpos hne
  have hlt : random % totalWeight candidates < 0 + totalWeight candidates := by
    rw [Nat.zero_add]
    exact Nat.mod_lt random htotal
  obtain ⟨i, hi, hscan⟩ := scan_isSome (Nat.zero_le _) hlt
  rw [← weightedIndex_eq] at hscan
  refine ⟨i, hscan, ?_⟩
  unfold weightedRotate
  dsimp only
  split_ifs with hshort hzero
  · -- the only candidate is at index 0
    obtain rfl : i = 0 := by omega
    rw [List.rotate_zero]
  · exact absurd hzero htotal.ne'
  · have hsum : (candidates.map fun c => c.weight.toNat).sum = totalWeight candidates := rfl
    rw [hsum, hscan]

/-- **Weighted selection is exact**: every random number below the sum of the weights finds an
index, as many of them find a candidate as it has weight, the list is rotated to start there, and no
sum of weights overflows. -/
theorem weighted_exact {candidates : List SelectedRoute}
    (hpos : ∀ c ∈ candidates, c.weight ≠ 0) :
    (∀ pick < totalWeight candidates,
      ∃ i < candidates.length, weightedIndex pick 0 candidates = some i) ∧
    (∀ (i : ℕ) (hi : i < candidates.length),
      ((Finset.range (totalWeight candidates)).filter fun pick =>
        weightedIndex pick 0 candidates = some i).card = candidates[i].weight.toNat) ∧
    (candidates ≠ [] → ∀ random,
      ∃ i, weightedIndex (random % totalWeight candidates) 0 candidates = some i ∧
        weightedRotate random candidates = some (candidates.rotate i)) ∧
    (candidates.length < 2 ^ 32 → ∀ i,
      ((candidates.take i).map fun c => c.weight.toNat).sum < 2 ^ 64) := by
  refine ⟨fun pick hpick => ?_, fun i hi => ?_, weightedRotate_eq hpos, fun hlength i => ?_⟩
  · rw [weightedIndex_eq]
    exact scan_isSome (Nat.zero_le pick) (by rwa [Nat.zero_add])
  · simp only [weightedIndex_eq]
    exact card_scan hi
  · have hsum := sumTake_le (fun c (_ : c ∈ candidates) => weightNat_lt c) i
    calc ((candidates.take i).map fun c => c.weight.toNat).sum
        ≤ candidates.length * (2 ^ 32 - 1) := hsum
      _ ≤ (2 ^ 32 - 1) * (2 ^ 32 - 1) := Nat.mul_le_mul_right _ (by omega)
      _ < 2 ^ 64 := by norm_num

/-- Of three random numbers, two choose the second candidate of the sample. -/
theorem weighted_exact_sample :
    ((Finset.range (totalWeight gptCall.candidates)).filter fun pick =>
      weightedIndex pick 0 gptCall.candidates = some 1).card = 2 := by
  have hweights : gptCall.candidates.map SelectedRoute.weight = [1, 2] := by decide +kernel
  have hpos : ∀ c ∈ gptCall.candidates, c.weight ≠ 0 := by
    intro c hc
    have hmem := List.mem_map_of_mem (f := SelectedRoute.weight) hc
    rw [hweights] at hmem
    intro hzero
    rw [hzero] at hmem
    exact absurd hmem (by decide)
  have hlength : 1 < gptCall.candidates.length := by
    have hlength := congrArg List.length hweights
    rw [List.length_map] at hlength
    exact hlength ▸ Nat.one_lt_two
  have hsecond : gptCall.candidates[1].weight = 2 := by
    have hget := congrArg (·[1]?) hweights
    rw [List.getElem?_map, List.getElem?_eq_getElem hlength] at hget
    exact Option.some.inj hget
  rw [(weighted_exact hpos).2.1 1 hlength, hsecond]
  rfl

end Onair
