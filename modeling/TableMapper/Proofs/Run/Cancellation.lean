import Mathlib.Data.List.Infix
import TableMapper.Proofs.Run.Halting
import TableMapper.Proofs.Run.Regeneration

/-!
# Cancelled runs

A run asks whether to stop once for each specification, once for each table
and once for each file, and at no other time. **A run that is told to stop at
some point has done what the same run does up to this point when it is not
told to stop**: its outcomes are the first ones, its warnings are the first
ones, and the tree is the one behind the files written so far
(`Job.cancelled_after`). If it is never told to stop as long as it asks, the
two runs are the same.
-/

namespace TableMapper

namespace StopSignal

variable {stop : StopSignal} {asked m n : Nat}

/-- **The answer is to go on a number of times**, and then to stop. -/
def StopsAfter (stop : StopSignal) (n : Nat) : Prop :=
  stop.IsSilent 0 n ∧ stop n = true

theorem IsSilent.mono (h : stop.IsSilent asked n) (hle : m ≤ n) : stop.IsSilent asked m :=
  fun i hi => h i (Nat.lt_of_lt_of_le hi hle)

theorem stopsAfter_after (n : Nat) : (after n).StopsAfter n := by
  refine ⟨fun i hi => ?_, ?_⟩
  · simpa [after] using hi
  · simp [after]

end StopSignal

/-- A list around one of its members. -/
theorem List.exists_take_append_cons {α : Type} {l : List α} {k : Nat} (h : k < l.length) :
    ∃ x, l = l.take k ++ x :: l.drop (k + 1) ∧ (l.take k).length = k :=
  ⟨l[k], by rw [List.getElem_cons_drop, List.take_append_drop],
    List.length_take_of_le (Nat.le_of_lt h)⟩

/-- Of specifications introspected one after another the first ones come
first. -/
theorem Introspection.exists_introspectAll_append {settings : Settings} {source : MetadataSource}
    {front rest : List TableSpec} {found : Warned (List TableModel)}
    (h : introspectAll settings source (front ++ rest) = .ok found) :
    ∃ first warnings, introspectAll settings source front = .ok first ∧
      found.warnings = first.warnings ++ warnings := by
  induction front generalizing found with
  | nil => exact ⟨_, found.warnings, rfl, rfl⟩
  | cons spec front ih =>
    obtain ⟨one, hone, h⟩ := Except.exists_of_bind_eq_ok h
    obtain ⟨others, hothers, h⟩ := Except.exists_of_bind_eq_ok h
    cases h
    obtain ⟨first, warnings, hfirst, hwarnings⟩ := ih hothers
    refine ⟨⟨one.warnings ++ first.warnings, one.value ++ first.value⟩, warnings, ?_, ?_⟩
    · rw [introspectAll, hone, hfirst]
      rfl
    · rw [hwarnings, List.append_assoc]

namespace Job

variable {job : Job} {tree tree' : FileTree} {source : MetadataSource} {plugins : PluginChain}
  {found : Warned (List TableModel)} {ws : List Written} {k : Nat}

/-! ## Where a run is cancelled -/

section

variable (hprepares : job.Prepares tree source plugins)
  (hfound : Introspection.introspectAll job.settings source job.settings.effectiveSpecs = .ok found)
include hprepares hfound

theorem cancelled_at_spec (hk : k < job.settings.effectiveSpecs.length)
    (hstop : job.stop.StopsAfter k) :
    ∃ warnings, job.Halts tree .cancelled ⟨[], warnings⟩ tree ∧ warnings <+: found.warnings := by
  obtain ⟨spec, hsplit, hlength⟩ := List.exists_take_append_cons hk
  obtain ⟨first, warnings, hfirst, hwarnings⟩ :=
    Introspection.exists_introspectAll_append (hsplit ▸ hfound)
  refine ⟨first.warnings, halts_iff.2 ?_, warnings, hwarnings.symm⟩
  exact .introspecting hprepares hsplit hfirst (hlength.symm ▸ hstop.1) []
    (.cancelled (hlength.symm ▸ hstop.2))

theorem cancelled_at_table (hk : k < found.value.length)
    (hstop : job.stop.StopsAfter (job.settings.effectiveSpecs.length + k)) :
    job.Halts tree .cancelled ⟨[], found.warnings ++ job.warningsOf (found.value.take k)⟩ tree := by
  obtain ⟨table, hsplit, hlength⟩ := List.exists_take_append_cons hk
  exact halts_iff.2 (.generating hprepares hfound hsplit (hlength.symm ▸ hstop.1)
    (hlength.symm ▸ hstop.2))

theorem cancelled_at_file
    (hwrites : Writing.Writes job.settings tree (job.artifactsOf plugins found.value) ws tree')
    (hk : k < (job.artifactsOf plugins found.value).length)
    (hstop : job.stop.StopsAfter (job.settings.effectiveSpecs.length + (found.value.length + k))) :
    ∃ tree'', Writing.Writes job.settings tree ((job.artifactsOf plugins found.value).take k)
      (ws.take k) tree'' ∧
      job.Halts tree .cancelled ⟨(ws.take k).map (·.outcome),
        found.warnings ++ job.warningsOf found.value ++ (ws.take k).flatMap
          (·.warnings)⟩ tree'' := by
  obtain ⟨a, hsplit, hlength⟩ := List.exists_take_append_cons hk
  obtain ⟨ws₁, ws₂, mid, rfl, hfront, -⟩ := Writing.Writes.exists_append (hsplit ▸ hwrites)
  have htake : (ws₁ ++ ws₂).take k = ws₁ := List.take_left' (hfront.length_eq.trans hlength)
  rw [htake]
  refine ⟨mid, hfront, halts_iff.2 ?_⟩
  exact .writing hprepares hfound hsplit hfront (hlength.symm ▸ hstop.1) []
    (.cancelled (hlength.symm ▸ hstop.2))

end

/-! ## Two runs -/

/-- The models of the tables, if the metadata can be had and introspected. -/
def models (job : Job) (tree : FileTree) : List TableModel :=
  match job.metadata tree with
  | .error _ => []
  | .ok source =>
    match Introspection.introspectAll job.settings source job.settings.effectiveSpecs with
    | .error _ => []
    | .ok found => found.value

/-- The artifacts of these tables, if the plugins are known. -/
def artifacts (job : Job) (tree : FileTree) : List Artifact :=
  match job.pluginChain with
  | .error _ => []
  | .ok plugins => job.artifactsOf plugins (job.models tree)

theorem models_eq (hprepares : job.Prepares tree source plugins)
    (hfound : Introspection.introspectAll job.settings source job.settings.effectiveSpecs
        = .ok found) :
    job.models tree = found.value := by
  simp only [models, hprepares.metadata, hfound]

theorem artifacts_eq (hprepares : job.Prepares tree source plugins)
    (hfound : Introspection.introspectAll job.settings source job.settings.effectiveSpecs
        = .ok found) :
    job.artifacts tree = job.artifactsOf plugins found.value := by
  simp only [artifacts, hprepares.plugins, models_eq hprepares hfound]

/-- **A run that is told to stop has done what comes first.** It is compared
with the same run that is never told to stop: one that has asked for longer
than there are specifications and tables has written as many files as it has
asked further times, and one that has not has written nothing. -/
theorem cancelled_after {report : Report} {stop : StopSignal}
    (hrun : { job with stop := .never }.Completes tree report tree') (hstop : stop.StopsAfter k) :
    (k < job.settings.effectiveSpecs.length + (job.models tree).length +
      (job.artifacts tree).length →
      ∃ c tree'', { job with stop }.Halts tree .cancelled c tree'' ∧
        c.files = report.files.take
          (k - (job.settings.effectiveSpecs.length + (job.models tree).length)) ∧
        c.warnings <+: report.warnings ∧
        (∃ ws, Writing.Writes job.settings tree
            ((job.artifacts tree).take
              (k - (job.settings.effectiveSpecs.length + (job.models tree).length))) ws tree'' ∧
          ws.map (·.outcome) = c.files) ∧
        (k ≤ job.settings.effectiveSpecs.length + (job.models tree).length → tree'' = tree)) ∧
    (job.settings.effectiveSpecs.length + (job.models tree).length +
      (job.artifacts tree).length ≤ k →
      { job with stop }.Completes tree report tree') := by
  obtain ⟨source, plugins, found, ws, hmetadata, hplugins, hfound, hwrites, -, rfl⟩ :=
    completes_iff.1 hrun
  have hprepares : job.Prepares tree source plugins := ⟨hmetadata, hplugins⟩
  have hprepares' : { job with stop }.Prepares tree source plugins := ⟨hmetadata, hplugins⟩
  rw [artifacts_eq hprepares hfound, models_eq hprepares hfound]
  constructor
  · intro hk
    -- in front of a specification or of a table nothing has been written, and the warnings are
    -- those so far
    by_cases hspec : k < job.settings.effectiveSpecs.length
    · obtain ⟨warnings, hhalts, hbefore⟩ := cancelled_at_spec hprepares' hfound hspec hstop
      have hnone : k - (job.settings.effectiveSpecs.length + found.value.length) = 0 := by omega
      rw [hnone]
      refine ⟨_, _, hhalts, rfl, ?_, ⟨[], .nil tree, rfl⟩, fun _ => rfl⟩
      exact hbefore.trans (by rw [List.append_assoc]; exact List.prefix_append _ _)
    by_cases htable : k < job.settings.effectiveSpecs.length + found.value.length
    · obtain ⟨j, rfl⟩ : ∃ j, k = job.settings.effectiveSpecs.length + j :=
        ⟨_, (Nat.add_sub_cancel' (by omega)).symm⟩
      have hhalts := cancelled_at_table hprepares' hfound (by omega) hstop
      have hnone : job.settings.effectiveSpecs.length + j -
          (job.settings.effectiveSpecs.length + found.value.length) = 0 := by omega
      rw [hnone]
      refine ⟨_, _, hhalts, rfl, ?_, ⟨[], .nil tree, rfl⟩, fun _ => rfl⟩
      have hbefore : job.warningsOf (found.value.take j) <+: job.warningsOf found.value :=
        (List.take_prefix j found.value).flatMap _
      exact ((List.prefix_append_right_inj found.warnings).2 hbefore).trans (List.prefix_append _ _)
    · -- in front of a file those before it have been written
      obtain ⟨j, rfl⟩ : ∃ j, k = job.settings.effectiveSpecs.length + (found.value.length + j) :=
        ⟨k - (job.settings.effectiveSpecs.length + found.value.length), by omega⟩
      have hfile : j < (job.artifactsOf plugins found.value).length := by omega
      obtain ⟨tree'', hfirst, hhalts⟩ := cancelled_at_file hprepares' hfound hwrites hfile hstop
      rw [← Nat.add_assoc, Nat.add_sub_cancel_left]
      refine ⟨_, _, hhalts, List.map_take, ?_, ⟨_, hfirst, rfl⟩, fun hle => ?_⟩
      · have hbefore : (ws.take j).flatMap (·.warnings) <+: ws.flatMap (·.warnings) :=
          (List.take_prefix j ws).flatMap _
        exact (List.prefix_append_right_inj _).2 hbefore
      · obtain rfl : j = 0 := by omega
        cases hfirst
        rfl
  · intro hk
    have hsilent := hstop.1.mono (Nat.add_assoc _ _ _ ▸ hk)
    exact completes_iff.2
      ⟨source, plugins, found, ws, hmetadata, hplugins, hfound, hwrites, hsilent, rfl⟩

/-- A run over the table `orders` for its record and its query condition. -/
def ordersJob : Job where
  settings :=
    { targetProject := "j", modelPackage := "a", queryPackage := "a", tables := [.named "orders"] }
  source := some Settings.orders
  generators := [.record, .queryCondition]

/-- Told to stop when it asks for the fourth time, the run has written one
file: before, it has asked for the specification, the table and this file. -/
theorem cancelled_after_record : ∃ c tree'', { ordersJob with stop := .after 3 }.Halts {} .cancelled c tree'' ∧
    c.files = [⟨.created, "j/a/Orders.java"⟩] := by
  have hgoes : (ordersJob.generate {}).1.toOption.isSome = true ∧
      (ordersJob.generate {}).2.report.files.take (3 - 2) = [⟨.created, "j/a/Orders.java"⟩] := by
    decide +kernel
  have hcounts : ordersJob.settings.effectiveSpecs.length + (ordersJob.models {}).length = 2 ∧
      (ordersJob.artifacts {}).length = 2 := by decide +kernel
  have hrun : { ordersJob with stop := .never }.Completes {} (ordersJob.generate {}).2.report
      (ordersJob.generate {}).2.tree := by
    refine ⟨(ordersJob.generate {}).2, ?_, rfl, rfl⟩
    show ordersJob.generate {} = _
    cases hresult : (ordersJob.generate {}).1 with
    | error halt =>
      rw [hresult] at hgoes
      exact nomatch hgoes.1
    | ok u => rw [← hresult]
  have hcancelled := (cancelled_after hrun (StopSignal.stopsAfter_after 3)).1
  rw [hcounts.1, hcounts.2] at hcancelled
  obtain ⟨c, tree'', hhalts, htake, -⟩ := hcancelled (by decide)
  exact ⟨c, tree'', hhalts, htake.trans hgoes.2⟩

end Job

end TableMapper
