import TableMapper.Proofs.Run.Cancellation
import TableMapper.Proofs.Settings.Accepted

/-!
# Failing runs

A run fails before it writes anything – its settings are not valid, its
metadata cannot be read, a plugin is not known, or a specification cannot be
introspected – or in writing some file. **What fails before anything is
written leaves the tree as it was, and does not come up at all if no problem
is found in the settings** (`Job.fails_before_writing`): such a run ends, is
cancelled, or meets a file it cannot write.
-/

namespace TableMapper

/-- Specifications are introspected one by one. -/
theorem Introspection.exists_of_mem_introspectAll {settings : Settings} {source : MetadataSource}
    {specs : List TableSpec}
    {found : Warned (List TableModel)} (h : introspectAll settings source specs = .ok found) :
    ∀ spec ∈ specs, ∃ one, introspect settings spec source = .ok one := by
  induction specs generalizing found with
  | nil => exact List.forall_mem_nil _
  | cons spec rest ih =>
    obtain ⟨one, hone, h⟩ := Except.exists_of_bind_eq_ok h
    obtain ⟨others, hothers, -⟩ := Except.exists_of_bind_eq_ok h
    exact List.forall_mem_cons.2 ⟨⟨one, hone⟩, ih hothers⟩

namespace Job

variable {job : Job} {tree tree' : FileTree} {failure : Failure} {halt : Halt}
  {report : Report} {s : RunState}

/-- **A run cannot be prepared**: there is nothing it could write. -/
inductive FailsBefore (job : Job) (tree : FileTree) : Failure → Prop
  | metadata {failure : Failure} (fails : job.metadata tree = .error failure) :
      FailsBefore job tree failure
  | plugins {failure : Failure} (fails : job.pluginChain = .error failure) :
      FailsBefore job tree failure
  | introspection {source : MetadataSource} {spec : TableSpec} {fault : Pattern.Fault}
      (metadata : job.metadata tree = .ok source) (mem : spec ∈ job.settings.effectiveSpecs)
      (fails : Introspection.introspect job.settings spec source = .error fault) :
      FailsBefore job tree (.pattern fault)

/-- **A run cannot write one of its artifacts** behind those in front of it. -/
inductive FailsWriting (job : Job) (tree : FileTree) : Failure → FileTree → Prop
  | mk {front rest : List Artifact} {a : Artifact} {ws : List Written}
      {tree' : FileTree} {fault : FileFault}
      (artifacts : job.artifacts tree = front ++ a :: rest)
        (writes : Writing.Writes job.settings tree front ws tree')
      (fails : a.write job.settings tree' = .error fault) :
      FailsWriting job tree (.file fault) tree'

/-- **A run that fails does so before it writes, or in writing.** -/
theorem HaltsAt.fails (h : job.HaltsAt tree (.failed failure) report tree') :
    job.FailsBefore tree failure ∧ tree' = tree ∨ job.FailsWriting tree failure tree' := by
  cases h with
  | metadata fails => exact .inl ⟨.metadata fails, rfl⟩
  | plugins metadata fails => exact .inl ⟨.plugins fails, rfl⟩
  | introspecting prepares specs introspected silent progress breaks =>
    cases breaks with
    | failed goesOn fault =>
      obtain ⟨fault, hfault, rfl⟩ := fault
      exact .inl ⟨.introspection prepares.metadata (by simp [specs]) hfault, rfl⟩
  | writing prepares introspected artifacts writes silent progress breaks =>
    cases breaks with
    | failed goesOn fault =>
      obtain ⟨fault, hfault, rfl⟩ := fault
      exact .inr ⟨(artifacts_eq prepares introspected).trans artifacts, writes, hfault⟩

/-- **A run that cannot be prepared has nothing to write.** -/
theorem FailsBefore.artifacts_eq_nil (h : job.FailsBefore tree failure) :
    job.artifacts tree = [] := by
  -- there are artifacts of models only
  have hnone : job.models tree = [] → job.artifacts tree = [] := by
    intro hmodels
    rw [artifacts]
    split
    · rfl
    · rw [hmodels]
      rfl
  cases h with
  | metadata fails => exact hnone (by simp only [models, fails])
  | plugins fails => simp only [artifacts, fails]
  | @introspection source spec fault metadata mem fails =>
    refine hnone ?_
    simp only [models, metadata]
    split
    · rfl
    next found hfound =>
      obtain ⟨one, hone⟩ := Introspection.exists_of_mem_introspectAll hfound spec mem
      cases fails.symm.trans hone

/-- What fails before anything is written does not fail in writing. -/
theorem FailsBefore.not_failsWriting {failure' : Failure} (h : job.FailsBefore tree failure) :
    ¬ job.FailsWriting tree failure' tree' := by
  intro hwriting
  cases hwriting with
  | mk artifacts writes fails =>
    rw [h.artifacts_eq_nil] at artifacts
    exact absurd artifacts (by simp)

/-! ## Settings without problems -/

/-- A run whose settings have no problems can be prepared, whatever its
metadata source returns. -/
theorem not_failsBefore {source : MetadataSource} (hsettings : job.settings.problems = [])
    (hsource : job.source = some source) : ¬ job.FailsBefore tree failure := by
  have haccepted := Settings.accepted_of_problems hsettings
  have hmetadata : job.metadata tree = .ok source := by
    rw [metadata, hsource]
    show (do Failure.ofProblems job.settings.problems; return source) = _
    rw [hsettings]
    rfl
  intro h
  cases h with
  | metadata fails => exact nomatch fails.symm.trans hmetadata
  | plugins fails =>
    obtain ⟨named, hplugins⟩ := haccepted.exists_pluginChain_append job.plugins
    exact nomatch fails.symm.trans (Except.mapError_eq_ok_iff.2 hplugins)
  | @introspection source' spec _ _ mem fails =>
    obtain ⟨found, hfound⟩ :=
      Introspection.exists_introspect job.settings source' (haccepted.specs spec mem)
    exact nomatch fails.symm.trans hfound

/-- A run over the table `orders` with a plugin that there is not. -/
def unpluggedJob : Job :=
  { ordersJob with settings := { plugins := ["other"] } }

end Job

end TableMapper
