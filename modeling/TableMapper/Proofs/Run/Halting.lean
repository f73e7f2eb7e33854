import TableMapper.Proofs.Run.Phases

/-!
# Where a run halts

A part of a run that gives no result halts, and keeps the state it has
reached. Each phase halts in front of one of its items, or at this item:
those before it have gone through, and the run was told to stop or something
failed (`StopSignal.Breaks`). **In the state that is left the phases before
and the items before have had their effect, and nothing else has**
(`Job.halts_introspectSpecs`, `Job.halts_generateTables`,
`Job.halts_writeFiles`).
-/

namespace TableMapper

/-- **Why a run does not go on** at an item that it would report: it asks and is
told to stop, or it goes on, reports the item, and fails. -/
inductive StopSignal.Breaks (stop : StopSignal) (asked : Nat) (item : Progress)
    (fails : Failure → Prop) :
    Halt → List Progress → Prop
  | cancelled (stops : stop asked = true) : Breaks stop asked item fails .cancelled []
  | failed {failure : Failure} (goesOn : stop asked = false) (fault : fails failure) :
      Breaks stop asked item fails (.failed failure) [item]

/-! ## Parts of a run -/

namespace Run

variable {α β : Type} {s s' s'' : RunState} {halt : Halt}

/-- A part of a run halts, and leaves a state. -/
def Halts (x : Run α) (halt : Halt) (s s' : RunState) : Prop :=
  x.run.run s = (.error halt, s')

/-- What gives a result does not halt. -/
theorem Yields.not_halts {x : Run α} {a : α} (h : x.Yields a s s') : ¬ x.Halts halt s s'' := by
  intro hhalts
  have heq : (Except.ok a, s') = (Except.error halt, s'') := h.symm.trans hhalts
  exact nomatch heq

/-- **Of two parts one after another the first halts, or the second.** -/
theorem halts_bind {x : Run α} {f : α → Run β} : (x >>= f).Halts halt s s'' ↔
    x.Halts halt s s'' ∨ ∃ a s', x.Yields a s s' ∧ (f a).Halts halt s' s'' := by
  rw [Halts, run_bind]
  constructor
  · intro h
    cases hx : x.run.run s with
    | mk result s' =>
      rw [hx] at h
      cases result with
      | error reached =>
        cases h
        exact .inl hx
      | ok a => exact .inr ⟨a, s', hx, h⟩
  · rintro (hx | ⟨a, s', hx, hf⟩)
    · rw [show x.run.run s = (.error halt, s'') from hx]
    · rw [show x.run.run s = (.ok a, s') from hx]
      exact hf

theorem not_halts_pure (a : α) : ¬ (pure a : Run α).Halts halt s s' :=
  (yields_pure.2 ⟨rfl, rfl⟩).not_halts

theorem not_halts_announce (p : Progress) : ¬ (announce p).Halts halt s s' :=
  (yields_announce (u := ()).2 rfl).not_halts

theorem not_halts_warn (warnings : List Warning) : ¬ (warn warnings).Halts halt s s' :=
  (yields_warn (u := ()).2 rfl).not_halts

theorem not_halts_get : ¬ (get : Run RunState).Halts halt s s' :=
  (yields_get.2 ⟨rfl, rfl⟩).not_halts

theorem not_halts_modify (f : RunState → RunState) : ¬ (modify f : Run Unit).Halts halt s s' :=
  (yields_modify (u := ()).2 rfl).not_halts

theorem halts_mayGoOn {stop : StopSignal} : (mayGoOn stop).Halts halt s s' ↔
    stop s.asked = true ∧ halt = .cancelled ∧ s' = s.later [] [] 1 := by
  rw [Halts, run_mayGoOn]
  cases stop s.asked with
  | true =>
    constructor
    · rintro ⟨⟩
      exact ⟨rfl, rfl, rfl⟩
    · rintro ⟨-, rfl, rfl⟩
      rfl
  | false => exact ⟨fun h => (nomatch h), fun h => (nomatch h.1)⟩

/-- **A turn of a phase** halts where the run is told to stop, or in the work
on the item. -/
theorem halts_turn {stop : StopSignal} {p : Progress} {work : Run α} :
    (do mayGoOn stop; announce p; work).Halts halt s s' ↔
      stop s.asked = true ∧ halt = .cancelled ∧ s' = s.later [] [] 1 ∨
        stop s.asked = false ∧ work.Halts halt (s.later [] [p] 1) s' := by
  simp only [halts_bind, halts_mayGoOn, yields_mayGoOn, not_halts_announce,
    yields_announce, false_or]
  refine or_congr_right ⟨?_, ?_⟩
  · rintro ⟨-, -, ⟨hgo, rfl⟩, -, -, rfl, h⟩
    rw [RunState.later_later] at h
    exact ⟨hgo, h⟩
  · rintro ⟨hgo, h⟩
    refine ⟨(), _, ⟨hgo, rfl⟩, (), _, rfl, ?_⟩
    rw [RunState.later_later]
    exact h

theorem halts_ofResult {result : Except Failure α} : (ofResult result).Halts halt s s' ↔
    ∃ failure, result = .error failure ∧ halt = .failed failure ∧ s' = s := by
  rw [Halts]
  cases result with
  | error failure =>
    constructor
    · rintro ⟨⟩
      exact ⟨failure, rfl, rfl, rfl⟩
    · rintro ⟨_, ⟨⟩, rfl, rfl⟩
      rfl
  | ok a =>
    constructor
    · rintro ⟨⟩
    · rintro ⟨failure, ⟨⟩, -⟩

end Run

/-- A result with another kind of fault has none but these. -/
theorem Except.mapError_eq_error_iff {ε ε' α : Type} {f : ε → ε'} {x : Except ε α} {fault : ε'} :
    x.mapError f = .error fault ↔ ∃ inner, x = .error inner ∧ fault = f inner := by
  cases x with
  | error inner =>
    constructor
    · rintro ⟨⟩
      exact ⟨inner, rfl, rfl⟩
    · rintro ⟨_, ⟨⟩, rfl⟩
      rfl
  | ok a =>
    constructor
    · rintro ⟨⟩
    · rintro ⟨inner, ⟨⟩, -⟩

/-- Counting on over a list. -/
theorem List.add_length_cons {α : Type} (n : Nat) (x : α) (l : List α) :
    n + (x :: l).length = n + 1 + l.length := by
  rw [List.length_cons, Nat.add_comm l.length, Nat.add_assoc]

/-! ## Phases -/

namespace Job

variable {job : Job} {s s' : RunState} {halt : Halt}

/-- **Where the introspection halts.** -/
theorem halts_introspectSpecs {source : MetadataSource} {specs : List TableSpec} :
    (job.introspectSpecs source specs).Halts halt s s' ↔ ∃ front spec rest found progress,
      specs = front ++ spec :: rest ∧
      Introspection.introspectAll job.settings source front = .ok found ∧
      job.stop.IsSilent s.asked front.length ∧
      job.stop.Breaks (s.asked + front.length) (.introspecting spec.tableName)
        (fun failure => ∃ fault, Introspection.introspect job.settings spec source = .error fault ∧
          failure = .pattern fault)
        halt progress ∧
      s' = s.later found.warnings
        (front.map (fun spec => .introspecting spec.tableName) ++ progress)
        (front.length + 1) := by
  induction specs generalizing s s' with
  | nil =>
    rw [introspectSpecs]
    refine ⟨fun h => absurd h (Run.not_halts_pure _), ?_⟩
    rintro ⟨front, spec, rest, -, -, hsplit, -⟩
    exact absurd hsplit (by simp)
  | cons spec rest ih =>
    rw [introspectSpecs, Run.halts_turn]
    simp only [Run.halts_bind, Run.halts_ofResult, Run.yields_ofResult, Run.not_halts_warn,
      Run.yields_warn, Run.not_halts_pure, false_or, or_false, and_false, exists_false,
      Except.mapError_eq_ok_iff, Except.mapError_eq_error_iff, ih]
    -- the run halts at the first specification, or goes on with its findings and halts at one of
    -- the others
    constructor
    · rintro (⟨hstops, rfl, rfl⟩ | ⟨hgo, ⟨_, ⟨fault, hfault, rfl⟩, rfl, rfl⟩ |
        ⟨first, -, ⟨hfirst, rfl⟩, -, -, rfl, front, item, others, found, progress, rfl, hfound,
          hsilent, hbreaks, rfl⟩⟩)
      · exact ⟨[], spec, rest, _, [], rfl, rfl, StopSignal.isSilent_zero _ _,
          .cancelled hstops, rfl⟩
      · refine ⟨[], spec, rest, _, _, rfl, rfl, StopSignal.isSilent_zero _ _, ?_, rfl⟩
        exact .failed hgo ⟨fault, hfault, rfl⟩
      · refine ⟨spec :: front, item, others,
          ⟨first.warnings ++ found.warnings, first.value ++ found.value⟩, progress, rfl, ?_,
          StopSignal.isSilent_succ.2 ⟨hgo, hsilent⟩, ?_, ?_⟩
        · rw [Introspection.introspectAll, hfirst, hfound]
          rfl
        · rwa [List.add_length_cons]
        · simp [Nat.add_comm 1]
    · rintro ⟨front, item, others, found, progress, hsplit, hfound, hsilent, hbreaks, rfl⟩
      cases front with
      | nil =>
        cases hsplit
        cases hfound
        cases hbreaks with
        | cancelled stops => exact .inl ⟨stops, rfl, rfl⟩
        | failed goesOn fault =>
          obtain ⟨fault, hfault, rfl⟩ := fault
          exact .inr ⟨goesOn, .inl ⟨_, ⟨fault, hfault, rfl⟩, rfl, rfl⟩⟩
      | cons _ front =>
        cases hsplit
        obtain ⟨hgo, hsilent⟩ := StopSignal.isSilent_succ.1 hsilent
        obtain ⟨first, hfirst, h⟩ := Except.exists_of_bind_eq_ok hfound
        obtain ⟨next, hnext, h⟩ := Except.exists_of_bind_eq_ok h
        cases h
        rw [List.add_length_cons] at hbreaks
        exact .inr ⟨hgo, .inr ⟨first, _, ⟨hfirst, rfl⟩, (), _, rfl,
          front, item, others, next, progress, rfl, hnext, hsilent,
          hbreaks, by simp [Nat.add_comm 1]⟩⟩

/-- **Where the generation halts**: only where it is told to stop. -/
theorem halts_generateTables {plugins : PluginChain} {tables : List TableModel} :
    (job.generateTables plugins tables).Halts halt s s' ↔ ∃ front table rest,
      tables = front ++ table :: rest ∧ job.stop.IsSilent s.asked front.length ∧
      job.stop (s.asked + front.length) = true ∧ halt = .cancelled ∧
      s' = s.later (job.warningsOf front) (front.map fun table => .generating table.table)
        (front.length + 1) := by
  induction tables generalizing s s' with
  | nil =>
    rw [generateTables]
    refine ⟨fun h => absurd h (Run.not_halts_pure _), ?_⟩
    rintro ⟨front, table, rest, hsplit, -⟩
    exact absurd hsplit (by simp)
  | cons table rest ih =>
    rw [generateTables, Run.halts_turn]
    simp only [Run.halts_bind, Run.not_halts_warn, Run.yields_warn, Run.not_halts_pure, false_or,
      or_false, and_false, exists_false, ih]
    constructor
    · rintro (⟨hstops, rfl, rfl⟩ | ⟨hgo, -, -, rfl, front, item, others, rfl,
        hsilent, hstops, rfl, rfl⟩)
      · exact ⟨[], table, rest, rfl, StopSignal.isSilent_zero _ _, hstops, rfl, rfl⟩
      · refine ⟨table :: front, item, others, rfl,
          StopSignal.isSilent_succ.2 ⟨hgo, hsilent⟩, ?_, rfl, ?_⟩
        · rwa [List.add_length_cons]
        · simp [Nat.add_comm 1]
    · rintro ⟨front, item, others, hsplit, hsilent, hstops, rfl, rfl⟩
      cases front with
      | nil =>
        cases hsplit
        exact .inl ⟨hstops, rfl, rfl⟩
      | cons _ front =>
        cases hsplit
        obtain ⟨hgo, hsilent⟩ := StopSignal.isSilent_succ.1 hsilent
        rw [List.add_length_cons] at hstops
        exact .inr ⟨hgo, (), _, rfl, front, item, others, rfl, hsilent, hstops,
          rfl, by simp [Nat.add_comm 1]⟩

/-- **Where the writing halts.** -/
theorem halts_writeFiles {artifacts : List Artifact} :
    (job.writeFiles artifacts).Halts halt s s' ↔ ∃ front a rest ws tree progress,
      artifacts = front ++ a :: rest ∧ Writing.Writes job.settings s.tree front ws tree ∧
      job.stop.IsSilent s.asked front.length ∧
      job.stop.Breaks (s.asked + front.length) (.saving a.fileName)
        (fun failure => ∃ fault, a.write job.settings tree = .error fault ∧ failure = .file fault)
        halt progress ∧
      s' = (s.behind ws tree).later [] (front.map (fun a => .saving a.fileName) ++ progress)
        (front.length + 1) := by
  induction artifacts generalizing s s' with
  | nil =>
    rw [writeFiles]
    refine ⟨fun h => absurd h (Run.not_halts_pure _), ?_⟩
    rintro ⟨front, a, rest, -, -, -, hsplit, -⟩
    exact absurd hsplit (by simp)
  | cons a rest ih =>
    rw [writeFiles, Run.halts_turn]
    simp only [Run.halts_bind, Run.not_halts_get, Run.yields_get, Run.halts_ofResult,
      Run.yields_ofResult, Run.not_halts_modify, Run.yields_modify, false_or, Failure.ofFile,
      Except.mapError_eq_ok_iff, Except.mapError_eq_error_iff, ih]
    -- the others are written into the tree that the first artifact leaves
    constructor
    · rintro (⟨hstops, rfl, rfl⟩ | ⟨hgo, -, -, ⟨rfl, rfl⟩, ⟨_, ⟨fault, hfault, rfl⟩, rfl, rfl⟩ |
        ⟨w, -, ⟨hw, rfl⟩, -, -, rfl, front, item, others, ws, tree, progress, rfl, hwrites, hsilent,
          hbreaks, rfl⟩⟩)
      · exact ⟨[], a, rest, [], _, [], rfl, .nil _, StopSignal.isSilent_zero _ _,
          .cancelled hstops, by simp⟩
      · refine ⟨[], a, rest, [], _, [.saving a.fileName], rfl, .nil _,
          StopSignal.isSilent_zero _ _, ?_, by simp⟩
        exact .failed hgo ⟨fault, hfault, rfl⟩
      · refine ⟨a :: front, item, others, w :: ws, tree, progress, rfl, .cons hw hwrites,
          StopSignal.isSilent_succ.2 ⟨hgo, hsilent⟩, ?_, ?_⟩
        · rwa [List.add_length_cons]
        · simp [RunState.behind, RunState.later, RunState.warn, Nat.add_assoc, Nat.add_comm 1]
    · rintro ⟨front, item, others, ws, tree, progress, hsplit, hwrites, hsilent, hbreaks, rfl⟩
      cases front with
      | nil =>
        cases hsplit
        cases hwrites
        cases hbreaks with
        | cancelled stops => exact .inl ⟨stops, rfl, by simp⟩
        | failed goesOn fault =>
          obtain ⟨fault, hfault, rfl⟩ := fault
          exact .inr ⟨goesOn, _, _, ⟨rfl, rfl⟩, .inl ⟨_, ⟨fault, hfault, rfl⟩, rfl, by simp⟩⟩
      | cons _ front =>
        cases hsplit
        obtain ⟨hgo, hsilent⟩ := StopSignal.isSilent_succ.1 hsilent
        rw [List.add_length_cons] at hbreaks
        cases hwrites with
        | @cons _ _ _ _ w ws hw hrest =>
          exact .inr ⟨hgo, _, _, ⟨rfl, rfl⟩, .inr ⟨w, _, ⟨hw, rfl⟩, (), _, rfl,
            front, item, others, ws, tree, progress, rfl, hrest, hsilent, hbreaks,
            by simp [RunState.behind, RunState.later, RunState.warn, Nat.add_assoc,
              Nat.add_comm 1]⟩⟩

/-! ## Whole runs -/

/-- **A run that halts** on a tree, with its report and the tree it leaves. -/
def Halts (job : Job) (tree : FileTree) (halt : Halt) (report : Report) (tree' : FileTree) : Prop :=
  ∃ s, job.generate tree = (.error halt, s) ∧ s.report = report ∧ s.tree = tree'

/-- The metadata and the plugins of a run. -/
structure Prepares (job : Job) (tree : FileTree) (source : MetadataSource)
    (plugins : PluginChain) : Prop where
  metadata : job.metadata tree = .ok source
  plugins : job.pluginChain = .ok plugins

/-- **The places where a run can halt**, with what it has reported and written
by then. -/
inductive HaltsAt (job : Job) (tree : FileTree) : Halt → Report → FileTree → Prop
  /-- There is no metadata, or the settings are not valid. -/
  | metadata {failure : Failure} (fails : job.metadata tree = .error failure) :
      HaltsAt job tree (.failed failure) {} tree
  /-- A plugin is not known. -/
  | plugins {source : MetadataSource} {failure : Failure}
      (metadata : job.metadata tree = .ok source)
      (fails : job.pluginChain = .error failure) : HaltsAt job tree (.failed failure) {} tree
  /-- At a specification. -/
  | introspecting {source : MetadataSource} {plugins : PluginChain} {front rest : List TableSpec}
      {spec : TableSpec}
      {found : Warned (List TableModel)} {halt : Halt} (prepares : job.Prepares tree source plugins)
      (specs : job.settings.effectiveSpecs = front ++ spec :: rest)
      (introspected : Introspection.introspectAll job.settings source front = .ok found)
      (silent : job.stop.IsSilent 0 front.length) (progress : List Progress)
      (breaks : job.stop.Breaks front.length (.introspecting spec.tableName)
        (fun failure => ∃ fault, Introspection.introspect job.settings spec source = .error fault ∧
          failure = .pattern fault)
        halt progress) :
      HaltsAt job tree halt ⟨[], found.warnings⟩ tree
  /-- At a table. -/
  | generating {source : MetadataSource} {plugins : PluginChain} {found : Warned (List TableModel)}
      {front rest : List TableModel} {table : TableModel}
        (prepares : job.Prepares tree source plugins)
      (introspected : Introspection.introspectAll job.settings source
        job.settings.effectiveSpecs = .ok found)
      (tables : found.value = front ++ table :: rest)
      (silent : job.stop.IsSilent 0 (job.settings.effectiveSpecs.length + front.length))
      (stops : job.stop (job.settings.effectiveSpecs.length + front.length) = true) :
      HaltsAt job tree .cancelled ⟨[], found.warnings ++ job.warningsOf front⟩ tree
  /-- At a file. -/
  | writing {source : MetadataSource} {plugins : PluginChain} {found : Warned (List TableModel)}
      {front rest : List Artifact} {a : Artifact} {ws : List Written}
        {tree' : FileTree} {halt : Halt}
      (prepares : job.Prepares tree source plugins)
      (introspected : Introspection.introspectAll job.settings source
        job.settings.effectiveSpecs = .ok found)
      (artifacts : job.artifactsOf plugins found.value = front ++ a :: rest)
      (writes : Writing.Writes job.settings tree front ws tree')
      (silent : job.stop.IsSilent 0
        (job.settings.effectiveSpecs.length + (found.value.length + front.length)))
      (progress : List Progress)
      (breaks : job.stop.Breaks
        (job.settings.effectiveSpecs.length + (found.value.length + front.length))
        (.saving a.fileName)
        (fun failure => ∃ fault, a.write job.settings tree' = .error fault ∧ failure = .file fault)
          halt progress) :
      HaltsAt job tree halt
        ⟨ws.map (·.outcome), found.warnings ++ job.warningsOf found.value ++
          ws.flatMap (·.warnings)⟩ tree'

/-- **Where a run halts, and what it leaves.** -/
theorem halts_iff {tree tree' : FileTree} {report : Report} :
    job.Halts tree halt report tree' ↔ job.HaltsAt tree halt report tree' := by
  have hgenerate : ∀ s, job.generate tree = (.error halt, s) ↔
      job.generation.Halts halt { tree } s :=
    fun _ => Iff.rfl
  rw [Halts]
  simp only [hgenerate, generation, introspectAll, generateAll, writeAll, Run.halts_bind,
    Run.not_halts_get, Run.yields_get, Run.halts_ofResult, Run.yields_ofResult, Run.yields_bind,
    Run.not_halts_announce, Run.yields_announce, yields_introspectSpecs, yields_generateTables,
    yields_writeFiles, halts_introspectSpecs, halts_generateTables, halts_writeFiles, false_or,
    or_false, and_false, exists_false]
  -- phase by phase: each one starts with as many questions asked as the phases before it have
  -- items, with their warnings and with the tree they have left
  constructor
  · rintro ⟨s, ⟨-, -, ⟨rfl, rfl⟩, h⟩, rfl, rfl⟩
    rcases h with ⟨failure, hfails, rfl, rfl⟩ | ⟨source, -, ⟨hsource, rfl⟩, h⟩
    · exact .metadata hfails
    rcases h with ⟨failure, hfails, rfl, rfl⟩ | ⟨plugins, -, ⟨hplugins, rfl⟩, h⟩
    · exact .plugins hsource hfails
    rcases h with ⟨-, -, rfl, front, spec, rest, found, progress, hsplit, hfound,
      hsilent, hbreaks, rfl⟩ |
      ⟨-, -, ⟨-, -, rfl, hspecs, found, hfound, rfl, rfl⟩, h⟩
    · simp only [RunState.asked_later, Nat.zero_add, Nat.add_zero] at hsilent hbreaks
      simpa [RunState.report] using HaltsAt.introspecting ⟨hsource, hplugins⟩ hsplit
        hfound hsilent _ hbreaks
    rcases h with ⟨-, -, rfl, front, table, rest, hsplit, htables, hstops, rfl, rfl⟩ |
      ⟨-, -, ⟨-, -, rfl, htables, rfl, rfl⟩, -, -, rfl, front, a, rest, ws, tree', progress, hsplit,
        hwrites, hfiles, hbreaks, rfl⟩
    · have hsilent := StopSignal.isSilent_add.2 ⟨hspecs, htables⟩
      simp only [RunState.asked_later, Nat.zero_add, Nat.add_zero] at hsilent hstops
      simpa [RunState.report] using HaltsAt.generating
        ⟨hsource, hplugins⟩ hfound hsplit hsilent hstops
    · have hsilent := StopSignal.isSilent_add.2
        ⟨hspecs, StopSignal.isSilent_add.2 ⟨htables, hfiles⟩⟩
      simp only [RunState.asked_later, Nat.zero_add, Nat.add_zero, Nat.add_assoc] at hsilent hbreaks
      simpa [RunState.report] using HaltsAt.writing ⟨hsource, hplugins⟩ hfound hsplit
        hwrites hsilent _ hbreaks
  · intro h
    cases h with
    | metadata fails => exact ⟨_, ⟨_, _, ⟨rfl, rfl⟩, .inl ⟨_, fails, rfl, rfl⟩⟩, rfl, rfl⟩
    | plugins metadata fails =>
      exact ⟨_, ⟨_, _, ⟨rfl, rfl⟩, .inr ⟨_, _, ⟨metadata, rfl⟩, .inl ⟨_, fails, rfl, rfl⟩⟩⟩, rfl,
        rfl⟩
    | introspecting prepares specs introspected silent progress breaks =>
      refine ⟨_, ⟨_, _, ⟨rfl, rfl⟩, .inr ⟨_, _, ⟨prepares.metadata, rfl⟩,
        .inr ⟨_, _, ⟨prepares.plugins, rfl⟩,
          .inl ⟨(), _, rfl, _, _, _, _, progress, specs, introspected, silent, ?_, rfl⟩⟩⟩⟩, ?_, rfl⟩
      · simpa using breaks
      · simp [RunState.report]
    | generating prepares introspected tables silent stops =>
      obtain ⟨hspecs, htables⟩ := StopSignal.isSilent_add.1 silent
      refine ⟨_, ⟨_, _, ⟨rfl, rfl⟩, .inr ⟨_, _, ⟨prepares.metadata, rfl⟩,
        .inr ⟨_, _, ⟨prepares.plugins, rfl⟩,
          .inr ⟨_, _, ⟨(), _, rfl, hspecs, _, introspected, rfl, rfl⟩,
            .inl ⟨(), _, rfl, _, _, _, tables, htables, ?_, rfl, rfl⟩⟩⟩⟩⟩, ?_, rfl⟩
      · simpa using stops
      · simp [RunState.report]
    | writing prepares introspected artifacts writes silent progress breaks =>
      obtain ⟨hspecs, hsilent⟩ := StopSignal.isSilent_add.1 silent
      obtain ⟨htables, hfiles⟩ := StopSignal.isSilent_add.1 hsilent
      refine ⟨_, ⟨_, _, ⟨rfl, rfl⟩, .inr ⟨_, _, ⟨prepares.metadata, rfl⟩,
        .inr ⟨_, _, ⟨prepares.plugins, rfl⟩,
          .inr ⟨_, _, ⟨(), _, rfl, hspecs, _, introspected, rfl, rfl⟩,
            .inr ⟨_, _, ⟨(), _, rfl, htables, rfl, rfl⟩, (), _, rfl, _, _, _, _, _, progress,
              artifacts, writes, hfiles, ?_, rfl⟩⟩⟩⟩⟩, ?_, rfl⟩
      · simpa [Nat.add_assoc] using breaks
      · simp [RunState.report]

end Job

end TableMapper
