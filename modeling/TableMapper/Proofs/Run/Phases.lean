import TableMapper.Proofs.Run.WrittenTwice
import TableMapper.Run.Generation

/-!
# The phases of a run

A run goes through its phases one after another, asks before each
specification, table and file whether to stop, and for each phase it can be
said when it yields something and which state it leaves. So **a run is
complete exactly if its settings are valid, its tables can be introspected,
its artifacts can be written one after another, and it is never told to
stop**; its report is made of the warnings of the phases in their order
(`Job.completes_iff`).
-/

namespace TableMapper

/-- A result with another kind of fault is the same result. -/
theorem Except.mapError_eq_ok_iff {ε ε' α : Type} {f : ε → ε'} {x : Except ε α} {a : α} :
    x.mapError f = .ok a ↔ x = .ok a := by
  cases x with
  | error fault => exact ⟨fun h => (nomatch h), fun h => (nomatch h)⟩
  | ok b => exact ⟨fun h => by cases h; rfl, fun h => by cases h; rfl⟩

/-! ## States -/

namespace RunState

variable (s : RunState) (warnings warnings' : List Warning) (progress progress' : List Progress)
  (asked asked' : Nat)

/-- **The state some time later**: there are further warnings and progress
reports, and the run has asked some more times whether to stop. -/
def later : RunState :=
  { s with
    warnings := s.warnings ++ warnings
    progress := s.progress ++ progress
    asked := s.asked + asked }

@[simp] theorem later_later : (s.later warnings progress asked).later warnings' progress' asked' =
    s.later (warnings ++ warnings') (progress ++ progress') (asked + asked') := by
  simp [later, Nat.add_assoc]

@[simp] theorem later_nil : s.later [] [] 0 = s := by
  simp [later]

@[simp] theorem tree_later : (s.later warnings progress asked).tree = s.tree := rfl

@[simp] theorem files_later : (s.later warnings progress asked).files = s.files := rfl

@[simp] theorem warnings_later :
    (s.later warnings progress asked).warnings = s.warnings ++ warnings := rfl

@[simp] theorem asked_later : (s.later warnings progress asked).asked = s.asked + asked := rfl

variable (ws : List Written) (tree : FileTree)

/-- **The state when some artifacts have been written**, with what each one
led to. -/
def behind : RunState :=
  { s.warn (ws.flatMap (·.warnings)) with
    tree
    files := s.files ++ ws.map (·.outcome) }

@[simp] theorem behind_nil : s.behind [] s.tree = s := by
  simp [behind, warn]

@[simp] theorem tree_behind : (s.behind ws tree).tree = tree := rfl

@[simp] theorem files_behind : (s.behind ws tree).files = s.files ++ ws.map (·.outcome) := rfl

@[simp] theorem warnings_behind :
    (s.behind ws tree).warnings = s.warnings ++ ws.flatMap (·.warnings) := rfl

@[simp] theorem asked_behind : (s.behind ws tree).asked = s.asked := rfl

end RunState

/-! ## When to stop -/

namespace StopSignal

variable {stop : StopSignal} {asked m n : Nat}

/-- **The answer is to go on**, some times one after another. -/
def IsSilent (stop : StopSignal) (asked n : Nat) : Prop :=
  ∀ i < n, stop (asked + i) = false

theorem isSilent_never (asked n : Nat) : never.IsSilent asked n :=
  fun _ _ => rfl

theorem isSilent_zero (stop : StopSignal) (asked : Nat) : stop.IsSilent asked 0 :=
  fun i hi => absurd hi (Nat.not_lt_zero i)

theorem isSilent_add :
    stop.IsSilent asked (m + n) ↔ stop.IsSilent asked m ∧ stop.IsSilent (asked + m) n := by
  constructor
  · refine fun h => ⟨fun i hi => h i (by omega), fun i hi => ?_⟩
    rw [Nat.add_assoc]
    exact h (m + i) (by omega)
  · rintro ⟨hfirst, hothers⟩ i hi
    by_cases him : i < m
    · exact hfirst i him
    · have hother := hothers (i - m) (by omega)
      rwa [show asked + m + (i - m) = asked + i by omega] at hother

theorem isSilent_succ :
    stop.IsSilent asked (n + 1) ↔ stop asked = false ∧ stop.IsSilent (asked + 1) n := by
  rw [Nat.add_comm, isSilent_add]
  refine and_congr_left fun _ => ⟨fun h => h 0 Nat.one_pos, fun h i hi => ?_⟩
  rwa [show i = 0 by omega]

end StopSignal

/-! ## Parts of a run -/

namespace Run

variable {α β : Type} {s s' s'' : RunState}

/-- A part of a run gives a result and leaves a state. -/
def Yields (x : Run α) (a : α) (s s' : RunState) : Prop :=
  x.run.run s = (.ok a, s')

theorem yields_pure {a b : α} : (pure a : Run α).Yields b s s' ↔ b = a ∧ s' = s := by
  rw [Yields]
  constructor
  · rintro ⟨⟩
    exact ⟨rfl, rfl⟩
  · rintro ⟨rfl, rfl⟩
    rfl

/-- What one part of a run after another leads to. -/
theorem run_bind (x : Run α) (f : α → Run β) (s : RunState) :
    (x >>= f).run.run s = match x.run.run s with
    | (.ok a, s') => (f a).run.run s'
    | (.error halt, s') => (.error halt, s') := by
  show (ExceptT.bindCont f (x.run.run s).1).run (x.run.run s).2 = _
  rcases x.run.run s with ⟨halt | a, s'⟩ <;> rfl

/-- **One part of a run after another.** -/
theorem yields_bind {x : Run α} {f : α → Run β} {b : β} :
    (x >>= f).Yields b s s'' ↔ ∃ a s', x.Yields a s s' ∧ (f a).Yields b s' s'' := by
  rw [Yields, run_bind]
  constructor
  · intro h
    cases hx : x.run.run s with
    | mk result s' =>
      rw [hx] at h
      cases result with
      | error halt => exact nomatch h
      | ok a => exact ⟨a, s', hx, h⟩
  · rintro ⟨a, s', hx, hf⟩
    rw [show x.run.run s = (.ok a, s') from hx]
    exact hf

theorem yields_announce {p : Progress} {u : Unit} :
    (announce p).Yields u s s' ↔ s' = s.later [] [p] 0 := by
  have hrun : (announce p).run.run s = (.ok (), s.later [] [p] 0) := by
    rw [RunState.later, List.append_nil]
    rfl
  rw [Yields, hrun]
  exact ⟨fun h => (Prod.mk.inj h).2.symm, fun h => h ▸ rfl⟩

theorem yields_warn {warnings : List Warning} {u : Unit} :
    (warn warnings).Yields u s s' ↔ s' = s.later warnings [] 0 := by
  have hrun : (warn warnings).run.run s = (.ok (), s.later warnings [] 0) := by
    rw [RunState.later, List.append_nil]
    rfl
  rw [Yields, hrun]
  exact ⟨fun h => (Prod.mk.inj h).2.symm, fun h => h ▸ rfl⟩

/-- What asking leads to: a run that is told to stop is cancelled. -/
theorem run_mayGoOn (stop : StopSignal) (s : RunState) :
    (mayGoOn stop).run.run s
      = (if stop s.asked then .error .cancelled else .ok (), s.later [] [] 1) := by
  rw [RunState.later, List.append_nil, List.append_nil]
  show (if stop s.asked then (throw .cancelled : Run Unit) else pure ()).run.run
      { s with asked := s.asked + 1 } = _
  cases stop s.asked <;> rfl

theorem yields_mayGoOn {stop : StopSignal} {u : Unit} :
    (mayGoOn stop).Yields u s s' ↔ stop s.asked = false ∧ s' = s.later [] [] 1 := by
  rw [Yields, run_mayGoOn]
  cases stop s.asked with
  | true => exact ⟨fun h => (nomatch h), fun h => (nomatch h.1)⟩
  | false => exact ⟨fun h => ⟨rfl, (Prod.mk.inj h).2.symm⟩, fun h => h.2 ▸ rfl⟩

/-- **A turn of a phase**: the run asks, reports the item, and works on it. -/
theorem yields_turn {stop : StopSignal} {p : Progress} {work : Run α} {a : α} :
    (do mayGoOn stop; announce p; work).Yields a s s' ↔
      stop s.asked = false ∧ work.Yields a (s.later [] [p] 1) s' := by
  simp only [yields_bind, yields_mayGoOn, yields_announce]
  constructor
  · rintro ⟨-, -, ⟨hgo, rfl⟩, -, -, rfl, h⟩
    rw [RunState.later_later] at h
    exact ⟨hgo, h⟩
  · rintro ⟨hgo, h⟩
    refine ⟨(), _, ⟨hgo, rfl⟩, (), _, rfl, ?_⟩
    rw [RunState.later_later]
    exact h

theorem yields_ofResult {result : Except Failure α} {a : α} :
    (ofResult result).Yields a s s' ↔ result = .ok a ∧ s' = s := by
  rw [Yields]
  cases result with
  | error failure =>
    constructor
    · rintro ⟨⟩
    · rintro ⟨⟨⟩, -⟩
  | ok b =>
    constructor
    · rintro ⟨⟩
      exact ⟨rfl, rfl⟩
    · rintro ⟨⟨⟩, rfl⟩
      rfl

theorem yields_get {state : RunState} :
    (get : Run RunState).Yields state s s' ↔ state = s ∧ s' = s := by
  rw [Yields]
  constructor
  · rintro ⟨⟩
    exact ⟨rfl, rfl⟩
  · rintro ⟨rfl, rfl⟩
    rfl

theorem yields_modify {f : RunState → RunState} {u : Unit} :
    (modify f : Run Unit).Yields u s s' ↔ s' = f s := by
  rw [Yields]
  constructor
  · rintro ⟨⟩
    rfl
  · rintro rfl
    rfl

end Run

/-! ## Phases -/

namespace Job

variable {job : Job} {s s' : RunState}

/-- The artifacts of some tables, in their order. -/
def artifactsOf (job : Job) (plugins : PluginChain) (tables : List TableModel) : List Artifact :=
  tables.flatMap fun table => (generateTable job.settings plugins table job.generators).value

/-- What the generators find wrong with some tables. -/
def warningsOf (job : Job) (tables : List TableModel) : List Warning :=
  tables.flatMap fun table => generationWarnings table job.generators

@[simp] theorem warningsOf_nil (job : Job) : job.warningsOf [] = [] := rfl

@[simp] theorem warningsOf_cons (job : Job) (table : TableModel) (rest : List TableModel) :
    job.warningsOf (table :: rest)
      = generationWarnings table job.generators ++ job.warningsOf rest := rfl

/-- **The introspection phase**, table by table. -/
theorem yields_introspectSpecs {source : MetadataSource} {specs : List TableSpec}
    {models : List TableModel} :
    (job.introspectSpecs source specs).Yields models s s' ↔ job.stop.IsSilent s.asked specs.length ∧
      ∃ found, Introspection.introspectAll job.settings source specs = .ok found ∧
      models = found.value ∧
        s' = s.later found.warnings (specs.map fun spec => .introspecting spec.tableName)
          specs.length := by
  induction specs generalizing models s s' with
  | nil =>
    rw [introspectSpecs, Run.yields_pure]
    constructor
    · rintro ⟨rfl, rfl⟩
      exact ⟨StopSignal.isSilent_zero _ _, _, rfl, rfl, (RunState.later_nil _).symm⟩
    · rintro ⟨-, found, ⟨⟩, rfl, rfl⟩
      exact ⟨rfl, RunState.later_nil s⟩
  | cons spec rest ih =>
    rw [introspectSpecs, Run.yields_turn]
    simp only [Run.yields_bind, Run.yields_ofResult, Run.yields_warn, Run.yields_pure,
      Except.mapError_eq_ok_iff, ih]
    constructor
    · rintro ⟨hgo, first, -, ⟨hfirst, rfl⟩, -, -, rfl, -, -,
        ⟨hsilent, others, hothers, rfl, rfl⟩, rfl, rfl⟩
      exact ⟨StopSignal.isSilent_succ.2 ⟨hgo, hsilent⟩, _,
        by rw [Introspection.introspectAll, hfirst, hothers]; rfl, rfl, by simp [Nat.add_comm]⟩
    · rintro ⟨hsilent, found, hfound, rfl, rfl⟩
      obtain ⟨hgo, hsilent⟩ := StopSignal.isSilent_succ.1 hsilent
      obtain ⟨first, hfirst, h⟩ := Except.exists_of_bind_eq_ok hfound
      obtain ⟨others, hothers, h⟩ := Except.exists_of_bind_eq_ok h
      cases h
      exact ⟨hgo, first, _, ⟨hfirst, rfl⟩, (), _, rfl, _, _, ⟨hsilent, others, hothers, rfl, rfl⟩,
        rfl, by simp [Nat.add_comm]⟩

/-- **The generation phase**, table by table. -/
theorem yields_generateTables {plugins : PluginChain} {tables : List TableModel}
    {artifacts : List Artifact} :
    (job.generateTables plugins tables).Yields artifacts s s' ↔
    job.stop.IsSilent s.asked tables.length ∧
      artifacts = job.artifactsOf plugins tables ∧
        s' = s.later (job.warningsOf tables)
          (tables.map fun table => .generating table.table) tables.length := by
  induction tables generalizing artifacts s s' with
  | nil =>
    rw [generateTables, Run.yields_pure]
    constructor
    · rintro ⟨rfl, rfl⟩
      exact ⟨StopSignal.isSilent_zero _ _, rfl, by simp⟩
    · rintro ⟨-, rfl, rfl⟩
      exact ⟨rfl, by simp⟩
  | cons table rest ih =>
    rw [generateTables, Run.yields_turn]
    simp only [Run.yields_bind, Run.yields_warn, Run.yields_pure, ih]
    constructor
    · rintro ⟨hgo, -, -, rfl, -, -, ⟨hsilent, rfl, rfl⟩, rfl, rfl⟩
      exact ⟨StopSignal.isSilent_succ.2 ⟨hgo, hsilent⟩, rfl, by simp [Nat.add_comm]⟩
    · rintro ⟨hsilent, rfl, rfl⟩
      obtain ⟨hgo, hsilent⟩ := StopSignal.isSilent_succ.1 hsilent
      exact ⟨hgo, (), _, rfl, _, _, ⟨hsilent, rfl, rfl⟩, rfl, by simp [Nat.add_comm]⟩

/-- **The writing phase**, file by file. -/
theorem yields_writeFiles {artifacts : List Artifact} {u : Unit} :
    (job.writeFiles artifacts).Yields u s s' ↔
    job.stop.IsSilent s.asked artifacts.length ∧ ∃ ws tree,
    Writing.Writes job.settings s.tree artifacts ws tree ∧
      s' = (s.behind ws tree).later [] (artifacts.map fun a => .saving a.fileName)
        artifacts.length := by
  induction artifacts generalizing s s' with
  | nil =>
    rw [writeFiles, Run.yields_pure]
    constructor
    · rintro ⟨-, rfl⟩
      exact ⟨StopSignal.isSilent_zero _ _, [], _, .nil _, by simp⟩
    · rintro ⟨-, ws, tree, h, rfl⟩
      cases h
      exact ⟨rfl, by simp⟩
  | cons a rest ih =>
    rw [writeFiles, Run.yields_turn]
    simp only [Run.yields_bind, Run.yields_ofResult, Run.yields_get, Run.yields_modify,
      Failure.ofFile, Except.mapError_eq_ok_iff, ih]
    constructor
    · rintro ⟨hgo, -, -, ⟨rfl, rfl⟩, w, -, ⟨hw, rfl⟩, -, -, rfl, hsilent, ws, tree, hrest, rfl⟩
      exact ⟨StopSignal.isSilent_succ.2 ⟨hgo, hsilent⟩, w :: ws, tree, .cons hw hrest,
        by simp [RunState.behind, RunState.later, RunState.warn, Nat.add_assoc, Nat.add_comm 1]⟩
    · rintro ⟨hsilent, ws, tree, hwrites, rfl⟩
      obtain ⟨hgo, hsilent⟩ := StopSignal.isSilent_succ.1 hsilent
      cases hwrites with
      | @cons _ _ _ _ w ws hw hrest =>
        exact ⟨hgo, _, _, ⟨rfl, rfl⟩, w, _, ⟨hw, rfl⟩, (), _, rfl, hsilent, ws, tree, hrest,
          by simp [RunState.behind, RunState.later, RunState.warn, Nat.add_assoc, Nat.add_comm 1]⟩

/-! ## Whole runs -/

/-- **A complete run** on a tree, with its report and the tree it leaves. -/
def Completes (job : Job) (tree : FileTree) (report : Report) (tree' : FileTree) : Prop :=
  ∃ s, job.generate tree = (.ok (), s) ∧ s.report = report ∧ s.tree = tree'

/-- **When a run is complete, and what it reports.** -/
theorem completes_iff {tree tree' : FileTree} {report : Report} : job.Completes tree report tree' ↔
    ∃ source plugins found ws, job.metadata tree = .ok source ∧ job.pluginChain = .ok plugins ∧
      Introspection.introspectAll job.settings source job.settings.effectiveSpecs = .ok found ∧
      Writing.Writes job.settings tree (job.artifactsOf plugins found.value) ws tree' ∧
      job.stop.IsSilent 0
        (job.settings.effectiveSpecs.length +
          (found.value.length + (job.artifactsOf plugins found.value).length)) ∧
      report = ⟨ws.map (·.outcome), found.warnings ++ job.warningsOf found.value ++
        ws.flatMap (·.warnings)⟩ := by
  have hgenerate : ∀ s, job.generate tree = (.ok (), s) ↔ job.generation.Yields () { tree } s :=
    fun _ => Iff.rfl
  rw [Completes]
  simp only [hgenerate, generation, introspectAll, generateAll, writeAll, Run.yields_bind,
    Run.yields_get, Run.yields_ofResult, Run.yields_announce, yields_introspectSpecs,
    yields_generateTables, yields_writeFiles]
  constructor
  · rintro ⟨s, ⟨-, -, ⟨rfl, rfl⟩, source, -, ⟨hsource, rfl⟩, plugins, -, ⟨hplugins, rfl⟩,
      -, -, ⟨-, -, rfl, hspecs, found, hfound, rfl, rfl⟩, -, -, ⟨-, -, rfl, htables, rfl, rfl⟩,
      -, -, ⟨-, -, rfl, hfiles, ws, tree', hwrites, rfl⟩, rfl⟩, rfl, rfl⟩
    refine ⟨source, plugins, found, ws, hsource, hplugins, hfound, hwrites, ?_, ?_⟩
    · exact StopSignal.isSilent_add.2 ⟨hspecs, StopSignal.isSilent_add.2 ⟨htables, hfiles⟩⟩
    · simp [RunState.report]
  · rintro ⟨source, plugins, found, ws, hsource, hplugins, hfound, hwrites, hsilent, rfl⟩
    obtain ⟨hspecs, hsilent⟩ := StopSignal.isSilent_add.1 hsilent
    obtain ⟨htables, hfiles⟩ := StopSignal.isSilent_add.1 hsilent
    refine ⟨_, ⟨_, _, ⟨rfl, rfl⟩, source, _, ⟨hsource, rfl⟩, plugins, _, ⟨hplugins, rfl⟩,
      _, _, ⟨(), _, rfl, hspecs, found, hfound, rfl, rfl⟩, _, _, ⟨(), _, rfl, htables, rfl, rfl⟩,
      (), _, ⟨(), _, rfl, hfiles, ws, tree', hwrites, rfl⟩, rfl⟩, ?_, rfl⟩
    simp [RunState.report]

end Job

end TableMapper
