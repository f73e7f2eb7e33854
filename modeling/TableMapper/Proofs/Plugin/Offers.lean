import TableMapper.Proofs.Artifact.Classes

/-!
# Offers to the plugins

The parts of an artifact are offered to the plugins one by one. **A plugin
sees a part as the plugins in front of it leave it, and not at all behind a
veto** (`PluginChain.getElem?_fst_ask`). Of the fields, accessors, methods and
fragments those are added that are approved, in the order of the offers
(`JavaUnit.addsMembers_addFields` and the lemmas behind it), and which offers
there are does not depend on the plugins (`JavaUnit.hearings_addFields` and
its like).
-/

namespace TableMapper

/-! ## One offer -/

namespace PluginChain

section

variable {s : Shape} (hook : Hook s) (table : TableModel)

/-- **A part as some plugins leave it**, one after another, unless one of them
vetoes it. -/
def edit (plugins : PluginChain) (part : s.Carrier) : Option s.Carrier :=
  plugins.foldlM (fun part plugin => plugin.judge hook table part) part

theorem edit_cons (plugin : Plugin) (rest : PluginChain) (part : s.Carrier) :
    edit hook table (plugin :: rest) part
      = (plugin.judge hook table part).bind (edit hook table rest) :=
  List.foldlM_cons

/-- What comes out of an offer is the part as all plugins leave it. -/
theorem snd_ask (plugins : PluginChain) (part : s.Carrier) :
    (plugins.ask hook table part).2 = plugins.edit hook table part := by
  induction plugins generalizing part with
  | nil => rfl
  | cons plugin rest ih =>
    rw [ask, edit_cons]
    cases plugin.judge hook table part with
    | none => rfl
    | some edited => exact ih edited

/-- **What each plugin sees** is the part as the plugins in front of it leave
it. -/
theorem getElem?_fst_ask (plugins : PluginChain) (part : s.Carrier) (i : Nat) :
    (plugins.ask hook table part).1[i]? =
      if i < plugins.length then edit hook table (plugins.take i) part else none := by
  induction plugins generalizing part i with
  | nil => rfl
  | cons plugin rest ih =>
    cases i with
    | zero =>
      rw [ask]
      cases plugin.judge hook table part <;> rfl
    | succ i =>
      rw [ask, List.take_succ_cons, edit_cons]
      cases plugin.judge hook table part with
      | none => exact (ite_self none).symm
      | some edited =>
        refine (ih edited i).trans ?_
        simp only [List.length_cons, Nat.add_lt_add_iff_right]
        rfl

/-- **What is heard of an offer.** -/
def hearing (plugins : PluginChain) (part : s.Carrier) : Hearing :=
  ⟨hook, part, (plugins.ask hook table part).1, (plugins.ask hook table part).2⟩

end

end PluginChain

/-! ## Parts and wholes -/

/-- What is offered by itself: a part of some kind, or else a class, an
interface or a document as a whole. -/
inductive Hook.Part
  | field (kind : ModelKind)
  | accessor (kind : ModelKind)
  | clientMethod
  | fragment
  | whole
deriving DecidableEq

/-- What part is offered in a place. -/
def Hook.part : {s : Shape} → Hook s → Part
  | _, .modelField kind _ => .field kind
  | _, .modelGetter kind _ | _, .modelSetter kind _ => .accessor kind
  | _, .clientMethod _ => .clientMethod
  | _, .mapperElement _ => .fragment
  | _, .modelClass _ | _, .clientInterface | _, .mapperDocument => .whole

namespace Hearing

theorem filterMap_singleton {α : Type} (f : Hearing → Option α) (h : Hearing) :
    [h].filterMap f = (f h).toList := by
  rw [List.filterMap_cons]
  cases f h <;> rfl

/-- **How an offer opens**: its place and, where it is one of a part, the part
before any plugin has seen it. -/
def opening (h : Hearing) : (s : Shape) × Hook s × Option s.Carrier :=
  ⟨h.shape, h.hook, if h.hook.part = .whole then none else some h.offered⟩

/-- An approved field of a class. -/
def field? (kind : ModelKind) : Hearing → Option Field
  | ⟨.modelField k _, _, _, outcome⟩ => if k = kind then outcome else none
  | _ => none

/-- An approved getter or setter of a class. -/
def accessor? (kind : ModelKind) : Hearing → Option Method
  | ⟨.modelGetter k _, _, _, outcome⟩ => if k = kind then outcome else none
  | ⟨.modelSetter k _, _, _, outcome⟩ => if k = kind then outcome else none
  | _ => none

/-- An approved method of the mapper interface. -/
def clientMethod? : Hearing → Option Method
  | ⟨.clientMethod _, _, _, outcome⟩ => outcome
  | _ => none

/-- An approved fragment of the mapper document. -/
def fragment? : Hearing → Option Markup.Element
  | ⟨.mapperElement _, _, _, outcome⟩ => outcome
  | _ => none

variable {h : Hearing} {kind : ModelKind}

theorem field?_eq_none (hpart : h.hook.part ≠ .field kind) : h.field? kind = none := by
  obtain ⟨hook, offered, seen, outcome⟩ := h
  cases hook
  case modelField k column => exact if_neg fun hk => hpart (congrArg Hook.Part.field hk)
  all_goals rfl

theorem accessor?_eq_none (hpart : h.hook.part ≠ .accessor kind) : h.accessor? kind = none := by
  obtain ⟨hook, offered, seen, outcome⟩ := h
  cases hook
  case modelGetter k column => exact if_neg fun hk => hpart (congrArg Hook.Part.accessor hk)
  case modelSetter k column => exact if_neg fun hk => hpart (congrArg Hook.Part.accessor hk)
  all_goals rfl

theorem clientMethod?_eq_none (hpart : h.hook.part ≠ .clientMethod) : h.clientMethod? = none := by
  obtain ⟨hook, offered, seen, outcome⟩ := h
  cases hook
  case clientMethod => exact absurd rfl hpart
  all_goals rfl

theorem fragment?_eq_none (hpart : h.hook.part ≠ .fragment) : h.fragment? = none := by
  obtain ⟨hook, offered, seen, outcome⟩ := h
  cases hook
  case mapperElement => exact absurd rfl hpart
  all_goals rfl

end Hearing

/-! ## Members of a class -/

namespace JavaUnit

/-- **A class with members added** behind its own, and whatever imports. -/
def AddsMembers (u v : JavaUnit) (fields : List Field) (methods : List Method) : Prop :=
  ∃ imports, v = { u with imports, fields := u.fields ++ fields, methods := u.methods ++ methods }

namespace AddsMembers

variable {u v w : JavaUnit} {fs fs' : List Field} {ms ms' : List Method}

theorem refl (u : JavaUnit) : AddsMembers u u [] [] :=
  ⟨u.imports, by rw [List.append_nil, List.append_nil]⟩

theorem trans (h : AddsMembers u v fs ms) (h' : AddsMembers v w fs' ms') :
    AddsMembers u w (fs ++ fs') (ms ++ ms') := by
  obtain ⟨imports, rfl⟩ := h
  obtain ⟨imports', rfl⟩ := h'
  exact ⟨imports', by rw [List.append_assoc, List.append_assoc]⟩

theorem fields_eq (h : AddsMembers u v fs ms) : v.fields = u.fields ++ fs := by
  obtain ⟨imports, rfl⟩ := h
  rfl

theorem methods_eq (h : AddsMembers u v fs ms) : v.methods = u.methods ++ ms := by
  obtain ⟨imports, rfl⟩ := h
  rfl

theorem addField (u : JavaUnit) (f : Field) : AddsMembers u (u.addField f) [f] [] :=
  ⟨_, by rw [List.append_nil]; rfl⟩

theorem addImports (u : JavaUnit) (ts : List JavaType) : AddsMembers u (u.addImports ts) [] [] := by
  induction ts generalizing u with
  | nil => exact refl u
  | cons t ts ih =>
    have hfirst : AddsMembers u (u.addImport t) [] [] :=
      ⟨(u.addImport t).imports, by rw [List.append_nil, List.append_nil]; rfl⟩
    exact hfirst.trans (ih (u.addImport t))

theorem addMethod (u : JavaUnit) (ts : List JavaType) (m : Method) :
    AddsMembers u ((u.addImports ts).addMethod m) [] [m] :=
  (addImports u ts).trans ⟨(u.addImports ts).imports, by rw [List.append_nil]; rfl⟩

/-- A method is added with its imports if it is approved. -/
theorem addApproved (u : JavaUnit) (imports : Method → List JavaType) (outcome : Option Method) :
    AddsMembers u (match outcome with | some m => (u.addImports (imports m)).addMethod m | none => u) []
      outcome.toList := by
  cases outcome with
  | none => exact refl u
  | some m => exact addMethod u _ m

end AddsMembers

section

variable (plugins : PluginChain) (table : TableModel) (kind : ModelKind)

/-- The offers of fields, one for each property. -/
theorem hearings_addFields (ps : List BeanProperty) (u : JavaUnit) :
    (addFields plugins table kind ps u).hearings =
      ps.map fun p => plugins.hearing (.modelField kind p.column) table p.field := by
  induction ps generalizing u with
  | nil => rfl
  | cons p ps ih =>
    rw [addFields, Heard.hearings_bind, ih]
    rfl

/-- **The approved fields are added**, in the order of the offers. -/
theorem addsMembers_addFields (ps : List BeanProperty) (u : JavaUnit) :
    AddsMembers u (addFields plugins table kind ps u).value
      ((addFields plugins table kind ps u).hearings.filterMap (·.field? kind)) [] := by
  induction ps generalizing u with
  | nil => exact .refl u
  | cons p ps ih =>
    have hown : (plugins.hearing (.modelField kind p.column) table p.field).field? kind =
        (plugins.offer table (.modelField kind p.column) p.field).value := if_pos rfl
    have hfirst : AddsMembers u
        (((plugins.offer table (.modelField kind p.column) p.field).value.map u.addField).getD u)
        ([plugins.hearing (.modelField kind p.column) table p.field].filterMap
          (·.field? kind)) [] := by
      rw [Hearing.filterMap_singleton, hown]
      cases (plugins.offer table (.modelField kind p.column) p.field).value with
      | none => exact .refl u
      | some f => exact .addField u f
    rw [addFields, Heard.value_bind, Heard.hearings_bind, List.filterMap_append]
    exact hfirst.trans (ih _)

theorem addAccessors_cons (readOnly : Bool) (p : BeanProperty)
    (ps : List BeanProperty) (u : JavaUnit) :
    addAccessors plugins table kind readOnly (p :: ps) u
      = addGetter plugins table kind p u >>= fun u =>
      (if readOnly then pure u else addSetter plugins table kind p u) >>=
        addAccessors plugins table kind readOnly ps := by
  cases readOnly <;> rfl

/-- The offers of accessors: a getter for each property and, unless the bean
is read-only, a setter behind it. -/
theorem hearings_addAccessors (readOnly : Bool) (ps : List BeanProperty) (u : JavaUnit) :
    (addAccessors plugins table kind readOnly ps u).hearings = ps.flatMap fun p =>
      plugins.hearing (.modelGetter kind p.column) table p.getter ::
        if readOnly then [] else [plugins.hearing (.modelSetter kind p.column) table p.setter] := by
  induction ps generalizing u with
  | nil => rfl
  | cons p ps ih =>
    rw [addAccessors_cons, Heard.hearings_bind, Heard.hearings_bind, ih]
    cases readOnly <;> rfl

theorem addsMembers_addGetter (p : BeanProperty) (u : JavaUnit) :
    AddsMembers u (addGetter plugins table kind p u).value []
      ((addGetter plugins table kind p u).hearings.filterMap (·.accessor? kind)) := by
  have hown : (plugins.hearing (.modelGetter kind p.column) table p.getter).accessor? kind =
      (plugins.offer table (.modelGetter kind p.column) p.getter).value := if_pos rfl
  show AddsMembers u _ []
      ([plugins.hearing (.modelGetter kind p.column) table p.getter].filterMap _)
  rw [Hearing.filterMap_singleton, hown]
  exact .addApproved u (fun m => m.returnType.toList) _

theorem addsMembers_addSetter (p : BeanProperty) (u : JavaUnit) :
    AddsMembers u (addSetter plugins table kind p u).value []
      ((addSetter plugins table kind p u).hearings.filterMap (·.accessor? kind)) := by
  have hown : (plugins.hearing (.modelSetter kind p.column) table p.setter).accessor? kind =
      (plugins.offer table (.modelSetter kind p.column) p.setter).value := if_pos rfl
  show AddsMembers u _ []
      ([plugins.hearing (.modelSetter kind p.column) table p.setter].filterMap _)
  rw [Hearing.filterMap_singleton, hown]
  exact .addApproved u (fun m => m.parameters.map (·.type)) _

/-- **The approved accessors are added**, in the order of the offers. -/
theorem addsMembers_addAccessors (readOnly : Bool) (ps : List BeanProperty) (u : JavaUnit) :
    AddsMembers u (addAccessors plugins table kind readOnly ps u).value []
      ((addAccessors plugins table kind readOnly ps u).hearings.filterMap (·.accessor? kind)) := by
  induction ps generalizing u with
  | nil => exact .refl u
  | cons p ps ih =>
    have hsetter : ∀ u : JavaUnit,
        AddsMembers u (if readOnly then pure u else addSetter plugins table kind p u :
          Heard JavaUnit).value []
          ((if readOnly then pure u else addSetter plugins table kind p u :
            Heard JavaUnit).hearings.filterMap (·.accessor? kind)) := by
      intro u
      cases readOnly with
      | true => exact .refl u
      | false => exact addsMembers_addSetter plugins table kind p u
    rw [addAccessors_cons, Heard.value_bind, Heard.value_bind, Heard.hearings_bind,
      Heard.hearings_bind, List.filterMap_append, List.filterMap_append]
    exact (addsMembers_addGetter plugins table kind p u).trans ((hsetter _).trans (ih _))

end

end JavaUnit

/-! ## Methods and fragments -/

section

variable (plugins : PluginChain) (table : TableModel)

namespace MapperInterface

/-- The offers of methods, one for each statement. -/
theorem hearings_addMethods (ms : List (FragmentId × Method)) (u : JavaUnit) :
    (addMethods table plugins ms u).hearings = ms.map fun m =>
  plugins.hearing (.clientMethod m.1) table m.2 := by
  induction ms generalizing u with
  | nil => rfl
  | cons m ms ih =>
    rw [addMethods, Heard.hearings_bind, ih]
    rfl

/-- **The approved methods are added**, in the order of the offers. -/
theorem addsMembers_addMethods (ms : List (FragmentId × Method)) (u : JavaUnit) :
    JavaUnit.AddsMembers u (addMethods table plugins ms u).value []
      ((addMethods table plugins ms u).hearings.filterMap (·.clientMethod?)) := by
  induction ms generalizing u with
  | nil => exact .refl u
  | cons m ms ih =>
    have hfirst := JavaUnit.AddsMembers.addApproved u
      (fun m => m.returnType.toList ++ m.parameters.map (·.type))
      (plugins.hearing (.clientMethod m.1) table m.2).clientMethod?
    rw [← Hearing.filterMap_singleton (·.clientMethod?)] at hfirst
    rw [addMethods, Heard.value_bind, Heard.hearings_bind, List.filterMap_append]
    exact hfirst.trans (ih _)

end MapperInterface

namespace MapperDocument

variable (build : Builder)

/-- The offers of fragments, one for each that the rules ask for. -/
theorem hearings_addFragments (ids : List FragmentId) (root : Markup.Element) :
    (addFragments table plugins build ids root).hearings =
      ids.filterMap fun id => (build table id).map (plugins.hearing (.mapperElement id) table) := by
  induction ids generalizing root with
  | nil => rfl
  | cons id ids ih =>
    rw [addFragments, List.filterMap_cons]
    cases build table id with
    | none => exact ih root
    | some element =>
      dsimp only [Option.map_some]
      rw [Heard.hearings_bind, ih]
      rfl

/-- **The approved fragments are added**, in the order of the offers. -/
theorem children_addFragments (ids : List FragmentId) (root : Markup.Element) :
    (addFragments table plugins build ids root).value.children = root.children ++
      ((addFragments table plugins build ids root).hearings.filterMap (·.fragment?)).map
      (·.toNode) := by
  induction ids generalizing root with
  | nil => exact (List.append_nil _).symm
  | cons id ids ih =>
    rw [addFragments]
    cases build table id with
    | none => exact ih root
    | some element =>
      have hown : [plugins.hearing (.mapperElement id) table element].filterMap (·.fragment?) =
          (plugins.offer table (.mapperElement id) element).value.toList :=
        Hearing.filterMap_singleton _ _
      dsimp only
      rw [Heard.value_bind, Heard.hearings_bind, List.filterMap_append, ih]
      show _ = _ ++ ([plugins.hearing (.mapperElement id) table element].filterMap _ ++ _).map _
      rw [hown]
      cases (plugins.offer table (.mapperElement id) element).value with
      | none => rfl
      | some approved => exact List.append_assoc ..

end MapperDocument

end

end TableMapper
