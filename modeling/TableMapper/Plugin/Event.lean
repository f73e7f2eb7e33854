import TableMapper.Artifact.FragmentId
import TableMapper.Markup.Basic
import TableMapper.Plugin.Builtin
import TableMapper.Table.Model
import TableMapper.Unit.Basic

/-!
# Plugins

Every part of an artifact is offered to the plugins of a run in order: each
field, accessor, interface method and fragment by itself, and then the whole
class, interface or document. A plugin hands the part back, edited or not,
or vetoes it, and the first veto ends the offer. What a plugin may edit is
fixed by the kind of the part, so an offer is indexed by its shape.
-/

namespace TableMapper

/-- What kind of part is offered. -/
inductive Shape
  | field | method | unit | element | document
deriving Repr, DecidableEq

/-- The parts of a shape. -/
abbrev Shape.Carrier : Shape → Type
  | .field => Field
  | .method => Method
  | .unit => JavaUnit
  | .element => Markup.Element
  | .document => Markup.Document

/-- Which of the two classes of a table a part belongs to. -/
inductive ModelKind
  | record
  | queryCondition
deriving Repr, DecidableEq

/-- **The place of a part**: where in the artifacts of a table it stands. A
property may have no column behind it. -/
inductive Hook : Shape → Type
  | modelField (kind : ModelKind) (column : Option ColumnModel) : Hook .field
  | modelGetter (kind : ModelKind) (column : Option ColumnModel) : Hook .method
  | modelSetter (kind : ModelKind) (column : Option ColumnModel) : Hook .method
  | modelClass (kind : ModelKind) : Hook .unit
  | clientMethod (statement : FragmentId) : Hook .method
  | clientInterface : Hook .unit
  | mapperElement (fragment : FragmentId) : Hook .element
  | mapperDocument : Hook .document

/-- Which class a part of a class belongs to. -/
def Hook.modelKind? : {s : Shape} → Hook s → Option ModelKind
  | _, .modelField kind _ | _, .modelGetter kind _ | _, .modelSetter kind _
  | _, .modelClass kind => some kind
  | _, _ => none

/-- The column behind a part of a class. -/
def Hook.column? : {s : Shape} → Hook s → Option ColumnModel
  | _, .modelField _ column | _, .modelGetter _ column | _, .modelSetter _ column => column
  | _, _ => none

/-- A short description of a part in its place. -/
def Hook.label : {s : Shape} → Hook s → s.Carrier → String
  | _, .modelField _ _, field => "field " ++ field.name
  | _, .modelGetter _ _, method => "method " ++ method.name
  | _, .modelSetter _ _, method => "method " ++ method.name
  | _, .modelClass _, unit => "type " ++ unit.type.shortName
  | _, .clientMethod _, method => "mapper method " ++ method.name
  | _, .clientInterface, unit => "type " ++ unit.type.shortName
  | _, .mapperElement fragment, _ => "fragment " ++ fragment.name
  | _, .mapperDocument, document => "document " ++ document.root.name

/-- **A plugin**: hands a part back as it leaves it, or vetoes it. -/
structure Plugin where
  name : String
  judge : {s : Shape} → Hook s → TableModel → s.Carrier → Option s.Carrier

/-- The work of the plugins the configuration can name. -/
def BuiltinPlugin.judge : BuiltinPlugin → {s : Shape} → Hook s → s.Carrier → Option s.Carrier
  | .lombok, _, .modelClass _, unit =>
    some ((unit.addImport (.named "lombok.Data")).annotate "@Data")
  | .lombok, _, .modelGetter _ _, _ => none
  | .lombok, _, .modelSetter _ _, _ => none
  | .mapperMark, _, .clientInterface, unit =>
    some ((unit.addImport (.named "org.apache.ibatis.annotations.Mapper")).annotate "@Mapper")
  | _, _, _, part => some part

/-- A plugin the configuration can name. -/
def Plugin.builtin (p : BuiltinPlugin) : Plugin where
  name := p.name
  judge hook _ part := p.judge hook part

/-- **An offer as it went**: the part as each plugin asked saw it, in order,
and what came out. Plugins behind a veto are not asked. -/
structure Hearing where
  {shape : Shape}
  hook : Hook shape
  /-- The part before any plugin edited it. -/
  offered : shape.Carrier
  seen : List shape.Carrier
  outcome : Option shape.Carrier

/-- The plugins of a run, in order. -/
abbrev PluginChain := List Plugin

/-- Asks the plugins in order: what each one saw, and the part as the last
one left it unless one vetoed. -/
def PluginChain.ask {s : Shape} (hook : Hook s) (table : TableModel) :
    PluginChain → s.Carrier → List s.Carrier × Option s.Carrier
  | [], part => ([], some part)
  | plugin :: rest, part =>
    match plugin.judge hook table part with
    | none => ([part], none)
    | some edited =>
      let (seen, outcome) := PluginChain.ask hook table rest edited
      (part :: seen, outcome)

/-- A result with the offers made on the way, in order. -/
structure Heard (α : Type) where
  hearings : List Hearing
  value : α

namespace Heard

/-- A result without offers. -/
protected def pure {α : Type} (value : α) : Heard α :=
  ⟨[], value⟩

/-- One result after another, with the offers of both. -/
protected def bind {α β : Type} (first : Heard α) (next : α → Heard β) : Heard β :=
  let second := next first.value
  ⟨first.hearings ++ second.hearings, second.value⟩

instance : Monad Heard where
  pure := Heard.pure
  bind := Heard.bind

@[simp] theorem value_pure {α : Type} (a : α) : (pure a : Heard α).value = a := rfl

@[simp] theorem hearings_pure {α : Type} (a : α) : (pure a : Heard α).hearings = [] := rfl

@[simp] theorem value_bind {α β : Type} (x : Heard α) (f : α → Heard β) :
    (x >>= f).value = (f x.value).value := rfl

@[simp] theorem hearings_bind {α β : Type} (x : Heard α) (f : α → Heard β) :
    (x >>= f).hearings = x.hearings ++ (f x.value).hearings := rfl

end Heard

/-- **Offers a part to the plugins.** -/
def PluginChain.offer (plugins : PluginChain) {s : Shape} (table : TableModel) (hook : Hook s)
    (part : s.Carrier) : Heard (Option s.Carrier) :=
  let (seen, outcome) := plugins.ask hook table part
  ⟨[⟨hook, part, seen, outcome⟩], outcome⟩

/-- Without plugins every part is approved as it is. -/
@[simp] theorem PluginChain.value_offer_nil {s : Shape} (table : TableModel) (hook : Hook s)
    (part : s.Carrier) : (PluginChain.offer [] table hook part).value = some part := rfl

end TableMapper
