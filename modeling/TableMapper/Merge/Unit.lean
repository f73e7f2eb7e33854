import TableMapper.Merge.Fault
import TableMapper.Merge.Member
import TableMapper.Unit.Declared
import TableMapper.Unit.Render

/-!
# Merging into an existing source file

Hand-written members of the existing type are kept verbatim, behind the
fresh members, and take the place of fresh members with their key. The
imports, interfaces and annotations of the existing file are added to the
fresh ones. If the existing file declares something of another kind or with
another superclass, nothing is merged.
-/

namespace TableMapper

/-- The last part of a type name, without arguments. -/
def baseName (name : String) : String :=
  let front := name.toList.takeWhile (· != '<')
  String.ofList (Text.splitLast '.' (Text.trim front)).2

namespace JavaUnit

/-- The existing declaration must be of the kind of the fresh one and extend
the same class, as far as the last parts of the names tell. -/
def checkDeclared (fresh : JavaUnit) (old : Declared) : Except MergeReason Unit :=
  let superclass := fresh.superclass.map (·.shortName)
  if old.kind ≠ fresh.kind.declared then
    .error (.declaredAs old.kind.keyword fresh.kind.keyword)
  else if old.superclass.map baseName ≠ superclass.map baseName then
    .error (.superclass old.superclass superclass)
  else .ok ()

/-- An interface named in the existing file, unless one with the same last
part is there. -/
def keepSuperInterface (u : JavaUnit) (name : String) : JavaUnit :=
  if u.superInterfaces.any fun t => baseName t.shortName == baseName name then u
  else { u with superInterfaces := u.superInterfaces ++ [.named name] }

/-- The imports, interfaces and annotations of an existing file, added. -/
def keepHeader (u : JavaUnit) (old : Declared) : JavaUnit :=
  let imported := { u with
    imports := old.imports.foldl (fun set name => Text.insertSorted name set) u.imports }
  let extended := old.superInterfaces.foldl keepSuperInterface imported
  old.annotations.foldl annotate extended

/-- Hand-written members, added in place of the fresh ones with their
keys. -/
def keepMembers (u : JavaUnit) (kept : List Member) : JavaUnit :=
  let keys := kept.filterMap (·.key)
  let owner := u.type.shortName
  { u with
    fields := u.fields.filter fun f => !keys.contains f.key
    methods := u.methods.filter fun m => !keys.contains (m.key owner)
    retained := kept.map (·.text) }

/-- **The text of a fresh file merged into an existing one.** -/
def mergeInto (fresh : JavaUnit) (existing : String) : Except MergeReason String :=
  match Declared.ofSource? (Source.ofText existing) with
  | none => .error .noDeclaration
  | some old => do
    fresh.checkDeclared old
    let kept := (Member.ofBody old.body).filter (!·.tagged)
    return ((fresh.keepHeader old).keepMembers kept).render

end JavaUnit

end TableMapper
