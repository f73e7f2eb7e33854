import TableMapper.Proofs.Merge.RefusedTypes

/-!
# The imports and interfaces of a type, kept

A merge adds the imports that it has read to those of the fresh unit, and the
interfaces that it has read and that the fresh unit does not list under the same
last name. An interface is written by what stands behind the last dot of its
text. That is its name without the package only if no dot stands in its
arguments, and then it takes an import to say which interface is meant. So
**imports and interfaces survive exactly if the imports are read, the header
stands on one line, and each interface is written without dots or is imported**
(`JavaUnit.keepsHeading_iff`).
-/

namespace TableMapper

namespace Source

/-! ## Names of types -/

/-- A type without its arguments. -/
def typeName (cs : List Char) : List Char :=
  cs.takeWhile (· != '<')

/-- The arguments of a type. -/
def typeArguments (cs : List Char) : List Char :=
  cs.dropWhile (· != '<')

/-- What stands behind the last dot. -/
def lastPart (cs : List Char) : List Char :=
  (Text.splitLast '.' cs).2

/-- **The name of a type** without package, arguments and blanks. -/
def simpleName (cs : List Char) : List Char :=
  lastPart (pathName (typeName cs))

/-- **The simple name of a class is in scope** by imports, or because the class
is in the package or in `java.lang`. -/
inductive BringsIn (package : Option String) (imports : List String) : List Char → Prop
  | imported {word : String} {full : List Char} : word ∈ ["", "static "] →
      word ++ String.ofList full ∈ imports →
      BringsIn package imports full
  | onDemand {word : String} {front name : List Char} : '.' ∉ name → word ∈ ["", "static "] →
      word ++ String.ofList (front ++ ".*".toList) ∈ "java.lang.*" :: imports →
      BringsIn package imports (front ++ '.' :: name)
  | own {front name : List Char} : '.' ∉ name → package = some (String.ofList front) →
      BringsIn package imports (front ++ '.' :: name)

/-- The interfaces that the type of a kind names in its header. -/
def TypeHeader.interfaces (h : TypeHeader) : DeclaredKind → List (List Char)
  | .interface => h.extended.elim [] (·.entries)
  | .annotationType => []
  | _ => h.implemented.elim [] (·.entries)

/-- **The interface is named in a way that survives**: without dots, or with a
name that is in scope without them. -/
def Prologue.Spares (p : Prologue) (package : Option String) (name : List Char) : Prop :=
  '.' ∉ name ∨ '.' ∉ typeArguments name ∧
    ∃ full, p.Denotes (pathName (typeName name)) full ∧ BringsIn package (p.read.map (·.name)) full

section

variable {cs front last args full name : List Char} {package : Option String}
  {imports more : List String}

theorem typeName_append_typeArguments (cs : List Char) : typeName cs ++ typeArguments cs = cs :=
  List.takeWhile_append_dropWhile

theorem lastPart_of_not_mem (h : '.' ∉ cs) : lastPart cs = cs := by
  rw [lastPart, Text.splitLast_of_not_mem h]

theorem lastPart_append (h : '.' ∉ last) (front : List Char) :
    lastPart (front ++ '.' :: last) = last := by
  rw [lastPart, Text.splitLast_append h]

/-- What stands behind the last dot, and what stands in front of it. -/
theorem exists_lastPart (h : '.' ∈ cs) :
    ∃ front last, cs = front ++ '.' :: last ∧ '.' ∉ last ∧ lastPart cs = last := by
  obtain ⟨front, last, rfl, hlast⟩ := Text.exists_last_of_mem h
  exact ⟨front, last, rfl, hlast, lastPart_append hlast front⟩

theorem not_mem_lastPart (cs : List Char) : '.' ∉ lastPart cs := by
  by_cases h : '.' ∈ cs
  · obtain ⟨front, last, -, hlast, heq⟩ := exists_lastPart h
    rwa [heq]
  · rwa [lastPart_of_not_mem h]

/-- What holds no dots belongs to the last part. -/
theorem lastPart_append_of_not_mem (h : '.' ∉ args) (cs : List Char) :
    lastPart (cs ++ args) = lastPart cs ++ args := by
  by_cases hcs : '.' ∈ cs
  · obtain ⟨front, last, rfl, hlast, -⟩ := exists_lastPart hcs
    have hboth : '.' ∉ last ++ args := by simp [hlast, h]
    rw [List.append_assoc, List.cons_append, lastPart_append hboth, lastPart_append hlast]
  · have hboth : '.' ∉ cs ++ args := by simp [hcs, h]
    rw [lastPart_of_not_mem hcs, lastPart_of_not_mem hboth]

theorem lastPart_subset (cs : List Char) : lastPart cs ⊆ cs := by
  by_cases h : '.' ∈ cs
  · obtain ⟨front, last, rfl, -, heq⟩ := exists_lastPart h
    rw [heq]
    exact fun c hc => by simp [hc]
  · rw [lastPart_of_not_mem h]
    exact List.Subset.refl cs

/-- Blanks make no difference to where the last part begins. -/
theorem lastPart_pathName (cs : List Char) : lastPart (pathName cs) = pathName (lastPart cs) := by
  have hdot : ∀ {part : List Char}, '.' ∉ part → '.' ∉ pathName part :=
    fun hpart hmem => hpart (List.mem_of_mem_filter hmem)
  by_cases h : '.' ∈ cs
  · obtain ⟨front, last, rfl, hlast, heq⟩ := exists_lastPart h
    have hcut : pathName (front ++ '.' :: last) = pathName front ++ '.' :: pathName last := by
      simp only [pathName, List.filter_append]
      rfl
    rw [heq, hcut, lastPart_append (hdot hlast)]
  · rw [lastPart_of_not_mem h, lastPart_of_not_mem (hdot h)]

/-- Without its package an interface has the same simple name. -/
theorem simpleName_lastPart (h : '.' ∉ typeArguments cs) :
    simpleName (lastPart cs) = simpleName cs := by
  have hname : ∀ c ∈ lastPart (typeName cs), (c != '<') = true :=
    fun c hc => (List.mem_takeWhile_imp (lastPart_subset _ hc) :)
  have harguments : (typeArguments cs).takeWhile (· != '<') = [] := by
    have hhead := List.head?_dropWhile_not (· != '<') cs
    rw [← typeArguments] at hhead
    cases hargs : typeArguments cs with
    | nil => rfl
    | cons c args =>
      rw [hargs] at hhead
      exact List.takeWhile_cons_of_neg (by simpa using hhead)
  have hcut : lastPart cs = lastPart (typeName cs) ++ typeArguments cs := by
    rw [← lastPart_append_of_not_mem h, typeName_append_typeArguments]
  have htype : typeName (lastPart cs) = lastPart (typeName cs) := by
    rw [hcut, typeName, List.takeWhile_append_of_pos hname, harguments, List.append_nil]
  rw [simpleName, htype, lastPart_pathName, lastPart_of_not_mem (not_mem_lastPart _),
    ← lastPart_pathName, simpleName]

/-- The simple name is the part of a type by which a merge compares it. -/
theorem simpleName_eq (cs : List Char) :
    simpleName cs = pathName (baseName (String.ofList cs)).toList := by
  rw [baseName, String.toList_ofList, String.toList_ofList]
  show lastPart (pathName (typeName cs)) = pathName (lastPart (Text.trim (typeName cs)))
  rw [← lastPart_pathName]
  exact congrArg lastPart (Text.filter_trim _).symm

theorem BringsIn.mono (h : BringsIn package imports full) (hmore : ∀ name ∈ imports, name ∈ more) :
    BringsIn package more full := by
  cases h with
  | imported hword hname => exact .imported hword (hmore _ hname)
  | onDemand hdot hword hname =>
    refine .onDemand hdot hword ?_
    rcases List.mem_cons.1 hname with heq | hname
    · exact List.mem_cons.2 (.inl heq)
    · exact List.mem_cons_of_mem _ (hmore _ hname)
  | own hdot hpackage => exact .own hdot hpackage

end

end Source

open Source

namespace JavaUnit

/-- **The interface is named in the header, and still denotes the same
type**: its text is the same, or the package is left out and the simple name is
in scope. -/
def HasInterface (u : JavaUnit) (p : Prologue) (name : List Char) : Prop :=
  ∃ t ∈ u.superInterfaces, t.shortName.toList = name ∨
    t.shortName.toList = lastPart (typeName name) ++ typeArguments name ∧
      ∃ full, p.Denotes (pathName (typeName name)) full ∧
      BringsIn u.type.packageName? u.imports full

/-- **Imports and interfaces of the old file survive**: all imports, and the
interfaces that the fresh unit does not list itself. -/
def KeepsHeading (fresh : JavaUnit) (f : TypeFile) (kind : DeclaredKind) (p : Prologue)
    (h : TypeHeader) : Prop :=
  ∀ merged, fresh.mergeInto f.text = .ok merged →
    ∃ old, Declared.ofSource? (ofText f.text) = some old ∧ (fresh.mergedFrom old).render = merged ∧
      (∀ c ∈ p.imports, c.name ∈ (fresh.mergedFrom old).imports) ∧
      ∀ name ∈ h.interfaces kind,
      (∀ t ∈ fresh.superInterfaces, simpleName t.shortName.toList ≠ simpleName name) →
        (fresh.mergedFrom old).HasInterface p name

section

variable {u fresh : JavaUnit} {f : TypeFile} {kind : DeclaredKind} {p : Prologue}
  {h : TypeHeader} {name : String}
  {names : List String} {package : Option String} {old : Declared}

/-! ## What a merge adds -/

theorem shortName_named (name : String) :
    (JavaType.named name).shortName.toList = lastPart name.toList :=
  String.toList_ofList

/-- **An interface is added** if none with its last name is there. -/
theorem mem_foldl_keepSuperInterface (hname : name ∈ names)
    (hu : ∀ t ∈ u.superInterfaces, baseName t.shortName ≠ baseName name)
    (hothers : ∀ other ∈ names, other ≠ name →
      baseName (JavaType.named other).shortName ≠ baseName name) :
    .named name ∈ (names.foldl keepSuperInterface u).superInterfaces := by
  induction names generalizing u with
  | nil => exact absurd hname List.not_mem_nil
  | cons other names ih =>
    rw [List.foldl_cons]
    by_cases heq : other = name
    · -- the interface is added here, and stays
      subst heq
      obtain ⟨added, -, hall⟩ := exists_foldl_keepSuperInterface names (u.keepSuperInterface other)
      have hnone : ¬ (u.superInterfaces.any fun t => baseName t.shortName == baseName other)
          = true := by
        simpa using hu
      rw [hall, keepSuperInterface, if_neg hnone]
      simp
    · refine ih ((List.mem_cons.1 hname).resolve_left fun h => heq h.symm) (fun t ht => ?_)
        fun another hanother => hothers another (List.mem_cons_of_mem other hanother)
      rw [keepSuperInterface] at ht
      split at ht
      · exact hu t ht
      · rcases List.mem_append.1 ht with ht | ht
        · exact hu t ht
        · rw [List.mem_singleton.1 ht]
          exact hothers other List.mem_cons_self heq

theorem imports_mergedFrom (fresh : JavaUnit) (old : Declared) :
    ∀ name, name ∈ (fresh.mergedFrom old).imports ↔ name ∈ old.imports ∨ name ∈ fresh.imports := by
  obtain ⟨extended, -, hextended⟩ := exists_foldl_keepSuperInterface old.superInterfaces
    { fresh with imports := old.imports.foldl (fun set name => Text.insertSorted name set) fresh.imports }
  intro name
  show name ∈ (fresh.keepHeader old).imports ↔ _
  rw [keepHeader, foldl_annotate, hextended]
  exact Text.mem_foldl_insertSorted

theorem superInterfaces_mergedFrom (fresh : JavaUnit) (old : Declared) :
    (fresh.mergedFrom old).superInterfaces
    = (old.superInterfaces.foldl keepSuperInterface { fresh with
        imports := old.imports.foldl (fun set name => Text.insertSorted name set)
          fresh.imports }).superInterfaces := by
  show (fresh.keepHeader old).superInterfaces = _
  rw [keepHeader, foldl_annotate]

/-! ## What is read of the heading -/

/-- **The imports that are read** are those that begin on a line of their own
and have a readable name. -/
theorem imports_declared (hf : f.IsRead kind p h)
    (hmodifiers : ∀ c ∈ ofText f.modifiers, c.code ≠ ';') :
    (f.declared kind).imports = p.read.map (·.name) := by
  obtain ⟨tail, rest, hprelude, -, htail, -⟩ := hf.exists_prelude
  have hrest : ∀ c ∈ ofText f.modifiers ++ tail, c.code ≠ ';' := by
    intro c hc
    rcases List.mem_append.1 hc with hc | hc
    · exact hmodifiers c hc
    · exact htail c hc
  rw [TypeFile.declared, Declared.ofDeclaration]
  simp only
  rw [hprelude, TypeFile.lead, List.append_assoc]
  exact hf.prologue.importsFrom hf.prologue_code hrest

/-- The interfaces that are read. -/
theorem superInterfaces_declared (hf : f.IsRead kind p h)
    (hkind : kind = .class ∨ kind = .interface) :
    (f.declared kind).superInterfaces
      = if h.OnOneLine then (h.interfaces kind).map String.ofList else [] := by
  obtain ⟨hheader, hcode⟩ := hf.isHeader (by rcases hkind with rfl | rfl <;> decide)
    (by rcases hkind with rfl | rfl <;> decide)
  have hseen : f.seenKind kind = kind :=
    f.seenKind_of_ne (by rcases hkind with rfl | rfl <;> decide)
  rw [TypeFile.declared, Declared.ofDeclaration]
  simp only [hseen, hcode, hheader.clauses_code]
  rcases hkind with rfl | rfl
  · rw [if_neg (by decide)]
    by_cases hline : h.OnOneLine
    · rw [if_pos hline, if_pos hline]
      show h.implemented.elim [] (·.names) = (h.implemented.elim [] (·.entries)).map String.ofList
      cases h.implemented <;> rfl
    · rw [if_neg hline, if_neg hline]
  · rw [if_pos rfl]
    by_cases hline : h.OnOneLine
    · rw [if_pos hline, if_pos hline]
      show h.extended.elim [] (·.names) = (h.extended.elim [] (·.entries)).map String.ofList
      cases h.extended <;> rfl
    · rw [if_neg hline, if_neg hline]

/-- A type that is merged into is a class or an interface, if it names
interfaces. -/
theorem kind_of_mergeInto (hf : f.IsRead kind p h) {merged : String}
    (hmerged : fresh.mergeInto f.text = .ok merged)
    {name : List Char} (hname : name ∈ h.interfaces kind) : kind = .class ∨ kind = .interface := by
  have hcheck := ((mergeInto_eq_ok_iff_of_declared hf.ofSource?_text).1 hmerged).1
  have hseen : f.seenKind kind = fresh.kind.declared := (checkDeclared_iff.1 hcheck).1
  cases kind with
  | «class» => exact .inl rfl
  | interface => exact .inr rfl
  | annotationType => exact absurd hname List.not_mem_nil
  | enum =>
    rw [f.seenKind_of_ne (by decide)] at hseen
    cases hfresh : fresh.kind <;> rw [hfresh] at hseen <;> exact absurd hseen (by decide)
  | record =>
    rw [f.seenKind_of_ne (by decide)] at hseen
    cases hfresh : fresh.kind <;> rw [hfresh] at hseen <;> exact absurd hseen (by decide)

theorem packageName?_mergedFrom (fresh : JavaUnit) (old : Declared) :
    (fresh.mergedFrom old).type.packageName? = fresh.type.packageName? := by
  obtain ⟨imports, superInterfaces, annotations, hheader⟩ := exists_keepHeader fresh old
  show (fresh.keepHeader old).type.packageName? = _
  rw [hheader]

/-- An interface that is read keeps its simple name when it is written, if it
is spared. -/
theorem simpleName_lastPart_of_spares {name : List Char} (hname : p.Spares package name) :
    simpleName (lastPart name) = simpleName name := by
  rcases hname with hdot | ⟨hdot, -⟩
  · rw [lastPart_of_not_mem hdot]
  · exact simpleName_lastPart hdot

/-- **An interface that is spared survives**, if those beside it are spared too
and have other names. -/
theorem hasInterface_mergedFrom (hf : f.IsRead kind p h) (hkind : kind = .class ∨ kind = .interface)
    (himports : (f.declared kind).imports = p.read.map (·.name)) (hline : h.OnOneLine)
    (hdistinct : ((h.interfaces kind).map simpleName).Nodup)
    (hspares : ∀ name ∈ h.interfaces kind, p.Spares fresh.type.packageName? name) {name : List Char}
    (hname : name ∈ h.interfaces kind)
    (hfresh : ∀ t ∈ fresh.superInterfaces, simpleName t.shortName.toList ≠ simpleName name) :
    (fresh.mergedFrom (f.declared kind)).HasInterface p name := by
  have hread : (f.declared kind).superInterfaces = (h.interfaces kind).map String.ofList := by
    rw [superInterfaces_declared hf hkind, if_pos hline]
  have hcompare : ∀ {short : String}, baseName short = baseName (String.ofList name) →
      simpleName short.toList = simpleName name := by
    intro short heq
    rw [simpleName_eq, simpleName_eq name, String.ofList_toList, heq]
  have hadded : .named (String.ofList name)
      ∈ (fresh.mergedFrom (f.declared kind)).superInterfaces := by
    rw [superInterfaces_mergedFrom, hread]
    refine mem_foldl_keepSuperInterface (List.mem_map_of_mem hname)
      (fun t ht heq => hfresh t ht (hcompare heq)) ?_
    intro other hother hne heq
    obtain ⟨other, hmem, rfl⟩ := List.mem_map.1 hother
    have hsame := hcompare heq
    rw [shortName_named, String.toList_ofList,
      simpleName_lastPart_of_spares (hspares other hmem)] at hsame
    exact hne (congrArg String.ofList (List.inj_on_of_nodup_map hdistinct hmem hname hsame))
  refine ⟨_, hadded, ?_⟩
  rw [shortName_named, String.toList_ofList]
  rcases hspares name hname with hdot | ⟨hdot, full, hdenotes, hscope⟩
  · exact .inl (lastPart_of_not_mem hdot)
  · refine .inr ⟨?_, full, hdenotes, ?_⟩
    · rw [← lastPart_append_of_not_mem hdot, typeName_append_typeArguments]
    · rw [packageName?_mergedFrom]
      refine hscope.mono fun imported himported => (imports_mergedFrom _ _ imported).2 (.inl ?_)
      rwa [himports]

/-- **An interface that survives without a fresh one beside it is spared.** -/
theorem spares_of_hasInterface (hf : f.IsRead kind p h) (hkind : kind = .class ∨ kind = .interface)
    (himports : (f.declared kind).imports = p.read.map (·.name))
    (hinterfaces : fresh.superInterfaces = [])
    (hnone : fresh.imports = []) {name : List Char}
    (hhas : (fresh.mergedFrom (f.declared kind)).HasInterface p name) :
    h.OnOneLine ∧ p.Spares fresh.type.packageName? name := by
  obtain ⟨t, ht, hshort⟩ := hhas
  obtain ⟨added, hoffered, hadded⟩ :=
    exists_foldl_keepSuperInterface (f.declared kind).superInterfaces
    { fresh with imports := (f.declared kind).imports.foldl (fun set name => Text.insertSorted name set) fresh.imports }
  rw [superInterfaces_mergedFrom, hadded] at ht
  obtain ⟨other, hother, rfl⟩ := hoffered t (by simpa [hinterfaces] using ht)
  have hline : h.OnOneLine := by
    by_contra hline
    rw [superInterfaces_declared hf hkind, if_neg hline] at hother
    exact absurd hother List.not_mem_nil
  refine ⟨hline, ?_⟩
  -- what is written holds no dots
  have hdot := not_mem_lastPart other.toList
  rw [shortName_named] at hshort
  rcases hshort with heq | ⟨heq, full, hdenotes, hscope⟩
  · exact .inl (heq ▸ hdot)
  · rw [heq] at hdot
    refine .inr ⟨fun hmem => hdot (List.mem_append_right _ hmem), full, hdenotes, ?_⟩
    rw [packageName?_mergedFrom] at hscope
    refine hscope.mono fun imported hmem => ?_
    have hread := (imports_mergedFrom _ _ imported).1 hmem
    rwa [hnone, himports, or_iff_left List.not_mem_nil] at hread

/-- **Imports and interfaces survive**, whatever is merged into the file,
exactly if every import is read, and every interface stands in a header on one
line and is named without dots or in scope without its package. -/
theorem keepsHeading_iff (hf : f.IsRead kind p h) (hmodifiers : ∀ c ∈ ofText f.modifiers, c.code ≠ ';')
    (hdistinct : ((h.interfaces kind).map simpleName).Nodup)
    (hok : ∃ (fresh : JavaUnit) (merged : String), fresh.type.packageName? = package ∧
      fresh.mergeInto f.text = .ok merged) :
    (∀ fresh : JavaUnit, fresh.type.packageName? = package → fresh.KeepsHeading f kind p h) ↔
      (∀ c ∈ p.imports, c.name ∈ p.read.map (·.name)) ∧
      ∀ name ∈ h.interfaces kind, h.OnOneLine ∧ p.Spares package name := by
  have hold : Declared.ofSource? (ofText f.text) = some (f.declared kind) := hf.ofSource?_text
  have himports := imports_declared hf hmodifiers
  constructor
  · intro hkeeps
    obtain ⟨fresh, merged, hpackage, hmerged⟩ := hok
    -- a unit without imports and interfaces of its own shows what is read
    obtain ⟨bare, htype, hnone, hinterfaces, -, written, hbare⟩ := exists_mergeInto_bare hmerged
    obtain ⟨old, hread, -, hall, hhas⟩ := hkeeps bare (by rw [htype, hpackage]) written hbare
    obtain rfl := Option.some.inj (hold.symm.trans hread)
    refine ⟨fun c hc => ?_, fun name hname => ?_⟩
    · have hmem := (imports_mergedFrom _ _ _).1 (hall c hc)
      rwa [himports, hnone, or_iff_left List.not_mem_nil] at hmem
    · have hspared := spares_of_hasInterface hf (kind_of_mergeInto hf hmerged hname)
        himports hinterfaces hnone
        (hhas name hname (by simp [hinterfaces]))
      rwa [htype, hpackage] at hspared
  · rintro ⟨hall, hspares⟩ fresh hpackage merged hmerged
    refine ⟨_, hold, ((mergeInto_eq_ok_iff_of_declared hold).1 hmerged).2, fun c hc => ?_,
      fun name hname hfresh => ?_⟩
    · exact (imports_mergedFrom _ _ _).2 (.inl (by rw [himports]; exact hall c hc))
    · refine hasInterface_mergedFrom hf (kind_of_mergeInto hf hmerged hname) himports
        (hspares name hname).1 hdistinct
        (fun other hother => ?_) hname hfresh
      rw [hpackage]
      exact (hspares other hother).2

/-- What is seen in the merged unit, if imports and interfaces survive. -/
theorem KeepsHeading.written (hkeeps : fresh.KeepsHeading f kind p h) (imports : List String)
    (shorts : List (List Char)) (hfresh : fresh.superInterfaces = [])
    (hok : (fresh.mergeInto f.text).isOk = true)
    (hread : (Declared.ofSource? (ofText f.text)).map (fun old => ((fresh.mergedFrom old).imports,
      (fresh.mergedFrom old).superInterfaces.map (·.shortName.toList))) = some (imports, shorts)) :
    (∀ c ∈ p.imports, c.name ∈ imports) ∧
      ∀ name ∈ h.interfaces kind, name ∈ shorts ∨
      lastPart (typeName name) ++ typeArguments name ∈ shorts := by
  obtain ⟨merged, hmerged⟩ := exists_merged hok
  obtain ⟨old, hold, -, himports, hinterfaces⟩ := hkeeps merged hmerged
  rw [hold] at hread
  obtain ⟨rfl, rfl⟩ := Prod.mk.inj (Option.some.inj hread)
  refine ⟨himports, fun name hname => ?_⟩
  obtain ⟨t, ht, heq | ⟨heq, -⟩⟩ := hinterfaces name hname (by simp [hfresh])
  · exact .inl (heq ▸ List.mem_map_of_mem ht)
  · exact .inr (heq ▸ List.mem_map_of_mem ht)

end

/-! ## Some files -/

/-- A class with an import and two interfaces. -/
def serializableFile : TypeFile :=
  { baseFile with
    front := "package a;\n\nimport java.io.Serializable;"
    header := " implements java.io.Serializable, Comparable<Orders> " }

def serializableImport : ImportClause where
  lead := "\n\n".toList
  gap := [' ']
  path := "java.io.Serializable".toList

def serializablePrologue : Prologue :=
  { basePrologue with imports := [serializableImport] }

def serializableHeader : TypeHeader where
  implemented := some
    { gap := [' ']
      space := [' ']
      list := "java.io.Serializable, Comparable<Orders>".toList
      entries := ["java.io.Serializable".toList, "Comparable<Orders>".toList] }
  behind := [' ']

theorem isRead_serializableFile :
    serializableFile.IsRead .class serializablePrologue serializableHeader :=
  { isRead_baseFile with
    front_settled := settled_of_inert (by decide)
    header_settled := settled_of_inert (by decide)
    idle := idle_of_tails (by decide) (by decide)
    separate := by decide
    header := by decide
    name_ends := by decide
    prologue := by
      refine ⟨isPrologue_base.package, List.forall_mem_singleton.2 ?_⟩
      exact ⟨by decide, by decide, by decide, by simp [serializableImport], by decide, by decide, by
        decide, by decide, unreserved_of_not_isInfix (by decide)⟩
    prologue_code := by decide
    isHeader := by
      refine fun _ _ =>
        ⟨⟨.inl rfl, by simp [serializableHeader], ?_, by simp [serializableHeader], by decide⟩,
        by decide⟩
      rintro c ⟨⟩
      have hsecond : Text.IsList "Comparable<Orders>".toList ["Comparable<Orders>".toList] :=
        .single (Text.isEntry_of_inits (by decide) (by decide) (by decide) (by decide))
      have hboth : Text.IsList
        ("java.io.Serializable".toList ++ ([] ++ ',' :: ([' '] ++ "Comparable<Orders>".toList)))
          ["java.io.Serializable".toList, "Comparable<Orders>".toList] :=
        .cons (Text.isEntry_of_inits (by decide) (by decide) (by decide) (by decide))
          (by decide) (by decide) hsecond
      exact ⟨by decide, by decide, by decide, hboth, unmistaken_of_not_isInfix (by decide)⟩ }

/-- An interface that is imported, and one without dots. -/
theorem keepsHeading_serializableFile :
    (∃ merged, orders.type.packageName? = some "a" ∧ orders.mergeInto serializableFile.text = .ok merged) ∧
    ∀ fresh : JavaUnit, fresh.type.packageName? = some "a" →
      fresh.KeepsHeading serializableFile .class serializablePrologue serializableHeader := by
  obtain ⟨merged, hmerged⟩ : ∃ merged, orders.mergeInto serializableFile.text = .ok merged :=
    exists_merged (by decide +kernel)
  refine ⟨⟨merged, by decide, hmerged⟩,
    (keepsHeading_iff isRead_serializableFile (by decide +kernel) (by decide)
    ⟨orders, merged, by decide, hmerged⟩).2 ⟨by decide, ?_⟩⟩
  intro name hname
  refine ⟨by decide, ?_⟩
  obtain rfl | rfl : name = "java.io.Serializable".toList ∨ name = "Comparable<Orders>".toList := by
    simpa [serializableHeader, TypeHeader.interfaces] using hname
  · exact .inr ⟨by decide, _, .qualified (by decide), .imported (List.mem_cons_self) (by decide)⟩
  · exact .inl (by decide)

/-- A class that implements one type. -/
def implementing (list : List Char) (entries : List (List Char)) : TypeHeader where
  implemented := some { gap := [' '], space := [' '], list, entries }
  behind := [' ']

/-- A class that is compared with the class of a package. -/
def comparableFile : TypeFile :=
  { baseFile with header := " implements Comparable<a.Orders> " }

/-- A class with two interfaces, one to a line. -/
def cloneableFile : TypeFile :=
  { baseFile with header := " implements Cloneable,\n        Runnable " }

/-- A class with two imports on one line. -/
def sharedLineFile : TypeFile :=
  { baseFile with
    front := "package a;\n\nimport b.Tool; import b.Outer;"
    header := " " }

def sharedLinePrologue : Prologue :=
  { basePrologue with
    imports :=
      [{ lead := "\n\n".toList, gap := [' '], path := "b.Tool".toList },
       { lead := [' '], gap := [' '], path := "b.Outer".toList }] }

theorem isHeader_implementing {list : List Char} {entries : List (List Char)}
    (hlist : Text.IsList list entries)
    (hplain : ¬ "implements".toList <:+: list) : (implementing list entries).IsHeader := by
  refine ⟨.inl rfl, by simp [implementing], ?_, by simp [implementing],
    show Text.Blank [' '] by decide⟩
  rintro c ⟨⟩
  exact ⟨show Text.Blank [' '] by decide, show Text.Blank [' '] by decide, List.cons_ne_nil _ _,
    hlist, unmistaken_of_not_isInfix hplain⟩

theorem isRead_comparableFile : comparableFile.IsRead .class basePrologue
    (implementing "Comparable<a.Orders>".toList ["Comparable<a.Orders>".toList]) :=
  { isRead_baseFile with
    header_settled := settled_of_inert (by decide)
    header := by decide
    name_ends := by decide
    isHeader := fun _ _ => ⟨isHeader_implementing
      (.single (Text.isEntry_of_inits (by decide) (by decide) (by decide) (by decide)))
        (by decide), by decide⟩ }

theorem isRead_cloneableFile : cloneableFile.IsRead .class basePrologue
    (implementing "Cloneable,\n        Runnable".toList ["Cloneable".toList, "Runnable".toList]) :=
  { isRead_baseFile with
    header_settled := settled_of_inert (by decide)
    header := by decide
    name_ends := by decide
    isHeader := by
      have hsecond : Text.IsList "Runnable".toList ["Runnable".toList] :=
        .single (Text.isEntry_of_inits (by decide) (by decide) (by decide) (by decide))
      have hboth : Text.IsList
        ("Cloneable".toList ++ ([] ++ ',' :: ("\n        ".toList ++ "Runnable".toList)))
          ["Cloneable".toList, "Runnable".toList] :=
        .cons (Text.isEntry_of_inits (by decide) (by decide) (by decide) (by decide))
          (by decide) (by decide) hsecond
      exact fun _ _ => ⟨isHeader_implementing hboth (by decide), by decide⟩ }

theorem isRead_sharedLineFile :
    sharedLineFile.IsRead .class sharedLinePrologue { behind := [' '] } :=
  { isRead_baseFile with
    front_settled := settled_of_inert (by decide)
    header_settled := settled_of_inert (by decide)
    idle := idle_of_tails (by decide) (by decide)
    separate := by decide
    header := by decide
    name_ends := by decide
    prologue := by
      refine ⟨isPrologue_base.package, List.forall_mem_cons.2 ⟨?_, List.forall_mem_singleton.2 ?_⟩⟩
      all_goals exact ⟨by decide, by decide, by decide, by simp, by decide, by decide, by decide, by
        decide, unreserved_of_not_isInfix (by decide)⟩
    prologue_code := by decide
    isHeader := fun _ _ => ⟨⟨.inl rfl, by simp, by simp, by simp, by decide⟩, by decide⟩ }

/-- **Interfaces and imports are lost**: of an interface with a dot in its
arguments a piece is left, and of interfaces on two lines and an import behind
another one nothing. -/
theorem not_keepsHeading :
    (comparableFile.IsRead .class basePrologue
        (implementing "Comparable<a.Orders>".toList ["Comparable<a.Orders>".toList]) ∧
      ¬ orders.KeepsHeading comparableFile .class basePrologue
        (implementing "Comparable<a.Orders>".toList ["Comparable<a.Orders>".toList])) ∧
    (cloneableFile.IsRead .class basePrologue
        (implementing "Cloneable,\n        Runnable".toList ["Cloneable".toList, "Runnable".toList]) ∧
      ¬ orders.KeepsHeading cloneableFile .class basePrologue
        (implementing "Cloneable,\n        Runnable".toList ["Cloneable".toList, "Runnable".toList])) ∧
    sharedLineFile.IsRead .class sharedLinePrologue { behind := [' '] } ∧
      ¬ orders.KeepsHeading sharedLineFile .class sharedLinePrologue { behind := [' '] } := by
  refine ⟨⟨isRead_comparableFile, fun hkeeps => ?_⟩, ⟨isRead_cloneableFile, fun hkeeps => ?_⟩,
    isRead_sharedLineFile, fun hkeeps => ?_⟩
  · have hseen := hkeeps.written [] ["Orders>".toList] rfl (by decide +kernel) (by decide +kernel)
    exact absurd (hseen.2 _ List.mem_cons_self) (by decide)
  · have hseen := hkeeps.written [] [] rfl (by decide +kernel) (by decide +kernel)
    exact absurd (hseen.2 _ List.mem_cons_self) (by decide)
  · have hseen := hkeeps.written ["b.Tool"] [] rfl (by decide +kernel) (by decide +kernel)
    exact absurd (hseen.1 _ (List.mem_cons_of_mem _ List.mem_cons_self)) (by decide)

end JavaUnit

end TableMapper
