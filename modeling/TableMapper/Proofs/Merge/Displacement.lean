import TableMapper.Proofs.Merge.DeclaredKey
import TableMapper.Proofs.Merge.OwnComments

/-!
# Fresh members that give way to kept ones

A member that is kept takes the place of the fresh member that it declares
again. Which one that is, a merge finds out from the key that it reads. So
**exactly the fresh members that are declared again give way if and only if the
keys that are read are those that are declared**, which they are if all members
are unbroken and those that are kept are written plainly
(`JavaUnit.displaces_iff`). Otherwise a fresh member can be lost although
nothing replaces it, or stand beside the one that replaces it.
-/

namespace TableMapper

open Source

/-!
## The body of a type, cut into its members

The body of a type consists of its members, each with the comments in front of
it (`IsBody`). A merge cuts it behind every semicolon and closing brace that
stand in no inner braces. So **the members are read as they stand in the body**
(`IsBody.ofBody_eq`), if none of them has braces elsewhere than around its body
or at the end of its initial value (`MemberCode.IsUnbroken`). The braces of an
array in an annotation break the member that bears it.
-/

/-- A member with the comments in front of it. -/
structure BodyMember where
  source : Source
  parts : MemberCode
deriving Repr, DecidableEq

namespace BodyMember

/-- The retention tag is in the comments. -/
def tagged (m : BodyMember) : Bool :=
  Text.occursIn Settings.retentionTag.toList
    (chars (m.source.takeWhile fun c => Text.isBlank c.code))

def text (m : BodyMember) : String :=
  Text.trimmed m.source.text

/-- The member consists of its parts. -/
structure IsBodyMember (m : BodyMember) : Prop where
  isMember : m.parts.IsMember
  code : Text.trimStart (codes m.source) = m.parts.code

end BodyMember

/-- **The body of a type that consists of these members.** -/
structure IsBody (body : Source) (members : List BodyMember) : Prop where
  isBodyMember : ∀ m ∈ members, m.IsBodyMember
  closed : ∃ gap close rest, body = members.flatMap (·.source) ++ (gap ++ close :: rest) ∧
    (∀ c ∈ gap, Text.isBlank c.code = true) ∧ close.code = '\x7d'

/-- The member has braces only around its body or at the end of its initial
value. -/
structure MemberCode.IsUnbroken (d : MemberCode) : Prop where
  head : ∀ c ∈ d.lead ++ d.head, c ∉ "\x7b\x7d;".toList
  value : d.parameters = none → (∀ c ∈ d.ending.dropLast, c ∉ "\x7b\x7d;".toList) ∨
    ∃ front inner blanks, d.ending = front ++ '\x7b' :: (inner ++ '\x7d' :: (blanks ++ [';'])) ∧
      (∀ c ∈ front, c ∉ "\x7b\x7d;".toList) ∧ Nested (inner.map shown) ∧ Text.Blank blanks

/-! ### One member -/

namespace MemberCode

variable {d : MemberCode}

/-- **How an unbroken member ends**: with its only semicolon, or with its only
block, behind which the semicolon of an initial value can stand. -/
theorem IsUnbroken.exists_front (h : d.IsUnbroken) (hmember : d.IsMember) :
    ∃ front, (∀ c ∈ front, c ∉ "\x7b\x7d;".toList) ∧ (d.code = front ++ [';'] ∨
      ∃ inner behind, d.code = front ++ '\x7b' :: (inner ++ '\x7d' :: behind) ∧
      Nested (inner.map shown) ∧
        (behind = [] ∨ ∃ blanks, Text.Blank blanks ∧ behind = blanks ++ [';'])) := by
  have hcode : d.code = (d.lead ++ d.head) ++ d.ending := (List.append_assoc _ _ _).symm
  have hending := hmember.ending
  generalize hparameters : d.parameters.isSome = hasParameters at hending
  generalize htext : d.ending = ending at hending hcode
  cases hending with
  | semicolon => exact ⟨_, h.head, .inl hcode⟩
  | @body inner hinner => exact ⟨_, h.head, .inr ⟨inner, [], hcode, hinner, .inl rfl⟩⟩
  | @value init =>
    rcases h.value (Option.isSome_eq_false_iff.1 hparameters |> Option.isNone_iff_eq_none.1) with
      hplain | ⟨front, inner, blanks, hblock, hfront, hinner, hblanks⟩
    · rw [htext, ← List.cons_append, List.dropLast_concat] at hplain
      refine ⟨(d.lead ++ d.head) ++ '=' :: init, List.forall_mem_append.2 ⟨h.head, hplain⟩, .inl ?_⟩
      rw [hcode]
      simp
    · refine ⟨(d.lead ++ d.head) ++ front, List.forall_mem_append.2 ⟨h.head, hfront⟩,
        .inr ⟨inner, blanks ++ [';'], ?_, hinner, .inr ⟨blanks, hblanks, rfl⟩⟩⟩
      rw [hcode, ← htext, hblock]
      simp

/-- The code of a member has more in it than a semicolon, and no blank at its
end. -/
theorem IsMember.trimEnd_code (h : d.IsMember) :
    Text.trimEnd d.code = d.code ∧ d.code ≠ [] ∧ d.code ≠ [';'] := by
  obtain ⟨c, hc⟩ := List.exists_mem_of_ne_nil d.name h.name_ne_nil
  have hmem : c ∈ d.code := by simp [MemberCode.code, MemberCode.head, hc]
  obtain ⟨front, last, hending, hlast⟩ := h.ending.exists_last
  have hcut : d.code = (d.lead ++ (d.head ++ front)) ++ [last] := by
    rw [MemberCode.code, hending]
    simp
  refine ⟨?_, List.ne_nil_of_mem hmem, fun heq => ?_⟩
  · rw [hcut, Text.trimEnd_concat hlast]
  · rw [heq] at hmem
    obtain rfl := List.mem_singleton.1 hmem
    exact absurd (h.name ';' hc) (by decide)

end MemberCode

namespace BodyMember

/-- The member as it is read. -/
def member (m : BodyMember) : Member :=
  ⟨MemberKey.ofCode m.parts.code, m.tagged, m.text⟩

variable {m : BodyMember}

theorem IsBodyMember.trimmedCodes_source (h : m.IsBodyMember) :
    trimmedCodes m.source = m.parts.code := by
  rw [trimmedCodes, Text.trim, h.code, h.isMember.trimEnd_code.1]

theorem IsBodyMember.exists_blanks (h : m.IsBodyMember) :
    ∃ blanks, Text.Blank blanks ∧ codes m.source = blanks ++ m.parts.code := by
  refine ⟨(codes m.source).takeWhile Text.isBlank, fun c hc => List.mem_takeWhile_imp hc, ?_⟩
  rw [← h.code, Text.trimStart, List.takeWhile_append_dropWhile]

/-- **A segment with a member is read as this member.** -/
theorem IsBodyMember.ofSegment?_source (h : m.IsBodyMember) :
    Member.ofSegment? m.source = some m.member := by
  obtain ⟨-, hne, hsemicolon⟩ := h.isMember.trimEnd_code
  unfold Member.ofSegment?
  simp only
  rw [h.trimmedCodes_source, if_neg (by simp [hne, hsemicolon])]
  rfl

/-- **An unbroken member is one segment.** -/
theorem IsBodyMember.exists_cuts (h : m.IsBodyMember) (hunbroken : m.parts.IsUnbroken) :
    ∃ segs, Cuts m.source segs ∧ joinSemicolons segs = [m.source] := by
  obtain ⟨blanks, hblanks, hcodes⟩ := h.exists_blanks
  obtain ⟨front, hfront, hend⟩ := hunbroken.exists_front h.isMember
  have hplain : ∀ c ∈ blanks ++ front, c ∉ "\x7b\x7d;".toList :=
    List.forall_mem_append.2 ⟨braceless_of_blank hblanks, hfront⟩
  rcases hend with hcode | ⟨inner, behind, hcode, hinner, hbehind⟩
  · exact exists_cuts_of_semicolon hplain (by rw [hcodes, hcode, List.append_assoc])
  · exact exists_cuts_of_block hplain hinner hbehind (by rw [hcodes, hcode, List.append_assoc])

end BodyMember

/-! ### All members -/

section

variable {body rest : Source} {members : List BodyMember}

/-- Unbroken members are segments, behind which another segment can follow. -/
theorem segments_flatMap (h : ∀ m ∈ members, m.IsBodyMember)
    (hunbroken : ∀ m ∈ members, m.parts.IsUnbroken)
    (hrest : cutFrom 0 [] rest = []) :
    segments (members.flatMap (·.source) ++ rest) = members.map (·.source) ∧
      ∀ first ∈ (cutFrom 0 [] (members.flatMap (·.source) ++ rest)).head?,
      trimmedCodes first ≠ [';'] := by
  induction members with
  | nil => simp [segments, hrest, joinSemicolons]
  | cons m members ih =>
    obtain ⟨hm, hothers⟩ := List.forall_mem_cons.1 h
    obtain ⟨hwhole, hwholes⟩ := List.forall_mem_cons.1 hunbroken
    obtain ⟨hsegments, hhead⟩ := ih hothers hwholes
    obtain ⟨segs, hcuts, hjoined⟩ := hm.exists_cuts hwhole
    obtain ⟨first, more, rfl, hfirst⟩ := exists_first hjoined hm.ofSegment?_source
    have hcut : cutFrom 0 [] ((m :: members).flatMap (·.source) ++ rest)
        = first :: more ++ cutFrom 0 [] (members.flatMap (·.source) ++ rest) := by
      rw [List.flatMap_cons, List.append_assoc, hcuts]
    rw [segments] at hsegments
    rw [segments, hcut, joinSemicolons_append hhead, hjoined, hsegments]
    exact ⟨rfl, by simpa using hfirst⟩

/-- **The members are read as they stand in the body**, if none of them is
broken by braces. -/
theorem IsBody.ofBody_eq (h : IsBody body members) (hunbroken : ∀ m ∈ members, m.parts.IsUnbroken) :
    Member.ofBody body = members.map (·.member) := by
  obtain ⟨gap, close, rest, rfl, hgap, hclose⟩ := h.closed
  have hnone : cutFrom 0 [] (gap ++ close :: rest) = [] := by
    rw [cutFrom_blanks hgap, cutFrom_close_zero hclose]
  rw [Member.ofBody, (segments_flatMap h.isBodyMember hunbroken hnone).1, List.filterMap_map,
    ← List.filterMap_eq_map]
  exact List.filterMap_congr fun m hm => (h.isBodyMember m hm).ofSegment?_source

end

/-! ## The keys that are declared and the keys that are read -/

namespace JavaUnit

/-- The members of an existing file that are hand-written, as they are read. -/
def keptMembers (existing : String) : List Member :=
  (oldMembers existing).filter (!·.tagged)

/-- **The keys that hand-written members declare.** -/
def declaredKeys (members : List BodyMember) : List MemberKey :=
  (members.filter (!·.tagged)).map (·.parts.key)

/-- **The merged unit has the fresh members with other keys than these**, and
what is kept. -/
structure HasMembers (merged fresh : JavaUnit) (keys : List MemberKey)
    (kept : List String) : Prop where
  fields : merged.fields = fresh.fields.filter fun f => f.key ∉ keys
  methods : merged.methods = fresh.methods.filter fun m => m.key fresh.type.shortName ∉ keys
  retained : merged.retained = kept

/-- **Exactly the fresh members that are declared again give way**: besides
what is kept, the merged text has all others. -/
def Displaces (fresh : JavaUnit) (existing : String) (members : List BodyMember) : Prop :=
  ∀ merged, fresh.mergeInto existing = .ok merged →
    ∃ old, Declared.ofSource? (ofText existing) = some old ∧
    (fresh.mergedFrom old).render = merged ∧
      (fresh.mergedFrom old).HasMembers fresh (declaredKeys members)
        ((keptMembers existing).map (·.text))

section

variable {fresh merged : JavaUnit} {existing text : String} {old : Declared}
  {keys others : List MemberKey}
  {kept : List String} {members : List BodyMember}

/-! ## What gives way -/

theorem HasMembers.congr (h : merged.HasMembers fresh keys kept)
    (hkeys : ∀ key, key ∈ keys ↔ key ∈ others) :
    merged.HasMembers fresh others kept where
  fields := by
    rw [h.fields]
    exact List.filter_congr fun f _ => decide_eq_decide.2 (not_congr (hkeys f.key))
  methods := by
    rw [h.methods]
    exact List.filter_congr fun m _ =>
      decide_eq_decide.2 (not_congr (hkeys (m.key fresh.type.shortName)))
  retained := h.retained

theorem keptMembers_eq (h : Declared.ofSource? (ofText existing) = some old) :
    keptMembers existing = (Member.ofBody old.body).filter (!·.tagged) := by
  rw [keptMembers, oldMembers, h]
  rfl

/-- **The members of a merged unit.** -/
theorem hasMembers_mergedFrom (fresh : JavaUnit)
    (h : Declared.ofSource? (ofText existing) = some old) :
    (fresh.mergedFrom old).HasMembers fresh ((keptMembers existing).filterMap (·.key))
      ((keptMembers existing).map (·.text)) := by
  obtain ⟨imports, superInterfaces, annotations, hheader⟩ := exists_keepHeader fresh old
  rw [mergedFrom, hheader, ← keptMembers_eq h, keepMembers]
  refine ⟨List.filter_congr fun f _ => ?_, List.filter_congr fun m _ => ?_, rfl⟩
  · rw [decide_not, List.contains_eq_mem]
  · rw [decide_not, List.contains_eq_mem]

/-- A unit with one field or method, with a key of one's choice, that is merged
if another one is. -/
theorem exists_mergeInto_single (h : fresh.mergeInto existing = .ok text) (key : MemberKey) :
    ∃ single : JavaUnit, (∃ written, single.mergeInto existing = .ok written) ∧
      ∀ {merged keys kept}, HasMembers merged single keys kept →
        (key ∈ keys ↔ merged.fields = [] ∧ merged.methods = []) := by
  obtain ⟨old, hold, -⟩ := exists_of_mergeInto h
  have hfits := ((mergeInto_eq_ok_iff_of_declared hold).1 h).1
  have hmerges : ∀ fields methods, ∃ written,
      mergeInto { fresh with fields, methods } existing = .ok written :=
    fun fields methods => ⟨_, (mergeInto_eq_ok_iff_of_declared hold).2 ⟨hfits, rfl⟩⟩
  obtain ⟨name, parameters⟩ := key
  cases parameters with
  | none =>
    refine ⟨_, hmerges [{ name, type := fresh.type }] [], fun {merged keys kept} hmembers => ?_⟩
    have hmethods : merged.methods = [] := hmembers.methods
    rw [and_iff_left hmethods, hmembers.fields, List.filter_eq_nil_iff, List.forall_mem_singleton,
      decide_eq_true_eq, not_not]
    rfl
  | some count =>
    let parameter : Parameter := { name, type := fresh.type }
    refine ⟨_, hmerges []
      [{ name, returnType := some fresh.type, parameters := List.replicate count parameter }],
      fun {merged keys kept} hmembers => ?_⟩
    have hfields : merged.fields = [] := hmembers.fields
    rw [and_iff_right hfields, hmembers.methods, List.filter_eq_nil_iff, List.forall_mem_singleton,
      decide_eq_true_eq, not_not, Method.key, List.length_replicate]
    rfl

/-- Whatever is merged, the members with the keys that are read give way. -/
theorem forall_displaces_iff
    (hok : ∃ (fresh : JavaUnit) (text : String), fresh.mergeInto existing = .ok text) :
    (∀ fresh : JavaUnit, fresh.Displaces existing members) ↔
      ∀ key, key ∈ (keptMembers existing).filterMap (·.key) ↔ key ∈ declaredKeys members := by
  constructor
  · intro hdisplaces key
    obtain ⟨fresh, text, hmerged⟩ := hok
    obtain ⟨single, ⟨written, hwritten⟩, hkey⟩ := exists_mergeInto_single hmerged key
    obtain ⟨old, hold, -, hmembers⟩ := hdisplaces single written hwritten
    rw [hkey (hasMembers_mergedFrom single hold), hkey hmembers]
  · intro hkeys fresh text hmerged
    obtain ⟨old, hold, hrender⟩ := exists_of_mergeInto hmerged
    exact ⟨old, hold, hrender, (hasMembers_mergedFrom fresh hold).congr hkeys⟩

/-- **The keys that are read are those that are declared**, if nothing is broken
and what is kept is plain. -/
theorem filterMap_key_keptMembers (hold : Declared.ofSource? (ofText existing) = some old)
    (hbody : IsBody old.body members) (hunbroken : ∀ m ∈ members, m.parts.IsUnbroken)
    (hplain : ∀ m ∈ members, m.tagged = false → m.parts.IsPlain) :
    (keptMembers existing).filterMap (·.key) = declaredKeys members := by
  have hread : keptMembers existing = (members.filter (!·.tagged)).map (·.member) := by
    rw [keptMembers_eq hold, hbody.ofBody_eq hunbroken, List.filter_map]
    rfl
  rw [hread, declaredKeys, List.filterMap_map, ← List.filterMap_eq_map]
  refine List.filterMap_congr fun m hm => ?_
  obtain ⟨hmem, htagged⟩ := List.mem_filter.1 hm
  exact (hplain m hmem (by simpa using htagged)).ofCode_code (hbody.isBodyMember m hmem).isMember

/-- **Exactly the fresh members that a hand-written one declares again give
way**, whatever is merged, if and only if the keys that are read are those that
are declared. They are if every member is unbroken, and every hand-written one
is written plainly. -/
theorem displaces_iff (hold : Declared.ofSource? (ofText existing) = some old) (hbody : IsBody old.body members)
    (hok : ∃ (fresh : JavaUnit) (text : String), fresh.mergeInto existing = .ok text) :
    ((∀ fresh : JavaUnit, fresh.Displaces existing members) ↔
      ∀ key, key ∈ (keptMembers existing).filterMap (·.key) ↔ key ∈ declaredKeys members) ∧
    ((∀ m ∈ members, m.parts.IsUnbroken) → (∀ m ∈ members, m.tagged = false → m.parts.IsPlain) →
      ∀ fresh : JavaUnit, fresh.Displaces existing members) := by
  have hiff := @forall_displaces_iff existing members hok
  refine ⟨hiff, fun hunbroken hplain => hiff.2 fun key => ?_⟩
  rw [filterMap_key_keptMembers hold hbody hunbroken hplain]

end

/-! ## Three files -/

section

variable {fresh : JavaUnit} {existing : String} {members : List BodyMember} {names : List String}

def ordersCode (members : List BodyMember) : List Char :=
  "package a;\n\npublic class Orders \x7b".toList ++
    (chars (members.flatMap (·.source)) ++ "\n\x7d\n".toList)

/-- A class with these members. -/
def ordersWith (members : List BodyMember) : String :=
  String.ofList (ordersCode members)

theorem ofText_ordersWith (members : List BodyMember) :
    ofText (ordersWith members) = markFrom .code (ordersCode members) := by
  rw [ordersWith, ofText, String.toList_ofList]

theorem exists_isBody (hmembers : ∀ m ∈ members, m.IsBodyMember)
    (hread : (Declared.ofSource? (markFrom .code (ordersCode members))).map
      (fun old => (fresh.checkDeclared old, old.body)) = some
      (.ok (), members.flatMap (·.source) ++ ([shown '\n'] ++ [shown '\x7d', shown '\n']))) :
    ∃ old, Declared.ofSource? (ofText (ordersWith members)) = some old ∧ IsBody old.body members ∧
      ∃ merged, fresh.mergeInto (ordersWith members) = .ok merged := by
  obtain ⟨old, hold, hread⟩ := Option.map_eq_some_iff.1 hread
  obtain ⟨hfits, hbody⟩ := Prod.mk.inj hread
  rw [← ofText_ordersWith] at hold
  exact ⟨old, hold, ⟨hmembers, _, _, _, hbody, by decide, rfl⟩, _,
    (mergeInto_eq_ok_iff_of_declared hold).2 ⟨hfits, rfl⟩⟩

/-- Other methods are written than should be. -/
theorem not_displaces (hread : (Declared.ofSource? (markFrom .code (ordersCode members))).map
      (fun old => (fresh.checkDeclared old, (fresh.mergedFrom old).methods.map (·.name)))
        = some (.ok (), names))
    (hne : (fresh.methods.filter fun m => m.key fresh.type.shortName ∉ declaredKeys members).map
      (·.name) ≠ names) :
    ¬ fresh.Displaces (ordersWith members) members := by
  intro hdisplaces
  obtain ⟨old, hold, hnames⟩ := Option.map_eq_some_iff.1 hread
  obtain ⟨hfits, hnames⟩ := Prod.mk.inj hnames
  rw [← ofText_ordersWith] at hold
  obtain ⟨found, hfound, -, hmembers⟩ :=
    hdisplaces _ ((mergeInto_eq_ok_iff_of_declared hold).2 ⟨hfits, rfl⟩)
  obtain rfl := Option.some.inj (hold.symm.trans hfound)
  rw [hmembers.methods] at hnames
  exact hne hnames

end

/-- A generated field. -/
def codeField : BodyMember where
  source := ofText "\n    /** @mapper.generated */\n    String code;"
  parts := { front := "String ".toList, name := "code".toList, ending := [';'] }

/-- A field with an annotation, a type with several arguments and a value. -/
def notesField : BodyMember where
  source := ofText "\n    @Size(max = 9)\n    Map<String, List<Note>> notes = load();"
  parts := {
    lead := "@Size(max = 9)\n    ".toList
    front := "Map<String, List<Note>> ".toList
    name := "notes".toList
    behind := [' ']
    ending := '=' :: (" load()".toList ++ [';']) }

/-- A generic method with annotated parameters. -/
def noteMethod : BodyMember where
  source := ofText "\n    @Override\n    <T> void note(@Key Map<String, T> all, @Size(20) int[] in) throws a.B, C \x7b\n    \x7d"
  parts := {
    lead := "@Override\n    ".toList
    front := "<T> void ".toList
    name := "note".toList
    parameters := some { list := "@Key Map<String, T> all".toList ++ ',' :: " @Size(20) int[] in".toList, count := 2 }
    behind := " throws a.B".toList ++ ',' :: " C ".toList
    ending := '\x7b' :: ("\n    ".toList ++ ['\x7d']) }

theorem isBodyMember_codeField : codeField.IsBodyMember where
  code := by decide
  isMember := {
    toIsNamed := by decide
    front := isStretch_of_openAngles (by decide)
    parameters := by simp [codeField]
    brackets := by simp [codeField]
    behind := by simp [codeField]
    ending := .semicolon }

theorem isBodyMember_notesField : notesField.IsBodyMember where
  code := by decide
  isMember := {
    toIsNamed := by decide
    front := by
      have hcut : notesField.parts.lead ++ notesField.parts.front
          = '@' :: ("Size".toList ++ '(' :: ("max = 9".toList ++ [')'])) ++
          "\n    Map<String, List<Note>> ".toList := by
        decide
      have hmark : IsMark ('@' :: ("Size".toList ++ '(' :: ("max = 9".toList ++ [')']))) :=
        isMark_full (by decide) (by decide)
          (Text.balanced_of_inits (by decide) (by decide)) (by decide)
      exact isStretch_of_mark hcut hmark (by simp) (isStretch_of_openAngles (by decide))
    parameters := by simp [notesField]
    brackets := fun _ => by decide
    behind := by simp [notesField]
    ending := .value (by decide) fun front behind hcut =>
      absurd (hcut ▸ by simp : ';' ∈ " load()".toList) (by decide) }

theorem isSeries_noteMethod {excluded : List Char} (h : excluded ⊆ "<>".toList) :
    IsSeries excluded 2 ("@Key Map<String, T> all".toList ++
      ',' :: " @Size(20) int[] in".toList) := by
  have hkey : IsMark ('@' :: "Key".toList) := isMark_bare (by decide) (by decide)
  have hsize : IsMark ('@' :: ("Size".toList ++ '(' :: ("20".toList ++ [')']))) :=
    isMark_full (by decide) (by decide) (Text.balanced_of_inits (by decide) (by decide)) (by decide)
  have hfree : ∀ {mark : List Char}, (∀ c ∈ mark, c ∉ "<>".toList) → ∀ c ∈ mark, c ∉ excluded :=
    fun hmark c hc hmem => hmark c hc (h hmem)
  refine .cons ?_ (by decide) (.single ?_ (by decide))
  · have hstretch : IsStretch excluded 0 ('@' :: "Key".toList ++ " Map<String, T> all".toList) :=
      .mark hkey (hfree (by decide)) (isStretch_of_openAngles (by decide))
    exact hstretch
  · have hstretch : IsStretch excluded 0
        (" ".toList ++ ('@' :: ("Size".toList ++ '(' :: ("20".toList ++ [')']))
        ++ " int[] in".toList)) :=
      .code rfl (.mark hsize (hfree (by decide)) (isStretch_of_openAngles (by decide)))
    exact hstretch

theorem isBodyMember_noteMethod : noteMethod.IsBodyMember where
  code := by decide
  isMember := {
    toIsNamed := by decide
    front := by
      have hcut : noteMethod.parts.lead ++ noteMethod.parts.front
          = '@' :: "Override".toList ++ "\n    <T> void ".toList := by decide
      exact isStretch_of_mark hcut (isMark_bare (by decide) (by decide)) (by simp)
        (isStretch_of_openAngles (by decide))
    parameters := by
      rintro q ⟨⟩
      exact ⟨by decide, isSeries_noteMethod (List.nil_subset _)⟩
    brackets := by simp [noteMethod]
    behind := by
      have hthrown : IsSeries [] 2 (" throws a.B".toList ++ ',' :: " C ".toList) :=
        .cons (isStretch_of_openAngles (by decide)) (by decide)
          (.single (isStretch_of_openAngles (by decide)) (by decide))
      exact fun _ => ⟨2, hthrown⟩
    ending := .body (by decide) }

theorem isPlain_notesField : notesField.parts.IsPlain where
  isLead := by
    have hlead : MemberCode.IsLead
        ('@' :: ("Size".toList ++ ([] ++ '(' :: ("max = 9".toList ++ ')' :: "\n    ".toList)))) :=
      .full (by decide) (by decide) (by decide) (Text.balanced_of_inits (by decide) (by decide))
        (MemberCode.isLead_of_blank (by decide))
    exact hlead
  begins := by decide
  head := by decide
  front := by decide
  separate := by decide
  name := by decide
  parameters := by simp [notesField]
  behind := by decide
  words := by decide

theorem isPlain_noteMethod : noteMethod.parts.IsPlain where
  isLead := by
    have hlead : MemberCode.IsLead ('@' :: ("Override".toList ++ "\n    ".toList)) :=
      .bare (by decide) (by decide) (by decide) (MemberCode.isLead_of_blank (by decide))
    exact hlead
  begins := by decide
  head := by decide
  front := by decide
  separate := by decide
  name := by decide
  parameters := by
    rintro q ⟨⟩
    exact isSeries_noteMethod (List.Subset.refl _)
  behind := by decide
  words := by decide +kernel

def notedMembers : List BodyMember :=
  [codeField, notesField, noteMethod]

theorem isBodyMember_notedMembers : ∀ m ∈ notedMembers, m.IsBodyMember := by
  simp [notedMembers, isBodyMember_codeField, isBodyMember_notesField, isBodyMember_noteMethod]

theorem isUnbroken_notedMembers : ∀ m ∈ notedMembers, m.parts.IsUnbroken := by
  have hcode : codeField.parts.IsUnbroken := ⟨by decide, fun _ => .inl (by decide)⟩
  have hnotes : notesField.parts.IsUnbroken := ⟨by decide, fun _ => .inl (by decide)⟩
  have hnote : noteMethod.parts.IsUnbroken := ⟨by decide, fun hnone => absurd hnone (by decide)⟩
  simp [notedMembers, hcode, hnotes, hnote]

/-- Annotations, generic types and what is thrown do not stand in the way. -/
theorem displaces_notedMembers : (∃ merged, orders.mergeInto (ordersWith notedMembers) = .ok merged) ∧
    ∀ fresh : JavaUnit, fresh.Displaces (ordersWith notedMembers) notedMembers := by
  obtain ⟨old, hold, hbody, hok⟩ :=
    @exists_isBody orders _ isBodyMember_notedMembers (by decide +kernel)
  refine ⟨hok, (displaces_iff hold hbody ⟨orders, hok⟩).2 isUnbroken_notedMembers ?_⟩
  have htagged : codeField.tagged = true := by decide
  simp [notedMembers, htagged, isPlain_notesField, isPlain_noteMethod]

/-- A method with a named argument in an annotation of its first parameter. -/
def sizedMethod : BodyMember where
  source := ofText "\n    void setCode(@Size(max = 20) String code, int count) \x7b\n    \x7d"
  parts := {
    front := "void ".toList
    name := "setCode".toList
    parameters :=
    some { list := "@Size(max = 20) String code".toList ++ ',' :: " int count".toList, count := 2 }
    behind := [' ']
    ending := '\x7b' :: ("\n    ".toList ++ ['\x7d']) }

/-- A method of which the type has a name that ends like a word for types. -/
def subclassMethod : BodyMember where
  source := ofText "\n    Subclass getCode() \x7b\n    \x7d"
  parts := {
    front := "Subclass ".toList
    name := "getCode".toList
    parameters := some { list := [], count := 0 }
    behind := [' ']
    ending := '\x7b' :: ("\n    ".toList ++ ['\x7d']) }

theorem isBodyMember_sizedMethod : sizedMethod.IsBodyMember where
  code := by decide
  isMember := {
    toIsNamed := by decide
    front := isStretch_of_openAngles (by decide)
    parameters := by
      rintro q ⟨⟩
      have hsize : IsMark ('@' :: ("Size".toList ++ '(' :: ("max = 20".toList ++ [')']))) :=
        isMark_full (by decide) (by decide)
          (Text.balanced_of_inits (by decide) (by decide)) (by decide)
      have hfirst : IsStretch [] 0
        ('@' :: ("Size".toList ++ '(' :: ("max = 20".toList ++ [')'])) ++ " String code".toList) :=
        .mark hsize (by simp) (isStretch_of_openAngles (by decide))
      exact ⟨by decide, .cons hfirst (by decide)
        (.single (isStretch_of_openAngles (by decide)) (by decide))⟩
    brackets := by simp [sizedMethod]
    behind := fun _ => ⟨0, .none (by decide)⟩
    ending := .body (by decide) }

theorem isBodyMember_subclassMethod : subclassMethod.IsBodyMember where
  code := by decide
  isMember := {
    toIsNamed := by decide
    front := isStretch_of_openAngles (by decide)
    parameters := by
      rintro q ⟨⟩
      exact ⟨by decide, .none (by decide)⟩
    brackets := by simp [subclassMethod]
    behind := fun _ => ⟨0, .none (by decide)⟩
    ending := .body (by decide) }

/-- A class with a getter and a setter. -/
def accessors : JavaUnit :=
  { kind := .class
    type := .named "a.Orders"
    methods := [{ name := "getCode", returnType := some (.named "java.lang.String") },
      { name := "setCode", returnType := some (.named "void"),
        parameters := [{ name := "code", type := .named "java.lang.String" }] }] }

/-- **A fresh method is lost although no other has its parameters, and one
stands beside the method with its name and parameters.** -/
theorem not_displaces_accessors :
    ((∃ old, Declared.ofSource? (ofText (ordersWith [sizedMethod])) = some old ∧ IsBody old.body [sizedMethod]) ∧
      ¬ accessors.Displaces (ordersWith [sizedMethod]) [sizedMethod]) ∧
    (∃ old, Declared.ofSource? (ofText (ordersWith [subclassMethod])) = some old ∧ IsBody old.body [subclassMethod]) ∧
      ¬ accessors.Displaces (ordersWith [subclassMethod]) [subclassMethod] := by
  refine ⟨⟨?_, @not_displaces _ _ ["getCode"] (by decide +kernel) (by decide +kernel)⟩, ?_,
    @not_displaces _ _ ["getCode", "setCode"] (by decide +kernel) (by decide +kernel)⟩
  · obtain ⟨old, hold, hbody, -⟩ := @exists_isBody accessors _
      (List.forall_mem_singleton.2 isBodyMember_sizedMethod) (by decide +kernel)
    exact ⟨old, hold, hbody⟩
  · obtain ⟨old, hold, hbody, -⟩ := @exists_isBody accessors _
      (List.forall_mem_singleton.2 isBodyMember_subclassMethod) (by decide +kernel)
    exact ⟨old, hold, hbody⟩

end JavaUnit

end TableMapper
