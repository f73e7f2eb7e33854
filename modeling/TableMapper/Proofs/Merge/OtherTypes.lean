import TableMapper.Proofs.Merge.KeptHeading
import TableMapper.Proofs.Merge.SourceFile
import TableMapper.Proofs.Unit.Cutting

/-!
# What else is in a file

A source file may hold other types besides the one that is regenerated.
**The merge reads the first type of the file and nothing behind it**
(`keepsTypes_iff`): whatever the other types are, it gives what it gives for
a file that ends with the first one. As a written file has one type only, no
other type is kept, unless the merge fails because the first type does not
fit. The first type itself may be cut off inside its body, in which case the
merge reads it up to its last complete member (`mergeInto_unclosed`).
-/

namespace TableMapper

/-!
## A type body that is not closed

A source file that is cut off inside its type body is merged into as if it
ended behind the last complete member: **the merge fails only if the
declaration does not fit, and the member that is not finished is lost**
(`mergeInto_unclosed`). Nothing tells the two files apart, because the
search for members stops at the end of the text as it stops at the closing
brace.
-/

namespace Source

/-- **The body is not closed**: at no place are more braces closed than
opened. -/
def Unclosed (body : Source) : Prop :=
  ∀ part, part <+: body → closes part ≤ opens part

/-- What follows balanced braces in a body that is not closed is not closed
either. -/
theorem Unclosed.of_append {part tail : Source} (h : Unclosed (part ++ tail))
    (hbalanced : closes part = opens part) : Unclosed tail := by
  intro more hmore
  have hpart := h (part ++ more) ((List.prefix_append_right_inj part).2 hmore)
  rw [closes_append, opens_append] at hpart
  omega

/-- A part of a body ends with a plain character of the code, if it consists
of segments, and otherwise the brace in front of it is one. -/
theorem exists_shown (heading : Source) {part : Source} {brace : SourceChar}
    (hbrace : brace.code = '\x7b')
    (hlast : ∀ last, part.getLast? = some last → isTerminator last = true) :
    ∃ pre c, heading ++ brace :: part = pre ++ [shown c] ∧ isPlain c = true := by
  cases hpart : part.getLast? with
  | none =>
    rw [List.getLast?_eq_none_iff.1 hpart]
    exact ⟨heading, '\x7b', by rw [eq_shown_of_code hbrace (by decide)], by decide⟩
  | some last =>
    obtain ⟨front, rfl⟩ := List.getLast?_eq_some_iff.1 hpart
    obtain ⟨c, rfl, hc, -⟩ := exists_shown_of_isTerminator (hlast last hpart)
    exact ⟨heading ++ brace :: front, c, by rw [List.append_assoc, List.cons_append], hc⟩

end Source

namespace JavaUnit

variable {fresh : JavaUnit} {existing : String} {old : Declared}

/-- **A merge into a file whose type body is not closed** fails exactly if
the declaration does not fit. Otherwise the file is merged into as if it
were closed behind its last complete member, so that the unfinished one is
lost. -/
theorem mergeInto_unclosed (hold : Declared.ofSource? (Source.ofText existing) = some old)
    (hopen : Source.Unclosed old.body) :
    ((∃ reason, fresh.mergeInto existing = .error reason) ↔
      ∃ reason, fresh.checkDeclared old = .error reason) ∧
    ∃ front unfinished tail, existing = front ++ unfinished ∧ unfinished = Source.text tail ∧
      old.body = (Source.segments old.body).flatten ++ tail ∧ Source.Unclosed tail ∧
      Source.segments tail = [] ∧
      fresh.mergeInto existing = fresh.mergeInto (front ++ "\x7d") := by
  obtain ⟨heading, brace, hsource, hbrace, hany⟩ := Declared.exists_heading hold
  obtain ⟨part, tail, hbody, hflatten, hcuts, htail, hbalanced, hlast⟩ :=
    Source.exists_cuts old.body
  -- the last complete member, or the brace of the body, ends with a shown character; the lexer is
  -- in code behind it, so the file can be cut there
  obtain ⟨pre, c, hstem, hc⟩ := Source.exists_shown heading hbrace hlast
  have hmarked : Source.markFrom .code existing.toList = pre ++ Source.shown c :: tail := by
    show Source.ofText existing = _
    rw [hsource, hbody, ← List.cons_append, ← List.append_assoc, hstem, List.append_assoc]
    rfl
  obtain ⟨hsettled, hfront⟩ := Source.settled_of_shown hmarked hc
  have hclosed : Source.ofText (String.ofList (Source.chars pre ++ [c]) ++ "\x7d")
      = heading ++ brace :: (part ++ [Source.shown '\x7d']) := by
    rw [Source.ofText, String.toList_append, String.toList_ofList, hsettled, hfront, ← hstem,
      List.append_assoc]
    rfl
  have hmembers : Member.ofBody (part ++ [Source.shown '\x7d']) = Member.ofBody old.body := by
    rw [Member.ofBody, Member.ofBody, Source.segments, Source.segments, hcuts,
      Source.cutFrom_close_zero rfl, List.append_nil]
  refine ⟨?_, String.ofList (Source.chars pre ++ [c]), Source.text tail, tail,
    ?_, rfl, ?_, ?_, ?_, ?_⟩
  · rw [mergeInto_of_declared hold]
    cases fresh.checkDeclared old <;> simp [Except.map]
  · have hchars := congrArg Source.chars hmarked
    rw [Source.chars_markFrom, Source.chars_append, Source.chars_cons] at hchars
    rw [← String.toList_inj, hchars, String.toList_append, String.toList_ofList, Source.text,
      String.toList_ofList, List.append_assoc]
    rfl
  · rw [Source.segments, Source.flatten_joinSemicolons, hflatten]
    exact hbody
  · rw [hbody] at hopen
    exact hopen.of_append hbalanced
  · rw [Source.segments, htail]
    rfl
  · have hnew := hany (part ++ [Source.shown '\x7d'])
    rw [← hclosed] at hnew
    rw [mergeInto_of_declared hold, mergeInto_of_declared hnew, hmembers]
    rfl

/-- A class with one generated field. -/
def orders : JavaUnit :=
  { kind := .class
    type := .named "a.Orders"
    fields :=
    [{ name := "code", type := .named "java.lang.String", javadoc := ["@mapper.generated"] }] }

/-- A file that is cut off inside a method is merged into as if the method
were not there. -/
theorem exists_front_normalizedCode :
    ∃ front unfinished, "package a;\n\npublic class Orders \x7b\n    String normalizedCode() \x7b\n"
        = front ++ unfinished ∧
      orders.mergeInto "package a;\n\npublic class Orders \x7b\n    String normalizedCode() \x7b\n"
        = orders.mergeInto (front ++ "\x7d") := by
  have hcloses : (Declared.ofSource? (Source.ofText
        "package a;\n\npublic class Orders \x7b\n    String normalizedCode() \x7b\n")).map
      (fun old => Source.closes old.body) = some 0 := by
    decide +kernel
  obtain ⟨old, hold, hbody⟩ := Option.map_eq_some_iff.1 hcloses
  have hopen : Source.Unclosed old.body := by
    intro part hpart
    have hle : Source.closes part ≤ Source.closes old.body :=
      (hpart.sublist.map _).count_le _
    omega
  obtain ⟨-, front, unfinished, tail, hcut, -, -, -, -, hmerge⟩ := mergeInto_unclosed hold hopen
  exact ⟨front, unfinished, hcut, hmerge⟩

/-- **A method that is cut off is lost**: the merge succeeds, and what it
writes holds nothing of the method. -/
theorem mergeInto_normalizedCode :
    orders.mergeInto
        "package a;\n\npublic class Orders \x7b\n\n    public String normalizedCode() \x7b\n        return code.trim();\n"
      = .ok orders.render ∧
    ¬ "normalizedCode".toList <:+: orders.render.toList := by
  decide +kernel

end JavaUnit

/-! ## Other types behind the first one -/

open Source

/-- The part that follows the brace behind a heading is marked by itself. -/
theorem Declared.markFrom_body {existing : String} {old : Declared}
    (h : ofSource? (ofText existing) = some old) :
    markFrom .code old.body.chars = old.body := by
  obtain ⟨heading, brace, hsource, hbrace, -⟩ := exists_heading h
  obtain rfl := eq_shown_of_code hbrace (by decide)
  exact markFrom_behind hsource (by decide)

namespace SourceFile

/-- The types of a file that are called otherwise than the one that is
regenerated. -/
def otherTypes (f : SourceFile) (name : List Char) : List SourceType :=
  f.types.filter fun t => t.name != some name

/-- The type is one of the types of the text. -/
def Declares (text : String) (t : SourceType) : Prop :=
  ∃ f : SourceFile, f.IsFile ∧ f.text = text ∧ t ∈ f.types

/-- **A file is read like the file that ends with its first type**, up to the
brace that closes this type. -/
theorem IsFile.exists_readings {f : SourceFile} (hf : f.IsFile) :
    ∃ first others, f.types = first :: others ∧
    ∃ (read : Declared) (inner : Source) (close : SourceChar) (more behind : Source),
      Nested inner ∧ close.code = '\x7d' ∧
      Declared.ofSource? (ofText f.text)
        = some { read with body := inner ++ close :: (more ++ behind) } ∧
      Declared.ofSource? (ofText (f.front ++ first.text))
        = some { read with body := inner ++ close :: (more ++ []) } := by
  obtain ⟨first, others, htypes⟩ := List.exists_cons_of_ne_nil hf.types_ne_nil
  have hfirst : first.IsType := hf.types first (htypes ▸ List.mem_cons_self)
  obtain ⟨read, inner, close, more, hinner, hclose, hall⟩ :=
    hfirst.exists_declared hf.idle hf.separate
  have hread : ∀ behind, Declared.ofSource? (ofText f.front ++ (first.source ++ behind))
      = some { read with body := inner ++ close :: (more ++ behind) } :=
    fun behind => (hall behind).2
  have hfile : ofText f.text
      = ofText f.front ++ (first.source ++ (others.flatMap (·.source) ++ ofText f.tail)) := by
    rw [hf.ofText_text, htypes, List.flatMap_cons, List.append_assoc]
  have hshort : ofText (f.front ++ first.text) = ofText f.front ++ (first.source ++ []) := by
    have hmark := hfirst.markFrom_text []
    rw [List.append_nil] at hmark
    rw [ofText, String.toList_append, hf.settled, hmark]
    rfl
  refine ⟨first, others, htypes, read, inner, close, more,
    others.flatMap (·.source) ++ ofText f.tail, hinner, hclose, ?_, ?_⟩
  · rw [hfile, hread]
  · rw [hshort, hread]

end SourceFile

namespace JavaUnit

/-- **No other type is deleted**: a merge that succeeds writes all types that
are called otherwise than the one that is regenerated. -/
def KeepsTypes (fresh : JavaUnit) (f : SourceFile) : Prop :=
  ∀ merged, fresh.mergeInto f.text = .ok merged →
    ∀ t ∈ f.otherTypes fresh.declaredName, SourceFile.Declares merged t

section

variable {fresh : JavaUnit} {existing merged : String} {old : Declared} {f : SourceFile}

/-! ### What a merge writes -/

/-- A heading that is kept leaves type and members as they are. -/
theorem exists_keepHeader (u : JavaUnit) (old : Declared) :
    ∃ imports superInterfaces annotations,
    u.keepHeader old = { u with imports, superInterfaces, annotations } := by
  obtain ⟨added, -, hextended⟩ := exists_foldl_keepSuperInterface old.superInterfaces
    { u with imports := old.imports.foldl (fun set name => Text.insertSorted name set) u.imports }
  rw [keepHeader, foldl_annotate, hextended]
  exact ⟨_, _, _, rfl⟩

/-- In generated members everything is closed, and so it is in those that
are read from a file. -/
theorem whole_memberTexts (hfresh : fresh.WellFormed)
    (hold : Declared.ofSource? (ofText existing) = some old)
    (keep : Member → Bool) :
    ∀ text ∈ ((fresh.keepHeader old).keepMembers
      ((Member.ofBody old.body).filter keep)).memberTexts,
      Whole text.toList := by
  obtain ⟨imports, superInterfaces, annotations, hheader⟩ := exists_keepHeader fresh old
  rw [hheader]
  intro text htext
  rcases List.mem_append.1 htext with htext | htext
  · rcases List.mem_append.1 htext with htext | htext
    · obtain ⟨field, hfield, rfl⟩ := List.mem_map.1 htext
      obtain ⟨member, hholds, -⟩ :=
        (hfresh.fields field (List.mem_of_mem_filter hfield)).holds field.exists_render_eq
      exact hholds.whole
    · obtain ⟨method, hmethod, rfl⟩ := List.mem_map.1 htext
      obtain ⟨member, hholds, -⟩ :=
        (hfresh.methods method (List.mem_of_mem_filter hmethod)).holds
          (method.exists_render_eq fresh.type)
      exact hholds.whole
  · obtain ⟨retained, hretained, rfl⟩ := List.mem_map.1 htext
    obtain ⟨member, hmember, rfl⟩ := List.mem_map.1 hretained
    have hbody := List.mem_of_mem_filter hmember
    rw [← Declared.markFrom_body hold] at hbody
    rw [String.toList_append, String.toList_append]
    exact ((whole_of_blank (show Text.Blank memberIndent.toList by decide)).append
      (whole_of_mem_ofBody hbody)).append
      (whole_of_blank (show Text.Blank "\n".toList by decide))

/-- **A merge that succeeds writes one type.** -/
theorem hasOneType_mergeInto (hfresh : fresh.WellFormed)
    (hold : Declared.ofSource? (ofText existing) = some old)
    (hlegible : old.Legible) (hmerged : fresh.mergeInto existing = .ok merged) :
    HasOneType merged fresh.declaredName := by
  obtain ⟨-, rfl⟩ := (mergeInto_eq_ok_iff_of_declared hold).1 hmerged
  have hheader := hfresh.legible.keepHeader hlegible
  have hunit : ((fresh.keepHeader old).keepMembers
      ((Member.ofBody old.body).filter (!·.tagged))).Legible :=
    ⟨hheader.type, hheader.package, hheader.superclass, hheader.superInterfaces,
      hheader.noSuperclass, hheader.imports, hheader.annotations, hheader.javadoc⟩
  have hname : declaredName
      ((fresh.keepHeader old).keepMembers ((Member.ofBody old.body).filter (!·.tagged)))
      = fresh.declaredName := by
    obtain ⟨imports, superInterfaces, annotations, hkept⟩ := exists_keepHeader fresh old
    rw [hkept]
    rfl
  rw [← hname]
  exact hunit.hasOneType_render (whole_memberTexts hfresh hold _)

/-- **When the other types of a file are kept.** The merge gives what it
gives for the file that ends with its first type, so it fails exactly if the
declaration of that type does not fit. If it succeeds, the text written has
one type, and all others are deleted. -/
theorem keepsTypes_iff (hf : f.IsFile) :
    ∃ first others old, f.types = first :: others ∧
      Declared.ofSource? (ofText (f.front ++ first.text)) = some old ∧
      fresh.mergeInto f.text = fresh.mergeInto (f.front ++ first.text) ∧
      ((∃ reason, fresh.mergeInto f.text = .error reason) ↔ ∃ reason, fresh.checkDeclared old = .error reason) ∧
      (fresh.WellFormed → old.Legible →
        (fresh.KeepsTypes f ↔
          f.otherTypes fresh.declaredName = [] ∨ ∃ reason, fresh.mergeInto f.text = .error reason)) := by
  obtain ⟨first, others, htypes, read, inner, close, more, behind, hinner, hclose, hold, halone⟩ :=
    hf.exists_readings
  have hsame : fresh.mergeInto f.text = fresh.mergeInto (f.front ++ first.text) := by
    -- behind the brace that closes the first body nothing is read
    rw [mergeInto_of_declared hold, mergeInto_of_declared halone]
    simp only [ofBody_append_close hinner hclose]
    rfl
  have herror : (∃ reason, fresh.mergeInto f.text = .error reason) ↔
      ∃ reason, fresh.checkDeclared { read with body := inner ++ close :: (more ++ []) }
        = .error reason := by
    rw [hsame, mergeInto_of_declared halone]
    cases fresh.checkDeclared { read with body := inner ++ close :: (more ++ []) } <;>
      simp [Except.map]
  refine ⟨first, others, _, htypes, halone, hsame, herror, fun hfresh hlegible => ?_⟩
  constructor
  · intro hkeeps
    cases hmerged : fresh.mergeInto f.text with
    | error reason => exact .inr ⟨reason, rfl⟩
    | ok merged =>
      have hone := hasOneType_mergeInto hfresh hold
        ⟨hlegible.superInterfaces, hlegible.imports, hlegible.annotations⟩ hmerged
      refine .inl (List.eq_nil_iff_forall_not_mem.2 fun t ht => ?_)
      obtain ⟨g, hg, htext, hmem⟩ := hkeeps merged hmerged t ht
      obtain ⟨only, honly, hname⟩ := hone g hg htext
      rw [honly, List.mem_singleton] at hmem
      have hother := (List.mem_filter.1 ht).2
      rw [hmem, hname] at hother
      exact absurd hother (by simp)
  · rintro (hnone | ⟨reason, hreason⟩) merged hmerged t ht
    · rw [hnone] at ht
      exact absurd ht List.not_mem_nil
    · rw [hmerged] at hreason
      exact absurd hreason (by simp)

end

/-- A file with a class and a helper behind it. -/
def ordersFile : SourceFile where
  front := "package a;\n\n"
  types :=
    [⟨"public class Orders extends Tool ", "\n"⟩, ⟨"\n\nclass OrdersHelper ", "\n    int size;\n"⟩]
  tail := "\n"

theorem isFile_ordersFile : ordersFile.IsFile where
  settled := settled_of_inert (by decide)
  idle := by
    have hpackage : Idle (("package".toList ++ [' ']).map shown) :=
      idle_certain (by decide) (by decide)
    have hname : Idle (("a".toList ++ [';'] ++ ['\n']).map shown) := idle_semicolon (by decide)
    have hline : Idle (['\n'].map shown) := idle_blank (by decide)
    exact (hpackage.append (hname.append hline) :)
  separate := by decide +kernel
  types_ne_nil := by decide
  types := by
    have hwhole : ∀ t ∈ ordersFile.types,
        (∀ c ∈ t.heading.toList, isInert c = true ∧ c ≠ '\x7b' ∧ c ≠ '\x7d') ∧
          (∀ c ∈ t.body.toList, isInert c = true ∧ c ≠ '\x7b' ∧ c ≠ '\x7d') ∧ t.name ≠ none := by
      decide +kernel
    intro t ht
    obtain ⟨hheading, hbody, hname⟩ := hwhole t ht
    exact ⟨whole_of_forall hheading, whole_of_forall hbody, hname⟩
  tail := by decide +kernel

/-- A helper behind the class is not kept. -/
theorem not_keepsTypes_ordersFile :
    ordersFile.IsFile ∧ (derivedOrders "b.Tool").WellFormed ∧ ¬ (derivedOrders "b.Tool").KeepsTypes ordersFile := by
  refine ⟨isFile_ordersFile, wellFormed_derivedOrders, fun hkeeps => ?_⟩
  obtain ⟨first, others, old, htypes, hold, -, -, hiff⟩ :=
    @keepsTypes_iff (derivedOrders "b.Tool") ordersFile isFile_ordersFile
  obtain ⟨rfl, -⟩ := List.cons.inj htypes
  have hread : (Declared.ofSource? (ofText (ordersFile.front ++
        SourceType.text ⟨"public class Orders extends Tool ", "\n"⟩))).map
      (fun old => (old.superInterfaces, old.imports, old.annotations)) = some ([], [], []) := by
    decide +kernel
  rw [hold] at hread
  obtain ⟨hinterfaces, himports, hannotations⟩ : old.superInterfaces = [] ∧ old.imports = [] ∧
      old.annotations = [] := by
    simpa using hread
  have hlegible : old.Legible := ⟨by simp [hinterfaces], by simp [himports], by simp [hannotations]⟩
  rcases (hiff wellFormed_derivedOrders hlegible).1 hkeeps with hnone | ⟨reason, hreason⟩
  · exact absurd hnone (by decide +kernel)
  · have hmerged : ((derivedOrders "b.Tool").mergeInto ordersFile.text).isOk = true := by
      decide +kernel
    rw [hreason] at hmerged
    exact Bool.noConfusion hmerged

/-- **A class behind the one that is regenerated is deleted**: the merge
succeeds, and what it writes holds nothing of it. -/
theorem mergeInto_ordersHelper :
    orders.mergeInto
        "package a;\n\npublic class Orders \x7b\n    /**\n     * @mapper.generated\n     */\n    private String code;\n\x7d\n\nclass OrdersHelper \x7b\n    int size;\n\x7d\n"
      = .ok orders.render ∧
    ¬ "OrdersHelper".toList <:+: orders.render.toList := by
  decide +kernel

end JavaUnit

end TableMapper
