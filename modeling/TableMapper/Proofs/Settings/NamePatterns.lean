import TableMapper.Settings.TableSpec

/-!
# Table names and LIKE

A table is selected by SQL's LIKE. What LIKE means is said by a relation
(`Like.Matches`) that knows nothing of a search. The search keeps one point
to go back to, behind the last `%` it has met, and forgets the earlier ones;
when it goes back, both the pattern and the name grow again.

**The search ends, a name it accepts matches, and of the names without `%` it
accepts every one that matches** (`Like.matchesName_isLike`). That one point
is enough is an exchange: a later place for the part between two `%` leaves
less of the name to the rest of the pattern, so the first place is as good as
any other.

Names with `%` are the exception. A `%` of the name is taken by the one of the
pattern before this is thought of as a wildcard, so the pattern `%` does not
accept the name `%a`.
-/

namespace TableMapper

namespace Like

/-! ## What LIKE means -/

/-- **A name matches a pattern**: `_` stands for any one character, `%` for
any run of characters, every other character for itself. -/
inductive Matches : List Char → List Char → Prop
  | nil : Matches [] []
  | one {pattern name : List Char} (c : Char) (rest : Matches pattern name) :
      Matches ('_' :: pattern) (c :: name)
  | run {pattern name : List Char} (skipped : List Char) (rest : Matches pattern name) :
    Matches ('%' :: pattern) (skipped ++ name)
  | same {pattern name : List Char} {c : Char} (hone : c ≠ '_') (hrun : c ≠ '%')
      (rest : Matches pattern name) :
    Matches (c :: pattern) (c :: name)

/-- A text as it is compared. -/
def folded (ignoreCase : Bool) (text : String) : List Char :=
  if ignoreCase then text.toList.map Char.toLower else text.toList

/-- **LIKE on strings**, up to the case of `a` to `z` if wanted. -/
def IsLike (pattern name : String) (ignoreCase : Bool) : Prop :=
  Matches (folded ignoreCase pattern) (folded ignoreCase name)

section

variable {pattern name tail rest left : List Char} {p c d : Char}

/-- A wildcard for runs leaves some end of the name to the rest. -/
theorem matches_run_iff :
    Matches ('%' :: pattern) name ↔ ∃ tail, tail <:+ name ∧ Matches pattern tail := by
  constructor
  · intro h
    cases h with
    | run skipped rest => exact ⟨_, List.suffix_append skipped _, rest⟩
    | same _ hrun _ => exact absurd rfl hrun
  · rintro ⟨tail, ⟨skipped, rfl⟩, h⟩
    exact .run skipped h

/-- A character that is no wildcard for runs takes one character. -/
theorem matches_cons_iff (hp : p ≠ '%') :
    Matches (p :: pattern) name ↔ ∃ c rest, name = c :: rest ∧ (p = '_' ∨ p = c) ∧
    Matches pattern rest := by
  constructor
  · intro h
    cases h with
    | one c rest => exact ⟨c, _, rfl, .inl rfl, rest⟩
    | run => exact absurd rfl hp
    | same _ _ rest => exact ⟨p, _, rfl, .inr rfl, rest⟩
  · rintro ⟨c, rest, rfl, hc, h⟩
    by_cases hone : p = '_'
    · exact hone ▸ .one c h
    · obtain rfl := hc.resolve_left hone
      exact .same hone hp h

/-- Only wildcards for runs match nothing. -/
theorem matches_nil_iff : Matches pattern [] ↔ pattern.all (· == '%') = true := by
  induction pattern with
  | nil => exact iff_of_true .nil rfl
  | cons p pattern ih =>
    rw [List.all_cons, Bool.and_eq_true, beq_iff_eq, ← ih]
    by_cases hp : p = '%'
    · rw [hp, matches_run_iff]
      simp
    · rw [matches_cons_iff hp]
      simp [hp]

/-! ## The way to the next wildcard -/

/-- A character that the pattern names, or admits by `_`. -/
theorem admits_iff : (p == '_' || p == c) = true ↔ p = '_' ∨ p = c := by
  rw [Bool.or_eq_true, beq_iff_eq, beq_iff_eq]

/-- One character more on the way. A `%` that meets its like is a run of this
one character. -/
theorem matches_cons (hadmits : (p == '_' || p == c) = true) (h : Matches pattern name) :
    Matches (p :: pattern) (c :: name) := by
  by_cases hrun : p = '%'
  · exact hrun ▸ .run [c] h
  · exact (matches_cons_iff hrun).2 ⟨c, name, rfl, admits_iff.1 hadmits, h⟩

theorem matches_of_advance_finished (h : advance pattern name = .finished true) :
    Matches pattern name := by
  fun_induction advance pattern name with
  | case1 pattern => exact matches_nil_iff.2 (Progress.finished.inj h)
  | case2 | case4 | case5 => cases h
  | case3 p pattern c name hadmits ih => exact matches_cons hadmits (ih h)

/-- What is left of a name at a wildcard is an end of it. -/
theorem suffix_of_advance (h : advance pattern name = .wildcard rest left) : left <:+ name := by
  fun_induction advance pattern name with
  | case1 | case2 | case5 => cases h
  | case3 p pattern c name _ ih => exact (ih h).trans (List.suffix_cons c name)
  | case4 => cases h; exact List.suffix_rfl

/-- What is left at a wildcard decides. -/
theorem matches_of_advance_wildcard (h : advance pattern name = .wildcard rest left)
    (hrest : Matches ('%' :: rest) left) : Matches pattern name := by
  fun_induction advance pattern name with
  | case1 | case2 | case5 => cases h
  | case3 p pattern c name hadmits ih => exact matches_cons hadmits (ih h)
  | case4 p pattern c name _ hrun =>
    cases h
    rw [eq_of_beq hrun]
    exact hrest

/-! ## The search is sound -/

theorem matches_run_of_search (h : search pattern name = true) : Matches ('%' :: pattern) name := by
  fun_induction search pattern name with
  | case1 pattern name accepted hadvance =>
    rw [h] at hadvance
    exact .run [] (matches_of_advance_finished hadvance)
  | case2 pattern name rest left hadvance ih => exact .run [] (matches_of_advance_wildcard hadvance (ih h))
  | case3 => cases h
  | case4 pattern c name hadvance ih =>
    obtain ⟨tail, htail, hmatches⟩ := matches_run_iff.1 (ih h)
    exact matches_run_iff.2 ⟨tail, htail.trans (List.suffix_cons c name), hmatches⟩

/-- **A name that is accepted matches.** -/
theorem matches_of_fits (h : fits pattern name = true) : Matches pattern name := by
  rw [fits] at h
  cases hadvance : advance pattern name with
  | finished accepted =>
    rw [hadvance] at h
    exact matches_of_advance_finished (hadvance.trans (congrArg _ h))
  | wildcard rest left =>
    rw [hadvance] at h
    exact matches_of_advance_wildcard hadvance (matches_run_of_search h)
  | mismatch =>
    rw [hadvance] at h
    exact nomatch h

/-! ## The search is complete

In a name without `%` the way to the next wildcard takes one character for
each of the pattern. An end of the name then loses as many, and what is left
of it is an end of what is left of the name. -/

theorem ne_run_of_admits (hc : c ≠ '%') (hadmits : (p == '_' || p == c) = true) : p ≠ '%' := by
  rintro rfl
  exact (admits_iff.1 hadmits).elim (by decide) (hc ·.symm)

/-- On the way a pattern that matches an end of the name goes on to match an
end of the rest. -/
theorem exists_suffix_of_admits (hc : c ≠ '%') (hadmits : (p == '_' || p == c) = true)
    (htail : tail <:+ c :: name) (h : Matches (p :: pattern) tail) :
    ∃ rest, rest <:+ name ∧ Matches pattern rest := by
  obtain ⟨d, rest, rfl, -, hrest⟩ := (matches_cons_iff (ne_run_of_admits hc hadmits)).1 h
  refine ⟨rest, ?_, hrest⟩
  obtain heq | hshorter := List.suffix_cons_iff.1 htail
  · exact (List.cons.inj heq).2 ▸ List.suffix_rfl
  · exact (List.suffix_cons d rest).trans hshorter

/-- A pattern whose way takes the whole name is decided by its end. -/
theorem eq_true_of_advance_finished {accepted : Bool} (hname : '%' ∉ name) (htail : tail <:+ name)
    (h : advance pattern name = .finished accepted) (hmatches : Matches pattern tail) :
    accepted = true := by
  fun_induction advance pattern name generalizing tail with
  | case1 pattern =>
    rw [List.suffix_nil.1 htail] at hmatches
    exact (Progress.finished.inj h).symm.trans (matches_nil_iff.1 hmatches)
  | case2 | case4 | case5 => cases h
  | case3 p pattern c name hadmits ih =>
    obtain ⟨hc, hname⟩ := List.ne_and_not_mem_of_not_mem_cons hname
    obtain ⟨rest, hrest, hmatches⟩ := exists_suffix_of_admits hc.symm hadmits htail hmatches
    exact ih hname hrest h hmatches

/-- **The exchange**: whatever end of the name the pattern matches, its part
up to the wildcard takes at least what it takes of the name itself. -/
theorem matches_run_of_advance_wildcard (hname : '%' ∉ name) (htail : tail <:+ name)
    (h : advance pattern name = .wildcard rest left) (hmatches : Matches pattern tail) :
    Matches ('%' :: rest) left := by
  fun_induction advance pattern name generalizing tail with
  | case1 | case2 | case5 => cases h
  | case3 p pattern c name hadmits ih =>
    obtain ⟨hc, hname⟩ := List.ne_and_not_mem_of_not_mem_cons hname
    obtain ⟨rest, hrest, hmatches⟩ := exists_suffix_of_admits hc.symm hadmits htail hmatches
    exact ih hname hrest h hmatches
  | case4 p pattern c name _ hrun =>
    cases h
    rw [eq_of_beq hrun] at hmatches
    obtain ⟨behind, hbehind, hmatches⟩ := matches_run_iff.1 hmatches
    exact matches_run_iff.2 ⟨behind, hbehind.trans htail, hmatches⟩

theorem not_matches_of_advance_mismatch (hname : '%' ∉ name)
    (h : advance pattern name = .mismatch) :
    ¬ Matches pattern name := by
  fun_induction advance pattern name with
  | case1 | case4 => cases h
  | case2 =>
    intro hmatches
    cases hmatches
  | case3 p pattern c name hadmits ih =>
    obtain ⟨hc, hname⟩ := List.ne_and_not_mem_of_not_mem_cons hname
    intro hmatches
    obtain ⟨_, _, heq, -, hrest⟩ := (matches_cons_iff (ne_run_of_admits hc.symm hadmits)).1 hmatches
    exact ih hname h ((List.cons.inj heq).2 ▸ hrest)
  | case5 p pattern c name hadmits hrun =>
    intro hmatches
    obtain ⟨d, _, heq, hd, -⟩ := (matches_cons_iff fun hp => hrun (beq_iff_eq.2 hp)).1 hmatches
    exact hadmits (admits_iff.2 ((List.cons.inj heq).1 ▸ hd))

theorem search_of_matches_run (hname : '%' ∉ name) (h : Matches ('%' :: pattern) name) :
    search pattern name = true := by
  fun_induction search pattern name with
  | case1 pattern name accepted hadvance =>
    obtain ⟨tail, htail, hmatches⟩ := matches_run_iff.1 h
    exact eq_true_of_advance_finished hname htail hadvance hmatches
  | case2 pattern name rest left hadvance ih =>
    obtain ⟨tail, htail, hmatches⟩ := matches_run_iff.1 h
    exact ih (fun hleft => hname ((suffix_of_advance hadvance).mem hleft))
      (matches_run_of_advance_wildcard hname htail hadvance hmatches)
  | case3 pattern hadvance => exact absurd hadvance (by simp [advance])
  | case4 pattern c name hadvance ih =>
    obtain ⟨tail, htail, hmatches⟩ := matches_run_iff.1 h
    obtain rfl | htail := List.suffix_cons_iff.1 htail
    · exact absurd hmatches (not_matches_of_advance_mismatch hname hadvance)
    · exact ih (List.not_mem_of_not_mem_cons hname) (matches_run_iff.2 ⟨tail, htail, hmatches⟩)

/-- **A name without `%` that matches is accepted.** -/
theorem fits_of_matches (hname : '%' ∉ name) (h : Matches pattern name) :
    fits pattern name = true := by
  rw [fits]
  cases hadvance : advance pattern name with
  | finished accepted => exact eq_true_of_advance_finished hname List.suffix_rfl hadvance h
  | wildcard rest left =>
    exact search_of_matches_run (fun hleft => hname ((suffix_of_advance hadvance).mem hleft))
      (matches_run_of_advance_wildcard hname List.suffix_rfl hadvance h)
  | mismatch => exact absurd h (not_matches_of_advance_mismatch hname hadvance)

/-! ## Patterns without wildcards -/

/-- A pattern that names every character accepts itself only. -/
theorem fits_of_no_wildcard (hrun : '%' ∉ pattern) (hone : '_' ∉ pattern) :
    fits pattern name = (pattern == name) := by
  induction pattern generalizing name with
  | nil => cases name <;> rfl
  | cons p pattern ih =>
    obtain ⟨hp, hrun⟩ := List.ne_and_not_mem_of_not_mem_cons hrun
    obtain ⟨hp', hone⟩ := List.ne_and_not_mem_of_not_mem_cons hone
    cases name with
    | nil => simp [fits, advance, hp.symm]
    | cons c name =>
      have hstep : fits (p :: pattern) (c :: name) = ((p == c) && fits pattern name) := by
        by_cases hc : p = c <;> simp [fits, advance, hc, hp.symm, hp'.symm]
      rw [hstep, ih hrun hone, List.cons_beq_cons]

end

/-- Only letters have another lower case, and it is a letter. -/
theorem toLower_eq_iff {c w : Char} (hw : w.isAlpha = false) : c.toLower = w ↔ c = w := by
  obtain ⟨hupper, hlower⟩ := Bool.or_eq_false_iff.1 hw
  unfold Char.toLower
  split
  next h =>
    refine iff_of_false (fun heq => ?_) fun heq => ?_
    · have hval : (c.val.toNat + 32) % 2 ^ 32 = w.val.toNat :=
        congrArg (fun d : Char => d.val.toNat) heq
      have hlow : 65 ≤ c.val.toNat := UInt32.le_iff_toNat_le.1 h.1
      have hhigh : c.val.toNat ≤ 90 := UInt32.le_iff_toNat_le.1 h.2
      have hfirst : 97 ≤ w.val.toNat := by omega
      have hlast : w.val.toNat ≤ 122 := by omega
      exact Bool.eq_false_iff.1 hlower (Bool.and_eq_true_iff.2
        ⟨decide_eq_true (UInt32.le_iff_toNat_le.2 hfirst),
          decide_eq_true (UInt32.le_iff_toNat_le.2 hlast)⟩)
    · subst heq
      exact Bool.eq_false_iff.1 hupper (decide_eq_true h)
  next => exact Iff.rfl

theorem mem_folded_iff {ignoreCase : Bool} {text : String} {w : Char} (hw : w.isAlpha = false) :
    w ∈ folded ignoreCase text ↔ w ∈ text.toList := by
  rw [folded]
  split
  · rw [List.mem_map]
    constructor
    · rintro ⟨c, hc, h⟩
      rwa [← (toLower_eq_iff hw).1 h]
    · exact fun h => ⟨w, h, (toLower_eq_iff hw).2 rfl⟩
  · rfl

/-! ## The search as a loop

The search runs over the pattern and the name once, with the point to go back
to. -/

/-- **A search on its way.** -/
structure Scan where
  /-- The pattern that is left. -/
  pattern : List Char
  /-- The name that is left. -/
  name : List Char
  /-- The pattern behind the last `%`, and the name it was tried on last. -/
  retry : Option (List Char × List Char)

namespace Scan

/-- What follows a character that does not fit: the pattern behind the last
`%` is tried one character further. -/
def giveUp : Option (List Char × List Char) → Bool ⊕ Scan
  | some (pattern, name) => .inr ⟨pattern, name.tail, some (pattern, name.tail)⟩
  | none => .inl false

/-- **One step of a search**: its answer, or the search that goes on. -/
def step : Scan → Bool ⊕ Scan
  | ⟨pattern, [], _⟩ => .inl (pattern.all (· == '%'))
  | ⟨[], _ :: _, retry⟩ => giveUp retry
  | ⟨p :: pattern, c :: name, retry⟩ =>
    if p == '_' || p == c then .inr ⟨pattern, name, retry⟩
    else if p == '%' then .inr ⟨pattern, c :: name, some (pattern, c :: name)⟩
    else giveUp retry

/-- **A search ends with an answer** after some steps. -/
inductive Ends : Scan → Bool → Prop
  | answer {s : Scan} {answer : Bool} (h : s.step = .inl answer) : Ends s answer
  | step {s next : Scan} {answer : Bool} (h : s.step = .inr next)
      (rest : Ends next answer) : Ends s answer

/-- The search for a pattern from the beginning of a name. -/
def start (pattern name : List Char) : Scan :=
  ⟨pattern, name, none⟩

section

variable {pattern name rest left : List Char} {retry : Option (List Char × List Char)}
  {answer : Bool}

theorem ends_of_advance_finished (h : advance pattern name = .finished answer) :
    Ends ⟨pattern, name, retry⟩ answer := by
  fun_induction advance pattern name with
  | case1 pattern => exact .answer (congrArg _ (Progress.finished.inj h))
  | case2 | case4 | case5 => cases h
  | case3 p pattern c name hadmits ih => exact .step (if_pos hadmits) (ih h)

theorem ends_of_advance_wildcard (h : advance pattern name = .wildcard rest left)
    (hends : Ends ⟨rest, left, some (rest, left)⟩ answer) : Ends ⟨pattern, name, retry⟩ answer := by
  fun_induction advance pattern name with
  | case1 | case2 | case5 => cases h
  | case3 p pattern c name hadmits ih => exact .step (if_pos hadmits) (ih h)
  | case4 p pattern c name hadmits hrun =>
    cases h
    exact .step ((if_neg hadmits).trans (if_pos hrun)) hends

/-- Where a character does not fit the search goes back, wherever that is. -/
theorem ends_of_advance_mismatch (h : advance pattern name = .mismatch)
    (hends : (giveUp retry).elim (· = answer) (Ends · answer)) :
    Ends ⟨pattern, name, retry⟩ answer := by
  fun_induction advance pattern name with
  | case1 | case4 => cases h
  | case2 c name =>
    cases hback : giveUp retry with
    | inl found => exact .answer (hback.trans (congrArg _ (by simpa [hback] using hends)))
    | inr next => exact .step hback (by simpa [hback] using hends)
  | case3 p pattern c name hadmits ih => exact .step (if_pos hadmits) (ih h)
  | case5 p pattern c name hadmits hrun =>
    have hstep : step ⟨p :: pattern, c :: name, retry⟩ = giveUp retry :=
      (if_neg hadmits).trans (if_neg hrun)
    cases hback : giveUp retry with
    | inl found =>
      exact .answer (hstep.trans (hback.trans (congrArg _ (by simpa [hback] using hends))))
    | inr next => exact .step (hstep.trans hback) (by simpa [hback] using hends)

theorem ends_search (pattern name : List Char) :
    Ends ⟨pattern, name, some (pattern, name)⟩ (search pattern name) := by
  fun_induction search pattern name with
  | case1 pattern name accepted hadvance => exact ends_of_advance_finished hadvance
  | case2 pattern name rest left hadvance ih => exact ends_of_advance_wildcard hadvance ih
  | case3 pattern hadvance => exact absurd hadvance (by simp [advance])
  | case4 pattern c name hadvance ih => exact ends_of_advance_mismatch hadvance ih

/-- **The search ends**, with the answer whether the name fits. -/
theorem ends_fits (pattern name : List Char) : (start pattern name).Ends (fits pattern name) := by
  rw [fits, start]
  cases hadvance : advance pattern name with
  | finished accepted => exact ends_of_advance_finished hadvance
  | wildcard rest left => exact ends_of_advance_wildcard hadvance (ends_search rest left)
  | mismatch => exact ends_of_advance_mismatch hadvance rfl

end

end Scan

/-! ## Names and tables -/

theorem matchesName_eq_fits (pattern name : String) (ignoreCase : Bool) :
    matchesName pattern name ignoreCase
      = fits (folded ignoreCase pattern) (folded ignoreCase name) := by
  cases ignoreCase <;> rfl

/-- With escaped wildcards a name is compared as it stands. -/
theorem matchesTable_escaped (spec : TableSpec) (name : String) :
    { spec with wildcardEscaping := true }.matchesTable name =
      (folded (!spec.delimitIdentifiers) spec.tableName ==
        folded (!spec.delimitIdentifiers) name) := by
  rw [TableSpec.matchesTable, if_pos rfl]
  cases spec.delimitIdentifiers with
  | false => rfl
  | true => exact Bool.eq_iff_iff.2 (by simp [folded, String.toList_inj])

/-- **The names of tables are matched by LIKE.** The search for a pattern
ends, with the answer whether the name is accepted. A name that is accepted
matches the pattern, and one that matches is accepted unless it has a `%`. It
makes no difference to a pattern without wildcards whether they are escaped. -/
theorem matchesName_isLike (pattern name : String) (ignoreCase : Bool) :
    (Scan.start (folded ignoreCase pattern) (folded ignoreCase name)).Ends (matchesName pattern name ignoreCase) ∧
    (matchesName pattern name ignoreCase = true → IsLike pattern name ignoreCase) ∧
    ('%' ∉ name.toList → IsLike pattern name ignoreCase → matchesName pattern name ignoreCase = true) ∧
    ('%' ∉ pattern.toList → '_' ∉ pattern.toList → ∀ spec : TableSpec, spec.tableName = pattern →
      { spec with wildcardEscaping := true }.matchesTable name =
        { spec with wildcardEscaping := false }.matchesTable name) := by
  rw [matchesName_eq_fits]
  refine ⟨Scan.ends_fits _ _, matches_of_fits, fun hname h => ?_, ?_⟩
  case refine_1 => exact fits_of_matches (mt (mem_folded_iff (by decide)).1 hname) h
  case refine_2 =>
    rintro hrun hone spec rfl
    rw [matchesTable_escaped]
    show _ = matchesName spec.tableName name (!spec.delimitIdentifiers)
    rw [matchesName_eq_fits, fits_of_no_wildcard (mt (mem_folded_iff (by decide)).1 hrun)
      (mt (mem_folded_iff (by decide)).1 hone)]

/-- The `%` of the name is taken for that of the pattern. -/
example : matchesName "%" "%a" false = false ∧ IsLike "%" "%a" false :=
  ⟨by decide, .run ['%', 'a'] .nil⟩

end Like

end TableMapper
