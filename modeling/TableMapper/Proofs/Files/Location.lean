import Mathlib.Data.List.TakeWhile
import TableMapper.Files.Tree
import TableMapper.Proofs.Text.Trimming

/-!
# The places of joined paths

A relative path behind another one leads on from the place of the first
(`location_join`), and **a path that ends with a name leads to this name in
the place of its directory** (`EndsWith.location_eq`), however the directory
is written: slashes and single dots at its end make no difference.
-/

namespace TableMapper.Path

/-- **A name that a path can end with**: it holds no slash and does not end
with a dot. -/
structure IsName (name : String) : Prop where
  slash : '/' ∉ name.toList
  ended : ∃ stem c, name.toList = stem ++ [c] ∧ c ≠ '.'

/-- A path that ends with a name, behind a slash if there is anything in
front of it. -/
def EndsWith (path name : String) : Prop :=
  ∃ front, path.toList = front ++ name.toList ∧
    (front = [] ∨ ∃ directory, front = directory ++ ['/'])

section

variable {base path name : String} {names : List String} {cs front : List Char}

/-! ## Parts -/

/-- Whether the characters are those of a named part. -/
def isPart (cs : List Char) : Bool :=
  !cs.isEmpty && cs != ['.']

/-- The named parts between slashes, as characters. -/
def partsOf (cs : List Char) : List (List Char) :=
  (Text.pieces (· == '/') cs).filter isPart

theorem parts_eq (path : String) : parts path = (partsOf path.toList).map String.ofList := by
  have hpart : ∀ cs : List Char,
      isPart cs = (!(String.ofList cs).isEmpty && String.ofList cs != ".") := by
    intro cs
    rw [isPart]
    congr 1
    · cases cs <;> simp
    · rw [Bool.eq_iff_iff, bne_iff_ne, bne_iff_ne]
      exact not_congr ⟨fun h => h ▸ rfl, fun h => by rw [← String.toList_ofList (l := cs), h]; rfl⟩
  rw [parts, Text.splitAt, List.filter_map, partsOf]
  congr 1
  exact (List.filter_congr fun cs _ => hpart cs).symm

theorem partsOf_append (cs ds : List Char) :
    partsOf (cs ++ '/' :: ds) = partsOf cs ++ partsOf ds := by
  rw [partsOf, Text.pieces_append_cons rfl, List.filter_append]
  rfl

theorem partsOf_nil : partsOf [] = [] := rfl

/-- What holds no slash is one part, or none. -/
theorem partsOf_of_not_mem (h : '/' ∉ cs) : partsOf cs = if isPart cs then [cs] else [] := by
  rw [partsOf, Text.pieces_of_forall fun c hc => by simpa using fun heq : c = '/' => h (heq ▸ hc),
    List.filter_cons, List.filter_nil]

theorem IsName.isPart (h : IsName name) : isPart name.toList = true := by
  obtain ⟨stem, c, hname, hc⟩ := h.ended
  rw [hname, Path.isPart]
  cases stem with
  | nil => simpa using hc
  | cons d stem => simp

theorem IsName.partsOf (h : IsName name) : partsOf name.toList = [name.toList] := by
  rw [partsOf_of_not_mem h.slash, if_pos h.isPart]

theorem IsName.parts (h : IsName name) : parts name = [name] := by
  rw [parts_eq, h.partsOf]
  simp

/-! ## Steps -/

theorem IsName.ne_up (h : IsName name) : name ≠ ".." := by
  rintro rfl
  obtain ⟨stem, c, hname, hc⟩ := h.ended
  have hlast := congrArg List.getLast? hname
  rw [List.getLast?_concat] at hlast
  exact hc (Option.some.inj hlast).symm

theorem IsName.step (h : IsName name) (location : Location) :
    step location name = location ++ [name] := by
  rw [Path.step, if_neg]
  simp [h.ne_up]

/-- Names lead on one after another. -/
theorem foldl_step (h : ∀ name ∈ names, IsName name) (location : Location) :
    names.foldl step location = location ++ names := by
  induction names generalizing location with
  | nil => exact (List.append_nil location).symm
  | cons name names ih =>
    rw [List.foldl_cons, (h name List.mem_cons_self).step, ih fun other hother =>
      h other (List.mem_cons_of_mem name hother), List.append_assoc]
    rfl

/-! ## Beginnings -/

theorem IsName.not_absolute (h : IsName name) : isAbsolute name = false := by
  rw [isAbsolute, beq_eq_false_iff_ne]
  exact fun hhead => h.slash (List.mem_of_mem_head? hhead)

/-- Where a path begins. -/
def start (cs : List Char) : Location :=
  if cs.head? == some '/' then ["/"] else []

theorem location_eq (path : String) :
    location path = ((partsOf path.toList).map String.ofList).foldl step (start path.toList) := by
  rw [location, parts_eq]
  rfl

theorem start_append (h : cs ≠ []) (ds : List Char) : start (cs ++ ds) = start cs := by
  obtain ⟨c, cs, rfl⟩ := List.exists_cons_of_ne_nil h
  rfl

/-! ## Joined paths -/

/-- How a relative path is joined: it stands behind the other one, with a
slash between them if there is none yet. -/
theorem join_cases (h : isAbsolute path = false) (base : String) :
    base = "" ∧ join base path = path ∨
      (∃ directory, base.toList = directory ++ ['/'] ∧ join base path = base ++ path) ∨
      base ≠ "" ∧ join base path = base ++ "/" ++ path := by
  rw [join, if_neg (by simp [h])]
  by_cases hempty : base = ""
  · subst hempty
    exact .inl ⟨rfl, by simp⟩
  · by_cases hslash : base.toList.getLast? = some '/'
    · obtain ⟨directory, hbase⟩ := List.getLast?_eq_some_iff.1 hslash
      exact .inr (.inl ⟨directory, hbase, by rw [if_pos (by simp [hslash])]⟩)
    · refine .inr (.inr ⟨hempty, by rw [if_neg (by simp [hslash, hempty])]⟩)

/-- **A relative path leads on from the place of another one.** -/
theorem location_join (h : isAbsolute path = false) (base : String) :
    location (join base path) = (parts path).foldl step (location base) := by
  have hstart : start path.toList = [] := by
    rw [isAbsolute] at h
    simp [start, h]
  rw [parts_eq, location_eq, location_eq, ← List.foldl_append, ← List.map_append]
  rcases join_cases h base with ⟨rfl, hjoin⟩ | ⟨directory, hbase, hjoin⟩ | ⟨hne, hjoin⟩
  · rw [hjoin, hstart]
    rfl
  · rw [hjoin, String.toList_append, hbase, start_append (by simp), List.append_assoc]
    show List.foldl step _ (List.map _ (partsOf (directory ++ '/' :: path.toList))) = _
    rw [partsOf_append, partsOf_append, partsOf_nil, List.append_nil]
  · have hbase : base.toList ≠ [] := by simpa using hne
    rw [hjoin, String.toList_append, String.toList_append, List.append_assoc, start_append hbase]
    show List.foldl step _ (List.map _ (partsOf (base.toList ++ '/' :: path.toList))) = _
    rw [partsOf_append]

theorem parts_join (h : isAbsolute path = false) (base : String) :
    parts (join base path) = parts base ++ parts path := by
  rw [parts_eq, parts_eq, parts_eq, ← List.map_append]
  congr 1
  rcases join_cases h base with ⟨rfl, hjoin⟩ | ⟨directory, hbase, hjoin⟩ | ⟨-, hjoin⟩
  · rw [hjoin]
    rfl
  · rw [hjoin, String.toList_append, hbase, List.append_assoc]
    show partsOf (directory ++ '/' :: path.toList) = _
    rw [partsOf_append, partsOf_append, partsOf_nil, List.append_nil]
  · rw [hjoin, String.toList_append, String.toList_append, List.append_assoc]
    exact partsOf_append _ _

theorem isAbsolute_join (h : isAbsolute path = false) (base : String) :
    isAbsolute (join base path) = isAbsolute base := by
  rcases join_cases h base with ⟨rfl, hjoin⟩ | ⟨directory, hbase, hjoin⟩ | ⟨hne, hjoin⟩
  · rw [hjoin, h]
    rfl
  · rw [hjoin, isAbsolute, isAbsolute, String.toList_append, hbase]
    cases directory <;> rfl
  · obtain ⟨c, cs, hbase⟩ := List.exists_cons_of_ne_nil (show base.toList ≠ [] by simpa using hne)
    rw [hjoin, isAbsolute, isAbsolute, String.toList_append, String.toList_append, hbase]
    rfl

/-- **Names joined one behind the other** are the parts of a relative
path. -/
theorem parts_joinAll (h : ∀ name ∈ names, IsName name) :
    isAbsolute (joinAll names) = false ∧ parts (joinAll names) = names := by
  have hfold : ∀ base, isAbsolute base = false →
      isAbsolute (names.foldl join base) = false ∧
      parts (names.foldl join base) = parts base ++ names := by
    induction names with
    | nil => exact fun base hbase => ⟨hbase, (List.append_nil _).symm⟩
    | cons name names ih =>
      intro base hbase
      have hname := h name List.mem_cons_self
      obtain ⟨habsolute, hparts⟩ :=
        ih (fun other hother => h other (List.mem_cons_of_mem name hother)) (join base name)
        (by rw [isAbsolute_join hname.not_absolute, hbase])
      refine ⟨habsolute, ?_⟩
      rw [List.foldl_cons, hparts, parts_join hname.not_absolute, hname.parts, List.append_assoc]
      rfl
  exact hfold "" rfl

/-! ## Paths that end with a name -/

/-- What ends neither with a slash nor with a dot ends with a name. -/
theorem exists_endsWith (h : ∃ stem c, path.toList = stem ++ [c] ∧ c ≠ '/' ∧ c ≠ '.') :
    ∃ name, IsName name ∧ EndsWith path name := by
  obtain ⟨stem, c, hpath, hslash, hdot⟩ := h
  have hsplit : path.toList = (stem.reverse.dropWhile (· != '/')).reverse ++
      (stem.reverse.takeWhile (· != '/')).reverse ++ [c] := by
    rw [hpath, ← List.reverse_append, List.takeWhile_append_dropWhile, List.reverse_reverse]
  refine ⟨String.ofList ((stem.reverse.takeWhile (· != '/')).reverse ++ [c]), ⟨?_, ?_⟩, _,
    by rw [String.toList_ofList, ← List.append_assoc]; exact hsplit, ?_⟩
  · rw [String.toList_ofList, List.mem_append, List.mem_reverse, List.mem_singleton]
    rintro (hmem | rfl)
    · simpa using List.mem_takeWhile_imp hmem
    · exact hslash rfl
  · exact ⟨_, c, String.toList_ofList, hdot⟩
  · cases hfront : stem.reverse.dropWhile (· != '/') with
    | nil => exact .inl rfl
    | cons d rest =>
      have hd := List.head?_dropWhile_not (· != '/') stem.reverse
      rw [hfront] at hd
      exact .inr ⟨rest.reverse, by rw [List.reverse_cons, show d = '/' by simpa using hd]⟩

theorem endsWith_join (h : IsName name) (base : String) : EndsWith (join base name) name := by
  rcases join_cases h.not_absolute base with ⟨rfl, hjoin⟩ | ⟨directory, hbase, hjoin⟩ | ⟨-, hjoin⟩
  · exact ⟨[], by rw [hjoin]; rfl, .inl rfl⟩
  · exact ⟨base.toList, by rw [hjoin, String.toList_append], .inr ⟨directory, hbase⟩⟩
  · exact ⟨base.toList ++ ['/'], by rw [hjoin, String.toList_append, String.toList_append]; rfl,
      .inr ⟨_, rfl⟩⟩

theorem EndsWith.join (h : EndsWith path name) (base : String) :
    EndsWith (join base path) name := by
  by_cases habsolute : isAbsolute path = true
  · rwa [Path.join, if_pos habsolute]
  · obtain ⟨front, hpath, hfront⟩ := h
    -- what stands in front of the name is the other path with what was there
    have hbehind : ∀ before : List Char, (∃ directory, before = directory ++ ['/']) →
        ∃ directory, before ++ front = directory ++ ['/'] := by
      rintro before ⟨directory, rfl⟩
      rcases hfront with rfl | ⟨inner, rfl⟩
      · exact ⟨directory, List.append_nil _⟩
      · exact ⟨directory ++ ['/'] ++ inner, by simp⟩
    rcases join_cases (Bool.eq_false_iff.2 habsolute)
      base with ⟨rfl, hjoin⟩ | ⟨directory, hbase, hjoin⟩ | ⟨-, hjoin⟩
    · exact ⟨front, by rw [hjoin, hpath], hfront⟩
    · exact ⟨base.toList ++ front, by rw [hjoin, String.toList_append, hpath, List.append_assoc],
        .inr (hbehind _ ⟨directory, hbase⟩)⟩
    · refine ⟨base.toList ++ ['/'] ++ front, ?_, .inr (hbehind _ ⟨_, rfl⟩)⟩
      rw [hjoin, String.toList_append, String.toList_append, hpath]
      simp

/-- Slashes and single dots at the end of a path lead nowhere. -/
theorem partsOf_dropTail (cs : List Char) :
    partsOf (dropTail cs).reverse = partsOf cs.reverse ∧
    start (dropTail cs).reverse = start cs.reverse := by
  fun_induction dropTail cs with
  | case1 c rest ih =>
    rw [ih.1, ih.2, List.reverse_cons (a := '/')]
    refine ⟨?_, (start_append (by simp) _).symm⟩
    show _ = partsOf ((c :: rest).reverse ++ '/' :: [])
    rw [partsOf_append, partsOf_nil, List.append_nil]
  | case2 rest ih =>
    rw [ih.1, ih.2, List.reverse_cons (a := '.'), List.reverse_cons (a := '/')]
    refine ⟨?_, (start_append (by simp) _).symm⟩
    rw [List.append_assoc]
    show partsOf (rest.reverse ++ '/' :: []) = partsOf (rest.reverse ++ '/' :: ['.'])
    rw [partsOf_append, partsOf_append]
    rfl
  | case3 cs => exact ⟨rfl, rfl⟩

/-- **A path that ends with a name leads to it in the place of its
directory.** -/
theorem EndsWith.location_eq (h : EndsWith path name) (hname : IsName name) :
    location path = location (parent path) ++ [name] := by
  obtain ⟨front, hpath, hfront⟩ := h
  obtain ⟨stem, c, hlast, hdot⟩ := hname.ended
  have hslash : c ≠ '/' := by
    rintro rfl
    exact hname.slash (by rw [hlast]; simp)
  have htail : dropTail path.toList.reverse = path.toList.reverse := by
    rw [hpath, hlast, ← List.append_assoc, List.reverse_append, List.reverse_singleton,
      List.singleton_append, dropTail]
    · exact fun _ _ heq => hslash (List.cons.inj heq).1
    · exact fun _ heq => hdot (List.cons.inj heq).1
  have hdirectory : path.toList.reverse.dropWhile (· != '/') = front.reverse := by
    rw [hpath, List.reverse_append, List.dropWhile_append_of_pos fun d hd => ?_]
    · rcases hfront with rfl | ⟨directory, rfl⟩ <;> simp
    · simpa using fun heq : d = '/' => hname.slash (heq ▸ List.mem_reverse.1 hd)
  have hparent : location (parent path)
      = ((partsOf front).map String.ofList).foldl step (start front) := by
    obtain ⟨hparts, hstart⟩ := partsOf_dropTail front.reverse
    rw [parent, htail, hdirectory, Path.location_eq, String.toList_ofList, hparts,
      hstart, List.reverse_reverse]
  rw [hparent, Path.location_eq, hpath]
  have hparts : partsOf (front ++ name.toList) = partsOf front ++ [name.toList] ∧
      start (front ++ name.toList) = start front := by
    rcases hfront with rfl | ⟨directory, rfl⟩
    · refine ⟨by rw [List.nil_append, hname.partsOf]; rfl, ?_⟩
      have habsolute := hname.not_absolute
      rw [isAbsolute] at habsolute
      simp [start, habsolute]
    · refine ⟨?_, start_append (by simp) _⟩
      rw [List.append_assoc]
      show partsOf (directory ++ '/' :: name.toList) = partsOf (directory ++ '/' :: []) ++ _
      rw [partsOf_append, partsOf_append, partsOf_nil, List.append_nil, hname.partsOf]
  rw [hparts.1, hparts.2, List.map_append, List.foldl_append,
    List.map_singleton, String.ofList_toList]
  exact hname.step _

/-- **A path that can be that of a file**: it is not empty, not only a
directory can have it, and it leads to some name in the place of its
directory. -/
structure NamesFile (path : String) : Prop where
  ne_empty : path ≠ ""
  namesDirectory : namesDirectory path = false
  location : ∃ name, location path = Path.location (parent path) ++ [name]

theorem EndsWith.namesFile (h : EndsWith path name) (hname : IsName name) : NamesFile path := by
  have hlocation := h.location_eq hname
  obtain ⟨front, hpath, -⟩ := h
  obtain ⟨stem, c, hlast, hdot⟩ := hname.ended
  have hslash : c ≠ '/' := by
    rintro rfl
    exact hname.slash (by rw [hlast]; simp)
  have hend : path.toList = front ++ stem ++ [c] := by rw [hpath, hlast, List.append_assoc]
  have hsuffix : ∀ suffix : String, suffix.toList.getLast? ≠ some c → suffix.toList ≠ [] →
      path.endsWith suffix = false := by
    intro suffix hne hnil
    rw [Bool.eq_false_iff, ne_eq, String.endsWith_eq_endsWith_toSlice,
      String.Slice.endsWith_string_iff, String.copy_toSlice]
    rintro ⟨before, hbefore⟩
    have heq := congrArg List.getLast? hbefore
    rw [hend, List.getLast?_concat, List.getLast?_append, List.getLast?_eq_some_getLast hnil,
      Option.some_or] at heq
    exact hne (by rw [List.getLast?_eq_some_getLast hnil, heq])
  refine ⟨?_, ?_, name, hlocation⟩
  · rintro rfl
    simp at hend
  · rw [Path.namesDirectory, hsuffix "/" (fun heq => hslash (Option.some.inj heq).symm) (by decide),
      hsuffix "/." (fun heq => hdot (Option.some.inj heq).symm) (by decide)]
    rfl

end

end TableMapper.Path
