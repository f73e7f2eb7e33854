import Mathlib.Data.List.Forall2
import TableMapper.Proofs.Unit.Marking

/-!
# Masking the bytes of a source file

Where places in a file are counted in bytes, the comments and the contents of
literals are blanked byte by byte: the marking that tells code from comments
is run over the bytes, each of them read as the character with its number
(`maskedBytes`). **Every byte stays as it is or becomes a blank**
(`forall₂_maskedBytes`), whatever the bytes are. The marking knows nothing of
characters of several bytes; still it never blanks one in part, not even
behind a backslash, which takes the next byte with it. The bytes behind a
first byte are those of no quote, no slash and no line end, so they share the
fate of the first. **The masked bytes of a text are those of its blanked
characters** (`maskedBytes_encode`), and so the bytes of a text again
(`isValidUTF8_maskBytes`).
-/

namespace TableMapper.Source

/-! ## Masking -/

/-- **The bytes with comments and the contents of literals blanked.** -/
def maskedBytes (bytes : List UInt8) : List UInt8 :=
  (markFrom .code (bytes.map Char.ofUInt8)).map fun b => b.code.toUInt8

/-- `maskedBytes` on byte arrays. -/
def maskBytes (bytes : ByteArray) : ByteArray :=
  (maskedBytes bytes.data.toList).toByteArray

/-- The bytes of a text. -/
def encode (cs : List Char) : List UInt8 :=
  cs.flatMap String.utf8EncodeChar

theorem toNat_ofUInt8 (b : UInt8) : (Char.ofUInt8 b).toNat = b.toNat :=
  b.toNat_toUInt32

theorem toUInt8_ofUInt8 (b : UInt8) : (Char.ofUInt8 b).toUInt8 = b :=
  b.toUInt8_toUInt32

/-- **No byte is lost, and each one stays as it is or becomes a blank.** -/
theorem forall₂_maskedBytes (bytes : List UInt8) :
    List.Forall₂ (fun b masked => masked = b ∨ masked = 0x20) bytes (maskedBytes bytes) := by
  have hbytes : bytes = (markFrom .code (bytes.map Char.ofUInt8)).map fun b => b.char.toUInt8 := by
    have hchars := congrArg (List.map Char.toUInt8)
      (map_char_markFrom .code (bytes.map Char.ofUInt8))
    rw [List.map_map, List.map_map] at hchars
    calc
      bytes = bytes.map (Char.toUInt8 ∘ Char.ofUInt8) := by
        simp [Function.comp_def, toUInt8_ofUInt8]
      _ = _ := hchars.symm
  rw [maskedBytes]
  conv_lhs => rw [hbytes]
  rw [List.forall₂_map_left_iff, List.forall₂_map_right_iff, List.forall₂_same]
  intro b _
  unfold SourceChar.code
  split
  · exact .inr rfl
  · exact .inl rfl

/-! ## Characters of several bytes -/

/-- A character of more than seven bits. -/
def IsHigh (c : Char) : Prop := 128 ≤ c.toNat

instance : DecidablePred IsHigh := fun c => inferInstanceAs (Decidable (128 ≤ c.toNat))

/-- The bytes of a character, each read as the character with its number. -/
def spread (c : Char) : List Char :=
  (String.utf8EncodeChar c).map Char.ofUInt8

variable {c d : Char} {cs ds rest : List Char} {surrounding : Surrounding}

theorem spread_of_not_isHigh (h : ¬ IsHigh c) : spread c = [c] := by
  have hle : c.val.toNat ≤ 127 := by
    rw [IsHigh, ← Char.toNat_val] at h
    omega
  have hsize : c.utf8Size = 1 := Char.utf8Size_eq_one_iff.2 (UInt32.le_iff_toNat_le.2 hle)
  have hchar : (Char.ofUInt8 c.val.toUInt8).toNat = c.toNat := by
    rw [toNat_ofUInt8, UInt32.toNat_toUInt8, Char.toNat_val]
    rw [Char.toNat_val] at hle
    omega
  rw [spread, String.utf8EncodeChar_eq_singleton hsize, List.map_singleton, Char.toNat_inj.1 hchar]

/-- Every byte of a longer character is outside the seven bits. -/
theorem isHigh_of_mem_spread (h : IsHigh c) (hd : d ∈ spread c) : IsHigh d := by
  have hlong : ¬ c.val.toNat ≤ 127 := by
    rw [IsHigh, ← Char.toNat_val] at h
    omega
  obtain ⟨b, hb, rfl⟩ := List.mem_map.1 hd
  rw [IsHigh, toNat_ofUInt8]
  simp only [String.utf8EncodeChar, if_neg hlong] at hb
  split at hb
  · simp only [List.mem_cons, List.not_mem_nil, or_false] at hb
    rcases hb with rfl | rfl <;> simp <;> omega
  · split at hb
    · simp only [List.mem_cons, List.not_mem_nil, or_false] at hb
      rcases hb with rfl | rfl | rfl <;> simp <;> omega
    · simp only [List.mem_cons, List.not_mem_nil, or_false] at hb
      rcases hb with rfl | rfl | rfl | rfl <;> simp <;> omega

theorem spread_ne_nil (c : Char) : spread c ≠ [] := by
  simp [spread, String.utf8EncodeChar_ne_nil]

/-- A byte of seven bits is a character of the text. -/
theorem exists_of_flatMap_spread (h : cs.flatMap spread = d :: rest) (hd : ¬ IsHigh d) :
    ∃ more, cs = d :: more ∧ rest = more.flatMap spread := by
  cases cs with
  | nil => cases h
  | cons c cs =>
    rw [List.flatMap_cons] at h
    by_cases hc : IsHigh c
    · obtain ⟨first, bytes, hspread⟩ := List.exists_cons_of_ne_nil (spread_ne_nil c)
      rw [hspread, List.cons_append] at h
      refine absurd (isHigh_of_mem_spread hc ?_) hd
      rw [hspread, (List.cons.inj h).1]
      exact List.mem_cons_self
    · rw [spread_of_not_isHigh hc] at h
      obtain ⟨rfl, rfl⟩ := List.cons.inj h
      exact ⟨cs, rfl, rfl⟩

theorem flatMap_spread_ne_cons (h : ∀ more, cs = d :: more → False)
    (hd : ¬ IsHigh d) (more : List Char) :
    cs.flatMap spread ≠ d :: more := by
  intro hcs
  obtain ⟨more', hmore, -⟩ := exists_of_flatMap_spread hcs hd
  exact h more' hmore

theorem flatMap_spread_ne_of_nil (h : ∀ d more, cs = d :: more → False) (more : List Char) :
    cs.flatMap spread ≠ d :: more := by
  cases cs with
  | nil => exact (List.cons_ne_nil d more).symm
  | cons c cs => exact (h c cs rfl).elim

/-! ## Marking the bytes -/

/-- Only characters of seven bits end a literal. -/
def Surrounding.IsLow : Surrounding → Prop
  | .literal quote => ¬ IsHigh quote
  | _ => True

/-- Characters that neither begin nor end something are hidden. -/
def Surrounding.hides : Surrounding → Bool
  | .code => false
  | _ => true

/-- The bytes of a marked character, each marked as the character is. -/
def spreadMarked (c : SourceChar) : Source :=
  (spread c.char).map fun d => ⟨d, c.hidden⟩

theorem IsHigh.ne (h : IsHigh c) (hd : ¬ IsHigh d) : c ≠ d :=
  fun heq => hd (heq ▸ h)

theorem inside_of_isHigh (h : IsHigh c) : inside c = concealed c := by
  have hne : c ≠ '\n' := h.ne (by decide)
  simp [inside, concealed, hne]

/-- **Outside the seven bits nothing begins or ends.** -/
theorem markFrom_isHigh (hlow : surrounding.IsLow) (h : IsHigh c) (rest : List Char) :
    markFrom surrounding (c :: rest) = ⟨c, surrounding.hides⟩ :: markFrom surrounding rest := by
  have hquote : c ≠ '"' := h.ne (by decide)
  have happend : c ≠ '\x27' := h.ne (by decide)
  have hslash : c ≠ '/' := h.ne (by decide)
  have hstar : c ≠ '*' := h.ne (by decide)
  have hback : c ≠ '\\' := h.ne (by decide)
  have hline : c ≠ '\n' := h.ne (by decide)
  cases surrounding with
  | code => simp [markFrom, hquote, happend, hslash, shown, Surrounding.hides]
  | lineComment => simp [markFrom, hline, inside, Surrounding.hides]
  | blockComment => simp [markFrom, hstar, inside_of_isHigh h, concealed, Surrounding.hides]
  | literal quote =>
    simp [markFrom, hback, h.ne hlow, inside_of_isHigh h, concealed, Surrounding.hides]
  | textBlock => simp [markFrom, hquote, hback, inside_of_isHigh h, concealed, Surrounding.hides]

theorem markFrom_areHigh (hlow : surrounding.IsLow) (h : ∀ c ∈ cs, IsHigh c) (rest : List Char) :
    markFrom surrounding (cs ++ rest)
      = cs.map (⟨·, surrounding.hides⟩) ++ markFrom surrounding rest := by
  induction cs with
  | nil => rfl
  | cons c cs ih =>
    rw [List.cons_append, markFrom_isHigh hlow (h c List.mem_cons_self),
      ih fun d hd => h d (List.mem_cons_of_mem c hd)]
    rfl

theorem flatMap_spread_of_low (h : ∀ c ∈ cs, ¬ IsHigh c) : cs.flatMap spread = cs := by
  induction cs with
  | nil => rfl
  | cons c cs ih =>
    obtain ⟨hc, hcs⟩ := List.forall_mem_cons.1 h
    rw [List.flatMap_cons, spread_of_not_isHigh hc, ih hcs]
    rfl

theorem flatMap_spreadMarked_of_low {source : Source} (h : ∀ c ∈ source.chars, ¬ IsHigh c) :
    source.flatMap spreadMarked = source := by
  induction source with
  | nil => rfl
  | cons c source ih =>
    obtain ⟨hc, hsource⟩ := List.forall_mem_cons.1 h
    rw [List.flatMap_cons, spreadMarked, spread_of_not_isHigh hc, ih hsource]
    rfl

/-- The bytes behind the first one are outside the seven bits. -/
theorem exists_spread_cons (c : Char) : ∃ d ds, spread c = d :: ds ∧ ∀ e ∈ ds, IsHigh e := by
  by_cases hc : IsHigh c
  · obtain ⟨d, ds, hspread⟩ := List.exists_cons_of_ne_nil (spread_ne_nil c)
    exact ⟨d, ds, hspread,
      fun e he => isHigh_of_mem_spread hc (hspread ▸ List.mem_cons_of_mem d he)⟩
  · exact ⟨c, [], spread_of_not_isHigh hc, by simp⟩

section

variable (hrest : markFrom surrounding (cs.flatMap spread)
    = (markFrom surrounding cs).flatMap spreadMarked)
include hrest

/-- A character outside the seven bits. -/
theorem markFrom_spread_isHigh (hlow : surrounding.IsLow) (hc : IsHigh c) :
    markFrom surrounding ((c :: cs).flatMap spread)
      = (⟨c, surrounding.hides⟩ :: markFrom surrounding cs).flatMap spreadMarked := by
  rw [List.flatMap_cons, markFrom_areHigh hlow fun d hd => isHigh_of_mem_spread hc hd, hrest]
  rfl

/-- **A token of the seven bits**, behind which the marking goes on in `surrounding`. -/
theorem markFrom_spread_token {first : Surrounding} (token : List Char) (marks : Source)
    (htoken : ∀ c ∈ token, ¬ IsHigh c) (hmarks : marks.chars = token)
    (hstep : markFrom first (token ++ cs.flatMap spread)
      = marks ++ markFrom surrounding (cs.flatMap spread)) :
    markFrom first ((token ++ cs).flatMap spread)
      = (marks ++ markFrom surrounding cs).flatMap spreadMarked := by
  have hmarked : marks.flatMap spreadMarked = marks := flatMap_spreadMarked_of_low (hmarks ▸ htoken)
  rw [List.flatMap_append, flatMap_spread_of_low htoken, hstep, hrest, List.flatMap_append, hmarked]

/-- **A backslash takes a whole character with it**: it blanks the first byte,
and in a literal the other bytes are blanked on their own. -/
theorem markFrom_spread_escaped (hlow : surrounding.IsLow) (hhides : surrounding.hides = true)
    (hescape : ∀ d behind, markFrom surrounding ('\\' :: d :: behind) =
      concealed '\\' :: concealed d :: markFrom surrounding behind) (c : Char) :
    markFrom surrounding (('\\' :: c :: cs).flatMap spread)
      = (concealed '\\' :: concealed c :: markFrom surrounding cs).flatMap spreadMarked := by
  obtain ⟨d, ds, hspread, hds⟩ := exists_spread_cons c
  have hback : spread '\\' = ['\\'] := spread_of_not_isHigh (by decide)
  have hbackMarked : spreadMarked (concealed '\\') = [concealed '\\'] :=
    congrArg (List.map _) hback
  have hmarked : spreadMarked (concealed c) = concealed d :: ds.map (⟨·, true⟩) := by
    rw [spreadMarked, concealed, hspread]
    rfl
  rw [List.flatMap_cons, List.flatMap_cons, hback, hspread, List.singleton_append, List.cons_append,
    hescape, markFrom_areHigh hlow hds, hhides, hrest, List.flatMap_cons, List.flatMap_cons,
    hbackMarked, hmarked]
  rfl

end

/-- **The bytes of a text are marked as its characters are.** -/
theorem markFrom_spread (hlow : surrounding.IsLow) (cs : List Char) :
    markFrom surrounding (cs.flatMap spread) = (markFrom surrounding cs).flatMap spreadMarked := by
  -- a token of the seven bits is read in the bytes if it is in the characters; of the cases that
  -- take any character, those of more than seven bits are left to `markFrom_spread_isHigh`
  fun_induction markFrom surrounding cs with
  | case1 => simp [markFrom]
  | case2 rest ih =>
    exact markFrom_spread_token (ih trivial) ['/', '/'] [concealed '/', concealed '/']
      (by decide) rfl rfl
  | case3 rest ih =>
    exact markFrom_spread_token (ih trivial) ['/', '*'] [concealed '/', concealed '*']
      (by decide) rfl rfl
  | case4 rest ih =>
    exact markFrom_spread_token (ih trivial) ['"', '"', '"'] [shown '"', shown '"', shown '"']
      (by decide) rfl rfl
  | case5 c rest hline hblock htext ih =>
    by_cases hc : IsHigh c
    · have hcode : (c == '"' || c == '\x27') = false := by
        simp [hc.ne (by decide : ¬ IsHigh '"'), hc.ne (by decide : ¬ IsHigh '\x27')]
      rw [hcode] at ih ⊢
      exact markFrom_spread_isHigh (ih hlow) hlow hc
    · have hnext : (if (c == '"' || c == '\x27') = true then Surrounding.literal c
          else .code).IsLow := by
        split
        · exact hc
        · trivial
      refine markFrom_spread_token (ih hnext) [c] [shown c] (List.forall_mem_singleton.2 hc) rfl ?_
      rw [List.singleton_append, markFrom]
      · rfl
      · exact fun more heq => flatMap_spread_ne_cons (hline · heq) (by decide) more
      · exact fun more heq => flatMap_spread_ne_cons (hblock · heq) (by decide) more
      · intro more heq hmore
        obtain ⟨next, rfl, hnext⟩ := exists_of_flatMap_spread hmore (by decide)
        exact flatMap_spread_ne_cons (fun next' h => htext next' heq (h ▸ rfl))
          (by decide) more hnext.symm
  | case6 c rest ih =>
    by_cases hc : IsHigh c
    · have hline : (c == '\n') = false := by simp [hc.ne (by decide : ¬ IsHigh '\n')]
      rw [hline] at ih ⊢
      rw [inside_of_isHigh hc]
      exact markFrom_spread_isHigh (ih hlow) hlow hc
    · refine markFrom_spread_token (ih (by split <;> trivial)) [c] [inside c]
        (List.forall_mem_singleton.2 hc) rfl ?_
      rw [List.singleton_append, markFrom]
      rfl
  | case7 rest ih =>
    exact markFrom_spread_token (ih trivial) ['*', '/'] [concealed '*', concealed '/']
      (by decide) rfl rfl
  | case8 c rest hend ih =>
    by_cases hc : IsHigh c
    · rw [inside_of_isHigh hc]
      exact markFrom_spread_isHigh (ih hlow) hlow hc
    · refine markFrom_spread_token (ih trivial) [c] [inside c]
        (List.forall_mem_singleton.2 hc) rfl ?_
      rw [List.singleton_append, markFrom]
      · rfl
      · exact fun more heq => flatMap_spread_ne_cons (hend · heq) (by decide) more
  | case9 quote c rest ih =>
    exact markFrom_spread_escaped (ih hlow) hlow rfl (fun _ _ => by rw [markFrom]) c
  | case10 quote c rest hescape hquote ih =>
    have hc : ¬ IsHigh c := beq_iff_eq.1 hquote ▸ hlow
    refine markFrom_spread_token (ih trivial) [c] [shown c] (List.forall_mem_singleton.2 hc) rfl ?_
    rw [List.singleton_append, markFrom, if_pos hquote]
    · rfl
    · exact fun d more heq => flatMap_spread_ne_of_nil (hescape · · heq) more
  | case11 quote c rest hescape hquote ih =>
    by_cases hc : IsHigh c
    · rw [inside_of_isHigh hc]
      exact markFrom_spread_isHigh (ih hlow) hlow hc
    · refine markFrom_spread_token (ih hlow) [c] [inside c] (List.forall_mem_singleton.2 hc) rfl ?_
      rw [List.singleton_append, markFrom, if_neg hquote]
      · rfl
      · exact fun d more heq => flatMap_spread_ne_of_nil (hescape · · heq) more
  | case12 rest ih =>
    exact markFrom_spread_token (ih trivial) ['"', '"', '"'] [shown '"', shown '"', shown '"']
      (by decide) rfl rfl
  | case13 c rest ih =>
    exact markFrom_spread_escaped (ih hlow) hlow rfl (fun _ _ => by rw [markFrom]) c
  | case14 c rest htext hescape ih =>
    by_cases hc : IsHigh c
    · rw [inside_of_isHigh hc]
      exact markFrom_spread_isHigh (ih hlow) hlow hc
    · refine markFrom_spread_token (ih hlow) [c] [inside c] (List.forall_mem_singleton.2 hc) rfl ?_
      rw [List.singleton_append, markFrom]
      · rfl
      · intro more heq hmore
        obtain ⟨next, rfl, hnext⟩ := exists_of_flatMap_spread hmore (by decide)
        exact flatMap_spread_ne_cons (fun next' h => htext next' heq (h ▸ rfl))
          (by decide) more hnext.symm
      · exact fun d more heq => flatMap_spread_ne_of_nil (hescape · · heq) more

/-! ## The masked text -/

theorem encode_blanks (n : Nat) : encode (List.replicate n ' ') = List.replicate n 0x20 := by
  rw [encode, List.flatMap_replicate]
  exact List.flatten_replicate_singleton

/-- **The masked bytes of a text are the bytes of a text**, in which there is a
blank for every byte of a hidden character. -/
theorem maskedBytes_encode (cs : List Char) :
    maskedBytes (encode cs) = encode (blanked (markFrom .code cs)) := by
  have hcode : ∀ c : SourceChar, (spreadMarked c).map (fun b => b.code.toUInt8)
      = encode (if c.hidden then List.replicate c.char.utf8Size ' ' else [c.char]) := by
    rintro ⟨c, hidden⟩
    cases hidden with
    | false =>
      simp [spreadMarked, spread, encode, SourceChar.code, toUInt8_ofUInt8, Function.comp_def]
    | true =>
      rw [if_pos rfl, encode_blanks]
      simp only [spreadMarked, spread, SourceChar.code, if_true, List.map_map, Function.comp_def,
        List.map_const', String.length_utf8EncodeChar]
      rfl
  have hspread : (encode cs).map Char.ofUInt8 = cs.flatMap spread := List.map_flatMap
  have hlow : Surrounding.IsLow .code := trivial
  rw [maskedBytes, hspread, markFrom_spread hlow, List.map_flatMap, encode,
    blanked, List.flatMap_assoc]
  exact congrArg (List.flatMap · _) (funext hcode)

theorem maskBytes_toUTF8 (s : String) :
    maskBytes s.toUTF8 = (String.ofList (blanked (ofText s))).toUTF8 := by
  have hbytes : s.toByteArray.data.toList = encode s.toList := by
    rw [← String.utf8Encode_toList, List.utf8Encode, List.toList_data_toByteArray]
    rfl
  rw [maskBytes, String.toUTF8_eq_toByteArray, String.toUTF8_eq_toByteArray, hbytes,
    maskedBytes_encode, String.toByteArray_ofList]
  rfl

theorem isValidUTF8_maskBytes (s : String) : (maskBytes s.toUTF8).IsValidUTF8 := by
  rw [maskBytes_toUTF8, String.toUTF8_eq_toByteArray]
  exact String.isValidUTF8 _

/-- **The masked text**, read from its bytes. -/
theorem fromUTF8?_maskBytes (s : String) :
    String.fromUTF8? (maskBytes s.toUTF8) = some (String.ofList (blanked (ofText s))) := by
  rw [String.fromUTF8?, dif_pos (isValidUTF8_maskBytes s)]
  refine congrArg some (String.toByteArray_inj.1 ?_)
  rw [← String.toUTF8_eq_toByteArray (s := String.ofList _), ← maskBytes_toUTF8]
  rfl

end TableMapper.Source
