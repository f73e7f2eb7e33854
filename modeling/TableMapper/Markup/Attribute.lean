import TableMapper.Markup.Event

/-!
# Attributes of a start tag

The attributes of a tag are read from the left until the one asked for is
found, so a fault behind it does not matter and the first of several
attributes with a name counts. A value stands in single or double quotes,
and only the value that is asked for is decoded.
-/

namespace TableMapper.Markup

/-- Why an attribute cannot be read. -/
inductive AttributeFault
  /-- No `=` behind a name. -/
  | noEquals
  /-- No value behind an `=`, or one without quotes. -/
  | noValue
  /-- A value without closing quote. -/
  | unclosed
  /-- A reference in a value that denotes no character. -/
  | reference
deriving Repr, DecidableEq

/-! ## References -/

/-- The value of a digit in a base of at most sixteen. -/
def digitValue? (base : Nat) (c : Char) : Option Nat :=
  let value :=
    if '0' ≤ c ∧ c ≤ '9' then c.toNat - '0'.toNat
    else if 'a' ≤ c ∧ c ≤ 'f' then c.toNat - 'a'.toNat + 10
    else if 'A' ≤ c ∧ c ≤ 'F' then c.toNat - 'A'.toNat + 10
    else base
  if value < base then some value else none

/-- The number that digits denote. -/
def numberOf? (base : Nat) (digits : List Char) : Option Nat :=
  digits.foldlM (fun n c => (digitValue? base c).map (base * n + ·)) 0

/-- The character with a code point, which is not zero and not a
surrogate. -/
def charOf? (code : Nat) : Option Char :=
  if code ≠ 0 ∧ code.isValidChar then some (Char.ofNat code) else none

/-- **The character that a reference denotes**, from the text between `&`
and `;`: a code point in decimal with at most seven digits or in
hexadecimal with at most six, or one of the five names. -/
def reference? : List Char → Option Char
  | '#' :: 'x' :: digits =>
    if digits.length > 6 then none else (numberOf? 16 digits).bind charOf?
  | '#' :: digits =>
    if digits.length > 7 then none else (numberOf? 10 digits).bind charOf?
  | ['l', 't'] => some '<'
  | ['g', 't'] => some '>'
  | ['a', 'm', 'p'] => some '&'
  | ['a', 'p', 'o', 's'] => some '\x27'
  | ['q', 'u', 'o', 't'] => some '"'
  | _ => none

/-- A text with its references decoded. The reference being read, if any,
is held in reverse. -/
def decodeFrom (reading : Option (List Char)) : List Char → Option (List Char)
  | [] => if reading.isNone then some [] else none
  | c :: rest =>
    match reading with
    | none =>
      if c == '&' then decodeFrom (some []) rest else (decodeFrom none rest).map (c :: ·)
    | some name =>
      if c == '&' then none
      else if c == ';' then
        (reference? name.reverse).bind fun d => (decodeFrom none rest).map (d :: ·)
      else decodeFrom (some (c :: name)) rest

/-- **A text with its references decoded.** -/
def decode? (cs : List Char) : Option (List Char) :=
  decodeFrom none cs

/-! ## Names and values -/

/-- The quoted value behind an `=`, and the rest behind the quote. -/
def quotedValue (cs : List Char) : Except AttributeFault (List Char × List Char) :=
  match cs.dropWhile isTagBlank with
  | [] => .error .noValue
  | quote :: rest =>
    if quote == '"' || quote == '\x27' then
      match rest.dropWhile (· != quote) with
      | [] => .error .unclosed
      | _ :: behind => .ok (rest.takeWhile (· != quote), behind)
    else .error .noValue

theorem quotedValue_length {cs value behind : List Char}
    (h : quotedValue cs = .ok (value, behind)) : behind.length < cs.length := by
  have hcs := (List.dropWhile_suffix isTagBlank (l := cs)).length_le
  unfold quotedValue at h
  split at h
  · simp at h
  next quote rest hdrop =>
    split at h
    · split at h
      · simp at h
      next close rear hrear =>
        have hrest := (List.dropWhile_suffix (· != quote) (l := rest)).length_le
        simp only [Except.ok.injEq, Prod.mk.injEq] at h
        rw [hdrop, List.length_cons] at hcs
        rw [hrear, List.length_cons] at hrest
        rw [← h.2]
        omega
    · simp at h

/-- The text behind the `=` that follows a name. -/
def behindEquals (cs : List Char) : Except AttributeFault (List Char) :=
  match cs.dropWhile isTagBlank with
  | '=' :: rest => .ok rest
  | _ => .error .noEquals

theorem behindEquals_length {cs rest : List Char} (h : behindEquals cs = .ok rest) :
    rest.length < cs.length := by
  have hcs := (List.dropWhile_suffix isTagBlank (l := cs)).length_le
  unfold behindEquals at h
  split at h
  next behind hdrop =>
    rw [hdrop, List.length_cons] at hcs
    simp only [Except.ok.injEq] at h
    rw [← h]
    omega
  · simp at h

/-- The first attribute of a tag: its name, its value and the rest. The
first character of a name may be any. -/
def firstAttribute (cs : List Char) :
    Except AttributeFault (Option (List Char × List Char × List Char)) :=
  match cs.dropWhile isTagBlank with
  | [] => .ok none
  | c :: rest =>
    let inName := fun d : Char => d != '=' && !isTagBlank d
    match behindEquals (rest.dropWhile inName) with
    | .error fault => .error fault
    | .ok behind =>
      match quotedValue behind with
      | .error fault => .error fault
      | .ok (value, behind) => .ok (some (c :: rest.takeWhile inName, value, behind))

theorem firstAttribute_length {cs name value behind : List Char}
    (h : firstAttribute cs = .ok (some (name, value, behind))) : behind.length < cs.length := by
  have hcs := (List.dropWhile_suffix isTagBlank (l := cs)).length_le
  unfold firstAttribute at h
  split at h
  · simp at h
  next c rest hdrop =>
    extract_lets inName at h
    have hrest := (List.dropWhile_suffix inName (l := rest)).length_le
    split at h
    · simp at h
    next afterEquals hequals =>
      split at h
      · simp at h
      next found rear hvalue =>
        have h₁ := behindEquals_length hequals
        have h₂ := quotedValue_length hvalue
        simp only [Except.ok.injEq, Option.some.injEq, Prod.mk.injEq] at h
        rw [hdrop, List.length_cons] at hcs
        rw [← h.2.2]
        omega

/-- The value of an attribute in the text behind a tag's name. -/
def attributeIn (name cs : List Char) : Except AttributeFault (Option (List Char)) :=
  match _h : firstAttribute cs with
  | .error fault => .error fault
  | .ok none => .ok none
  | .ok (some (found, value, behind)) =>
    if found == name then
      match decode? value with
      | none => .error .reference
      | some value => .ok (some value)
    else attributeIn name behind
termination_by cs.length
decreasing_by exact firstAttribute_length _h

/-- **The decoded value of an attribute of a tag**, `none` if the tag has
no such attribute. -/
def Tag.attribute? (tag : Tag) (name : String) : Except AttributeFault (Option String) :=
  (attributeIn name.toList tag.rest).map fun value => value.map String.ofList

end TableMapper.Markup
