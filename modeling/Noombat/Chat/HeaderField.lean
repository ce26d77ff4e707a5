import Noombat.Chat.Message

/-!
# Header fields

A header field is a name, a colon and a body.  A line of the body ends in a line break, after
which white space must follow unless the field ends there; unfolding puts a single space in the
place of both.  A message is its header fields, an empty line and what follows.
-/

namespace Chat

/-- A character that may stand on a line of a body: no control character but a tab. -/
def isFieldChar (c : Char) : Bool :=
  c == '\t' || (' ' ≤ c && c != '\x7f')

/-- White space that may start a line. -/
def isWsp (c : Char) : Bool :=
  c == ' ' || c == '\t'

/-- A printable character other than the colon. -/
def isNameChar (c : Char) : Bool :=
  '!' ≤ c && c ≤ '~' && c != ':'

/-- The body of a header field, with the line break at its end. -/
def isBody : List Char → Bool
  | [] => false
  | ['\r', '\n'] => true
  | '\r' :: '\n' :: w :: cs => isWsp w && isBody cs
  | c :: cs => isFieldChar c && isBody cs

/-- A body with a space for each line break and the white space after it. -/
def unfold : List Char → List Char
  | [] => []
  | ['\r', '\n'] => []
  | '\r' :: '\n' :: _ :: cs => ' ' :: unfold cs
  | c :: cs => c :: unfold cs

structure HeaderField where
  name : List Char
  body : List Char
  nonempty : name ≠ []
  name_chars : ∀ c ∈ name, isNameChar c = true
  body_chars : isBody body = true

namespace HeaderField

def text (field : HeaderField) : List Char :=
  field.name ++ ':' :: field.body

/-- The value of a field, without the spaces after the colon. -/
def value (field : HeaderField) : List Char :=
  (unfold field.body).dropWhile (· == ' ')

end HeaderField

/-- A text is one header field. -/
def IsHeaderField (text : List Char) : Prop :=
  ∃ field : HeaderField, field.text = text

theorem isBody_cons_of_fieldChar {c : Char} (hc : isFieldChar c = true) (cs : List Char) :
  isBody (c :: cs) = isBody cs
  := by
  have hne : c ≠ '\r' := by
    rintro rfl
    cases hc
  rw [isBody]
  · rw [hc, Bool.true_and]
  · intro hcr
    exact absurd hcr hne
  · intro _ _ hcr
    exact absurd hcr hne

theorem unfold_cons_of_fieldChar {c : Char} (hc : isFieldChar c = true) (cs : List Char) :
  unfold (c :: cs) = c :: unfold cs
  := by
  have hne : c ≠ '\r' := by
    rintro rfl
    cases hc
  rw [unfold]
  · intro hcr
    exact absurd hcr hne
  · intro _ _ hcr
    exact absurd hcr hne

theorem isBody_append_crlf {cs : List Char} (h : ∀ c ∈ cs, isFieldChar c = true) :
  isBody (cs ++ crlf) = true
  := by
  induction cs with
  | nil => rfl
  | cons c cs ih =>
      rw [List.cons_append, isBody_cons_of_fieldChar (h c List.mem_cons_self)]
      apply ih
      intro c hc
      apply h c (List.mem_cons_of_mem _ hc)

/-- A body that is more than a line break, from a line break on. -/
theorem isBody_crlf_cons (w : Char) (cs : List Char) :
  isBody ('\r' :: '\n' :: w :: cs) = (isWsp w && isBody cs)
  := by
  rw [isBody]

theorem unfold_crlf_cons (w : Char) (cs : List Char) :
  unfold ('\r' :: '\n' :: w :: cs) = ' ' :: unfold cs
  := by
  rw [unfold]

/-- A text that has the name of a field before its first colon. -/
theorem isHeaderField_iff {name body : List Char} (hne : name ≠ [])
    (hname : ∀ c ∈ name, isNameChar c = true) :
  IsHeaderField (name ++ ':' :: body) ↔ isBody body = true
  := by
  constructor
  · rintro ⟨field, htext⟩
    have hcolon : ∀ cs : List Char, (∀ c ∈ cs, isNameChar c = true) → ∀ rest,
        (cs ++ ':' :: rest).dropWhile (· != ':') = ':' :: rest := by
      intro cs hcs rest
      rw [List.dropWhile_append_of_pos]
      · rfl
      · intro c hc
        have hc := hcs c hc
        simp only [isNameChar, Bool.and_eq_true] at hc
        exact hc.2
    have hbody := congrArg (List.dropWhile (· != ':')) htext
    rw [HeaderField.text, hcolon _ field.name_chars, hcolon _ hname] at hbody
    rw [← (List.cons.inj hbody).2]
    exact field.body_chars
  · intro hbody
    exact ⟨⟨name, body, hne, hname, hbody⟩, rfl⟩

/-! ### Reading fields -/

/-- The body of a field at the start of a text, and what follows it. -/
def takeBody : List Char → Option (List Char × List Char)
  | [] => none
  | ['\r', '\n'] => some (crlf, [])
  | '\r' :: '\n' :: w :: cs =>
      if isWsp w then (takeBody cs).map fun (body, rest) => ('\r' :: '\n' :: w :: body, rest)
      else some (crlf, w :: cs)
  | c :: cs => (takeBody cs).map fun (body, rest) => (c :: body, rest)

/-- The names and the bodies of the fields at the start of a message, of which there are less than
the number given. -/
def readFields : Nat → List Char → Option (List (List Char × List Char))
  | 0, _ => none
  | n + 1, cs =>
      if crlf.isPrefixOf cs then some []
      else
        match cs.dropWhile (· != ':') with
        | [] => none
        | _ :: after => do
            let (body, rest) ← takeBody after
            let fields ← readFields n rest
            return (cs.takeWhile (· != ':'), body) :: fields

/-- A body ends where no white space follows. -/
theorem takeBody_append {body rest : List Char} (h : isBody body = true)
    (hrest : ∀ w ∈ rest.head?, isWsp w = false) :
  takeBody (body ++ rest) = some (body, rest)
  := by
  fun_induction isBody body with
  | case1 => cases h
  | case2 =>
      cases rest with
      | nil => rfl
      | cons w rest =>
          change takeBody ('\r' :: '\n' :: w :: rest) = _
          rw [takeBody, hrest w rfl]
          rfl
  | case3 w cs ih =>
      obtain ⟨hw, hcs⟩ := Bool.and_eq_true _ _ ▸ h
      change takeBody ('\r' :: '\n' :: w :: (cs ++ rest)) = _
      rw [takeBody, if_pos hw, ih hcs]
      rfl
  | case4 c cs hend hfold ih =>
      obtain ⟨hc, hcs⟩ := Bool.and_eq_true _ _ ▸ h
      have hne : c ≠ '\r' := by
        rintro rfl
        cases hc
      rw [List.cons_append, takeBody, ih hcs]
      · rfl
      · intro hcr
        exact absurd hcr hne
      · intro _ _ hcr
        exact absurd hcr hne

theorem HeaderField.takeWhile_text (field : HeaderField) (rest : List Char) :
  (field.text ++ rest).takeWhile (· != ':') = field.name ∧
    (field.text ++ rest).dropWhile (· != ':') = ':' :: (field.body ++ rest)
  := by
  have hname : ∀ c ∈ field.name, (c != ':') = true := by
    intro c hc
    have hc := field.name_chars c hc
    simp only [isNameChar, Bool.and_eq_true] at hc
    exact hc.2
  rw [text, List.append_assoc, List.cons_append]
  constructor
  · rw [List.takeWhile_append_of_pos hname, List.takeWhile_cons_of_neg (by decide),
      List.append_nil]
  · rw [List.dropWhile_append_of_pos hname, List.dropWhile_cons_of_neg (by decide)]

/-- What follows a field starts with no white space, where it is another one or the empty line. -/
theorem not_wsp_of_fields (fields : List HeaderField) (rest : List Char) :
  ∀ w ∈ (fields.flatMap (·.text) ++ crlf ++ rest).head?, isWsp w = false
  := by
  intro w hw
  cases fields with
  | nil =>
      obtain rfl := Option.some.inj hw
      rfl
  | cons field fields =>
      obtain ⟨c, name, hname⟩ := List.exists_cons_of_ne_nil field.nonempty
      have hc := field.name_chars c (by rw [hname]; exact List.mem_cons_self)
      rw [List.flatMap_cons, HeaderField.text, hname] at hw
      obtain rfl := Option.some.inj hw
      rw [isWsp, Bool.or_eq_false_iff, beq_eq_false_iff_ne, beq_eq_false_iff_ne]
      constructor
      · rintro rfl
        cases hc
      · rintro rfl
        cases hc

/-- The fields of a message are read as they are written, and no others. -/
theorem readFields_flatMap (fields : List HeaderField) (rest : List Char) {n : Nat}
    (hn : fields.length < n) :
  readFields n (fields.flatMap (·.text) ++ crlf ++ rest) =
    some (fields.map fun field => (field.name, field.body))
  := by
  induction fields generalizing n with
  | nil =>
      cases n with
      | zero => cases hn
      | succ n => rfl
  | cons field fields ih =>
      cases n with
      | zero => cases hn
      | succ n =>
          obtain ⟨htake, hdrop⟩ :=
            field.takeWhile_text (fields.flatMap (·.text) ++ crlf ++ rest)
          have hstart : crlf.isPrefixOf
              (field.text ++ (fields.flatMap (·.text) ++ crlf ++ rest)) = false := by
            obtain ⟨c, name, hname⟩ := List.exists_cons_of_ne_nil field.nonempty
            have hc := field.name_chars c (by rw [hname]; exact List.mem_cons_self)
            rw [HeaderField.text, hname, crlf, List.cons_append, List.cons_append,
              List.isPrefixOf_cons_cons]
            have hne : ('\r' == c) = false := by
              rw [beq_eq_false_iff_ne]
              rintro rfl
              cases hc
            rw [hne, Bool.false_and]
          rw [List.flatMap_cons, List.append_assoc, List.append_assoc, ← List.append_assoc
            (fields.flatMap _), readFields, hstart, if_neg Bool.false_ne_true, hdrop, htake]
          simp only [takeBody_append field.body_chars (not_wsp_of_fields fields rest),
            Option.bind_eq_bind, Option.bind_some, ih (Nat.lt_of_succ_lt_succ hn)]
          rfl

/-! ### What the mail parser does -/

/-- The parser reads each header field of a message that the relay composes as its name and its
value. -/
def ParsesFields (lib : MailLibrary) : Prop :=
  ∀ (fields : List HeaderField) (boundary : String) (ciphertext : Bytes),
    (∀ c ∈ boundary.toList, isNameChar c = true) → ∃ mail : ParsedMail,
      lib.parseMail (Text.asBytes (String.ofList (fields.flatMap (·.text) ++ crlf ++
          (messageBody boundary (wrap (lib.encode ciphertext))).toList))) = .ok mail ∧
        mail.headers =
          fields.map fun field => (String.ofList field.name, String.ofList field.value)

end Chat
