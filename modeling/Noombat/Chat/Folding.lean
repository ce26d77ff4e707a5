import Mathlib.Data.List.Find
import Mathlib.Data.List.ReduceOption
import Noombat.Chat.HeaderField
import Noombat.Chat.HeaderValue

/-!
# Folding

The relay breaks the value of a header into lines at fixed numbers of bytes, whatever stands
there, and the recipient reads a space in each of these places.  What the recipient reads is what
the sender has written just when the value has no control character but in line breaks of its
own, no break falls into a character, and none falls into a name or a value that matters.
-/

namespace Chat

/-! ### Where a value is broken -/

/-- The value with its line breaks, as `none`, where the first line has so many bytes left; there
is none if a break falls into a character. -/
def cuts : Nat → List Char → Option (List (Option Char))
  | _, [] => some []
  | 0, c :: cs => (cuts (LINE_WIDTH - 1 - c.utf8Size) cs).map fun ts => none :: some c :: ts
  | n + 1, c :: cs =>
      if c.utf8Size ≤ n + 1 then
        (cuts (n + 1 - c.utf8Size) cs).map fun ts => some c :: ts
      else none

/-- A value with its line breaks, as it is written. -/
def render (ts : List (Option Char)) : List Char :=
  ts.flatMap fun
    | none => ['\r', '\n', ' ']
    | some c => [c]

theorem utf8Size_le (c : Char) :
  c.utf8Size ≤ LINE_WIDTH - 1
  := by
  have := c.utf8Size_le_four
  rw [LINE_WIDTH]
  omega

theorem cuts_zero {cs : List Char} (h : cs ≠ []) :
  cuts 0 cs = (cuts (LINE_WIDTH - 1) cs).map fun ts => none :: ts
  := by
  cases cs with
  | nil => exact absurd rfl h
  | cons c cs =>
      have hle : c.utf8Size ≤ 74 + 1 := utf8Size_le c
      rw [cuts, LINE_WIDTH, Nat.succ_sub_one, cuts, if_pos hle, Option.map_map]
      rfl

theorem cuts_of_le {n : Nat} {cs : List Char} (h : byteLength cs ≤ n) :
  cuts n cs = some (cs.map some)
  := by
  induction cs generalizing n with
  | nil => cases n <;> rfl
  | cons c cs ih =>
      have hpos := c.utf8Size_pos
      rw [byteLength, List.map_cons, List.sum_cons] at h
      cases n with
      | zero => omega
      | succ n =>
          rw [cuts, if_pos (by omega), ih (by rw [byteLength]; omega)]
          rfl

theorem cuts_of_lt {n : Nat} {cs : List Char} (h : n < byteLength cs) :
  cuts n cs = (splitAtByte n cs).bind fun (line, rest) =>
    (cuts 0 rest).map fun ts => line.map some ++ ts
  := by
  induction cs generalizing n with
  | nil => cases h
  | cons c cs ih =>
      cases n with
      | zero =>
          rw [splitAtByte, Option.bind_some]
          simp only [List.map_nil, List.nil_append, Option.map_id']
      | succ n =>
          rw [byteLength, List.map_cons, List.sum_cons] at h
          rw [cuts, splitAtByte]
          by_cases hle : c.utf8Size ≤ n + 1
          · rw [if_pos hle, if_pos hle, ih (by rw [byteLength]; omega)]
            cases splitAtByte (n + 1 - c.utf8Size) cs with
            | none => rfl
            | some parts => simp [Option.map_map, Function.comp_def]
          · rw [if_neg hle, if_neg hle]
            rfl

theorem splitAtByte_length {n : Nat} {cs line rest : List Char}
    (h : splitAtByte n cs = some (line, rest)) :
  cs = line ++ rest ∧ byteLength line = n
  := by
  induction cs generalizing n line with
  | nil =>
      cases n with
      | zero =>
          obtain ⟨rfl, rfl⟩ := Prod.mk.inj (Option.some.inj h)
          exact ⟨rfl, rfl⟩
      | succ n => cases h
  | cons c cs ih =>
      cases n with
      | zero =>
          obtain ⟨rfl, rfl⟩ := Prod.mk.inj (Option.some.inj h)
          exact ⟨rfl, rfl⟩
      | succ n =>
          rw [splitAtByte] at h
          split at h
          · next hle =>
              obtain ⟨⟨line', rest'⟩, hsplit, heq⟩ := Option.map_eq_some_iff.mp h
              obtain ⟨rfl, rfl⟩ := Prod.mk.inj heq
              obtain ⟨rfl, hlength⟩ := ih hsplit
              constructor
              · rfl
              · rw [byteLength] at hlength
                rw [byteLength, List.map_cons, List.sum_cons, hlength]
                omega
          · cases h

theorem splitAtByte_all (cs : List Char) :
  splitAtByte (byteLength cs) cs = some (cs, [])
  := by
  induction cs with
  | nil => rfl
  | cons c cs ih =>
      have hpos := c.utf8Size_pos
      obtain ⟨n, hn⟩ : ∃ n, byteLength (c :: cs) = n + 1 := by
        use byteLength (c :: cs) - 1
        rw [byteLength, List.map_cons, List.sum_cons]
        omega
      have hrest : n + 1 - c.utf8Size = byteLength cs := by
        rw [← hn, byteLength, List.map_cons, List.sum_cons, byteLength]
        omega
      have hle : c.utf8Size ≤ n + 1 := by
        rw [← hn, byteLength, List.map_cons, List.sum_cons]
        omega
      rw [hn, splitAtByte, if_pos hle, hrest, ih]
      rfl

theorem render_append (ts ts' : List (Option Char)) :
  render (ts ++ ts') = render ts ++ render ts'
  := List.flatMap_append

@[simp]
theorem render_some_cons (c : Char) (ts : List (Option Char)) :
  render (some c :: ts) = c :: render ts
  := rfl

@[simp]
theorem render_map_some (cs : List Char) :
  render (cs.map some) = cs
  := by
  induction cs with
  | nil => rfl
  | cons c cs ih => rw [List.map_cons, render_some_cons, ih]

theorem render_none_cons (ts : List (Option Char)) :
  render (none :: ts) = crlf ++ ' ' :: render ts
  := rfl

/-- The lines of what is left of a value are what is written of it after a line break. -/
theorem continuationLines_eq {n : Nat} {cs : List Char} (h : cs.length ≤ n) :
  (continuationLines n cs).map (crlf ++ ·) = (cuts 0 cs).map fun ts => render ts ++ crlf
  := by
  induction n generalizing cs with
  | zero =>
      obtain rfl := List.length_eq_zero_iff.mp (Nat.le_zero.mp h)
      rfl
  | succ n ih =>
      cases cs with
      | nil => rfl
      | cons c cs =>
          rw [continuationLines, cuts_zero (List.cons_ne_nil c cs)]
          rcases Nat.lt_or_ge (LINE_WIDTH - 1) (byteLength (c :: cs)) with hlt | hle
          · rw [Nat.min_eq_left (Nat.le_of_lt hlt), cuts_of_lt hlt]
            cases hsplit : splitAtByte (LINE_WIDTH - 1) (c :: cs) with
            | none => rfl
            | some parts =>
                obtain ⟨line, rest⟩ := parts
                obtain ⟨happend, hbytes⟩ := splitAtByte_length hsplit
                have hne : line ≠ [] := by
                  rintro rfl
                  cases hbytes
                have hlength : rest.length ≤ n := by
                  have hall := congrArg List.length happend
                  have hline := List.length_pos_of_ne_nil hne
                  rw [List.length_append] at hall
                  omega
                have hrest := congrArg
                  (Option.map fun lines => crlf ++ ' ' :: (line ++ lines)) (ih hlength)
                rw [Option.map_map, Option.map_map] at hrest
                simpa [Option.map_eq_bind, Option.bind_assoc, Function.comp_def, render_none_cons,
                  render_append] using hrest
          · have hdone : continuationLines n [] = some [] := by cases n <;> rfl
            rw [Nat.min_eq_right hle, splitAtByte_all, cuts_of_le hle]
            simp [hdone, render_none_cons]

/-- What the relay writes is the value with its line breaks. -/
theorem foldHeaderValue_eq (name value : String) :
  foldHeaderValue name value =
    (cuts (LINE_WIDTH - byteLength (name.toList ++ [':', ' '])) value.toList).map fun ts =>
      name.toList ++ ':' :: ' ' :: (render ts ++ crlf)
  := by
  rw [foldHeaderValue]
  by_cases hle : byteLength value.toList ≤ LINE_WIDTH - byteLength (name.toList ++ [':', ' '])
  · rw [if_pos hle, cuts_of_le hle]
    simp
  · rw [if_neg hle, cuts_of_lt (Nat.lt_of_not_le hle)]
    cases hsplit : splitAtByte (LINE_WIDTH - byteLength (name.toList ++ [':', ' ']))
        value.toList with
    | none => simp
    | some parts =>
        obtain ⟨line, rest⟩ := parts
        have hlength : rest.length ≤ value.toList.length := by
          rw [(splitAtByte_length hsplit).1, List.length_append]
          apply Nat.le_add_left
        have hrest := continuationLines_eq hlength
        have hrest := congrArg (Option.map fun lines => name.toList ++ ':' :: ' ' :: (line ++ lines))
          (continuationLines_eq hlength)
        rw [Option.map_map, Option.map_map] at hrest
        simpa [Option.map_eq_bind, Option.bind_assoc, Function.comp_def, render_append] using hrest

/-! ### What is read of it -/

/-- A piece of a value: a character, a break of the relay, or a line break of the value's own
with the white space after it. -/
inductive Piece where
  | char (c : Char)
  | cut
  | fold (tab : Bool)
  deriving DecidableEq

namespace Piece

/-- What the sender has written. -/
def written : Piece → List Char
  | char c => [c]
  | cut => []
  | fold tab => ['\r', '\n', if tab then '\t' else ' ']

/-- What the recipient reads. -/
def read : Piece → List Char
  | char c => [c]
  | cut => [' ']
  | fold _ => [' ']

def isChar : Piece → Bool
  | char _ => true
  | _ => false

def isCut : Piece → Bool
  | cut => true
  | _ => false

def isFold : Piece → Bool
  | fold _ => true
  | _ => false

end Piece

/-- The pieces of a value, which has no other control characters than tabs. -/
def pieces : List (Option Char) → Option (List Piece)
  | [] => some []
  | none :: ts => (pieces ts).map fun ps => .cut :: ps
  | some '\r' :: some '\n' :: some w :: ts =>
      if isWsp w then (pieces ts).map fun ps => .fold (w == '\t') :: ps else none
  | some c :: ts => if isFieldChar c then (pieces ts).map fun ps => .char c :: ps else none

/-- A carriage return that no line feed follows does not stand in a body. -/
theorem isBody_cr {cs : List Char} (h : cs.head? ≠ some '\n') :
  isBody ('\r' :: cs) = false
  := by
  rw [isBody]
  · rfl
  · rintro _ rfl
    exact h rfl
  · rintro w cs' _ rfl
    exact h rfl

/-- A control character that starts no line break does not stand in a body. -/
theorem isBody_cons_of_not {c : Char} (hc : isFieldChar c ≠ true) (hne : c ≠ '\r')
    (cs : List Char) :
  isBody (c :: cs) = false
  := by
  rw [isBody, Bool.eq_false_iff.mpr hc, Bool.false_and]
  · intro hcr
    exact absurd hcr hne
  · intro _ _ hcr
    exact absurd hcr hne

/-- What is written of a value is a body just when the value has pieces. -/
theorem isBody_render (ts : List (Option Char)) :
  isBody (render ts ++ crlf) = (pieces ts).isSome
  := by
  fun_induction pieces ts with
  | case1 => rfl
  | case2 ts ih =>
      change isBody ('\r' :: '\n' :: ' ' :: (render ts ++ crlf)) = _
      rw [isBody_crlf_cons, ih, Option.isSome_map]
      rfl
  | case3 w ts hw ih =>
      change isBody ('\r' :: '\n' :: w :: (render ts ++ crlf)) = _
      rw [isBody_crlf_cons, hw, ih, Option.isSome_map]
      rfl
  | case4 w ts hw =>
      change isBody ('\r' :: '\n' :: w :: (render ts ++ crlf)) = _
      rw [isBody_crlf_cons, Bool.eq_false_iff.mpr hw]
      rfl
  | case5 c ts hnot hc ih =>
      rw [render_some_cons, List.cons_append, isBody_cons_of_fieldChar hc, ih, Option.isSome_map]
  | case6 c ts hnot hc =>
      rw [render_some_cons, List.cons_append, Option.isSome_none]
      by_cases hcr : c = '\r'
      · subst hcr
        -- no line feed and white space follow in the value
        cases ts with
        | nil => rfl
        | cons t ts =>
            cases t with
            | none =>
                apply isBody_cr
                simp [render_none_cons, crlf]
            | some d =>
                by_cases hd : d = '\n'
                · subst hd
                  cases ts with
                  | nil => rfl
                  | cons t ts =>
                      cases t with
                      | none =>
                          change isBody ('\r' :: '\n' :: '\r' :: _) = _
                          rw [isBody_crlf_cons]
                          rfl
                      | some w => exact absurd rfl (hnot w ts rfl)
                · apply isBody_cr
                  simp [hd]
      · apply isBody_cons_of_not hc hcr

theorem unfold_render {ts : List (Option Char)} {ps : List Piece} (h : pieces ts = some ps) :
  unfold (render ts ++ crlf) = ps.flatMap Piece.read
  := by
  fun_induction pieces ts generalizing ps with
  | case1 =>
      cases h
      rfl
  | case2 ts ih =>
      obtain ⟨ps, hps, rfl⟩ := Option.map_eq_some_iff.mp h
      change unfold ('\r' :: '\n' :: ' ' :: (render ts ++ crlf)) = _
      rw [unfold_crlf_cons, ih hps]
      rfl
  | case3 w ts hw ih =>
      obtain ⟨ps, hps, rfl⟩ := Option.map_eq_some_iff.mp h
      change unfold ('\r' :: '\n' :: w :: (render ts ++ crlf)) = _
      rw [unfold_crlf_cons, ih hps]
      rfl
  | case4 w ts hw => cases h
  | case5 c ts hnot hc ih =>
      obtain ⟨ps, hps, rfl⟩ := Option.map_eq_some_iff.mp h
      rw [render_some_cons, List.cons_append, unfold_cons_of_fieldChar hc, ih hps]
      rfl
  | case6 c ts hnot hc => cases h

theorem written_pieces {ts : List (Option Char)} {ps : List Piece} (h : pieces ts = some ps) :
  ps.flatMap Piece.written = ts.reduceOption
  := by
  fun_induction pieces ts generalizing ps with
  | case1 =>
      cases h
      rfl
  | case2 ts ih =>
      obtain ⟨ps, hps, rfl⟩ := Option.map_eq_some_iff.mp h
      rw [List.reduceOption_cons_of_none, ← ih hps]
      rfl
  | case3 w ts hw ih =>
      obtain ⟨ps, hps, rfl⟩ := Option.map_eq_some_iff.mp h
      rw [List.reduceOption_cons_of_some, List.reduceOption_cons_of_some,
        List.reduceOption_cons_of_some, ← ih hps, List.flatMap_cons, Piece.written]
      have hwsp : w = if (w == '\t') = true then '\t' else ' ' := by
        rcases Bool.or_eq_true _ _ ▸ hw with hspace | htab
        · rw [beq_iff_eq.mp hspace]
          rfl
        · rw [beq_iff_eq.mp htab]
          rfl
      rw [← hwsp]
      rfl
  | case4 w ts hw => cases h
  | case5 c ts hnot hc ih =>
      obtain ⟨ps, hps, rfl⟩ := Option.map_eq_some_iff.mp h
      rw [List.reduceOption_cons_of_some, ← ih hps]
      rfl
  | case6 c ts hnot hc => cases h

theorem reduceOption_cuts {n : Nat} {cs : List Char} {ts : List (Option Char)}
    (h : cuts n cs = some ts) :
  ts.reduceOption = cs
  := by
  fun_induction cuts n cs generalizing ts with
  | case1 n =>
      cases h
      rfl
  | case2 c cs ih =>
      obtain ⟨ts, hts, rfl⟩ := Option.map_eq_some_iff.mp h
      rw [List.reduceOption_cons_of_none, List.reduceOption_cons_of_some, ih hts]
  | case3 n c cs hle ih =>
      obtain ⟨ts, hts, rfl⟩ := Option.map_eq_some_iff.mp h
      rw [List.reduceOption_cons_of_some, ih hts]
  | case4 n c cs hle => cases h

/-! ### Attributes of pieces -/

namespace Piece

def isBlank : Piece → Bool
  | char c => isJsWhitespace c
  | _ => true

def isOf (c : Char) : Piece → Bool
  | char d => d == c
  | _ => false

theorem renders_written :
  Attributes.Renders isBlank isJsWhitespace written
  := by
  constructor
  · intro p hp c hc
    cases p with
    | char d =>
        rw [List.mem_singleton.mp hc]
        exact hp
    | cut => cases hc
    | fold tab =>
        revert c
        apply List.all_eq_true.mp
        cases tab <;> decide
  · intro p hp
    cases p with
    | char d => exact ⟨d, rfl, hp⟩
    | _ => cases hp

theorem renders_read :
  Attributes.Renders isBlank isJsWhitespace read
  := by
  constructor
  · intro p hp c hc
    cases p with
    | char d =>
        rw [List.mem_singleton.mp hc]
        exact hp
    | _ =>
        rw [List.mem_singleton.mp hc]
        rfl
  · intro p hp
    cases p with
    | char d => exact ⟨d, rfl, hp⟩
    | _ => cases hp

theorem marks_written {c : Char} (hc : isJsWhitespace c = false) :
  Attributes.Marks (isOf c) (· == c) written
  := by
  constructor
  · intro p hp
    cases p with
    | char d => exact ⟨d, rfl, hp⟩
    | _ => cases hp
  · intro p hp d hd
    cases p with
    | char d' =>
        rw [List.mem_singleton.mp hd]
        exact hp
    | cut => cases hd
    | fold tab =>
        have hblank := renders_written.blanks (fold tab) rfl d hd
        rw [beq_eq_false_iff_ne]
        rintro rfl
        rw [hc] at hblank
        cases hblank

theorem marks_read {c : Char} (hc : isJsWhitespace c = false) :
  Attributes.Marks (isOf c) (· == c) read
  := by
  constructor
  · intro p hp
    cases p with
    | char d => exact ⟨d, rfl, hp⟩
    | _ => cases hp
  · intro p hp d hd
    cases p with
    | char d' =>
        rw [List.mem_singleton.mp hd]
        exact hp
    | _ =>
        have hspace : d = ' ' := List.mem_singleton.mp hd
        rw [beq_eq_false_iff_ne, hspace]
        rintro rfl
        cases hc

end Piece

/-- The attributes of a value in pieces. -/
def pieceAttributes (ps : List Piece) : List (List Piece × List Piece) :=
  Attributes.attributes Piece.isBlank (Piece.isOf ';') (Piece.isOf '=') ps

theorem attributes_written (ps : List Piece) :
  attributes (ps.flatMap Piece.written) =
    (pieceAttributes ps).map fun (key, value) =>
      (key.flatMap Piece.written, value.flatMap Piece.written)
  := Attributes.attributes_flatMap Piece.renders_written (Piece.marks_written (by decide))
    (Piece.marks_written (by decide)) ps

theorem attributes_read (ps : List Piece) :
  attributes (ps.flatMap Piece.read) =
    (pieceAttributes ps).map fun (key, value) =>
      (key.flatMap Piece.read, value.flatMap Piece.read)
  := Attributes.attributes_flatMap Piece.renders_read (Piece.marks_read (by decide))
    (Piece.marks_read (by decide)) ps

/-- Nothing but characters. -/
def Intact (ps : List Piece) : Prop :=
  ∀ p ∈ ps, p.isChar = true

instance (ps : List Piece) : Decidable (Intact ps) :=
  inferInstanceAs (Decidable (∀ p ∈ ps, _))

theorem Intact.read_eq {ps : List Piece} (h : Intact ps) :
  ps.flatMap Piece.read = ps.flatMap Piece.written
  := by
  apply List.flatMap_congr
  intro p hp
  have hp := h p hp
  cases p with
  | char c => rfl
  | _ => cases hp

/-- What is read of anything else has a space. -/
theorem space_mem_read {ps : List Piece} (h : ¬ Intact ps) :
  ' ' ∈ ps.flatMap Piece.read
  := by
  obtain ⟨p, hp, hnot⟩ : ∃ p ∈ ps, ¬ p.isChar = true := by simpa [Intact] using h
  apply List.mem_flatMap.mpr ⟨p, hp, _⟩
  cases p with
  | char c => exact absurd rfl hnot
  | _ => exact List.mem_singleton_self _

theorem Piece.count_piece (p : Piece) :
  p.written.count '\r' = p.read.count '\r' + (if p.isFold = true then 1 else 0) ∧
    p.read.length + 2 * (if p.isFold = true then 1 else 0) =
      p.written.length + if p.isCut = true then 1 else 0
  := by
  cases p with
  | char c => exact ⟨rfl, rfl⟩
  | cut => exact ⟨rfl, rfl⟩
  | fold tab => cases tab <;> exact ⟨rfl, rfl⟩

/-- The breaks of the value's own, and those of the relay, by what they add and remove. -/
theorem count_pieces (ps : List Piece) :
  (ps.flatMap Piece.written).count '\r' =
      (ps.flatMap Piece.read).count '\r' + ps.countP Piece.isFold ∧
    (ps.flatMap Piece.read).length + 2 * ps.countP Piece.isFold =
      (ps.flatMap Piece.written).length + ps.countP Piece.isCut
  := by
  induction ps with
  | nil => exact ⟨rfl, rfl⟩
  | cons p ps ih =>
      obtain ⟨hcr, hlength⟩ := ih
      obtain ⟨hcr', hlength'⟩ := p.count_piece
      simp only [List.flatMap_cons, List.count_append, List.length_append, List.countP_cons]
      constructor
      · omega
      · omega

/-- What is read is what was written only if there is nothing but characters. -/
theorem intact_of_read_eq {ps : List Piece}
    (h : ps.flatMap Piece.read = ps.flatMap Piece.written) :
  Intact ps
  := by
  obtain ⟨hcr, hlength⟩ := count_pieces ps
  rw [h] at hcr hlength
  have hfolds : ps.countP Piece.isFold = 0 := by omega
  have hcuts : ps.countP Piece.isCut = 0 := by omega
  intro p hp
  cases p with
  | char c => rfl
  | cut => exact absurd rfl (List.countP_eq_zero.mp hcuts _ hp)
  | fold tab => exact absurd rfl (List.countP_eq_zero.mp hfolds _ hp)

/-- Key data is read the same, whatever white space there is in it. -/
theorem filter_read (ps : List Piece) :
  (ps.flatMap Piece.read).filter (!isJsWhitespace ·) =
    (ps.flatMap Piece.written).filter (!isJsWhitespace ·)
  := by
  rw [List.filter_flatMap, List.filter_flatMap]
  apply List.flatMap_congr
  intro p _
  cases p with
  | char c => rfl
  | cut => rfl
  | fold tab => cases tab <;> rfl

/-! ### What has to be spared -/

/-- Folding the case of a string keeps the white space in it, and an underscore at its start;
and it adds no underscore there. -/
structure Lowers (toLowerCase : String → String) : Prop where
  whitespace : ∀ s : String, ∀ c ∈ s.toList, isJsWhitespace c = true → c ∈ (toLowerCase s).toList
  underscore : ∀ s, Text.startsWith (toLowerCase s) "_" = Text.startsWith s "_"

variable (toLowerCase : String → String)

/-- The name of an attribute, as it was written. -/
def nameOf (key : List Piece) : String :=
  toLowerCase (String.ofList (key.flatMap Piece.written))

/-- The value of the last attribute with a name. -/
def lastPieces (key : String) (ps : List Piece) : Option (List Piece) :=
  ((pieceAttributes ps).reverse.find? fun a => nameOf toLowerCase a.1 == key).map (·.2)

/-- No break falls into a name that is known, into the address, or into every statement of the
preference for encryption. -/
structure Spared (ps : List Piece) : Prop where
  keys : ∀ a ∈ pieceAttributes ps, nameOf toLowerCase a.1 ∈ knownAttributes → Intact a.1
  addr : ∀ value ∈ lastPieces toLowerCase "addr" ps, Intact value
  prefer : (∃ a ∈ pieceAttributes ps, nameOf toLowerCase a.1 = "prefer-encrypt" ∧
      nameOf toLowerCase a.2 = "mutual") →
    ∃ a ∈ pieceAttributes ps, nameOf toLowerCase a.1 = "prefer-encrypt" ∧
      nameOf toLowerCase a.2 = "mutual" ∧ Intact a.2

/-- No attribute makes the header void, and it advertises a key. -/
def Usable (headerValue : List Char) : Prop :=
  Understood toLowerCase (attributes headerValue) ∧
    (keyOf (lastOf toLowerCase "keydata" (attributes headerValue))).isSome = true

section Reading

variable {toLowerCase} (hlower : Lowers toLowerCase) {ps : List Piece}

include hlower

/-- A word without a space is read only where there is nothing but characters. -/
theorem intact_of_lower_read {word : String} (hword : ' ' ∉ word.toList)
    (h : toLowerCase (String.ofList (ps.flatMap Piece.read)) = word) :
  Intact ps
  := by
  by_contra hnot
  apply hword
  rw [← h]
  apply hlower.whitespace _ ' ' _ rfl
  rw [String.toList_ofList]
  exact space_mem_read hnot

theorem nameOf_eq_of_read {word : String} (hword : ' ' ∉ word.toList)
    (h : toLowerCase (String.ofList (ps.flatMap Piece.read)) = word) :
  nameOf toLowerCase ps = word
  := by
  rw [nameOf, ← (intact_of_lower_read hlower hword h).read_eq, h]

omit hlower in
theorem space_not_mem_known {word : String} (h : word ∈ knownAttributes) :
  ' ' ∉ word.toList
  := by
  revert word
  decide

omit hlower in
theorem not_underscore_of_known {word : String} (h : word ∈ knownAttributes) :
  Text.startsWith word "_" = false
  := by
  revert word
  decide

/-- A name starts with an underscore in what is read if it does in what was written. -/
theorem startsWith_read {a : List Piece × List Piece} (ha : a ∈ pieceAttributes ps) :
  Text.startsWith (toLowerCase (String.ofList (a.1.flatMap Piece.read))) "_" =
    Text.startsWith (nameOf toLowerCase a.1) "_"
  := by
  rw [nameOf, hlower.underscore, hlower.underscore]
  obtain ⟨key, hkey⟩ := Attributes.key_trimmed ha
  rw [hkey]
  cases htrim : Attributes.trim Piece.isBlank key with
  | nil => rfl
  | cons p ps =>
      have hp := Attributes.head_trim htrim
      cases p with
      | char c => simp [Text.startsWith, Piece.read, Piece.written, List.isPrefixOf]
      | _ => cases hp

/-- If what is read is understood, then no break falls into a name that is known. -/
theorem intact_of_understood_read
    (h : Understood toLowerCase (attributes (ps.flatMap Piece.read))) :
  ∀ a ∈ pieceAttributes ps, nameOf toLowerCase a.1 ∈ knownAttributes → Intact a.1
  := by
  intro a ha hknown
  rw [attributes_read] at h
  rcases h _ (List.mem_map_of_mem ha) with hread | hunderscore
  · exact intact_of_lower_read hlower (space_not_mem_known hread) rfl
  · rw [startsWith_read hlower ha] at hunderscore
    rw [not_underscore_of_known hknown] at hunderscore
    cases hunderscore

/-- What is read is understood if what was written is, and no break falls into a name that is
known. -/
theorem understood_read_iff :
  Understood toLowerCase (attributes (ps.flatMap Piece.read)) ↔
    Understood toLowerCase (attributes (ps.flatMap Piece.written)) ∧
      ∀ a ∈ pieceAttributes ps, nameOf toLowerCase a.1 ∈ knownAttributes → Intact a.1
  := by
  constructor
  · intro h
    refine ⟨?_, intact_of_understood_read hlower h⟩
    rw [attributes_read] at h
    rw [attributes_written]
    intro b hb
    obtain ⟨a, ha, rfl⟩ := List.mem_map.mp hb
    rcases h _ (List.mem_map_of_mem ha) with hread | hunderscore
    · left
      have hname := nameOf_eq_of_read hlower (space_not_mem_known hread) rfl
      rw [nameOf] at hname
      rw [hname]
      exact hread
    · right
      rw [startsWith_read hlower ha] at hunderscore
      exact hunderscore
  · rintro ⟨h, hkeys⟩
    rw [attributes_written] at h
    rw [attributes_read]
    intro b hb
    obtain ⟨a, ha, rfl⟩ := List.mem_map.mp hb
    rcases h _ (List.mem_map_of_mem ha) with hwritten | hunderscore
    · left
      change toLowerCase (String.ofList (a.1.flatMap Piece.read)) ∈ knownAttributes
      rw [(hkeys a ha hwritten).read_eq]
      exact hwritten
    · right
      exact (startsWith_read hlower ha).trans hunderscore

omit hlower in
theorem lastOf_written (key : String) :
  lastOf toLowerCase key (attributes (ps.flatMap Piece.written)) =
    (lastPieces toLowerCase key ps).map (·.flatMap Piece.written)
  := by
  rw [attributes_written, lastOf, ← List.map_reverse, List.find?_map, lastPieces, Option.map_map,
    Option.map_map]
  rfl

/-- The last attribute with a name that is known is read where it was written. -/
theorem lastOf_read {key : String} (hkey : key ∈ knownAttributes)
    (hkeys : ∀ a ∈ pieceAttributes ps, nameOf toLowerCase a.1 ∈ knownAttributes → Intact a.1) :
  lastOf toLowerCase key (attributes (ps.flatMap Piece.read)) =
    (lastPieces toLowerCase key ps).map (·.flatMap Piece.read)
  := by
  have hsame : ∀ a ∈ (pieceAttributes ps).reverse,
      (toLowerCase (String.ofList (a.1.flatMap Piece.read)) == key) =
        (nameOf toLowerCase a.1 == key) := by
    intro a ha
    have ha := List.mem_reverse.mp ha
    rw [Bool.eq_iff_iff, beq_iff_eq, beq_iff_eq]
    constructor
    · exact nameOf_eq_of_read hlower (space_not_mem_known hkey)
    · intro hname
      rw [(hkeys a ha (by rw [hname]; exact hkey)).read_eq]
      exact hname
  rw [attributes_read, lastOf, ← List.map_reverse, List.find?_map, lastPieces, Option.map_map,
    Option.map_map]
  rw [← List.find?_congr hsame]
  rfl

omit hlower in
/-- What key a value holds depends on nothing but the characters that are no white space. -/
theorem keyOf_some_congr {value value' : List Char}
    (h : value.filter (!isJsWhitespace ·) = value'.filter (!isJsWhitespace ·)) :
  keyOf (some value) = keyOf (some value')
  := by
  have hkey : ∀ value : List Char, keyOf (some value) =
      (atob (value.filter (!isJsWhitespace ·))).bind fun publicKey =>
        if h : publicKey ≠ [] then some ⟨publicKey, h⟩ else none := by
    intro value
    cases value with
    | nil => rfl
    | cons c value =>
        rw [keyOf, if_neg (List.cons_ne_nil c value)]
        cases atob ((c :: value).filter (!isJsWhitespace ·)) with
        | none => rfl
        | some publicKey => rfl
  rw [hkey, hkey, h]

/-- The preference for encryption is read where it was written and nothing falls into it. -/
theorem prefersMutual_read_iff
    (hkeys : ∀ a ∈ pieceAttributes ps, nameOf toLowerCase a.1 ∈ knownAttributes → Intact a.1) :
  PrefersMutual toLowerCase (attributes (ps.flatMap Piece.read)) ↔
    ∃ a ∈ pieceAttributes ps, nameOf toLowerCase a.1 = "prefer-encrypt" ∧
      nameOf toLowerCase a.2 = "mutual" ∧ Intact a.2
  := by
  rw [attributes_read]
  constructor
  · rintro ⟨b, hb, hname, hvalue⟩
    obtain ⟨a, ha, rfl⟩ := List.mem_map.mp hb
    exact ⟨a, ha, nameOf_eq_of_read hlower (by decide) hname,
      nameOf_eq_of_read hlower (by decide) hvalue, intact_of_lower_read hlower (by decide) hvalue⟩
  · rintro ⟨a, ha, hname, hvalue, hintact⟩
    have hkey : Intact a.1 := hkeys a ha (by rw [hname]; decide)
    refine ⟨_, List.mem_map_of_mem ha, ?_, ?_⟩
    · change toLowerCase (String.ofList (a.1.flatMap Piece.read)) = _
      rw [hkey.read_eq]
      exact hname
    · change toLowerCase (String.ofList (a.2.flatMap Piece.read)) = _
      rw [hintact.read_eq]
      exact hvalue

omit hlower in
theorem prefersMutual_written_iff :
  PrefersMutual toLowerCase (attributes (ps.flatMap Piece.written)) ↔
    ∃ a ∈ pieceAttributes ps, nameOf toLowerCase a.1 = "prefer-encrypt" ∧
      nameOf toLowerCase a.2 = "mutual"
  := by
  rw [attributes_written]
  constructor
  · rintro ⟨b, hb, hname, hvalue⟩
    obtain ⟨a, ha, rfl⟩ := List.mem_map.mp hb
    exact ⟨a, ha, hname, hvalue⟩
  · rintro ⟨a, ha, hname, hvalue⟩
    exact ⟨_, List.mem_map_of_mem ha, hname, hvalue⟩

/-- What is read is the header that was written just when nothing falls into what matters, or
what was written was no header. -/
theorem parse_read_iff :
  parseAutocryptHeader toLowerCase (ps.flatMap Piece.read) =
      parseAutocryptHeader toLowerCase (ps.flatMap Piece.written) ↔
    (Usable toLowerCase (ps.flatMap Piece.written) → Spared toLowerCase ps)
  := by
  rw [parseAutocryptHeader_eq, parseAutocryptHeader_eq]
  simp only
  by_cases hread : Understood toLowerCase (attributes (ps.flatMap Piece.read))
  · obtain ⟨hwritten, hkeys⟩ := (understood_read_iff hlower).mp hread
    have hkey : keyOf (lastOf toLowerCase "keydata" (attributes (ps.flatMap Piece.read))) =
        keyOf (lastOf toLowerCase "keydata" (attributes (ps.flatMap Piece.written))) := by
      rw [lastOf_read hlower (by decide) hkeys, lastOf_written]
      cases lastPieces toLowerCase "keydata" ps with
      | none => rfl
      | some value => exact keyOf_some_congr (filter_read value)
    rw [if_pos hread, if_pos hwritten, hkey]
    cases hheld : keyOf (lastOf toLowerCase "keydata" (attributes (ps.flatMap Piece.written))) with
    | none =>
        simp only [Option.map_none, true_iff]
        rintro ⟨_, husable⟩
        rw [hheld] at husable
        cases husable
    | some key =>
        have husable : Usable toLowerCase (ps.flatMap Piece.written) := by
          constructor
          · exact hwritten
          · rw [hheld]
            rfl
        rw [Option.map_some, Option.map_some, lastOf_read hlower (by decide) hkeys, lastOf_written]
        constructor
        · intro h _
          obtain ⟨haddr, _, hprefer⟩ := AutocryptHeader.mk.inj (Option.some.inj h)
          constructor
          · exact hkeys
          · intro value hvalue
            rw [Option.mem_def.mp hvalue] at haddr
            exact intact_of_read_eq (String.ofList_injective haddr)
          · intro hmutual
            by_contra hnot
            rw [if_pos (prefersMutual_written_iff.mpr hmutual),
              if_neg fun h => hnot ((prefersMutual_read_iff hlower hkeys).mp h)] at hprefer
            cases hprefer
        · intro hspared
          have hspared := hspared husable
          have haddr : (lastPieces toLowerCase "addr" ps).map (·.flatMap Piece.read) =
              (lastPieces toLowerCase "addr" ps).map (·.flatMap Piece.written) := by
            apply Option.map_congr
            intro value hvalue
            exact (hspared.addr value hvalue).read_eq
          have hprefer : PrefersMutual toLowerCase (attributes (ps.flatMap Piece.read)) ↔
              PrefersMutual toLowerCase (attributes (ps.flatMap Piece.written)) := by
            rw [prefersMutual_read_iff hlower hkeys, prefersMutual_written_iff]
            constructor
            · rintro ⟨a, ha, hname, hvalue, _⟩
              exact ⟨a, ha, hname, hvalue⟩
            · exact hspared.prefer
          simp only [haddr, hprefer]
  · rw [if_neg hread]
    by_cases hwritten : Understood toLowerCase (attributes (ps.flatMap Piece.written))
    · rw [if_pos hwritten]
      cases hheld : keyOf (lastOf toLowerCase "keydata" (attributes (ps.flatMap Piece.written))) with
      | none =>
          simp only [Option.map_none, true_iff]
          rintro ⟨_, husable⟩
          rw [hheld] at husable
          cases husable
      | some key =>
          simp only [Option.map_some, reduceCtorEq, false_iff]
          intro hspared
          apply hread
          apply (understood_read_iff hlower).mpr ⟨hwritten, _⟩
          exact (hspared ⟨hwritten, by rw [hheld]; rfl⟩).keys
    · rw [if_neg hwritten]
      simp only [true_iff]
      intro husable
      exact absurd husable.1 hwritten

end Reading

/-! ### The message -/

/-- A header field with a name, whose content stands on one line. -/
def lineField (name : String) (content : List Char) (hne : name.toList ≠ [])
    (hname : ∀ c ∈ name.toList, isNameChar c = true)
    (hcontent : ∀ c ∈ content, isFieldChar c = true) : HeaderField where
  name := name.toList
  body := ' ' :: (content ++ crlf)
  nonempty := hne
  name_chars := hname
  body_chars := by
    rw [isBody_cons_of_fieldChar rfl]
    exact isBody_append_crlf hcontent

theorem isFieldChar_of_isNameChar {c : Char} (h : isNameChar c = true) :
  isFieldChar c = true
  := by
  simp only [isNameChar, Bool.and_eq_true, decide_eq_true_eq] at h
  rw [isFieldChar, Bool.or_eq_true, Bool.and_eq_true, decide_eq_true_eq]
  right
  obtain ⟨⟨hlow, hhigh⟩, _⟩ := h
  constructor
  · exact Char.le_trans (by decide) hlow
  · rw [bne_iff_ne]
    rintro rfl
    revert hhigh
    decide

/-- The fields of a message before the header that advertises a key are header fields. -/
theorem leadingFields_eq {«from» «to» date boundary : String}
    (hfrom : ∀ c ∈ «from».toList, isFieldChar c = true)
    (hto : ∀ c ∈ «to».toList, isFieldChar c = true)
    (hdate : ∀ c ∈ date.toList, isFieldChar c = true)
    (hboundary : ∀ c ∈ boundary.toList, isNameChar c = true) :
  ∃ fields : List HeaderField,
    (leadingFields «from» «to» date boundary).toList = fields.flatMap (·.text) ∧
      fields.map (·.name) = ["From".toList, "To".toList, "Date".toList, "MIME-Version".toList,
        "Content-Type".toList]
  := by
  have hquoted : ∀ (pre post text : List Char), (∀ c ∈ pre, isFieldChar c = true) →
      (∀ c ∈ post, isFieldChar c = true) → (∀ c ∈ text, isFieldChar c = true) →
      ∀ c ∈ pre ++ text ++ post, isFieldChar c = true := by
    intro pre post text hpre hpost htext c hc
    rcases List.mem_append.mp hc with hc | hc
    · rcases List.mem_append.mp hc with hc | hc
      · exact hpre c hc
      · exact htext c hc
    · exact hpost c hc
  have hopen : ∀ c ∈ ['<'], isFieldChar c = true := List.all_eq_true.mp (by decide)
  have hclose : ∀ c ∈ ['>'], isFieldChar c = true := List.all_eq_true.mp (by decide)
  have hquote : ∀ c ∈ ['"'], isFieldChar c = true := List.all_eq_true.mp (by decide)
  use [lineField "From" (['<'] ++ «from».toList ++ ['>']) (by decide)
      (List.all_eq_true.mp (by decide)) (hquoted _ _ _ hopen hclose hfrom),
    lineField "To" (['<'] ++ «to».toList ++ ['>']) (by decide)
      (List.all_eq_true.mp (by decide)) (hquoted _ _ _ hopen hclose hto),
    lineField "Date" date.toList (by decide) (List.all_eq_true.mp (by decide)) hdate,
    lineField "MIME-Version" "1.0".toList (by decide) (List.all_eq_true.mp (by decide))
      (List.all_eq_true.mp (by decide)),
    lineField "Content-Type"
      ("multipart/encrypted; protocol=\"application/pgp-encrypted\"; boundary=\"".toList ++
        boundary.toList ++ ['"']) (by decide) (List.all_eq_true.mp (by decide))
      (hquoted _ _ _ (List.all_eq_true.mp (by decide +kernel)) hquote fun c hc =>
        isFieldChar_of_isNameChar (hboundary c hc))]
  constructor
  · have hfrom : "From: <".toList = "From".toList ++ ':' :: ' ' :: ['<'] := by decide +kernel
    have hto : ">\r\nTo: <".toList = ['>'] ++ crlf ++ "To".toList ++ ':' :: ' ' :: ['<'] := by
      decide +kernel
    have hdate : ">\r\nDate: ".toList = ['>'] ++ crlf ++ "Date".toList ++ [':', ' '] := by
      decide +kernel
    have hversion : "\r\nMIME-Version: 1.0\r\n".toList =
        crlf ++ "MIME-Version".toList ++ ':' :: ' ' :: ("1.0".toList ++ crlf) := by
      decide +kernel
    have htype :
      "Content-Type: multipart/encrypted; protocol=\"application/pgp-encrypted\"; boundary=\"".toList =
        "Content-Type".toList ++ ':' :: ' ' ::
          "multipart/encrypted; protocol=\"application/pgp-encrypted\"; boundary=\"".toList := by
      decide +kernel
    have hend : "\"\r\n".toList = ['"'] ++ crlf := by
      decide +kernel
    unfold leadingFields
    simp only [String.toList_append, toString, hfrom, hto, hdate, hversion, htype, hend,
      List.flatMap_cons, List.flatMap_nil, HeaderField.text, lineField, List.append_assoc,
      List.cons_append, List.nil_append, List.append_nil]
  · rfl

/-! ### From the sender to the recipient -/

/-- The value that the relay writes is one header field, and the recipient reads the header of
the message as it reads the value. -/
def Survives (lib : MailLibrary) (toLowerCase : String → String)
    («from» «to» date boundary : String) (ciphertext : Bytes) (value : String) : Prop :=
  ∃ field, foldHeaderValue "Autocrypt" value = some field ∧ IsHeaderField field ∧
    ∃ header, extractAutocryptHeader lib (Text.asBytes (String.ofList
        (Submission.rawMessage lib date boundary ⟨«from», «to», field, ciphertext⟩))) =
          .ok (some header) ∧
      parseAutocryptHeader toLowerCase header.toList =
        parseAutocryptHeader toLowerCase value.toList

/-- No line break falls into a character; there is no control character but tabs and line breaks
of the value's own; and if the value is a header, no line break falls into what matters. -/
def Preserved (toLowerCase : String → String) (value : String) : Prop :=
  ∃ ts ps, cuts (LINE_WIDTH - byteLength "Autocrypt: ".toList) value.toList = some ts ∧
    pieces ts = some ps ∧ (Usable toLowerCase value.toList → Spared toLowerCase ps)

theorem headerValue_autocrypt {mail : ParsedMail} {fields : List HeaderField} {field : HeaderField}
    (hfields : fields.map (·.name) = ["From".toList, "To".toList, "Date".toList,
      "MIME-Version".toList, "Content-Type".toList])
    (hname : field.name = "Autocrypt".toList)
    (hmail : mail.headers = (fields ++ [field]).map fun field =>
      (String.ofList field.name, String.ofList field.value)) :
  headerValue "autocrypt" mail = some (String.ofList field.value)
  := by
  have hothers : ∀ f ∈ fields, Text.eqIgnoreAsciiCase (String.ofList f.name) "autocrypt" = false := by
    intro f hf
    have hf := List.mem_map_of_mem hf (f := (·.name))
    rw [hfields] at hf
    revert hf
    generalize f.name = name
    revert name
    decide
  have hnone : (fields.map fun field => (String.ofList field.name, String.ofList field.value)).find?
      (fun h => Text.eqIgnoreAsciiCase h.1 "autocrypt") = none := by
    apply List.find?_eq_none.mpr
    intro h hh
    obtain ⟨f, hf, rfl⟩ := List.mem_map.mp hh
    rw [hothers f hf]
    decide
  have hown : Text.eqIgnoreAsciiCase (String.ofList field.name) "autocrypt" = true := by
    rw [hname]
    decide
  rw [headerValue, hmail, List.map_append, List.find?_append, hnone, Option.none_or,
    List.map_singleton]
  simp only [List.find?_cons, hown]
  rfl

/-- The header that the recipient finds in a message is the value that was written, unfolded. -/
theorem extract_rawMessage {lib : MailLibrary} (hparse : ParsesFields lib)
    {«from» «to» date boundary : String} (ciphertext : Bytes)
    (hfrom : ∀ c ∈ «from».toList, isFieldChar c = true)
    (hto : ∀ c ∈ «to».toList, isFieldChar c = true)
    (hdate : ∀ c ∈ date.toList, isFieldChar c = true)
    (hboundary : ∀ c ∈ boundary.toList, isNameChar c = true) (field : HeaderField)
    (hname : field.name = "Autocrypt".toList) :
  extractAutocryptHeader lib (Text.asBytes (String.ofList
      (Submission.rawMessage lib date boundary ⟨«from», «to», field.text, ciphertext⟩))) =
    .ok (some (String.ofList field.value))
  := by
  obtain ⟨fields, hleading, hfields⟩ := leadingFields_eq hfrom hto hdate hboundary
  obtain ⟨mail, hmail, hheaders⟩ := hparse (fields ++ [field]) boundary ciphertext hboundary
  rw [List.flatMap_append, List.flatMap_singleton, ← hleading] at hmail
  rw [extractAutocryptHeader, Submission.rawMessage, hmail]
  change Except.ok (headerValue "autocrypt" mail) = _
  rw [headerValue_autocrypt hfields hname hheaders]

theorem parse_congr {toLowerCase : String → String} {value value' : List Char}
    (h : attributes value = attributes value') :
  parseAutocryptHeader toLowerCase value = parseAutocryptHeader toLowerCase value'
  := by
  rw [parseAutocryptHeader, h, parseAutocryptHeader]

/-- What a recipient reads of a header that the relay has written is what the sender has written
just when the value is preserved. -/
theorem header_survives_iff (lib : MailLibrary) (toLowerCase : String → String)
    (hparse : ParsesFields lib) (hlower : Lowers toLowerCase)
    (haddress : ∀ a, lib.addressError a = none → ∀ c ∈ a.toList, isFieldChar c = true)
    («from» «to» date boundary : String) (ciphertext : Bytes)
    (hfrom : lib.addressError «from» = none) (hto : lib.addressError «to» = none)
    (hdate : ∀ c ∈ date.toList, isFieldChar c = true)
    (hboundary : ∀ c ∈ boundary.toList, isNameChar c = true) (value : String) :
  Survives lib toLowerCase «from» «to» date boundary ciphertext value ↔
    Preserved toLowerCase value
  := by
  have hfold := foldHeaderValue_eq "Autocrypt" value
  change _ = (cuts (LINE_WIDTH - byteLength "Autocrypt: ".toList) value.toList).map _ at hfold
  rw [Survives, Preserved, hfold]
  cases hcuts : cuts (LINE_WIDTH - byteLength "Autocrypt: ".toList) value.toList with
  | none => simp
  | some ts =>
      have hfield := @isHeaderField_iff "Autocrypt".toList (' ' :: (render ts ++ crlf))
        (by decide) (List.all_eq_true.mp (by decide))
      rw [isBody_cons_of_fieldChar rfl, isBody_render] at hfield
      cases hps : pieces ts with
      | none =>
          rw [hps] at hfield
          constructor
          · rintro ⟨field, htext, hone, _⟩
            obtain rfl := Option.some.inj htext
            exact absurd (hfield.mp hone) Bool.false_ne_true
          · rintro ⟨_, ps, hts, hps', _⟩
            obtain rfl := Option.some.inj hts
            rw [hps] at hps'
            cases hps'
      | some ps =>
          rw [hps] at hfield
          have hwritten : ps.flatMap Piece.written = value.toList := by
            rw [written_pieces hps, reduceOption_cuts hcuts]
          -- the field that the relay writes, and what is read of it
          let field : HeaderField :=
            ⟨"Autocrypt".toList, ' ' :: (render ts ++ crlf), by decide,
              List.all_eq_true.mp (by decide), by
              rw [isBody_cons_of_fieldChar rfl, isBody_render, hps]
              rfl⟩
          have hextract := extract_rawMessage hparse ciphertext (haddress _ hfrom)
            (haddress _ hto) hdate hboundary field rfl
          have hread : parseAutocryptHeader toLowerCase field.value =
              parseAutocryptHeader toLowerCase (ps.flatMap Piece.read) := by
            apply parse_congr
            rw [HeaderField.value, attributes, Attributes.attributes_dropWhile,
              unfold_cons_of_fieldChar rfl, unfold_render hps,
              Attributes.attributes_cons_of_blank rfl rfl, attributes]
            intro c hc
            rw [beq_iff_eq.mp hc]
            exact ⟨rfl, rfl⟩
          have hiff := @parse_read_iff toLowerCase hlower ps
          rw [hwritten, ← hread] at hiff
          constructor
          · rintro ⟨text, htext, _, header, hheader, heq⟩
            obtain rfl := Option.some.inj htext
            have hheader := Option.some.inj (Except.ok.inj (hextract.symm.trans hheader))
            rw [← hheader, String.toList_ofList] at heq
            exact ⟨ts, ps, rfl, hps, hiff.mp heq⟩
          · rintro ⟨_, _, hts, hps', hspared⟩
            obtain rfl := Option.some.inj hts
            rw [hps] at hps'
            obtain rfl := Option.some.inj hps'
            refine ⟨field.text, rfl, hfield.mpr rfl, _, hextract, ?_⟩
            rw [String.toList_ofList]
            exact hiff.mpr hspared

/-! ### A header that is injected -/

/-- A library whose parser reads the header fields of a message. -/
def MailLibrary.fields : MailLibrary where
  encode _ := ""
  decode _ := .ok []
  parseMail raw :=
    match String.fromUTF8? raw.toByteArray with
    | none => .error "no text"
    | some s =>
        match readFields (s.toList.length + 1) s.toList with
        | none => .error "no header"
        | some fields => .ok ⟨fields.map fun (name, body) =>
            (String.ofList name, String.ofList ((unfold body).dropWhile (· == ' '))), .ok [], []⟩
  addressError address :=
    if address.toList.all isFieldChar then none else some "invalid character"

theorem fromUTF8?_asBytes (s : String) :
  String.fromUTF8? (Text.asBytes s).toByteArray = some s
  := by
  rw [← Text.toByteArray_eq, String.fromUTF8?, dif_pos s.isValidUTF8]
  rfl

theorem length_le_flatMap (fields : List HeaderField) :
  fields.length ≤ (fields.flatMap (·.text)).length
  := by
  induction fields with
  | nil => exact Nat.le_refl _
  | cons field fields ih =>
      rw [List.flatMap_cons, List.length_append, List.length_cons, HeaderField.text,
        List.length_append, List.length_cons]
      omega

theorem parsesFields_fields :
  ParsesFields .fields
  := by
  intro fields boundary ciphertext _
  use ⟨fields.map fun field => (String.ofList field.name, String.ofList field.value), .ok [], []⟩
  constructor
  · rw [MailLibrary.fields]
    simp only
    rw [fromUTF8?_asBytes]
    simp only [String.toList_ofList]
    generalize (messageBody boundary (wrap "")).toList = rest
    rw [readFields_flatMap]
    · simp only [List.map_map]
      rfl
    · have hlength := length_le_flatMap fields
      rw [List.length_append, List.length_append]
      omega
  · rfl

/-- A value that is accepted ends the header field, and starts another one. -/
theorem header_injected :
  validateAutocryptHeader "addr=al@h.ex;\r\nSubject: hello" "al@h.ex" =
      some "addr=al@h.ex;\r\nSubject: hello" ∧
    ¬ Survives .fields id "al@h.ex" "bob@h.ex" "Mon, 1 Jan 2024 00:00:00 +0000" "b" []
      "addr=al@h.ex;\r\nSubject: hello"
  := by
  constructor
  · decide +kernel
  · rintro ⟨text, htext, hone, _⟩
    have hfold : foldHeaderValue "Autocrypt" "addr=al@h.ex;\r\nSubject: hello" =
        some ("Autocrypt".toList ++ ':' :: " addr=al@h.ex;\r\nSubject: hello\r\n".toList) := by
      decide +kernel
    obtain rfl := Option.some.inj (hfold.symm.trans htext)
    have hbody := (isHeaderField_iff (by decide) (List.all_eq_true.mp (by decide))).mp hone
    revert hbody
    decide +kernel

theorem lowers_id :
  Lowers id
  := by
  constructor
  · intro s c hc _
    exact hc
  · intro s
    rfl

/-- A value that fits on one line. -/
def oneLine : String :=
  "addr=al@h.ex; prefer-encrypt=mutual; keydata=AQIDBA=="

theorem preserved_oneLine :
  Preserved id oneLine
  := by
  have hcuts : cuts (LINE_WIDTH - byteLength "Autocrypt: ".toList) oneLine.toList =
      some (oneLine.toList.map some) := by
    apply cuts_of_le
    decide +kernel
  have hpieces : pieces (oneLine.toList.map some) = some (oneLine.toList.map Piece.char) := by
    decide +kernel
  refine ⟨_, _, hcuts, hpieces, ?_⟩
  intro _
  constructor
  · decide +kernel
  · have hlast : lastPieces id "addr" (oneLine.toList.map Piece.char) =
        some ("al@h.ex".toList.map Piece.char) := by
      decide +kernel
    intro value hvalue
    obtain rfl := Option.some.inj (hlast.symm.trans hvalue)
    decide +kernel
  · decide +kernel

/-- A value that fits on one line is read as it was written. -/
theorem header_survives_al :
  Survives .fields id "al@h.ex" "bob@h.ex" "Mon, 1 Jan 2024 00:00:00 +0000" "b" [] oneLine
  := by
  have haddress : ∀ a, MailLibrary.fields.addressError a = none →
      ∀ c ∈ a.toList, isFieldChar c = true := by
    intro a ha
    by_contra hnot
    have hall : ¬ a.toList.all isFieldChar = true := by
      intro hall
      exact hnot (List.all_eq_true.mp hall)
    rw [MailLibrary.fields] at ha
    simp only [if_neg hall, reduceCtorEq] at ha
  exact (header_survives_iff .fields id parsesFields_fields lowers_id haddress "al@h.ex" "bob@h.ex"
    "Mon, 1 Jan 2024 00:00:00 +0000" "b" [] (by decide +kernel) (by decide +kernel)
    (List.all_eq_true.mp (by decide +kernel)) (List.all_eq_true.mp (by decide +kernel))
    oneLine).mpr preserved_oneLine

end Chat
