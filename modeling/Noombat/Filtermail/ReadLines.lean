import Mathlib.Data.List.DropRight
import Noombat.Filtermail.CappedLines

/-!
# Lines one after the other

Lines that end in a line feed are cut off a stream as they are, and are read one after the other: in
all chunkings if they are not too long, and whatever their lengths if they are in the buffer.
-/

namespace Filtermail

open Text

/-- The end of a line. -/
def CRLF : Bytes :=
  [0x0D, 0x0A]

/-! ### Trimming -/

/-- Whether a byte is trimmed from the end of a line. -/
def isEol (b : UInt8) : Bool :=
  b == 0x0A || b == 0x0D

/-- A line whose last byte is not trimmed. -/
def Trimmed (line : Bytes) : Prop :=
  ∀ b, line.getLast? = some b → isEol b = false

theorem trimEol_append {body ends : Bytes} (hbody : Trimmed body)
    (hends : ∀ b ∈ ends, isEol b = true) :
  trimEol (body ++ ends) = body
  := by
  rw [trimEol, List.reverse_append, List.dropWhile_append_of_pos
    (by simpa [isEol] using hends)]
  cases hlast : body.reverse with
  | nil =>
      rw [List.reverse_eq_nil_iff.mp hlast]
      rfl
  | cons b bs =>
      have hb : isEol b = false := by
        apply hbody
        rw [← List.head?_reverse, hlast]
        rfl
      rw [List.dropWhile_cons_of_neg (by simpa [isEol] using hb), ← hlast, List.reverse_reverse]

theorem trimEol_trimmed (line : Bytes) :
  Trimmed (trimEol line)
  := by
  intro b hb
  rw [trimEol, List.getLast?_reverse] at hb
  have := List.head?_dropWhile_not (fun b => b == 0x0A || b == 0x0D) line.reverse
  rw [hb] at this
  simpa [isEol] using this

/-- A line is what is left of it after trimming, and what was trimmed. -/
theorem exists_trimEol (line : Bytes) :
  ∃ ends, line = trimEol line ++ ends ∧ ∀ b ∈ ends, isEol b = true
  := by
  use (line.reverse.takeWhile fun b => b == 0x0A || b == 0x0D).reverse
  constructor
  · rw [trimEol, ← List.reverse_append, List.takeWhile_append_dropWhile, List.reverse_reverse]
  · intro b hb
    exact List.mem_takeWhile_imp (List.mem_reverse.mp hb)

theorem eol_crlf :
  ∀ b ∈ CRLF, isEol b = true
  := by simp [CRLF, isEol]

/-! ### Lines that end -/

/-- A line that ends in its only line feed. -/
def Ended (line : Bytes) : Prop :=
  ∃ body, 0x0A ∉ body ∧ line = body ++ [0x0A]

theorem cutLine_of_ended {line : Bytes} (h : Ended line) (more : Bytes) :
  cutLine (line ++ more) = some (line, more)
  := by
  obtain ⟨body, hbody, rfl⟩ := h
  apply cutLine_eq_some.mpr
  use body, hbody, rfl
  simp

theorem ended_of_cutLine {stream line rest : Bytes} (h : cutLine stream = some (line, rest)) :
  Ended line
  := by
  obtain ⟨body, hbody, rfl, -⟩ := cutLine_eq_some.mp h
  use body, hbody

theorem splitInclusive_lines {lines : List Bytes} (h : ∀ line ∈ lines, Ended line)
    (more : Bytes) :
  splitInclusive (lines.flatten ++ more) = lines ++ splitInclusive more
  := by
  induction lines with
  | nil => rfl
  | cons line lines ih =>
      obtain ⟨hline, hlines⟩ := List.forall_mem_cons.mp h
      rw [List.flatten_cons, List.append_assoc, splitInclusive_of_some (cutLine_of_ended hline _),
        ih hlines]
      rfl

theorem flatten_splitInclusive (stream : Bytes) :
  (splitInclusive stream).flatten = stream
  := by
  induction hlength : stream.length using Nat.strongRecOn generalizing stream with
  | ind n ih =>
      cases hcut : cutLine stream with
      | some parts =>
          obtain ⟨line, rest⟩ := parts
          have hshort := cutLine_length hcut
          have hline := List.length_pos_iff.mpr hshort.1
          rw [splitInclusive_of_some hcut, List.flatten_cons, ih rest.length (by omega) rest rfl]
          exact append_of_cutLine hcut
      | none =>
          cases stream with
          | nil => rfl
          | cons b stream =>
              rw [splitInclusive_of_none hcut (by simp)]
              simp

/-- All lines but the last end in a line feed. -/
theorem ended_of_splitInclusive {stream line : Bytes} {text rest : List Bytes}
    (h : splitInclusive stream = text ++ line :: rest) :
  ∀ l ∈ text, Ended l
  := by
  induction text generalizing stream with
  | nil => simp
  | cons first text ih =>
      cases hcut : cutLine stream with
      | some parts =>
          obtain ⟨first', more⟩ := parts
          rw [splitInclusive_of_some hcut, List.cons_append] at h
          obtain ⟨rfl, hmore⟩ := List.cons.inj h
          rintro l (_ | ⟨_, hl⟩)
          · apply ended_of_cutLine hcut
          · apply ih hmore l hl
      | none =>
          cases stream with
          | nil => simp [splitInclusive] at h
          | cons b stream =>
              rw [splitInclusive_of_none hcut (by simp)] at h
              simp at h

/-- The last line need not end in a line feed. -/
theorem line_of_splitInclusive {stream line : Bytes} {text rest : List Bytes}
    (h : splitInclusive stream = text ++ line :: rest) :
  Ended line ∨ (rest = [] ∧ cutLine line = none ∧ line ≠ [])
  := by
  induction text generalizing stream with
  | nil =>
      cases hcut : cutLine stream with
      | some parts =>
          obtain ⟨first, more⟩ := parts
          rw [splitInclusive_of_some hcut] at h
          obtain ⟨rfl, -⟩ := List.cons.inj h
          exact Or.inl (ended_of_cutLine hcut)
      | none =>
          cases stream with
          | nil => simp [splitInclusive] at h
          | cons b stream =>
              rw [splitInclusive_of_none hcut (by simp)] at h
              obtain ⟨rfl, rfl⟩ := List.cons.inj h
              exact Or.inr ⟨rfl, hcut, by simp⟩
  | cons first text ih =>
      cases hcut : cutLine stream with
      | some parts =>
          obtain ⟨first', more⟩ := parts
          rw [splitInclusive_of_some hcut, List.cons_append] at h
          exact ih (List.cons.inj h).2
      | none =>
          cases stream with
          | nil => simp [splitInclusive] at h
          | cons b stream =>
              rw [splitInclusive_of_none hcut (by simp)] at h
              simp at h

theorem splitInclusive_line {stream line : Bytes} {text rest : List Bytes}
    (h : splitInclusive stream = text ++ line :: rest) :
  splitInclusive line = [line]
  := by
  rcases line_of_splitInclusive h with hended | ⟨-, hcut, hsome⟩
  · have hcut := cutLine_of_ended hended []
    rw [List.append_nil] at hcut
    rw [splitInclusive_of_some hcut]
    rfl
  · apply splitInclusive_of_none hcut hsome

/-- All lines of a text end if the text does. -/
theorem ended_of_text {text : Bytes} (h : [0x0A] <:+ text) :
  ∀ line ∈ splitInclusive text, Ended line
  := by
  intro line hline
  obtain ⟨before, after, hlines⟩ := List.append_of_mem hline
  rcases line_of_splitInclusive hlines with hended | ⟨rfl, hcut, hsome⟩
  · exact hended
  · -- the last byte of the text is the last of the line
    rw [cutLine_eq_none] at hcut
    obtain ⟨front, hfront⟩ := h
    have hflat := flatten_splitInclusive text
    rw [hlines, List.flatten_append, List.flatten_singleton, ← hfront] at hflat
    have hlast := congrArg List.getLast? hflat
    rw [List.getLast?_append_of_ne_nil _ hsome, List.getLast?_concat] at hlast
    exact absurd (List.mem_of_getLast? hlast) hcut

/-! ### Reading lines -/

/-- The reader reads the lines, one after the other, and goes on as the other reader. -/
inductive ReadsAll : Reader → List Bytes → Reader → Prop where
  | nil (reader : Reader) : ReadsAll reader [] reader
  | cons {reader reader' reader'' : Reader} {line : Bytes} {lines : List Bytes}
      (first : readLineCapped MAX_LINE_BYTES reader = (.ok line, reader')) (some : line ≠ [])
      (others : ReadsAll reader' lines reader'') :
      ReadsAll reader (line :: lines) reader''

theorem ReadsAll.length_le {reader reader' : Reader} {lines : List Bytes}
    (h : ReadsAll reader lines reader') :
  lines.length ≤ reader.remaining
  := by
  induction h with
  | nil => apply Nat.zero_le
  | cons hfirst hsome hothers ih =>
      have hread := readLineCapped_remaining hfirst
      have hline := List.length_pos_iff.mpr hsome
      rw [List.length_cons]
      omega

/-- Lines that end in the buffer are read, however long they are. -/
theorem readsAll_buffer {lines : List Bytes} (h : ∀ line ∈ lines, Ended line) (more : Bytes)
    (fills : List (Except IoError Bytes)) :
  ReadsAll ⟨lines.flatten ++ more, fills⟩ lines ⟨more, fills⟩
  := by
  induction lines with
  | nil => apply ReadsAll.nil
  | cons line lines ih =>
      obtain ⟨hline, hlines⟩ := List.forall_mem_cons.mp h
      have hcut := cutLine_of_ended hline (lines.flatten ++ more)
      rw [List.flatten_cons, List.append_assoc]
      apply ReadsAll.cons (readLineCapped_of_cut hcut) (cutLine_length hcut).1 (ih hlines)

/-- A line that ends and is not too long is read in all chunkings. -/
theorem readLineCapped_of_ended {line more : Bytes} {reader : Reader} (hline : Ended line)
    (hshort : line.length ≤ MAX_LINE_BYTES + 1) (h : reader.Gives (line ++ more)) :
  ∃ reader', readLineCapped MAX_LINE_BYTES reader = (.ok line, reader') ∧ reader'.Gives more
  := by
  obtain ⟨rest, hread, hrest⟩ := reading_readLineCapped MAX_LINE_BYTES h
  have hcut := cutLine_of_ended hline more
  rcases hr : readLineCapped MAX_LINE_BYTES reader with ⟨r, reader'⟩
  rw [hr] at hread hrest
  use reader'
  cases hread with
  | line hcut' =>
      obtain ⟨rfl, rfl⟩ := Prod.mk.inj (Option.some.inj (hcut.symm.trans hcut'))
      exact ⟨rfl, hrest⟩
  | last hunended =>
      rw [hcut] at hunended
      cases hunended
  | tooLong hbytes hwithin hlong =>
      -- what was taken is a start of the line without its line feed
      rename_i taken
      obtain ⟨body, hbody, rfl⟩ := hline
      rw [cutLine_eq_none] at hwithin
      rw [List.length_append, List.length_singleton] at hshort
      rw [List.append_assoc] at hbytes
      obtain ⟨tail, rfl, htail⟩ | ⟨tail, rfl, -⟩ := List.append_eq_append_iff.mp hbytes
      · cases tail with
        | nil =>
            rw [List.append_nil] at hlong
            omega
        | cons b tail =>
            obtain ⟨rfl, -⟩ := List.cons.inj htail
            simp at hwithin
      · rw [List.length_append] at hshort
        omega

theorem readsAll_of_bounded {lines : List Bytes} {more : Bytes} {reader : Reader}
    (hlines : ∀ line ∈ lines, Ended line ∧ line.length ≤ MAX_LINE_BYTES + 1)
    (h : reader.Gives (lines.flatten ++ more)) :
  ∃ reader', ReadsAll reader lines reader' ∧ reader'.Gives more
  := by
  induction lines generalizing reader with
  | nil => exact ⟨reader, ReadsAll.nil reader, h⟩
  | cons line lines ih =>
      obtain ⟨⟨hline, hshort⟩, hothers⟩ := List.forall_mem_cons.mp hlines
      rw [List.flatten_cons, List.append_assoc] at h
      obtain ⟨reader₁, hfirst, h₁⟩ := readLineCapped_of_ended hline hshort h
      obtain ⟨reader₂, hreads, h₂⟩ := ih hothers h₁
      have hsome := (cutLine_length (cutLine_of_ended hline [])).1
      exact ⟨reader₂, ReadsAll.cons hfirst hsome hreads, h₂⟩

/-- The fuel of a read is enough for the lines that are read, and a line more. -/
theorem exists_fuel {reader reader' : Reader} {lines : List Bytes}
    (h : ReadsAll reader lines reader') :
  ∃ fuel, reader.remaining + 1 = fuel + 1 + lines.length
  := by
  have hlength := h.length_le
  use reader.remaining - lines.length
  omega

end Filtermail
