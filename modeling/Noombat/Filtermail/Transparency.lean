import Noombat.Filtermail.ReadLines

/-!
# The transparency of a message body

A message that is written and read again is the message with its line ends normalised, if no
carriage return stands before a line end and the sizes allow it.  The reader takes a line for the
final dot if it is a dot once all carriage returns and line feeds are trimmed, so it ends a message
at other places than the filter announces to the client.
-/

namespace Filtermail

open Text

/-! ### Lines -/

/-- A line that is a dot alone, as it ends a message. -/
def dotLine : Bytes :=
  0x2E :: CRLF

/-- A line without its line end, a line feed with or without a carriage return. -/
def lineBody (line : Bytes) : Bytes :=
  if CRLF <:+ line then line.dropLast.dropLast
  else if [0x0A] <:+ line then line.dropLast
  else line

/-- The message with its line ends normalised, and one at its end if there was none. -/
def normalised (message : Bytes) : Bytes :=
  (splitInclusive message).flatMap fun line => lineBody line ++ CRLF

/-- A line with a dot before the dot that it starts with, if it does. -/
def stuff (line : Bytes) : Bytes :=
  (if line.head? = some 0x2E then [0x2E] else []) ++ line

/-- A line without the dot that it starts with, if it does. -/
def unstuff (line : Bytes) : Bytes :=
  if line.head? = some 0x2E then line.drop 1 else line

/-- A message with its lines dot-stuffed and nothing else of it changed. -/
def stuffed (message : Bytes) : Bytes :=
  (splitInclusive message).flatMap stuff

/-- A line of a message as it is written. -/
def wireLine (line : Bytes) : Bytes :=
  stuff (trimEol line) ++ CRLF

/-- A line of a message as it is read. -/
def readLine (line : Bytes) : Bytes :=
  unstuff (trimEol line) ++ CRLF

theorem payload_eq (message : Bytes) :
  payload message = (splitInclusive message).flatMap wireLine ++ dotLine
  := by
  rw [payload]
  congr 1

/-! ### Reading a message -/

/-- The lines of a message are gathered as they are read. -/
theorem readMessageFrom_text {fuel seen : Nat} {oversize : Bool} {message : Bytes}
    {reader reader' : Reader} {text : List Bytes} (hreads : ReadsAll reader text reader')
    (htext : ∀ line ∈ text, trimEol line ≠ [0x2E])
    (hsize : seen + text.flatten.length ≤ MAX_MESSAGE_BYTES) :
  readMessageFrom (fuel + text.length) seen oversize message reader =
    readMessageFrom fuel (seen + text.flatten.length) oversize (message ++ text.flatMap readLine)
      reader'
  := by
  induction hreads generalizing seen message with
  | nil => simp
  | @cons reader reader₁ reader₂ line lines hfirst hsome hothers ih =>
      obtain ⟨hline, hlines⟩ := List.forall_mem_cons.mp htext
      rw [List.flatten_cons, List.length_append] at hsize
      have hmax : ¬ MAX_MESSAGE_BYTES < seen + line.length := by omega
      have habort : ¬ ABORT_MESSAGE_BYTES < seen + line.length := by
        unfold ABORT_MESSAGE_BYTES
        unfold MAX_MESSAGE_BYTES at hmax
        omega
      rw [List.length_cons, ← Nat.add_assoc, readMessageFrom, hfirst]
      cases line with
      | nil => contradiction
      | cons b line =>
          have hdot : trimEol (b :: line) ≠ asBytes "." := hline
          simp only
          rw [if_neg hdot, if_neg habort, if_neg hmax, List.append_assoc, ih hlines (by omega),
            List.flatten_cons, List.length_append, List.flatMap_cons, Nat.add_assoc,
            List.append_assoc]
          rfl

/-- A message that was too large once is not returned. -/
theorem readMessageFrom_oversize {fuel seen : Nat} {message raw : Bytes} {reader : Reader} :
  (readMessageFrom fuel seen true message reader).1 ≠ .ok (.message raw)
  := by
  induction fuel generalizing seen message reader with
  | zero => simp [readMessageFrom]
  | succ fuel ih =>
      rw [readMessageFrom]
      rcases hread : readLineCapped MAX_LINE_BYTES reader with ⟨e | line, reader'⟩
      · simp
      · cases line with
        | nil => simp
        | cons b line =>
            simp only
            split
            · simp
            · split
              · simp
              · split
                · apply ih
                · apply ih

/-- A message that is too large is not returned. -/
theorem readMessageFrom_large {fuel seen : Nat} {oversize : Bool} {message raw : Bytes}
    {reader reader' : Reader} {text : List Bytes} (hreads : ReadsAll reader text reader')
    (htext : ∀ line ∈ text, trimEol line ≠ [0x2E]) (hseen : seen ≤ MAX_MESSAGE_BYTES)
    (hsize : MAX_MESSAGE_BYTES < seen + text.flatten.length) :
  (readMessageFrom fuel seen oversize message reader).1 ≠ .ok (.message raw)
  := by
  induction hreads generalizing fuel seen message with
  | nil =>
      rw [List.flatten_nil, List.length_nil] at hsize
      omega
  | @cons reader reader₁ reader₂ line lines hfirst hsome hothers ih =>
      obtain ⟨hline, hlines⟩ := List.forall_mem_cons.mp htext
      rw [List.flatten_cons, List.length_append] at hsize
      cases fuel with
      | zero => simp [readMessageFrom]
      | succ fuel =>
          rw [readMessageFrom, hfirst]
          cases line with
          | nil => contradiction
          | cons b line =>
              have hdot : trimEol (b :: line) ≠ asBytes "." := hline
              simp only
              rw [if_neg hdot]
              split
              · simp
              · split
                · apply readMessageFrom_oversize
                · rename_i hmax
                  apply ih hlines (Nat.le_of_not_lt hmax) (by omega)

/-- The dot ends the message. -/
theorem readMessageFrom_dot {fuel seen : Nat} {oversize : Bool} {message line : Bytes}
    {reader reader' : Reader} (hread : readLineCapped MAX_LINE_BYTES reader = (.ok line, reader'))
    (hdot : trimEol line = [0x2E]) :
  readMessageFrom (fuel + 1) seen oversize message reader =
    (.ok (if oversize then .tooLarge else .message message), reader')
  := by
  rw [readMessageFrom, hread]
  cases line with
  | nil => cases hdot
  | cons b line =>
      have hdot' : trimEol (b :: line) = asBytes "." := hdot
      simp only
      rw [if_pos hdot']

/-- A message is read to its dot if it is not so large that the session is abandoned. -/
theorem readMessageFrom_ends {fuel seen : Nat} {oversize : Bool} {message line : Bytes}
    {reader reader₁ reader₂ : Reader} {text : List Bytes} (hreads : ReadsAll reader text reader₁)
    (htext : ∀ line ∈ text, trimEol line ≠ [0x2E])
    (hread : readLineCapped MAX_LINE_BYTES reader₁ = (.ok line, reader₂))
    (hdot : trimEol line = [0x2E]) (hsize : seen + text.flatten.length ≤ ABORT_MESSAGE_BYTES) :
  ∃ body, body ≠ .eof ∧
    readMessageFrom (fuel + 1 + text.length) seen oversize message reader = (.ok body, reader₂)
  := by
  induction hreads generalizing seen oversize message with
  | nil =>
      use if oversize then .tooLarge else .message message
      constructor
      · cases oversize with
        | true => simp
        | false => simp
      · apply readMessageFrom_dot hread hdot
  | @cons reader reader' reader'' first lines hfirst hsome hothers ih =>
      obtain ⟨hline, hlines⟩ := List.forall_mem_cons.mp htext
      rw [List.flatten_cons, List.length_append] at hsize
      have habort : ¬ ABORT_MESSAGE_BYTES < seen + first.length := by omega
      rw [List.length_cons, ← Nat.add_assoc, readMessageFrom, hfirst]
      cases first with
      | nil => contradiction
      | cons b first =>
          have hdot' : trimEol (b :: first) ≠ asBytes "." := hline
          simp only
          rw [if_neg hdot', if_neg habort]
          split
          · apply ih hlines hread (by omega)
          · apply ih hlines hread (by omega)

/-- A message that was read was read to a dot, and is made of the lines before it. -/
theorem readMessageFrom_inv {fuel seen : Nat} {oversize : Bool} {message stream : Bytes}
    {reader reader' : Reader} {body : Body} (hgives : reader.Gives stream)
    (hread : readMessageFrom fuel seen oversize message reader = (.ok body, reader'))
    (hbody : body ≠ .eof) (hseen : seen ≤ ABORT_MESSAGE_BYTES) :
  ∃ text line rest, splitInclusive stream = text ++ line :: splitInclusive rest ∧
    (∀ line ∈ text, trimEol line ≠ [0x2E]) ∧ trimEol line = [0x2E] ∧
    (Ended line ∨ line.length ≤ MAX_LINE_BYTES) ∧
    seen + text.flatten.length ≤ ABORT_MESSAGE_BYTES ∧ reader'.Gives rest ∧
    ∀ raw, body = .message raw → raw = message ++ text.flatMap readLine
  := by
  induction fuel generalizing seen oversize message stream reader with
  | zero =>
      obtain ⟨⟨⟩, -⟩ := Prod.mk.inj hread
      contradiction
  | succ fuel ih =>
      obtain ⟨rest, hline, hrest⟩ := reading_readLineCapped MAX_LINE_BYTES hgives
      rcases hr : readLineCapped MAX_LINE_BYTES reader with ⟨e | _ | ⟨b, line⟩, reader₁⟩
      · rw [readMessageFrom, hr] at hread
        cases hread
      · rw [readMessageFrom, hr] at hread
        obtain ⟨⟨⟩, -⟩ := Prod.mk.inj hread
        contradiction
      · rw [hr] at hline hrest
        have hsplit : splitInclusive stream = (b :: line) :: splitInclusive rest := by
          cases hline with
          | line hcut => exact splitInclusive_of_some hcut
          | last hunended => exact splitInclusive_of_none hunended (by simp)
        have hlet : Ended (b :: line) ∨ (b :: line).length ≤ MAX_LINE_BYTES := by
          cases hline with
          | line hcut => exact Or.inl (ended_of_cutLine hcut)
          | last _ hshort => exact Or.inr hshort
        by_cases hdot : trimEol (b :: line) = [0x2E]
        · rw [readMessageFrom_dot hr hdot] at hread
          obtain ⟨heq, rfl⟩ := Prod.mk.inj hread
          refine ⟨[], b :: line, rest, hsplit, by simp, hdot, hlet, by simpa using hseen, hrest, ?_⟩
          rintro raw rfl
          cases oversize with
          | true => cases heq
          | false =>
              obtain ⟨rfl⟩ := heq
              simp
        · have hdot' : trimEol (b :: line) ≠ asBytes "." := hdot
          -- the same with the line before
          have onwards {oversize' : Bool} {message' : Bytes}
              (hread' : readMessageFrom fuel (seen + (b :: line).length) oversize' message'
                reader₁ = (.ok body, reader'))
              (habort : ¬ ABORT_MESSAGE_BYTES < seen + (b :: line).length)
              (hmessage : ∀ raw, body = .message raw →
                message' = message ++ readLine (b :: line)) :
              ∃ text line rest, splitInclusive stream = text ++ line :: splitInclusive rest ∧
                (∀ line ∈ text, trimEol line ≠ [0x2E]) ∧ trimEol line = [0x2E] ∧
                (Ended line ∨ line.length ≤ MAX_LINE_BYTES) ∧
                seen + text.flatten.length ≤ ABORT_MESSAGE_BYTES ∧ reader'.Gives rest ∧
                ∀ raw, body = .message raw → raw = message ++ text.flatMap readLine := by
            obtain ⟨text, last, rest', hlines, htext, hlast, hlet', hsize, hrest', hraw⟩ :=
              ih hrest hread' (Nat.le_of_not_lt habort)
            refine ⟨(b :: line) :: text, last, rest', ?_, ?_, hlast, hlet', ?_, hrest', ?_⟩
            · rw [hsplit, hlines]
              rfl
            · rintro l (_ | ⟨_, hl⟩)
              · exact hdot
              · exact htext l hl
            · rw [List.flatten_cons, List.length_append]
              omega
            · intro raw hbody'
              rw [hraw raw hbody', hmessage raw hbody', List.flatMap_cons, List.append_assoc]
          rw [readMessageFrom, hr] at hread
          simp only at hread
          rw [if_neg hdot'] at hread
          split at hread
          · cases hread
          · rename_i habort
            split at hread
            · apply onwards hread habort
              rintro raw rfl
              exact absurd (congrArg Prod.fst hread) readMessageFrom_oversize
            · apply onwards hread habort
              intro raw _
              rw [List.append_assoc]
              rfl

/-! ### The bodies of lines -/

theorem exists_lineBody (line : Bytes) :
  ∃ ends, line = lineBody line ++ ends ∧ ∀ b ∈ ends, isEol b = true
  := by
  rw [lineBody]
  split
  · rename_i h
    obtain ⟨front, rfl⟩ := h
    use CRLF
    constructor
    · simp [CRLF, List.dropLast_append_of_ne_nil]
    · exact eol_crlf
  · split
    · rename_i _ h
      obtain ⟨front, rfl⟩ := h
      use [0x0A]
      constructor
      · simp
      · simp [isEol]
    · use []
      simp

theorem trimEol_append_eol (line : Bytes) {ends : Bytes} (hends : ∀ b ∈ ends, isEol b = true) :
  trimEol (line ++ ends) = trimEol line
  := by
  rw [trimEol, List.reverse_append, List.dropWhile_append_of_pos
    (by simpa [isEol] using hends)]
  rfl

/-- What is trimmed is more than the line end, if anything. -/
theorem trimEol_prefix_lineBody (line : Bytes) :
  trimEol line <+: lineBody line
  := by
  obtain ⟨ends, hline, hends⟩ := exists_lineBody line
  obtain ⟨more, hbody, -⟩ := exists_trimEol (lineBody line)
  rw [hline, trimEol_append_eol _ hends, ← hline]
  use more, hbody.symm

theorem not_mem_lineBody {stream line : Bytes} (hline : line ∈ splitInclusive stream) :
  0x0A ∉ lineBody line
  := by
  obtain ⟨before, after, hlines⟩ := List.append_of_mem hline
  rcases line_of_splitInclusive hlines with ⟨body, hbody, rfl⟩ | ⟨-, hcut, -⟩
  · rw [lineBody, if_pos (List.suffix_append body [0x0A]), List.dropLast_concat]
    split
    · intro h
      exact hbody ((List.dropLast_prefix _).mem h)
    · exact hbody
  · rw [cutLine_eq_none] at hcut
    rw [lineBody]
    intro h
    apply hcut
    split at h
    · exact (List.dropLast_prefix _).mem ((List.dropLast_prefix _).mem h)
    · split at h
      · exact (List.dropLast_prefix _).mem h
      · exact h

/-- The body of a line is what is left of it after trimming, if no carriage return stands at its
end. -/
theorem trimEol_eq_lineBody {stream line : Bytes} (hline : line ∈ splitInclusive stream) :
  trimEol line = lineBody line ↔ (lineBody line).getLast? ≠ some 0x0D
  := by
  obtain ⟨ends, heq, hends⟩ := exists_lineBody line
  constructor
  · intro h hlast
    have := trimEol_trimmed line 0x0D
    rw [h] at this
    exact absurd (this hlast) (by decide)
  · intro h
    have htrimmed : Trimmed (lineBody line) := by
      intro b hb
      have hfeed : b ≠ 0x0A := by
        rintro rfl
        exact not_mem_lineBody hline (List.mem_of_getLast? hb)
      have hreturn : b ≠ 0x0D := by
        rintro rfl
        exact h hb
      simp [isEol, hfeed, hreturn]
    conv_lhs => rw [heq]
    apply trimEol_append htrimmed hends

/-! ### What is written -/

theorem not_mem_trimEol {stream line : Bytes} (hline : line ∈ splitInclusive stream) :
  0x0A ∉ trimEol line
  := by
  intro h
  exact not_mem_lineBody hline ((trimEol_prefix_lineBody line).mem h)

theorem stuff_trimmed {line : Bytes} (h : Trimmed line) :
  Trimmed (stuff line)
  := by
  intro b hb
  rw [stuff] at hb
  split at hb
  · rename_i hdot
    cases line with
    | nil => cases hdot
    | cons c line =>
        rw [List.getLast?_append_of_ne_nil _ (by simp)] at hb
        exact h b hb
  · exact h b hb

theorem unstuff_stuff (line : Bytes) :
  unstuff (stuff line) = line
  := by
  rw [stuff]
  split
  · rfl
  · rename_i h
    rw [List.nil_append, unstuff, if_neg h]

/-- A stuffed line is not taken for the dot that ends a message. -/
theorem stuff_ne_dot (line : Bytes) :
  stuff line ≠ [0x2E]
  := by
  rw [stuff]
  split
  · rename_i h
    cases line with
    | nil => cases h
    | cons b line => simp
  · rename_i h
    rintro heq
    rw [List.nil_append] at heq
    rw [heq] at h
    exact h rfl

theorem trimEol_wireLine (line : Bytes) :
  trimEol (wireLine line) = stuff (trimEol line)
  := trimEol_append (stuff_trimmed (trimEol_trimmed line)) eol_crlf

theorem readLine_wireLine (line : Bytes) :
  readLine (wireLine line) = trimEol line ++ CRLF
  := by
  rw [readLine, trimEol_wireLine, unstuff_stuff]

theorem wireLine_ended {stream line : Bytes} (hline : line ∈ splitInclusive stream) :
  Ended (wireLine line)
  := by
  use stuff (trimEol line) ++ [0x0D]
  constructor
  · have htrim := not_mem_trimEol hline
    rw [stuff]
    split
    · simpa using htrim
    · simpa using htrim
  · simp [wireLine, CRLF]

theorem dotLine_ended :
  Ended dotLine
  := by
  use [0x2E, 0x0D]
  decide

/-- The lines that a message is written as, without the last. -/
def wireLines (message : Bytes) : List Bytes :=
  (splitInclusive message).map wireLine

theorem payload_eq_wireLines (message : Bytes) :
  payload message = (wireLines message).flatten ++ dotLine
  := by
  rw [payload_eq, wireLines, List.flatMap_def]

theorem wireLines_ended (message : Bytes) :
  ∀ line ∈ wireLines message, Ended line
  := by
  intro line hline
  obtain ⟨line, hmem, rfl⟩ := List.mem_map.mp hline
  apply wireLine_ended hmem

theorem wireLines_ne_dot (message : Bytes) :
  ∀ line ∈ wireLines message, trimEol line ≠ [0x2E]
  := by
  intro line hline
  obtain ⟨line, hmem, rfl⟩ := List.mem_map.mp hline
  rw [trimEol_wireLine]
  apply stuff_ne_dot

/-- What is read of a message as it is written: its lines, trimmed. -/
theorem flatMap_readLine_wireLines (message : Bytes) :
  (wireLines message).flatMap readLine =
    (splitInclusive message).flatMap fun line => trimEol line ++ CRLF
  := by
  rw [wireLines, List.flatMap_map]
  congr 1
  funext line
  apply readLine_wireLine

/-- The lines trimmed are the lines with their ends normalised only if each line is. -/
theorem eq_of_flatMap_eq {lines : List Bytes} {f g : Bytes → Bytes}
    (hstart : ∀ line, f line <+: g line)
    (h : (lines.flatMap fun line => f line ++ CRLF) = lines.flatMap fun line => g line ++ CRLF) :
  ∀ line ∈ lines, f line = g line
  := by
  have shorter (lines : List Bytes) :
      (lines.flatMap fun line => f line ++ CRLF).length ≤
        (lines.flatMap fun line => g line ++ CRLF).length := by
    induction lines with
    | nil => exact Nat.le_refl _
    | cons line lines ih =>
        have := (hstart line).length_le
        simp only [List.flatMap_cons, List.length_append] at ih ⊢
        omega
  induction lines with
  | nil => simp
  | cons line lines ih =>
      have hfirst := (hstart line).length_le
      have hothers := shorter lines
      have hlength := congrArg List.length h
      simp only [List.flatMap_cons, List.length_append] at hlength
      rw [List.flatMap_cons, List.flatMap_cons] at h
      obtain ⟨hline, hlines⟩ := List.append_inj h (by simp only [List.length_append]; omega)
      rintro l (_ | ⟨_, hl⟩)
      · exact List.append_cancel_right hline
      · exact ih hlines l hl

/-! ### A message is read as it was written -/

/-- What is written for the message is read as the message with its line ends normalised, whatever
follows and however it comes in chunks, and nothing of what follows is read. -/
def RoundTrips (message : Bytes) : Prop :=
  ∀ (following : Bytes) (wire : Wire), wire.reader.Gives (payload message ++ following) →
    ∃ wire' : Wire, wire.readMessage = (.ok (.message (normalised message)), wire') ∧
      wire'.reader.Gives following

/-- No carriage return stands before a line end, and the lines and the message are not too long. -/
structure Sendable (message : Bytes) : Prop where
  clean : ∀ line ∈ splitInclusive message, (lineBody line).getLast? ≠ some 0x0D
  short : ∀ line ∈ splitInclusive message, (stuff (trimEol line)).length + 1 ≤ MAX_LINE_BYTES
  size : (wireLines message).flatten.length ≤ MAX_MESSAGE_BYTES

variable {message : Bytes}

theorem readMessage_eq (wire : Wire) :
  wire.readMessage =
    ((readMessageFrom (wire.reader.remaining + 1) 0 false [] wire.reader).1,
      { wire with
        reader := (readMessageFrom (wire.reader.remaining + 1) 0 false [] wire.reader).2 })
  := rfl

/-- The lines that a message is written as, and the dot, are read as its lines trimmed. -/
theorem readMessage_of_reads {reader reader₁ reader₂ : Reader} {written : Bytes}
    (hreads : ReadsAll reader (wireLines message) reader₁)
    (hdot : readLineCapped MAX_LINE_BYTES reader₁ = (.ok dotLine, reader₂))
    (hsize : (wireLines message).flatten.length ≤ MAX_MESSAGE_BYTES) :
  (Wire.mk reader written).readMessage =
    (.ok (.message ((splitInclusive message).flatMap fun line => trimEol line ++ CRLF)),
      ⟨reader₂, written⟩)
  := by
  obtain ⟨fuel, hfuel⟩ := exists_fuel hreads
  rw [readMessage_eq, hfuel, readMessageFrom_text hreads (wireLines_ne_dot message)
    (by simpa using hsize), readMessageFrom_dot hdot rfl, flatMap_readLine_wireLines]
  rfl

theorem payload_whole_gives (message written : Bytes) :
  (Wire.mk (Reader.whole (payload message)) written).reader.Gives (payload message ++ [])
  := by
  rw [List.append_nil]
  apply whole_gives

theorem readsAll_whole (message : Bytes) :
  ReadsAll (Reader.whole (payload message)) (wireLines message) ⟨dotLine, []⟩
  := by
  have hreads := readsAll_buffer (wireLines_ended message) dotLine []
  rw [← payload_eq_wireLines] at hreads
  exact hreads

theorem size_of_roundTrips (h : RoundTrips message) :
  (wireLines message).flatten.length ≤ MAX_MESSAGE_BYTES
  := by
  by_contra hlarge
  obtain ⟨wire', hread, -⟩ := h [] ⟨Reader.whole (payload message), []⟩ (payload_whole_gives _ _)
  rw [readMessage_eq] at hread
  apply readMessageFrom_large (readsAll_whole message) (wireLines_ne_dot message) (Nat.zero_le _) _
    (congrArg Prod.fst hread)
  rw [Nat.zero_add]
  exact Nat.lt_of_not_le hlarge

theorem trimEol_of_roundTrips (h : RoundTrips message) :
  ∀ line ∈ splitInclusive message, trimEol line = lineBody line
  := by
  obtain ⟨wire', hread, -⟩ := h [] ⟨Reader.whole (payload message), []⟩ (payload_whole_gives _ _)
  have hdot : readLineCapped MAX_LINE_BYTES ⟨dotLine, []⟩ = (.ok dotLine, ⟨[], []⟩) := rfl
  rw [readMessage_of_reads (readsAll_whole message) hdot (size_of_roundTrips h)] at hread
  have heq := Body.message.inj (Except.ok.inj (congrArg Prod.fst hread))
  exact eq_of_flatMap_eq trimEol_prefix_lineBody heq

/-- A line that is too long is refused if it comes without its line feed first. -/
theorem short_of_roundTrips (h : RoundTrips message) :
  ∀ line ∈ splitInclusive message, (stuff (trimEol line)).length + 1 ≤ MAX_LINE_BYTES
  := by
  intro line hline
  by_contra hlong
  obtain ⟨before, after, hlines⟩ := List.append_of_mem (List.mem_map_of_mem (f := wireLine) hline)
  have hlength : (wireLine line).length = (stuff (trimEol line)).length + 2 := by
    rw [wireLine, List.length_append]
    rfl
  have hcut : cutLine ((wireLine line).take (MAX_LINE_BYTES + 1)) = none := by
    have hbody : wireLine line = (stuff (trimEol line) ++ [0x0D]) ++ [0x0A] := by
      simp [wireLine, CRLF]
    obtain ⟨body, hfeed, heq⟩ := wireLine_ended hline
    obtain ⟨rfl, -⟩ := List.append_inj' (heq.symm.trans hbody) rfl
    rw [cutLine_eq_none, hbody, List.take_append_of_le_length
      (by rw [List.length_append, List.length_singleton]; omega)]
    intro hmem
    exact hfeed (List.mem_of_mem_take hmem)
  -- the first bytes of the line in one chunk with what comes before, and the others in another
  obtain ⟨others, hothers⟩ : ∃ others,
      others = (wireLine line).drop (MAX_LINE_BYTES + 1) ++ (after.flatten ++ dotLine) := ⟨_, rfl⟩
  have hgives : (Reader.mk (before.flatten ++ (wireLine line).take (MAX_LINE_BYTES + 1))
      [.ok others]).Gives (payload message ++ []) := by
    constructor
    · intro fill hfill
      rw [List.mem_singleton.mp hfill, hothers]
      simp [IsChunk, dotLine]
    · rw [payload_eq_wireLines, wireLines, hlines]
      simp only [Reader.bytes, bytesOf, hothers, List.flatMap_singleton, List.flatten_append,
        List.flatten_cons, List.append_assoc, List.append_nil]
      rw [← List.append_assoc ((wireLine line).take _), List.take_append_drop]
  obtain ⟨wire', hread, -⟩ := h [] ⟨_, []⟩ hgives
  have hmem : ∀ l ∈ before, l ∈ wireLines message := by
    intro l hl
    rw [wireLines, hlines]
    exact List.mem_append_left _ hl
  have hreads := readsAll_buffer (fun l hl => wireLines_ended message l (hmem l hl))
    ((wireLine line).take (MAX_LINE_BYTES + 1)) [.ok others]
  have hsize : 0 + before.flatten.length ≤ MAX_MESSAGE_BYTES := by
    have hall := size_of_roundTrips h
    rw [wireLines, hlines, List.flatten_append, List.length_append] at hall
    omega
  have hrefused := @readLineCapped_of_long MAX_LINE_BYTES _ [.ok others] hcut
    (by rw [List.length_take]; omega)
  obtain ⟨fuel, hfuel⟩ := exists_fuel hreads
  rw [readMessage_eq, hfuel, readMessageFrom_text hreads
    (fun l hl => wireLines_ne_dot message l (hmem l hl)) hsize, readMessageFrom, hrefused] at hread
  cases congrArg Prod.fst hread

/-- A message is read as it was written just if it may be sent. -/
theorem roundTrips_iff_sendable :
  RoundTrips message ↔ Sendable message
  := by
  constructor
  · intro h
    constructor
    · intro line hline
      exact (trimEol_eq_lineBody hline).mp (trimEol_of_roundTrips h line hline)
    · exact short_of_roundTrips h
    · exact size_of_roundTrips h
  · intro h following wire hgives
    rw [payload_eq_wireLines, List.append_assoc] at hgives
    have hbounded : ∀ line ∈ wireLines message, Ended line ∧ line.length ≤ MAX_LINE_BYTES + 1 := by
      intro line hline
      constructor
      · exact wireLines_ended message line hline
      · obtain ⟨line, hmem, rfl⟩ := List.mem_map.mp hline
        have := h.short line hmem
        rw [wireLine, List.length_append]
        exact Nat.succ_le_succ this
    obtain ⟨reader₁, hreads, h₁⟩ := readsAll_of_bounded hbounded hgives
    obtain ⟨reader₂, hdot, h₂⟩ := readLineCapped_of_ended dotLine_ended (by decide) h₁
    have hnormal : ((splitInclusive message).flatMap fun line => trimEol line ++ CRLF) =
        normalised message := by
      apply List.flatMap_congr
      intro line hline
      rw [(trimEol_eq_lineBody hline).mpr (h.clean line hline)]
    use ⟨reader₂, wire.written⟩
    constructor
    · rw [← hnormal]
      exact readMessage_of_reads hreads hdot h.size
    · exact h₂

/-! ### Where a message ends -/

/-- A message of the stream is ended by a dot on a line of its own, and by nothing else. -/
def EndsAtDot (stream : Bytes) : Prop :=
  ∀ (wire wire' : Wire) (body : Body), wire.reader.Gives stream →
    wire.readMessage = (.ok body, wire') → body ≠ .eof →
    ∃ text rest, stream = text ++ dotLine ++ rest ∧ (text = [] ∨ CRLF <:+ text) ∧
      wire'.reader.Gives rest

/-- The first line of the stream that is trimmed to a dot ends as the dot does that ends a message,
and so does the line before it, if the line can be read and the text before it is not so large that
the session is abandoned. -/
def ProperlyEnded (stream : Bytes) : Prop :=
  ∀ text line rest, splitInclusive stream = text ++ line :: rest →
    (∀ l ∈ text, trimEol l ≠ [0x2E]) → trimEol line = [0x2E] →
    (Ended line ∨ line.length ≤ MAX_LINE_BYTES) → text.flatten.length ≤ ABORT_MESSAGE_BYTES →
    line = dotLine ∧ (text = [] ∨ CRLF <:+ text.flatten)

variable {stream : Bytes}

theorem readMessage_inv {wire wire' : Wire} {body : Body} (hgives : wire.reader.Gives stream)
    (hread : wire.readMessage = (.ok body, wire')) (hbody : body ≠ .eof) :
  ∃ text line rest, splitInclusive stream = text ++ line :: splitInclusive rest ∧
    (∀ line ∈ text, trimEol line ≠ [0x2E]) ∧ trimEol line = [0x2E] ∧
    (Ended line ∨ line.length ≤ MAX_LINE_BYTES) ∧
    text.flatten.length ≤ ABORT_MESSAGE_BYTES ∧ wire'.reader.Gives rest ∧
    ∀ raw, body = .message raw → raw = text.flatMap readLine
  := by
  rw [readMessage_eq] at hread
  obtain ⟨hfst, rfl⟩ := Prod.mk.inj hread
  have hinv := readMessageFrom_inv hgives (Prod.ext hfst rfl) hbody (Nat.zero_le _)
  simpa only [Nat.zero_add, List.nil_append] using hinv

/-- What one line reads as when it comes whole. -/
theorem readLineCapped_whole {line : Bytes} {rest : List Bytes} (hline : line ≠ [])
    (hended : Ended line ∨ rest = [] ∧ cutLine line = none)
    (hlet : Ended line ∨ line.length ≤ MAX_LINE_BYTES) :
  readLineCapped MAX_LINE_BYTES ⟨line ++ rest.flatten, []⟩ = (.ok line, ⟨rest.flatten, []⟩)
  := by
  by_cases h : Ended line
  · apply readLineCapped_of_cut (cutLine_of_ended h _)
  · obtain ⟨rfl, hcut⟩ := hended.resolve_left h
    have hshort : ¬ MAX_LINE_BYTES < line.length := Nat.not_lt.mpr (hlet.resolve_left h)
    rw [List.flatten_nil, List.append_nil, readLineCapped, if_neg hline, readLineFrom, if_neg hline,
      hcut]
    simp only [List.nil_append]
    rw [if_neg hshort, readLineFrom]

/-- All streams end their messages at a dot just if they are properly ended. -/
theorem endsAtDot_iff_properlyEnded :
  EndsAtDot stream ↔ ProperlyEnded stream
  := by
  constructor
  · intro h text line rest hlines htext hdot hlet hsize
    have hstream := flatten_splitInclusive stream
    rw [hlines, List.flatten_append, List.flatten_cons] at hstream
    have hline : line ≠ [] := by
      rintro rfl
      cases hdot
    have hended : Ended line ∨ rest = [] ∧ cutLine line = none := by
      rcases line_of_splitInclusive hlines with hended | ⟨hrest, hcut, -⟩
      · exact Or.inl hended
      · exact Or.inr ⟨hrest, hcut⟩
    have hreads := readsAll_buffer (ended_of_splitInclusive hlines) (line ++ rest.flatten) []
    rw [hstream] at hreads
    obtain ⟨fuel, hfuel⟩ := exists_fuel hreads
    obtain ⟨body, hbody, hread⟩ := @readMessageFrom_ends fuel 0 false [] _ _ _ _ _
      hreads htext (readLineCapped_whole hline hended hlet) hdot
      (by rw [Nat.zero_add]; exact hsize)
    obtain ⟨text', rest', hstream', htext', hrest'⟩ :=
      h ⟨Reader.whole stream, []⟩ ⟨⟨rest.flatten, []⟩, []⟩ body (whole_gives stream)
        (by rw [readMessage_eq, Reader.whole, hfuel, hread]) hbody
    have hbytes : rest.flatten = rest' := by
      have := hrest'.bytes
      simpa [Reader.bytes] using this
    -- both texts are split into the same lines
    rw [← hstream, hbytes, ← List.append_assoc] at hstream'
    have heq := congrArg splitInclusive (List.append_cancel_right hstream')
    have hsplit : splitInclusive (text.flatten ++ line) = text ++ [line] := by
      rw [splitInclusive_lines (ended_of_splitInclusive hlines), splitInclusive_line hlines]
    have hsplit' : splitInclusive (text' ++ dotLine) = splitInclusive text' ++ [dotLine] := by
      have hall : ∀ l ∈ splitInclusive text', Ended l := by
        rcases htext' with rfl | hcrlf
        · simp [splitInclusive]
        · exact ended_of_text (List.IsSuffix.trans ⟨[0x0D], rfl⟩ hcrlf)
      conv_lhs => rw [← flatten_splitInclusive text']
      rw [splitInclusive_lines hall]
      rfl
    rw [hsplit, hsplit'] at heq
    obtain ⟨rfl, hlast⟩ := List.append_inj' heq rfl
    constructor
    · exact List.singleton_inj.mp hlast
    · rw [flatten_splitInclusive]
      rcases htext' with rfl | hcrlf
      · exact Or.inl rfl
      · exact Or.inr hcrlf
  · intro h wire wire' body hgives hread hbody
    obtain ⟨text, line, rest, hlines, htext, hdot, hlet, hsize, hrest, -⟩ :=
      readMessage_inv hgives hread hbody
    obtain ⟨rfl, hend⟩ := h text line (splitInclusive rest) hlines htext hdot hlet hsize
    use text.flatten, rest
    refine ⟨?_, ?_, hrest⟩
    · have hstream := flatten_splitInclusive stream
      rw [hlines, List.flatten_append, List.flatten_cons, flatten_splitInclusive] at hstream
      rw [← hstream, List.append_assoc]
    · rcases hend with rfl | hend
      · exact Or.inl rfl
      · exact Or.inr hend

/-! ### What is accepted is sent on unchanged -/

/-- A line that is read has no line end but at its end. -/
theorem readLine_body {stream line : Bytes} (hline : line ∈ splitInclusive stream)
    (hdot : trimEol line ≠ [0x2E]) :
  0x0A ∉ unstuff (trimEol line) ∧ Trimmed (unstuff (trimEol line))
  := by
  have hfeed := not_mem_trimEol hline
  have htrimmed := trimEol_trimmed line
  rw [unstuff]
  split
  · rename_i hhead
    rcases htrim : trimEol line with _ | ⟨b, _ | ⟨c, l⟩⟩
    all_goals rw [htrim] at hhead hdot hfeed htrimmed
    · cases hhead
    · obtain rfl := Option.some.inj hhead
      contradiction
    · constructor
      · intro hmem
        exact hfeed (List.mem_cons_of_mem _ hmem)
      · intro d hd
        apply htrimmed
        rw [List.getLast?_cons_cons]
        exact hd
  · exact ⟨hfeed, htrimmed⟩

/-- What is accepted is sent on with its lines dot-stuffed, and no byte of it changed. -/
theorem payload_of_readMessage {wire wire' : Wire} {raw : Bytes} (hgives : wire.reader.Gives stream)
    (hread : wire.readMessage = (.ok (.message raw), wire')) :
  payload raw = stuffed raw ++ dotLine
  := by
  obtain ⟨text, line, rest, hlines, htext, -, -, -, -, hraw⟩ :=
    readMessage_inv hgives hread (by simp)
  obtain rfl := hraw raw rfl
  have hbody : ∀ l ∈ text, 0x0A ∉ unstuff (trimEol l) ∧ Trimmed (unstuff (trimEol l)) := by
    intro l hl
    apply @readLine_body stream l _ (htext l hl)
    rw [hlines]
    exact List.mem_append_left _ hl
  have hsplit : splitInclusive (text.flatMap readLine) = text.map readLine := by
    have hall : ∀ l ∈ text.map readLine, Ended l := by
      intro l hl
      obtain ⟨l, hmem, rfl⟩ := List.mem_map.mp hl
      use unstuff (trimEol l) ++ [0x0D]
      constructor
      · simpa using (hbody l hmem).1
      · simp [readLine, CRLF]
    have := splitInclusive_lines hall []
    rw [List.append_nil, ← List.flatMap_def] at this
    rw [this, splitInclusive, List.append_nil]
  rw [payload_eq, stuffed, hsplit, List.flatMap_map, List.flatMap_map]
  congr 1
  apply List.flatMap_congr
  intro l hl
  have hhead : (readLine l).head? = some 0x2E ↔ (unstuff (trimEol l)).head? = some 0x2E := by
    rw [readLine]
    cases unstuff (trimEol l) with
    | nil => decide
    | cons b l => simp
  have htrim : trimEol (readLine l) = unstuff (trimEol l) :=
    trimEol_append (hbody l hl).2 eol_crlf
  simp only [wireLine, stuff, htrim, hhead]
  rw [List.append_assoc]
  rfl

/-! ### Both -/

/-- A message is read as it was written just if no carriage return stands before a line end and its
sizes allow it; a message of a client ends at a dot on a line of its own just if the first line that
is trimmed to a dot is one; and what is accepted of a client is sent on unchanged. -/
theorem body_transparency_iff (message stream : Bytes) :
  (RoundTrips message ↔ Sendable message) ∧
    (EndsAtDot stream ↔ ProperlyEnded stream) ∧
    ∀ (wire wire' : Wire) (raw : Bytes), wire.reader.Gives stream →
      wire.readMessage = (.ok (.message raw), wire') → payload raw = stuffed raw ++ dotLine
  := by
  refine ⟨?_, ?_, ?_⟩
  · apply roundTrips_iff_sendable
  · apply endsAtDot_iff_properlyEnded
  · intro wire wire' raw
    apply payload_of_readMessage

/-- A dot between two bare line feeds ends a message, and what follows it is a command. -/
theorem bare_feed_ends_message :
  ¬ EndsAtDot (asBytes "Hi\n.\nQUIT\r\n")
  := by
  intro h
  have hread : (Wire.mk (Reader.whole (asBytes "Hi\n.\nQUIT\r\n")) []).readMessage.1 =
      .ok (.message (asBytes "Hi\r\n")) := by decide +kernel
  obtain ⟨text, rest, hstream, -⟩ := h _ _ _ (whole_gives _) (Prod.ext hread rfl) (by simp)
  have hdot : ¬ dotLine <:+: asBytes "Hi\n.\nQUIT\r\n" := by decide +kernel
  exact hdot ⟨text, rest, hstream.symm⟩

end Filtermail
