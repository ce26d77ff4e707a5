import Noombat.Text

/-!
# One end of an SMTP conversation

A wire reads from a buffered stream and writes bytes.  The stream is the list of what the
reads of the socket will give, chunks of any size and errors; at the end of the list, and
wherever a chunk is empty, the stream has ended.
-/

namespace Filtermail

open Text

/-- Longest single SMTP line accepted. -/
def MAX_LINE_BYTES : Nat := 65536

/-- Largest message the filter will buffer. -/
def MAX_MESSAGE_BYTES : Nat := 64 * 1024 * 1024

/-- The size at which a session is abandoned rather than drained. -/
def ABORT_MESSAGE_BYTES : Nat := 256 * 1024 * 1024

/-! ### Errors -/

inductive ErrorKind where
  | brokenPipe
  | connectionReset
  | connectionAborted
  | unexpectedEof
  | interrupted
  | invalidData
  | other
  deriving DecidableEq, Repr

structure IoError where
  kind : ErrorKind
  message : String
  deriving DecidableEq, Repr

/-- Whether an error is just the other end having gone away. -/
def isDisconnect (e : IoError) : Bool :=
  match e.kind with
  | .brokenPipe | .connectionReset | .connectionAborted | .unexpectedEof => true
  | _ => false

/-! ### Reading lines -/

/-- A buffered reader: the bytes it holds, and what the reads of its stream will give. -/
structure Reader where
  buffer : Bytes
  fills : List (Except IoError Bytes)

/-- A chunk up to its first line feed, and the rest of it. -/
def cutLine : Bytes → Option (Bytes × Bytes)
  | [] => none
  | b :: bs =>
      if b = 0x0A then some ([b], bs)
      else (cutLine bs).map fun (line, rest) => (b :: line, rest)

/-- Read on after the bytes `out` of a line, from the given fills of the buffer. -/
def readLineFrom (cap : Nat) (out : Bytes) :
    List (Except IoError Bytes) → Except IoError Bytes × Reader
  | [] => (.ok out, ⟨[], []⟩)
  | .error e :: fills =>
      if e.kind = .interrupted then readLineFrom cap out fills else (.error e, ⟨[], fills⟩)
  | .ok available :: fills =>
      if available = [] then (.ok out, ⟨[], fills⟩)
      else
        match cutLine available with
        | some (line, rest) => (.ok (out ++ line), ⟨rest, fills⟩)
        | none =>
            if cap < (out ++ available).length then
              (.error ⟨.invalidData, "SMTP line exceeded the length limit"⟩, ⟨[], fills⟩)
            else readLineFrom cap (out ++ available) fills

/-- Read one line, its terminator included.  The line is empty at the end of the
stream. -/
def readLineCapped (cap : Nat) (reader : Reader) : Except IoError Bytes × Reader :=
  if reader.buffer = [] then readLineFrom cap [] reader.fills
  else readLineFrom cap [] (.ok reader.buffer :: reader.fills)

/-- The line without the carriage returns and line feeds at its end. -/
def trimEol (line : Bytes) : Bytes :=
  (line.reverse.dropWhile fun b => b == 0x0A || b == 0x0D).reverse

/-- An SMTP reply, kept whole so it can be relayed byte for byte. -/
structure Reply where
  code : Nat
  raw : Bytes
  deriving DecidableEq, Repr

/-- The capability lines of an EHLO reply: everything after the greeting line. -/
def Reply.capabilities (reply : Reply) : List String :=
  ((lines (fromUtf8Lossy reply.raw)).drop 1).filterMap (fromByte 4) |>.filter (· ≠ "")

/-- The code of the last line of a reply. -/
def replyCode (trimmed : Bytes) : Nat :=
  if 3 ≤ trimmed.length then (parseU16 (trimmed.take 3)).getD 0 else 0

/-- Read on after the lines `raw` of a reply, for at most `fuel` lines. -/
def replyFrom (fuel : Nat) (raw : Bytes) (reader : Reader) : Except IoError Reply × Reader :=
  match fuel with
  | 0 => (.error ⟨.unexpectedEof, "the peer closed the connection mid-reply"⟩, reader)
  | fuel + 1 =>
      match readLineCapped MAX_LINE_BYTES reader with
      | (.error e, reader) => (.error e, reader)
      | (.ok [], reader) =>
          (.error ⟨.unexpectedEof, "the peer closed the connection mid-reply"⟩, reader)
      | (.ok line, reader) =>
          let raw := raw ++ line
          let trimmed := trimEol line
          -- a hyphen in the fourth column marks a continuation
          if trimmed[3]? = some 0x2D then replyFrom fuel raw reader
          else (.ok ⟨replyCode trimmed, raw⟩, reader)

/-- The number of bytes a reader may still give. -/
def Reader.remaining (reader : Reader) : Nat :=
  reader.buffer.length +
    (reader.fills.map fun | .ok chunk => chunk.length | .error _ => 0).sum

/-- What came back from the client after `354`. -/
inductive Body where
  | message (raw : Bytes)
  | tooLarge
  | eof
  deriving DecidableEq, Repr

/-- Read on after the part `message` of a message, of which `seen` bytes were read, for at
most `fuel` lines. -/
def readMessageFrom (fuel seen : Nat) (oversize : Bool) (message : Bytes) (reader : Reader) :
    Except IoError Body × Reader :=
  match fuel with
  | 0 => (.ok .eof, reader)
  | fuel + 1 =>
      match readLineCapped MAX_LINE_BYTES reader with
      | (.error e, reader) => (.error e, reader)
      | (.ok [], reader) => (.ok .eof, reader)
      | (.ok line, reader) =>
          let trimmed := trimEol line
          if trimmed = asBytes "." then
            (.ok (if oversize then .tooLarge else .message message), reader)
          else
            let seen := seen + line.length
            if ABORT_MESSAGE_BYTES < seen then
              (.error ⟨.invalidData, "message exceeded the abort threshold"⟩, reader)
            else if MAX_MESSAGE_BYTES < seen then
              readMessageFrom fuel seen true message reader
            else
              let payload := if trimmed.head? = some 0x2E then trimmed.drop 1 else trimmed
              readMessageFrom fuel seen oversize (message ++ payload ++ asBytes "\r\n") reader

/-! ### Writing -/

/-- A message as SMTP payload: dot-stuffed, and terminated by a lone dot. -/
def payload (message : Bytes) : Bytes :=
  ((splitInclusive message).flatMap fun line =>
    let line := trimEol line
    (if line.head? = some 0x2E then asBytes "." else []) ++ line ++ asBytes "\r\n") ++
  asBytes ".\r\n"

/-- How the writes of one call went: all of them, or an error after some of the bytes. -/
inductive Writes where
  | all
  | failed (n : Nat) (e : IoError)

/-- One end of an SMTP conversation: what it reads from and the bytes it has written. -/
structure Wire where
  reader : Reader
  written : Bytes

namespace Wire

/-- Read one line, `none` at the end of the stream. -/
def line (wire : Wire) : Except IoError (Option Bytes) × Wire :=
  match readLineCapped MAX_LINE_BYTES wire.reader with
  | (.error e, reader) => (.error e, { wire with reader })
  | (.ok [], reader) => (.ok none, { wire with reader })
  | (.ok line, reader) => (.ok (some line), { wire with reader })

/-- Read a complete reply, continuation lines included. -/
def reply (wire : Wire) : Except IoError Reply × Wire :=
  let (r, reader) := replyFrom (wire.reader.remaining + 1) [] wire.reader
  (r, { wire with reader })

/-- Read the message that follows `354`, undoing dot-stuffing and normalising line
endings. -/
def readMessage (wire : Wire) : Except IoError Body × Wire :=
  let (r, reader) := readMessageFrom (wire.reader.remaining + 1) 0 false [] wire.reader
  (r, { wire with reader })

def sendRaw (bytes : Bytes) (writes : Writes) (wire : Wire) : Except IoError Unit × Wire :=
  match writes with
  | .all => (.ok (), { wire with written := wire.written ++ bytes })
  | .failed n e => (.error e, { wire with written := wire.written ++ bytes.take n })

def sendLine (line : String) (writes : Writes) (wire : Wire) : Except IoError Unit × Wire :=
  wire.sendRaw (asBytes line ++ asBytes "\r\n") writes

/-- Write a buffered message as SMTP payload. -/
def sendMessage (message : Bytes) (writes : Writes) (wire : Wire) :
    Except IoError Unit × Wire :=
  wire.sendRaw (payload message) writes

end Wire

/-! ### Reading makes progress -/

theorem cutLine_length {chunk line rest : Bytes} :
  cutLine chunk = some (line, rest) →
  line ≠ [] ∧ line.length + rest.length = chunk.length
  := by
  induction chunk generalizing line with
  | nil => simp [cutLine]
  | cons b bs ih =>
      intro h
      rw [cutLine] at h
      split at h
      · obtain ⟨rfl, rfl⟩ := Prod.mk.inj (Option.some.inj h)
        simp [Nat.add_comm]
      · obtain ⟨⟨line', rest'⟩, h', h⟩ := Option.map_eq_some_iff.mp h
        obtain ⟨rfl, rfl⟩ := Prod.mk.inj h
        obtain ⟨_, hlen⟩ := ih h'
        simp only [List.length_cons]
        constructor
        · simp
        · omega

/-- A line read takes its bytes from the reader, apart from those it had before, and reading
never adds to what the reader may still give. -/
theorem readLineFrom_remaining {cap : Nat} {out : Bytes} {fills : List (Except IoError Bytes)} :
  ((readLineFrom cap out fills).1.toOption.getD out).length +
    (readLineFrom cap out fills).2.remaining ≤ out.length + Reader.remaining ⟨[], fills⟩
  := by
  induction fills generalizing out with
  | nil => simp [readLineFrom, Except.toOption, Reader.remaining]
  | cons fill fills ih =>
      rcases fill with e | available
      · rw [readLineFrom]
        split
        · simpa [Reader.remaining] using ih
        · simp [Reader.remaining, Except.toOption]
      · rw [readLineFrom]
        split
        · simp_all [Reader.remaining, Except.toOption]
        · split
          · rename_i hcut
            have := cutLine_length hcut
            simp only [Reader.remaining, Except.toOption, Option.getD_some, List.length_append,
              List.map_cons, List.sum_cons, List.length_nil]
            omega
          · split
            · simp [Reader.remaining, Except.toOption]
            · have := @ih (out ++ available)
              rcases hread : readLineFrom cap (out ++ available) fills with ⟨e | line, reader⟩
              all_goals
                rw [hread] at this
                simp only [Reader.remaining, Except.toOption, Option.getD_some, Option.getD_none,
                  List.length_append, List.map_cons, List.sum_cons, List.length_nil] at this ⊢
                omega

theorem readLineCapped_getD_remaining {cap : Nat} {reader : Reader} :
  ((readLineCapped cap reader).1.toOption.getD []).length +
    (readLineCapped cap reader).2.remaining ≤ reader.remaining
  := by
  rw [readLineCapped]
  split
  · rename_i hbuffer
    simpa [Reader.remaining, hbuffer] using @readLineFrom_remaining cap [] reader.fills
  · simpa [Reader.remaining] using
      @readLineFrom_remaining cap [] (.ok reader.buffer :: reader.fills)

theorem readLineCapped_remaining {cap : Nat} {line : Bytes} {reader reader' : Reader}
    (h : readLineCapped cap reader = (.ok line, reader')) :
  line.length + reader'.remaining ≤ reader.remaining
  := by
  simpa [h, Except.toOption] using @readLineCapped_getD_remaining cap reader

/-- A reply is read whole: there is never one more line to read than there is fuel. -/
theorem replyFrom_fuel {fuel : Nat} {raw : Bytes} {reader : Reader} :
  reader.remaining < fuel →
  replyFrom (fuel + 1) raw reader = replyFrom fuel raw reader
  := by
  induction fuel generalizing raw reader with
  | zero => simp
  | succ fuel ih =>
      intro h
      rw [replyFrom, replyFrom]
      rcases hline : readLineCapped MAX_LINE_BYTES reader with ⟨e | line, reader'⟩
      · rfl
      · cases line with
        | nil => rfl
        | cons b line =>
            have := readLineCapped_remaining hline
            simp only [List.length_cons] at this
            simp only
            rw [ih (by omega)]

/-- A message is read to its end: there is never one more line to read than there is
fuel. -/
theorem readMessageFrom_fuel {fuel seen : Nat} {oversize : Bool} {message : Bytes}
    {reader : Reader} :
  reader.remaining < fuel →
  readMessageFrom (fuel + 1) seen oversize message reader =
    readMessageFrom fuel seen oversize message reader
  := by
  induction fuel generalizing seen oversize message reader with
  | zero => simp
  | succ fuel ih =>
      intro h
      rw [readMessageFrom, readMessageFrom]
      rcases hline : readLineCapped MAX_LINE_BYTES reader with ⟨e | line, reader'⟩
      · rfl
      · cases line with
        | nil => rfl
        | cons b line =>
            have := readLineCapped_remaining hline
            simp only [List.length_cons] at this
            have hfuel : reader'.remaining < fuel := by omega
            simp only [ih hfuel]

theorem readMessageFrom_remaining_le {fuel seen : Nat} {oversize : Bool} {message : Bytes}
    {reader : Reader} :
  (readMessageFrom fuel seen oversize message reader).2.remaining ≤ reader.remaining
  := by
  induction fuel generalizing seen oversize message reader with
  | zero => exact Nat.le_refl _
  | succ fuel ih =>
      have hline := Nat.le_trans (Nat.le_add_left _ _)
        (@readLineCapped_getD_remaining MAX_LINE_BYTES reader)
      rw [readMessageFrom]
      rcases hread : readLineCapped MAX_LINE_BYTES reader with ⟨e | line, reader'⟩
      all_goals rw [hread] at hline
      · exact hline
      · cases line with
        | nil => exact hline
        | cons b line =>
            simp only
            split
            · exact hline
            · split
              · exact hline
              · split
                · exact Nat.le_trans ih hline
                · exact Nat.le_trans ih hline

end Filtermail
