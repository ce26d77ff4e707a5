import Noombat.Filtermail.Wire

/-!
# Lines with a ceiling, over every chunking

What a read of a line gives depends on the stream and on where its chunks end.  `Reading` says
what one read of a stream may give, whatever the chunks.  A chunk with a line feed in it is not
measured, so a line that is too long is returned by some chunkings and refused by others; the
chunkings agree on a stream just if it has no such line.
-/

namespace Filtermail

/-! ### Streams in chunks -/

/-- Whether a fill of the buffer brings bytes, or else was only interrupted. -/
def IsChunk : Except IoError Bytes → Prop
  | .ok chunk => chunk ≠ []
  | .error e => e.kind = .interrupted

/-- The bytes of a fill. -/
def bytesOf : Except IoError Bytes → Bytes
  | .ok chunk => chunk
  | .error _ => []

/-- The bytes that a reader has still to give. -/
def Reader.bytes (reader : Reader) : Bytes :=
  reader.buffer ++ reader.fills.flatMap bytesOf

/-- The reader gives the bytes of the stream, in chunks of any size, and then its end. -/
structure Reader.Gives (reader : Reader) (stream : Bytes) : Prop where
  chunks : ∀ fill ∈ reader.fills, IsChunk fill
  bytes : reader.bytes = stream

/-- The error for a line that is too long. -/
def tooLong : IoError :=
  ⟨.invalidData, "SMTP line exceeded the length limit"⟩

/-- What a read of a stream may give, and what is left of the stream after it. -/
inductive Reading (cap : Nat) (stream : Bytes) : Except IoError Bytes → Bytes → Prop where
  /-- A line with its line feed. -/
  | line {line rest : Bytes} (cut : cutLine stream = some (line, rest)) :
      Reading cap stream (.ok line) rest
  /-- All of the stream. -/
  | last (unended : cutLine stream = none) (short : stream.length ≤ cap) :
      Reading cap stream (.ok stream) []
  /-- Nothing, after more bytes of one line than there may be. -/
  | tooLong {taken rest : Bytes} (bytes : stream = taken ++ rest) (within : cutLine taken = none)
      (long : cap < taken.length) :
      Reading cap stream (.error tooLong) rest

/-! ### Cutting a line off -/

/-- A line that is cut off ends with the first line feed. -/
theorem cutLine_eq_some {stream line rest : Bytes} :
  cutLine stream = some (line, rest) ↔
    ∃ body, 0x0A ∉ body ∧ line = body ++ [0x0A] ∧ stream = body ++ 0x0A :: rest
  := by
  induction stream generalizing line with
  | nil => simp [cutLine]
  | cons b bs ih =>
      rw [cutLine]
      split
      · rename_i hb
        subst hb
        constructor
        · intro h
          obtain ⟨rfl, rfl⟩ := Prod.mk.inj (Option.some.inj h)
          use []
          simp
        · rintro ⟨body, hbody, rfl, h⟩
          cases body with
          | nil =>
              obtain ⟨-, rfl⟩ := List.cons.inj h
              rfl
          | cons c body =>
              obtain ⟨rfl, -⟩ := List.cons.inj h
              simp at hbody
      · rename_i hb
        constructor
        · intro h
          obtain ⟨⟨line', rest'⟩, h', h⟩ := Option.map_eq_some_iff.mp h
          obtain ⟨rfl, rfl⟩ := Prod.mk.inj h
          obtain ⟨body, hbody, rfl, rfl⟩ := ih.mp h'
          use b :: body
          simp [hbody, Ne.symm hb]
        · rintro ⟨body, hbody, rfl, h⟩
          cases body with
          | nil => exact absurd (List.cons.inj h).1 hb
          | cons c body =>
              obtain ⟨rfl, rfl⟩ := List.cons.inj h
              rw [ih.mpr ⟨body, fun hmem => hbody (List.mem_cons_of_mem _ hmem), rfl, rfl⟩]
              rfl

theorem cutLine_eq_none {stream : Bytes} :
  cutLine stream = none ↔ 0x0A ∉ stream
  := by
  induction stream with
  | nil => simp [cutLine]
  | cons b bs ih =>
      rw [cutLine]
      split
      · rename_i hb
        simp [hb]
      · rename_i hb
        simp [ih, Ne.symm hb]

theorem cutLine_append_of_none {bs stream : Bytes} (h : cutLine bs = none) :
  cutLine (bs ++ stream) = (cutLine stream).map fun (line, rest) => (bs ++ line, rest)
  := by
  rw [cutLine_eq_none] at h
  cases hstream : cutLine stream with
  | none =>
      rw [cutLine_eq_none] at hstream
      apply cutLine_eq_none.mpr
      simp [h, hstream]
  | some parts =>
      obtain ⟨line, rest⟩ := parts
      obtain ⟨body, hbody, rfl, rfl⟩ := cutLine_eq_some.mp hstream
      apply cutLine_eq_some.mpr
      use bs ++ body
      simp [h, hbody]

theorem cutLine_append_of_some {bs stream line rest : Bytes} (h : cutLine bs = some (line, rest)) :
  cutLine (bs ++ stream) = some (line, rest ++ stream)
  := by
  obtain ⟨body, hbody, rfl, rfl⟩ := cutLine_eq_some.mp h
  apply cutLine_eq_some.mpr
  use body
  simp [hbody]

theorem append_of_cutLine {stream line rest : Bytes} (h : cutLine stream = some (line, rest)) :
  line ++ rest = stream
  := by
  obtain ⟨body, -, rfl, rfl⟩ := cutLine_eq_some.mp h
  simp

/-! ### One read -/

/-- A read that has the bytes `out` of a line, none of them a line feed, goes on as a read of
all of the stream would. -/
theorem reading_readLineFrom {cap : Nat} {out : Bytes} {fills : List (Except IoError Bytes)}
    (hout : cutLine out = none) (hshort : out.length ≤ cap)
    (hchunks : ∀ fill ∈ fills, IsChunk fill) :
  Reading cap (out ++ fills.flatMap bytesOf) (readLineFrom cap out fills).1
      (readLineFrom cap out fills).2.bytes ∧
    ∀ fill ∈ (readLineFrom cap out fills).2.fills, IsChunk fill
  := by
  induction fills generalizing out with
  | nil =>
      rw [readLineFrom, List.flatMap_nil, List.append_nil]
      constructor
      · apply Reading.last hout hshort
      · simp
  | cons fill fills ih =>
      have hfills : ∀ fill ∈ fills, IsChunk fill :=
        fun f hf => hchunks f (List.mem_cons_of_mem _ hf)
      have hfill := hchunks fill List.mem_cons_self
      rw [List.flatMap_cons]
      rcases fill with e | available
      · have hinterrupted : e.kind = .interrupted := hfill
        rw [readLineFrom, if_pos hinterrupted]
        apply ih hout hshort hfills
      · have hsome : available ≠ [] := hfill
        rw [readLineFrom, if_neg hsome]
        change Reading cap (out ++ (available ++ _)) _ _ ∧ _
        rw [← List.append_assoc]
        cases hcut : cutLine available with
        | some parts =>
            obtain ⟨line, rest⟩ := parts
            constructor
            · apply Reading.line
              apply cutLine_append_of_some
              rw [cutLine_append_of_none hout, hcut]
              rfl
            · apply hfills
        | none =>
            have hwithin : cutLine (out ++ available) = none := by
              rw [cutLine_append_of_none hout, hcut]
              rfl
            simp only
            split
            · rename_i hlong
              constructor
              · exact Reading.tooLong rfl hwithin hlong
              · apply hfills
            · rename_i hlong
              apply ih hwithin (Nat.le_of_not_lt hlong) hfills

/-- What a read of a line gives, and that the reader goes on with what is left of the stream. -/
theorem reading_readLineCapped (cap : Nat) {reader : Reader} {stream : Bytes}
    (h : reader.Gives stream) :
  ∃ rest, Reading cap stream (readLineCapped cap reader).1 rest ∧
    (readLineCapped cap reader).2.Gives rest
  := by
  obtain ⟨hchunks, rfl⟩ := h
  rw [readLineCapped, Reader.bytes]
  split
  · rename_i hbuffer
    rw [hbuffer]
    have hread := @reading_readLineFrom cap [] reader.fills rfl (Nat.zero_le _) hchunks
    exact ⟨_, hread.1, hread.2, rfl⟩
  · rename_i hbuffer
    have hfills : ∀ fill ∈ Except.ok reader.buffer :: reader.fills, IsChunk fill := by
      rintro fill (_ | ⟨_, hfill⟩)
      · exact hbuffer
      · exact hchunks fill hfill
    have hread := @reading_readLineFrom cap [] _ rfl (Nat.zero_le _) hfills
    exact ⟨_, hread.1, hread.2, rfl⟩

/-! ### All reads of a stream -/

/-- What the reads of a reader give until one is at the end of the stream, the end included, for
at most `fuel` reads. -/
def readAll (cap : Nat) : Nat → Reader → List (Except IoError Bytes)
  | 0, _ => []
  | fuel + 1, reader =>
      match readLineCapped cap reader with
      | (.ok [], _) => [.ok []]
      | (r, reader) => r :: readAll cap fuel reader

/-- What the reads of a reader give: each takes at least a byte. -/
def Reader.results (cap : Nat) (reader : Reader) : List (Except IoError Bytes) :=
  readAll cap (reader.bytes.length + 1) reader

/-- What may be read of a stream takes a byte of it, unless it is the end. -/
theorem Reading.length_lt {cap : Nat} {stream rest : Bytes} {r : Except IoError Bytes}
    (h : Reading cap stream r rest) (hr : r ≠ .ok []) :
  rest.length < stream.length
  := by
  cases h with
  | line hcut =>
      have := cutLine_length hcut
      have := List.length_pos_iff.mpr this.1
      omega
  | last =>
      apply List.length_pos_iff.mpr
      rintro rfl
      apply hr rfl
  | tooLong hbytes _ hlong =>
      rw [hbytes, List.length_append]
      omega

/-- All fuel that is enough to read a stream to its end gives the same. -/
theorem readAll_fuel {cap fuel fuel' : Nat} {reader : Reader} {stream : Bytes}
    (h : reader.Gives stream) (hfuel : stream.length < fuel) (hfuel' : stream.length < fuel') :
  readAll cap fuel reader = readAll cap fuel' reader
  := by
  induction fuel generalizing fuel' reader stream with
  | zero => omega
  | succ fuel ih =>
      obtain ⟨fuel', rfl⟩ : ∃ n, fuel' = n + 1 := ⟨fuel' - 1, by omega⟩
      obtain ⟨rest, hread, hrest⟩ := reading_readLineCapped cap h
      rw [readAll, readAll]
      rcases hline : readLineCapped cap reader with ⟨r, reader'⟩
      rw [hline] at hread hrest
      have again (hr : r ≠ .ok []) : readAll cap fuel reader' = readAll cap fuel' reader' := by
        have hlt := hread.length_lt hr
        apply ih hrest
        · omega
        · omega
      rcases r with e | _ | ⟨b, line⟩
      · simp only
        rw [again (by simp)]
      · rfl
      · simp only
        rw [again (by simp)]

/-- The reads of a stream are the first and those of what is left. -/
theorem results_eq {cap : Nat} {reader : Reader} {stream : Bytes} (h : reader.Gives stream) :
  reader.results cap =
    match readLineCapped cap reader with
    | (.ok [], _) => [.ok []]
    | (r, reader) => r :: reader.results cap
  := by
  obtain ⟨rest, hread, hrest⟩ := reading_readLineCapped cap h
  unfold Reader.results
  rw [readAll, h.bytes]
  rcases hline : readLineCapped cap reader with ⟨r, reader'⟩
  rw [hline] at hread hrest
  have again (hr : r ≠ .ok []) :
      readAll cap stream.length reader' = readAll cap (reader'.bytes.length + 1) reader' := by
    have hlt := hread.length_lt hr
    apply readAll_fuel hrest hlt
    rw [hrest.bytes]
    apply Nat.lt_succ_self
  rcases r with e | _ | ⟨b, line⟩
  · simp only
    rw [again (by simp)]
  · rfl
  · simp only
    rw [again (by simp)]

/-- What the reads of a stream are when a read gives `r` and leaves `rest`. -/
theorem results_of_reading (cap : Nat) {reader : Reader} {stream : Bytes}
    (h : reader.Gives stream) :
  (cutLine stream = none ∧ stream = [] ∧ reader.results cap = [.ok []]) ∨
    ∃ r rest, ∃ reader' : Reader, Reading cap stream r rest ∧ r ≠ .ok [] ∧ reader'.Gives rest ∧
      reader.results cap = r :: reader'.results cap
  := by
  obtain ⟨rest, hread, hrest⟩ := reading_readLineCapped cap h
  rw [results_eq h]
  rcases hline : readLineCapped cap reader with ⟨r, reader'⟩
  rw [hline] at hread hrest
  rcases r with e | _ | ⟨b, line⟩
  · right
    exact ⟨_, rest, reader', hread, by simp, hrest, rfl⟩
  · left
    generalize hr : Except.ok (ε := IoError) ([] : Bytes) = r at hread
    cases hread with
    | line hcut =>
        obtain rfl := Except.ok.inj hr
        exact absurd rfl (cutLine_length hcut).1
    | last hunended =>
        obtain rfl := Except.ok.inj hr
        exact ⟨rfl, rfl, rfl⟩
    | tooLong => cases hr
  · right
    exact ⟨_, rest, reader', hread, by simp, hrest, rfl⟩

/-! ### The claim of the ceiling -/

/-- The chunks of a stream make no difference: all readers that give it read the same lines, none
of them longer than the ceiling, and no byte after what a read took is lost or repeated. -/
structure ReadsAlike (cap : Nat) (stream : Bytes) : Prop where
  same : ∀ reader reader' : Reader, reader.Gives stream → reader'.Gives stream →
    reader.results cap = reader'.results cap
  short : ∀ reader : Reader, reader.Gives stream →
    ∀ line, .ok line ∈ reader.results cap → line.length ≤ cap
  kept : ∀ reader : Reader, reader.Gives stream → ∃ taken rest, stream = taken ++ rest ∧
    (readLineCapped cap reader).2.Gives rest ∧
    match (readLineCapped cap reader).1 with
    | .ok line => taken = line
    | .error _ => 0x0A ∉ taken

/-- No line of the stream is longer than the ceiling, its line feed included, and what comes after
the last line feed is longer by a byte at most. -/
def Bounded (cap : Nat) (stream : Bytes) : Prop :=
  ∀ line ∈ Text.splitInclusive stream,
    line.length ≤ if line.getLast? = some 0x0A then cap else cap + 1

theorem splitInclusive_of_some {stream line rest : Bytes} (h : cutLine stream = some (line, rest)) :
  Text.splitInclusive stream = line :: Text.splitInclusive rest
  := by
  obtain ⟨body, hbody, rfl, rfl⟩ := cutLine_eq_some.mp h
  clear h
  induction body with
  | nil => rfl
  | cons b body ih =>
      obtain ⟨hb, hbody⟩ := not_or.mp (List.mem_cons.not.mp hbody)
      rw [List.cons_append, Text.splitInclusive, if_neg (Ne.symm hb), ih hbody]
      rfl

theorem splitInclusive_of_none {stream : Bytes} (h : cutLine stream = none) (hsome : stream ≠ []) :
  Text.splitInclusive stream = [stream]
  := by
  rw [cutLine_eq_none] at h
  induction stream with
  | nil => contradiction
  | cons b stream ih =>
      obtain ⟨hb, hstream⟩ := not_or.mp (List.mem_cons.not.mp h)
      rw [Text.splitInclusive, if_neg (Ne.symm hb)]
      cases stream with
      | nil => rfl
      | cons c stream => rw [ih hstream (by simp)]

/-- What is read of a stream whose lines are bounded. -/
def linesRead (cap : Nat) (stream : Bytes) : List (Except IoError Bytes) :=
  (Text.splitInclusive stream).map
      (fun line => if line.length ≤ cap then .ok line else .error tooLong) ++
    [.ok []]

/-- A read of a stream whose lines are bounded gives its first line, or refuses its last. -/
theorem linesRead_of_reading {cap : Nat} {stream rest : Bytes} {r : Except IoError Bytes}
    (hbounded : Bounded cap stream) (h : Reading cap stream r rest) (hr : r ≠ .ok []) :
  Bounded cap rest ∧ linesRead cap stream = r :: linesRead cap rest
  := by
  cases h with
  | line hcut =>
      rename_i line
      have hlines := splitInclusive_of_some hcut
      obtain ⟨body, -, rfl, -⟩ := cutLine_eq_some.mp hcut
      constructor
      · intro line hline
        apply hbounded
        rw [hlines]
        apply List.mem_cons_of_mem _ hline
      · have hshort := hbounded _ (by rw [hlines]; apply List.mem_cons_self)
        rw [if_pos (by simp)] at hshort
        rw [linesRead, hlines, List.map_cons, if_pos hshort]
        rfl
  | last hunended hshort =>
      constructor
      · intro line hline
        cases hline
      · have hsome : stream ≠ [] := by
          rintro rfl
          apply hr rfl
        rw [linesRead, splitInclusive_of_none hunended hsome, List.map_singleton, if_pos hshort]
        rfl
  | tooLong hbytes hwithin hlong =>
      rename_i taken
      -- the bytes that were taken are all of the last line
      cases hcut : cutLine rest with
      | some parts =>
          obtain ⟨line, rest'⟩ := parts
          have hcut' : cutLine stream = some (taken ++ line, rest') := by
            rw [hbytes, cutLine_append_of_none hwithin, hcut]
            rfl
          have hlines := splitInclusive_of_some hcut'
          obtain ⟨body, -, rfl, -⟩ := cutLine_eq_some.mp hcut
          have hshort := hbounded _ (by rw [hlines]; apply List.mem_cons_self)
          rw [if_pos (by simp)] at hshort
          simp only [List.length_append] at hshort
          omega
      | none =>
          have hsome : stream ≠ [] := by
            rw [hbytes]
            intro h
            obtain ⟨rfl, -⟩ := List.append_eq_nil_iff.mp h
            simp at hlong
          have hcut' : cutLine stream = none := by
            rw [hbytes, cutLine_append_of_none hwithin, hcut]
            rfl
          have hlines := splitInclusive_of_none hcut' hsome
          have hlength := hbounded stream (by rw [hlines]; apply List.mem_cons_self)
          have hone : stream.length ≤ cap + 1 := by
            split at hlength
            · omega
            · apply hlength
          obtain rfl : rest = [] := by
            apply List.length_eq_zero_iff.mp
            rw [hbytes, List.length_append] at hone
            omega
          constructor
          · intro line hline
            cases hline
          · rw [List.append_nil] at hbytes
            subst hbytes
            rw [linesRead, hlines, List.map_singleton, if_neg (by omega)]
            rfl

/-- A stream whose lines are bounded is read the same in all chunkings. -/
theorem results_of_bounded {cap : Nat} {stream : Bytes} (hbounded : Bounded cap stream)
    {reader : Reader} (h : reader.Gives stream) :
  reader.results cap = linesRead cap stream
  := by
  induction hlength : stream.length using Nat.strongRecOn generalizing stream reader with
  | ind n ih =>
      obtain ⟨-, rfl, hend⟩ | ⟨r, rest, reader', hread, hr, hrest, heq⟩ :=
        results_of_reading cap h
      · exact hend
      · obtain ⟨hbounded', hlines⟩ := linesRead_of_reading hbounded hread hr
        have hlt := hread.length_lt hr
        rw [heq, hlines, ih rest.length (by omega) hbounded' hrest rfl]

/-- The reader that has all of a stream in its buffer. -/
def Reader.whole (stream : Bytes) : Reader :=
  ⟨stream, []⟩

theorem whole_gives (stream : Bytes) :
  (Reader.whole stream).Gives stream
  := by
  constructor
  · simp [Reader.whole]
  · simp [Reader.whole, Reader.bytes]

/-- A line that ends in the buffer is read, however long it is. -/
theorem readLineCapped_of_cut {cap : Nat} {buffer line rest : Bytes}
    {fills : List (Except IoError Bytes)} (h : cutLine buffer = some (line, rest)) :
  readLineCapped cap ⟨buffer, fills⟩ = (.ok line, ⟨rest, fills⟩)
  := by
  have hbuffer : buffer ≠ [] := by
    rintro rfl
    cases h
  rw [readLineCapped, if_neg hbuffer, readLineFrom, if_neg hbuffer, h]
  rfl

/-- Reading on after a line that ends in the buffer. -/
theorem results_of_cut {cap : Nat} {buffer line rest stream : Bytes}
    {fills : List (Except IoError Bytes)} (h : (Reader.mk buffer fills).Gives stream)
    (hcut : cutLine buffer = some (line, rest)) :
  (Reader.mk buffer fills).results cap = .ok line :: (Reader.mk rest fills).results cap
  := by
  rw [results_eq h, readLineCapped_of_cut hcut]
  have hline := (cutLine_length hcut).1
  cases line with
  | nil => contradiction
  | cons b line => rfl

/-- Every line that ends is read from the buffer, whatever its length. -/
theorem mem_results_whole {cap : Nat} {stream line : Bytes}
    (hline : line ∈ Text.splitInclusive stream) (hend : line.getLast? = some 0x0A) :
  .ok line ∈ (Reader.whole stream).results cap
  := by
  induction hlength : stream.length using Nat.strongRecOn generalizing stream with
  | ind n ih =>
      cases hcut : cutLine stream with
      | some parts =>
          obtain ⟨first, rest⟩ := parts
          have hlines := splitInclusive_of_some hcut
          rw [Reader.whole, results_of_cut (whole_gives stream) hcut]
          rw [hlines] at hline
          have hshort := cutLine_length hcut
          have hfirst := List.length_pos_iff.mpr hshort.1
          rcases List.mem_cons.mp hline with rfl | hline
          · apply List.mem_cons_self
          · apply List.mem_cons_of_mem
            exact ih rest.length (by omega) hline rfl
      | none =>
          rw [cutLine_eq_none] at hcut
          cases stream with
          | nil => cases hline
          | cons b stream =>
              rw [splitInclusive_of_none (cutLine_eq_none.mpr hcut) (by simp),
                List.mem_singleton] at hline
              subst hline
              exact absurd (List.mem_of_getLast? hend) hcut

/-- A buffer without a line feed that is too long is refused. -/
theorem readLineCapped_of_long {cap : Nat} {buffer : Bytes}
    {fills : List (Except IoError Bytes)} (hunended : cutLine buffer = none) (hlong : cap < buffer.length) :
  readLineCapped cap ⟨buffer, fills⟩ = (.error tooLong, ⟨[], fills⟩)
  := by
  have hbuffer : buffer ≠ [] := by
    rintro rfl
    simp at hlong
  rw [readLineCapped, if_neg hbuffer, readLineFrom, if_neg hbuffer, hunended]
  exact if_pos hlong

/-- A line that never ends and is too long by more than a byte is refused once if it comes whole,
and is read on if it comes in two chunks. -/
theorem exists_results_ne_of_unended {cap : Nat} {line : Bytes} (hcut : cutLine line = none)
    (hlong : cap + 1 < line.length) :
  ∃ reader : Reader, reader.Gives line ∧ reader.results cap ≠ (Reader.whole line).results cap
  := by
  have hchunks : ∀ fill ∈ [Except.ok (line.drop (cap + 1))], IsChunk fill := by
    intro fill hfill
    rw [List.mem_singleton.mp hfill]
    exact List.ne_nil_of_length_pos (by rw [List.length_drop]; omega)
  have hgives : (Reader.mk (line.take (cap + 1)) [.ok (line.drop (cap + 1))]).Gives line := by
    constructor
    · exact hchunks
    · simp [Reader.bytes, bytesOf]
  have hrest : (Reader.mk [] [.ok (line.drop (cap + 1))]).Gives (line.drop (cap + 1)) := by
    constructor
    · exact hchunks
    · simp [Reader.bytes, bytesOf]
  have htake : cutLine (line.take (cap + 1)) = none := by
    rw [cutLine_eq_none] at hcut ⊢
    intro h
    exact hcut (List.mem_of_mem_take h)
  have hend : (Reader.mk [] []).results cap = [.ok []] := rfl
  use Reader.mk (line.take (cap + 1)) [.ok (line.drop (cap + 1))], hgives
  rw [results_eq hgives, readLineCapped_of_long htake (by rw [List.length_take]; omega),
    results_eq (whole_gives line), Reader.whole, readLineCapped_of_long hcut (by omega)]
  intro h
  have heq := (List.cons.inj h).2
  obtain ⟨-, hnil, -⟩ | ⟨r, rest, reader', -, hr, -, heq'⟩ := results_of_reading cap hrest
  · have := congrArg List.length hnil
    rw [List.length_drop, List.length_nil] at this
    omega
  · rw [heq', hend] at heq
    exact hr (List.cons.inj heq).1

theorem exists_results_ne {cap : Nat} {stream line : Bytes}
    (hline : line ∈ Text.splitInclusive stream) (hend : line.getLast? ≠ some 0x0A)
    (hlong : cap + 1 < line.length) :
  ∃ reader : Reader, reader.Gives stream ∧
    reader.results cap ≠ (Reader.whole stream).results cap
  := by
  induction hlength : stream.length using Nat.strongRecOn generalizing stream with
  | ind n ih =>
      cases hcut : cutLine stream with
      | some parts =>
          obtain ⟨first, rest⟩ := parts
          have hshort := cutLine_length hcut
          have hfirst := List.length_pos_iff.mpr hshort.1
          obtain ⟨body, hbody, hfirst', hstream⟩ := cutLine_eq_some.mp hcut
          rw [splitInclusive_of_some hcut] at hline
          have hmem : line ∈ Text.splitInclusive rest := by
            rcases List.mem_cons.mp hline with rfl | hmem
            · rw [hfirst'] at hend
              simp at hend
            · exact hmem
          obtain ⟨reader, hgives, hne⟩ := ih rest.length (by omega) hmem rfl
          -- the same reader, with the first line before it
          have hbytes := hgives.bytes
          have hgives' : (Reader.mk (first ++ reader.buffer) reader.fills).Gives stream := by
            constructor
            · exact hgives.chunks
            · rw [← append_of_cutLine hcut, ← hbytes, Reader.bytes, Reader.bytes, List.append_assoc]
          have hcut' : cutLine (first ++ reader.buffer) = some (first, reader.buffer) := by
            apply cutLine_eq_some.mpr
            use body
            simp [hbody, hfirst']
          use Reader.mk (first ++ reader.buffer) reader.fills, hgives'
          rw [results_of_cut hgives' hcut', Reader.whole, results_of_cut (whole_gives stream) hcut]
          intro h
          exact hne (List.cons.inj h).2
      | none =>
          have hsome : stream ≠ [] := by
            rintro rfl
            cases hline
          rw [splitInclusive_of_none hcut hsome, List.mem_singleton] at hline
          subst hline
          exact exists_results_ne_of_unended hcut hlong

/-- No byte is lost or repeated, whatever the stream. -/
theorem kept_of_gives {cap : Nat} {stream : Bytes} {reader : Reader} (h : reader.Gives stream) :
  ∃ taken rest, stream = taken ++ rest ∧
    (readLineCapped cap reader).2.Gives rest ∧
    match (readLineCapped cap reader).1 with
    | .ok line => taken = line
    | .error _ => 0x0A ∉ taken
  := by
  obtain ⟨rest, hread, hrest⟩ := reading_readLineCapped cap h
  generalize (readLineCapped cap reader).1 = r at hread
  cases hread with
  | line hcut => exact ⟨_, rest, (append_of_cutLine hcut).symm, hrest, rfl⟩
  | last => exact ⟨stream, [], (List.append_nil stream).symm, hrest, rfl⟩
  | tooLong hbytes hwithin => exact ⟨_, rest, hbytes, hrest, cutLine_eq_none.mp hwithin⟩

/-- The chunks of a stream make no difference just if its lines are bounded. -/
theorem readsAlike_iff_bounded (cap : Nat) (stream : Bytes) :
  ReadsAlike cap stream ↔ Bounded cap stream
  := by
  constructor
  · intro h line hline
    split
    · rename_i hend
      apply h.short (Reader.whole stream) (whole_gives stream)
      apply mem_results_whole hline hend
    · rename_i hend
      by_contra hlong
      obtain ⟨reader, hgives, hne⟩ := exists_results_ne hline hend (Nat.lt_of_not_le hlong)
      exact hne (h.same reader _ hgives (whole_gives stream))
  · intro h
    constructor
    · intro reader reader' hgives hgives'
      rw [results_of_bounded h hgives, results_of_bounded h hgives']
    · intro reader hgives line hline
      rw [results_of_bounded h hgives, linesRead, List.mem_append, List.mem_singleton,
        List.mem_map] at hline
      rcases hline with ⟨line', -, heq⟩ | heq
      · split at heq
        · rename_i hshort
          rw [← Except.ok.inj heq]
          exact hshort
        · cases heq
      · rw [Except.ok.inj heq]
        apply Nat.zero_le
    · intro reader hgives
      apply kept_of_gives hgives

/-- A line of nine bytes where there may be five: it is returned if it comes in one chunk. -/
theorem long_line_returned :
  ¬ ReadsAlike 5 (Text.asBytes "abcdefgh\n")
  := by
  intro h
  have hshort := h.short (Reader.whole (Text.asBytes "abcdefgh\n")) (whole_gives _)
    (Text.asBytes "abcdefgh\n") (by decide)
  revert hshort
  decide

end Filtermail
