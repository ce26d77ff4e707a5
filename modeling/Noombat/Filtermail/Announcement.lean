import Noombat.TextSplits
import Noombat.Utf8
import Noombat.Filtermail.ReadLines
import Noombat.Filtermail.Session

/-!
# The greeting that is announced

The reply to `EHLO` that the filter makes of the queue's is a reply of as many lines as there are
capabilities that it can honour, and one.  It is read back as a whole, and its capabilities are
those of the queue that the filter can honour, as they were.
-/

namespace Filtermail

open Text Session

/-- The capabilities that the filter passes on. -/
def RELAYABLE : List String :=
  ["XFORWARD", "8BITMIME", "SIZE", "SMTPUTF8", "DSN", "ENHANCEDSTATUSCODES"]

def isRelayable (cap : String) : Bool :=
  RELAYABLE.contains (toAsciiUppercase (firstWord cap))

/-- The capabilities of the queue that the filter passes on. -/
def offered (downstream : Reply) : List String :=
  downstream.capabilities.filter isRelayable

/-- What the filter calls itself. -/
def NAME : String :=
  "noombat-filtermail"

/-- The texts of the lines of the announcement. -/
def texts (caps : List String) : List String :=
  NAME :: caps

/-- The lines of the announcement but the last, without their ends. -/
def continued (caps : List String) : List String :=
  (texts caps).dropLast.map ("250-" ++ ·)

/-- The last line of the announcement, without its end. -/
def lastLine (caps : List String) : String :=
  "250 " ++ (texts caps).getLast (List.cons_ne_nil _ _)

/-- A line with its end. -/
def endLine (line : String) : String :=
  line ++ "\r\n"

theorem announce_eq (downstream : Reply) :
  announce downstream =
    String.join ((continued (offered downstream)).map endLine) ++
      endLine (lastLine (offered downstream))
  := by
  have hkept : downstream.capabilities.filter (fun cap =>
      ["XFORWARD", "8BITMIME", "SIZE", "SMTPUTF8", "DSN", "ENHANCEDSTATUSCODES"].contains
        (toAsciiUppercase (firstWord cap))) = offered downstream := rfl
  rw [announce, hkept, continued, lastLine]
  cases hcaps : offered downstream with
  | nil => decide
  | cons cap caps =>
      have hsome : cap :: caps ≠ [] := by simp
      have hgreeting : "250-noombat-filtermail\r\n" = endLine ("250-" ++ NAME) := by decide
      have hlines : (fun cap => "250-" ++ cap ++ "\r\n") = endLine ∘ ("250-" ++ ·) := by
        funext cap
        rfl
      have hlast : (texts (cap :: caps)).getLast (List.cons_ne_nil _ _) =
          (cap :: caps).getLast hsome := List.getLast_cons hsome
      rw [List.getLast?_eq_some_getLast hsome, hlast, texts, List.dropLast_cons_of_ne_nil hsome,
        List.map_cons, List.map_cons, String.join_cons, List.map_map]
      simp only
      rw [hgreeting, hlines]
      simp only [endLine, String.append_assoc]

/-! ### The capabilities of the announcement -/

theorem splitList_append {l rest : List Char} (h : '\n' ∉ l) :
  splitList (· == '\n') (l ++ '\n' :: rest) = l :: splitList (· == '\n') rest
  := by
  rw [@splitList_append_cons _ (· == '\n') '\n' (beq_self_eq_true _), splitList_of_clear]
  · rfl
  · intro c hc
    exact beq_false_of_ne fun hline => h (hline ▸ hc)

/-- Lines with their ends are the lines they are made of. -/
theorem lines_join {texts : List String} (h : ∀ text ∈ texts, '\n' ∉ text.toList) :
  lines (String.join (texts.map endLine)) = texts
  := by
  have hsplit : ∀ texts : List String, (∀ text ∈ texts, '\n' ∉ text.toList) →
      splitList (· == '\n') (String.join (texts.map endLine)).toList =
        texts.map (fun text => text.toList ++ ['\r']) ++ [[]] := by
    intro texts h
    induction texts with
    | nil => rfl
    | cons text texts ih =>
        obtain ⟨htext, htexts⟩ := List.forall_mem_cons.mp h
        have hline : '\n' ∉ text.toList ++ ['\r'] := by simpa using htext
        have hshape : (endLine text ++ String.join (texts.map endLine)).toList =
            (text.toList ++ ['\r']) ++ '\n' :: (String.join (texts.map endLine)).toList := by
          simp [endLine, String.toList_append]
        rw [List.map_cons, String.join_cons, hshape, splitList_append hline, ih htexts]
        rfl
  rw [lines, hsplit texts h]
  simp [Function.comp_def, String.ofList_toList]

theorem not_mem_of_mem_lines {text s : String} (h : text ∈ lines s) :
  '\n' ∉ text.toList
  := by
  have plain (part : List Char) (hpart : part ∈ splitList (· == '\n') s.toList) :
      '\n' ∉ part := by
    intro hmem
    have := not_of_mem_splitList hpart '\n' hmem
    simp at this
  rw [lines] at h
  obtain ⟨l, hl, rfl⟩ := List.mem_map.mp h
  rw [String.toList_ofList]
  rcases List.mem_append.mp hl with hl | hl
  · obtain ⟨part, hpart, rfl⟩ := List.mem_map.mp hl
    have hplain := plain part ((List.dropLast_prefix _).mem hpart)
    split
    · intro hmem
      exact hplain ((List.dropLast_prefix _).mem hmem)
    · exact hplain
  · rw [Option.mem_toList] at hl
    exact plain l (List.mem_of_getLast? (Option.eq_some_of_filter_eq_some hl))

theorem dropBytes_suffix {n : Nat} {cs cs' : List Char} (h : dropBytes n cs = some cs') :
  cs' <:+ cs
  := by
  induction cs generalizing n with
  | nil =>
      cases n with
      | zero =>
          rw [dropBytes] at h
          obtain rfl := Option.some.inj h
          exact List.suffix_refl _
      | succ n => cases h
  | cons c cs ih =>
      cases n with
      | zero =>
          rw [dropBytes] at h
          obtain rfl := Option.some.inj h
          exact List.suffix_refl _
      | succ n =>
          rw [dropBytes] at h
          split at h
          · exact List.IsSuffix.trans (ih h) (List.suffix_cons c cs)
          · cases h

/-- A capability is a text on one line. -/
theorem plain_of_mem_offered {downstream : Reply} {cap : String} (h : cap ∈ offered downstream) :
  '\n' ∉ cap.toList ∧ cap ≠ "" ∧ isRelayable cap = true
  := by
  obtain ⟨hcap, hrelayable⟩ := List.mem_filter.mp h
  rw [Reply.capabilities] at hcap
  obtain ⟨hcap, hsome⟩ := List.mem_filter.mp hcap
  obtain ⟨line, hline, hfrom⟩ := List.mem_filterMap.mp hcap
  refine ⟨?_, of_decide_eq_true hsome, hrelayable⟩
  rw [fromByte] at hfrom
  obtain ⟨cs, hcs, rfl⟩ := Option.map_eq_some_iff.mp hfrom
  rw [String.toList_ofList]
  intro hmem
  exact not_mem_of_mem_lines (List.mem_of_mem_drop hline) ((dropBytes_suffix hcs).mem hmem)

theorem dropBytes_ascii {c : Char} (h : c.utf8Size = 1) (n : Nat) (cs : List Char) :
  dropBytes (n + 1) (c :: cs) = dropBytes n cs
  := by
  rw [dropBytes, h, if_pos (Nat.le_add_left 1 n), Nat.add_sub_cancel]

theorem fromByte_four {pre : String} (hpre : pre = "250-" ∨ pre = "250 ") (cap : String) :
  fromByte 4 (pre ++ cap) = some cap
  := by
  have hdrop : dropBytes 4 (pre ++ cap).toList = some cap.toList := by
    rw [String.toList_append]
    rcases hpre with rfl | rfl
    · change dropBytes 4 ('2' :: '5' :: '0' :: '-' :: cap.toList) = _
      rw [dropBytes_ascii rfl, dropBytes_ascii rfl, dropBytes_ascii rfl, dropBytes_ascii rfl,
        dropBytes]
    · change dropBytes 4 ('2' :: '5' :: '0' :: ' ' :: cap.toList) = _
      rw [dropBytes_ascii rfl, dropBytes_ascii rfl, dropBytes_ascii rfl, dropBytes_ascii rfl,
        dropBytes]
  rw [fromByte, hdrop, Option.map_some, String.ofList_toList]

/-- A line of the announcement has a text after its code. -/
theorem exists_text {caps : List String} {line : String}
    (h : line ∈ continued caps ++ [lastLine caps]) :
  ∃ pre text, (pre = "250-" ∨ pre = "250 ") ∧ text ∈ texts caps ∧ line = pre ++ text
  := by
  rcases List.mem_append.mp h with h | h
  · obtain ⟨text, htext, rfl⟩ := List.mem_map.mp h
    exact ⟨"250-", text, Or.inl rfl, (List.dropLast_prefix _).mem htext, rfl⟩
  · exact ⟨"250 ", _, Or.inr rfl, List.getLast_mem _, List.mem_singleton.mp h⟩

/-- The lines of the announcement are plain texts. -/
theorem plain_lines {caps : List String} (h : ∀ cap ∈ caps, '\n' ∉ cap.toList) :
  ∀ line ∈ continued caps ++ [lastLine caps], '\n' ∉ line.toList
  := by
  intro line hline
  obtain ⟨pre, text, hpre, htext, rfl⟩ := exists_text hline
  have hplain : '\n' ∉ text.toList := by
    rcases List.mem_cons.mp htext with rfl | hcap
    · decide
    · exact h text hcap
  rw [String.toList_append, List.mem_append, not_or]
  constructor
  · rcases hpre with rfl | rfl
    · decide
    · decide
  · exact hplain

/-- The capabilities of the announcement are those it was made of. -/
theorem capabilities_of_lines {caps : List String} (h : ∀ cap ∈ caps, cap ≠ "") :
  (((continued caps ++ [lastLine caps]).drop 1).filterMap (fromByte 4)).filter (· ≠ "") = caps
  := by
  have hall : caps.filter (· ≠ "") = caps := by
    apply List.filter_eq_self.mpr
    intro cap hcap
    exact decide_eq_true (h cap hcap)
  rw [continued, lastLine]
  cases caps with
  | nil => rfl
  | cons cap caps =>
      have hsome : cap :: caps ≠ [] := by simp
      have hlast : (texts (cap :: caps)).getLast (List.cons_ne_nil _ _) =
          (cap :: caps).getLast hsome := List.getLast_cons hsome
      have hmap : ((cap :: caps).dropLast.map ("250-" ++ ·)).filterMap (fromByte 4) =
          (cap :: caps).dropLast := by
        rw [List.filterMap_map]
        conv_rhs => rw [← List.filterMap_some (l := (cap :: caps).dropLast)]
        apply List.filterMap_congr
        intro cap _
        exact fromByte_four (Or.inl rfl) cap
      rw [hlast, texts, List.dropLast_cons_of_ne_nil hsome, List.map_cons, List.cons_append,
        List.drop_one, List.tail_cons, List.filterMap_append, hmap, List.filterMap_cons,
        fromByte_four (Or.inr rfl)]
      simp only [List.filterMap_nil]
      rw [List.dropLast_concat_getLast hsome, hall]

/-! ### Reading the announcement -/

/-- A reply is read on after its lines that are continued. -/
theorem replyFrom_lines {fuel : Nat} {raw : Bytes} {reader reader' : Reader} {lines : List Bytes}
    (hreads : ReadsAll reader lines reader')
    (hlines : ∀ line ∈ lines, (trimEol line)[3]? = some 0x2D) :
  replyFrom (fuel + lines.length) raw reader = replyFrom fuel (raw ++ lines.flatten) reader'
  := by
  induction hreads generalizing raw with
  | nil => simp
  | @cons reader reader₁ reader₂ line lines hfirst hsome hothers ih =>
      obtain ⟨hline, hothers'⟩ := List.forall_mem_cons.mp hlines
      rw [List.length_cons, ← Nat.add_assoc, replyFrom, hfirst]
      cases line with
      | nil => contradiction
      | cons b line =>
          simp only
          rw [if_pos hline, ih hothers', List.flatten_cons, List.append_assoc]

theorem replyFrom_last {fuel : Nat} {raw line : Bytes} {reader reader' : Reader}
    (hread : readLineCapped MAX_LINE_BYTES reader = (.ok line, reader')) (hsome : line ≠ [])
    (hline : (trimEol line)[3]? ≠ some 0x2D) :
  replyFrom (fuel + 1) raw reader = (.ok ⟨replyCode (trimEol line), raw ++ line⟩, reader')
  := by
  rw [replyFrom, hread]
  cases line with
  | nil => contradiction
  | cons b line =>
      simp only
      rw [if_neg hline]

/-- What stands before the end of a line is not trimmed if it does not end as a line does. -/
theorem prefix_trimEol {front : Bytes} (h : Trimmed front) (more : Bytes) :
  front <+: trimEol (front ++ more)
  := by
  obtain ⟨ends, heq, hends⟩ := exists_trimEol (front ++ more)
  obtain ⟨tail, htail, -⟩ | ⟨tail, htail, hmore⟩ := List.append_eq_append_iff.mp heq
  · exact ⟨tail, htail.symm⟩
  · rcases List.eq_nil_or_concat tail with rfl | ⟨tail, b, rfl⟩
    · rw [List.append_nil] at htail
      use []
      rw [List.append_nil, ← htail]
    · -- the last byte before the end would have been trimmed
      exfalso
      have hlast : front.getLast? = some b := by
        rw [htail, List.concat_eq_append, ← List.append_assoc, List.getLast?_concat]
      have hfront := h b hlast
      have hend := hends b (by rw [hmore]; simp)
      rw [hfront] at hend
      cases hend

/-- The bytes of a line of the announcement. -/
def lineBytes (line : String) : Bytes :=
  asBytes (endLine line)

theorem lineBytes_ended {line : String} (h : '\n' ∉ line.toList) :
  Ended (lineBytes line)
  := by
  use asBytes line ++ [0x0D]
  constructor
  · have := mem_asBytes_feed.not.mpr h
    simpa using this
  · rw [lineBytes, endLine, asBytes_append, List.append_assoc]
    rfl

/-- A line that is continued. -/
theorem lineBytes_continued (cap : String) :
  (trimEol (lineBytes ("250-" ++ cap)))[3]? = some 0x2D
  := by
  have htrimmed : Trimmed (asBytes "250-") := by
    intro b hb
    obtain rfl := Option.some.inj hb
    decide
  obtain ⟨more, hmore⟩ := prefix_trimEol htrimmed (asBytes cap ++ asBytes "\r\n")
  rw [lineBytes, endLine, asBytes_append, asBytes_append, List.append_assoc, ← hmore]
  rfl

/-- A line that is the last of a reply. -/
theorem lineBytes_last (cap : String) :
  (trimEol (lineBytes ("250 " ++ cap)))[3]? ≠ some 0x2D ∧
    replyCode (trimEol (lineBytes ("250 " ++ cap))) = 250
  := by
  have htrimmed : Trimmed (asBytes "250 ") := by
    intro b hb
    obtain rfl := Option.some.inj hb
    decide
  obtain ⟨more, hmore⟩ := prefix_trimEol htrimmed (asBytes cap ++ asBytes "\r\n")
  rw [lineBytes, endLine, asBytes_append, asBytes_append, List.append_assoc, ← hmore]
  constructor
  · change (some 0x20 : Option UInt8) ≠ some 0x2D
    decide
  · rfl

theorem asBytes_join (texts : List String) :
  asBytes (String.join (texts.map endLine)) = (texts.map lineBytes).flatten
  := by
  induction texts with
  | nil => rfl
  | cons text texts ih =>
      rw [List.map_cons, String.join_cons, asBytes_append, ih]
      rfl

variable {caps : List String}

theorem continued_lines :
  ∀ line ∈ (continued caps).map lineBytes, (trimEol line)[3]? = some 0x2D
  := by
  intro line hline
  obtain ⟨text, htext, rfl⟩ := List.mem_map.mp hline
  obtain ⟨cap, -, rfl⟩ := List.mem_map.mp htext
  apply lineBytes_continued

theorem lineBytes_ne_nil (line : String) :
  lineBytes line ≠ []
  := by
  rw [lineBytes, endLine, asBytes_append]
  intro h
  have := (List.append_eq_nil_iff.mp h).2
  cases this

/-- The announcement is read as one reply. -/
theorem reply_of_reads {reader reader₁ reader₂ : Reader} {written : Bytes}
    (hreads : ReadsAll reader ((continued caps).map lineBytes) reader₁)
    (hlast : readLineCapped MAX_LINE_BYTES reader₁ = (.ok (lineBytes (lastLine caps)), reader₂)) :
  (Wire.mk reader written).reply =
    (.ok ⟨250, ((continued caps).map lineBytes).flatten ++ lineBytes (lastLine caps)⟩,
      ⟨reader₂, written⟩)
  := by
  obtain ⟨fuel, hfuel⟩ := exists_fuel hreads
  change ((replyFrom (reader.remaining + 1) [] reader).1,
    Wire.mk (replyFrom (reader.remaining + 1) [] reader).2 written) = _
  rw [hfuel, replyFrom_lines hreads continued_lines, replyFrom_last hlast (lineBytes_ne_nil _)
    (lineBytes_last _).1, lastLine, (lineBytes_last _).2]
  rfl

/-! ### The announcement -/

/-- The announcement is one well-formed reply, which is read back as a whole, and its capabilities
are those of the queue that the filter can honour. -/
structure Announced (downstream : Reply) : Prop where
  /-- Every line but the last is continued. -/
  lines : ∃ front last,
    announce downstream = String.join (front.map endLine) ++ endLine last ∧
      (∀ line ∈ front ++ [last], '\n' ∉ line.toList) ∧
      (∀ line ∈ front, startsWith line "250-" = true) ∧ startsWith last "250 " = true
  /-- It is read back if it comes in one chunk. -/
  whole : ∀ (following written : Bytes) (fills : List (Except IoError Bytes)),
    (Wire.mk ⟨asBytes (announce downstream) ++ following, fills⟩ written).reply =
      (.ok ⟨250, asBytes (announce downstream)⟩, ⟨⟨following, fills⟩, written⟩)
  /-- It is read back in all chunkings if no capability is as long as a line may be. -/
  chunks : (∀ cap ∈ offered downstream, (asBytes cap).length + 5 ≤ MAX_LINE_BYTES) →
    ∀ (following : Bytes) (wire : Wire),
      wire.reader.Gives (asBytes (announce downstream) ++ following) →
      ∃ wire' : Wire, wire.reply = (.ok ⟨250, asBytes (announce downstream)⟩, wire') ∧
        wire'.reader.Gives following
  capabilities : (Reply.mk 250 (asBytes (announce downstream))).capabilities = offered downstream
  honoured : ∀ cap ∈ (Reply.mk 250 (asBytes (announce downstream))).capabilities,
    toAsciiUppercase (firstWord cap) ∉ ["STARTTLS", "CHUNKING", "AUTH", "PIPELINING"]

variable {downstream : Reply}

theorem asBytes_announce :
  asBytes (announce downstream) =
    ((continued (offered downstream)).map lineBytes).flatten ++
      lineBytes (lastLine (offered downstream))
  := by
  rw [announce_eq, asBytes_append, asBytes_join]
  rfl

theorem plain_offered :
  ∀ line ∈ continued (offered downstream) ++ [lastLine (offered downstream)], '\n' ∉ line.toList
  := by
  apply plain_lines
  intro cap hcap
  exact (plain_of_mem_offered hcap).1

theorem ended_offered :
  (∀ line ∈ (continued (offered downstream)).map lineBytes, Ended line) ∧
    Ended (lineBytes (lastLine (offered downstream)))
  := by
  constructor
  · intro line hline
    obtain ⟨text, htext, rfl⟩ := List.mem_map.mp hline
    apply lineBytes_ended
    exact plain_offered text (List.mem_append_left _ htext)
  · apply lineBytes_ended
    exact plain_offered _ (List.mem_append_right _ (List.mem_singleton_self _))

/-- A line of the announcement is longer than its capability by the code and the line end. -/
theorem length_lineBytes {pre : String} (hpre : pre = "250-" ∨ pre = "250 ") (cap : String) :
  (lineBytes (pre ++ cap)).length = (asBytes cap).length + 6
  := by
  rw [lineBytes, endLine, asBytes_append, asBytes_append, List.length_append, List.length_append]
  rcases hpre with rfl | rfl
  · change 4 + _ + 2 = _
    omega
  · change 4 + _ + 2 = _
    omega

theorem short_lines (h : ∀ cap ∈ caps, (asBytes cap).length + 5 ≤ MAX_LINE_BYTES) :
  ∀ line ∈ continued caps ++ [lastLine caps], (lineBytes line).length ≤ MAX_LINE_BYTES + 1
  := by
  intro line hline
  obtain ⟨pre, text, hpre, htext, rfl⟩ := exists_text hline
  have hshort : (asBytes text).length + 5 ≤ MAX_LINE_BYTES := by
    rcases List.mem_cons.mp htext with rfl | hcap
    · decide
    · exact h text hcap
  rw [length_lineBytes hpre]
  omega

theorem capabilities_announce :
  (Reply.mk 250 (asBytes (announce downstream))).capabilities = offered downstream
  := by
  have hjoin : announce downstream = String.join
      ((continued (offered downstream) ++ [lastLine (offered downstream)]).map endLine) := by
    rw [announce_eq, List.map_append, String.join_append]
    simp [String.join_cons]
  rw [Reply.capabilities, fromUtf8Lossy_asBytes, hjoin, lines_join plain_offered]
  apply capabilities_of_lines
  intro cap hcap
  exact (plain_of_mem_offered hcap).2.1

end Filtermail
