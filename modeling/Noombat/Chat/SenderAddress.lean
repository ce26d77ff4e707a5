import Noombat.Chat.Message
import Noombat.Filtermail.Inspect
import Noombat.TextCase
import Noombat.TextCuts

/-!
# The sender that is shown and the sender that was checked

The filter checks the address of a message's `From` header against the envelope and the signature;
the relay of the chat takes an address from the same header, shows it and looks it up.  The filter
reads from the first opening bracket to the last closing one, the relay to the first closing one,
so that they read one address just if there is no second closing bracket; and the relay does not
expect a closing bracket before the opening one at all.
-/

namespace Chat

open Text
open Filtermail (Mode bracketed headerAddress inspect isEncryptedPart)

/-- What the relay sees of a part of a message. -/
def ParsedMail.ofMime (bodyError : String) (part : Filtermail.ParsedMail) : ParsedMail where
  headers := part.headers
  bodyRaw := part.bodyRaw.elim (.error bodyError) .ok
  subparts := part.subparts.map fun subpart => subpart.bodyRaw.elim (.error bodyError) .ok

/-- The libraries of the relay, with the mail parser that the filter calls too. -/
def MailLibrary.parsing (parseMail : Bytes → Except String Filtermail.ParsedMail)
    (bodyError : String) (lib : MailLibrary) : MailLibrary :=
  { lib with parseMail := fun raw => (parseMail raw).map (ParsedMail.ofMime bodyError) }

/-! ### What is read of a value -/

/-- The first bracket opens, if there are brackets of both kinds. -/
def OpensFirst (value : List Char) : Prop :=
  '<' ∈ value → '>' ∈ value → ∃ before after, value = before ++ '<' :: after ∧ '>' ∉ before

/-- A text is not only white space. -/
def Visible (text : List Char) : Prop :=
  ∃ c ∈ text, isWhitespace c = false

/-- A value names one address: all of it, or what stands before its only closing bracket. -/
inductive NamesOne : List Char → Prop
  | bare {value : List Char} : '<' ∉ value ∨ '>' ∉ value → Visible value → NamesOne value
  | bracketed {before address after : List Char} : '<' ∉ before → '>' ∉ before →
      '>' ∉ address → '>' ∉ after → Visible address →
      NamesOne (before ++ '<' :: address ++ '>' :: after)

/-- A value has no pair of brackets, or its first bracket closes, or it is taken apart at its first
brackets. -/
theorem brackets_cases (value : List Char) :
  ('<' ∉ value ∨ '>' ∉ value) ∨
    (∃ before after, value = before ++ '>' :: after ∧ '<' ∉ before ∧ '>' ∉ before ∧ '<' ∈ after) ∨
    ∃ before address after, value = before ++ '<' :: address ++ '>' :: after ∧
      '<' ∉ before ∧ '>' ∉ before ∧ '>' ∉ address
  := by
  by_cases hopen : '<' ∈ value
  · by_cases hclose : '>' ∈ value
    · right
      obtain ⟨before, after, rfl, hbefore⟩ := List.eq_append_cons_of_mem hclose
      by_cases hfirst : '<' ∈ before
      · right
        obtain ⟨front, address, rfl, hfront⟩ := List.eq_append_cons_of_mem hfirst
        rw [List.mem_append, List.mem_cons, not_or, not_or] at hbefore
        use front, address, after
        exact ⟨rfl, hfront, hbefore.1, hbefore.2.2⟩
      · left
        use before, after
        have hafter : '<' ∈ after := by simpa [hfirst] using hopen
        exact ⟨rfl, hfirst, hbefore, hafter⟩
    · exact .inl (.inr hclose)
  · exact .inl (.inl hopen)

/-! ### What each program reads -/

section Values

variable {value : String}

theorem addressOf_bare (h : '<' ∉ value.toList ∨ '>' ∉ value.toList) :
  addressOf value = some (trim value) ∧ bracketed value = none
  := by
  rw [addressOf, bracketed]
  obtain h | h := h
  · rw [find_eq_none h]
    exact ⟨rfl, rfl⟩
  · rw [find_eq_none h, rfind_eq_none h]
    cases find '<' value with
    | none => exact ⟨rfl, rfl⟩
    | some i => exact ⟨rfl, rfl⟩

theorem addressOf_closedFirst {before after : List Char} (hopen : '<' ∉ before)
    (hclose : '>' ∉ before) (hafter : '<' ∈ after) :
  addressOf (String.ofList (before ++ '>' :: after)) = none
  := by
  obtain ⟨middle, rest, rfl, hmiddle⟩ := List.eq_append_cons_of_mem hafter
  have hfirst : '<' ∉ before ++ '>' :: middle := by simp [hopen, hmiddle]
  have hfind : find '<' (String.ofList (before ++ '>' :: (middle ++ '<' :: rest))) =
      some (before ++ '>' :: middle).length := by
    have hsplit : before ++ '>' :: (middle ++ '<' :: rest) =
        (before ++ '>' :: middle) ++ '<' :: rest := by simp
    rw [hsplit, find_append_cons hfirst]
  rw [addressOf, hfind, find_append_cons hclose]
  simp only
  rw [if_neg]
  simp only [List.length_append, List.length_cons]
  omega

section Bracketed

variable {before address after : List Char} (hopen : '<' ∉ before)

include hopen

theorem addressOf_bracketed (hclose : '>' ∉ before) (haddress : '>' ∉ address) :
  addressOf (String.ofList (before ++ '<' :: address ++ '>' :: after)) =
    some (String.ofList address)
  := by
  have hfirst : '>' ∉ before ++ '<' :: address := by simp [hclose, haddress]
  have hsplit : before ++ '<' :: address ++ '>' :: after =
      (before ++ ['<']) ++ address ++ ('>' :: after) := by simp
  have hfind : find '<' (String.ofList (before ++ '<' :: address ++ '>' :: after)) =
      some before.length := by
    rw [List.append_assoc, List.cons_append, find_append_cons hopen]
  rw [addressOf, hfind, find_append_cons hfirst]
  simp only
  rw [if_pos (by simp), hsplit]
  congr 1
  apply slice_append
  · simp
  · simp only [List.length_append, List.length_cons, List.length_nil]
    omega

/-- The filter reads up to the last closing bracket. -/
theorem bracketed_of_last (hafter : '>' ∉ after) :
  bracketed (String.ofList (before ++ '<' :: address ++ '>' :: after)) =
    some (String.ofList address)
  := by
  have hsplit : before ++ '<' :: address ++ '>' :: after =
      (before ++ ['<']) ++ address ++ ('>' :: after) := by simp
  have hfind : find '<' (String.ofList (before ++ '<' :: address ++ '>' :: after)) =
      some before.length := by
    rw [List.append_assoc, List.cons_append, find_append_cons hopen]
  rw [bracketed, hfind, rfind_append_cons hafter]
  simp only
  rw [if_pos (by simp), hsplit]
  congr 1
  apply slice_append
  · simp
  · simp only [List.length_append, List.length_cons, List.length_nil]
    omega

end Bracketed

theorem visible_iff {text : String} :
  Visible text.toList ↔ toAsciiLowercase (trim text) ≠ ""
  := by
  rw [Ne, toAsciiLowercase_eq_empty, trim_eq_empty, Visible]
  simp

/-- The relay reads some address of a value, whatever it is, just if the first bracket opens. -/
theorem addressOf_isSome_iff :
  (addressOf value).isSome = true ↔ OpensFirst value.toList
  := by
  have hvalue : value = String.ofList value.toList := String.ofList_toList.symm
  obtain hbare | ⟨before, after, hlist, hopen, hclose, hafter⟩ |
    ⟨before, address, after, hlist, hopen, hclose, haddress⟩ := brackets_cases value.toList
  · rw [(addressOf_bare hbare).1]
    apply iff_of_true rfl
    intro hopen hclose
    obtain h | h := hbare
    · exact absurd hopen h
    · exact absurd hclose h
  · rw [hvalue, hlist, addressOf_closedFirst hopen hclose hafter]
    apply iff_of_false nofun
    intro h
    rw [String.toList_ofList] at h
    obtain ⟨front, back, hsplit, hfront⟩ := h (by simp [hafter]) (by simp)
    have hsame := eq_of_both_first hsplit hopen hfront
    revert hsame
    decide
  · rw [hvalue, hlist, addressOf_bracketed hopen hclose haddress]
    apply iff_of_true rfl
    intro _ _
    use before, address ++ '>' :: after
    rw [String.toList_ofList]
    exact ⟨by simp, hclose⟩

/-! ### When both read one address -/

/-- What the filter reads of a value, up to letter case and the white space around it. -/
def checkedText (value : String) : String :=
  toAsciiLowercase (trim ((bracketed value).getD (trim value)))

theorem mem_folded {text : String} :
  '>' ∈ (toAsciiLowercase (trim text)).toList ↔ '>' ∈ text.toList
  := by
  rw [mem_toAsciiLowercase (by decide), mem_trim (by decide)]

/-- The relay reads what the filter checks, and that is an address at all, just if the value names
one. -/
theorem reads_checked_iff :
  (∃ address, addressOf value = some address ∧ toAsciiLowercase (trim address) ≠ "" ∧
      checkedText value = toAsciiLowercase (trim address)) ↔
    NamesOne value.toList
  := by
  have hvalue : value = String.ofList value.toList := String.ofList_toList.symm
  constructor
  · rintro ⟨address, haddress, hne, hsame⟩
    obtain hbare | ⟨before, after, hlist, hopen, hclose, hafter⟩ |
      ⟨before, middle, after, hlist, hopen, hclose, hmiddle⟩ := brackets_cases value.toList
    · obtain rfl := Option.some.inj ((addressOf_bare hbare).1.symm.trans haddress)
      apply NamesOne.bare hbare
      rw [trim_trim] at hne
      exact visible_iff.mpr hne
    · rw [hvalue, hlist, addressOf_closedFirst hopen hclose hafter] at haddress
      cases haddress
    · rw [hvalue, hlist] at haddress hsame
      rw [addressOf_bracketed hopen hclose hmiddle] at haddress
      obtain rfl := Option.some.inj haddress
      rw [hlist]
      by_cases hlast : '>' ∈ after
      · -- the filter reads on to the last closing bracket
        obtain ⟨more, rest, rfl, hrest⟩ := exists_last_of_mem hlast
        have hsplit : before ++ '<' :: middle ++ '>' :: (more ++ '>' :: rest) =
            before ++ '<' :: (middle ++ '>' :: more) ++ '>' :: rest := by simp
        rw [hsplit, checkedText, bracketed_of_last hopen hrest, Option.getD_some] at hsame
        have hmem : '>' ∈ (toAsciiLowercase (trim (String.ofList (middle ++ '>' :: more)))).toList :=
          mem_folded.mpr (by simp)
        rw [hsame, mem_folded, String.toList_ofList] at hmem
        exact absurd hmem hmiddle
      · apply NamesOne.bracketed hopen hclose hmiddle hlast
        have hvisible := visible_iff.mpr hne
        rwa [String.toList_ofList] at hvisible
  · intro h
    generalize hlist : value.toList = list at h
    rw [hlist] at hvalue
    cases h with
    | bare hbare hvisible =>
        rw [← hlist] at hbare hvisible
        obtain ⟨haddress, hbracketed⟩ := addressOf_bare hbare
        use trim value
        rw [trim_trim, checkedText, hbracketed, Option.getD_none, trim_trim]
        exact ⟨haddress, visible_iff.mp hvisible, rfl⟩
    | @bracketed before address after hopen hclose haddress hlast hvisible =>
        use String.ofList address
        rw [hvalue, addressOf_bracketed hopen hclose haddress, checkedText,
          bracketed_of_last hopen hlast]
        refine ⟨rfl, ?_, rfl⟩
        apply visible_iff.mp
        rwa [String.toList_ofList]

end Values

/-! ### Messages -/

section Messages

variable (parseMail : Bytes → Except String Filtermail.ParsedMail) (bodyError : String)
  (lib : MailLibrary)

/-- The relay reads a sender of a message without a panic; and if the filter accepts the message,
the sender is the address of its `From` header that the filter checked, if it has one. -/
def ShowsChecked (raw : Bytes) : Prop :=
  (extractFrom (lib.parsing parseMail bodyError) raw).isSome = true ∧
    ∀ mode mailFrom strip parsed value,
      inspect (fun raw => (parseMail raw).toOption) mode raw mailFrom = .accept strip →
      parseMail raw = .ok parsed → parsed.header "from" = some value →
        ∃ address, extractFrom (lib.parsing parseMail bodyError) raw = some (.ok (some address)) ∧
          headerAddress parsed "from" = some (toAsciiLowercase (trim address))

/-- The `From` header of a message can be read, and names one address if the message is
encrypted. -/
def SenderIsClear (raw : Bytes) : Prop :=
  ∀ parsed value, parseMail raw = .ok parsed → parsed.header "from" = some value →
    OpensFirst value.toList ∧ (isEncryptedPart parsed = true → NamesOne value.toList)

variable {parseMail bodyError lib} {raw : Bytes} {parsed : Filtermail.ParsedMail} {value : String}

theorem extractFrom_of_header (hparsed : parseMail raw = .ok parsed)
    (hvalue : parsed.header "from" = some value) :
  extractFrom (lib.parsing parseMail bodyError) raw =
    (addressOf value).map fun address => .ok (some address)
  := by
  rw [extractFrom, MailLibrary.parsing]
  simp only [hparsed, Except.map]
  change headerValue "from" (ParsedMail.ofMime bodyError parsed) = _ at hvalue
  rw [hvalue]

theorem extractFrom_of_none (hparsed : parseMail raw = .ok parsed)
    (hvalue : parsed.header "from" = none) :
  extractFrom (lib.parsing parseMail bodyError) raw = some (.ok none)
  := by
  rw [extractFrom, MailLibrary.parsing]
  simp only [hparsed, Except.map]
  change headerValue "from" (ParsedMail.ofMime bodyError parsed) = _ at hvalue
  rw [hvalue]

theorem headerAddress_eq_some_iff (hvalue : parsed.header "from" = some value)
    {address : String} :
  headerAddress parsed "from" = some address ↔ address ≠ "" ∧ checkedText value = address
  := by
  rw [headerAddress, hvalue, Option.bind_some]
  change (if checkedText value = "" then none else some (checkedText value)) = some address ↔ _
  split
  · rename_i hempty
    rw [hempty]
    constructor
    · nofun
    · rintro ⟨hne, rfl⟩
      exact absurd rfl hne
  · rename_i hne
    rw [Option.some.injEq]
    constructor
    · rintro rfl
      exact ⟨hne, rfl⟩
    · exact And.right

/-- The filter accepts a message that is encrypted, from one of its own users without an envelope
sender. -/
theorem inspect_null_sender (hparsed : parseMail raw = .ok parsed)
    (hencrypted : isEncryptedPart parsed = true) :
  inspect (fun raw => (parseMail raw).toOption) .outgoing raw "" = .accept false
  := by
  have henvelope : toAsciiLowercase "" = "" := rfl
  simp [inspect, hparsed, hencrypted, henvelope, Except.toOption]

/-- The sender that is shown is the one that was checked, and there is no panic, just if the `From`
header is clear. -/
theorem sender_checked_iff (parseMail : Bytes → Except String Filtermail.ParsedMail)
    (bodyError : String) (lib : MailLibrary) (raw : Bytes) :
  ShowsChecked parseMail bodyError lib raw ↔ SenderIsClear parseMail raw
  := by
  cases hparsed : parseMail raw with
  | error e =>
      apply iff_of_true
      · constructor
        · rw [extractFrom, MailLibrary.parsing]
          simp only [hparsed]
          rfl
        · intro mode mailFrom strip parsed value _ h
          rw [hparsed] at h
          cases h
      · intro parsed value h
        rw [hparsed] at h
        cases h
  | ok parsed =>
      constructor
      · rintro ⟨hsome, hchecked⟩ parsed' value hparsed' hvalue
        obtain rfl := Except.ok.inj (hparsed.symm.trans hparsed')
        have hextract := @extractFrom_of_header parseMail bodyError lib _ _ _ hparsed hvalue
        constructor
        · rw [hextract, Option.isSome_map] at hsome
          exact addressOf_isSome_iff.mp hsome
        · intro hencrypted
          have haccept := inspect_null_sender hparsed hencrypted
          obtain ⟨address, hshown, hheader⟩ := hchecked _ _ _ _ _ haccept hparsed hvalue
          rw [hextract] at hshown
          obtain ⟨read, hread, hsame⟩ := Option.map_eq_some_iff.mp hshown
          obtain rfl := Option.some.inj (Except.ok.inj hsame)
          apply reads_checked_iff.mp
          exact ⟨read, hread, (headerAddress_eq_some_iff hvalue).mp hheader⟩
      · intro hclear
        constructor
        · cases hvalue : parsed.header "from" with
          | none =>
              rw [extractFrom_of_none hparsed hvalue]
              rfl
          | some value =>
              rw [extractFrom_of_header hparsed hvalue, Option.isSome_map]
              exact addressOf_isSome_iff.mpr (hclear _ _ hparsed hvalue).1
        · intro mode mailFrom strip parsed' value haccept hparsed' hvalue
          obtain rfl := Except.ok.inj (hparsed.symm.trans hparsed')
          obtain ⟨parsed', hparsed', hencrypted⟩ := Filtermail.inspect_accept haccept
          have hsame : parsed' = parsed := by
            simp only [hparsed, Except.toOption, Option.some.injEq] at hparsed'
            exact hparsed'.symm
          rw [hsame] at hencrypted
          have hnames := (hclear _ _ hparsed hvalue).2 hencrypted
          obtain ⟨address, haddress, hchecked⟩ := reads_checked_iff.mpr hnames
          use address
          rw [extractFrom_of_header hparsed hvalue, haddress]
          exact ⟨rfl, (headerAddress_eq_some_iff hvalue).mpr hchecked⟩

end Messages

/-! ### Two closing brackets, and one too early -/

/-- An encrypted message with a `From` header, as its text. -/
def messageFrom (value : String) : Bytes :=
  asBytes "From: " ++ asBytes value ++
    asBytes "\r\nContent-Type: multipart/encrypted; protocol=\"application/pgp-encrypted\"\r\n\r\n"

/-- The mail parser on that message. -/
def parserOf (value : String) (raw : Bytes) : Except String Filtermail.ParsedMail :=
  if raw = messageFrom value then
    .ok
      { headers := [("From", value),
          ("Content-Type", "multipart/encrypted; protocol=\"application/pgp-encrypted\"")]
        bodyRaw := some []
        subparts := [] }
  else .error "no message"

/-- The relay without its libraries. -/
def bareLibrary : MailLibrary where
  encode _ := ""
  decode _ := .ok []
  parseMail _ := .error "no message"
  addressError _ := none

/-- Of two addresses in brackets the relay shows the first, though the domain of the second is what
the filter compares with the signature; and a closing bracket before the opening one makes the relay
panic. -/
theorem second_bracket_spoofs :
  ¬ ShowsChecked (parserOf "<al@h.ex> <mal@m.ex>") "" bareLibrary
      (messageFrom "<al@h.ex> <mal@m.ex>") ∧
    ¬ ShowsChecked (parserOf "> <al@h.ex>") "" bareLibrary (messageFrom "> <al@h.ex>")
  := by
  constructor
  · intro h
    have haccept : inspect (fun raw => (parserOf "<al@h.ex> <mal@m.ex>" raw).toOption) .incoming
        (messageFrom "<al@h.ex> <mal@m.ex>") "" = .accept false := by decide +kernel
    obtain ⟨address, hshown, hheader⟩ := h.2 _ _ _ _ _ haccept (if_pos rfl) rfl
    have hread : (extractFrom (bareLibrary.parsing (parserOf "<al@h.ex> <mal@m.ex>") "")
        (messageFrom "<al@h.ex> <mal@m.ex>")).bind (·.toOption) = some (some "al@h.ex") := by
      decide +kernel
    rw [hshown] at hread
    obtain rfl := Option.some.inj (Option.some.inj hread)
    revert hheader
    decide +kernel
  · intro h
    have hpanic : (extractFrom (bareLibrary.parsing (parserOf "> <al@h.ex>") "")
        (messageFrom "> <al@h.ex>")).isSome = false := by
      decide +kernel
    have hsome := h.1
    rw [hpanic] at hsome
    cases hsome

end Chat
