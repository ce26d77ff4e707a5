import Noombat.Chat.Blocks
import Noombat.Imap

/-!
# Fetching what is new

The relay fetches the messages after the last one that the client has seen, by the range from the
next number to the asterisk.  That range holds the last message of the mailbox even if it has been
seen, and the relay does not look at the numbers of what it is given; so the fetch starts where it
should just if there is something after the start, or the last message is not passed on.
-/

namespace Chat

open Imap (Mailbox)

variable (lib : MailLibrary)

/-- A message in a mailbox: its bytes and the time at which it arrived. -/
structure StoredMail where
  raw : Bytes
  internalDate : Int

/-- A message as the mail server sends it. -/
def asFetched (m : UInt32 × StoredMail) : Fetched :=
  ⟨some m.1, some m.2.raw, m.2.internalDate⟩

/-- A mail server with a mailbox. -/
def mailServer (box : Mailbox StoredMail) (query : String) :
    Except String (List (Except String Fetched)) :=
  match box.uidFetch query with
  | none => .error "Error in IMAP command UID FETCH: Invalid messageset"
  | some ms => .ok (ms.map fun m => .ok (asFetched m))

/-- The messages that are passed on for the query, as a mail server answers it. -/
def fetchMessages (uidFetch : String → Except String (List (Except String Fetched)))
    (sinceUid : UInt32) : Option (Except String (List ServerMessage)) :=
  match uidFetch (fetchQuery sinceUid) with
  | .error e => some (.error s!"IMAP FETCH failed: {e}")
  | .ok results => (serverMessages lib results).map .ok

/-! ### Messages that can be read -/

/-- The sender of a message cannot be looked for without a panic. -/
def Crashes (raw : Bytes) : Prop :=
  extractFrom lib raw = none

/-- A message has a sender and a body. -/
def Readable (raw : Bytes) : Prop :=
  (∃ sender, extractFrom lib raw = some (.ok (some sender)) ∧ sender ≠ "") ∧
    ∃ ciphertext, extractCiphertextBody lib raw = .ok ciphertext

/-- The entry of a message, if it can be read. -/
def entry (m : UInt32 × StoredMail) : Option ServerMessage :=
  (serverMessage lib (asFetched m)).join

/-- The entries of the readable messages after the given one, in the order of the mailbox. -/
def newEntries (box : Mailbox StoredMail) (sinceUid : UInt32) : List ServerMessage :=
  (box.messages.filter fun m => decide (sinceUid < m.1)).filterMap (entry lib)

/-- The fetch does not overflow and returns what is new. -/
def FetchesNew (box : Mailbox StoredMail) (sinceUid : UInt32) : Prop :=
  sinceUid.toNat + 1 < 2 ^ 32 ∧
    fetchMessages lib (mailServer box) sinceUid = some (.ok (newEntries lib box sinceUid))

/-- The start is below the greatest number, no new message makes the relay panic, and if there is no
new message then the last one is not passed on. -/
structure StartsBelowEnd (box : Mailbox StoredMail) (sinceUid : UInt32) : Prop where
  below : sinceUid.toNat + 1 < 2 ^ 32
  new : ∀ m ∈ box.messages, sinceUid < m.1 → ¬ Crashes lib m.2.raw
  seen : (∀ m ∈ box.messages, m.1 ≤ sinceUid) → ∀ last ∈ box.messages.getLast?,
    ¬ Crashes lib last.2.raw ∧ ¬ Readable lib last.2.raw

variable {lib}

theorem serverMessage_eq_none_iff (m : UInt32 × StoredMail) :
  serverMessage lib (asFetched m) = none ↔ Crashes lib m.2.raw
  := by
  rw [serverMessage, asFetched, Crashes]
  simp only
  cases extractFrom lib m.2.raw with
  | none => exact iff_of_true rfl rfl
  | some extracted =>
      apply iff_of_false _ nofun
      simp only [Option.bind_eq_bind, Option.bind_some]
      split
      · nofun
      · split
        · nofun
        · nofun

/-- A readable message has one entry, and no other has one. -/
theorem entry_isSome_iff (m : UInt32 × StoredMail) :
  (entry lib m).isSome = true ↔ Readable lib m.2.raw
  := by
  rw [entry, serverMessage, asFetched, Readable]
  simp only
  cases extractFrom lib m.2.raw with
  | none => simp
  | some extracted =>
      simp only [Option.bind_eq_bind, Option.bind_some]
      cases extracted with
      | error e => simp [Except.toOption]
      | ok sender =>
          cases sender with
          | none => simp [Except.toOption]
          | some sender =>
              by_cases hsender : sender = ""
              · simp [Except.toOption, hsender]
              · cases extractCiphertextBody lib m.2.raw with
                | error e => simp [Except.toOption, hsender]
                | ok ciphertext => simp [Except.toOption, hsender]

theorem entry_eq_none_iff (m : UInt32 × StoredMail) :
  entry lib m = none ↔ ¬ Readable lib m.2.raw
  := by
  rw [← entry_isSome_iff, Option.not_isSome_iff_eq_none]

/-! ### What is fetched -/

/-- Messages are passed on in their order, unless one of them makes the relay panic. -/
theorem serverMessages_map {ms : List (UInt32 × StoredMail)} {entries : List ServerMessage} :
  serverMessages lib (ms.map fun m => .ok (asFetched m)) = some entries ↔
    (∀ m ∈ ms, ¬ Crashes lib m.2.raw) ∧ entries = ms.filterMap (entry lib)
  := by
  induction ms generalizing entries with
  | nil =>
      simp only [List.map_nil, serverMessages, Option.some.injEq, List.filterMap_nil]
      constructor
      · rintro rfl
        exact ⟨by simp, rfl⟩
      · rintro ⟨_, rfl⟩
        rfl
  | cons m ms ih =>
      rw [List.map_cons, serverMessages, List.forall_mem_cons, ← serverMessage_eq_none_iff]
      cases hentry : serverMessage lib (asFetched m) with
      | none => simp
      | some passed =>
          have hjoin : entry lib m = passed := by
            rw [entry, hentry, Option.join_some]
          simp only [Option.bind_eq_bind, Option.bind_some, Option.bind_eq_some_iff,
            List.filterMap_cons, hjoin]
          constructor
          · rintro ⟨rest, hrest, hentries⟩
            obtain ⟨hcrash, rfl⟩ := ih.mp hrest
            obtain rfl := Option.some.inj hentries
            refine ⟨⟨nofun, hcrash⟩, ?_⟩
            cases passed with
            | none => rfl
            | some e => rfl
          · rintro ⟨⟨-, hcrash⟩, rfl⟩
            refine ⟨_, ih.mpr ⟨hcrash, rfl⟩, ?_⟩
            cases passed with
            | none => rfl
            | some e => rfl

theorem fetchQuery_eq {sinceUid : UInt32} (h : sinceUid.toNat + 1 < 2 ^ 32) :
  fetchQuery sinceUid = toString (sinceUid.toNat + 1) ++ ":*"
  := by
  rw [fetchQuery]
  split
  · rename_i hzero
    rw [hzero]
    rfl
  · have hsucc : (sinceUid + 1).toNat = sinceUid.toNat + 1 := by
      rw [UInt32.toNat_add]
      exact Nat.mod_eq_of_lt h
    rw [hsucc]
    rfl

/-- The server answers with the messages after the start; if there are none, with the last one. -/
theorem fetchMessages_eq (box : Mailbox StoredMail) {sinceUid : UInt32}
    (h : sinceUid.toNat + 1 < 2 ^ 32) :
  fetchMessages lib (mailServer box) sinceUid =
    (serverMessages lib ((if ∃ m ∈ box.messages, sinceUid < m.1 then
      box.messages.filter fun m => decide (sinceUid < m.1) else
        box.messages.getLast?.toList).map fun m => .ok (asFetched m))).map .ok
  := by
  have hlt (m : UInt32 × StoredMail) : sinceUid.toNat + 1 ≤ m.1.toNat ↔ sinceUid < m.1 :=
    UInt32.lt_iff_toNat_lt.symm
  rw [fetchMessages, fetchQuery_eq h, mailServer, Mailbox.uidFetch,
    Imap.parseRange_from (Nat.succ_pos _) h, Option.map_some, Mailbox.inRange_from]
  simp only [hlt]

/-- The fetch returns exactly what is new, without an overflow, just if it starts below the end of
the mailbox. -/
theorem fetches_new_iff (lib : MailLibrary) (box : Mailbox StoredMail) (sinceUid : UInt32) :
  FetchesNew lib box sinceUid ↔ StartsBelowEnd lib box sinceUid
  := by
  by_cases hbelow : sinceUid.toNat + 1 < 2 ^ 32
  · rw [FetchesNew, fetchMessages_eq box hbelow, Option.map_eq_some_iff]
    by_cases hnew : ∃ m ∈ box.messages, sinceUid < m.1
    · rw [if_pos hnew]
      constructor
      · rintro ⟨-, entries, hentries, -⟩
        have hcrash := (serverMessages_map.mp hentries).1
        refine ⟨hbelow, ?_, ?_⟩
        · intro m hm hlt
          exact hcrash m (List.mem_filter.mpr ⟨hm, decide_eq_true hlt⟩)
        · intro hseen
          obtain ⟨m, hm, hlt⟩ := hnew
          exact absurd hlt (UInt32.not_lt.mpr (hseen m hm))
      · intro hstart
        refine ⟨hbelow, newEntries lib box sinceUid, ?_, rfl⟩
        apply serverMessages_map.mpr
        constructor
        · intro m hm
          obtain ⟨hm, hlt⟩ := List.mem_filter.mp hm
          exact hstart.new m hm (of_decide_eq_true hlt)
        · rfl
    · rw [if_neg hnew]
      have hseen : ∀ m ∈ box.messages, m.1 ≤ sinceUid := by
        intro m hm
        by_contra hlt
        exact hnew ⟨m, hm, UInt32.not_le.mp hlt⟩
      have hempty : newEntries lib box sinceUid = [] := by
        rw [newEntries, List.filter_eq_nil_iff.mpr, List.filterMap_nil]
        intro m hm
        rw [decide_eq_true_eq]
        exact UInt32.not_lt.mpr (hseen m hm)
      rw [hempty]
      constructor
      · rintro ⟨-, entries, hentries, hnone⟩
        obtain rfl := Except.ok.inj hnone
        obtain ⟨hcrash, hentry⟩ := serverMessages_map.mp hentries
        refine ⟨hbelow, ?_, ?_⟩
        · intro m hm hlt
          exact absurd hlt (UInt32.not_lt.mpr (hseen m hm))
        · intro _ last hlast
          rw [Option.mem_def] at hlast
          rw [hlast, Option.toList_some] at hcrash hentry
          constructor
          · exact hcrash last (List.mem_singleton_self _)
          · rw [← entry_eq_none_iff]
            exact List.filterMap_eq_nil_iff.mp hentry.symm last (List.mem_singleton_self _)
      · intro hstart
        refine ⟨hbelow, [], ?_, rfl⟩
        apply serverMessages_map.mpr
        constructor
        · intro m hm
          exact (hstart.seen hseen m (Option.mem_toList.mp hm)).1
        · symm
          apply List.filterMap_eq_nil_iff.mpr
          intro m hm
          exact (entry_eq_none_iff m).mpr (hstart.seen hseen m (Option.mem_toList.mp hm)).2
  · constructor
    · intro h
      exact absurd h.1 hbelow
    · intro h
      exact absurd h.below hbelow

/-! ### Nothing new -/

/-- A mailbox with one message. -/
def boxOfOne : Mailbox StoredMail where
  messages := [(1, ⟨Text.asBytes "From: al@h.ex\r\n\r\n", 0⟩)]
  positive := by
    intro m hm
    rw [List.mem_singleton.mp hm]
    decide
  ascending := List.pairwise_singleton _ _

/-- The last message is fetched again when nothing is new, and the greatest number has no next. -/
theorem last_fetched_again :
  ¬ FetchesNew .bare boxOfOne 1 ∧ ¬ FetchesNew .bare boxOfOne 4294967295
  := by
  constructor
  · rintro ⟨-, hfetch⟩
    have hone : (fetchMessages .bare (mailServer boxOfOne) 1).map
        (fun result => result.toOption.map List.length) = some (some 1) := by decide +kernel
    have hnone : (newEntries .bare boxOfOne 1).length = 0 := by decide +kernel
    rw [hfetch, Option.map_some, Except.toOption, Option.map_some, hnone] at hone
    revert hone
    decide
  · rintro ⟨hbelow, -⟩
    revert hbelow
    decide

end Chat
