import Noombat.ChatmailAdmin.AccessMaps
import Noombat.Program.Past

/-!
# What the access maps block

A history of requests and restarts.  After every request that was answered with success,
the tables that the mail server reads have the addresses as keys that were blocked and not
unblocked since, up to letter case, and a restart loads them from the file, if until then

* no address that was blocked starts with `#`, with which a comment starts,
* an address was unblocked in the spelling in which it was blocked,
* no write of a file failed in a request that was answered with success, and the file
  could be read at every restart.

The server checks nothing of this: an address that starts with `#` is answered with
success, and mail to it is let through.
-/

namespace ChatmailAdmin

open Past

/-! ### Histories -/

inductive Request where
  | deleteAccount (address : String)
  | blockRecipient (address : String)
  | unblockRecipient (address : String)
  | blockSenderPair (sender recipient : String)
  | unblockSenderPair (sender recipient : String)

/-- What a request asks for. -/
inductive Change where
  | block (address : String)
  | unblock (address : String)
  | blockPair (sender recipient : String)
  | unblockPair (sender recipient : String)

namespace Request

def handle : Request → Outcomes → AppState → Reply × AppState
  | deleteAccount address => ChatmailAdmin.deleteAccount address
  | blockRecipient address => ChatmailAdmin.blockRecipient address
  | unblockRecipient address => ChatmailAdmin.unblockRecipient address
  | blockSenderPair sender recipient => ChatmailAdmin.blockSenderPair sender recipient
  | unblockSenderPair sender recipient => ChatmailAdmin.unblockSenderPair sender recipient

def change : Request → Change
  | deleteAccount address => .block address
  | blockRecipient address => .block address
  | unblockRecipient address => .unblock address
  | blockSenderPair sender recipient => .blockPair sender recipient
  | unblockSenderPair sender recipient => .unblockPair sender recipient

end Request

namespace Change

def edit : Change → AccessMaps → AccessMaps
  | block address => (·.blockRecipient address)
  | unblock address => (·.unblockRecipient address)
  | blockPair sender recipient => (·.blockSenderPair sender recipient)
  | unblockPair sender recipient => (·.unblockSenderPair sender recipient)

/-- The addresses that a change names. -/
def addresses : Change → List String
  | block address => [address]
  | unblock address => [address]
  | blockPair sender recipient => [sender, recipient]
  | unblockPair sender recipient => [sender, recipient]

end Change

/-- The sidecar before its first start. -/
def AppState.initial : AppState :=
  ⟨.init, ⟨.absent, none, none⟩⟩

inductive Event where
  | request (r : Request) (o : Outcomes)
  | restart (readable : Bool) (recipients senders : Written (Option String))

/-- What happened, the latest first. -/
abbrev History : Type :=
  List Event

namespace Event

def step : Event → AppState → AppState
  | request r o, s => (r.handle o s).2
  | restart readable recipients senders, s => ChatmailAdmin.restart readable recipients senders s

/-- The change that was asked for, if the request was answered with success. -/
def change : Event → Option Change
  | request r o => if (r.handle o .initial).1.status = 200 then some r.change else none
  | restart _ _ _ => none

end Event

/-- The state after a history. -/
def after : History → AppState
  | [] => .initial
  | e :: h => e.step (after h)

/-! ### What was asked for -/

section

variable (fold : String → String)

/-- An address with a key was blocked and not unblocked since. -/
def Blocked (key : String) : History → Prop :=
  Since (fun e => ∃ a, e.change = some (.unblock a) ∧ fold a = key)
    (Now fun e => ∃ a, e.change = some (.block a) ∧ fold a = key)

/-- A pair of addresses with these keys was blocked and not unblocked since. -/
def PairBlocked (key key' : String) : History → Prop :=
  Since (fun e => ∃ s r, e.change = some (.unblockPair s r) ∧ fold s = key ∧ fold r = key')
    (Now fun e => ∃ s r, e.change = some (.blockPair s r) ∧ fold s = key ∧ fold r = key')

/-- The mail server reads a key from a table. -/
def Listed (table : Option String) (key : String) : Prop :=
  ∃ text, table = some text ∧ key ∈ (Postfix.keys text).map fold

/-- The tables and the file mean what was asked for. -/
structure Exact (s : AppState) (h : History) : Prop where
  recipients : ∀ key, Listed fold s.disk.recipientAccess key ↔ Blocked fold key h
  senders : ∀ key, Listed fold s.disk.senderAccess key ↔ ∃ key', PairBlocked fold key key' h
  restarted_recipients : ∀ key,
    (∃ a ∈ (AccessMaps.loadOrInit true s.disk.accessMaps).blockedRecipients, fold a = key) ↔
      Blocked fold key h
  restarted_pairs : ∀ key key',
    (∃ sender recipient,
      (AccessMaps.loadOrInit true s.disk.accessMaps).BlocksPair sender recipient ∧
        fold sender = key ∧ fold recipient = key') ↔
      PairBlocked fold key key' h

/-- What is blocked can be a key, and what is unblocked is spelled as it was blocked. -/
def Change.Readable (maps : AccessMaps) : Change → Prop
  | .block address => Text.startsWith address "#" = false
  | .blockPair sender _ => Text.startsWith sender "#" = false
  | .unblock address => ∀ a ∈ maps.blockedRecipients, fold a = fold address → a = address
  | .unblockPair sender recipient => ∀ s r, maps.BlocksPair s r → fold s = fold sender →
      fold r = fold recipient → s = sender ∧ r = recipient

/-- Nothing of what happens is lost or misread. -/
def Event.Kept (e : Event) (h : History) : Prop :=
  match e with
  | .request r o => e.change = some r.change →
      r.change.Readable fold (after h).maps ∧ o.save = .done ∧ o.recipients = .done ∧
        o.senders = .done
  | .restart readable _ _ => readable = true

end

/-! ### The maps follow the requests -/

/-- A request is answered with success if its addresses are admitted, and then it is done. -/
theorem handle_cases (r : Request) (o : Outcomes) (s : AppState) :
  (r.handle o s).1 = (r.handle o .initial).1 ∧
    ((r.handle o s).1.status = 200 → r.change.addresses.all isValid = true ∧
      (r.handle o s).2 = s.commit r.change.edit o) ∧
    ((r.handle o s).1.status ≠ 200 → (r.handle o s).2 = s)
  := by
  have hchange : ∀ addresses edit body, (change addresses edit body o s).1 =
      (change addresses edit body o .initial).1 ∧
      ((change addresses edit body o s).1.status = 200 → body = body →
        addresses.all isValid = true ∧ (change addresses edit body o s).2 = s.commit edit o) ∧
      ((change addresses edit body o s).1.status ≠ 200 →
        (change addresses edit body o s).2 = s) := by
    intro addresses edit body
    unfold change
    split
    · rename_i h
      simp [h]
    · simp [invalidAddress]
  cases r with
  | deleteAccount address =>
      simp only [Request.handle, deleteAccount]
      split
      · simp [invalidAddress]
      · rename_i hvalid
        split
        · simp
        · simp only [Bool.not_eq_true, Bool.or_eq_false_iff, Bool.not_eq_false'] at hvalid
          simp [Request.change, Change.addresses, Change.edit, hvalid.1]
  | blockRecipient address =>
      obtain ⟨h, h', h''⟩ := hchange [address] (·.blockRecipient address) _
      exact ⟨h, fun hs => h' hs rfl, h''⟩
  | unblockRecipient address =>
      obtain ⟨h, h', h''⟩ := hchange [address] (·.unblockRecipient address) _
      exact ⟨h, fun hs => h' hs rfl, h''⟩
  | blockSenderPair sender recipient =>
      obtain ⟨h, h', h''⟩ := hchange [sender, recipient] (·.blockSenderPair sender recipient) _
      exact ⟨h, fun hs => h' hs rfl, h''⟩
  | unblockSenderPair sender recipient =>
      obtain ⟨h, h', h''⟩ := hchange [sender, recipient] (·.unblockSenderPair sender recipient) _
      exact ⟨h, fun hs => h' hs rfl, h''⟩

variable {fold : String → String}

/-- The maps in memory and in the file mean what was asked for, and what they hold can be
keys. -/
structure Follows (fold : String → String) (s : AppState) (h : History) : Prop where
  recipients : ∀ key, (∃ a ∈ s.maps.blockedRecipients, fold a = key) ↔ Blocked fold key h
  pairs : ∀ key key', (∃ sender recipient, s.maps.BlocksPair sender recipient ∧
    fold sender = key ∧ fold recipient = key') ↔ PairBlocked fold key key' h
  file : AccessMaps.loadOrInit true s.disk.accessMaps = s.maps
  recipient_words : ∀ a ∈ s.maps.blockedRecipients,
    Postfix.IsWord a ∧ Text.startsWith a "#" = false
  sender_words : ∀ sender recipient, s.maps.BlocksPair sender recipient →
    Postfix.IsWord sender ∧ Text.startsWith sender "#" = false

theorem follows_initial :
  Follows fold .initial []
  := by
  have hpair : ∀ sender recipient, ¬ AccessMaps.init.BlocksPair sender recipient := by
    rintro sender recipient ⟨set, he, _⟩
    exact OrderedMap.mem_entries_empty he
  constructor
  · intro key
    simp [AppState.initial, AccessMaps.init, Blocked, Since, Now]
  · intro key key'
    simp [AppState.initial, hpair, PairBlocked, Since, Now]
  · rfl
  · intro a ha
    exact absurd ha OrderedMap.not_mem_empty
  · intro sender recipient h
    exact absurd h (hpair sender recipient)

/-- What changes nothing of what was asked for. -/
theorem blocked_cons_of_none {e : Event} {h : History} (he : e.change = none) (key : String) :
  Blocked fold key (e :: h) ↔ Blocked fold key h
  := by
  simp [Blocked, since_cons, he]

theorem pairBlocked_cons_of_none {e : Event} {h : History} (he : e.change = none)
    (key key' : String) :
  PairBlocked fold key key' (e :: h) ↔ PairBlocked fold key key' h
  := by
  simp [PairBlocked, since_cons, he]

/-- The recipients that are blocked after a change. -/
theorem Change.recipients {c : Change} {s : AppState} {h : History} {e : Event}
    (hs : Follows fold s h) (he : e.change = some c) (hc : c.Readable fold s.maps)
    (key : String) :
  (∃ a ∈ (c.edit s.maps).blockedRecipients, fold a = key) ↔ Blocked fold key (e :: h)
  := by
  rw [Blocked, since_cons, now_cons, he, ← Blocked, ← hs.recipients]
  cases c with
  | block address =>
      simp [Change.edit, AccessMaps.blockRecipient, or_and_right, exists_or]
  | unblock address =>
      simp only [Change.edit, AccessMaps.unblockRecipient, OrderedMap.mem_erase,
        Option.some.injEq, Change.unblock.injEq, reduceCtorEq, false_and, exists_false, false_or,
        exists_eq_left']
      constructor
      · rintro ⟨a, ⟨ha, hne⟩, rfl⟩
        exact ⟨fun heq => hne (hc a ha heq.symm), a, ha, rfl⟩
      · rintro ⟨hne, a, ha, rfl⟩
        refine ⟨a, ⟨ha, ?_⟩, rfl⟩
        rintro rfl
        exact hne rfl
  | blockPair sender recipient => simp [Change.edit, AccessMaps.blockSenderPair]
  | unblockPair sender recipient =>
      simp [Change.edit]

/-- The pairs that are blocked after a change. -/
theorem Change.pairs {c : Change} {s : AppState} {h : History} {e : Event}
    (hs : Follows fold s h) (he : e.change = some c) (hc : c.Readable fold s.maps)
    (key key' : String) :
  (∃ sender recipient, (c.edit s.maps).BlocksPair sender recipient ∧ fold sender = key ∧
    fold recipient = key') ↔ PairBlocked fold key key' (e :: h)
  := by
  rw [PairBlocked, since_cons, now_cons, he, ← PairBlocked, ← hs.pairs]
  cases c with
  | block address => simp [Change.edit]
  | unblock address => simp [Change.edit]
  | blockPair sender recipient =>
      simp only [Change.edit, AccessMaps.blockSenderPair_blocksPair, Option.some.injEq,
        Change.blockPair.injEq, reduceCtorEq, false_and, exists_false, not_false_eq_true, true_and]
      constructor
      · rintro ⟨s', r', ⟨rfl, rfl⟩ | hpair, hkeys⟩
        · exact .inl ⟨s', r', ⟨rfl, rfl⟩, hkeys⟩
        · exact .inr ⟨s', r', hpair, hkeys⟩
      · rintro (⟨s', r', ⟨rfl, rfl⟩, hkeys⟩ | ⟨s', r', hpair, hkeys⟩)
        · exact ⟨_, _, .inl ⟨rfl, rfl⟩, hkeys⟩
        · exact ⟨s', r', .inr hpair, hkeys⟩
  | unblockPair sender recipient =>
      simp only [Change.edit, AccessMaps.unblockSenderPair_blocksPair, Option.some.injEq,
        Change.unblockPair.injEq, reduceCtorEq, false_and, exists_false, false_or]
      constructor
      · rintro ⟨s', r', ⟨hpair, hne⟩, rfl, rfl⟩
        refine ⟨?_, s', r', hpair, rfl, rfl⟩
        rintro ⟨s'', r'', ⟨rfl, rfl⟩, hs'', hr''⟩
        exact hne (hc s' r' hpair hs''.symm hr''.symm)
      · rintro ⟨hne, s', r', hpair, rfl, rfl⟩
        refine ⟨s', r', ⟨hpair, ?_⟩, rfl, rfl⟩
        rintro ⟨rfl, rfl⟩
        exact hne ⟨_, _, ⟨rfl, rfl⟩, rfl, rfl⟩

/-- What is blocked after a change can be a key. -/
theorem Change.words {c : Change} {s : AppState} {h : History} (hs : Follows fold s h)
    (hvalid : c.addresses.all isValid = true) (hc : c.Readable fold s.maps) :
  (∀ a ∈ (c.edit s.maps).blockedRecipients,
    Postfix.IsWord a ∧ Text.startsWith a "#" = false) ∧
  (∀ sender recipient, (c.edit s.maps).BlocksPair sender recipient →
    Postfix.IsWord sender ∧ Text.startsWith sender "#" = false)
  := by
  have hvalid : ∀ a ∈ c.addresses, Postfix.IsWord a := fun a ha =>
    isWord_of_isValid (List.all_eq_true.mp hvalid a ha)
  cases c with
  | block address =>
      constructor
      · intro a ha
        rcases OrderedMap.mem_insert.mp ha with rfl | ha
        · exact ⟨hvalid a List.mem_cons_self, hc⟩
        · exact hs.recipient_words a ha
      · exact hs.sender_words
  | unblock address =>
      constructor
      · intro a ha
        exact hs.recipient_words a (OrderedMap.mem_erase.mp ha).1
      · exact hs.sender_words
  | blockPair sender recipient =>
      constructor
      · exact hs.recipient_words
      · intro s' r' hpair
        rcases AccessMaps.blockSenderPair_blocksPair.mp hpair with ⟨rfl, rfl⟩ | hpair
        · exact ⟨hvalid s' List.mem_cons_self, hc⟩
        · exact hs.sender_words s' r' hpair
  | unblockPair sender recipient =>
      constructor
      · simp only [Change.edit, AccessMaps.unblockSenderPair_blockedRecipients]
        exact hs.recipient_words
      · intro s' r' hpair
        exact hs.sender_words s' r' (AccessMaps.unblockSenderPair_blocksPair.mp hpair).1

/-- What is kept in memory is what a restart loads. -/
theorem loadOrInit_save (maps : AccessMaps) (disk : Disk) :
  AccessMaps.loadOrInit true (maps.save .done disk).accessMaps = maps
  := by
  change (AccessMaps.fromJson maps.toJson).getD .init = maps
  rw [AccessMaps.fromJson_toJson, Option.getD_some]

theorem follows_step {e : Event} {h : History} (hs : Follows fold (after h) h)
    (hkept : e.Kept fold h) :
  Follows fold (after (e :: h)) (e :: h)
  := by
  cases e with
  | restart readable recipients senders =>
      obtain rfl : readable = true := hkept
      have hmaps : (after (.restart true recipients senders :: h)).maps = (after h).maps := hs.file
      constructor
      · intro key
        rw [hmaps, blocked_cons_of_none rfl, hs.recipients]
      · intro key key'
        rw [hmaps, pairBlocked_cons_of_none rfl, hs.pairs]
      · rw [hmaps]
        exact hs.file
      · rw [hmaps]
        exact hs.recipient_words
      · rw [hmaps]
        exact hs.sender_words
  | request r o =>
      obtain ⟨hreply, hdone, hrefused⟩ := handle_cases r o (after h)
      by_cases hstatus : (r.handle o .initial).1.status = 200
      · have hchange : (Event.request r o).change = some r.change := if_pos hstatus
        obtain ⟨hreadable, hsave, _, _⟩ := hkept hchange
        obtain ⟨hvalid, hcommit⟩ := hdone (hreply ▸ hstatus)
        have hafter : after (.request r o :: h) = (after h).commit r.change.edit o := hcommit
        have hmaps : (after (.request r o :: h)).maps = r.change.edit (after h).maps := by
          rw [hafter]
          rfl
        obtain ⟨hrecipients, hsenders⟩ := Change.words hs hvalid hreadable
        constructor
        · rw [hmaps]
          exact Change.recipients hs hchange hreadable
        · rw [hmaps]
          exact Change.pairs hs hchange hreadable
        · rw [hafter, AppState.commit, hsave]
          exact loadOrInit_save _ (after h).disk
        · rw [hmaps]
          exact hrecipients
        · rw [hmaps]
          exact hsenders
      · have hchange : (Event.request r o).change = none := if_neg hstatus
        have hafter : after (.request r o :: h) = after h := hrefused (hreply ▸ hstatus)
        constructor
        · intro key
          rw [hafter, blocked_cons_of_none hchange, hs.recipients]
        · intro key key'
          rw [hafter, pairBlocked_cons_of_none hchange, hs.pairs]
        · rw [hafter]
          exact hs.file
        · rw [hafter]
          exact hs.recipient_words
        · rw [hafter]
          exact hs.sender_words

theorem follows_after {h : History} (hkept : Throughout (Event.Kept fold) h) :
  Follows fold (after h) h
  := by
  induction h with
  | nil => exact follows_initial
  | cons e h ih => exact follows_step (ih hkept.2) hkept.1

/-! ### The tables -/

theorem keys_of_words {rule : String} {entries : List String} (hrule : '\n' ∉ rule.toList)
    (hwords : ∀ a ∈ entries, Postfix.IsWord a ∧ Text.startsWith a "#" = false) :
  Postfix.keys (Postfix.writeln (AccessMaps.header :: entries.map (· ++ " " ++ rule))) = entries
  := by
  have hheader : '\n' ∉ AccessMaps.header.toList := by decide +kernel
  rw [Postfix.keys_writeln (by decide +kernel) hheader (fun _ _ => hrule)
    fun a ha => (hwords a ha).1,
    List.filter_eq_self]
  intro a ha
  rw [(hwords a ha).2, Bool.not_false]

theorem listed_recipientMap {maps : AccessMaps} (hwords : ∀ a ∈ maps.blockedRecipients,
    Postfix.IsWord a ∧ Text.startsWith a "#" = false) (key : String) :
  Listed fold (some maps.recipientMap) key ↔ ∃ a ∈ maps.blockedRecipients, fold a = key
  := by
  have hrule : '\n' ∉ "REJECT account suspended or deleted".toList := by decide +kernel
  simp only [Listed, Option.some.injEq, exists_eq_left', AccessMaps.recipientMap,
    keys_of_words hrule hwords, List.mem_map, OrderedMap.mem_keys]

theorem listed_senderMap {maps : AccessMaps} (hwords : ∀ sender recipient,
    maps.BlocksPair sender recipient →
      Postfix.IsWord sender ∧ Text.startsWith sender "#" = false) (key : String) :
  Listed fold (some maps.senderMap) key ↔
    ∃ sender recipient, maps.BlocksPair sender recipient ∧ fold sender = key
  := by
  have hrule : '\n' ∉ "REJECT blocked by moderation".toList := by decide +kernel
  have hsenders : ∀ a ∈ maps.blockedSenders,
      Postfix.IsWord a ∧ Text.startsWith a "#" = false := by
    intro a ha
    obtain ⟨recipient, hpair⟩ := AccessMaps.mem_blockedSenders.mp ha
    exact hwords a recipient hpair
  simp only [Listed, Option.some.injEq, exists_eq_left', AccessMaps.senderMap,
    keys_of_words hrule hsenders, List.mem_map, AccessMaps.mem_blockedSenders, exists_and_right]

/-- After every request that was answered with success, the tables and the file mean what was
asked for, if until then nothing was lost or misread. -/
theorem accessMaps_exact (fold : String → String) (e : Event) (h : History)
    (hkept : Throughout (Event.Kept fold) (e :: h)) (he : e.change.isSome = true) :
  Exact fold (after (e :: h)) (e :: h)
  := by
  have hs := follows_after hkept
  cases e with
  | restart readable recipients senders => cases he
  | request r o =>
      obtain ⟨hreply, hdone, _⟩ := handle_cases r o (after h)
      have hstatus : (r.handle o .initial).1.status = 200 := by
        by_contra hstatus
        simp [Event.change, hstatus] at he
      obtain ⟨_, _, hrecipients, hsenders⟩ := hkept.1 (if_pos hstatus)
      have hafter : after (.request r o :: h) = (after h).commit r.change.edit o :=
        (hdone (hreply ▸ hstatus)).2
      have hrecipientAccess : (after (.request r o :: h)).disk.recipientAccess =
          some (after (.request r o :: h)).maps.recipientMap := by
        rw [hafter, AppState.commit, AccessMaps.writePostfixMaps, hrecipients]
        rfl
      have hsenderAccess : (after (.request r o :: h)).disk.senderAccess =
          some (after (.request r o :: h)).maps.senderMap := by
        rw [hafter, AppState.commit, AccessMaps.writePostfixMaps, hsenders]
        rfl
      constructor
      · intro key
        rw [hrecipientAccess, listed_recipientMap hs.recipient_words, hs.recipients]
      · intro key
        rw [hsenderAccess, listed_senderMap hs.sender_words]
        simp only [← hs.pairs]
        constructor
        · rintro ⟨sender, recipient, hpair, rfl⟩
          exact ⟨_, sender, recipient, hpair, rfl, rfl⟩
        · rintro ⟨_, sender, recipient, hpair, rfl, _⟩
          exact ⟨sender, recipient, hpair, rfl⟩
      · rw [hs.file]
        exact hs.recipients
      · rw [hs.file]
        exact hs.pairs

/-! ### An address that is a comment -/

/-- Nothing goes wrong. -/
def Outcomes.good : Outcomes :=
  ⟨false, true, .done, .done, .done⟩

/-- An admitted address is blocked with success. -/
theorem change_blockRecipient {address : String} (h : isValid address = true) (o : Outcomes) :
  (Event.request (.blockRecipient address) o).change = some (.block address)
  := by
  simp [Event.change, Request.handle, blockRecipient, change, h, Request.change]

/-- An address that starts with `#` is answered with success, and is no key of the table. -/
theorem comment_blocked :
  ¬ ∀ (e : Event) (h : History), e.change.isSome = true →
    Exact Text.toAsciiLowercase (after (e :: h)) (e :: h)
  := by
  intro hexact
  have hchange := @change_blockRecipient "#mal@h.ex" (by decide +kernel) .good
  have hblocked : Blocked Text.toAsciiLowercase "#mal@h.ex"
      [.request (.blockRecipient "#mal@h.ex") .good] :=
    .inl ⟨"#mal@h.ex", hchange, by decide +kernel⟩
  obtain ⟨table, htable, hkey⟩ := ((hexact _ [] (by rw [hchange]; rfl)).recipients _).mpr hblocked
  have hvalid : ["#mal@h.ex"].all isValid = true := by decide +kernel
  simp only [after, Event.step, Request.handle, blockRecipient, change, hvalid, if_true] at htable
  obtain rfl : (AccessMaps.init.blockRecipient "#mal@h.ex").recipientMap = table :=
    Option.some.inj htable
  have hkeys : Postfix.keys (AccessMaps.init.blockRecipient "#mal@h.ex").recipientMap = [] := by
    decide +kernel
  rw [hkeys] at hkey
  exact List.not_mem_nil hkey

/-- An address that was blocked before a restart is a key of the table. -/
theorem accessMaps_exact_mal :
  Exact Text.toAsciiLowercase
    (after [.request (.blockRecipient "mal@h.ex") .good, .restart true .done .done,
      .request (.blockRecipient "eve@h.ex") .good])
    [.request (.blockRecipient "mal@h.ex") .good, .restart true .done .done,
      .request (.blockRecipient "eve@h.ex") .good]
  := by
  apply accessMaps_exact
  · refine ⟨fun _ => ⟨?_, rfl, rfl, rfl⟩, rfl, fun _ => ⟨?_, rfl, rfl, rfl⟩, trivial⟩
    · change Text.startsWith "mal@h.ex" "#" = false
      decide +kernel
    · change Text.startsWith "eve@h.ex" "#" = false
      decide +kernel
  · rw [change_blockRecipient (by decide +kernel)]
    rfl

end ChatmailAdmin
