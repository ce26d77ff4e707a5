import Mathlib.Data.String.Basic
import Noombat.Json
import Noombat.Ordered
import Noombat.ChatmailAdmin.PostfixMap

/-!
# Access maps

The addresses that the mail server refuses, as the sidecar of the mail server keeps them:
in memory, in a file that survives a restart, and in the two tables that the mail server
reads.  The requests that block and unblock addresses change all of them in turn; a write
of a file that fails leaves the file in any state, and is not reported.
-/

namespace ChatmailAdmin

/-! ### Addresses -/

def isAsciiWhitespace (b : UInt8) : Bool :=
  b == 0x09 || b == 0x0A || b == 0x0C || b == 0x0D || b == 0x20

def isAsciiControl (b : UInt8) : Bool :=
  b < 0x20 || b == 0x7F

/-- Validate that an address is safe to use as a component of a path. -/
def validateAddress (address : String) : Except String Unit :=
  if address.isEmpty then .error "address is empty"
  else if Text.contains address "/" || Text.contains address "\\" then
    .error "address contains path separator"
  else if Text.contains address ".." then .error "address contains traversal sequence"
  else if Text.contains address "\x00" then .error "address contains null byte"
  else if (Text.asBytes address).any fun b => isAsciiWhitespace b || isAsciiControl b then
    .error "address contains whitespace or control character"
  else if Text.startsWith address "." || Text.startsWith address "-" then
    .error "address starts with disallowed character"
  else if address.toList.count '@' ≠ 1 then .error "address must contain exactly one '@'"
  else .ok ()

/-- Whether an address is admitted. -/
def isValid (address : String) : Bool :=
  (validateAddress address).isOk

/-- An admitted address is one word of a table. -/
theorem isWord_of_isValid {address : String} (h : isValid address = true) :
  Postfix.IsWord address
  := by
  unfold isValid validateAddress at h
  constructor
  · intro hempty
    have hempty : address.isEmpty = true :=
      String.isEmpty_iff.mpr (String.toList_eq_nil_iff.mp hempty)
    rw [if_pos hempty] at h
    cases h
  · intro c hc
    by_contra hspace
    have hspace : c ∈ [' ', '\t', '\n', '\x0b', '\x0c', '\r'] := by
      apply List.contains_iff_mem.mp
      exact (Bool.not_eq_false _).mp hspace
    have hencode : ∀ c ∈ [' ', '\t', '\n', '\x0b', '\x0c', '\r'],
        (String.utf8EncodeChar c).any (fun b => isAsciiWhitespace b || isAsciiControl b) = true :=
      List.all_eq_true.mp (by decide +kernel)
    have hany : (Text.asBytes address).any
        (fun b => isAsciiWhitespace b || isAsciiControl b) = true := by
      rw [Text.asBytes, List.any_flatMap, List.any_eq_true]
      exact ⟨c, hc, hencode c hspace⟩
    simp only [hany, if_true] at h
    repeat' split at h
    all_goals cases h

/-! ### The maps and their file -/

structure AccessMaps where
  blockedRecipients : OrderedSet String
  /-- The recipients to which the mail of each sender is rejected. -/
  senderBlocks : OrderedMap String (OrderedSet String)

namespace AccessMaps

/-- The empty maps. -/
def init : AccessMaps :=
  ⟨.empty, .empty⟩

/-- Whether mail from a sender to a recipient is rejected. -/
def BlocksPair (maps : AccessMaps) (sender recipient : String) : Prop :=
  ∃ set, (sender, set) ∈ maps.senderBlocks.entries ∧ recipient ∈ set

def setToJson (s : OrderedSet String) : Json :=
  .arr (s.keys.map .str)

def toJson (maps : AccessMaps) : Json :=
  .obj [("blocked_recipients", setToJson maps.blockedRecipients),
    ("sender_blocks", .obj (maps.senderBlocks.entries.map fun e => (e.1, setToJson e.2)))]

def setFromJson : Json → Option (OrderedSet String)
  | .arr items => (items.mapM Json.asStr).map fun l => .ofList (l.map fun a => (a, ()))
  | _ => none

def blocksFromJson : Json → Option (OrderedMap String (OrderedSet String))
  | .obj fields =>
      (fields.mapM fun f => (setFromJson f.2).map fun set => (f.1, set)).map .ofList
  | _ => none

/-- The one field with a name. -/
def field (name : String) (fields : List (String × Json)) : Option Json :=
  match fields.filter fun f => f.1 == name with
  | [f] => some f.2
  | _ => none

/-- The maps that a document describes: an object with both fields, or the two values. -/
def fromJson : Json → Option AccessMaps
  | .obj fields => do
      let recipients ← (field "blocked_recipients" fields).bind setFromJson
      let blocks ← (field "sender_blocks" fields).bind blocksFromJson
      return ⟨recipients, blocks⟩
  | .arr [recipients, blocks] => do
      return ⟨← setFromJson recipients, ← blocksFromJson blocks⟩
  | _ => none

end AccessMaps

/-- The file of the access maps: it is not there, it holds no document, or it holds one. -/
inductive File where
  | absent
  | malformed
  | document (j : Json)

/-- The files of the sidecar. -/
structure Disk where
  accessMaps : File
  /-- The text of `check_recipient_access`. -/
  recipientAccess : Option String
  /-- The text of `check_sender_access`. -/
  senderAccess : Option String

/-- How a write of a file ends: a failed one leaves something in its place. -/
inductive Written (α : Type) where
  | done
  | failed (left : α)

/-- What a file holds after a write. -/
def Written.result {α : Type} (a : α) : Written α → α
  | done => a
  | failed left => left

namespace AccessMaps

/-- Load from the persistence file, or initialise empty maps if there is no file that can
be read. -/
def loadOrInit (readable : Bool) (file : File) : AccessMaps :=
  match readable, file with
  | true, .document j => (fromJson j).getD init
  | _, _ => init

/-- Persist the maps. -/
def save (maps : AccessMaps) (w : Written File) (disk : Disk) : Disk :=
  { disk with accessMaps := w.result (.document maps.toJson) }

def header : String :=
  "# Generated by noombat-chatmail-admin. Do not edit."

/-- The table of the blocked recipients. -/
def recipientMap (maps : AccessMaps) : String :=
  Postfix.writeln (header ::
    maps.blockedRecipients.keys.map (· ++ " " ++ "REJECT account suspended or deleted"))

/-- The senders with a block. -/
def blockedSenders (maps : AccessMaps) : List String :=
  (maps.senderBlocks.entries.filter fun e => !e.2.keys.isEmpty).map Prod.fst

/-- The table of the blocked senders, whichever recipients they are blocked to. -/
def senderMap (maps : AccessMaps) : String :=
  Postfix.writeln (header ::
    maps.blockedSenders.map (· ++ " " ++ "REJECT blocked by moderation"))

/-- Write the tables that the mail server reads. -/
def writePostfixMaps (maps : AccessMaps) (recipients senders : Written (Option String))
    (disk : Disk) : Disk :=
  { disk with
    recipientAccess := recipients.result (some maps.recipientMap)
    senderAccess := senders.result (some maps.senderMap) }

/-! ### Edits -/

def blockRecipient (address : String) (maps : AccessMaps) : AccessMaps :=
  { maps with blockedRecipients := maps.blockedRecipients.insert address () }

def unblockRecipient (address : String) (maps : AccessMaps) : AccessMaps :=
  { maps with blockedRecipients := maps.blockedRecipients.erase address }

def blockSenderPair (sender recipient : String) (maps : AccessMaps) : AccessMaps :=
  let set := (maps.senderBlocks.get? sender).getD .empty
  { maps with senderBlocks := maps.senderBlocks.insert sender (set.insert recipient ()) }

def unblockSenderPair (sender recipient : String) (maps : AccessMaps) : AccessMaps :=
  match maps.senderBlocks.get? sender with
  | none => maps
  | some set =>
      let set := set.erase recipient
      if set.keys.isEmpty then { maps with senderBlocks := maps.senderBlocks.erase sender }
      else { maps with senderBlocks := maps.senderBlocks.insert sender set }

/-! ### What a document says of the maps -/

theorem mapM_eq_some {α β γ : Type} {f : α → β} {g : β → Option γ} {h : α → γ} (l : List α)
    (hg : ∀ a, g (f a) = some (h a)) :
  (l.map f).mapM g = some (l.map h)
  := by
  induction l with
  | nil => rfl
  | cons a l ih => simp [List.mapM_cons, hg, ih]

theorem setFromJson_setToJson (s : OrderedSet String) :
  setFromJson (setToJson s) = some s
  := by
  have hitems : (s.keys.map Json.str).mapM Json.asStr = some (s.keys.map id) :=
    mapM_eq_some s.keys fun _ => rfl
  have hentries : s.keys.map (fun a => (a, ())) = s.entries := by
    rw [OrderedMap.keys, List.map_map]
    exact List.map_id s.entries
  rw [setToJson, setFromJson, hitems, Option.map_some, List.map_id, hentries,
    OrderedMap.ofList_entries]

/-- The maps that are read are those that were written. -/
theorem fromJson_toJson (maps : AccessMaps) :
  fromJson maps.toJson = some maps
  := by
  have hentries : (maps.senderBlocks.entries.map fun e => (e.1, setToJson e.2)).mapM
      (fun f => (setFromJson f.2).map fun set => (f.1, set)) =
        some (maps.senderBlocks.entries.map id) := by
    apply mapM_eq_some
    intro e
    rw [setFromJson_setToJson]
    rfl
  have hblocks : blocksFromJson
      (.obj (maps.senderBlocks.entries.map fun e => (e.1, setToJson e.2))) =
        some maps.senderBlocks := by
    rw [blocksFromJson, hentries, List.map_id, Option.map_some, OrderedMap.ofList_entries]
  have hrecipients : field "blocked_recipients"
      [("blocked_recipients", setToJson maps.blockedRecipients),
        ("sender_blocks", .obj (maps.senderBlocks.entries.map fun e => (e.1, setToJson e.2)))] =
      some (setToJson maps.blockedRecipients) := rfl
  have hsenders : field "sender_blocks"
      [("blocked_recipients", setToJson maps.blockedRecipients),
        ("sender_blocks", .obj (maps.senderBlocks.entries.map fun e => (e.1, setToJson e.2)))] =
      some (.obj (maps.senderBlocks.entries.map fun e => (e.1, setToJson e.2))) := rfl
  rw [toJson, fromJson, hrecipients, hsenders, Option.bind_some, Option.bind_some,
    setFromJson_setToJson, hblocks]
  rfl

/-! ### What edits do -/

theorem mem_blockedSenders {maps : AccessMaps} {sender : String} :
  sender ∈ maps.blockedSenders ↔ ∃ recipient, maps.BlocksPair sender recipient
  := by
  rw [blockedSenders, List.mem_map]
  constructor
  · rintro ⟨⟨sender, set⟩, he, rfl⟩
    obtain ⟨he, hset⟩ := List.mem_filter.mp he
    cases hkeys : set.keys with
    | nil => simp [hkeys] at hset
    | cons r rs =>
        use r, set, he
        rw [← OrderedMap.mem_keys, hkeys]
        exact List.mem_cons_self
  · rintro ⟨r, set, he, hr⟩
    refine ⟨(sender, set), List.mem_filter.mpr ⟨he, ?_⟩, rfl⟩
    rw [← OrderedMap.mem_keys] at hr
    cases hkeys : set.keys with
    | nil => simp [hkeys] at hr
    | cons r rs => rfl

@[simp]
theorem blockRecipient_blocksPair {address : String} {maps : AccessMaps} {s r : String} :
  (maps.blockRecipient address).BlocksPair s r ↔ maps.BlocksPair s r
  := Iff.rfl

@[simp]
theorem unblockRecipient_blocksPair {address : String} {maps : AccessMaps} {s r : String} :
  (maps.unblockRecipient address).BlocksPair s r ↔ maps.BlocksPair s r
  := Iff.rfl

/-- A pair under a key whose value is replaced. -/
theorem exists_insert {blocks : OrderedMap String (OrderedSet String)} {sender s r : String}
    {set : OrderedSet String} :
  (∃ set', (s, set') ∈ (blocks.insert sender set).entries ∧ r ∈ set') ↔
    (s = sender ∧ r ∈ set) ∨ (s ≠ sender ∧ ∃ set', (s, set') ∈ blocks.entries ∧ r ∈ set')
  := by
  by_cases h : s = sender
  · simp [h]
  · simp [h]

theorem blockSenderPair_blocksPair {sender recipient : String} {maps : AccessMaps}
    {s r : String} :
  (maps.blockSenderPair sender recipient).BlocksPair s r ↔
    (s = sender ∧ r = recipient) ∨ maps.BlocksPair s r
  := by
  rw [BlocksPair, blockSenderPair, exists_insert]
  by_cases hs : s = sender
  · subst hs
    cases hfound : maps.senderBlocks.get? s with
    | none =>
        have hnone : ¬ maps.BlocksPair s r := by
          rintro ⟨set, he, _⟩
          exact OrderedMap.get?_eq_none.mp hfound (OrderedMap.mem_iff.mpr ⟨set, he⟩)
        simp [hnone]
    | some set =>
        have hset : maps.BlocksPair s r ↔ r ∈ set := by
          constructor
          · rintro ⟨set', he, hr⟩
            rwa [OrderedMap.eq_of_mem_entries (OrderedMap.get?_eq_some.mp hfound) he]
          · intro hr
            exact ⟨set, OrderedMap.get?_eq_some.mp hfound, hr⟩
        simp [hset]
  · simp [hs, BlocksPair]

@[simp]
theorem unblockSenderPair_blockedRecipients {sender recipient : String} {maps : AccessMaps} :
  (maps.unblockSenderPair sender recipient).blockedRecipients = maps.blockedRecipients
  := by
  unfold unblockSenderPair
  split
  · rfl
  · simp only
    split <;> rfl

theorem unblockSenderPair_blocksPair {sender recipient : String} {maps : AccessMaps}
    {s r : String} :
  (maps.unblockSenderPair sender recipient).BlocksPair s r ↔
    maps.BlocksPair s r ∧ ¬ (s = sender ∧ r = recipient)
  := by
  rw [unblockSenderPair]
  cases hfound : maps.senderBlocks.get? sender with
  | none =>
      have hnone : maps.BlocksPair s r → s ≠ sender := by
        rintro ⟨set, he, _⟩ rfl
        exact OrderedMap.get?_eq_none.mp hfound (OrderedMap.mem_iff.mpr ⟨set, he⟩)
      constructor
      · intro h
        exact ⟨h, fun heq => hnone h heq.1⟩
      · exact And.left
  | some set =>
      have hset : maps.BlocksPair sender r ↔ r ∈ set := by
        constructor
        · rintro ⟨set', he, hr⟩
          rwa [OrderedMap.eq_of_mem_entries (OrderedMap.get?_eq_some.mp hfound) he]
        · intro hr
          exact ⟨set, OrderedMap.get?_eq_some.mp hfound, hr⟩
      by_cases hs : s = sender
      · subst hs
        rw [hset]
        simp only
        split
        · rename_i hempty
          have hnot : ¬ r ∈ set.erase recipient := by
            rw [← OrderedMap.mem_keys, List.isEmpty_iff.mp hempty]
            exact List.not_mem_nil
          rw [OrderedMap.mem_erase] at hnot
          simp only [BlocksPair, OrderedMap.mem_entries_erase, ne_eq, not_true_eq_false,
            and_false, false_and, exists_false, true_and, false_iff]
          exact hnot
        · rw [BlocksPair, exists_insert]
          simp
      · simp only
        split
        · simp [BlocksPair, hs]
        · rw [BlocksPair, exists_insert]
          simp [BlocksPair, hs]

end AccessMaps

/-! ### Requests -/

structure AppState where
  maps : AccessMaps
  disk : Disk

/-- What happens to a request outside the maps. -/
structure Outcomes where
  /-- The directory of the account resolves to one outside that of all accounts. -/
  escapes : Bool
  /-- The directory of the account is not there, or it is removed. -/
  removed : Bool
  save : Written File
  recipients : Written (Option String)
  senders : Written (Option String)

structure Reply where
  status : Nat
  body : Json

def invalidAddress : Reply :=
  ⟨400, .obj [("error", .str "invalid address")]⟩

/-- Change the maps, persist them and write the tables, while no other request does. -/
def AppState.commit (edit : AccessMaps → AccessMaps) (o : Outcomes) (s : AppState) : AppState :=
  let maps := edit s.maps
  ⟨maps, maps.writePostfixMaps o.recipients o.senders (maps.save o.save s.disk)⟩

/-- A request that only changes the maps. -/
def change (addresses : List String) (edit : AccessMaps → AccessMaps) (body : Json)
    (o : Outcomes) (s : AppState) : Reply × AppState :=
  if addresses.all isValid then (⟨200, body⟩, s.commit edit o) else (invalidAddress, s)

def deleteAccount (address : String) (o : Outcomes) (s : AppState) : Reply × AppState :=
  if !isValid address || o.escapes then (invalidAddress, s)
  else if !o.removed then (⟨500, .obj [("error", .str "account deletion failed")]⟩, s)
  else
    (⟨200, .obj [("address", .str address), ("deleted", .bool true)]⟩,
      s.commit (·.blockRecipient address) o)

def blockRecipient (address : String) : Outcomes → AppState → Reply × AppState :=
  change [address] (·.blockRecipient address)
    (.obj [("address", .str address), ("blocked", .bool true)])

def unblockRecipient (address : String) : Outcomes → AppState → Reply × AppState :=
  change [address] (·.unblockRecipient address)
    (.obj [("address", .str address), ("unblocked", .bool true)])

def blockSenderPair (sender recipient : String) : Outcomes → AppState → Reply × AppState :=
  change [sender, recipient] (·.blockSenderPair sender recipient)
    (.obj [("sender", .str sender), ("recipient", .str recipient), ("blocked", .bool true)])

def unblockSenderPair (sender recipient : String) : Outcomes → AppState → Reply × AppState :=
  change [sender, recipient] (·.unblockSenderPair sender recipient)
    (.obj [("sender", .str sender), ("recipient", .str recipient), ("unblocked", .bool true)])

/-- Start the sidecar on what the disk holds. -/
def restart (readable : Bool) (recipients senders : Written (Option String)) (s : AppState) :
    AppState :=
  let maps := AccessMaps.loadOrInit readable s.disk.accessMaps
  ⟨maps, maps.writePostfixMaps recipients senders s.disk⟩

end ChatmailAdmin
