import Noombat.Chat.PeerSync
import Noombat.JsMap
import Noombat.JsonReading

/-!
# The stored peer state

The table of peers is a map of JavaScript.  To be stored in the encrypted blob it is copied to an
object, whose properties are written as JSON; a client that unlocks the blob reads them back.
The object has no property for the peer whose address is the name of the prototype, so what
messages tell of this peer is never stored.
-/

namespace Chat

open PeerStateTable
open JsObject (protoName)

/-- The peers that are known, in the order in which they became known. -/
abbrev PeerMap : Type :=
  JsMap String PeerState

/-! ### A peer as JSON -/

namespace PeerState

def byteJson (b : UInt8) : Json :=
  .ofInt b.toNat

def readByte (j : Json) : Option UInt8 :=
  (j.asInt.filter fun n => decide (0 ≤ n ∧ n < 256)).map fun n => UInt8.ofNat n.toNat

def preferJson : PreferEncrypt → Json
  | .mutual => .str "mutual"
  | .nopreference => .str "nopreference"

def readPrefer : Json → Option PreferEncrypt
  | .str "mutual" => some .mutual
  | .str "nopreference" => some .nopreference
  | _ => none

def keyJson (key : List UInt8) : Json :=
  .ofList byteJson key

def readKey (j : Json) : Option (List UInt8) :=
  j.asList readByte

def toJson (entry : PeerState) : Json :=
  .obj [("lastSeen", .ofInt entry.lastSeen),
    ("lastSeenAutocrypt", .ofInt entry.lastSeenAutocrypt),
    ("publicKey", keyJson entry.publicKey),
    ("preferEncrypt", preferJson entry.preferEncrypt),
    ("gossipKey", .ofNullable keyJson entry.gossipKey),
    ("gossipTimestamp", .ofNullable .ofInt entry.gossipTimestamp),
    ("lastKeyChangeAt", .ofNullable .ofInt entry.lastKeyChangeAt)]

/-- The peer that a value is the JSON of, with the defaults of an empty state for the fields that
are missing. -/
def ofJson (v : Json) : Option PeerState := do
  let lastSeen ← v.field "lastSeen" Json.asInt emptyPeerState.lastSeen
  let lastSeenAutocrypt ← v.field "lastSeenAutocrypt" Json.asInt emptyPeerState.lastSeenAutocrypt
  let publicKey ← v.field "publicKey" readKey emptyPeerState.publicKey
  let preferEncrypt ← v.field "preferEncrypt" readPrefer emptyPeerState.preferEncrypt
  let gossipKey ← v.field "gossipKey" (Json.asNullable readKey) emptyPeerState.gossipKey
  let gossipTimestamp ←
    v.field "gossipTimestamp" (Json.asNullable Json.asInt) emptyPeerState.gossipTimestamp
  let lastKeyChangeAt ← v.field "lastKeyChangeAt" (Json.asNullable Json.asInt) none
  some ⟨lastSeen, lastSeenAutocrypt, publicKey, preferEncrypt, gossipKey, gossipTimestamp,
    lastKeyChangeAt⟩

theorem readByte_byteJson (b : UInt8) :
  readByte (byteJson b) = some b
  := by
  have hbyte : (0 : Int) ≤ b.toNat ∧ (b.toNat : Int) < 256 := by
    have hlt := b.toNat_lt
    omega
  rw [readByte, byteJson, Json.asInt_ofInt, Option.filter_some, decide_eq_true hbyte, if_pos rfl,
    Option.map_some, Int.toNat_natCast, UInt8.ofNat_toNat]

theorem readKey_keyJson (key : List UInt8) :
  readKey (keyJson key) = some key
  := Json.asList_ofList readByte_byteJson key

theorem readPrefer_preferJson (preferEncrypt : PreferEncrypt) :
  readPrefer (preferJson preferEncrypt) = some preferEncrypt
  := by
  rcases preferEncrypt with _ | _
  · rfl
  · rfl

theorem ofNullable_int (n : Option Int) :
  (Json.ofNullable Json.ofInt n).asNullable Json.asInt = some n
  := by
  apply Json.asNullable_ofNullable Json.asInt_ofInt
  intro n
  nofun

theorem ofNullable_key (key : Option (List UInt8)) :
  (Json.ofNullable keyJson key).asNullable readKey = some key
  := by
  apply Json.asNullable_ofNullable readKey_keyJson
  intro key
  nofun

/-- A peer that is written is read back. -/
@[simp]
theorem ofJson_toJson (entry : PeerState) :
  ofJson entry.toJson = some entry
  := by
  have hseen : entry.toJson.field "lastSeen" Json.asInt emptyPeerState.lastSeen =
      some entry.lastSeen := Json.field_of_get rfl (Json.asInt_ofInt _)
  have hautocrypt : entry.toJson.field "lastSeenAutocrypt" Json.asInt
      emptyPeerState.lastSeenAutocrypt = some entry.lastSeenAutocrypt :=
    Json.field_of_get rfl (Json.asInt_ofInt _)
  have hkey : entry.toJson.field "publicKey" readKey emptyPeerState.publicKey =
      some entry.publicKey := Json.field_of_get rfl (readKey_keyJson _)
  have hprefer : entry.toJson.field "preferEncrypt" readPrefer emptyPeerState.preferEncrypt =
      some entry.preferEncrypt := Json.field_of_get rfl (readPrefer_preferJson _)
  have hgossip : entry.toJson.field "gossipKey" (Json.asNullable readKey)
      emptyPeerState.gossipKey = some entry.gossipKey := Json.field_of_get rfl (ofNullable_key _)
  have htimestamp : entry.toJson.field "gossipTimestamp" (Json.asNullable Json.asInt)
      emptyPeerState.gossipTimestamp = some entry.gossipTimestamp :=
    Json.field_of_get rfl (ofNullable_int _)
  have hchange : entry.toJson.field "lastKeyChangeAt" (Json.asNullable Json.asInt) none =
      some entry.lastKeyChangeAt := Json.field_of_get rfl (ofNullable_int _)
  rw [ofJson, hseen, hautocrypt, hkey, hprefer, hgossip, htimestamp, hchange]
  rfl

theorem toJson_inj {entry entry' : PeerState} (h : entry.toJson = entry'.toJson) :
  entry = entry'
  := by
  have hread := congrArg ofJson h
  rw [ofJson_toJson, ofJson_toJson] at hread
  exact Option.some.inj hread

end PeerState

namespace PeerMap

/-! ### The operations of the table -/

section Operations

variable (lib : Library)

/-- What is known, whatever the order in which it became known. -/
def toTable (m : PeerMap) : PeerStateTable :=
  ⟨fun addr => m.get addr⟩

/-- Update the table on receipt of a message.  An entry that is changed keeps its place. -/
def update (msg : IncomingMessage) (m : PeerMap) : UpdateResult × PeerMap :=
  let addr := canonicalise lib msg.from
  match applicableHeader lib msg with
  | none =>
      match m.get addr with
      | none => (⟨false, false⟩, m)
      | some entry =>
          (⟨decide (msg.effectiveDate > entry.lastSeen), false⟩,
            m.set addr (seenAt msg.effectiveDate entry))
  | some header =>
      let created := (m.get addr).isNone
      let entry := seenAt msg.effectiveDate ((m.get addr).getD emptyPeerState)
      if msg.effectiveDate > entry.lastSeenAutocrypt then
        (⟨true, replacesKey header entry⟩, m.set addr (adopt msg.effectiveDate header entry))
      else (⟨created, false⟩, m.set addr entry)

/-- Whether a gossiped key replaces a known one. -/
def replacesGossip (key : List UInt8) (entry : PeerState) : Bool :=
  match entry.gossipKey with
  | none => false
  | some known => decide (known.length > 0) && known != key

/-- The state of a peer, with a gossiped key. -/
def adoptGossip (key : List UInt8) (timestamp : Int) (entry : PeerState) : PeerState :=
  { entry with
    gossipKey := some key
    gossipTimestamp := some timestamp
    lastKeyChangeAt := if replacesGossip key entry then some timestamp else entry.lastKeyChangeAt }

/-- Whether gossip is newer than what is known of a peer. -/
def dominated (timestamp : Int) (entry : PeerState) : Bool :=
  entry.gossipTimestamp.all fun known => decide (timestamp > known)

/-- Apply a gossip header. -/
def updateGossip (addr : String) (key : List UInt8) (timestamp : Int) (m : PeerMap) :
    UpdateResult × PeerMap :=
  let canonical := canonicalise lib addr
  let entry := (m.get canonical).getD emptyPeerState
  if dominated timestamp entry then
    (⟨true, replacesGossip key entry⟩, m.set canonical (adoptGossip key timestamp entry))
  else (⟨false, false⟩, m.set canonical entry)

end Operations

/-! ### The table as JSON -/

/-- The table as a JSON object. -/
def toJson (m : PeerMap) : Json :=
  let obj := JsObject.assignAll m.entries .empty
  .obj ((JsObject.enumerate obj.entries).map (Prod.map id PeerState.toJson))

/-- The table of a JSON object, if that has values of the type that is asserted of it. -/
def fromJson : Json → Option PeerMap
  | .obj fields => do
      let entries ← (JsObject.enumerate fields).mapM fun f =>
        (PeerState.ofJson f.2).map fun entry => (f.1, entry)
      some (JsMap.setAll entries .empty)
  | _ => none

/-- The tables that messages and gossip build from the empty table, with storage in between. -/
inductive Reachable (lib : Library) : PeerMap → Prop where
  | empty : Reachable lib .empty
  | update {m : PeerMap} (h : Reachable lib m) (msg : IncomingMessage) :
      Reachable lib (m.update lib msg).2
  | updateGossip {m : PeerMap} (h : Reachable lib m) (addr : String) (key : List UInt8)
      (timestamp : Int) : Reachable lib (m.updateGossip lib addr key timestamp).2
  | restored {m m' : PeerMap} (h : Reachable lib m) (hjson : fromJson m.toJson = some m') :
      Reachable lib m'

/-! ### The abstract table -/

variable {lib : Library}

theorem toTable_set (addr : String) (entry : PeerState) (m : PeerMap) :
  toTable (m.set addr entry) = (toTable m).set addr entry
  := by
  apply ext_peers
  intro addr'
  by_cases haddr : addr' = addr
  · subst haddr
    rw [set_peers_same]
    apply JsMap.get_set_self
  · rw [set_peers_other haddr]
    apply JsMap.get_set_of_ne haddr

/-- A message does to the map what it does to the table. -/
theorem update_toTable (m : PeerMap) (msg : IncomingMessage) :
  (m.update lib msg).1 = ((toTable m).update lib msg).1 ∧
    toTable (m.update lib msg).2 = ((toTable m).update lib msg).2
  := by
  have hpeers : (toTable m).peers (canonicalise lib msg.from) =
      m.get (canonicalise lib msg.from) := rfl
  rw [update, PeerStateTable.update]
  simp only [hpeers]
  cases applicableHeader lib msg with
  | none =>
      cases m.get (canonicalise lib msg.from) with
      | none => exact ⟨rfl, rfl⟩
      | some entry => exact ⟨rfl, toTable_set _ _ _⟩
  | some header =>
      simp only
      split
      · exact ⟨rfl, toTable_set _ _ _⟩
      · exact ⟨rfl, toTable_set _ _ _⟩

/-- A message sets at most the entry of its sender. -/
theorem update_sets (m : PeerMap) (msg : IncomingMessage) :
  (m.update lib msg).2 = m ∨
    ∃ entry, (m.update lib msg).2 = m.set (canonicalise lib msg.from) entry
  := by
  rw [update]
  cases applicableHeader lib msg with
  | none =>
      cases m.get (canonicalise lib msg.from) with
      | none => exact Or.inl rfl
      | some entry => exact Or.inr ⟨_, rfl⟩
  | some header =>
      simp only
      split
      · exact Or.inr ⟨_, rfl⟩
      · exact Or.inr ⟨_, rfl⟩

/-- A message that is known leaves the map as it is. -/
theorem update_of_known {m : PeerMap} {msg : IncomingMessage}
    (h : Known lib (toTable m) msg) :
  (m.update lib msg).2 = m
  := by
  have hsame := (update_eq_iff (toTable m) msg).mpr h
  rw [← (update_toTable m msg).2] at hsame
  rcases update_sets m msg with hkept | ⟨entry, hset⟩
  · exact hkept
  · rw [hset] at hsame ⊢
    apply JsMap.set_of_get
    have hentry : (m.set (canonicalise lib msg.from) entry).get (canonicalise lib msg.from) =
        m.get (canonicalise lib msg.from) := congrFun (congrArg PeerStateTable.peers hsame) _
    rw [← hentry]
    apply JsMap.get_set_self

/-! ### The dates of the map -/

/-- No key is dated after the last message of its peer. -/
def Dated (m : PeerMap) : Prop :=
  Session.Dated (toTable m)

theorem Dated.set {m : PeerMap} (h : Dated m) (addr : String) {entry : PeerState}
    (hentry : entry.lastSeenAutocrypt ≤ entry.lastSeen) :
  Dated (m.set addr entry)
  := by
  intro addr' entry' hget
  rw [toTable_set] at hget
  by_cases haddr : addr' = addr
  · subst haddr
    rw [set_peers_same] at hget
    obtain rfl := Option.some.inj hget
    exact hentry
  · rw [set_peers_other haddr] at hget
    apply h _ _ hget

theorem Dated.getD {m : PeerMap} (h : Dated m) (addr : String) :
  ((m.get addr).getD emptyPeerState).lastSeenAutocrypt ≤
    ((m.get addr).getD emptyPeerState).lastSeen
  := by
  cases hget : m.get addr with
  | none => apply le_rfl
  | some entry => apply h _ _ hget

theorem Dated.updateGossip {m : PeerMap} (h : Dated m) (addr : String) (key : List UInt8)
    (timestamp : Int) :
  Dated (m.updateGossip lib addr key timestamp).2
  := by
  rw [PeerMap.updateGossip]
  split
  · apply h.set
    apply h.getD
  · apply h.set
    apply h.getD

/-! ### What is restored -/

/-- The entries that are written are those of the map, but that of the prototype. -/
theorem entries_assignAll (m : PeerMap) :
  (JsObject.assignAll m.entries .empty).entries =
    m.entries.filter fun e => JsObject.isOwnName e.1
  := by
  rw [JsObject.assignAll_eq]
  apply JsMap.entries_setAll_empty
  have hsub : (m.entries.filter fun e => JsObject.isOwnName e.1).Sublist m.entries :=
    List.filter_sublist
  exact (hsub.map Prod.fst).nodup m.nodup

/-- The entries that are restored, in the order in which they are written. -/
def stored (m : PeerMap) : List (String × PeerState) :=
  JsObject.enumerate (m.entries.filter fun e => JsObject.isOwnName e.1)

theorem toJson_eq (m : PeerMap) :
  m.toJson = .obj (m.stored.map (Prod.map id PeerState.toJson))
  := by
  rw [toJson, entries_assignAll]
  rfl

theorem nodup_ownEntries (m : PeerMap) :
  ((m.entries.filter fun e => JsObject.isOwnName e.1).map Prod.fst).Nodup
  := by
  have hsub : (m.entries.filter fun e => JsObject.isOwnName e.1).Sublist m.entries :=
    List.filter_sublist
  exact (hsub.map Prod.fst).nodup m.nodup

theorem nodup_stored (m : PeerMap) :
  (m.stored.map Prod.fst).Nodup
  := ((JsObject.enumerate_perm _).map Prod.fst).nodup_iff.mpr m.nodup_ownEntries

/-- What is stored of a peer. -/
theorem lookup_stored (m : PeerMap) (addr : String) :
  m.stored.lookup addr = if addr = protoName then none else m.get addr
  := by
  have hlookup : m.stored.lookup addr =
      if JsObject.isOwnName addr then m.entries.lookup addr else none :=
    (Entries.lookup_perm (JsObject.enumerate_perm _) m.nodup_ownEntries addr).trans
      (Entries.lookup_filter JsObject.isOwnName addr m.entries)
  rw [hlookup, JsObject.isOwnName]
  by_cases haddr : addr = protoName
  · rw [if_pos haddr, if_neg]
    simp [haddr]
  · rw [if_neg haddr, if_pos (decide_eq_true haddr)]
    rfl

theorem get_toJson (m : PeerMap) (addr : String) :
  m.toJson.get addr =
    if addr = protoName then none else (m.get addr).map PeerState.toJson
  := by
  rw [toJson_eq, Json.get_obj, Entries.lookup_map, lookup_stored]
  split
  · rfl
  · rfl

/-- The entry of the prototype is not written. -/
theorem toJson_set_proto (m : PeerMap) (entry : PeerState) :
  toJson (m.set protoName entry) = m.toJson
  := by
  have hown : JsObject.isOwnName protoName = false := decide_eq_false (by simp)
  have hfilter : ((m.set protoName entry).entries.filter fun e => JsObject.isOwnName e.1) =
      m.entries.filter fun e => JsObject.isOwnName e.1 :=
    Entries.filter_set hown entry m.entries
  rw [toJson_eq, toJson_eq, stored, stored, hfilter]

/-- The table that is restored. -/
def restored (m : PeerMap) : PeerMap :=
  JsMap.setAll (JsObject.enumerate m.stored) .empty

/-- What is written can be read. -/
theorem fromJson_toJson (m : PeerMap) :
  fromJson m.toJson = some m.restored
  := by
  have hread : ((JsObject.enumerate m.stored).map (Prod.map id PeerState.toJson)).mapM
      (fun f => (PeerState.ofJson f.2).map fun entry => (f.1, entry)) =
      some (JsObject.enumerate m.stored) := by
    apply Json.mapM_map_eq_some
    intro e
    change (PeerState.ofJson e.2.toJson).map (fun entry => (e.1, entry)) = some e
    rw [PeerState.ofJson_toJson]
    rfl
  rw [toJson_eq, fromJson, JsObject.enumerate_map, hread]
  rfl

/-- All that is known is restored, but of the prototype. -/
theorem get_restored (m : PeerMap) (addr : String) :
  m.restored.get addr = if addr = protoName then none else m.get addr
  := by
  have hperm := JsObject.enumerate_perm m.stored
  have hentries : m.restored.entries = JsObject.enumerate m.stored := by
    apply JsMap.entries_setAll_empty
    exact (hperm.map Prod.fst).nodup_iff.mpr m.nodup_stored
  rw [JsMap.get, hentries, Entries.lookup_perm hperm m.nodup_stored, lookup_stored]

theorem Dated.restored {m : PeerMap} (h : Dated m) :
  Dated m.restored
  := by
  intro addr entry hget
  have hkept : (if addr = protoName then none else m.get addr) = some entry :=
    (m.get_restored addr).symm.trans hget
  split at hkept
  · cases hkept
  · apply h addr entry hkept

theorem dated_of_reachable {m : PeerMap} (h : Reachable lib m) :
  Dated m
  := by
  induction h with
  | empty =>
      intro addr entry hget
      cases hget
  | update h msg ih =>
      rw [Dated, (update_toTable _ msg).2]
      apply Session.Dated.update ih
  | updateGossip h addr key timestamp ih => exact ih.updateGossip addr key timestamp
  | restored h hjson ih =>
      rw [fromJson_toJson] at hjson
      obtain rfl := Option.some.inj hjson
      exact ih.restored

/-! ### What a message is said to change -/

/-- A message reports a change of what is stored, and a replacement of the key of its sender, just
when there is one. -/
def Reports (lib : Library) (m : PeerMap) (msg : IncomingMessage) : Prop :=
  let addr := canonicalise lib msg.from
  let (result, m') := m.update lib msg
  (result.mutated = true ↔ toJson m' ≠ toJson m) ∧
    (result.keyChanged = true ↔ ∃ known entry, m.get addr = some known ∧
      m'.get addr = some entry ∧ known.publicKey ≠ [] ∧ entry.publicKey ≠ known.publicKey) ∧
    Dated m

/-- A message is said to change the table just when it is news. -/
theorem mutated_iff {m : PeerMap} (hdated : Dated m) (msg : IncomingMessage) :
  (m.update lib msg).1.mutated = true ↔ ¬ Known lib (toTable m) msg
  := by
  rw [(update_toTable m msg).1]
  constructor
  · intro hmutated hknown
    rw [PeerStateTable.update] at hmutated
    rw [Known] at hknown
    cases hheader : applicableHeader lib msg with
    | none =>
        simp only [hheader] at hmutated
        cases hentry : (toTable m).peers (canonicalise lib msg.from) with
        | none =>
            simp only [hentry] at hmutated
            cases hmutated
        | some entry =>
            simp only [hentry] at hmutated hknown
            exact not_lt.mpr hknown.1 (of_decide_eq_true hmutated)
    | some header =>
        cases hentry : (toTable m).peers (canonicalise lib msg.from) with
        | none =>
            simp only [hentry, hheader] at hknown
            cases hknown
        | some entry =>
            simp only [hentry, hheader] at hmutated hknown
            have hold : ¬ msg.effectiveDate > (seenAt msg.effectiveDate
                ((some entry).getD emptyPeerState)).lastSeenAutocrypt := by
              rw [Option.getD_some, lastSeenAutocrypt_seenAt]
              apply not_lt.mpr
              apply hknown.2
              apply Option.some_ne_none
            rw [if_neg hold] at hmutated
            cases hmutated
  · intro hnew
    apply Bool.eq_true_of_not_eq_false
    intro hunmutated
    apply hnew
    exact (update_eq_iff _ msg).mp (Session.update_unmutated hdated hunmutated)

/-- What is written changes just when a message is news, of another sender than the prototype. -/
theorem toJson_update_ne_iff (m : PeerMap) (msg : IncomingMessage) :
  toJson (m.update lib msg).2 ≠ toJson m ↔
    canonicalise lib msg.from ≠ protoName ∧ ¬ Known lib (toTable m) msg
  := by
  constructor
  · intro hdiffer
    constructor
    · intro hproto
      apply hdiffer
      rcases update_sets m msg with hkept | ⟨entry, hset⟩
      · rw [hkept]
      · rw [hset, hproto, toJson_set_proto]
    · intro hknown
      apply hdiffer
      rw [update_of_known hknown]
  · rintro ⟨hproto, hnew⟩ hsame
    apply hnew
    apply (update_eq_iff _ msg).mp
    rw [← (update_toTable m msg).2]
    apply ext_peers
    intro addr
    change (m.update lib msg).2.get addr = m.get addr
    by_cases haddr : addr = canonicalise lib msg.from
    · have hjson := congrArg (Json.get addr) hsame
      rw [get_toJson, get_toJson, if_neg (haddr ▸ hproto), if_neg (haddr ▸ hproto)] at hjson
      apply Option.map_injective _ hjson
      intro entry entry'
      apply PeerState.toJson_inj
    · rcases update_sets m msg with hkept | ⟨entry, hset⟩
      · rw [hkept]
      · rw [hset]
        apply JsMap.get_set_of_ne haddr

/-- A replacement is reported just when a key that was known is another afterwards. -/
theorem keyChanged_iff (m : PeerMap) (msg : IncomingMessage) :
  (m.update lib msg).1.keyChanged = true ↔
    ∃ known entry, m.get (canonicalise lib msg.from) = some known ∧
      (m.update lib msg).2.get (canonicalise lib msg.from) = some entry ∧
      known.publicKey ≠ [] ∧ entry.publicKey ≠ known.publicKey
  := by
  have hseen : ∀ entry : PeerState,
      (seenAt msg.effectiveDate entry).publicKey = entry.publicKey := by
    intro entry
    exact congrArg Advert.publicKey (advertOf_seenAt msg.effectiveDate entry)
  rw [update]
  cases hheader : applicableHeader lib msg with
  | none =>
      cases hget : m.get (canonicalise lib msg.from) with
      | none =>
          simp only
          constructor
          · nofun
          · rintro ⟨known, entry, hknown, _⟩
            cases hknown
      | some entry =>
          simp only [JsMap.get_set_self]
          constructor
          · nofun
          · rintro ⟨known, after, hknown, hafter, _, hdiffer⟩
            rw [← Option.some.inj hknown, ← Option.some.inj hafter] at hdiffer
            exact absurd (hseen _) hdiffer
  | some header =>
      simp only
      split
      · simp only [JsMap.get_set_self, replacesKey, hseen, Bool.and_eq_true, decide_eq_true_eq,
          bne_iff_ne]
        cases hget : m.get (canonicalise lib msg.from) with
        | none =>
            constructor
            · rintro ⟨hlength, _⟩
              cases hlength
            · rintro ⟨known, entry, hknown, _⟩
              cases hknown
        | some known =>
            constructor
            · rintro ⟨hlength, hdiffer⟩
              refine ⟨_, _, rfl, rfl, List.ne_nil_of_length_pos hlength, ?_⟩
              exact Ne.symm hdiffer
            · rintro ⟨known', after, hknown, hafter, hnonempty, hdiffer⟩
              rw [← Option.some.inj hknown, ← Option.some.inj hafter] at hdiffer
              rw [← Option.some.inj hknown] at hnonempty
              constructor
              · exact List.length_pos_iff.mpr hnonempty
              · exact Ne.symm hdiffer
      · simp only [JsMap.get_set_self]
        constructor
        · nofun
        · rintro ⟨known, after, hknown, hafter, _, hdiffer⟩
          rw [← Option.some.inj hafter, hknown] at hdiffer
          exact absurd (hseen _) hdiffer

/-- Changes are reported just as they are stored, if the sender is not the prototype or the
message is no news. -/
theorem update_reports_iff (lib : Library) {m : PeerMap} (h : Reachable lib m)
    (msg : IncomingMessage) :
  Reports lib m msg ↔
    canonicalise lib msg.from ≠ protoName ∨ Known lib (toTable m) msg
  := by
  have hdated := dated_of_reachable h
  have hreports : Reports lib m msg ↔
      ((m.update lib msg).1.mutated = true ↔ toJson (m.update lib msg).2 ≠ toJson m) := by
    constructor
    · intro hall
      exact hall.1
    · intro hmutated
      exact ⟨hmutated, keyChanged_iff m msg, hdated⟩
  rw [hreports, mutated_iff hdated, toJson_update_ne_iff]
  constructor
  · intro hiff
    by_cases hknown : Known lib (toTable m) msg
    · exact Or.inr hknown
    · exact Or.inl (hiff.mp hknown).1
  · rintro (hproto | hknown)
    · constructor
      · intro hnew
        exact ⟨hproto, hnew⟩
      · intro hboth
        exact hboth.2
    · constructor
      · intro hnew
        exact absurd hknown hnew
      · intro hboth
        exact hboth.2

/-- A message of Ann to the empty table. -/
theorem update_reports_first :
  Reports .plain .empty withHeader
  := (update_reports_iff .plain .empty withHeader).mpr (Or.inl (by decide))

/-- A message whose sender has the name of the prototype. -/
def fromProto : IncomingMessage where
  «from» := "__proto__"
  effectiveDate := 1
  autocryptHeader := some ⟨"__proto__", [1], .mutual, by decide⟩

/-- Such a message is said to change the table, but what is stored does not change. -/
theorem fromProto_unreported :
  ¬ Reports .plain .empty fromProto
  := by
  rintro ⟨hmutated, _⟩
  have hdiffer := hmutated.mp rfl
  apply hdiffer
  rfl

end PeerMap

end Chat
