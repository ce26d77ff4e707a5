import Mathlib.Data.List.TakeWhile
import Noombat.Newest

/-!
# Peer state

What a client keeps of each peer that writes to it: when the peer was last seen, and the key
and the preference that the peer advertised last.  From it the client decides whether a
message to the peer is encrypted.
-/

namespace Chat

inductive PreferEncrypt where
  | mutual
  | nopreference
  deriving DecidableEq

@[ext]
structure PeerState where
  /-- The time of the latest message of the peer. -/
  lastSeen : Int
  /-- The time of the latest message that carried a valid header. -/
  lastSeenAutocrypt : Int
  publicKey : List UInt8
  preferEncrypt : PreferEncrypt
  gossipKey : Option (List UInt8)
  gossipTimestamp : Option Int
  /-- The time of the message that last replaced a known key. -/
  lastKeyChangeAt : Option Int
  deriving DecidableEq

/-- A valid header, whose key is not empty. -/
structure AutocryptHeader where
  addr : String
  publicKey : List UInt8
  preferEncrypt : PreferEncrypt
  nonempty : publicKey ≠ []

structure IncomingMessage where
  «from» : String
  effectiveDate : Int
  autocryptHeader : Option AutocryptHeader

inductive Recommendation where
  | disable
  | discourage
  | available
  | encrypt
  deriving DecidableEq

structure UpdateResult where
  mutated : Bool
  keyChanged : Bool

/-- A peer of whom nothing is known. -/
def emptyPeerState : PeerState where
  lastSeen := 0
  lastSeenAutocrypt := 0
  publicKey := []
  preferEncrypt := .nopreference
  gossipKey := none
  gossipTimestamp := none
  lastKeyChangeAt := none

/-- The peers that are known, by canonical address. -/
structure PeerStateTable where
  peers : String → Option PeerState

namespace PeerStateTable

/-- The table with an entry replaced. -/
def set (addr : String) (entry : PeerState) (table : PeerStateTable) : PeerStateTable :=
  ⟨fun a => if a = addr then some entry else table.peers a⟩

/-- The library that trims addresses and folds their case. -/
structure Library where
  trim : String → String
  toLowerCase : String → String

variable (lib : Library)

def canonicalise (addr : String) : String :=
  lib.toLowerCase (lib.trim addr)

/-- The header of a message, if it is about the sender. -/
def applicableHeader (msg : IncomingMessage) : Option AutocryptHeader :=
  msg.autocryptHeader.filter fun header =>
    canonicalise lib header.addr == canonicalise lib msg.from

/-- The state of a peer, last seen at the given time at least. -/
def seenAt (date : Int) (entry : PeerState) : PeerState :=
  if date > entry.lastSeen then { entry with lastSeen := date } else entry

/-- Whether a header replaces a known key. -/
def replacesKey (header : AutocryptHeader) (entry : PeerState) : Bool :=
  decide (entry.publicKey.length > 0) && entry.publicKey != header.publicKey

/-- The state of a peer, with the key and the preference of a header. -/
def adopt (date : Int) (header : AutocryptHeader) (entry : PeerState) : PeerState :=
  { entry with
    lastSeenAutocrypt := date
    publicKey := header.publicKey
    preferEncrypt := header.preferEncrypt
    lastKeyChangeAt := if replacesKey header entry then some date else entry.lastKeyChangeAt }

/-- Update the table on receipt of a message. -/
def update (msg : IncomingMessage) (table : PeerStateTable) : UpdateResult × PeerStateTable :=
  let addr := canonicalise lib msg.from
  match applicableHeader lib msg with
  | none =>
      match table.peers addr with
      | none => (⟨false, false⟩, table)
      | some entry =>
          (⟨decide (msg.effectiveDate > entry.lastSeen), false⟩,
            table.set addr (seenAt msg.effectiveDate entry))
  | some header =>
      let created := (table.peers addr).isNone
      let entry := seenAt msg.effectiveDate ((table.peers addr).getD emptyPeerState)
      if msg.effectiveDate > entry.lastSeenAutocrypt then
        (⟨true, replacesKey header entry⟩,
          table.set addr (adopt msg.effectiveDate header entry))
      else (⟨created, false⟩, table.set addr entry)

def get (addr : String) (table : PeerStateTable) : Option PeerState :=
  table.peers (canonicalise lib addr)

/-- Whether the latest message of a peer came without a header. -/
def isStale (peer : PeerState) : Bool :=
  decide (peer.lastSeen > peer.lastSeenAutocrypt)

/-- The recommendation for the recipients that are left, when those before were known. -/
def recommendFrom (table : PeerStateTable) :
    (recipients : List String) → (allMutual anyStale : Bool) → Recommendation
  | [], allMutual, anyStale =>
      if anyStale then .discourage else if allMutual then .encrypt else .available
  | addr :: recipients, allMutual, anyStale =>
      match table.get lib addr with
      | none => .disable
      | some peer =>
          if peer.publicKey.length = 0 then .disable
          else
            recommendFrom table recipients (allMutual && peer.preferEncrypt == .mutual)
              (anyStale || isStale peer)

/-- Whether a message to some recipients should be encrypted. -/
def recommend (table : PeerStateTable) (recipients : List String) (senderPrefersMutual : Bool) :
    Recommendation :=
  if recipients.length = 0 then .disable
  else recommendFrom lib table recipients senderPrefersMutual false

/-- The table after some messages. -/
def updateAll (msgs : List IncomingMessage) (table : PeerStateTable) : PeerStateTable :=
  msgs.foldl (fun table msg => (table.update lib msg).2) table

/-! ### What a message tells of a peer -/

/-- What a header tells of a peer, and when. -/
structure Advert where
  date : Int
  publicKey : List UInt8
  preferEncrypt : PreferEncrypt
  deriving DecidableEq

/-- What was last advertised by a peer. -/
def advertOf (entry : PeerState) : Advert :=
  ⟨entry.lastSeenAutocrypt, entry.publicKey, entry.preferEncrypt⟩

/-- What a message advertises. -/
def advert (msg : IncomingMessage) : Option Advert :=
  (applicableHeader lib msg).map fun header =>
    ⟨msg.effectiveDate, header.publicKey, header.preferEncrypt⟩

/-- The state of a known peer after a message. -/
def step (entry : PeerState) (msg : IncomingMessage) : PeerState :=
  let entry := seenAt msg.effectiveDate entry
  match applicableHeader lib msg with
  | none => entry
  | some header =>
      if msg.effectiveDate > entry.lastSeenAutocrypt then adopt msg.effectiveDate header entry
      else entry

/-- The state of a peer, but for the time of the last change of key. -/
def apart (entry : PeerState) : PeerState :=
  { entry with lastKeyChangeAt := none }

variable {lib}

theorem step_lastSeen (entry : PeerState) (msg : IncomingMessage) :
  (step lib entry msg).lastSeen = keepNewest id entry.lastSeen msg.effectiveDate
  := by
  have hseen : (seenAt msg.effectiveDate entry).lastSeen =
      keepNewest id entry.lastSeen msg.effectiveDate := by
    rw [seenAt, keepNewest]
    split
    · rename_i hlt
      exact (if_pos hlt).symm
    · rename_i hge
      exact (if_neg hge).symm
  rw [← hseen, step]
  split
  · rfl
  · split
    · rfl
    · rfl

theorem advertOf_seenAt (date : Int) (entry : PeerState) :
  advertOf (seenAt date entry) = advertOf entry
  := by
  rw [seenAt]
  split
  · rfl
  · rfl

theorem advertOf_step (entry : PeerState) (msg : IncomingMessage) :
  advertOf (step lib entry msg) =
    ((advert lib msg).toList.foldl (keepNewest Advert.date) (advertOf entry))
  := by
  rw [step, advert]
  cases applicableHeader lib msg with
  | none => apply advertOf_seenAt
  | some header =>
      rw [Option.map_some, Option.toList_some, List.foldl_cons, List.foldl_nil, keepNewest]
      have hdate : (seenAt msg.effectiveDate entry).lastSeenAutocrypt = (advertOf entry).date :=
        congrArg Advert.date (advertOf_seenAt msg.effectiveDate entry)
      simp only [hdate]
      by_cases hnewer : (advertOf entry).date < msg.effectiveDate
      · rw [if_pos hnewer, if_pos hnewer]
        rfl
      · rw [if_neg hnewer, if_neg hnewer]
        apply advertOf_seenAt

theorem gossip_step (lib : Library) (entry : PeerState) (msg : IncomingMessage) :
  (step lib entry msg).gossipKey = entry.gossipKey ∧
    (step lib entry msg).gossipTimestamp = entry.gossipTimestamp
  := by
  have hseen : (seenAt msg.effectiveDate entry).gossipKey = entry.gossipKey ∧
      (seenAt msg.effectiveDate entry).gossipTimestamp = entry.gossipTimestamp := by
    rw [seenAt]
    split
    · exact ⟨rfl, rfl⟩
    · exact ⟨rfl, rfl⟩
  rw [step]
  split
  · exact hseen
  · split
    · exact hseen
    · exact hseen

/-- What some messages advertise. -/
def adverts (lib : Library) (msgs : List IncomingMessage) : List Advert :=
  msgs.filterMap (advert lib)

/-- What is kept of a peer who was known, after some messages: the newest date, and what was
advertised last. -/
structure UpToDate (lib : Library) (known : PeerState) (msgs : List IncomingMessage)
    (entry : PeerState) : Prop where
  lastSeen : IsNewest id known.lastSeen (msgs.map (·.effectiveDate)) entry.lastSeen
  advert : IsNewest Advert.date (advertOf known) (adverts lib msgs) (advertOf entry)
  gossip : entry.gossipKey = known.gossipKey ∧ entry.gossipTimestamp = known.gossipTimestamp

theorem upToDate_foldl (lib : Library) (known : PeerState) (msgs : List IncomingMessage) :
  UpToDate lib known msgs (msgs.foldl (step lib) known)
  := by
  have hlastSeen : (msgs.foldl (step lib) known).lastSeen =
      (msgs.map (·.effectiveDate)).foldl (keepNewest id) known.lastSeen := by
    induction msgs generalizing known with
    | nil => rfl
    | cons msg msgs ih =>
        rw [List.foldl_cons, ih, step_lastSeen]
        rfl
  have hadvert : advertOf (msgs.foldl (step lib) known) =
      (adverts lib msgs).foldl (keepNewest Advert.date) (advertOf known) := by
    clear hlastSeen
    induction msgs generalizing known with
    | nil => rfl
    | cons msg msgs ih =>
        rw [List.foldl_cons, ih, advertOf_step, adverts, adverts, List.filterMap_cons]
        cases advert lib msg with
        | none => rfl
        | some a => rfl
  have hgossip : (msgs.foldl (step lib) known).gossipKey = known.gossipKey ∧
      (msgs.foldl (step lib) known).gossipTimestamp = known.gossipTimestamp := by
    clear hlastSeen hadvert
    induction msgs generalizing known with
    | nil => exact ⟨rfl, rfl⟩
    | cons msg msgs ih =>
        obtain ⟨hkey, htimestamp⟩ := ih (step lib known msg)
        obtain ⟨hkey', htimestamp'⟩ := gossip_step lib known msg
        exact ⟨hkey.trans hkey', htimestamp.trans htimestamp'⟩
  constructor
  · rw [hlastSeen]
    apply isNewest_foldl
  · rw [hadvert]
    apply isNewest_foldl
  · exact hgossip

theorem UpToDate.perm {known entry : PeerState} {msgs msgs' : List IncomingMessage}
    (h : UpToDate lib known msgs entry) (hp : msgs.Perm msgs') :
  UpToDate lib known msgs' entry
  := ⟨h.lastSeen.perm (hp.map _), h.advert.perm (hp.filterMap _), h.gossip⟩

/-- No two messages are of one date. -/
def DatesDiffer (msgs : List IncomingMessage) : Prop :=
  ∀ m ∈ msgs, ∀ m' ∈ msgs, m.effectiveDate = m'.effectiveDate → m = m'

theorem adverts_differ {msgs : List IncomingMessage} (hdates : DatesDiffer msgs) :
  ∀ a ∈ adverts lib msgs, ∀ b ∈ adverts lib msgs, a.date = b.date → a = b
  := by
  have hdate : ∀ m a, advert lib m = some a → a.date = m.effectiveDate := by
    intro m a ha
    obtain ⟨header, _, rfl⟩ := Option.map_eq_some_iff.mp ha
    rfl
  intro a ha b hb hab
  obtain ⟨m, hm, hma⟩ := List.mem_filterMap.mp ha
  obtain ⟨m', hm', hmb⟩ := List.mem_filterMap.mp hb
  have hsame : m = m' := by
    apply hdates m hm m' hm'
    rw [← hdate m a hma, ← hdate m' b hmb, hab]
  rw [hsame, hmb] at hma
  exact (Option.some.inj hma).symm

/-- What is kept of a known peer is determined by the messages, whatever their order. -/
theorem UpToDate.unique {known entry entry' : PeerState} {msgs : List IncomingMessage}
    (hdates : DatesDiffer msgs) (h : UpToDate lib known msgs entry)
    (h' : UpToDate lib known msgs entry') :
  apart entry = apart entry'
  := by
  have hlastSeen : entry.lastSeen = entry'.lastSeen := by
    apply h.lastSeen.unique _ h'.lastSeen
    intro a _ b _ hab
    exact hab
  have hadvert := h.advert.unique (adverts_differ hdates) h'.advert
  obtain ⟨hautocrypt, hkey, hprefer⟩ := Advert.mk.inj hadvert
  ext : 1
  · exact hlastSeen
  · exact hautocrypt
  · exact hkey
  · exact hprefer
  · exact h.gossip.1.trans h'.gossip.1.symm
  · exact h.gossip.2.trans h'.gossip.2.symm
  · rfl

/-! ### What messages do to the table -/

@[simp]
theorem set_peers_same (addr : String) (entry : PeerState) (table : PeerStateTable) :
  (table.set addr entry).peers addr = some entry
  := if_pos rfl

theorem set_peers_other {addr addr' : String} (h : addr' ≠ addr) (entry : PeerState)
    (table : PeerStateTable) :
  (table.set addr entry).peers addr' = table.peers addr'
  := if_neg h

section Update

variable {msg : IncomingMessage} {table : PeerStateTable} {addr : String}
  (haddr : canonicalise lib msg.from = addr)

include haddr

theorem update_known {entry : PeerState} (h : table.peers addr = some entry) :
  (table.update lib msg).2.peers addr = some (step lib entry msg)
  := by
  subst haddr
  rw [update, step]
  cases applicableHeader lib msg with
  | none => simp only [h, set_peers_same]
  | some header =>
      simp only [h, Option.getD_some]
      split
      · apply set_peers_same
      · apply set_peers_same

theorem update_unknown (h : table.peers addr = none) :
  (table.update lib msg).2.peers addr =
    (applicableHeader lib msg).map fun _ => step lib emptyPeerState msg
  := by
  subst haddr
  rw [update, step]
  cases applicableHeader lib msg with
  | none => simp only [h, Option.map_none]
  | some header =>
      simp only [h, Option.getD_none, Option.map_some]
      split
      · apply set_peers_same
      · apply set_peers_same

theorem update_other {addr' : String} (hother : addr' ≠ addr) :
  (table.update lib msg).2.peers addr' = table.peers addr'
  := by
  subst haddr
  rw [update]
  cases applicableHeader lib msg with
  | none =>
      cases table.peers (canonicalise lib msg.from) with
      | none => rfl
      | some entry => apply set_peers_other hother
  | some header =>
      simp only
      split
      · apply set_peers_other hother
      · apply set_peers_other hother

end Update

/-- The messages are all of one address. -/
def AllFrom (lib : Library) (addr : String) (msgs : List IncomingMessage) : Prop :=
  ∀ m ∈ msgs, canonicalise lib m.from = addr

theorem updateAll_known {addr : String} {msgs : List IncomingMessage}
    (hfrom : AllFrom lib addr msgs) {table : PeerStateTable} {entry : PeerState}
    (h : table.peers addr = some entry) :
  (table.updateAll lib msgs).peers addr = some (msgs.foldl (step lib) entry)
  := by
  induction msgs generalizing table entry with
  | nil => exact h
  | cons msg msgs ih =>
      obtain ⟨hmsg, hmsgs⟩ := List.forall_mem_cons.mp hfrom
      apply ih hmsgs (update_known hmsg h)

theorem updateAll_other {addr addr' : String} {msgs : List IncomingMessage}
    (hfrom : AllFrom lib addr msgs) (hother : addr' ≠ addr) (table : PeerStateTable) :
  (table.updateAll lib msgs).peers addr' = table.peers addr'
  := by
  induction msgs generalizing table with
  | nil => rfl
  | cons msg msgs ih =>
      obtain ⟨hmsg, hmsgs⟩ := List.forall_mem_cons.mp hfrom
      exact (ih hmsgs _).trans (update_other hmsg hother)

/-- The messages from the first with a header on. -/
def fromHeader (lib : Library) (msgs : List IncomingMessage) : List IncomingMessage :=
  msgs.dropWhile fun m => (applicableHeader lib m).isNone

theorem updateAll_unknown {addr : String} {msgs : List IncomingMessage}
    (hfrom : AllFrom lib addr msgs) {table : PeerStateTable} (h : table.peers addr = none) :
  (table.updateAll lib msgs).peers addr =
    if fromHeader lib msgs = [] then none
    else some ((fromHeader lib msgs).foldl (step lib) emptyPeerState)
  := by
  induction msgs generalizing table with
  | nil => exact h
  | cons msg msgs ih =>
      obtain ⟨hmsg, hmsgs⟩ := List.forall_mem_cons.mp hfrom
      have hupdate := update_unknown hmsg h
      cases hheader : applicableHeader lib msg with
      | none =>
          rw [hheader] at hupdate
          have hdropped : fromHeader lib (msg :: msgs) = fromHeader lib msgs :=
            List.dropWhile_cons_of_pos (by rw [hheader]; rfl)
          rw [hdropped]
          apply ih hmsgs hupdate
      | some header =>
          rw [hheader] at hupdate
          have hkept : fromHeader lib (msg :: msgs) = msg :: msgs :=
            List.dropWhile_cons_of_neg (by rw [hheader]; simp)
          rw [hkept, if_neg (List.cons_ne_nil msg msgs)]
          apply updateAll_known hmsgs hupdate

/-! ### The order of messages -/

/-- What is kept of a peer: the newest date of all messages, and what the newest header
advertised, where the table did not know newer. -/
def Newest (lib : Library) (msgs : List IncomingMessage) :
    (known entry : Option PeerState) → Prop
  | some known, some entry => UpToDate lib known msgs entry
  | some _, none => False
  | none, none => adverts lib msgs = []
  | none, some entry =>
      (entry.lastSeen ∈ msgs.map (·.effectiveDate) ∧
        ∀ m ∈ msgs, m.effectiveDate ≤ entry.lastSeen) ∧
      (advertOf entry ∈ adverts lib msgs ∧
        ∀ a ∈ adverts lib msgs, a.date ≤ entry.lastSeenAutocrypt) ∧
      entry.gossipKey = none ∧ entry.gossipTimestamp = none

/-- Whatever the order of the messages, what is kept of the peer is the newest and the same,
and so is what is recommended. -/
def OrderFree (lib : Library) (table : PeerStateTable) (addr : String)
    (msgs : List IncomingMessage) : Prop :=
  ∀ msgs', msgs'.Perm msgs →
    Newest lib msgs (table.peers addr) ((table.updateAll lib msgs').peers addr) ∧
    ((table.updateAll lib msgs').peers addr).map apart =
      ((table.updateAll lib msgs).peers addr).map apart ∧
    ∀ recipients senderPrefersMutual,
      recommend lib (table.updateAll lib msgs') recipients senderPrefersMutual =
        recommend lib (table.updateAll lib msgs) recipients senderPrefersMutual

/-- The newest message has a header, and a date after the start of the epoch. -/
def NewestHasHeader (lib : Library) (msgs : List IncomingMessage) : Prop :=
  ∃ m ∈ msgs, (applicableHeader lib m).isSome ∧ 0 < m.effectiveDate ∧
    ∀ m' ∈ msgs, m'.effectiveDate ≤ m.effectiveDate

/-- Two tables that know the same of every peer, but for the times of changes of keys,
recommend the same. -/
theorem recommend_congr {table table' : PeerStateTable}
    (h : ∀ addr, (table.peers addr).map apart = (table'.peers addr).map apart)
    (recipients : List String) (senderPrefersMutual : Bool) :
  recommend lib table recipients senderPrefersMutual =
    recommend lib table' recipients senderPrefersMutual
  := by
  have hfrom : ∀ allMutual anyStale, recommendFrom lib table recipients allMutual anyStale =
      recommendFrom lib table' recipients allMutual anyStale := by
    induction recipients with
    | nil =>
        intro allMutual anyStale
        rfl
    | cons addr recipients ih =>
        intro allMutual anyStale
        have hpeer := h (canonicalise lib addr)
        rw [recommendFrom, recommendFrom, get, get]
        cases hknown : table.peers (canonicalise lib addr) with
        | none =>
            rw [hknown] at hpeer
            rw [Option.map_eq_none_iff.mp hpeer.symm]
        | some peer =>
            rw [hknown] at hpeer
            obtain ⟨peer', hknown', hsame⟩ := Option.map_eq_some_iff.mp hpeer.symm
            rw [hknown']
            have hkey : peer.publicKey = peer'.publicKey := (congrArg (·.publicKey) hsame).symm
            have hprefer : peer.preferEncrypt = peer'.preferEncrypt :=
              (congrArg (·.preferEncrypt) hsame).symm
            have hstale : isStale peer = isStale peer' := (congrArg isStale hsame).symm
            simp only [hkey, hprefer, hstale, ih]
  rw [recommend, recommend, hfrom]

theorem mem_fromHeader {msgs : List IncomingMessage} {m : IncomingMessage} (hm : m ∈ msgs)
    (hheader : (applicableHeader lib m).isSome) :
  m ∈ fromHeader lib msgs
  := by
  rw [← List.takeWhile_append_dropWhile (p := fun m => (applicableHeader lib m).isNone)
    (l := msgs)] at hm
  rcases List.mem_append.mp hm with htaken | hleft
  · have hnone := List.mem_takeWhile_imp htaken
    rw [Option.isNone_iff_eq_none.mp hnone] at hheader
    cases hheader
  · exact hleft

theorem fromHeader_subset (msgs : List IncomingMessage) :
  fromHeader lib msgs ⊆ msgs
  := (List.dropWhile_sublist _).subset

theorem mem_adverts {msgs : List IncomingMessage} {a : Advert} :
  a ∈ adverts lib msgs ↔ ∃ m ∈ msgs, ∃ header, applicableHeader lib m = some header ∧
    a = ⟨m.effectiveDate, header.publicKey, header.preferEncrypt⟩
  := by
  constructor
  · intro ha
    obtain ⟨m, hm, hadvert⟩ := List.mem_filterMap.mp ha
    obtain ⟨header, hheader, rfl⟩ := Option.map_eq_some_iff.mp hadvert
    exact ⟨m, hm, header, hheader, rfl⟩
  · rintro ⟨m, hm, header, hheader, rfl⟩
    apply List.mem_filterMap.mpr
    exact ⟨m, hm, Option.map_eq_some_iff.mpr ⟨header, hheader, rfl⟩⟩

/-- What is kept of an unknown peer whose newest message has a header. -/
structure Acquired (m : IncomingMessage) (header : AutocryptHeader) (entry : PeerState) :
    Prop where
  lastSeen : entry.lastSeen = m.effectiveDate
  advert : advertOf entry = ⟨m.effectiveDate, header.publicKey, header.preferEncrypt⟩
  gossip : entry.gossipKey = none ∧ entry.gossipTimestamp = none

theorem acquired_of_newest {addr : String} {msgs msgs' : List IncomingMessage}
    (hfrom : AllFrom lib addr msgs) (hdates : DatesDiffer msgs) (hp : msgs'.Perm msgs)
    {table : PeerStateTable} (hunknown : table.peers addr = none) {m : IncomingMessage}
    (hm : m ∈ msgs) {header : AutocryptHeader} (hheader : applicableHeader lib m = some header)
    (hpos : 0 < m.effectiveDate) (hnewest : ∀ m' ∈ msgs, m'.effectiveDate ≤ m.effectiveDate) :
  ∃ entry, (table.updateAll lib msgs').peers addr = some entry ∧ Acquired m header entry
  := by
  have hsome : (applicableHeader lib m).isSome = true := by
    rw [hheader]
    rfl
  have hmem := mem_fromHeader (hp.mem_iff.mpr hm) hsome
  have hsub : ∀ m' ∈ fromHeader lib msgs', m' ∈ msgs :=
    fun m' hm' => hp.mem_iff.mp (fromHeader_subset msgs' hm')
  have hleft : fromHeader lib msgs' ≠ [] := List.ne_nil_of_mem hmem
  have hfrom' : AllFrom lib addr msgs' := fun m' hm' => hfrom m' (hp.mem_iff.mp hm')
  have hupdated := updateAll_unknown hfrom' hunknown
  rw [if_neg hleft] at hupdated
  obtain ⟨hlastSeen, hadvert, hgossip⟩ :=
    upToDate_foldl lib emptyPeerState (fromHeader lib msgs')
  refine ⟨_, hupdated, ?_, ?_, hgossip⟩
  · apply hlastSeen.eq_of_newer
    · intro a _ b _ hab
      exact hab
    · exact List.mem_map.mpr ⟨m, hmem, rfl⟩
    · exact hpos
    · intro d hd
      obtain ⟨m', hm', rfl⟩ := List.mem_map.mp hd
      apply hnewest m' (hsub m' hm')
  · apply hadvert.eq_of_newer
    · apply adverts_differ
      intro m₁ hm₁ m₂ hm₂ hsame
      apply hdates m₁ (hsub m₁ hm₁) m₂ (hsub m₂ hm₂) hsame
    · exact mem_adverts.mpr ⟨m, hmem, header, hheader, rfl⟩
    · exact hpos
    · intro a ha
      obtain ⟨m', hm', _, _, rfl⟩ := mem_adverts.mp ha
      apply hnewest m' (hsub m' hm')

theorem Acquired.apart_eq {m : IncomingMessage}
    {header : AutocryptHeader} {entry entry' : PeerState} (h : Acquired m header entry)
    (h' : Acquired m header entry') :
  apart entry = apart entry'
  := by
  obtain ⟨hautocrypt, hkey, hprefer⟩ := Advert.mk.inj (h.advert.trans h'.advert.symm)
  ext : 1
  · exact h.lastSeen.trans h'.lastSeen.symm
  · exact hautocrypt
  · exact hkey
  · exact hprefer
  · exact h.gossip.1.trans h'.gossip.1.symm
  · exact h.gossip.2.trans h'.gossip.2.symm
  · rfl

/-- The messages without a header first, then those with one. -/
def headersLast (lib : Library) (msgs : List IncomingMessage) : List IncomingMessage :=
  msgs.filter (fun m => (applicableHeader lib m).isNone) ++
    msgs.filter (fun m => !(applicableHeader lib m).isNone)

theorem fromHeader_headersLast (msgs : List IncomingMessage) :
  fromHeader lib (headersLast lib msgs) = msgs.filter fun m => !(applicableHeader lib m).isNone
  := by
  rw [fromHeader, headersLast, List.dropWhile_append_of_pos]
  · cases hleft : msgs.filter fun m => !(applicableHeader lib m).isNone with
    | nil => rfl
    | cons m ms =>
        have hm : m ∈ msgs.filter fun m => !(applicableHeader lib m).isNone := by
          rw [hleft]
          apply List.mem_cons_self
        apply List.dropWhile_cons_of_neg
        have hsome := (List.mem_filter.mp hm).2
        exact fun hnone => by simp [hnone] at hsome
  · intro m hm
    exact (List.mem_filter.mp hm).2

/-- If messages without a header that come first do not matter, the newest message has a
header. -/
theorem newestHasHeader_of_newest {addr : String} {msgs : List IncomingMessage}
    (hfrom : AllFrom lib addr msgs) {table : PeerStateTable} (hunknown : table.peers addr = none)
    (hadverts : adverts lib msgs ≠ [])
    (h : Newest lib msgs none ((table.updateAll lib (headersLast lib msgs)).peers addr)) :
  NewestHasHeader lib msgs
  := by
  have hp : (headersLast lib msgs).Perm msgs := List.filter_append_perm _ _
  have hfrom' : AllFrom lib addr (headersLast lib msgs) :=
    fun m hm => hfrom m (hp.mem_iff.mp hm)
  rw [updateAll_unknown hfrom' hunknown, fromHeader_headersLast] at h
  split at h
  · exact absurd h hadverts
  obtain ⟨⟨_, hnewest⟩, ⟨hmem, _⟩, _⟩ := h
  obtain ⟨hlastSeen, hadvert, _⟩ := upToDate_foldl lib emptyPeerState
    (msgs.filter fun m => !(applicableHeader lib m).isNone)
  -- a key was adopted, so some message with a header has a date after the epoch
  have hadopted : ∃ m ∈ msgs.filter fun m => !(applicableHeader lib m).isNone,
      0 < m.effectiveDate := by
    rcases hadvert with ⟨hkept, _⟩ | ⟨hnew, hpos, _⟩
    · obtain ⟨_, _, header, _, hsame⟩ := mem_adverts.mp hmem
      rw [hkept] at hsame
      exact absurd (congrArg Advert.publicKey hsame).symm header.nonempty
    · obtain ⟨m, hm, header, _, hsame⟩ := mem_adverts.mp hnew
      rw [hsame] at hpos
      exact ⟨m, hm, hpos⟩
  obtain ⟨m₁, hm₁, hpos⟩ := hadopted
  rcases hlastSeen with ⟨_, hle⟩ | ⟨hnew, hlt, _⟩
  · exact absurd hpos (not_lt.mpr (hle _ (List.mem_map.mpr ⟨m₁, hm₁, rfl⟩)))
  · obtain ⟨m, hm, hdate⟩ := List.mem_map.mp hnew
    rw [← hdate] at hlt hnewest
    obtain ⟨hm, hheader⟩ := List.mem_filter.mp hm
    exact ⟨m, hm, by simpa using hheader, hlt, hnewest⟩

/-- The order of messages of an address does not matter just when the address was known, or
no message has a header, or the newest message has one. -/
theorem orderFree_iff (lib : Library) (table : PeerStateTable) (addr : String)
    (msgs : List IncomingMessage) (hfrom : AllFrom lib addr msgs) (hdates : DatesDiffer msgs) :
  OrderFree lib table addr msgs ↔
    table.peers addr ≠ none ∨ adverts lib msgs = [] ∨ NewestHasHeader lib msgs
  := by
  constructor
  · intro horder
    by_cases hunknown : table.peers addr = none
    · by_cases hadverts : adverts lib msgs = []
      · exact .inr (.inl hadverts)
      · obtain ⟨hnewest, _⟩ := horder (headersLast lib msgs) (List.filter_append_perm _ _)
        rw [hunknown] at hnewest
        exact .inr (.inr (newestHasHeader_of_newest hfrom hunknown hadverts hnewest))
    · exact .inl hunknown
  · intro hcondition msgs' hp
    have hfrom' : AllFrom lib addr msgs' := fun m hm => hfrom m (hp.mem_iff.mp hm)
    have hstate : Newest lib msgs (table.peers addr) ((table.updateAll lib msgs').peers addr) ∧
        ((table.updateAll lib msgs').peers addr).map apart =
          ((table.updateAll lib msgs).peers addr).map apart := by
      cases hknown : table.peers addr with
      | some known =>
          rw [updateAll_known hfrom' hknown, updateAll_known hfrom hknown]
          have hupToDate := (upToDate_foldl lib known msgs').perm hp
          constructor
          · exact hupToDate
          · exact congrArg some (hupToDate.unique hdates (upToDate_foldl lib known msgs))
      | none =>
          rcases hcondition with hne | hnone | ⟨m, hm, hsome, hpos, hnewest⟩
          · exact absurd hknown hne
          · have hempty : ∀ ms, ms.Perm msgs → fromHeader lib ms = [] := by
              intro ms hms
              apply List.dropWhile_eq_nil_iff.mpr
              intro m hm
              have hadvert := List.filterMap_eq_nil_iff.mp hnone m (hms.mem_iff.mp hm)
              rw [Option.map_eq_none_iff.mp hadvert]
              rfl
            rw [updateAll_unknown hfrom' hknown, updateAll_unknown hfrom hknown,
              if_pos (hempty msgs' hp), if_pos (hempty msgs (.refl msgs))]
            exact ⟨hnone, rfl⟩
          · obtain ⟨header, hheader⟩ := Option.isSome_iff_exists.mp hsome
            obtain ⟨entry', hentry', hacquired'⟩ :=
              acquired_of_newest hfrom hdates hp hknown hm hheader hpos hnewest
            obtain ⟨entry, hentry, hacquired⟩ :=
              acquired_of_newest hfrom hdates (.refl msgs) hknown hm hheader hpos hnewest
            rw [hentry', hentry]
            constructor
            · refine ⟨⟨?_, ?_⟩, ⟨?_, ?_⟩, hacquired'.gossip⟩
              · rw [hacquired'.lastSeen]
                exact List.mem_map.mpr ⟨m, hm, rfl⟩
              · rw [hacquired'.lastSeen]
                exact hnewest
              · rw [hacquired'.advert]
                exact mem_adverts.mpr ⟨m, hm, header, hheader, rfl⟩
              · intro a ha
                obtain ⟨m', hm', _, _, rfl⟩ := mem_adverts.mp ha
                have hdate := congrArg Advert.date hacquired'.advert
                exact (hnewest m' hm').trans (le_of_eq hdate.symm)
            · exact congrArg some (hacquired'.apart_eq hacquired)
    obtain ⟨hnewest, hsame⟩ := hstate
    refine ⟨hnewest, hsame, ?_⟩
    apply recommend_congr
    intro addr'
    by_cases haddr : addr' = addr
    · rw [haddr]
      exact hsame
    · rw [updateAll_other hfrom' haddr, updateAll_other hfrom haddr]

/-! ### A message without a header first -/

def Library.plain : Library :=
  ⟨id, id⟩

/-- A message that advertises a key. -/
def withHeader : IncomingMessage :=
  ⟨"ann", 1, some ⟨"ann", [7], .mutual, by decide⟩⟩

/-- A later message without a header. -/
def withoutHeader : IncomingMessage :=
  ⟨"ann", 2, none⟩

def unknown : PeerStateTable :=
  ⟨fun _ => none⟩

/-- Of a peer who is not known, a message without a header is forgotten, so that it does
not count if an older message with one comes later. -/
theorem withoutHeader_not_orderFree :
  ¬ OrderFree .plain unknown "ann" [withHeader, withoutHeader]
  := by
  intro horder
  obtain ⟨_, _, hrecommend⟩ := horder [withoutHeader, withHeader] (.swap _ _ _)
  have hdiffer : recommend .plain (unknown.updateAll .plain [withoutHeader, withHeader])
      ["ann"] true ≠ recommend .plain (unknown.updateAll .plain [withHeader, withoutHeader])
      ["ann"] true := by
    decide
  exact hdiffer (hrecommend ["ann"] true)

/-- The same messages, when the peer is known. -/
theorem withoutHeader_known :
  OrderFree .plain (unknown.set "ann" emptyPeerState) "ann" [withHeader, withoutHeader]
  := by
  apply (orderFree_iff .plain _ "ann" _ _ _).mpr
  · exact .inl (by decide)
  · intro m hm
    simp only [List.mem_cons, List.not_mem_nil, or_false] at hm
    rcases hm with rfl | rfl
    · rfl
    · rfl
  · intro m hm m' hm'
    simp only [List.mem_cons, List.not_mem_nil, or_false] at hm hm'
    rcases hm with rfl | rfl <;> rcases hm' with rfl | rfl <;> simp [withHeader, withoutHeader]

end PeerStateTable

end Chat
