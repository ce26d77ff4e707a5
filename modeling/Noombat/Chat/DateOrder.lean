import Noombat.Chat.Autocrypt

/-!
# Messages in the order of their dates

The messages of each peer change an entry of their own, so that only the order of the messages of
one sender matters.  If these come in the order of their dates, the table is that of all messages
in this order.  A message that comes again then changes nothing.
-/

namespace Chat.PeerStateTable

variable {lib : Library}

/-! ### What a table knows -/

/-- The table knows already what a message tells. -/
def Known (lib : Library) (table : PeerStateTable) (msg : IncomingMessage) : Prop :=
  match table.peers (canonicalise lib msg.from) with
  | none => applicableHeader lib msg = none
  | some entry =>
      msg.effectiveDate ≤ entry.lastSeen ∧
        (applicableHeader lib msg ≠ none → msg.effectiveDate ≤ entry.lastSeenAutocrypt)

theorem le_seenAt (date : Int) (entry : PeerState) :
  date ≤ (seenAt date entry).lastSeen ∧ entry.lastSeen ≤ (seenAt date entry).lastSeen
  := by
  rw [seenAt]
  split
  · rename_i hlt
    exact ⟨le_rfl, hlt.le⟩
  · rename_i hge
    exact ⟨not_lt.mp hge, le_rfl⟩

theorem lastSeenAutocrypt_seenAt (date : Int) (entry : PeerState) :
  (seenAt date entry).lastSeenAutocrypt = entry.lastSeenAutocrypt
  := congrArg Advert.date (advertOf_seenAt date entry)

theorem seenAt_eq_iff (date : Int) (entry : PeerState) :
  seenAt date entry = entry ↔ date ≤ entry.lastSeen
  := by
  constructor
  · intro h
    have hle := (le_seenAt date entry).1
    rw [h] at hle
    exact hle
  · intro h
    apply if_neg (not_lt.mpr h)

theorem le_step (entry : PeerState) (msg : IncomingMessage) :
  msg.effectiveDate ≤ (step lib entry msg).lastSeen ∧
    entry.lastSeen ≤ (step lib entry msg).lastSeen
  := by
  rw [step_lastSeen]
  obtain ⟨hkept, hnew⟩ := time_le_keepNewest id entry.lastSeen msg.effectiveDate
  exact ⟨hnew, hkept⟩

theorem lastSeenAutocrypt_le_step (entry : PeerState) (msg : IncomingMessage) :
  entry.lastSeenAutocrypt ≤ (step lib entry msg).lastSeenAutocrypt
  := by
  rw [step]
  split
  · rw [lastSeenAutocrypt_seenAt]
  · split
    · rename_i hlt
      rw [lastSeenAutocrypt_seenAt] at hlt
      apply hlt.le
    · rw [lastSeenAutocrypt_seenAt]

/-- A header is not newer than what is known after it. -/
theorem date_le_step (entry : PeerState) {msg : IncomingMessage}
    (h : applicableHeader lib msg ≠ none) :
  msg.effectiveDate ≤ (step lib entry msg).lastSeenAutocrypt
  := by
  rw [step]
  split
  · rename_i hnone
    exact absurd hnone h
  · split
    · apply le_rfl
    · rename_i hge
      apply not_lt.mp hge

/-- What a message changes of a peer, it changes of one of the two dates. -/
theorem step_eq_iff (entry : PeerState) (msg : IncomingMessage) :
  step lib entry msg = entry ↔
    msg.effectiveDate ≤ entry.lastSeen ∧
      (applicableHeader lib msg ≠ none → msg.effectiveDate ≤ entry.lastSeenAutocrypt)
  := by
  constructor
  · intro h
    constructor
    · have hle := (@le_step lib entry msg).1
      rw [h] at hle
      exact hle
    · intro hheader
      have hle := date_le_step entry hheader
      rw [h] at hle
      exact hle
  · rintro ⟨hseen, hautocrypt⟩
    have hkept := (seenAt_eq_iff msg.effectiveDate entry).mpr hseen
    rw [step, hkept]
    split
    · rfl
    · rename_i header hheader
      have hold : msg.effectiveDate ≤ entry.lastSeenAutocrypt := by
        apply hautocrypt
        rw [hheader]
        apply Option.some_ne_none
      apply if_neg (not_lt.mpr hold)

theorem ext_peers {table table' : PeerStateTable}
    (h : ∀ addr, table.peers addr = table'.peers addr) :
  table = table'
  := by
  cases table
  cases table'
  congr
  funext addr
  apply h

/-- A message leaves the table as it is just if the table knows what it tells. -/
theorem update_eq_iff (table : PeerStateTable) (msg : IncomingMessage) :
  (table.update lib msg).2 = table ↔ Known lib table msg
  := by
  have hown : (table.update lib msg).2 = table ↔
      (table.update lib msg).2.peers (canonicalise lib msg.from) =
        table.peers (canonicalise lib msg.from) := by
    constructor
    · intro h
      rw [h]
    · intro h
      apply ext_peers
      intro addr
      by_cases haddr : addr = canonicalise lib msg.from
      · rw [haddr, h]
      · apply update_other rfl haddr
  rw [hown, Known]
  cases hknown : table.peers (canonicalise lib msg.from) with
  | none =>
      rw [update_unknown rfl hknown, Option.map_eq_none_iff]
  | some entry =>
      rw [update_known rfl hknown, Option.some_inj, step_eq_iff]

theorem known_update_self (table : PeerStateTable) (msg : IncomingMessage) :
  Known lib (table.update lib msg).2 msg
  := by
  rw [Known]
  cases hknown : table.peers (canonicalise lib msg.from) with
  | none =>
      rw [update_unknown rfl hknown]
      cases hheader : applicableHeader lib msg with
      | none => rfl
      | some header =>
          constructor
          · apply (le_step _ _).1
          · intro _
            apply date_le_step
            rw [hheader]
            nofun
  | some entry =>
      rw [update_known rfl hknown]
      exact ⟨(le_step _ _).1, date_le_step entry⟩

/-- What is known stays known when a message of another sender, or one that is not older,
arrives. -/
theorem Known.update {table : PeerStateTable} {msg msg' : IncomingMessage}
    (h : Known lib table msg)
    (hdate : canonicalise lib msg.from = canonicalise lib msg'.from →
      msg.effectiveDate ≤ msg'.effectiveDate) :
  Known lib (table.update lib msg').2 msg
  := by
  by_cases hsame : canonicalise lib msg'.from = canonicalise lib msg.from
  · rw [Known] at h ⊢
    cases hknown : table.peers (canonicalise lib msg.from) with
    | none =>
        rw [hknown] at h
        rw [update_unknown hsame hknown]
        cases applicableHeader lib msg' with
        | none => exact h
        | some header =>
            constructor
            · exact (hdate hsame.symm).trans (le_step _ _).1
            · intro hheader
              exact absurd h hheader
    | some entry =>
        rw [hknown] at h
        obtain ⟨hseen, hautocrypt⟩ := h
        rw [update_known hsame hknown]
        constructor
        · exact hseen.trans (le_step _ _).2
        · intro hheader
          exact (hautocrypt hheader).trans (lastSeenAutocrypt_le_step _ _)
  · have hother : (table.update lib msg').2.peers (canonicalise lib msg.from) =
        table.peers (canonicalise lib msg.from) := by
      apply update_other rfl
      exact fun hne => hsame hne.symm
    rw [Known, hother]
    exact h

/-! ### The messages of each sender -/

theorem updateAll_append (table : PeerStateTable) (msgs : List IncomingMessage)
    (msg : IncomingMessage) :
  table.updateAll lib (msgs ++ [msg]) = ((table.updateAll lib msgs).update lib msg).2
  := List.foldl_append

/-- What a message makes of the entry of a peer depends on that entry only. -/
theorem update_congr {table table' : PeerStateTable} {addr : String}
    (h : table.peers addr = table'.peers addr) (msg : IncomingMessage) :
  (table.update lib msg).2.peers addr = (table'.update lib msg).2.peers addr
  := by
  by_cases haddr : addr = canonicalise lib msg.from
  · subst haddr
    cases hknown : table.peers (canonicalise lib msg.from) with
    | none => rw [update_unknown rfl hknown, update_unknown rfl (h.symm.trans hknown)]
    | some entry => rw [update_known rfl hknown, update_known rfl (h.symm.trans hknown)]
  · rw [update_other rfl haddr, update_other rfl haddr, h]

/-- The messages of an address. -/
def messagesOf (lib : Library) (addr : String) (msgs : List IncomingMessage) :
    List IncomingMessage :=
  msgs.filter fun msg => canonicalise lib msg.from == addr

theorem updateAll_messagesOf {table table' : PeerStateTable} {addr : String}
    (h : table.peers addr = table'.peers addr) (msgs : List IncomingMessage) :
  (table.updateAll lib msgs).peers addr =
    (table'.updateAll lib (messagesOf lib addr msgs)).peers addr
  := by
  induction msgs generalizing table table' with
  | nil => exact h
  | cons msg msgs ih =>
      rw [messagesOf, List.filter_cons]
      split
      · apply ih (update_congr h msg)
      · rename_i hother
        have hne : addr ≠ canonicalise lib msg.from := by
          rintro rfl
          apply hother
          apply beq_self_eq_true
        apply ih
        rw [update_other rfl hne, h]

/-- Messages that are in one order for each sender make the same table. -/
theorem updateAll_eq_of_messagesOf {msgs msgs' : List IncomingMessage}
    (h : ∀ addr, messagesOf lib addr msgs = messagesOf lib addr msgs') (table : PeerStateTable) :
  table.updateAll lib msgs = table.updateAll lib msgs'
  := by
  apply ext_peers
  intro addr
  rw [updateAll_messagesOf rfl, h, ← updateAll_messagesOf rfl]

/-! ### The order of dates -/

/-- The messages in the order of their dates, those of one date as they came. -/
def inDateOrder (msgs : List IncomingMessage) : List IncomingMessage :=
  msgs.mergeSort fun m m' => decide (m.effectiveDate ≤ m'.effectiveDate)

/-- No message is older than one of its sender before it. -/
def OldestFirst (lib : Library) (msgs : List IncomingMessage) : Prop :=
  msgs.Pairwise fun m m' => canonicalise lib m.from = canonicalise lib m'.from →
    m.effectiveDate ≤ m'.effectiveDate

instance (msgs : List IncomingMessage) : Decidable (OldestFirst lib msgs) :=
  inferInstanceAs (Decidable (msgs.Pairwise fun m m' =>
    canonicalise lib m.from = canonicalise lib m'.from → m.effectiveDate ≤ m'.effectiveDate))

theorem messagesOf_inDateOrder {msgs : List IncomingMessage} (h : OldestFirst lib msgs)
    (addr : String) :
  messagesOf lib addr (inDateOrder msgs) = messagesOf lib addr msgs
  := by
  have hsorted : (messagesOf lib addr msgs).Pairwise
      fun m m' => decide (m.effectiveDate ≤ m'.effectiveDate) = true := by
    rw [messagesOf, List.pairwise_filter]
    apply h.imp
    intro m m' hdate hm hm'
    apply decide_eq_true
    apply hdate
    rw [eq_of_beq hm, eq_of_beq hm']
  have hsub : (messagesOf lib addr msgs).Sublist (inDateOrder msgs) := by
    apply List.sublist_mergeSort _ _ hsorted List.filter_sublist
    · intro a b c hab hbc
      exact decide_eq_true ((of_decide_eq_true hab).trans (of_decide_eq_true hbc))
    · intro a b
      rcases Int.le_total a.effectiveDate b.effectiveDate with hle | hle
      · rw [decide_eq_true hle, Bool.true_or]
      · rw [decide_eq_true hle, Bool.or_true]
  have hfiltered := hsub.filter fun msg => canonicalise lib msg.from == addr
  rw [messagesOf, List.filter_filter] at hfiltered
  simp only [Bool.and_self] at hfiltered
  have hlength : (messagesOf lib addr msgs).length =
      (messagesOf lib addr (inDateOrder msgs)).length :=
    ((List.mergeSort_perm _ _).filter _).length_eq.symm
  exact (hfiltered.eq_of_length hlength).symm

/-- Messages that come in order for each sender make the table of the messages in order. -/
theorem updateAll_inDateOrder {msgs : List IncomingMessage} (h : OldestFirst lib msgs)
    (table : PeerStateTable) :
  table.updateAll lib (inDateOrder msgs) = table.updateAll lib msgs
  := by
  apply updateAll_eq_of_messagesOf
  apply messagesOf_inDateOrder h

end Chat.PeerStateTable
