import Noombat.Chat.PeerStorage

/-!
# Restoring the peer state

A client that unlocks the blob restores the table as it was stored.  It then knows what it knew
before, and a message that comes again changes nothing, just if the peer with the name of the
prototype was never known, and no message without a header that came before its sender was known
is newer than all that followed.
-/

namespace Chat

open PeerStateTable
open JsObject (protoName)

/-- What a table is built of. -/
inductive PeerEvent where
  | message (msg : IncomingMessage)
  | gossip (addr : String) (key : List UInt8) (timestamp : Int)

namespace PeerMap

/-- Return the public key of a peer, if there is one. -/
def getPublicKey (lib : Library) (addr : String) (m : PeerMap) : Option (List UInt8) :=
  ((toTable m).get lib addr).bind fun peer =>
    if peer.publicKey.length = 0 then none else some peer.publicKey

end PeerMap

namespace PeerEvent

open PeerMap (toTable adoptGossip dominated)

variable (lib : Library)

def apply (e : PeerEvent) (m : PeerMap) : UpdateResult × PeerMap :=
  match e with
  | message msg => m.update lib msg
  | gossip addr key timestamp => m.updateGossip lib addr key timestamp

def applyAll (events : List PeerEvent) (m : PeerMap) : PeerMap :=
  events.foldl (fun m e => (e.apply lib m).2) m

/-- What is restored is what was stored, and what was applied changes nothing. -/
def Survives (events : List PeerEvent) : Prop :=
  let m := applyAll lib events .empty
  ∃ m', PeerMap.fromJson m.toJson = some m' ∧
    (∀ addr, m'.get addr = m.get addr) ∧
    (∀ addr, (toTable m').get lib addr = (toTable m).get lib addr) ∧
    (∀ addr, m'.getPublicKey lib addr = m.getPublicKey lib addr) ∧
    (∀ recipients senderPrefersMutual,
      recommend lib (toTable m') recipients senderPrefersMutual =
        recommend lib (toTable m) recipients senderPrefersMutual) ∧
    ∀ e ∈ events, (e.apply lib m').2 = m'

/-- Whether a peer is known from an event on. -/
def acquaints (addr : String) : PeerEvent → Bool
  | message msg =>
      decide (canonicalise lib msg.from = addr) && (applicableHeader lib msg).isSome
  | gossip addr' _ _ => decide (canonicalise lib addr' = addr)

/-- The events from the first on that makes a peer known. -/
def sinceKnown (addr : String) (events : List PeerEvent) : List PeerEvent :=
  events.dropWhile fun e => !e.acquaints lib addr

/-- A message is newer than all messages of its sender since the sender became known. -/
def Forgets (events : List PeerEvent) : Prop :=
  ∃ msg, message msg ∈ events ∧ 0 < msg.effectiveDate ∧
    sinceKnown lib (canonicalise lib msg.from) events ≠ [] ∧
    ∀ msg', message msg' ∈ sinceKnown lib (canonicalise lib msg.from) events →
      canonicalise lib msg'.from = canonicalise lib msg.from →
        msg'.effectiveDate < msg.effectiveDate

/-! ### What an event does to a peer -/

/-- The state of a known peer after gossip. -/
def gossipStep (key : List UInt8) (timestamp : Int) (entry : PeerState) : PeerState :=
  if dominated timestamp entry then adoptGossip key timestamp entry else entry

/-- The state of a known peer after an event. -/
def step (addr : String) (entry : PeerState) : PeerEvent → PeerState
  | message msg =>
      if canonicalise lib msg.from = addr then PeerStateTable.step lib entry msg else entry
  | gossip addr' key timestamp =>
      if canonicalise lib addr' = addr then gossipStep key timestamp entry else entry

variable {lib}

theorem updateGossip_eq (addr : String) (key : List UInt8) (timestamp : Int) (m : PeerMap) :
  (m.updateGossip lib addr key timestamp).2 =
    m.set (canonicalise lib addr)
      (gossipStep key timestamp ((m.get (canonicalise lib addr)).getD emptyPeerState))
  := by
  rw [PeerMap.updateGossip, gossipStep]
  split
  · rfl
  · rfl

theorem get_update (m : PeerMap) (msg : IncomingMessage) (addr : String) :
  (m.update lib msg).2.get addr = ((toTable m).update lib msg).2.peers addr
  := congrFun (congrArg PeerStateTable.peers (PeerMap.update_toTable m msg).2) addr

theorem apply_known {m : PeerMap} {addr : String} {entry : PeerState}
    (h : m.get addr = some entry) (e : PeerEvent) :
  (e.apply lib m).2.get addr = some (step lib addr entry e)
  := by
  cases e with
  | message msg =>
      rw [apply, step, get_update]
      split
      · rename_i hsame
        exact update_known hsame h
      · rename_i hother
        rw [update_other rfl (Ne.symm hother)]
        exact h
  | gossip addr' key timestamp =>
      rw [apply, step, updateGossip_eq]
      split
      · rename_i hsame
        subst hsame
        rw [JsMap.get_set_self, h]
        rfl
      · rename_i hother
        rw [JsMap.get_set_of_ne (Ne.symm hother)]
        exact h

theorem apply_unknown {m : PeerMap} {addr : String} (h : m.get addr = none) (e : PeerEvent) :
  (e.apply lib m).2.get addr =
    if e.acquaints lib addr then some (step lib addr emptyPeerState e) else none
  := by
  cases e with
  | message msg =>
      rw [apply, get_update, acquaints]
      by_cases hsame : canonicalise lib msg.from = addr
      · rw [update_unknown hsame h, step, if_pos hsame, decide_eq_true hsame, Bool.true_and]
        cases applicableHeader lib msg with
        | none => rfl
        | some header => rfl
      · rw [update_other rfl (Ne.symm hsame), decide_eq_false hsame, Bool.false_and]
        exact h
  | gossip addr' key timestamp =>
      rw [apply, updateGossip_eq, acquaints]
      by_cases hsame : canonicalise lib addr' = addr
      · subst hsame
        rw [JsMap.get_set_self, h, step, if_pos rfl, decide_eq_true rfl]
        rfl
      · rw [JsMap.get_set_of_ne (Ne.symm hsame), decide_eq_false hsame]
        exact h

theorem applyAll_known {m : PeerMap} {addr : String} {entry : PeerState}
    (h : m.get addr = some entry) (events : List PeerEvent) :
  (applyAll lib events m).get addr = some (events.foldl (step lib addr) entry)
  := by
  induction events generalizing m entry with
  | nil => exact h
  | cons e events ih => apply ih (apply_known h e)

/-- What is known of a peer is what the events tell since it is known. -/
theorem applyAll_unknown {m : PeerMap} {addr : String} (h : m.get addr = none)
    (events : List PeerEvent) :
  (applyAll lib events m).get addr =
    if sinceKnown lib addr events = [] then none
    else some ((sinceKnown lib addr events).foldl (step lib addr) emptyPeerState)
  := by
  induction events generalizing m with
  | nil => exact h
  | cons e events ih =>
      have happly := @apply_unknown lib _ _ h e
      by_cases hknown : e.acquaints lib addr = true
      · have hsince : sinceKnown lib addr (e :: events) = e :: events := by
          apply List.dropWhile_cons_of_neg
          rw [hknown]
          nofun
        rw [if_pos hknown] at happly
        rw [hsince, if_neg (List.cons_ne_nil e events)]
        exact applyAll_known happly events
      · have hsince : sinceKnown lib addr (e :: events) = sinceKnown lib addr events := by
          apply List.dropWhile_cons_of_pos
          rw [Bool.eq_false_of_not_eq_true hknown]
          rfl
        rw [if_neg hknown] at happly
        rw [hsince]
        exact ih happly

theorem mem_sinceKnown {addr : String} {e : PeerEvent} {events : List PeerEvent}
    (he : e ∈ events) (h : e.acquaints lib addr = true) :
  e ∈ sinceKnown lib addr events
  := by
  rw [← List.takeWhile_append_dropWhile (p := fun e => !e.acquaints lib addr) (l := events)] at he
  rcases List.mem_append.mp he with htaken | hleft
  · have hnot := List.mem_takeWhile_imp htaken
    simp only [h] at hnot
    cases hnot
  · exact hleft

/-! ### What is known stays known -/

/-- The last gossip of a peer is not older than a time. -/
def GossipedSince (timestamp : Int) (entry : PeerState) : Prop :=
  ∃ known, entry.gossipTimestamp = some known ∧ timestamp ≤ known

/-- Nothing that is known of a peer becomes older. -/
structure Grows (entry entry' : PeerState) : Prop where
  lastSeen : entry.lastSeen ≤ entry'.lastSeen
  lastSeenAutocrypt : entry.lastSeenAutocrypt ≤ entry'.lastSeenAutocrypt
  gossip : ∀ timestamp, GossipedSince timestamp entry → GossipedSince timestamp entry'

theorem Grows.refl (entry : PeerState) :
  Grows entry entry
  := ⟨le_rfl, le_rfl, fun _ h => h⟩

theorem gossipedSince_gossipStep (key : List UInt8) (timestamp : Int) (entry : PeerState) :
  GossipedSince timestamp (gossipStep key timestamp entry)
  := by
  rw [gossipStep]
  split
  · exact ⟨timestamp, rfl, le_rfl⟩
  · rename_i hold
    rw [dominated] at hold
    cases hknown : entry.gossipTimestamp with
    | none =>
        rw [hknown] at hold
        exact absurd rfl hold
    | some known =>
        rw [hknown, Option.all_some, decide_eq_true_eq] at hold
        exact ⟨known, hknown, not_lt.mp hold⟩

theorem grows_gossipStep (key : List UInt8) (timestamp : Int) (entry : PeerState) :
  Grows entry (gossipStep key timestamp entry)
  := by
  rw [gossipStep]
  split
  · rename_i hnew
    constructor
    · apply le_rfl
    · apply le_rfl
    · rintro timestamp' ⟨known, hknown, hle⟩
      rw [dominated, hknown, Option.all_some, decide_eq_true_eq] at hnew
      exact ⟨timestamp, rfl, hle.trans hnew.le⟩
  · apply Grows.refl

theorem grows_step (addr : String) (entry : PeerState) (e : PeerEvent) :
  Grows entry (step lib addr entry e)
  := by
  cases e with
  | message msg =>
      rw [step]
      split
      · constructor
        · apply (le_step entry msg).2
        · apply lastSeenAutocrypt_le_step
        · intro timestamp hgossip
          rw [GossipedSince, (gossip_step lib entry msg).2]
          exact hgossip
      · apply Grows.refl
  | gossip addr' key timestamp =>
      rw [step]
      split
      · apply grows_gossipStep
      · apply Grows.refl

theorem grows_foldl (addr : String) (events : List PeerEvent) (entry : PeerState) :
  Grows entry (events.foldl (step lib addr) entry)
  := by
  induction events generalizing entry with
  | nil => apply Grows.refl
  | cons e events ih =>
      have hfirst := @grows_step lib addr entry e
      have hrest := ih (step lib addr entry e)
      constructor
      · exact hfirst.lastSeen.trans hrest.lastSeen
      · exact hfirst.lastSeenAutocrypt.trans hrest.lastSeenAutocrypt
      · intro timestamp hgossip
        apply hrest.gossip timestamp
        exact hfirst.gossip timestamp hgossip

/-- What holds of a peer after an event, and is kept when more becomes known, holds after all
events. -/
theorem foldl_of_mem {P : PeerState → Prop} {addr : String} {e : PeerEvent}
    (hkept : ∀ entry entry', Grows entry entry' → P entry → P entry')
    (hstep : ∀ entry, P (step lib addr entry e)) {events : List PeerEvent} (he : e ∈ events)
    (entry : PeerState) :
  P (events.foldl (step lib addr) entry)
  := by
  obtain ⟨before, after, rfl⟩ := List.append_of_mem he
  rw [List.foldl_append, List.foldl_cons]
  apply hkept _ _ (grows_foldl addr after _)
  apply hstep

/-- The last message of a peer is one of the messages, or was known. -/
theorem lastSeen_foldl (addr : String) (events : List PeerEvent) (entry : PeerState) :
  (events.foldl (step lib addr) entry).lastSeen = entry.lastSeen ∨
    ∃ msg, message msg ∈ events ∧ canonicalise lib msg.from = addr ∧
      (events.foldl (step lib addr) entry).lastSeen = msg.effectiveDate
  := by
  induction events generalizing entry with
  | nil => exact Or.inl rfl
  | cons e events ih =>
      rw [List.foldl_cons]
      rcases ih (step lib addr entry e) with hkept | ⟨msg, hmsg, hfrom, hdate⟩
      · rw [hkept]
        cases e with
        | message msg =>
            rw [step]
            split
            · rename_i hfrom
              rw [step_lastSeen, keepNewest]
              split
              · exact Or.inr ⟨msg, List.mem_cons_self, hfrom, rfl⟩
              · exact Or.inl rfl
            · exact Or.inl rfl
        | gossip addr' key timestamp =>
            left
            rw [step]
            split
            · rw [gossipStep]
              split
              · rfl
              · rfl
            · rfl
      · exact Or.inr ⟨msg, List.mem_cons_of_mem e hmsg, hfrom, hdate⟩

/-! ### Events that are applied again -/

theorem apply_message_eq_iff (m : PeerMap) (msg : IncomingMessage) :
  ((message msg).apply lib m).2 = m ↔ Known lib (toTable m) msg
  := by
  constructor
  · intro hsame
    apply (update_eq_iff (toTable m) msg).mp
    rw [← (PeerMap.update_toTable m msg).2]
    exact congrArg toTable hsame
  · exact PeerMap.update_of_known

theorem apply_gossip_eq {m : PeerMap} {addr : String} {entry : PeerState}
    (hget : m.get (canonicalise lib addr) = some entry) {timestamp : Int}
    (hgossip : GossipedSince timestamp entry) (key : List UInt8) :
  ((gossip addr key timestamp).apply lib m).2 = m
  := by
  obtain ⟨known, hknown, hle⟩ := hgossip
  have hold : ¬ dominated timestamp entry = true := by
    rw [dominated, hknown, Option.all_some, decide_eq_true_eq]
    exact not_lt.mpr hle
  rw [apply, updateGossip_eq, hget, Option.getD_some, gossipStep, if_neg hold]
  exact JsMap.set_of_get hget

section Applied

variable {events : List PeerEvent} {m : PeerMap}
  (hm : ∀ addr, m.get addr = (applyAll lib events .empty).get addr)

include hm

/-- A peer that an event makes known is known afterwards. -/
theorem get_of_acquaints {addr : String} {e : PeerEvent} (he : e ∈ events)
    (h : e.acquaints lib addr = true) :
  m.get addr = some ((sinceKnown lib addr events).foldl (step lib addr) emptyPeerState)
  := by
  have hmem := mem_sinceKnown he h
  rw [hm, applyAll_unknown (JsMap.get_empty addr), if_neg (List.ne_nil_of_mem hmem)]

theorem gossip_applied {addr : String} {key : List UInt8} {timestamp : Int}
    (he : gossip addr key timestamp ∈ events) :
  ((gossip addr key timestamp).apply lib m).2 = m
  := by
  have hknown : (gossip addr key timestamp).acquaints lib (canonicalise lib addr) = true :=
    decide_eq_true rfl
  apply apply_gossip_eq (get_of_acquaints hm he hknown)
  apply foldl_of_mem (e := gossip addr key timestamp) _ _ (mem_sinceKnown he hknown)
  · intro entry entry' hgrows hgossip
    apply hgrows.gossip timestamp hgossip
  · intro entry
    rw [step, if_pos rfl]
    apply gossipedSince_gossipStep

theorem header_applied {msg : IncomingMessage} (he : message msg ∈ events)
    (hheader : (applicableHeader lib msg).isSome = true) :
  ((message msg).apply lib m).2 = m
  := by
  have hknown : (message msg).acquaints lib (canonicalise lib msg.from) = true := by
    rw [acquaints, decide_eq_true rfl, hheader]
    rfl
  have hsome : applicableHeader lib msg ≠ none := Option.isSome_iff_ne_none.mp hheader
  have hmem := mem_sinceKnown he hknown
  apply (apply_message_eq_iff m msg).mpr
  rw [Known, toTable]
  simp only [get_of_acquaints hm he hknown]
  constructor
  · apply foldl_of_mem (P := fun entry => msg.effectiveDate ≤ entry.lastSeen) _ _ hmem
    · intro entry entry' hgrows hseen
      exact hseen.trans hgrows.lastSeen
    · intro entry
      rw [step, if_pos rfl]
      apply (le_step entry msg).1
  · intro _
    apply foldl_of_mem (P := fun entry => msg.effectiveDate ≤ entry.lastSeenAutocrypt) _ _ hmem
    · intro entry entry' hgrows hautocrypt
      exact hautocrypt.trans hgrows.lastSeenAutocrypt
    · intro entry
      rw [step, if_pos rfl]
      apply date_le_step entry hsome

/-- A message without a header changes nothing, just if its sender is not known or was seen
later. -/
theorem plain_applied_iff {msg : IncomingMessage} (hheader : applicableHeader lib msg = none) :
  ((message msg).apply lib m).2 = m ↔
    sinceKnown lib (canonicalise lib msg.from) events = [] ∨
      msg.effectiveDate ≤ ((sinceKnown lib (canonicalise lib msg.from) events).foldl
        (step lib (canonicalise lib msg.from)) emptyPeerState).lastSeen
  := by
  rw [apply_message_eq_iff, Known, toTable]
  simp only [hm, applyAll_unknown (JsMap.get_empty (canonicalise lib msg.from)), hheader]
  by_cases hsince : sinceKnown lib (canonicalise lib msg.from) events = []
  · simp only [hsince, if_true, true_or]
  · simp only [hsince, if_false, false_or, ne_eq, not_true_eq_false, false_implies, and_true]

/-- All that was applied changes nothing, just if nothing is forgotten. -/
theorem applied_iff :
  (∀ e ∈ events, (e.apply lib m).2 = m) ↔ ¬ Forgets lib events
  := by
  constructor
  · rintro hall ⟨msg, hmsg, hpos, hsince, hnewer⟩
    have hheader : applicableHeader lib msg = none := by
      rw [← Option.not_isSome_iff_eq_none]
      intro hsome
      have hmem : message msg ∈ sinceKnown lib (canonicalise lib msg.from) events := by
        apply mem_sinceKnown hmsg
        rw [acquaints, decide_eq_true rfl, hsome]
        rfl
      exact lt_irrefl _ (hnewer msg hmem rfl)
    rcases (plain_applied_iff hm hheader).mp (hall _ hmsg) with hunknown | hseen
    · exact hsince hunknown
    · rcases lastSeen_foldl (canonicalise lib msg.from) (sinceKnown lib _ events)
        emptyPeerState with hempty | ⟨msg', hmsg', hfrom, hdate⟩
      · rw [hempty] at hseen
        exact not_lt.mpr hseen hpos
      · rw [hdate] at hseen
        exact not_lt.mpr hseen (hnewer msg' hmsg' hfrom)
  · intro hkept e he
    cases e with
    | gossip addr key timestamp => exact gossip_applied hm he
    | message msg =>
        cases hheader : applicableHeader lib msg with
        | some header =>
            apply header_applied hm he
            rw [hheader]
            rfl
        | none =>
            apply (plain_applied_iff hm hheader).mpr
            by_contra hneither
            rw [not_or] at hneither
            obtain ⟨hsince, hunseen⟩ := hneither
            have hunseen := not_le.mp hunseen
            apply hkept
            refine ⟨msg, he, ?_, hsince, ?_⟩
            · have hgrows := @grows_foldl lib (canonicalise lib msg.from)
                (sinceKnown lib (canonicalise lib msg.from) events) emptyPeerState
              exact hgrows.lastSeen.trans_lt hunseen
            · intro msg' hmsg' hfrom
              have hseen : msg'.effectiveDate ≤
                  ((sinceKnown lib (canonicalise lib msg.from) events).foldl
                    (step lib (canonicalise lib msg.from)) emptyPeerState).lastSeen := by
                apply foldl_of_mem (P := fun entry => msg'.effectiveDate ≤ entry.lastSeen) _ _ hmsg'
                · intro entry entry' hgrows hle
                  exact hle.trans hgrows.lastSeen
                · intro entry
                  rw [step, if_pos hfrom]
                  apply (le_step entry msg').1
              exact hseen.trans_lt hunseen

end Applied

/-- A table survives its storage just if the peer with the name of the prototype was never known,
and no message is newer than all of its sender since the sender is known. -/
theorem survives_iff (lib : Library) (events : List PeerEvent) :
  Survives lib events ↔ sinceKnown lib protoName events = [] ∧ ¬ Forgets lib events
  := by
  have hproto : (applyAll lib events .empty).get protoName = none ↔
      sinceKnown lib protoName events = [] := by
    rw [applyAll_unknown (JsMap.get_empty protoName)]
    split
    · rename_i hnil
      exact iff_of_true rfl hnil
    · rename_i hsince
      constructor
      · nofun
      · intro hnil
        exact absurd hnil hsince
  rw [← hproto]
  constructor
  · rintro ⟨m', hjson, hget, _, _, _, happlied⟩
    rw [PeerMap.fromJson_toJson] at hjson
    obtain rfl := Option.some.inj hjson
    constructor
    · rw [← hget, PeerMap.get_restored, if_pos rfl]
    · exact (applied_iff hget).mp happlied
  · rintro ⟨hunknown, hkept⟩
    have hget : ∀ addr, (applyAll lib events .empty).restored.get addr =
        (applyAll lib events .empty).get addr := by
      intro addr
      rw [PeerMap.get_restored]
      split
      · rename_i haddr
        rw [haddr, hunknown]
      · rfl
    have htable : toTable (applyAll lib events .empty).restored =
        toTable (applyAll lib events .empty) := ext_peers hget
    refine ⟨_, PeerMap.fromJson_toJson _, hget, ?_, ?_, ?_, (applied_iff hget).mpr hkept⟩
    · intro addr
      rw [htable]
    · intro addr
      rw [PeerMap.getPublicKey, PeerMap.getPublicKey, htable]
    · intro recipients senderPrefersMutual
      rw [htable]

/-- The key of a peer with the name of the prototype is lost. -/
theorem fromProto_lost :
  ¬ Survives .plain [message PeerMap.fromProto]
  := by
  rintro ⟨m', hjson, hget, _⟩
  rw [PeerMap.fromJson_toJson] at hjson
  obtain rfl := Option.some.inj hjson
  have hlost := hget protoName
  rw [PeerMap.get_restored, if_pos rfl] at hlost
  cases hlost

end PeerEvent

end Chat
