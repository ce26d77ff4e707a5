import Noombat.Chat.DateOrder
import Noombat.Program.Runs

/-!
# Saving the peer state

The client keeps the table of its peers in the encrypted blob on the server.  A message that
changes the table marks it as dirty; a sync takes a copy of a dirty table, encrypts it and puts
it on the server, and then clears the mark.  Messages go on arriving in between, and a refusal of
the server is a value that nobody looks at.  So whenever nothing is marked and no sync is under
way, the server holds the table, just if every sync that cleared the mark found the table as it
had copied it, or was refused when the server held the table already.
-/

namespace Chat

open PeerStateTable
open Runs (Throughout Meets throughout_iff_meets)

/-- A sync that is under way, with its copy of the table. -/
inductive Sync where
  | encrypting (copy : PeerStateTable)
  | putting (copy : PeerStateTable)

/-- How the PUT of a blob ends. -/
inductive PutOutcome where
  | success
  /-- The server answers with the status of an error. -/
  | httpError
  /-- No answer arrives; the server may have accepted the blob. -/
  | rejected (accepted : Bool)

/-- The client after the blob is unlocked, and the table in the last blob that the server
accepted. -/
structure Session where
  peerState : PeerStateTable
  peerStateDirty : Bool
  syncing : Option Sync
  stored : PeerStateTable

inductive SessionEvent where
  /-- A message arrives, whose header was parsed if it carried one. -/
  | message (sender : String) (date : Int) (header : Option AutocryptHeader)
  /-- The timer, a hidden tab or the end of the session asks for a sync. -/
  | syncPeerState
  | encrypted (ok : Bool)
  | put (outcome : PutOutcome)

namespace Session

/-- A session that has restored a table. -/
def unlocked (table : PeerStateTable) : Session :=
  ⟨table, false, none, table⟩

variable (lib : Library)

def handleIncomingMessage (sender : String) (date : Int) (header : Option AutocryptHeader)
    (s : Session) : Session :=
  match header with
  | none => s
  | some header =>
      let (result, table) := s.peerState.update lib ⟨sender, date, some header⟩
      { s with
        peerState := table
        peerStateDirty := s.peerStateDirty || result.mutated }

def syncPeerState (s : Session) : Session :=
  if s.peerStateDirty && s.syncing.isNone then
    { s with syncing := some (.encrypting s.peerState) }
  else s

/-- The state after an event, if it can happen. -/
def step (s : Session) : SessionEvent → Option Session
  | .message sender date header => some (s.handleIncomingMessage lib sender date header)
  | .syncPeerState => some s.syncPeerState
  | .encrypted ok =>
      match s.syncing with
      | some (.encrypting copy) =>
          some { s with syncing := if ok then some (.putting copy) else none }
      | _ => none
  | .put outcome =>
      match s.syncing with
      | some (.putting copy) =>
          match outcome with
          | .success => some { s with syncing := none, peerStateDirty := false, stored := copy }
          -- the result of `storeBlob` is not looked at
          | .httpError => some { s with syncing := none, peerStateDirty := false }
          | .rejected accepted =>
              some { s with syncing := none, stored := if accepted then copy else s.stored }
      | _ => none

/-! ### Runs -/

/-- If nothing is marked and no sync is under way, the server holds the table. -/
def Saved (s : Session) : Prop :=
  s.peerStateDirty = false → s.syncing = none → s.stored = s.peerState

/-- A PUT that is answered finds the table as it was copied, or, if it is refused, as the server
holds it. -/
def Fresh (s : Session) : SessionEvent → Prop
  | .put .success => s.syncing = some (.putting s.peerState)
  | .put .httpError => s.stored = s.peerState
  | _ => True

/-- No key is dated after the last message of its peer. -/
def Dated (table : PeerStateTable) : Prop :=
  ∀ addr entry, table.peers addr = some entry → entry.lastSeenAutocrypt ≤ entry.lastSeen

variable {lib}

/-! ### The dates of the table -/

theorem step_dated {entry : PeerState} (h : entry.lastSeenAutocrypt ≤ entry.lastSeen)
    (msg : IncomingMessage) :
  (PeerStateTable.step lib entry msg).lastSeenAutocrypt ≤
    (PeerStateTable.step lib entry msg).lastSeen
  := by
  obtain ⟨hdate, hseen⟩ := le_seenAt msg.effectiveDate entry
  have hkept : (seenAt msg.effectiveDate entry).lastSeenAutocrypt ≤
      (seenAt msg.effectiveDate entry).lastSeen := by
    rw [lastSeenAutocrypt_seenAt]
    apply h.trans hseen
  rw [PeerStateTable.step]
  split
  · exact hkept
  · split
    · exact hdate
    · exact hkept

theorem Dated.update {table : PeerStateTable} (h : Dated table) (msg : IncomingMessage) :
  Dated (table.update lib msg).2
  := by
  intro addr entry hentry
  by_cases haddr : addr = canonicalise lib msg.from
  · subst haddr
    cases hknown : table.peers (canonicalise lib msg.from) with
    | none =>
        rw [update_unknown rfl hknown] at hentry
        obtain ⟨header, _, rfl⟩ := Option.map_eq_some_iff.mp hentry
        apply step_dated
        apply le_rfl
    | some known =>
        rw [update_known rfl hknown] at hentry
        obtain rfl := Option.some.inj hentry
        apply step_dated
        apply h _ _ hknown
  · rw [update_other rfl haddr] at hentry
    apply h _ _ hentry

/-- A message that is not said to change the table leaves it as it is. -/
theorem update_unmutated {table : PeerStateTable} (hdated : Dated table) {msg : IncomingMessage}
    (h : (table.update lib msg).1.mutated = false) :
  (table.update lib msg).2 = table
  := by
  apply (update_eq_iff table msg).mpr
  rw [update] at h
  rw [Known]
  cases hheader : applicableHeader lib msg with
  | none =>
      simp only [hheader] at h
      cases hknown : table.peers (canonicalise lib msg.from) with
      | none => rfl
      | some entry =>
          simp only [hknown] at h
          constructor
          · exact not_lt.mp (of_decide_eq_false h)
          · intro hne
            exact absurd rfl hne
  | some header =>
      simp only [hheader] at h
      split at h
      · cases h
      · rename_i hold
        cases hknown : table.peers (canonicalise lib msg.from) with
        | none =>
            rw [hknown] at h
            cases h
        | some entry =>
            rw [hknown, lastSeenAutocrypt_seenAt] at hold
            have hautocrypt : msg.effectiveDate ≤ entry.lastSeenAutocrypt := not_lt.mp hold
            constructor
            · apply hautocrypt.trans (hdated _ _ hknown)
            · intro _
              exact hautocrypt

/-! ### What holds throughout -/

/-- The table is dated, and a sync is under way only when one is due. -/
structure Sound (s : Session) : Prop where
  dated : Dated s.peerState
  due : s.syncing ≠ none → s.peerStateDirty = true

/-- A session in which a sync is due has nothing to be saved. -/
theorem saved_of_dirty {s : Session} (h : s.peerStateDirty = true) :
  Saved s
  := by
  intro hclean
  rw [h] at hclean
  cases hclean

theorem Sound.message {s : Session} (h : Sound s) (hsaved : Saved s) (sender : String)
    (date : Int) (header : Option AutocryptHeader) :
  Sound (s.handleIncomingMessage lib sender date header) ∧
    Saved (s.handleIncomingMessage lib sender date header)
  := by
  cases header with
  | none => exact ⟨h, hsaved⟩
  | some header =>
      constructor
      · constructor
        · apply h.dated.update
        · intro hsyncing
          change (s.peerStateDirty || _) = true
          rw [h.due hsyncing, Bool.true_or]
      · intro hclean hsyncing
        obtain ⟨hclean, hmutated⟩ := Bool.or_eq_false_iff.mp hclean
        change s.stored = (s.peerState.update lib ⟨sender, date, some header⟩).2
        rw [update_unmutated h.dated hmutated]
        apply hsaved hclean hsyncing

theorem Sound.sync {s : Session} (h : Sound s) (hsaved : Saved s) :
  Sound s.syncPeerState ∧ Saved s.syncPeerState
  := by
  rw [syncPeerState]
  split
  · rename_i hdue
    have hdirty := (Bool.and_eq_true_iff.mp hdue).1
    exact ⟨⟨h.dated, fun _ => hdirty⟩, saved_of_dirty hdirty⟩
  · exact ⟨h, hsaved⟩

/-- What an event does to a session that is saved. -/
theorem Sound.step {s s' : Session} (h : Sound s) (hsaved : Saved s) {e : SessionEvent}
    (hstep : s.step lib e = some s') :
  Sound s' ∧ (Saved s' ↔ Fresh s e)
  := by
  cases e with
  | message sender date header =>
      obtain rfl := Option.some.inj hstep
      obtain ⟨hsound, hkept⟩ := h.message hsaved sender date header
      exact ⟨hsound, iff_of_true hkept trivial⟩
  | syncPeerState =>
      obtain rfl := Option.some.inj hstep
      obtain ⟨hsound, hkept⟩ := h.sync hsaved
      exact ⟨hsound, iff_of_true hkept trivial⟩
  | encrypted ok =>
      rw [Session.step] at hstep
      split at hstep
      · rename_i copy hsyncing
        obtain rfl := Option.some.inj hstep
        have hdirty : s.peerStateDirty = true := by
          apply h.due
          rw [hsyncing]
          nofun
        exact ⟨⟨h.dated, fun _ => hdirty⟩, iff_of_true (saved_of_dirty hdirty) trivial⟩
      · cases hstep
  | put outcome =>
      rw [Session.step] at hstep
      split at hstep
      · rename_i copy hsyncing
        have hdirty : s.peerStateDirty = true := by
          apply h.due
          rw [hsyncing]
          nofun
        cases outcome with
        | success =>
            obtain rfl := Option.some.inj hstep
            constructor
            · exact ⟨h.dated, fun hnone => absurd rfl hnone⟩
            · change (false = false → none = none → copy = s.peerState) ↔
                s.syncing = some (.putting s.peerState)
              rw [hsyncing]
              constructor
              · intro hcopy
                rw [hcopy rfl rfl]
              · intro hcopy _ _
                injection hcopy with hcopy
                injection hcopy
        | httpError =>
            obtain rfl := Option.some.inj hstep
            constructor
            · exact ⟨h.dated, fun hnone => absurd rfl hnone⟩
            · constructor
              · intro hkept
                apply hkept rfl rfl
              · intro hheld _ _
                exact hheld
        | rejected accepted =>
            obtain rfl := Option.some.inj hstep
            constructor
            · exact ⟨h.dated, fun hnone => absurd rfl hnone⟩
            · exact iff_of_true (saved_of_dirty hdirty) trivial
      · cases hstep

theorem sound_unlocked {table : PeerStateTable} (h : Dated table) :
  Sound (unlocked table)
  := ⟨h, fun hnone => absurd rfl hnone⟩

theorem saved_unlocked (table : PeerStateTable) :
  Saved (unlocked table)
  := fun _ _ => rfl

theorem dated_unknown :
  Dated unknown
  := by
  intro addr entry hentry
  cases hentry

/-- A message of Ann with her key. -/
def annWrites (date : Int) : SessionEvent :=
  .message "ann" date withHeader.autocryptHeader

end Session

end Chat
