import Noombat.Chat.DateOrder
import Noombat.Chat.HeaderValue
import Noombat.Chat.Relay
import Noombat.Program.Runs

/-!
# Conversations

The messages that the client shows, over the life of its component.  With each connection the
component asks for the whole mailbox; of each message that arrives it updates the table of its
peers, if the message carries a header, and shows the message when it is decrypted.  So a message
is shown once just if it never arrives again, every message that arrives is shown just if each
has a body, and the table is that of all messages in the order of their dates just if each message
carries a header or tells nothing new, where the messages of each sender arrive in that order.
-/

namespace Chat

open PeerStateTable
open Runs (Throughout Meets run throughout_iff_meets throughout_iff_meets_of)

/-- The libraries of the relay and of the component. -/
structure Platform where
  addresses : PeerStateTable.Library
  mail : MailLibrary
  decodeText : Bytes → List Char

/-- A message of the relay that carries one of the mailbox. -/
structure Mail where
  uid : UInt32
  «from» : String
  bodyB64 : String
  autocryptHeaderB64 : Option String
  timestamp : Int
  deriving DecidableEq

/-- A message of the list that is shown. -/
inductive ChatMessage where
  /-- A message that was received, decrypted or not. -/
  | received (mail : Mail)
  /-- A notice that the key of an address has changed. -/
  | keyChanged (address : String) (timestamp : Int)

def ChatMessage.from : ChatMessage → String
  | received mail => mail.from
  | keyChanged address _ => address

structure Component where
  peerState : PeerStateTable
  /-- The messages whose decryption has not finished. -/
  decrypting : List Mail
  messages : List ChatMessage
  contacts : List String

namespace Component

variable (platform : Platform)

/-- The header of a message, if it carries one that is parsed. -/
def headerOf (mail : Mail) : Option AutocryptHeader := do
  let b64 ← mail.autocryptHeaderB64
  let headerBytes ← atob b64.toList
  parseAutocryptHeader platform.addresses.toLowerCase (platform.decodeText headerBytes)

/-- A message as the table of peers is told of it. -/
def incoming (mail : Mail) : IncomingMessage :=
  ⟨mail.from, mail.timestamp, headerOf platform mail⟩

def updatePeerState (mail : Mail) (c : Component) : Component :=
  match headerOf platform mail with
  | none => c
  | some header =>
      let (result, table) :=
        c.peerState.update platform.addresses ⟨mail.from, mail.timestamp, some header⟩
      { c with
        peerState := table
        messages :=
          if result.keyChanged then c.messages ++ [.keyChanged mail.from mail.timestamp]
          else c.messages }

/-- What happens at once when a message arrives; its decryption starts, unless the body is no
base 64. -/
def handleIncomingMessage (mail : Mail) (c : Component) : Component :=
  let c := updatePeerState platform mail c
  match atob mail.bodyB64.toList with
  | none => c
  | some _ => { c with decrypting := c.decrypting ++ [mail] }

/-- What happens when a message is decrypted. -/
def «show» (mail : Mail) (c : Component) : Component :=
  { c with
    messages := c.messages ++ [.received mail]
    contacts := if c.contacts.contains mail.from then c.contacts else c.contacts ++ [mail.from] }

/-- A message of the mailbox arrives. -/
def onMessage (mail : Mail) (c : Component) : Component :=
  if mail.from ≠ "" ∧ mail.bodyB64 ≠ "" then handleIncomingMessage platform mail c else c

/-- The messages of the conversation with a contact, or all if none is chosen. -/
def filteredMessages (recipient : String) (c : Component) : List ChatMessage :=
  if recipient ≠ "" then c.messages.filter (·.from == recipient) else c.messages

/-- The component after the decryptions have finished in an order. -/
def settled (order : List Mail) (c : Component) : Component :=
  order.foldl (fun c mail => c.show mail) c

/-- The messages of the mailbox that are in the list. -/
def received (c : Component) : List Mail :=
  c.messages.filterMap fun
    | .received mail => some mail
    | .keyChanged _ _ => none

/-- The table of peers is told of a message. -/
def Told (mail : Mail) : Prop :=
  mail.from ≠ "" ∧ mail.bodyB64 ≠ "" ∧ headerOf platform mail ≠ none

end Component

/-- A message that is decrypted and shown when it arrives. -/
def Mail.Displayable (mail : Mail) : Prop :=
  mail.from ≠ "" ∧ mail.bodyB64 ≠ "" ∧ atob mail.bodyB64.toList ≠ none

namespace Component

variable {platform : Platform}

/-! ### What the component does -/

@[simp]
theorem received_show (mail : Mail) (c : Component) :
  (c.show mail).received = c.received ++ [mail]
  := List.filterMap_append

@[simp]
theorem received_updatePeerState (mail : Mail) (c : Component) :
  (updatePeerState platform mail c).received = c.received
  := by
  rw [updatePeerState]
  split
  · rfl
  · rw [received, received]
    dsimp only
    split
    · rw [List.filterMap_append]
      apply List.append_nil
    · rfl

@[simp]
theorem contacts_updatePeerState (mail : Mail) (c : Component) :
  (updatePeerState platform mail c).contacts = c.contacts
  := by
  rw [updatePeerState]
  split
  · rfl
  · rfl

@[simp]
theorem decrypting_updatePeerState (mail : Mail) (c : Component) :
  (updatePeerState platform mail c).decrypting = c.decrypting
  := by
  rw [updatePeerState]
  split
  · rfl
  · rfl

theorem peerState_updatePeerState (mail : Mail) (c : Component) :
  (updatePeerState platform mail c).peerState =
    if headerOf platform mail = none then c.peerState
    else (c.peerState.update platform.addresses (incoming platform mail)).2
  := by
  rw [updatePeerState]
  split
  · rename_i hnone
    rw [if_pos hnone]
  · rename_i header hheader
    rw [incoming, hheader]
    rfl

@[simp]
theorem received_onMessage (mail : Mail) (c : Component) :
  (onMessage platform mail c).received = c.received
  := by
  rw [onMessage]
  split
  · rw [handleIncomingMessage]
    split
    · apply received_updatePeerState
    · apply received_updatePeerState
  · rfl

@[simp]
theorem contacts_onMessage (mail : Mail) (c : Component) :
  (onMessage platform mail c).contacts = c.contacts
  := by
  rw [onMessage]
  split
  · rw [handleIncomingMessage]
    split
    · apply contacts_updatePeerState
    · apply contacts_updatePeerState
  · rfl

theorem decrypting_onMessage_of {mail : Mail} (h : mail.Displayable) (c : Component) :
  (onMessage platform mail c).decrypting = c.decrypting ++ [mail]
  := by
  obtain ⟨hfrom, hbody, hatob⟩ := h
  rw [onMessage, if_pos ⟨hfrom, hbody⟩, handleIncomingMessage]
  split
  · rename_i hnone
    exact absurd hnone hatob
  · simp only [decrypting_updatePeerState]

theorem decrypting_onMessage_of_not {mail : Mail} (h : ¬ mail.Displayable) (c : Component) :
  (onMessage platform mail c).decrypting = c.decrypting
  := by
  rw [onMessage]
  split
  · rename_i htaken
    rw [handleIncomingMessage]
    split
    · apply decrypting_updatePeerState
    · rename_i hatob
      apply absurd _ h
      refine ⟨htaken.1, htaken.2, ?_⟩
      rw [hatob]
      nofun
  · rfl

theorem peerState_onMessage_of {mail : Mail} (h : Told platform mail) (c : Component) :
  (onMessage platform mail c).peerState =
    (c.peerState.update platform.addresses (incoming platform mail)).2
  := by
  obtain ⟨hfrom, hbody, hheader⟩ := h
  have hupdated := @peerState_updatePeerState platform mail c
  rw [if_neg hheader] at hupdated
  rw [onMessage, if_pos ⟨hfrom, hbody⟩, handleIncomingMessage]
  split
  · exact hupdated
  · exact hupdated

theorem peerState_onMessage_of_not {mail : Mail} (h : ¬ Told platform mail) (c : Component) :
  (onMessage platform mail c).peerState = c.peerState
  := by
  rw [onMessage]
  split
  · rename_i htaken
    have hheader : headerOf platform mail = none := by
      by_contra hsome
      exact h ⟨htaken.1, htaken.2, hsome⟩
    have hkept := @peerState_updatePeerState platform mail c
    rw [if_pos hheader] at hkept
    rw [handleIncomingMessage]
    split
    · exact hkept
    · exact hkept
  · rfl

theorem settled_messages (order : List Mail) (c : Component) :
  (c.settled order).messages = c.messages ++ order.map .received
  := by
  induction order generalizing c with
  | nil => exact (List.append_nil _).symm
  | cons mail order ih =>
      rw [settled, List.foldl_cons]
      apply (ih _).trans
      change (c.messages ++ [.received mail]) ++ _ = _
      rw [List.append_assoc]
      rfl

theorem settled_received (order : List Mail) (c : Component) :
  (c.settled order).received = c.received ++ order
  := by
  rw [received, settled_messages, List.filterMap_append, List.filterMap_map]
  apply congrArg (c.received ++ ·)
  apply List.filterMap_some

theorem mem_contacts_show {mail : Mail} {address : String} {c : Component} :
  address ∈ (c.show mail).contacts ↔ address ∈ c.contacts ∨ address = mail.from
  := by
  change address ∈ (if c.contacts.contains mail.from then c.contacts
    else c.contacts ++ [mail.from]) ↔ _
  split
  · rename_i hknown
    constructor
    · exact .inl
    · rintro (hold | rfl)
      · exact hold
      · exact List.contains_iff_mem.mp hknown
  · rw [List.mem_append, List.mem_singleton]

theorem mem_contacts_settled {order : List Mail} {address : String} {c : Component} :
  address ∈ (c.settled order).contacts ↔
    address ∈ c.contacts ∨ ∃ mail ∈ order, address = mail.from
  := by
  induction order generalizing c with
  | nil =>
      change address ∈ c.contacts ↔ _
      simp only [List.not_mem_nil, false_and, exists_false, or_false]
  | cons mail order ih =>
      rw [settled, List.foldl_cons]
      apply ih.trans
      simp only [mem_contacts_show, or_assoc, List.mem_cons, exists_eq_or_imp]

/-- A message of the list is in the conversation with its sender. -/
theorem mem_filteredMessages {mail : Mail} {c : Component} :
  .received mail ∈ c.filteredMessages mail.from ↔ mail ∈ c.received
  := by
  have hreceived : ChatMessage.received mail ∈ c.messages ↔ mail ∈ c.received := by
    rw [received, List.mem_filterMap]
    constructor
    · intro hmem
      exact ⟨_, hmem, rfl⟩
    · rintro ⟨m, hmem, hmail⟩
      cases m with
      | received mail' =>
          obtain rfl := Option.some.inj hmail
          exact hmem
      | keyChanged address timestamp => cases hmail
  rw [filteredMessages]
  split
  · rw [List.mem_filter]
    constructor
    · intro hmem
      apply hreceived.mp hmem.1
    · intro hmem
      exact ⟨hreceived.mpr hmem, beq_self_eq_true mail.from⟩
  · exact hreceived

end Component

open Component (incoming Told)

/-! ### The relay -/

/-- The message of the mailbox that a message of the relay carries. -/
def ServerMessage.mail : ServerMessage → Option Mail
  | message uid «from» bodyB64 autocryptHeaderB64 timestamp =>
      some ⟨uid, «from», bodyB64, autocryptHeaderB64, timestamp⟩
  | _ => none

/-- A connection of the component to the relay. -/
structure Connection where
  /-- What the relay has sent and the component has not received. -/
  frames : List ServerMessage
  /-- Whether the component has asked for messages and the relay has not answered. -/
  fetching : Bool
  /-- Whether the relay has passed on the whole mailbox. -/
  answered : Bool

/-- A life of the component, with what has been sent to it and what has arrived. -/
structure Life where
  mailbox : List Fetched
  connection : Option Connection
  component : Component
  /-- The messages of the mailbox that the relay has sent. -/
  sent : List Mail
  /-- Those that have arrived, each once. -/
  arrived : List Mail

inductive LifeEvent where
  /-- A message is delivered to the mailbox. -/
  | deliver (message : Fetched)
  | connect
  | disconnect
  /-- The relay answers the request for messages: with an error, or with those that it can
  fetch. -/
  | fetch (results : Except String (Fetched → Option String))
  /-- The component receives the next message of the relay. -/
  | receive
  /-- A decryption finishes. -/
  | decrypted (mail : Mail)

namespace Life

variable (platform : Platform)

/-- A life in which nothing has happened. -/
def unlocked (table : PeerStateTable) : Life :=
  ⟨[], none, ⟨table, [], [], []⟩, [], []⟩

/-- What the relay fetches of the mailbox. -/
def fetched (failure : Fetched → Option String) (mailbox : List Fetched) :
    List (Except String Fetched) :=
  mailbox.map fun message =>
    match failure message with
    | some e => .error e
    | none => .ok message

/-- The component receives a message of the relay. -/
def receiveMail (mail : Mail) (s : Life) : Life :=
  { s with
    component := s.component.onMessage platform mail
    arrived := if mail ∈ s.arrived then s.arrived else s.arrived ++ [mail] }

/-- The relay has answered the request for messages. -/
def answer (results : Except String (Fetched → Option String)) (c : Connection) (s : Life) :
    Life :=
  match results with
  | .error e =>
      { s with
        connection := some
          { c with
            frames := c.frames ++ [.error s!"fetch failed: IMAP FETCH failed: {e}"]
            fetching := false } }
  | .ok failure =>
      match serverMessages platform.mail (fetched failure s.mailbox) with
      -- the task of the relay panics
      | none => { s with connection := none }
      | some ms =>
          { s with
            connection := some
              { c with
                frames := c.frames ++ ms
                fetching := false
                answered := c.answered || s.mailbox.all fun m => (failure m).isNone }
            sent := s.sent ++ ms.filterMap ServerMessage.mail }

/-- The life after an event, if it can happen. -/
def step (s : Life) : LifeEvent → Option Life
  | .deliver message =>
      if message.uid.isSome ∧ ∀ m ∈ s.mailbox, m.uid ≠ message.uid then
        some { s with mailbox := s.mailbox ++ [message] }
      else none
  | .connect =>
      match s.connection with
      | some _ => none
      | none => some { s with connection := some ⟨[.ready], false, false⟩ }
  -- what has not arrived is lost
  | .disconnect => some { s with connection := none }
  | .fetch results =>
      match s.connection with
      | some c => if c.fetching then some (s.answer platform results c) else none
      | none => none
  | .receive =>
      match s.connection with
      | none => none
      | some c =>
          match c.frames with
          | [] => none
          | .ready :: frames =>
              -- all messages are asked for, whatever has arrived before
              some { s with connection := some { c with frames := frames, fetching := true } }
          | frame :: frames =>
              let s := { s with connection := some { c with frames := frames } }
              match frame.mail with
              | some mail => some (s.receiveMail platform mail)
              | none => some s
  | .decrypted mail =>
      if mail ∈ s.component.decrypting then
        some
          { s with
            component :=
              { s.component.show mail with decrypting := s.component.decrypting.erase mail } }
      else none

/-! ### What should hold -/

/-- The messages of the mailbox that are shown. -/
def received (s : Life) : List Mail :=
  s.component.received

/-- In whatever order the decryptions finish, no message of the mailbox is shown twice. -/
def ShownOnce (s : Life) : Prop :=
  ∀ order, order.Perm s.component.decrypting →
    ((s.component.settled order).received.map Mail.uid).Nodup

/-- In whatever order the decryptions finish, every message that has arrived is shown in the
conversation with its sender, who is a contact; and if the relay has passed on the mailbox over
this connection, all that it has sent has arrived. -/
structure ShownAll (s : Life) : Prop where
  shown : ∀ order, order.Perm s.component.decrypting → ∀ mail ∈ s.arrived,
    .received mail ∈ (s.component.settled order).filteredMessages mail.from ∧
      mail.from ∈ (s.component.settled order).contacts
  arrived : ∀ c, s.connection = some c → c.answered = true → c.frames = [] →
    ∀ mail ∈ s.sent, mail ∈ s.arrived

/-- The table of peers is that which the messages that have arrived make of the table restored,
each once and in the order of their dates. -/
def Informed (table : PeerStateTable) (s : Life) : Prop :=
  s.component.peerState =
    table.updateAll platform.addresses (inDateOrder (s.arrived.map (incoming platform)))

/-! ### When it holds -/

/-- The message of the mailbox that the component receives with an event. -/
def next (s : Life) : LifeEvent → Option Mail
  | .receive => do
      let c ← s.connection
      let frame ← c.frames.head?
      frame.mail
  | _ => none

/-- What arrives to be shown is none of the messages that are shown or being decrypted. -/
def First (s : Life) (e : LifeEvent) : Prop :=
  ∀ mail, s.next e = some mail → mail.Displayable →
    ∀ m ∈ s.received ++ s.component.decrypting, m.uid ≠ mail.uid

/-- What arrives can be shown. -/
def Bodied (s : Life) (e : LifeEvent) : Prop :=
  ∀ mail, s.next e = some mail → mail.Displayable

/-- What arrives for the first time is not older than what has arrived of its sender. -/
def InOrder (s : Life) (e : LifeEvent) : Prop :=
  ∀ mail, s.next e = some mail → mail ∉ s.arrived → ∀ m ∈ s.arrived,
    canonicalise platform.addresses m.from = canonicalise platform.addresses mail.from →
      m.timestamp ≤ mail.timestamp

/-- What arrives has a body and carries a header, or the table knows already what it tells. -/
def Learnt (s : Life) (e : LifeEvent) : Prop :=
  ∀ mail, s.next e = some mail →
    Told platform mail ∨
      Known platform.addresses s.component.peerState (incoming platform mail)

/-! ### What an event does to the component -/

variable {platform : Platform}

/-- An event brings a message to the component, or it leaves the component as it is, or a
decryption finishes. -/
theorem step_cases {s s' : Life} {e : LifeEvent} (h : s.step platform e = some s') :
  (∃ mail, s.next e = some mail ∧ s'.component = s.component.onMessage platform mail ∧
      s'.arrived = if mail ∈ s.arrived then s.arrived else s.arrived ++ [mail]) ∨
    s.next e = none ∧ s'.arrived = s.arrived ∧ (s'.component = s.component ∨
      ∃ mail ∈ s.component.decrypting, s'.component =
        { s.component.show mail with decrypting := s.component.decrypting.erase mail })
  := by
  cases e with
  | deliver message =>
      rw [step] at h
      split at h
      · obtain rfl := Option.some.inj h
        exact .inr ⟨rfl, rfl, .inl rfl⟩
      · cases h
  | connect =>
      rw [step] at h
      split at h
      · cases h
      · obtain rfl := Option.some.inj h
        exact .inr ⟨rfl, rfl, .inl rfl⟩
  | disconnect =>
      obtain rfl := Option.some.inj h
      exact .inr ⟨rfl, rfl, .inl rfl⟩
  | fetch results =>
      have hanswer : ∀ c, (s.answer platform results c).arrived = s.arrived ∧
          (s.answer platform results c).component = s.component := by
        intro c
        cases results with
        | error e => exact ⟨rfl, rfl⟩
        | ok failure =>
            rw [answer]
            split
            · exact ⟨rfl, rfl⟩
            · exact ⟨rfl, rfl⟩
      rw [step] at h
      split at h
      · rename_i c _
        split at h
        · obtain rfl := Option.some.inj h
          obtain ⟨harrived, hcomponent⟩ := hanswer c
          exact .inr ⟨rfl, harrived, .inl hcomponent⟩
        · cases h
      · cases h
  | receive =>
      rw [step] at h
      split at h
      · cases h
      · rename_i c hconnection
        split at h
        · cases h
        · rename_i frames hframes
          obtain rfl := Option.some.inj h
          have hnext : s.next .receive = none := by
            rw [next, hconnection]
            simp only [Option.bind_eq_bind, Option.bind_some, hframes, List.head?_cons]
            rfl
          exact .inr ⟨hnext, rfl, .inl rfl⟩
        · rename_i frame frames _ hframes
          have hnext : s.next .receive = frame.mail := by
            rw [next, hconnection]
            simp only [Option.bind_eq_bind, Option.bind_some, hframes, List.head?_cons]
          dsimp only at h
          split at h
          · rename_i mail hmail
            obtain rfl := Option.some.inj h
            exact .inl ⟨mail, hnext.trans hmail, rfl, rfl⟩
          · rename_i hmail
            obtain rfl := Option.some.inj h
            exact .inr ⟨hnext.trans hmail, rfl, .inl rfl⟩
  | decrypted mail =>
      rw [step] at h
      split at h
      · rename_i hmem
        obtain rfl := Option.some.inj h
        exact .inr ⟨rfl, rfl, .inr ⟨mail, hmem, rfl⟩⟩
      · cases h

/-! ### Shown once -/

theorem shownOnce_iff (s : Life) :
  ShownOnce s ↔ ((s.received ++ s.component.decrypting).map Mail.uid).Nodup
  := by
  have hperm : ∀ order, order.Perm s.component.decrypting →
      (((s.component.settled order).received.map Mail.uid).Nodup ↔
        ((s.received ++ s.component.decrypting).map Mail.uid).Nodup) := by
    intro order horder
    rw [Component.settled_received]
    apply List.Perm.nodup_iff
    apply List.Perm.map
    apply horder.append_left
  constructor
  · intro h
    apply (hperm _ (.refl _)).mp (h _ (.refl _))
  · intro h order horder
    apply (hperm order horder).mpr h

/-- The messages that are shown or being decrypted, after a decryption. -/
theorem perm_erase {mail : Mail} {c : Component} (h : mail ∈ c.decrypting) :
  ((c.show mail).received ++ c.decrypting.erase mail).Perm (c.received ++ c.decrypting)
  := by
  rw [Component.received_show, List.append_assoc]
  apply List.Perm.append_left
  exact (List.perm_cons_erase h).symm

theorem ShownOnce.step_iff {s s' : Life} {e : LifeEvent} (h : ShownOnce s)
    (hstep : s.step platform e = some s') :
  ShownOnce s' ↔ First s e
  := by
  rw [shownOnce_iff] at h ⊢
  rcases step_cases hstep with ⟨mail, hnext, hcomponent, _⟩ | ⟨hnext, _, hcomponent⟩
  · rw [received, hcomponent, Component.received_onMessage]
    by_cases hshown : mail.Displayable
    · rw [Component.decrypting_onMessage_of hshown, ← List.append_assoc, List.map_append,
        List.nodup_append]
      constructor
      · rintro ⟨_, _, hfresh⟩ mail' hmail' _ m hm
        obtain rfl := Option.some.inj (hnext.symm.trans hmail')
        apply hfresh _ (List.mem_map_of_mem hm) _ List.mem_cons_self
      · intro hfirst
        refine ⟨h, List.pairwise_singleton _ _, ?_⟩
        intro uid huid uid' huid'
        obtain ⟨m, hm, rfl⟩ := List.mem_map.mp huid
        obtain rfl := List.mem_singleton.mp huid'
        apply hfirst mail hnext hshown m hm
    · rw [Component.decrypting_onMessage_of_not hshown]
      apply iff_of_true h
      intro mail' hmail' hshown'
      obtain rfl := Option.some.inj (hnext.symm.trans hmail')
      exact absurd hshown' hshown
  · have hfirst : First s e := by
      intro mail hmail
      rw [hnext] at hmail
      cases hmail
    rcases hcomponent with hsame | ⟨mail, hmem, hshown⟩
    · rw [received, hsame]
      exact iff_of_true h hfirst
    · rw [received, hshown]
      apply iff_of_true _ hfirst
      apply (((perm_erase hmem).map Mail.uid).nodup_iff).mpr h

/-! ### Shown at all -/

/-- What is shown can be shown, and is of a contact. -/
structure Tracked (s : Life) : Prop where
  displayable : ∀ mail ∈ s.received ++ s.component.decrypting, mail.Displayable
  contacts : ∀ mail ∈ s.received, mail.from ∈ s.component.contacts

theorem shown_iff {s : Life} (h : Tracked s) :
  (∀ order, order.Perm s.component.decrypting → ∀ mail ∈ s.arrived,
    .received mail ∈ (s.component.settled order).filteredMessages mail.from ∧
      mail.from ∈ (s.component.settled order).contacts) ↔
    ∀ mail ∈ s.arrived, mail ∈ s.received ++ s.component.decrypting
  := by
  constructor
  · intro hshown mail hmail
    have hmem := (hshown _ (.refl _) mail hmail).1
    rw [Component.mem_filteredMessages, Component.settled_received] at hmem
    exact hmem
  · intro hshown order horder mail hmail
    have hmem : mail ∈ s.received ++ order := by
      rw [List.mem_append, horder.mem_iff, ← List.mem_append]
      apply hshown mail hmail
    rw [Component.mem_filteredMessages, Component.settled_received,
      Component.mem_contacts_settled]
    constructor
    · exact hmem
    · rcases List.mem_append.mp hmem with hold | hnew
      · exact .inl (h.contacts mail hold)
      · exact .inr ⟨mail, hnew, rfl⟩

theorem Tracked.step {s s' : Life} {e : LifeEvent} (h : Tracked s)
    (hstep : s.step platform e = some s') :
  Tracked s'
  := by
  rcases step_cases hstep with ⟨mail, _, hcomponent, _⟩ | ⟨_, _, hsame | ⟨mail, hmem, hshown⟩⟩
  · constructor
    · rw [received, hcomponent, Component.received_onMessage]
      by_cases hshown : mail.Displayable
      · rw [Component.decrypting_onMessage_of hshown, ← List.append_assoc]
        intro m hm
        rcases List.mem_append.mp hm with hold | hnew
        · apply h.displayable m hold
        · obtain rfl := List.mem_singleton.mp hnew
          exact hshown
      · rw [Component.decrypting_onMessage_of_not hshown]
        exact h.displayable
    · rw [received, hcomponent, Component.received_onMessage, Component.contacts_onMessage]
      exact h.contacts
  · constructor
    · rw [received, hsame]
      exact h.displayable
    · rw [received, hsame]
      exact h.contacts
  · constructor
    · rw [received, hshown]
      intro m hm
      apply h.displayable m ((perm_erase hmem).mem_iff.mp hm)
    · rw [received, hshown]
      intro m hm
      change m ∈ (s.component.show mail).received at hm
      rw [Component.received_show] at hm
      change m.from ∈ (s.component.show mail).contacts
      apply Component.mem_contacts_show.mpr
      rcases List.mem_append.mp hm with hold | hnew
      · exact .inl (h.contacts m hold)
      · obtain rfl := List.mem_singleton.mp hnew
        exact .inr rfl

/-! ### What the relay has sent -/

theorem mem_serverMessages {lib : MailLibrary} {results : List (Except String Fetched)}
    {ms : List ServerMessage} (h : serverMessages lib results = some ms) (m : ServerMessage) :
  m ∈ ms ↔ ∃ message, .ok message ∈ results ∧ serverMessage lib message = some (some m)
  := by
  induction results generalizing ms with
  | nil =>
      obtain rfl := Option.some.inj h
      simp only [List.not_mem_nil, false_and, exists_false]
  | cons result results ih =>
      cases result with
      | error e =>
          rw [serverMessages] at h
          rw [ih h]
          simp only [List.mem_cons, reduceCtorEq, false_or]
      | ok message =>
          rw [serverMessages] at h
          obtain ⟨first, hfirst, h⟩ := Option.bind_eq_some_iff.mp h
          obtain ⟨rest, hrest, h⟩ := Option.bind_eq_some_iff.mp h
          obtain rfl := Option.some.inj h
          rw [List.mem_append, Option.mem_toList, ih hrest]
          simp only [List.mem_cons, Except.ok.injEq, or_and_right, exists_or, exists_eq_left,
            hfirst, Option.some_inj]

/-- What has been sent is of the mailbox; and if the mailbox has been passed on over this
connection, it has arrived or is under way. -/
structure Accounted (platform : Platform) (s : Life) : Prop where
  mailed : ∀ mail ∈ s.sent, ∃ message ∈ s.mailbox, ∃ m,
    serverMessage platform.mail message = some (some m) ∧ m.mail = some mail
  covered : ∀ c, s.connection = some c → c.answered = true → ∀ mail ∈ s.sent,
    mail ∈ s.arrived ∨ ∃ m ∈ c.frames, m.mail = some mail

theorem Accounted.answer {s : Life} (h : Accounted platform s) {c : Connection}
    (hc : s.connection = some c) (results : Except String (Fetched → Option String)) :
  Accounted platform (s.answer platform results c)
  := by
  cases results with
  | error e =>
      constructor
      · exact h.mailed
      · intro c' hc' hanswered mail hmail
        obtain rfl := Option.some.inj hc'
        rcases h.covered c hc hanswered mail hmail with harrived | ⟨m, hm, hcarries⟩
        · exact .inl harrived
        · exact .inr ⟨m, List.mem_append_left _ hm, hcarries⟩
  | ok failure =>
      rw [Life.answer]
      split
      · constructor
        · exact h.mailed
        · intro c' hc'
          cases hc'
      · rename_i ms hms
        have hmem := mem_serverMessages hms
        constructor
        · intro mail hmail
          rcases List.mem_append.mp hmail with hold | hnew
          · apply h.mailed mail hold
          · obtain ⟨m, hm, hcarries⟩ := List.mem_filterMap.mp hnew
            obtain ⟨message, hfetched, hserver⟩ := (hmem m).mp hm
            obtain ⟨message', hmessage, heq⟩ := List.mem_map.mp hfetched
            split at heq
            · cases heq
            · obtain rfl := Except.ok.inj heq
              exact ⟨message', hmessage, m, hserver, hcarries⟩
        · intro c' hc' hanswered mail hmail
          obtain rfl := Option.some.inj hc'
          rcases List.mem_append.mp hmail with hold | hnew
          · rcases Bool.or_eq_true_iff.mp hanswered with hbefore | hwhole
            · rcases h.covered c hc hbefore mail hold with harrived | ⟨m, hm, hcarries⟩
              · exact .inl harrived
              · exact .inr ⟨m, List.mem_append_left _ hm, hcarries⟩
            -- the mailbox, which was passed on as a whole, holds all that was sent before
            · obtain ⟨message, hmessage, m, hserver, hcarries⟩ := h.mailed mail hold
              have hfine : failure message = none :=
                Option.isNone_iff_eq_none.mp (List.all_eq_true.mp hwhole message hmessage)
              have hfetched : .ok message ∈ fetched failure s.mailbox := by
                apply List.mem_map.mpr
                refine ⟨message, hmessage, ?_⟩
                rw [hfine]
              have hm : m ∈ ms := (hmem m).mpr ⟨message, hfetched, hserver⟩
              exact .inr ⟨m, List.mem_append_right _ hm, hcarries⟩
          · obtain ⟨m, hm, hcarries⟩ := List.mem_filterMap.mp hnew
            exact .inr ⟨m, List.mem_append_right _ hm, hcarries⟩

theorem Accounted.receive {s : Life} (h : Accounted platform s) {c : Connection}
    (hc : s.connection = some c) {frame : ServerMessage} {frames : List ServerMessage}
    (hframes : c.frames = frame :: frames) {arrived : List Mail} (hkept : s.arrived ⊆ arrived)
    (hmail : ∀ mail, frame.mail = some mail → mail ∈ arrived) (fetching : Bool)
    (component : Component) :
  Accounted platform
    ⟨s.mailbox, some ⟨frames, fetching, c.answered⟩, component, s.sent, arrived⟩
  := by
  constructor
  · exact h.mailed
  · intro c' hc' hanswered mail hmem
    obtain rfl := Option.some.inj hc'
    rcases h.covered c hc hanswered mail hmem with hold | ⟨m, hm, hcarries⟩
    · exact .inl (hkept hold)
    · rw [hframes] at hm
      rcases List.mem_cons.mp hm with rfl | hm
      · exact .inl (hmail mail hcarries)
      · exact .inr ⟨m, hm, hcarries⟩

/-- What has arrived, with one message more. -/
theorem mem_arrived {arrived : List Mail} {m mail : Mail} :
  m ∈ (if mail ∈ arrived then arrived else arrived ++ [mail]) ↔ m ∈ arrived ∨ m = mail
  := by
  split
  · rename_i hold
    constructor
    · exact .inl
    · rintro (hm | rfl)
      · exact hm
      · exact hold
  · rw [List.mem_append, List.mem_singleton]

theorem Accounted.step {s s' : Life} {e : LifeEvent} (h : Accounted platform s)
    (hstep : s.step platform e = some s') :
  Accounted platform s'
  := by
  cases e with
  | deliver message =>
      rw [Life.step] at hstep
      split at hstep
      · obtain rfl := Option.some.inj hstep
        constructor
        · intro mail hmail
          obtain ⟨message', hmessage, hserver⟩ := h.mailed mail hmail
          exact ⟨message', List.mem_append_left _ hmessage, hserver⟩
        · exact h.covered
      · cases hstep
  | connect =>
      rw [Life.step] at hstep
      split at hstep
      · cases hstep
      · obtain rfl := Option.some.inj hstep
        constructor
        · exact h.mailed
        · intro c hc hanswered
          obtain rfl := Option.some.inj hc
          cases hanswered
  | disconnect =>
      obtain rfl := Option.some.inj hstep
      constructor
      · exact h.mailed
      · intro c hc
        cases hc
  | fetch results =>
      rw [Life.step] at hstep
      split at hstep
      · rename_i c hc
        split at hstep
        · obtain rfl := Option.some.inj hstep
          apply h.answer hc
        · cases hstep
      · cases hstep
  | receive =>
      rw [Life.step] at hstep
      split at hstep
      · cases hstep
      · rename_i c hc
        split at hstep
        · cases hstep
        · rename_i frames hframes
          obtain rfl := Option.some.inj hstep
          apply h.receive hc hframes (List.Subset.refl _)
          intro mail hmail
          cases hmail
        · rename_i frame frames _ hframes
          dsimp only at hstep
          split at hstep
          · rename_i mail hmail
            obtain rfl := Option.some.inj hstep
            apply h.receive hc hframes
            · intro m hm
              exact mem_arrived.mpr (.inl hm)
            · intro mail' hmail'
              obtain rfl := Option.some.inj (hmail.symm.trans hmail')
              exact mem_arrived.mpr (.inr rfl)
          · rename_i hmail
            obtain rfl := Option.some.inj hstep
            apply h.receive hc hframes (List.Subset.refl _)
            intro mail hmail'
            rw [hmail] at hmail'
            cases hmail'
  | decrypted mail =>
      rw [Life.step] at hstep
      split at hstep
      · obtain rfl := Option.some.inj hstep
        exact ⟨h.mailed, h.covered⟩
      · cases hstep

/-- What has been sent has arrived when the mailbox has been passed on. -/
theorem Accounted.arrived {s : Life} (h : Accounted platform s) {c : Connection}
    (hc : s.connection = some c) (hanswered : c.answered = true) (hframes : c.frames = []) :
  ∀ mail ∈ s.sent, mail ∈ s.arrived
  := by
  intro mail hmail
  rcases h.covered c hc hanswered mail hmail with harrived | ⟨m, hm, _⟩
  · exact harrived
  · rw [hframes] at hm
    cases hm

theorem ShownAll.step_iff {s s' : Life} {e : LifeEvent} (htracked : Tracked s)
    (haccounted : Accounted platform s) (h : ShownAll s)
    (hstep : s.step platform e = some s') :
  ShownAll s' ↔ Bodied s e
  := by
  have hshown := (shown_iff htracked).mp h.shown
  have htracked' := htracked.step hstep
  have hall : ShownAll s' ↔
      ∀ mail ∈ s'.arrived, mail ∈ s'.received ++ s'.component.decrypting := by
    constructor
    · intro hs'
      exact (shown_iff htracked').mp hs'.shown
    · intro hs'
      constructor
      · exact (shown_iff htracked').mpr hs'
      · intro c
        apply (haccounted.step hstep).arrived
  rw [hall]
  rcases step_cases hstep with ⟨mail, hnext, hcomponent, harrived⟩ | ⟨hnext, harrived, hcomponent⟩
  · rw [harrived, received, hcomponent, Component.received_onMessage]
    constructor
    · intro hs' mail' hmail'
      obtain rfl := Option.some.inj (hnext.symm.trans hmail')
      by_contra hhidden
      rw [Component.decrypting_onMessage_of_not hhidden] at hs'
      apply hhidden
      apply htracked.displayable
      apply hs' mail (mem_arrived.mpr (.inr rfl))
    · intro hbodied m hm
      rw [Component.decrypting_onMessage_of (hbodied mail hnext), ← List.append_assoc,
        List.mem_append, List.mem_singleton]
      rcases mem_arrived.mp hm with hold | hnew
      · exact .inl (hshown m hold)
      · exact .inr hnew
  · have hbodied : Bodied s e := by
      intro mail hmail
      rw [hnext] at hmail
      cases hmail
    apply iff_of_true _ hbodied
    rw [harrived]
    intro m hm
    rcases hcomponent with hsame | ⟨mail, hmem, hshow⟩
    · rw [received, hsame]
      apply hshown m hm
    · rw [received, hshow]
      apply (perm_erase hmem).mem_iff.mpr
      apply hshown m hm

/-! ### The table of peers -/

/-- The messages of each sender have arrived in order, and the table knows what they tell. -/
structure Retained (platform : Platform) (s : Life) : Prop where
  oldestFirst : OldestFirst platform.addresses (s.arrived.map (incoming platform))
  known : ∀ mail ∈ s.arrived,
    Known platform.addresses s.component.peerState (incoming platform mail)

/-- The table when a message arrives: it is told of the message, or it stays as it is. -/
theorem peerState_onMessage (mail : Mail) (c : Component) :
  (c.onMessage platform mail).peerState =
      (c.peerState.update platform.addresses (incoming platform mail)).2 ↔
    Told platform mail ∨ Known platform.addresses c.peerState (incoming platform mail)
  := by
  by_cases htold : Told platform mail
  · exact iff_of_true (Component.peerState_onMessage_of htold c) (.inl htold)
  · rw [Component.peerState_onMessage_of_not htold]
    constructor
    · intro hsame
      exact .inr ((update_eq_iff _ _).mp hsame.symm)
    · rintro (htold' | hknown)
      · exact absurd htold' htold
      · exact ((update_eq_iff _ _).mpr hknown).symm

theorem peerState_onMessage_of_known {mail : Mail} {c : Component}
    (h : Known platform.addresses c.peerState (incoming platform mail)) :
  (c.onMessage platform mail).peerState = c.peerState
  := by
  rw [(peerState_onMessage mail c).mpr (.inr h)]
  apply (update_eq_iff _ _).mpr h

theorem oldestFirst_append {s : Life} {mail : Mail}
    (h : OldestFirst platform.addresses (s.arrived.map (incoming platform)))
    (horder : ∀ m ∈ s.arrived,
      canonicalise platform.addresses m.from = canonicalise platform.addresses mail.from →
        m.timestamp ≤ mail.timestamp) :
  OldestFirst platform.addresses ((s.arrived ++ [mail]).map (incoming platform))
  := by
  rw [List.map_append, OldestFirst, List.pairwise_append]
  refine ⟨h, List.pairwise_singleton _ _, ?_⟩
  intro msg hmsg msg' hmsg'
  obtain ⟨m, hm, rfl⟩ := List.mem_map.mp hmsg
  obtain rfl := List.mem_singleton.mp hmsg'
  apply horder m hm

theorem Retained.step_iff {table : PeerStateTable} {s s' : Life} {e : LifeEvent}
    (h : Retained platform s) (hinformed : Informed platform table s)
    (horder : InOrder platform s e) (hstep : s.step platform e = some s') :
  (Informed platform table s' ↔ Learnt platform s e) ∧
    (Informed platform table s' → Retained platform s')
  := by
  have hbefore : s.component.peerState =
      table.updateAll platform.addresses (s.arrived.map (incoming platform)) :=
    hinformed.trans (updateAll_inDateOrder h.oldestFirst table)
  rcases step_cases hstep with ⟨mail, hnext, hcomponent, harrived⟩ | ⟨hnext, harrived, hcomponent⟩
  · have hlearnt : Learnt platform s e ↔ Told platform mail ∨
        Known platform.addresses s.component.peerState (incoming platform mail) := by
      constructor
      · intro hlearnt
        apply hlearnt mail hnext
      · intro htold mail' hmail'
        obtain rfl := Option.some.inj (hnext.symm.trans hmail')
        exact htold
    rw [hlearnt]
    by_cases hold : mail ∈ s.arrived
    · rw [if_pos hold] at harrived
      have hknown := h.known mail hold
      have hsame : s'.component.peerState = s.component.peerState := by
        rw [hcomponent]
        apply peerState_onMessage_of_known hknown
      constructor
      · apply iff_of_true _ (.inr hknown)
        rw [Informed, hsame, harrived]
        exact hinformed
      · intro _
        constructor
        · rw [harrived]
          exact h.oldestFirst
        · rw [harrived, hsame]
          exact h.known
    · rw [if_neg hold] at harrived
      have hdates := horder mail hnext hold
      have hordered := oldestFirst_append h.oldestFirst hdates
      have hafter : Informed platform table s' ↔ s'.component.peerState =
          (s.component.peerState.update platform.addresses (incoming platform mail)).2 := by
        rw [Informed, harrived, updateAll_inDateOrder hordered, List.map_append, List.map_singleton,
          updateAll_append, ← hbefore]
      rw [hafter, hcomponent]
      constructor
      · apply peerState_onMessage
      · intro htable
        constructor
        · rw [harrived]
          exact hordered
        · rw [harrived, hcomponent, htable]
          intro m hm
          rcases List.mem_append.mp hm with hm | hm
          · apply (h.known m hm).update
            apply hdates m hm
          · obtain rfl := List.mem_singleton.mp hm
            apply known_update_self
  · have hsame : s'.component.peerState = s.component.peerState := by
      rcases hcomponent with hsame | ⟨mail, _, hshow⟩
      · rw [hsame]
      · rw [hshow]
        rfl
    constructor
    · apply iff_of_true
      · rw [Informed, hsame, harrived]
        exact hinformed
      · intro mail hmail
        rw [hnext] at hmail
        cases hmail
    · intro _
      constructor
      · rw [harrived]
        exact h.oldestFirst
      · rw [harrived, hsame]
        exact h.known

/-! ### Whole lives -/

theorem tracked_unlocked (table : PeerStateTable) :
  Tracked (unlocked table)
  := ⟨nofun, nofun⟩

theorem accounted_unlocked (table : PeerStateTable) :
  Accounted platform (unlocked table)
  := ⟨nofun, nofun⟩

theorem shownAll_unlocked (table : PeerStateTable) :
  ShownAll (unlocked table)
  := ⟨nofun, nofun⟩

/-- No message is shown twice just if none that is to be shown arrives again; every message is
shown just if all that arrive can be; and where those of each sender arrive in order, the table
of peers is as it should be just if it is told of every message that it does not know. -/
theorem shown_once_iff (platform : Platform) (table : PeerStateTable) (events : List LifeEvent) :
  (Throughout (step platform) ShownOnce events (unlocked table) ↔
      Meets (step platform) First events (unlocked table)) ∧
    (Throughout (step platform) ShownAll events (unlocked table) ↔
      Meets (step platform) Bodied events (unlocked table)) ∧
    (Meets (step platform) (InOrder platform) events (unlocked table) →
      (Throughout (step platform) (Informed platform table) events (unlocked table) ↔
        Meets (step platform) (Learnt platform) events (unlocked table)))
  := by
  refine ⟨?_, ?_, ?_⟩
  · apply throughout_iff_meets (I := fun _ => True)
    · intro s s' e _ hs hstep
      exact ⟨hs.step_iff hstep, fun _ => trivial⟩
    · trivial
    · apply (shownOnce_iff _).mpr
      apply List.nodup_nil
  · apply throughout_iff_meets (I := fun s => Tracked s ∧ Accounted platform s)
    · rintro s s' e ⟨htracked, haccounted⟩ hs hstep
      exact ⟨hs.step_iff htracked haccounted hstep,
        fun _ => ⟨htracked.step hstep, haccounted.step hstep⟩⟩
    · exact ⟨tracked_unlocked table, accounted_unlocked table⟩
    · apply shownAll_unlocked
  · apply throughout_iff_meets_of (I := Retained platform)
    · intro s s' e hs hinformed horder hstep
      apply hs.step_iff hinformed horder hstep
    · exact ⟨List.Pairwise.nil, nofun⟩
    · exact (updateAll_inDateOrder List.Pairwise.nil table).symm

/-! ### A second connection, and a message without a header -/

def keyText : String :=
  "From: ann@h.ex\r\nAutocrypt: addr=ann@h.ex; keydata=AQ==\r\n\r\nQ"

def plainText : String :=
  "From: ann@h.ex\r\n\r\nQ"

/-- Libraries that read these two messages. -/
def annPlatform : Platform where
  addresses := .plain
  mail :=
    { encode := fun raw =>
        if raw = [81] then "UQ==" else "YWRkcj1hbm5AaC5leDsga2V5ZGF0YT1BUT09"
      decode := fun _ => .ok []
      parseMail := fun raw =>
        if raw = Text.asBytes plainText then .ok ⟨[("From", "ann@h.ex")], .ok [81], []⟩
        else .ok ⟨[("From", "ann@h.ex"), ("Autocrypt", "addr=ann@h.ex; keydata=AQ==")],
          .ok [81], []⟩
      addressError := fun _ => none }
  decodeText := fun raw => raw.map fun b => Char.ofNat b.toNat

/-- Ann writes with her key, and then without. -/
def annWrites : List LifeEvent :=
  [.deliver ⟨some 1, some (Text.asBytes keyText), 1⟩,
    .deliver ⟨some 2, some (Text.asBytes plainText), 2⟩]

/-- The component connects and receives some messages. -/
def receives (n : Nat) : List LifeEvent :=
  [.connect, .receive, .fetch (.ok fun _ => none)] ++ List.replicate n .receive

/-- With a second connection a message is shown twice; and a message without a header leaves the
table as it is. -/
theorem shown_twice :
  ¬ Throughout (step annPlatform) ShownOnce
      (annWrites ++ receives 1 ++ [.disconnect] ++ receives 1) (unlocked unknown) ∧
    ¬ Throughout (step annPlatform) (Informed annPlatform unknown) (annWrites ++ receives 2)
      (unlocked unknown)
  := by
  constructor
  · intro hall
    have hend : ((run (step annPlatform) (annWrites ++ receives 1 ++ [.disconnect] ++ receives 1)
        (unlocked unknown)).map fun s =>
          (s.received ++ s.component.decrypting).map Mail.uid) = some [1, 1] := by
      decide +kernel
    obtain ⟨s, hs, huids⟩ := Option.map_eq_some_iff.mp hend
    have honce := (shownOnce_iff s).mp (hall.run hs)
    rw [huids] at honce
    revert honce
    decide
  · intro hall
    have hend : ((run (step annPlatform) (annWrites ++ receives 2) (unlocked unknown)).any fun s =>
        decide (OldestFirst .plain (s.arrived.map (incoming annPlatform)) ∧
          s.component.peerState.peers "ann@h.ex" ≠
            (unknown.updateAll .plain (s.arrived.map (incoming annPlatform))).peers
              "ann@h.ex")) = true := by
      decide +kernel
    obtain ⟨s, hs, hstate⟩ := (Option.any_eq_true _ _).mp hend
    obtain ⟨hordered, hdiffer⟩ := of_decide_eq_true hstate
    have hinformed : Informed annPlatform unknown s := hall.run hs
    rw [Informed] at hinformed
    have htable := hinformed.trans (updateAll_inDateOrder hordered unknown)
    apply hdiffer
    rw [htable]

end Life

end Chat
