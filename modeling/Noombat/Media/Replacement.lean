import Noombat.Media.Avatar
import Noombat.Program.Phases

/-!
# The replacement of avatars

A request is in a phase, which its exchanges determine and which says what it may ask next and
which object it has yet to record or to delete: its own, under a key that no other request has,
or that of an avatar that it has taken out of the table.  If a request replaces or deletes no
avatar but the one it has read, points its actor at the avatar it has recorded, deletes a row
only while its actor names no avatar, and removes the objects it has to, then whenever every
request that has written has answered, each actor names just the avatar that is recorded for
it, and the objects are those of the avatars.
-/

namespace Media.Avatar

open Federation (Uuid NoombatError)
open Fallible Program

abbrev Event : Type :=
  Interface.Event Avatars Call

abbrev Requests : Type :=
  Pool Avatars Call Db

variable {config : Config}

/-! ### Agreement -/

/-- An actor names the avatar that is recorded for it, or there is none. -/
def Db.Agreed (db : Db) (actorId : Uuid) : Prop :=
  (db.avatarUrl actorId = none ∧ ∀ r ∈ db.avatars.rows, r.actorId ≠ actorId) ∨
    ∃ r ∈ db.avatars.rows, r.actorId = actorId ∧ db.avatarUrl actorId = some r.url

instance (db : Db) (actorId : Uuid) : Decidable (db.Agreed actorId) :=
  inferInstanceAs (Decidable (_ ∨ _))

/-- Each avatar is of an actor there is, is named by the URL of its object, and its object
exists; each actor names its avatar; each object is that of an avatar; and the keys that are
used will not be drawn. -/
structure Db.Tidy (config : Config) (db : Db) : Prop where
  recorded : ∀ r ∈ db.avatars, r.objectKey < db.nextKey ∧ db.hasObject r.objectKey ∧
    r.url = config.mediaUrl r.objectKey ∧ ∃ actor ∈ db.actors, actor.id = r.actorId
  agreed : ∀ actorId, db.Agreed actorId
  referenced : ∀ key, db.hasObject key → ∃ r ∈ db.avatars, r.objectKey = key

/-- The exchange changed something. -/
def writes : Avatars.Exchange → Bool
  | ⟨.sql (.upsert _), .ok _⟩ => true
  | ⟨.sql (.setAvatarUrl _ _), .ok _⟩ => true
  | ⟨.sql (.deleteRow _), .ok _⟩ => true
  | ⟨.put _ _, .ok _⟩ => true
  | ⟨.delete _, .ok _⟩ => true
  | _ => false

/-- The exchange answers the request. -/
def responds : Avatars.Exchange → Bool
  | ⟨.respond _, _⟩ => true
  | _ => false

/-- Every request that has written something has answered. -/
def Quiet (h : Avatars.History Call) : Prop :=
  ∀ e ∈ h, writes e.exchange = true → ∃ e' ∈ h, e'.thread = e.thread ∧ responds e'.exchange = true

instance (h : Avatars.History Call) : Decidable (Quiet h) :=
  inferInstanceAs (Decidable (∀ e ∈ h, _ → _))

/-! ### Phases -/

/-- How far a request has come. -/
inductive Phase where
  | start
  /-- A key was drawn for the new object. -/
  | drawn (key : ObjectKey)
  /-- The new object was stored. -/
  | stored (key : ObjectKey)
  /-- The key of the avatar before was read. -/
  | looked (actorId : Uuid) (key : ObjectKey) (previous : Option ObjectKey)
  /-- The new avatar was recorded. -/
  | replaced (actorId : Uuid) (key : ObjectKey) (previous : Option ObjectKey)
  /-- The new avatar could not be recorded. -/
  | failed (key : ObjectKey)
  /-- The actor was pointed at the new avatar. -/
  | pointed (previous : Option ObjectKey)
  /-- The key of the avatar to be removed was read. -/
  | seen (actorId : Uuid) (previous : Option ObjectKey)
  /-- The actor names no avatar. -/
  | cleared (actorId : Uuid) (previous : Option ObjectKey)
  /-- The row of the avatar was deleted. -/
  | dropped (previous : Option ObjectKey)
  /-- There is nothing left but to answer. -/
  | settled
  | answered
  deriving DecidableEq

namespace Phase

/-- The phase after an exchange. -/
def next : Phase → Avatars.Exchange → Phase
  | start, ⟨.newObjectKey, .ok key⟩ => drawn key
  | start, ⟨.newObjectKey, .error _⟩ => settled
  | start, ⟨.sql (.selectKey a), r⟩ => seen a (r.toOption.getD none)
  | drawn _, ⟨.put key _, .ok _⟩ => stored key
  | drawn _, ⟨.put _ _, .error _⟩ => settled
  | stored key, ⟨.sql (.selectKey a), r⟩ => looked a key (r.toOption.getD none)
  | looked a key p, ⟨.sql (.upsert _), .ok _⟩ => replaced a key p
  | looked _ key _, ⟨.sql (.upsert _), .error _⟩ => failed key
  | replaced _ key p, ⟨.sql (.setAvatarUrl _ _), .ok _⟩ => pointed (p.filter (· != key))
  | replaced _ _ _, ⟨.sql (.setAvatarUrl _ _), .error _⟩ => settled
  | failed _, ⟨.delete _, _⟩ => settled
  | pointed _, ⟨.delete _, _⟩ => settled
  | seen a p, ⟨.sql (.setAvatarUrl _ _), .ok _⟩ => cleared a p
  | seen _ _, ⟨.sql (.setAvatarUrl _ _), .error _⟩ => settled
  | cleared _ p, ⟨.sql (.deleteRow _), .ok _⟩ => dropped p
  | cleared _ _, ⟨.sql (.deleteRow _), .error _⟩ => settled
  | dropped _, ⟨.delete _, _⟩ => settled
  | _, ⟨.respond _, _⟩ => answered
  | φ, _ => φ

/-- The phase after the exchanges given, the latest first. -/
def of (l : List Avatars.Exchange) : Phase :=
  phaseOf start next l

@[simp]
theorem of_cons (x : Avatars.Exchange) (l : List Avatars.Exchange) :
  of (x :: l) = (of l).next x
  := rfl

/-- The key of the new object, until it is recorded. -/
def own : Phase → Option ObjectKey
  | drawn key => some key
  | stored key => some key
  | looked _ key _ => some key
  | failed key => some key
  | _ => none

/-- The key of the avatar before. -/
def previous : Phase → Option ObjectKey
  | looked _ _ p => p
  | replaced _ _ p => p
  | pointed p => p
  | seen _ p => p
  | cleared _ p => p
  | dropped p => p
  | _ => none

/-- The key of an object whose avatar is no longer recorded, and that is to be removed. -/
def taken : Phase → Option ObjectKey
  | replaced _ _ p => p
  | pointed p => p
  | dropped p => p
  | _ => none

/-- The actor whose avatar is being changed. -/
def opens : Phase → Option Uuid
  | replaced a _ _ => some a
  | cleared a _ => some a
  | _ => none

/-- The request may answer. -/
def closed : Phase → Bool
  | pointed none => true
  | dropped none => true
  | settled => true
  | _ => false

end Phase

/-- What the exchanges of a request are, when it asks something. -/
def Asked (config : Config) (_ : Call) (l : List Avatars.Exchange) : AvatarRequest → Prop
  | .newObjectKey => Phase.of l = .start
  | .put key _ => Phase.of l = .drawn key
  | .sql (.selectKey _) => Phase.of l = .start ∨ ∃ key, Phase.of l = .stored key
  | .sql (.upsert row) => row.url = config.mediaUrl row.objectKey ∧
      ∃ p, Phase.of l = .looked row.actorId row.objectKey p
  | .sql (.setAvatarUrl a (some url)) => ∃ key p, url = config.mediaUrl key ∧
      Phase.of l = .replaced a key p
  | .sql (.setAvatarUrl a none) => ∃ p, Phase.of l = .seen a p
  | .sql (.deleteRow a) => ∃ p, Phase.of l = .cleared a p
  | .delete key => Phase.of l = .failed key ∨ Phase.of l = .pointed (some key) ∨
      Phase.of l = .dropped (some key)
  | .respond _ => (Phase.of l).closed = true

/-! ### What the requests ask -/

theorem asks_deletePrevious (t : Call) {φ : Option ObjectKey → Phase}
    (hφ : φ = .pointed ∨ φ = .dropped) {previous : Option ObjectKey} {l : List Avatars.Exchange}
    (hl : Phase.of l = φ previous) :
  Asks (Asked config t) (fun r l' => (Phase.of l').closed = true ∧ ∃ u, r = .ok u)
    (deletePrevious previous).run l
  := by
  cases previous with
  | none =>
      rw [deletePrevious, asks_run_pure, hl]
      rcases hφ with rfl | rfl
      · exact ⟨rfl, (), rfl⟩
      · exact ⟨rfl, (), rfl⟩
  | some key =>
      rw [deletePrevious, asks_run_bind, asks_run_attempt]
      apply (asks_run_ask (AvatarRequest.delete key) _ l).mpr
      constructor
      · rcases hφ with rfl | rfl
        · exact .inr (.inl hl)
        · exact .inr (.inr hl)
      · intro r
        rw [onExcept_ok, asks_run_pure, Phase.of_cons, hl]
        rcases hφ with rfl | rfl
        · exact ⟨rfl, (), rfl⟩
        · exact ⟨rfl, (), rfl⟩

theorem asks_pointAt (t : Call) {actorId : Uuid} {key : ObjectKey} {previous : Option ObjectKey}
    {l : List Avatars.Exchange} (hl : Phase.of l = .replaced actorId key previous) :
  Asks (Asked config t) (fun _ l' => (Phase.of l').closed = true)
    (pointAt config actorId key previous).run l
  := by
  rw [pointAt, asks_run_bind, asks_run_attempt]
  apply (asks_run_ask (AvatarRequest.sql (.setAvatarUrl actorId _)) _ l).mpr
  constructor
  · exact ⟨key, previous, rfl, hl⟩
  rintro (e | _)
  · rw [onExcept_ok, asks_run_pure, Phase.of_cons, hl]
    rfl
  · rw [onExcept_ok, asks_run_bind]
    apply Asks.mono _ (asks_deletePrevious t (.inl rfl) (by rw [Phase.of_cons, hl]; rfl))
    rintro r l' ⟨hclosed, u, rfl⟩
    rw [onExcept_ok, asks_run_pure]
    exact hclosed

theorem asks_recordAvatar (t : Call) {actorId : Uuid} {processed : Processed}
    {altText : Option String} {key : ObjectKey} {previous : Option ObjectKey}
    {l : List Avatars.Exchange} (hl : Phase.of l = .looked actorId key previous) :
  Asks (Asked config t) (fun _ l' => (Phase.of l').closed = true)
    (recordAvatar config actorId processed altText key previous).run l
  := by
  rw [recordAvatar, asks_run_bind, asks_run_attempt]
  apply (asks_run_ask (AvatarRequest.sql (.upsert _)) _ l).mpr
  constructor
  · exact ⟨rfl, previous, hl⟩
  rintro (e | _)
  · rw [onExcept_ok, asks_run_bind, asks_run_attempt]
    apply (asks_run_ask (AvatarRequest.delete key) _ _).mpr
    constructor
    · left
      rw [Phase.of_cons, hl]
      rfl
    · intro r
      rw [onExcept_ok, asks_run_pure, Phase.of_cons, Phase.of_cons, hl]
      rfl
  · rw [onExcept_ok]
    apply asks_pointAt
    rw [Phase.of_cons, hl]
    rfl

theorem asks_uploadAvatar (t : Call) (actorId : Uuid) (processed : Processed)
    (altText : Option String) :
  Asks (Asked config t) (fun _ l' => (Phase.of l').closed = true)
    (uploadAvatar config actorId processed altText).run []
  := by
  rw [uploadAvatar, asks_run_bind]
  apply (asks_run_ask AvatarRequest.newObjectKey _ []).mpr
  constructor
  · rfl
  rintro (e | key)
  · rfl
  rw [onExcept_ok, asks_run_bind, asks_run_attempt]
  apply (asks_run_ask (AvatarRequest.put key _) _ _).mpr
  constructor
  · rfl
  rintro (e | _)
  · rw [onExcept_ok, asks_run_pure]
    rfl
  · rw [onExcept_ok, asks_run_bind, asks_run_unwrapOr]
    apply (asks_run_ask (AvatarRequest.sql (.selectKey actorId)) _ _).mpr
    constructor
    · exact .inr ⟨key, rfl⟩
    · intro r
      rw [onExcept_ok]
      apply asks_recordAvatar
      rfl

theorem asks_dropAvatar (t : Call) {actorId : Uuid} {previous : Option ObjectKey}
    {l : List Avatars.Exchange} (hl : Phase.of l = .cleared actorId previous) :
  Asks (Asked config t) (fun _ l' => (Phase.of l').closed = true)
    (dropAvatar actorId previous).run l
  := by
  rw [dropAvatar, asks_run_bind, asks_run_attempt]
  apply (asks_run_ask (AvatarRequest.sql (.deleteRow actorId)) _ l).mpr
  constructor
  · exact ⟨previous, hl⟩
  rintro (e | _)
  · rw [onExcept_ok, asks_run_pure, Phase.of_cons, hl]
    rfl
  · rw [onExcept_ok, asks_run_bind]
    apply Asks.mono _ (asks_deletePrevious t (.inr rfl) (by rw [Phase.of_cons, hl]; rfl))
    rintro r l' ⟨hclosed, u, rfl⟩
    rw [onExcept_ok, asks_run_pure]
    exact hclosed

theorem asks_removeAvatar (t : Call) (actorId : Uuid) :
  Asks (Asked config t) (fun _ l' => (Phase.of l').closed = true) (removeAvatar actorId).run []
  := by
  rw [removeAvatar, asks_run_bind, asks_run_unwrapOr]
  apply (asks_run_ask (AvatarRequest.sql (.selectKey actorId)) _ []).mpr
  constructor
  · exact .inl rfl
  intro r
  rw [onExcept_ok, asks_run_bind, asks_run_attempt]
  apply (asks_run_ask (AvatarRequest.sql (.setAvatarUrl actorId none)) _ _).mpr
  constructor
  · exact ⟨_, rfl⟩
  rintro (e | _)
  · rw [onExcept_ok, asks_run_pure]
    rfl
  · rw [onExcept_ok]
    apply asks_dropAvatar
    rfl

theorem asks_respond (t : Call) (r : Except NoombatError Response) {l : List Avatars.Exchange}
    (hl : (Phase.of l).closed = true) :
  Asks (Asked config t) (fun _ _ => True) (respond r) l
  := by
  cases r with
  | error e => exact ⟨hl, fun _ => trivial⟩
  | ok r => exact ⟨hl, fun _ => trivial⟩

theorem asks_program (t : Call) :
  Asks (Asked config t) (fun _ _ => True) (t.program config) []
  := by
  cases t with
  | upload actorId processed altText =>
      rw [Call.program, asks_bind]
      apply Asks.mono _ (asks_uploadAvatar _ actorId processed altText)
      intro r l hl
      apply asks_respond _ r hl
  | remove actorId =>
      rw [Call.program, asks_bind]
      apply Asks.mono _ (asks_removeAvatar _ actorId)
      intro r l hl
      apply asks_respond _ r hl

/-! ### Orderly requests -/

/-- An actor has no avatar but the one that a request in the phase given has read. -/
def Phase.HasRead (φ : Phase) (actorId : Uuid) (db : Db) : Prop :=
  ∀ r ∈ db.avatars.rows, r.actorId = actorId → φ.previous = some r.objectKey

instance (φ : Phase) (actorId : Uuid) (db : Db) : Decidable (φ.HasRead actorId db) :=
  inferInstanceAs (Decidable (∀ r ∈ _, _ → _))

/-- A request replaces or deletes no avatar but the one it has read; it succeeds in pointing its
actor at an avatar, which is the one recorded then; it succeeds in deleting a row, whose actor
names no avatar then; and it succeeds in removing objects. -/
def Orderly : StepCondition avatarWorld Call
  | i, _, .sql (.upsert row), c, s =>
      Option.isNone c = true → (Phase.of (s.history.trace i)).HasRead row.actorId s.state
  | _, _, .sql (.setAvatarUrl a (some url)), c, s =>
      Option.isNone c = true ∧ ∃ r ∈ s.state.avatars.rows, r.actorId = a ∧ r.url = url
  | i, _, .sql (.deleteRow a), c, s =>
      Option.isNone c = true ∧ s.state.avatarUrl a = none ∧
        (Phase.of (s.history.trace i)).HasRead a s.state
  | _, _, .delete _, c, _ => Option.isNone c = true
  | _, _, _, _, _ => True

instance Orderly.decidable : ∀ (i : Nat) (t : Call) (q : AvatarRequest)
    (c : avatarWorld.Choice q) (s : Requests), Decidable (Orderly i t q c s)
  | i, _, .sql (.upsert row), c, s =>
      inferInstanceAs (Decidable (Option.isNone c = true →
        (Phase.of (s.history.trace i)).HasRead row.actorId s.state))
  | _, _, .sql (.setAvatarUrl a (some url)), c, s =>
      inferInstanceAs (Decidable (Option.isNone c = true ∧
        ∃ r ∈ s.state.avatars.rows, r.actorId = a ∧ r.url = url))
  | i, _, .sql (.deleteRow a), c, s =>
      inferInstanceAs (Decidable (Option.isNone c = true ∧ s.state.avatarUrl a = none ∧
        (Phase.of (s.history.trace i)).HasRead a s.state))
  | _, _, .delete _, c, _ => inferInstanceAs (Decidable (Option.isNone c = true))
  | _, _, .sql (.setAvatarUrl _ none), _, _ => isTrue trivial
  | _, _, .sql (.selectKey _), _, _ => isTrue trivial
  | _, _, .newObjectKey, _, _ => isTrue trivial
  | _, _, .put _ _, _, _ => isTrue trivial
  | _, _, .respond _, _, _ => isTrue trivial

/-! ### What a phase knows -/

/-- A key that was drawn is not that of an avatar. -/
def Db.Drawn (db : Db) (key : ObjectKey) : Prop :=
  key < db.nextKey ∧ ∀ r ∈ db.avatars, r.objectKey ≠ key

/-- A key that was read is that of no other actor's avatar. -/
def Db.Read (db : Db) (actorId : Uuid) (previous : Option ObjectKey) : Prop :=
  ∀ key, previous = some key → key < db.nextKey ∧
    ∀ r ∈ db.avatars, r.objectKey = key → r.actorId = actorId

/-- A key that was taken is no longer that of an avatar. -/
def Db.Taken (db : Db) (previous : Option ObjectKey) : Prop :=
  ∀ key, previous = some key → db.Drawn key

/-- What is so when a request is in a phase. -/
def Phase.Fits (db : Db) : Phase → Prop
  | drawn key => db.Drawn key ∧ ¬ db.hasObject key
  | stored key => db.Drawn key ∧ db.hasObject key
  | looked a key p => db.Drawn key ∧ db.hasObject key ∧ p ≠ some key ∧ db.Read a p
  | replaced _ key p => p ≠ some key ∧ db.Taken p
  | failed key => db.Drawn key
  | pointed p => db.Taken p
  | seen a p => db.Read a p
  | cleared a p => db.Read a p
  | dropped p => db.Taken p
  | _ => True

/-- The new object of one request is none that another one has. -/
def Phase.Apart (φ ψ : Phase) : Prop :=
  ∀ key, φ.own = some key → ψ.own ≠ some key ∧ ψ.previous ≠ some key

/-- What holds of every pool whose steps are orderly, with the phases of its requests. -/
structure Tracked (config : Config) (db : Db) (φ : Nat → Phase) : Prop where
  compatible : Compatible Phase.Fits Phase.Apart db φ
  recorded : ∀ r ∈ db.avatars, r.objectKey < db.nextKey ∧ db.hasObject r.objectKey ∧
    r.url = config.mediaUrl r.objectKey ∧ ∃ actor ∈ db.actors, actor.id = r.actorId
  drawn : ∀ key, db.hasObject key → key < db.nextKey
  covered : ∀ key, db.hasObject key → (∃ r ∈ db.avatars, r.objectKey = key) ∨
    ∃ i, (φ i).own = some key ∨ (φ i).taken = some key
  agreed : ∀ a, (∃ i, (φ i).opens = some a) ∨ db.Agreed a

namespace Phase

variable {db db' : Db} {φ : Phase}

theorem Fits.own (h : φ.Fits db) {key : ObjectKey} (hown : φ.own = some key) :
  db.Drawn key
  := by
  cases φ with
  | drawn _ => cases hown; exact h.1
  | stored _ => cases hown; exact h.1
  | looked _ _ _ => cases hown; exact h.1
  | failed _ => cases hown; exact h
  | _ => cases hown

theorem Fits.previous_lt (h : φ.Fits db) {key : ObjectKey} (hprevious : φ.previous = some key) :
  key < db.nextKey
  := by
  cases φ with
  | looked _ _ _ => exact (h.2.2.2 key hprevious).1
  | replaced _ _ _ => exact (h.2 key hprevious).1
  | pointed _ => exact (h key hprevious).1
  | seen _ _ => exact (h key hprevious).1
  | cleared _ _ => exact (h key hprevious).1
  | dropped _ => exact (h key hprevious).1
  | _ => cases hprevious

/-- What a phase knows is not changed by another request, which draws keys, adds only avatars
that this one has nothing to do with, and leaves its object as it is. -/
theorem Fits.frame (h : φ.Fits db) (hnext : db.nextKey ≤ db'.nextKey)
    (havatars : ∀ r ∈ db'.avatars, r ∈ db.avatars ∨
      φ.own ≠ some r.objectKey ∧ φ.previous ≠ some r.objectKey)
    (hobjects : ∀ key, φ.own = some key → (db'.hasObject key ↔ db.hasObject key)) :
  φ.Fits db'
  := by
  have hdrawn : ∀ key, φ.own = some key ∨ φ.previous = some key → db.Drawn key → db'.Drawn key := by
    intro key hkey hdrawn
    refine ⟨Nat.lt_of_lt_of_le hdrawn.1 hnext, ?_⟩
    rintro r hr rfl
    rcases havatars r hr with hr | ⟨hown, hprevious⟩
    · exact hdrawn.2 r hr rfl
    · exact hkey.elim hown hprevious
  have hread : ∀ a, db.Read a φ.previous → db'.Read a φ.previous := by
    intro a hread key hkey
    obtain ⟨hlt, hrows⟩ := hread key hkey
    refine ⟨Nat.lt_of_lt_of_le hlt hnext, ?_⟩
    rintro r hr rfl
    rcases havatars r hr with hr | ⟨_, hprevious⟩
    · exact hrows r hr rfl
    · exact absurd hkey hprevious
  have htaken : db.Taken φ.previous → db'.Taken φ.previous :=
    fun htaken key hkey => hdrawn key (.inr hkey) (htaken key hkey)
  cases φ with
  | drawn key => exact ⟨hdrawn key (.inl rfl) h.1, fun hobject => h.2 ((hobjects key rfl).mp hobject)⟩
  | stored key => exact ⟨hdrawn key (.inl rfl) h.1, (hobjects key rfl).mpr h.2⟩
  | looked a key p =>
      exact ⟨hdrawn key (.inl rfl) h.1, (hobjects key rfl).mpr h.2.1, h.2.2.1, hread a h.2.2.2⟩
  | replaced a key p => exact ⟨h.1, htaken h.2⟩
  | failed key => exact hdrawn key (.inl rfl) h
  | pointed p => exact htaken h
  | seen a p => exact hread a h
  | cleared a p => exact hread a h
  | dropped p => exact htaken h
  | _ => trivial

end Phase

/-- A request goes on to the phase `ψ`, while the database becomes `db'`: its own key is the
one it had or a new one, its previous one is the one it had or that of an avatar, other
requests are not disturbed, and every object and every actor that was accounted for still is. -/
theorem Tracked.enter {db db' : Db} {φ : Nat → Phase} (h : Tracked config db φ) (i : Nat)
    (ψ : Phase) (hnext : db.nextKey ≤ db'.nextKey) (hfits : ψ.Fits db')
    (hown : ∀ key, ψ.own = some key → (φ i).own = some key ∨ db.nextKey ≤ key)
    (hprevious : ∀ key, ψ.previous = some key → (φ i).previous = some key ∨
      ∃ r ∈ db.avatars, r.objectKey = key)
    (havatars : ∀ r ∈ db'.avatars, r ∈ db.avatars ∨ (φ i).own = some r.objectKey)
    (hobjects : ∀ key, (φ i).own ≠ some key → (φ i).previous ≠ some key →
      (db'.hasObject key ↔ db.hasObject key))
    (hrecorded : ∀ r ∈ db'.avatars, r.objectKey < db'.nextKey ∧ db'.hasObject r.objectKey ∧
      r.url = config.mediaUrl r.objectKey ∧ ∃ actor ∈ db'.actors, actor.id = r.actorId)
    (hdrawn : ∀ key, db'.hasObject key → key < db'.nextKey)
    (hcovered : ∀ key, db'.hasObject key → (∃ r ∈ db'.avatars, r.objectKey = key) ∨
      ψ.own = some key ∨ ψ.taken = some key ∨
      db.hasObject key ∧ (∀ r ∈ db.avatars, r.objectKey ≠ key) ∧
        (φ i).own ≠ some key ∧ (φ i).taken ≠ some key)
    (hagreed : ∀ a, ψ.opens = some a ∨ db'.Agreed a ∨
      (φ i).opens ≠ some a ∧ (db.Agreed a → db'.Agreed a)) :
  Tracked config db' (Function.update φ i ψ)
  := by
  constructor
  · apply h.compatible.enter i hfits
    intro φ' hfits' hmine htheirs
    refine ⟨?_, ?_, ?_⟩
    · apply hfits'.frame hnext
      · intro r hr
        rcases havatars r hr with hr | howns
        · exact .inl hr
        · exact .inr (hmine _ howns)
      · intro key hkey
        have hapart := htheirs key hkey
        apply hobjects key hapart.1 hapart.2
    · intro key hkey
      rcases hown key hkey with hkey | hle
      · apply hmine key hkey
      · constructor
        · intro hsame
          exact Nat.not_lt_of_le hle (hfits'.own hsame).1
        · intro hsame
          exact Nat.not_lt_of_le hle (hfits'.previous_lt hsame)
    · intro key hkey
      have hapart := htheirs key hkey
      constructor
      · intro hsame
        rcases hown key hsame with hsame | hle
        · exact hapart.1 hsame
        · exact Nat.not_lt_of_le hle (hfits'.own hkey).1
      · intro hsame
        rcases hprevious key hsame with hsame | ⟨r, hr, hrow⟩
        · exact hapart.2 hsame
        · exact (hfits'.own hkey).2 r hr hrow
  · exact hrecorded
  · exact hdrawn
  · intro key hkey
    rcases hcovered key hkey with hrow | hown | htaken | ⟨hobject, hnone, hnotOwn, hnotTaken⟩
    · exact .inl hrow
    · exact .inr ⟨i, .inl (by rw [Function.update_self, hown])⟩
    · exact .inr ⟨i, .inr (by rw [Function.update_self, htaken])⟩
    · rcases h.covered key hobject with ⟨r, hr, hrow⟩ | ⟨j, hj⟩
      · exact absurd hrow (hnone r hr)
      · right
        use j
        rw [Function.update_of_ne]
        · exact hj
        · rintro rfl
          exact hj.elim hnotOwn hnotTaken
  · intro a
    rcases hagreed a with hopens | hagrees | ⟨hclosed, hkeeps⟩
    · exact .inl ⟨i, by rw [Function.update_self, hopens]⟩
    · exact .inr hagrees
    · rcases h.agreed a with ⟨j, hj⟩ | hagrees
      · left
        use j
        rw [Function.update_of_ne]
        · exact hj
        · rintro rfl
          exact hclosed hj
      · exact .inr (hkeeps hagrees)

/-- A request goes on to the phase `ψ`, while the database stays as it is. -/
theorem Tracked.pass {db : Db} {φ : Nat → Phase} (h : Tracked config db φ) (i : Nat) (ψ : Phase)
    (hfits : ψ.Fits db) (hown : ∀ key, ψ.own = some key → (φ i).own = some key)
    (hprevious : ∀ key, ψ.previous = some key → (φ i).previous = some key ∨
      ∃ r ∈ db.avatars, r.objectKey = key)
    (hkept : ∀ key, db.hasObject key → (φ i).own = some key ∨ (φ i).taken = some key →
      ψ.own = some key ∨ ψ.taken = some key)
    (hopens : ∀ a, (φ i).opens = some a → ψ.opens = some a) :
  Tracked config db (Function.update φ i ψ)
  := by
  apply h.enter i ψ (Nat.le_refl _) hfits
  · intro key hkey
    exact .inl (hown key hkey)
  · exact hprevious
  · intro r hr
    exact .inl hr
  · intro key _ _
    exact Iff.rfl
  · exact h.recorded
  · exact h.drawn
  · intro key hkey
    by_cases hrow : ∃ r ∈ db.avatars, r.objectKey = key
    · exact .inl hrow
    · by_cases hmine : (φ i).own = some key ∨ (φ i).taken = some key
      · rcases hkept key hkey hmine with hown | htaken
        · exact .inr (.inl hown)
        · exact .inr (.inr (.inl htaken))
      · rw [not_or] at hmine
        exact .inr (.inr (.inr ⟨hkey, fun r hr hsame => hrow ⟨r, hr, hsame⟩, hmine.1, hmine.2⟩))
  · intro a
    by_cases hopen : (φ i).opens = some a
    · exact .inl (hopens a hopen)
    · exact .inr (.inr ⟨hopen, id⟩)

/-- A key is drawn. -/
theorem Tracked.draw {db : Db} {φ : Nat → Phase} (h : Tracked config db φ) {i : Nat}
    (hφ : φ i = .start) :
  Tracked config { db with nextKey := db.nextKey + 1 } (Function.update φ i (.drawn db.nextKey))
  := by
  apply h.enter i (.drawn db.nextKey) (Nat.le_succ _)
  · refine ⟨⟨Nat.lt_succ_self _, ?_⟩, ?_⟩
    · intro r hr hsame
      exact Nat.lt_irrefl _ (hsame ▸ (h.recorded r hr).1)
    · intro hobject
      exact Nat.lt_irrefl _ (h.drawn _ hobject)
  · intro key hkey
    cases hkey
    exact .inr (Nat.le_refl _)
  · intro key hkey
    cases hkey
  · intro r hr
    exact .inl hr
  · intro key _ _
    exact Iff.rfl
  · intro r hr
    obtain ⟨hlt, hrest⟩ := h.recorded r hr
    exact ⟨Nat.lt_succ_of_lt hlt, hrest⟩
  · intro key hkey
    exact Nat.lt_succ_of_lt (h.drawn key hkey)
  · intro key hkey
    by_cases hrow : ∃ r ∈ db.avatars, r.objectKey = key
    · exact .inl hrow
    · right; right; right
      refine ⟨hkey, fun r hr hsame => hrow ⟨r, hr, hsame⟩, ?_, ?_⟩
      · simp [hφ, Phase.own]
      · simp [hφ, Phase.taken]
  · intro a
    right; right
    exact ⟨by simp [hφ, Phase.opens], id⟩

theorem hasObject_put {db : Db} {key key' : ObjectKey} {bytes : List UInt8} :
  Db.hasObject key' { db with objects := (key, bytes) :: db.objects.filter (·.1 != key) } ↔
    key' = key ∨ db.hasObject key'
  := by
  simp only [Db.hasObject, List.map_cons, List.mem_cons, List.mem_map, List.mem_filter]
  constructor
  · rintro (rfl | ⟨object, ⟨hobject, _⟩, rfl⟩)
    · exact .inl rfl
    · exact .inr ⟨object, hobject, rfl⟩
  · rintro (rfl | ⟨object, hobject, rfl⟩)
    · exact .inl rfl
    · by_cases hsame : object.1 = key
      · exact .inl hsame
      · exact .inr ⟨object, ⟨hobject, bne_iff_ne.mpr hsame⟩, rfl⟩

theorem hasObject_delete {db : Db} {key key' : ObjectKey} :
  Db.hasObject key' { db with objects := db.objects.filter (·.1 != key) } ↔
    key' ≠ key ∧ db.hasObject key'
  := by
  simp only [Db.hasObject, List.mem_map, List.mem_filter, bne_iff_ne]
  constructor
  · rintro ⟨object, ⟨hobject, hne⟩, rfl⟩
    exact ⟨hne, object, hobject, rfl⟩
  · rintro ⟨hne, object, hobject, rfl⟩
    exact ⟨object, ⟨hobject, hne⟩, rfl⟩

/-- A new object is stored. -/
theorem Tracked.put {db : Db} {φ : Nat → Phase} (h : Tracked config db φ) {i : Nat}
    {key : ObjectKey} (bytes : List UInt8) (hφ : φ i = .drawn key) :
  Tracked config { db with objects := (key, bytes) :: db.objects.filter (·.1 != key) }
    (Function.update φ i (.stored key))
  := by
  have hfits := h.compatible.fits i
  rw [hφ] at hfits
  have hown : (φ i).own = some key := by rw [hφ]; rfl
  apply h.enter i (.stored key)
  · apply Nat.le_refl
  · exact ⟨hfits.1, hasObject_put.mpr (.inl rfl)⟩
  · intro key' hkey'
    cases hkey'
    exact .inl hown
  · intro key' hkey'
    cases hkey'
  · intro r hr
    exact .inl hr
  · intro key' hkey' _
    rw [hasObject_put]
    constructor
    · rintro (rfl | hobject)
      · exact absurd hown hkey'
      · exact hobject
    · intro hobject
      exact .inr hobject
  · intro r hr
    obtain ⟨hlt, hobject, hrest⟩ := h.recorded r hr
    exact ⟨hlt, hasObject_put.mpr (.inr hobject), hrest⟩
  · intro key' hkey'
    rcases hasObject_put.mp hkey' with rfl | hobject
    · exact hfits.1.1
    · apply h.drawn key' hobject
  · intro key' hkey'
    by_cases hrow : ∃ r ∈ db.avatars, r.objectKey = key'
    · exact .inl hrow
    · rcases hasObject_put.mp hkey' with rfl | hobject
      · exact .inr (.inl rfl)
      · by_cases hsame : key' = key
        · exact .inr (.inl (by rw [hsame]; rfl))
        · right; right; right
          refine ⟨hobject, fun r hr hsame => hrow ⟨r, hr, hsame⟩, ?_, ?_⟩
          · rw [hown]
            exact fun hsome => hsame (Option.some.inj hsome).symm
          · simp [hφ, Phase.taken]
  · intro a
    right; right
    exact ⟨by simp [hφ, Phase.opens], id⟩

/-- An object is removed: the own one of a request, or the one that it has taken. -/
theorem Tracked.delete {db : Db} {φ : Nat → Phase} (h : Tracked config db φ) {i : Nat}
    {key : ObjectKey}
    (hφ : φ i = .failed key ∨ φ i = .pointed (some key) ∨ φ i = .dropped (some key)) :
  Tracked config { db with objects := db.objects.filter (·.1 != key) }
    (Function.update φ i .settled)
  := by
  have hdrawn : db.Drawn key := by
    have hfits := h.compatible.fits i
    rcases hφ with hφ | hφ | hφ
    · rw [hφ] at hfits
      exact hfits
    · rw [hφ] at hfits
      exact hfits key rfl
    · rw [hφ] at hfits
      exact hfits key rfl
  apply h.enter i .settled
  · apply Nat.le_refl
  · trivial
  · intro key' hkey'
    cases hkey'
  · intro key' hkey'
    cases hkey'
  · intro r hr
    exact .inl hr
  · intro key' hown hprevious
    rw [hasObject_delete]
    constructor
    · exact And.right
    · intro hobject
      refine ⟨?_, hobject⟩
      rintro rfl
      rcases hφ with hφ | hφ | hφ
      · apply hown
        rw [hφ]
        rfl
      · apply hprevious
        rw [hφ]
        rfl
      · apply hprevious
        rw [hφ]
        rfl
  · intro r hr
    obtain ⟨hlt, hobject, hrest⟩ := h.recorded r hr
    exact ⟨hlt, hasObject_delete.mpr ⟨hdrawn.2 r hr, hobject⟩, hrest⟩
  · intro key' hkey'
    apply h.drawn key' (hasObject_delete.mp hkey').2
  · intro key' hkey'
    obtain ⟨hne, hobject⟩ := hasObject_delete.mp hkey'
    by_cases hrow : ∃ r ∈ db.avatars, r.objectKey = key'
    · exact .inl hrow
    · right; right; right
      refine ⟨hobject, fun r hr hsame => hrow ⟨r, hr, hsame⟩, ?_, ?_⟩
      · rcases hφ with hφ | hφ | hφ
        · simp [hφ, Phase.own, Ne.symm hne]
        · simp [hφ, Phase.own]
        · simp [hφ, Phase.own]
      · rcases hφ with hφ | hφ | hφ
        · simp [hφ, Phase.taken]
        · simp [hφ, Phase.taken, Ne.symm hne]
        · simp [hφ, Phase.taken, Ne.symm hne]
  · intro a
    right; right
    constructor
    · rcases hφ with hφ | hφ | hφ
      · simp [hφ, Phase.opens]
      · simp [hφ, Phase.opens]
      · simp [hφ, Phase.opens]
    · exact id

/-! ### What the rows say -/

theorem Db.eq_of_actorId {db : Db} {r r' : AvatarRow} (hr : r ∈ db.avatars)
    (hr' : r' ∈ db.avatars) (h : r.actorId = r'.actorId) :
  r = r'
  := Table.eq_of_not_apart hr hr' fun hapart => hapart.1 h

theorem apart_avatarUrl (avatarUrl : Option String) (r r' : ActorRow) (h : r.Apart r') :
  ActorRow.Apart { r with avatarUrl } r' ∧ ActorRow.Apart r { r' with avatarUrl } ∧
    ActorRow.Apart { r with avatarUrl } { r' with avatarUrl }
  := ⟨h, h, h⟩

/-- The database with an actor pointed at an avatar, or at none. -/
def Db.pointed (a : Uuid) (avatarUrl : Option String) (db : Db) : Db :=
  { db with
    actors := db.actors.update (·.id == a) (fun r => { r with avatarUrl }) (apart_avatarUrl avatarUrl) }

theorem find_pointed (a a' : Uuid) (url : Option String) (db : Db) :
  (db.pointed a url).actors.find (·.id == a') =
    (db.actors.find (·.id == a')).map fun r => if r.id == a then { r with avatarUrl := url } else r
  := by
  have hid : ∀ r : ActorRow,
      (if r.id == a then { r with avatarUrl := url } else r).id = r.id := by
    intro r
    split <;> rfl
  rw [Table.find, Db.pointed, Table.update, List.find?_map]
  congr 2
  funext r
  rw [Function.comp, hid]

theorem id_of_find {a : Uuid} {db : Db} {r : ActorRow}
    (hfound : db.actors.find (·.id == a) = some r) :
  r.id = a
  := by
  have hid := Table.satisfies_of_find hfound
  exact beq_iff_eq.mp hid

theorem avatarUrl_pointed_of_ne {a a' : Uuid} (hne : a' ≠ a) (url : Option String) (db : Db) :
  (db.pointed a url).avatarUrl a' = db.avatarUrl a'
  := by
  rw [Db.avatarUrl, find_pointed, Db.avatarUrl]
  cases hfound : db.actors.find (·.id == a') with
  | none => rfl
  | some r =>
      simp [id_of_find hfound, hne]

theorem avatarUrl_pointed {a : Uuid} (url : Option String) {db : Db}
    (hactor : ∃ actor ∈ db.actors, actor.id = a) :
  (db.pointed a url).avatarUrl a = url
  := by
  obtain ⟨actor, hactor, rfl⟩ := hactor
  rw [Db.avatarUrl, find_pointed]
  have hsome : (db.actors.find (·.id == actor.id)).isSome = true :=
    Table.find_isSome_iff.mpr ⟨actor, hactor, beq_self_eq_true actor.id⟩
  obtain ⟨r, hfound⟩ := Option.isSome_iff_exists.mp hsome
  rw [hfound]
  simp [id_of_find hfound]

theorem mem_pointed {a : Uuid} {url : Option String} {db : Db} {id : Uuid} :
  (∃ actor ∈ (db.pointed a url).actors, actor.id = id) ↔ ∃ actor ∈ db.actors, actor.id = id
  := by
  constructor
  · rintro ⟨actor, hactor, rfl⟩
    obtain ⟨r, hr, rfl⟩ := List.mem_map.mp hactor
    exact ⟨r, hr, by split <;> rfl⟩
  · rintro ⟨actor, hactor, rfl⟩
    exact ⟨_, List.mem_map.mpr ⟨actor, hactor, rfl⟩, by split <;> rfl⟩

/-- Another actor is not concerned. -/
theorem Db.Agreed.pointed {a a' : Uuid} {db : Db} (h : db.Agreed a') (hne : a' ≠ a)
    (url : Option String) :
  (db.pointed a url).Agreed a'
  := by
  rw [Db.Agreed, avatarUrl_pointed_of_ne hne]
  exact h

/-- An actor is pointed at its avatar, or at none. -/
theorem Tracked.point {db : Db} {φ : Nat → Phase} (h : Tracked config db φ) (i : Nat)
    (ψ : Phase) {a : Uuid} (url : Option String) (hfits : ψ.Fits db) (hown : ψ.own = none)
    (hown' : (φ i).own = none) (hprevious : ∀ key, ψ.previous = some key →
      (φ i).previous = some key)
    (htaken : (φ i).taken = ψ.taken)
    (hopens : ∀ a', (φ i).opens = some a' → a' = a)
    (hagreed : ψ.opens = some a ∨ (db.pointed a url).Agreed a) :
  Tracked config (db.pointed a url) (Function.update φ i ψ)
  := by
  apply h.enter i ψ
  · apply Nat.le_refl
  · apply hfits.frame (Nat.le_refl _)
    · intro r hr
      exact .inl hr
    · intro key _
      exact Iff.rfl
  · intro key hkey
    rw [hown] at hkey
    cases hkey
  · intro key hkey
    exact .inl (hprevious key hkey)
  · intro r hr
    exact .inl hr
  · intro key _ _
    exact Iff.rfl
  · intro r hr
    obtain ⟨hlt, hobject, hurl, hactor⟩ := h.recorded r hr
    exact ⟨hlt, hobject, hurl, mem_pointed.mpr hactor⟩
  · exact h.drawn
  · intro key hkey
    by_cases hrow : ∃ r ∈ db.avatars, r.objectKey = key
    · exact .inl hrow
    · by_cases hmine : ψ.taken = some key
      · exact .inr (.inr (.inl hmine))
      · right; right; right
        refine ⟨hkey, fun r hr hsame => hrow ⟨r, hr, hsame⟩, ?_, ?_⟩
        · rw [hown']
          apply Option.some_ne_none _ |>.symm
        · rw [htaken]
          exact hmine
  · intro a'
    by_cases hsame : a' = a
    · subst hsame
      rcases hagreed with hopens' | hagrees
      · exact .inl hopens'
      · exact .inr (.inl hagrees)
    · right; right
      exact ⟨fun hopen => hsame (hopens a' hopen), fun hagrees => hagrees.pointed hsame url⟩

/-- A row of the actor's own avatar is that of the key that was read. -/
theorem Tracked.record {db : Db} {φ : Nat → Phase} (h : Tracked config db φ) {i : Nat}
    {row : AvatarRow} {p : Option ObjectKey} {avatars : Table AvatarRow.Apart}
    (hφ : φ i = .looked row.actorId row.objectKey p)
    (hurl : row.url = config.mediaUrl row.objectKey)
    (hactor : ∃ actor ∈ db.actors, actor.id = row.actorId)
    (hinsert : (db.avatars.delete (·.actorId == row.actorId)).insert row = some avatars)
    (hread : (φ i).HasRead row.actorId db) :
  Tracked config { db with avatars } (Function.update φ i (.replaced row.actorId row.objectKey p))
  := by
  have hfits := h.compatible.fits i
  rw [hφ] at hfits
  obtain ⟨hdrawn, hobject, hne, hpread⟩ := hfits
  have hmem : ∀ r, r ∈ avatars ↔ r = row ∨ r ∈ db.avatars ∧ r.actorId ≠ row.actorId := by
    intro r
    rw [Table.mem_of_insert hinsert, Table.mem_delete, beq_eq_false_iff_ne]
  have hown : (φ i).own = some row.objectKey := by rw [hφ]; rfl
  apply h.enter i (.replaced row.actorId row.objectKey p)
  · apply Nat.le_refl
  · refine ⟨hne, ?_⟩
    intro key hkey
    refine ⟨(hpread key hkey).1, ?_⟩
    rintro r hr rfl
    rcases (hmem r).mp hr with rfl | ⟨hr, hother⟩
    · exact hne hkey
    · exact hother ((hpread _ hkey).2 r hr rfl)
  · intro key hkey
    cases hkey
  · intro key hkey
    left
    rw [hφ]
    exact hkey
  · intro r hr
    rcases (hmem r).mp hr with rfl | ⟨hr, _⟩
    · exact .inr hown
    · exact .inl hr
  · intro key _ _
    exact Iff.rfl
  · intro r hr
    rcases (hmem r).mp hr with rfl | ⟨hr, _⟩
    · exact ⟨hdrawn.1, hobject, hurl, hactor⟩
    · exact h.recorded r hr
  · exact h.drawn
  · intro key hkey
    by_cases hsame : key = row.objectKey
    · exact .inl ⟨row, (hmem row).mpr (.inl rfl), hsame.symm⟩
    · by_cases hrow : ∃ r ∈ db.avatars, r.objectKey = key
      · obtain ⟨r, hr, rfl⟩ := hrow
        by_cases hmine : r.actorId = row.actorId
        · right; right; left
          have hprevious := hread r hr hmine
          rw [hφ] at hprevious
          exact hprevious
        · exact .inl ⟨r, (hmem r).mpr (.inr ⟨hr, hmine⟩), rfl⟩
      · by_cases htaken : p = some key
        · exact .inr (.inr (.inl htaken))
        · right; right; right
          refine ⟨hkey, fun r hr hsame => hrow ⟨r, hr, hsame⟩, ?_, ?_⟩
          · rw [hown]
            exact fun hsome => hsame (Option.some.inj hsome).symm
          · simp [hφ, Phase.taken]
  · intro a
    by_cases hsame : a = row.actorId
    · exact .inl (by rw [hsame]; rfl)
    · right; right
      refine ⟨by simp [hφ, Phase.opens], ?_⟩
      rintro (⟨hnone, hrows⟩ | ⟨r, hr, hactor, hnames⟩)
      · left
        refine ⟨hnone, ?_⟩
        intro r hr
        rcases (hmem r).mp hr with rfl | ⟨hr, _⟩
        · exact Ne.symm hsame
        · exact hrows r hr
      · right
        refine ⟨r, (hmem r).mpr (.inr ⟨hr, ?_⟩), hactor, hnames⟩
        rw [hactor]
        exact hsame

/-- The row of an avatar is deleted, after its actor was pointed at none. -/
theorem Tracked.drop {db : Db} {φ : Nat → Phase} (h : Tracked config db φ) {i : Nat} {a : Uuid}
    {p : Option ObjectKey} (hφ : φ i = .cleared a p) (hnone : db.avatarUrl a = none)
    (hread : (φ i).HasRead a db) :
  Tracked config { db with avatars := db.avatars.delete (·.actorId == a) }
    (Function.update φ i (.dropped p))
  := by
  have hfits := h.compatible.fits i
  rw [hφ] at hfits
  have hmem : ∀ r, r ∈ db.avatars.delete (·.actorId == a) ↔ r ∈ db.avatars ∧ r.actorId ≠ a := by
    intro r
    rw [Table.mem_delete, beq_eq_false_iff_ne]
  apply h.enter i (.dropped p)
  · apply Nat.le_refl
  · intro key hkey
    refine ⟨(hfits key hkey).1, ?_⟩
    rintro r hr rfl
    obtain ⟨hr, hother⟩ := (hmem r).mp hr
    exact hother ((hfits _ hkey).2 r hr rfl)
  · intro key hkey
    cases hkey
  · intro key hkey
    left
    rw [hφ]
    exact hkey
  · intro r hr
    exact .inl ((hmem r).mp hr).1
  · intro key _ _
    exact Iff.rfl
  · intro r hr
    exact h.recorded r ((hmem r).mp hr).1
  · exact h.drawn
  · intro key hkey
    by_cases hrow : ∃ r ∈ db.avatars, r.objectKey = key
    · obtain ⟨r, hr, rfl⟩ := hrow
      by_cases hmine : r.actorId = a
      · right; right; left
        have hprevious := hread r hr hmine
        rw [hφ] at hprevious
        exact hprevious
      · exact .inl ⟨r, (hmem r).mpr ⟨hr, hmine⟩, rfl⟩
    · right; right; right
      refine ⟨hkey, fun r hr hsame => hrow ⟨r, hr, hsame⟩, ?_, ?_⟩
      · simp [hφ, Phase.own]
      · simp [hφ, Phase.taken]
  · intro a'
    by_cases hsame : a' = a
    · right; left; left
      subst hsame
      exact ⟨hnone, fun r hr => ((hmem r).mp hr).2⟩
    · right; right
      refine ⟨by simp [hφ, Phase.opens, Ne.symm hsame], ?_⟩
      rintro (⟨hnone, hrows⟩ | ⟨r, hr, hactor, hnames⟩)
      · exact .inl ⟨hnone, fun r hr => hrows r ((hmem r).mp hr).1⟩
      · right
        refine ⟨r, (hmem r).mpr ⟨hr, ?_⟩, hactor, hnames⟩
        rw [hactor]
        exact hsame

/-! ### One exchange -/

theorem Phase.next_of_closed {φ : Phase} (hclosed : φ.closed = true) (r : Response) :
  φ.next ⟨.respond r, .ok ()⟩ = .answered ∧ φ.own = none ∧ φ.taken = none ∧ φ.opens = none
  := by
  cases φ with
  | pointed p =>
      cases p with
      | none => exact ⟨rfl, rfl, rfl, rfl⟩
      | some key => cases hclosed
  | dropped p =>
      cases p with
      | none => exact ⟨rfl, rfl, rfl, rfl⟩
      | some key => cases hclosed
  | settled => exact ⟨rfl, rfl, rfl, rfl⟩
  | _ => cases hclosed

/-- What a request has read is the key of the actor's avatar, or nothing. -/
theorem Tracked.select {db : Db} {φ : Nat → Phase} (h : Tracked config db φ) (a : Uuid)
    (c : Option NoombatError) {p : Option ObjectKey}
    (hp : p = (avatarWorld.exec (.sql (.selectKey a)) c db).1.toOption.getD none) :
  db.Read a p ∧ ∀ key, p = some key → ∃ r ∈ db.avatars, r.objectKey = key
  := by
  subst hp
  have hrow : ∀ key, (avatarWorld.exec (.sql (.selectKey a)) c db).1.toOption.getD none = some key →
      ∃ r ∈ db.avatars, r.actorId = a ∧ r.objectKey = key := by
    intro key hkey
    cases c with
    | some e => cases hkey
    | none =>
        obtain ⟨r, hfound, rfl⟩ := Option.map_eq_some_iff.mp hkey
        have hactor := Table.satisfies_of_find hfound
        exact ⟨r, Table.mem_of_find hfound, beq_iff_eq.mp hactor, rfl⟩
  constructor
  · intro key hkey
    obtain ⟨r, hr, hactor, rfl⟩ := hrow key hkey
    refine ⟨(h.recorded r hr).1, ?_⟩
    intro r' hr' hsame
    rw [← hactor, Table.eq_of_not_apart hr' hr fun hapart => hapart.2 hsame]
  · intro key hkey
    obtain ⟨r, hr, _, hrow⟩ := hrow key hkey
    exact ⟨r, hr, hrow⟩

/-- An orderly exchange keeps what is tracked. -/
theorem tracked_exchange {s : Requests} {i : Nat} {t : Call} {q : AvatarRequest}
    {c : avatarWorld.Choice q} {k : Avatars.Answer q → Program Avatars Unit}
    (h : Tracked config s.state (s.phases .start Phase.next))
    (hasked : Asked config t (s.history.trace i) q) (hC : Orderly i t q c s) :
  Tracked config (s.exchange avatarWorld i t q k c).state
    ((s.exchange avatarWorld i t q k c).phases .start Phase.next)
  := by
  rw [Pool.phases_exchange]
  change Tracked config (avatarWorld.exec q c s.state).2 _
  generalize hφ : s.phases .start Phase.next = φ at h ⊢
  have hφi : Phase.of (s.history.trace i) = φ i := congrFun hφ i
  cases q with
  | newObjectKey =>
      rw [Asked, hφi] at hasked
      rw [hasked]
      apply h.draw hasked
  | put key bytes =>
      rw [Asked, hφi] at hasked
      rw [hasked]
      cases c with
      | none => apply h.put bytes hasked
      | some e =>
          have hfits := h.compatible.fits i
          rw [hasked] at hfits
          apply h.pass i .settled trivial
          · intro key' hkey'
            cases hkey'
          · intro key' hkey'
            cases hkey'
          · rintro key' hkey' (hown | htaken)
            · rw [hasked] at hown
              cases hown
              exact absurd hkey' hfits.2
            · rw [hasked] at htaken
              cases htaken
          · intro a hopen
            rw [hasked] at hopen
            cases hopen
  | delete key =>
      cases c with
      | some e => cases hC
      | none =>
          rw [Asked, hφi] at hasked
          have hnext : (φ i).next ⟨.delete key, .ok ()⟩ = .settled := by
            rcases hasked with hasked | hasked | hasked
            · rw [hasked]; rfl
            · rw [hasked]; rfl
            · rw [hasked]; rfl
          change Tracked config _ (Function.update φ i ((φ i).next ⟨.delete key, .ok ()⟩))
          rw [hnext]
          apply h.delete hasked
  | respond r =>
      rw [Asked, hφi] at hasked
      obtain ⟨hnext, hown, htaken, hopens⟩ := Phase.next_of_closed hasked r
      change Tracked config _ (Function.update φ i ((φ i).next ⟨.respond r, .ok ()⟩))
      rw [hnext]
      apply h.pass i .answered trivial
      · intro key hkey
        cases hkey
      · intro key hkey
        cases hkey
      · rintro key _ (hkey | hkey)
        · rw [hown] at hkey
          cases hkey
        · rw [htaken] at hkey
          cases hkey
      · intro a hopen
        rw [hopens] at hopen
        cases hopen
  | sql st =>
      cases st with
      | selectKey a =>
          rw [Asked, hφi] at hasked
          obtain ⟨hread, hrows⟩ := h.select a c rfl
          have hdb : (avatarWorld.exec (.sql (.selectKey a)) c s.state).2 = s.state := by
            cases c <;> rfl
          rw [hdb]
          generalize hanswer : (avatarWorld.exec (.sql (.selectKey a)) c s.state).1 = r at hread hrows ⊢
          rcases hasked with hstart | ⟨key, hstored⟩
          · rw [hstart]
            apply h.pass i (.seen a (r.toOption.getD none)) hread
            · intro key hkey
              cases hkey
            · intro key hkey
              exact .inr (hrows key hkey)
            · rintro key _ (hkey | hkey)
              · rw [hstart] at hkey
                cases hkey
              · rw [hstart] at hkey
                cases hkey
            · intro a' hopen
              rw [hstart] at hopen
              cases hopen
          · have hfits := h.compatible.fits i
            rw [hstored] at hfits
            rw [hstored]
            apply h.pass i (.looked a key (r.toOption.getD none))
            · refine ⟨hfits.1, hfits.2, ?_, hread⟩
              intro hsame
              obtain ⟨row, hrow, hkey⟩ := hrows key hsame
              exact hfits.1.2 row hrow hkey
            · intro key' hkey'
              rw [hstored]
              exact hkey'
            · intro key' hkey'
              exact .inr (hrows key' hkey')
            · rintro key' _ (hkey' | hkey')
              · rw [hstored] at hkey'
                exact .inl hkey'
              · rw [hstored] at hkey'
                cases hkey'
            · intro a' hopen
              rw [hstored] at hopen
              cases hopen
      | upsert row =>
          obtain ⟨hurl, p, hlooked⟩ := hasked
          rw [hφi] at hlooked
          have hfails : ∀ e, Tracked config s.state
              (Function.update φ i ((φ i).next ⟨.sql (.upsert row), .error e⟩)) := by
            intro e
            have hfits := h.compatible.fits i
            rw [hlooked] at hfits
            rw [hlooked]
            apply h.pass i (.failed row.objectKey) hfits.1
            · intro key hkey
              rw [hlooked]
              exact hkey
            · intro key hkey
              cases hkey
            · rintro key _ (hkey | hkey)
              · rw [hlooked] at hkey
                exact .inl hkey
              · rw [hlooked] at hkey
                cases hkey
            · intro a hopen
              rw [hlooked] at hopen
              cases hopen
          cases c with
          | some e => exact hfails e
          | none =>
              have hread := hC rfl
              rw [hφi] at hread
              simp only [avatarWorld, AvatarSql.exec]
              split
              · rename_i hactor
                split
                · rename_i avatars hinsert
                  obtain ⟨actor, hactor, hid⟩ := List.any_eq_true.mp hactor
                  have hrecorded := h.record hlooked hurl ⟨actor, hactor, beq_iff_eq.mp hid⟩ hinsert
                    hread
                  rw [hlooked]
                  exact hrecorded
                · apply hfails
              · apply hfails
      | setAvatarUrl a url =>
          have hfits := h.compatible.fits i
          cases url with
          | none =>
              obtain ⟨p, hseen⟩ := hasked
              rw [hφi] at hseen
              rw [hseen] at hfits
              rw [hseen]
              cases c with
              | some e =>
                  apply h.pass i .settled trivial
                  · intro key hkey
                    cases hkey
                  · intro key hkey
                    cases hkey
                  · rintro key _ (hkey | hkey)
                    · rw [hseen] at hkey
                      cases hkey
                    · rw [hseen] at hkey
                      cases hkey
                  · intro a' hopen
                    rw [hseen] at hopen
                    cases hopen
              | none =>
                  apply h.point i (.cleared a p) none hfits rfl
                  · rw [hseen]
                    rfl
                  · intro key hkey
                    rw [hseen]
                    exact hkey
                  · rw [hseen]
                    rfl
                  · intro a' hopen
                    rw [hseen] at hopen
                    cases hopen
                  · exact .inl rfl
          | some url =>
              obtain ⟨key, p, rfl, hreplaced⟩ := hasked
              obtain ⟨hc, r, hr, hactor, hurl⟩ := hC
              rw [hφi] at hreplaced
              rw [hreplaced] at hfits
              have hfilter : p.filter (· != key) = p := by
                cases p with
                | none => rfl
                | some key' =>
                    have hne : key' ≠ key := fun hsame => hfits.1 (congrArg some hsame)
                    simp [hne]
              rw [hreplaced]
              cases c with
              | some e => cases hc
              | none =>
                  change Tracked config _ (Function.update φ i (.pointed (p.filter (· != key))))
                  rw [hfilter]
                  apply h.point i (.pointed p) _ hfits.2 rfl
                  · rw [hreplaced]
                    rfl
                  · intro key' hkey'
                    rw [hreplaced]
                    exact hkey'
                  · rw [hreplaced]
                    rfl
                  · intro a' hopen
                    rw [hreplaced] at hopen
                    exact (Option.some.inj hopen).symm
                  · right; right
                    obtain ⟨_, _, _, hexists⟩ := h.recorded r hr
                    rw [hactor] at hexists
                    refine ⟨r, hr, hactor, ?_⟩
                    rw [avatarUrl_pointed _ hexists, hurl]
      | deleteRow a =>
          obtain ⟨p, hcleared⟩ := hasked
          obtain ⟨hc, hnone, hread⟩ := hC
          rw [hφi] at hcleared hread
          rw [hcleared]
          cases c with
          | some e => cases hc
          | none => apply h.drop hcleared hnone hread

/-! ### Whole runs -/

namespace Phase

/-- Nothing is left to be recorded or removed. -/
def idle : Phase → Bool
  | start => true
  | drawn _ => true
  | seen _ _ => true
  | settled => true
  | answered => true
  | _ => false

/-- A request that has written nothing has left nothing to be done. -/
theorem idle_of_unwritten {l : List Avatars.Exchange} (h : ∀ x ∈ l, writes x = false) :
  (of l).idle = true
  := by
  induction l with
  | nil => rfl
  | cons x l ih =>
      have hx := h x List.mem_cons_self
      have hl := ih fun y hy => h y (List.mem_cons_of_mem x hy)
      rw [of_cons]
      generalize of l = φ at hl
      unfold next
      split
      -- an exchange that leads to another phase has written, or there is nothing to be done
      all_goals first | rfl | exact hl | exact Bool.noConfusion hl | exact Bool.noConfusion hx

/-- A request that has answered is done. -/
theorem of_eq_answered {l : List Avatars.Exchange} (h : ∃ x ∈ l, responds x = true) :
  of l = .answered
  := by
  induction l with
  | nil =>
      obtain ⟨x, hx, _⟩ := h
      cases hx
  | cons x l ih =>
      obtain ⟨y, hy, hresponds⟩ := h
      rw [of_cons]
      rcases List.mem_cons.mp hy with rfl | hy
      · obtain ⟨q, r⟩ := y
        cases q with
        | respond response => cases of l <;> rfl
        | _ => cases hresponds
      · rw [ih ⟨y, hy, hresponds⟩]
        obtain ⟨q, r⟩ := x
        cases q <;> rfl

end Phase

theorem tracked_initial {db : Db} (hdb : db.Tidy config) :
  Tracked config db ((Pool.initial db : Requests).phases .start Phase.next)
  := by
  constructor
  · constructor
    · intro i
      trivial
    · intro i j _ key hkey
      cases hkey
  · exact hdb.recorded
  · intro key hkey
    obtain ⟨r, hr, rfl⟩ := hdb.referenced key hkey
    exact (hdb.recorded r hr).1
  · intro key hkey
    exact .inl (hdb.referenced key hkey)
  · intro a
    exact .inr (hdb.agreed a)

theorem tracked_of_reaches {db : Db} (hdb : db.Tidy config) {s : Requests}
    (h : Reaches avatarWorld (Call.program config) Orderly (.initial db) s) :
  Tracked config s.state (s.phases .start Phase.next)
  := by
  apply (Step.inv (fun s : Requests => Tracked config s.state (s.phases .start Phase.next))
    asks_program _ _ (Pool.initial_disciplined (Asked config) db) (tracked_initial hdb) h).2
  · intro s t hs
    exact hs
  · intro s i t q k c _ hs _ hasked hC
    apply tracked_exchange hs hasked hC

/-- In a quiet pool no request has left anything to be done. -/
theorem Quiet.idle {h : Avatars.History Call} (hquiet : Quiet h) (i : Nat) :
  (Phase.of (h.trace i)).idle = true
  := by
  by_cases hwritten : ∃ x ∈ h.trace i, writes x = true
  · obtain ⟨x, hx, hwrites⟩ := hwritten
    obtain ⟨e, he, rfl, rfl⟩ := Interface.History.mem_trace.mp hx
    obtain ⟨e', he', hthread, hresponds⟩ := hquiet e he hwrites
    have hanswered : Phase.of (h.trace e.thread) = .answered :=
      Phase.of_eq_answered ⟨e'.exchange,
        Interface.History.mem_trace.mpr ⟨e', he', hthread, rfl⟩, hresponds⟩
    rw [hanswered]
    rfl
  · apply Phase.idle_of_unwritten
    intro x hx
    apply Bool.eq_false_iff.mpr
    intro hwrites
    exact hwritten ⟨x, hx, hwrites⟩

/-- If the requests that replace and remove avatars are orderly, then whenever each of them
that has written has answered, every actor names just the avatar that is recorded for it, whose
object exists, and there is no other object. -/
theorem avatars_tidy (config : Config) (db : Db) (hdb : db.Tidy config) (s : Requests)
    (h : Reaches avatarWorld (Call.program config) Orderly (.initial db) s)
    (hquiet : Quiet s.history) :
  s.state.Tidy config
  := by
  have htracked := tracked_of_reaches hdb h
  constructor
  · exact htracked.recorded
  · intro a
    rcases htracked.agreed a with ⟨i, hopens⟩ | hagreed
    · have hidle : (s.phases .start Phase.next i).idle = true := hquiet.idle i
      exfalso
      generalize s.phases .start Phase.next i = φ at hopens hidle
      cases φ with
      | replaced _ _ _ => cases hidle
      | cleared _ _ => cases hidle
      | _ => cases hopens
    · exact hagreed
  · intro key hkey
    rcases htracked.covered key hkey with hrow | ⟨i, hi⟩
    · exact hrow
    · have hidle : (s.phases .start Phase.next i).idle = true := hquiet.idle i
      have hfits := htracked.compatible.fits i
      generalize s.phases .start Phase.next i = φ at hi hidle hfits
      exfalso
      cases φ with
      | drawn key' =>
          obtain rfl : key' = key := by simpa [Phase.own, Phase.taken] using hi
          exact hfits.2 hkey
      | start => simp [Phase.own, Phase.taken] at hi
      | seen a p => simp [Phase.own, Phase.taken] at hi
      | settled => simp [Phase.own, Phase.taken] at hi
      | answered => simp [Phase.own, Phase.taken] at hi
      | _ => cases hidle

/-! ### A statement that fails -/

/-- What the environment answers: nothing fails but the statements that point an actor at an
avatar, if `failing` holds. -/
def failing (failing : Bool) : (q : AvatarRequest) → avatarWorld.Choice q
  | .sql (.setAvatarUrl _ _) => if failing then some (.database "pool timed out") else none
  | .sql _ => none
  | .newObjectKey => ()
  | .put _ _ => none
  | .delete _ => none
  | .respond _ => ()

/-- An actor without an avatar. -/
def alone : Db :=
  ⟨⟨[⟨1, none⟩], List.pairwise_singleton _ _⟩, .empty, [], 0⟩

theorem alone_tidy :
  alone.Tidy .plain
  := by
  constructor
  · intro r hr
    cases hr
  · intro a
    left
    constructor
    · by_cases ha : a = 1
      · subst ha
        rfl
      · simp [Db.avatarUrl, alone, Table.find, Ne.symm ha]
    · intro r hr
      cases hr
  · intro key hkey
    cases hkey

/-- The actor uploads an avatar, and then another one. -/
def uploads (fails : Bool) : List (Turn avatarWorld Call) :=
  .start (.upload 1 ⟨[1], "image/png"⟩ none) ::
    List.replicate 6 (.exchange 0 (failing false)) ++
  .start (.upload 1 ⟨[2], "image/png"⟩ none) ::
    List.replicate (if fails then 6 else 7) (.exchange 1 (failing fails))

/-- An actor whose avatar was replaced, but who could not be pointed at the new one, names one
that is gone from the table, and whose object stays. -/
theorem avatar_astray :
  ∃ s, Reaches avatarWorld (Call.program .plain) (fun _ _ _ _ _ => True) (.initial alone) s ∧
    Quiet s.history ∧ ¬ s.state.Tidy .plain
  := by
  have hplayed : (((Pool.initial alone).play avatarWorld (Call.program .plain)
      (fun _ _ _ _ _ => True) (uploads true)).map fun s =>
        decide (Quiet s.history ∧ ¬ s.state.Agreed 1)) = some true := by
    decide +kernel
  obtain ⟨s, hs, hastray⟩ := Option.map_eq_some_iff.mp hplayed
  obtain ⟨hquiet, hnot⟩ := of_decide_eq_true hastray
  exact ⟨s, Pool.reaches_of_play _ _ _ hs, hquiet, fun htidy => hnot (htidy.agreed 1)⟩

/-- An avatar that was replaced leaves nothing behind. -/
theorem avatars_tidy_al :
  ∃ s, Reaches avatarWorld (Call.program .plain) Orderly (.initial alone) s ∧
    Quiet s.history ∧ s.state.avatars.rows ≠ [] ∧ s.state.Tidy .plain
  := by
  have hplayed : (((Pool.initial alone).play avatarWorld (Call.program .plain)
      Orderly (uploads false)).map fun s =>
        decide (Quiet s.history ∧ s.state.avatars.rows ≠ [])) = some true := by
    decide +kernel
  obtain ⟨s, hs, hquiet⟩ := Option.map_eq_some_iff.mp hplayed
  obtain ⟨hquiet, hrows⟩ := of_decide_eq_true hquiet
  have hreaches := Pool.reaches_of_play _ _ _ hs
  exact ⟨s, hreaches, hquiet, hrows, avatars_tidy .plain alone alone_tidy s hreaches hquiet⟩

end Media.Avatar
