import Noombat.Organizations.Enrolling
import Noombat.Windows

/-!
# Ceilings on organisations

From the lock to the commit of an enrolment, nothing else enrols an organisation for its owner.
What it has counted can therefore only become less, and the ceilings that it found room under
still have room when it is committed.  The calls that enrol nothing take organisations from their
owners, and take back no enrolment of an owner that is still there.
-/

namespace Organizations

open Federation (Uuid DateTime NoombatError)
open Fallible Program

variable {lib : OrgLibrary}

/-! ### What a phase knows -/

/-- The key of the lock on an owner. -/
def lockOf (lib : OrgLibrary) (o : Uuid) : Lock :=
  .advisory (lib.hashtext (lib.showUuid o))

/-- What is counted of an owner, at the time given. -/
def Count.of (lib : OrgLibrary) (o : Uuid) (now : DateTime) (db : Db) : Count → Nat
  | held => db.held o
  | within interval => (db.enrolmentTimes o).countP fun t => decide (lib.before interval now < t)

/-- What is so when a call is in a phase: its transaction, if it is under way, has made the writes
of the phase and holds the lock on its owner, and what it has counted has not become more. -/
def Phase.Fits (lib : OrgLibrary) (s : Registry) : Phase → Prop
  | underWay e => e.tx < s.nextId ∧ ∀ x ∈ s.underWay, x.id = e.tx →
      x.startedAt = e.time ∧ x.writes = e.writes ∧
      (∀ row, e.settings = some row → s.committed.instanceSettings = row) ∧
      ∀ o, e.locked = some o → lockOf lib o ∈ x.locks ∧
        ∀ c n, (c, n) ∈ e.counts → c.of lib o e.time s.committed ≤ n
  | _ => True

/-- Two calls have different transactions. -/
def Phase.Apart (φ φ' : Phase) : Prop :=
  ∀ tx, φ.tx = some tx → φ'.tx ≠ some tx

/-- What a step leaves to all transactions but `tx`. -/
structure Leaves (lib : OrgLibrary) (tx : Option Nat) (s s' : Registry) : Prop where
  nextId : s.nextId ≤ s'.nextId
  underWay : ∀ x ∈ s'.underWay, x.id < s.nextId → tx ≠ some x.id → x ∈ s.underWay
  settings : s'.committed.instanceSettings = s.committed.instanceSettings
  counts : ∀ x ∈ s.underWay, tx ≠ some x.id → ∀ o, lockOf lib o ∈ x.locks →
    ∀ (c : Count) now, c.of lib o now s'.committed ≤ c.of lib o now s.committed

section Leaves

variable {tx : Option Nat} {s s' : Registry} {φ : Phase}

/-- The other calls still have what they rely on. -/
theorem Leaves.fits (h : Leaves lib tx s s') (htx : ∀ tx', φ.tx = some tx' → tx ≠ some tx')
    (hφ : φ.Fits lib s) :
  φ.Fits lib s'
  := by
  cases φ with
  | underWay e =>
      obtain ⟨hold, hown⟩ := hφ
      constructor
      · exact Nat.lt_of_lt_of_le hold h.nextId
      · intro x hx hid
        have hother : tx ≠ some x.id := hid ▸ htx e.tx rfl
        have hmem := h.underWay x hx (hid ▸ hold) hother
        obtain ⟨hstarted, hwrites, hsettings, hlocked⟩ := hown x hmem hid
        refine ⟨hstarted, hwrites, fun row hrow => h.settings.trans (hsettings row hrow), ?_⟩
        intro o ho
        obtain ⟨hlock, hcounts⟩ := hlocked o ho
        refine ⟨hlock, fun c n hmem' => ?_⟩
        exact Nat.le_trans (h.counts x hmem hother o hlock c e.time) (hcounts c n hmem')
  | _ => trivial

theorem Leaves.refl (tx : Option Nat) (s : Registry) :
  Leaves lib tx s s
  where
  nextId := Nat.le_refl _
  underWay := fun _ hx _ _ => hx
  settings := rfl
  counts := fun _ _ _ _ _ _ _ => Nat.le_refl _

theorem Leaves.of_none (h : Leaves lib none s s') (tx : Option Nat) :
  Leaves lib tx s s'
  where
  nextId := h.nextId
  underWay := fun x hx hlt _ => h.underWay x hx hlt nofun
  settings := h.settings
  counts := fun x hx _ => h.counts x hx nofun

theorem Leaves.of_later {elapsed : Nat} (h : Leaves lib tx (s.later elapsed) s') :
  Leaves lib tx s s'
  := ⟨h.nextId, h.underWay, h.settings, h.counts⟩

theorem Leaves.close (tx : Option Nat) (id : Nat) (s : Registry) :
  Leaves lib tx s (s.close id)
  where
  nextId := Nat.le_refl _
  underWay := fun _ hx _ _ => (Store.mem_close.mp hx).1
  settings := rfl
  counts := fun _ _ _ _ _ _ _ => Nat.le_refl _

theorem Leaves.begin (tx : Option Nat) (s : Registry) :
  Leaves lib tx s s.begin
  := by
  constructor
  · apply Nat.le_succ
  · intro x hx hlt _
    rcases Store.mem_begin.mp hx with rfl | hx
    · exact absurd hlt (Nat.lt_irrefl _)
    · exact hx
  · rfl
  · intro _ _ _ _ _ _ _
    exact Nat.le_refl _

theorem Leaves.write {id : Nat} {ws : List Write} {ks : List Lock} (h : Store.Wrote id ws ks s s') :
  Leaves lib (some id) s s'
  := by
  constructor
  · exact Nat.le_of_eq h.nextId.symm
  · intro x hx _ hne
    exact (h.others x fun hid => hne (congrArg some hid.symm)).mp hx
  · rw [h.committed]
  · intro _ _ _ _ _ _ _
    rw [h.committed]

end Leaves

/-! ### What the other calls take away -/

/-- Organisations and enrolments have been taken away, and none was added. -/
structure Shrinks (db db' : Db) : Prop where
  settings : db'.instanceSettings = db.instanceSettings
  owners : ∀ r ∈ db'.organizationMembers, r.role = .owner → r ∈ db.organizationMembers
  held : ∀ o, db'.held o ≤ db.held o
  times : ∀ o, (db'.enrolmentTimes o).Sublist (db.enrolmentTimes o)

/-- Every owner has accepted. -/
def Db.OwnersAccepted (db : Db) : Prop :=
  ∀ r ∈ db.organizationMembers, r.role = .owner → r.acceptedAt.isSome = true

theorem Shrinks.refl (db : Db) :
  Shrinks db db
  where
  settings := rfl
  owners := fun _ hr _ => hr
  held := fun _ => Nat.le_refl _
  times := fun _ => List.Sublist.refl _

theorem Shrinks.count_le {db db' : Db} (h : Shrinks db db') (o : Uuid) (c : Count)
    (now : DateTime) :
  c.of lib o now db' ≤ c.of lib o now db
  := by
  cases c with
  | held => exact h.held o
  | within interval => exact (h.times o).countP_le

theorem Shrinks.leaves {s : Registry} {db : Db} (h : Shrinks s.committed db) (tx : Option Nat) :
  Leaves lib tx s (s.withCommitted db)
  where
  nextId := Nat.le_refl _
  underWay := fun _ hx _ _ => hx
  settings := h.settings
  counts := fun _ _ _ o _ c now => h.count_le o c now

/-- Rows that are deleted, but for which `p` holds, leave no more of the others. -/
theorem held_le_of_filter {db db' : Db} (p : MemberRow → Bool)
    (h : db'.organizationMembers.rows = db.organizationMembers.rows.filter p) (o : Uuid) :
  db'.held o ≤ db.held o
  := by
  rw [Db.held, h]
  exact List.filter_sublist.countP_le

theorem shrinks_invite {organizationId memberId : Uuid} {db db' : Db}
    (h : db.invite organizationId memberId = some db') :
  Shrinks db db'
  := by
  rw [Db.invite, Db.insertMember] at h
  split at h
  · obtain ⟨members, hinsert, rfl⟩ := Option.map_eq_some_iff.mp h
    have hrows : members.rows = ⟨organizationId, memberId, .recruiter, none⟩ ::
        db.organizationMembers.rows := by
      rw [Table.insert] at hinsert
      split at hinsert
      · cases hinsert
        rfl
      · cases hinsert
    constructor
    · rfl
    · intro r hr howner
      rw [← Table.mem_rows, hrows] at hr
      rcases List.mem_cons.mp hr with rfl | hr
      · cases howner
      · exact hr
    · intro o
      rw [Db.held, hrows, List.countP_cons]
      exact Nat.le_of_eq (by simp [Db.held])
    · intro o
      exact List.Sublist.refl _
  · cases h

theorem shrinks_accept {organizationId memberId : Uuid} {now : DateTime} {db : Db}
    (h : db.OwnersAccepted) :
  Shrinks db (db.accept organizationId memberId now)
  := by
  -- what is outstanding is not of an owner
  have hnot : ∀ r ∈ db.organizationMembers.rows, Db.isOutstanding organizationId memberId r = true →
      r.role ≠ .owner := by
    intro r hr hout howner
    simp only [Db.isOutstanding, Bool.and_eq_true, Option.isNone_iff_eq_none] at hout
    have haccepted := h r hr howner
    rw [hout.2] at haccepted
    cases haccepted
  constructor
  · rfl
  · intro r hr howner
    obtain ⟨r', hr', rfl⟩ := List.mem_map.mp hr
    split at howner
    · rename_i hout
      exact absurd howner (hnot r' hr' hout)
    · rename_i hout
      rw [if_neg hout]
      exact hr'
  · intro o
    change List.countP _ (List.map _ _) ≤ _
    rw [List.countP_map]
    apply Nat.le_of_eq
    apply List.countP_congr
    intro r hr
    rw [Function.comp_apply]
    split
    · rename_i hout
      have hrole := hnot r hr hout
      simp [hrole]
    · rfl
  · intro o
    exact List.Sublist.refl _

theorem shrinks_removeMember (organizationId memberId : Uuid) (db : Db) :
  Shrinks db (db.removeMember organizationId memberId)
  where
  settings := rfl
  owners := fun _ hr _ => (Table.mem_delete.mp hr).1
  held := fun o => held_le_of_filter _ rfl o
  times := fun _ => List.Sublist.refl _

theorem shrinks_tombstone (id : Uuid) (now : DateTime) (db : Db) :
  Shrinks db (db.tombstone id now)
  where
  settings := rfl
  owners := fun _ hr _ => hr
  held := fun _ => Nat.le_refl _
  times := fun _ => List.Sublist.refl _

theorem shrinks_deleteActor (id : Uuid) (db : Db) :
  Shrinks db (db.deleteActor id)
  where
  settings := rfl
  owners := fun _ hr _ => (Table.mem_delete.mp hr).1
  held := fun o => held_le_of_filter _ rfl o
  times := by
    intro o
    -- forgetting an organisation changes neither the owner nor the time
    have htimes : (db.deleteActor id).enrolmentTimes o =
        ((db.organizationEnrolments.filter fun r => !(r.ownerId == id)).filter
          (·.ownerId == o)).map (·.createdAt) := by
      rw [Db.enrolmentTimes, Db.deleteActor, List.filter_map, List.map_map]
      have hfilter : (fun r : EnrolmentRow => r.ownerId == o) ∘ (fun r : EnrolmentRow =>
          if r.organizationId = some id then { r with organizationId := none } else r) =
            fun r => r.ownerId == o := by
        funext r
        rw [Function.comp_apply]
        split
        · rfl
        · rfl
      rw [hfilter]
      apply List.map_congr_left
      intro r _
      rw [Function.comp_apply]
      split
      · rfl
      · rfl
    rw [htimes]
    exact (List.filter_sublist.filter _).map _

/-- A statement of a call that enrols nothing takes away at most. -/
theorem idle_shrinks {q : OrgSql} (hq : Phase.idle q = true) {s : Registry}
    (h : s.committed.OwnersAccepted) :
  Leaves lib none s (q.exec lib s).2 ∧ Shrinks s.committed (q.exec lib s).2.committed
  := by
  have hsame : Leaves lib none s s ∧ Shrinks s.committed s.committed :=
    ⟨.refl none s, .refl _⟩
  have hshrinks : ∀ {db : Db}, Shrinks s.committed db →
      Leaves lib none s (s.withCommitted db) ∧
        Shrinks s.committed (s.withCommitted db).committed :=
    fun hdb => ⟨hdb.leaves none, hdb⟩
  cases q with
  | viewer id => exact hsame
  | usernameTaken domain username => exact hsame
  | rollback tx => exact ⟨.close none tx s, .refl _⟩
  | findLocalByUsername username => exact hsame
  | memberRole organizationId memberId => exact hsame
  | findById id => exact hsame
  | invite organizationId memberId =>
      simp only [OrgSql.exec]
      split
      · exact hsame
      split
      · exact hsame
      · rename_i db hinvite
        exact hshrinks (shrinks_invite hinvite)
  | accept organizationId memberId => exact hshrinks (shrinks_accept h)
  | removeMember organizationId memberId =>
      exact hshrinks (shrinks_removeMember organizationId memberId s.committed)
  | tombstone id => exact hshrinks (shrinks_tombstone id s.clock s.committed)
  | purge id =>
      simp only [OrgSql.exec]
      split
      · exact hshrinks (shrinks_deleteActor id s.committed)
      · exact hsame
  | _ => cases hq

/-! ### What an enrolment adds -/

/-- An owner has enrolled one organisation more, at the time given. -/
structure Enrols (o : Uuid) (time : DateTime) (db db' : Db) : Prop where
  settings : db'.instanceSettings = db.instanceSettings
  accepted : db.OwnersAccepted → db'.OwnersAccepted
  held : ∀ o', db'.held o' = db.held o' + if o' = o then 1 else 0
  times : ∀ o', db'.enrolmentTimes o' =
    if o' = o then time :: db.enrolmentTimes o' else db.enrolmentTimes o'
  others : ∀ o', o' ≠ o →
    (db'.organizationMembers.rows.filter fun r => r.memberId == o') =
        (db.organizationMembers.rows.filter fun r => r.memberId == o') ∧
      (db'.organizationEnrolments.filter fun r => r.ownerId == o') =
        (db.organizationEnrolments.filter fun r => r.ownerId == o')

/-- What a write about a new actor does to the rows of the others. -/
structure OnActor (id : Uuid) (db db' : Db) : Prop where
  members : db'.organizationMembers = db.organizationMembers
  enrolments : db'.organizationEnrolments = db.organizationEnrolments
  settings : db'.instanceSettings = db.instanceSettings
  others : ∀ a ∈ db'.actors, a.id ≠ id → a ∈ db.actors
  erased : ∀ a ∈ db'.actors, a.erasedAt ≠ none → ∃ b ∈ db.actors, b.id = a.id ∧ b.erasedAt ≠ none
  kept : ∀ b ∈ db.actors, ∃ a ∈ db'.actors, a.id = b.id ∧ a.erasedAt = b.erasedAt

theorem OnActor.refl (id : Uuid) (db : Db) :
  OnActor id db db
  where
  members := rfl
  enrolments := rfl
  settings := rfl
  others := fun _ ha _ => ha
  erased := fun a ha herased => ⟨a, ha, rfl, herased⟩
  kept := fun b hb => ⟨b, hb, rfl, rfl⟩

theorem OnActor.trans {id : Uuid} {db db₁ db₂ : Db} (h₁ : OnActor id db db₁)
    (h₂ : OnActor id db₁ db₂) :
  OnActor id db db₂
  := by
  constructor
  · exact h₂.members.trans h₁.members
  · exact h₂.enrolments.trans h₁.enrolments
  · exact h₂.settings.trans h₁.settings
  · intro a ha hne
    exact h₁.others a (h₂.others a ha hne) hne
  · intro a ha herased
    obtain ⟨b, hb, hid, herased⟩ := h₂.erased a ha herased
    obtain ⟨b', hb', hid', herased'⟩ := h₁.erased b hb herased
    exact ⟨b', hb', hid'.trans hid, herased'⟩
  · intro b hb
    obtain ⟨a, ha, hid, herased⟩ := h₁.kept b hb
    obtain ⟨a', ha', hid', herased'⟩ := h₂.kept a ha
    exact ⟨a', ha', hid'.trans hid, herased'.trans herased⟩

theorem onActor_update {id : Uuid} {f : ActorRow → ActorRow} (hf) (db : Db)
    (herased : ∀ r, (f r).erasedAt = r.erasedAt) :
  OnActor id db (db.updateActor id f hf)
  := by
  constructor
  · rfl
  · rfl
  · rfl
  · intro a ha hne
    obtain ⟨r, hr, rfl⟩ := List.mem_map.mp ha
    split
    · rename_i hid
      rw [if_pos hid] at hne
      exact absurd ((hf r).1.trans (beq_iff_eq.mp hid)) hne
    · exact hr
  · intro a ha hne
    obtain ⟨r, hr, rfl⟩ := List.mem_map.mp ha
    refine ⟨r, hr, ?_, ?_⟩
    · split
      · exact (hf r).1.symm
      · rfl
    · split at hne
      · rw [herased] at hne
        exact hne
      · exact hne
  · intro b hb
    refine ⟨_, List.mem_map.mpr ⟨b, hb, rfl⟩, ?_⟩
    split
    · exact ⟨(hf b).1, herased b⟩
    · exact ⟨rfl, rfl⟩

theorem onActor_apply {id : Uuid} {w : Write} (hw : w.onActor id = true) {db db' : Db}
    (h : w.apply db = some db') :
  OnActor id db db'
  := by
  cases w with
  | actor row =>
      simp only [Write.onActor, Bool.and_eq_true, beq_iff_eq, Option.isNone_iff_eq_none] at hw
      obtain ⟨hid, hnew⟩ := hw
      obtain ⟨actors, hinsert, rfl⟩ := Option.map_eq_some_iff.mp h
      have hmem : ∀ a, a ∈ actors ↔ a = row ∨ a ∈ db.actors := fun a => Table.mem_of_insert hinsert
      constructor
      · rfl
      · rfl
      · rfl
      · intro a ha hne
        rcases (hmem a).mp ha with rfl | ha
        · exact absurd hid hne
        · exact ha
      · intro a ha herased
        rcases (hmem a).mp ha with rfl | ha
        · exact absurd hnew herased
        · exact ⟨a, ha, rfl, herased⟩
      · intro b hb
        exact ⟨b, (hmem b).mpr (.inr hb), rfl, rfl⟩
  | claimedDomain id' domain =>
      obtain rfl := beq_iff_eq.mp hw
      cases h
      exact onActor_update _ db fun _ => rfl
  | orgKind id' kind =>
      obtain rfl := beq_iff_eq.mp hw
      cases h
      exact onActor_update _ db fun _ => rfl
  | member row => cases hw
  | enrolment row => cases hw

theorem onActor_replay {id : Uuid} {ws : List Write} (hws : ∀ w ∈ ws, w.onActor id = true)
    {db db' : Db} (h : Store.replay Write.apply ws db = some db') :
  OnActor id db db'
  := by
  induction ws generalizing db' with
  | nil =>
      cases h
      exact .refl id db
  | cons w ws ih =>
      obtain ⟨db₁, hbefore, hw⟩ := Option.bind_eq_some_iff.mp h
      have hfirst := ih (fun w' hw' => hws w' (List.mem_cons_of_mem w hw')) hbefore
      exact hfirst.trans (onActor_apply (hws w List.mem_cons_self) hw)

/-- An organisation is added, with its owner and its enrolment. -/
structure Founds (id o : Uuid) (time : DateTime) (db db' : Db) : Prop where
  settings : db'.instanceSettings = db.instanceSettings
  members : db'.organizationMembers.rows =
    ⟨id, o, .owner, some time⟩ :: db.organizationMembers.rows
  enrolments : db'.organizationEnrolments = ⟨o, some id, time⟩ :: db.organizationEnrolments
  others : ∀ a ∈ db'.actors, a.id ≠ id → a ∈ db.actors
  erased : ∀ a ∈ db'.actors, a.erasedAt ≠ none → ∃ b ∈ db.actors, b.id = a.id ∧ b.erasedAt ≠ none
  kept : ∀ b ∈ db.actors, ∃ a ∈ db'.actors, a.id = b.id ∧ a.erasedAt = b.erasedAt
  owner : ∃ b ∈ db'.actors, b.id = o

theorem insertMember_eq_some {row : MemberRow} {db db' : Db} (h : db.insertMember row = some db') :
  db'.organizationMembers.rows = row :: db.organizationMembers.rows ∧
    db'.actors = db.actors ∧ db'.organizationEnrolments = db.organizationEnrolments ∧
    db'.instanceSettings = db.instanceSettings ∧ db.hasActor row.memberId = true
  := by
  rw [Db.insertMember] at h
  split at h
  · rename_i hactors
    obtain ⟨members, hinsert, rfl⟩ := Option.map_eq_some_iff.mp h
    rw [Table.insert] at hinsert
    split at hinsert
    · cases hinsert
      exact ⟨rfl, rfl, rfl, rfl, (Bool.and_eq_true_iff.mp hactors).2⟩
    · cases hinsert
  · cases h

/-- What a complete transaction adds when it is committed. -/
theorem founds_of_replay {e : Enrolling} {tx : Nat} {o : Uuid} {policy : OrganizationPolicy}
    (he : e.Ready tx o policy) {db db' : Db}
    (h : Store.replay Write.apply e.writes db = some db') :
  ∃ id, .member ⟨id, o, .owner, some e.time⟩ ∈ e.writes ∧ Founds id o e.time db db'
  := by
  obtain ⟨id, ws, hwrites, hws⟩ := he.writes
  rw [hwrites] at h ⊢
  obtain ⟨db₂, h₂, henrolment⟩ := Option.bind_eq_some_iff.mp h
  obtain ⟨db₁, h₁, hmember⟩ := Option.bind_eq_some_iff.mp h₂
  have hnew := onActor_replay hws h₁
  obtain ⟨hmembers, hactors, henrolments, hsettings, howner⟩ := insertMember_eq_some hmember
  refine ⟨id, by simp, ?_⟩
  simp only [Write.apply, Db.insertEnrolment] at henrolment
  split at henrolment
  · cases henrolment
    constructor
    · exact hsettings.trans hnew.settings
    · change db₂.organizationMembers.rows = _
      rw [hmembers, hnew.members]
    · change _ :: db₂.organizationEnrolments = _
      rw [henrolments, hnew.enrolments]
    · rw [hactors]
      exact hnew.others
    · rw [hactors]
      exact hnew.erased
    · rw [hactors]
      exact hnew.kept
    · rw [hactors]
      obtain ⟨b, hb, hid⟩ := List.any_eq_true.mp howner
      exact ⟨b, hb, beq_iff_eq.mp hid⟩
  · cases henrolment

theorem Founds.enrols {id o : Uuid} {time : DateTime} {db db' : Db} (h : Founds id o time db db') :
  Enrols o time db db'
  := by
  constructor
  · exact h.settings
  · intro haccepted r hr howner
    rw [← Table.mem_rows, h.members] at hr
    rcases List.mem_cons.mp hr with rfl | hr
    · rfl
    · exact haccepted r hr howner
  · intro o'
    rw [Db.held, h.members, List.countP_cons, Db.held]
    congr 1
    by_cases ho : o' = o
    · simp [ho]
    · simp [ho, Ne.symm ho]
  · intro o'
    rw [Db.enrolmentTimes, h.enrolments]
    by_cases ho : o' = o
    · subst ho
      rw [if_pos rfl, List.filter_cons_of_pos (by simp), List.map_cons, Db.enrolmentTimes]
    · rw [if_neg ho, List.filter_cons_of_neg (by simpa using Ne.symm ho), Db.enrolmentTimes]
  · intro o' ho
    rw [h.members, h.enrolments]
    constructor
    · exact List.filter_cons_of_neg (by simpa using Ne.symm ho)
    · exact List.filter_cons_of_neg (by simpa using Ne.symm ho)

/-! ### What the statements of an enrolment do -/

section Statements

variable {s : Registry} {e : Enrolling} {φ : Phase}

theorem later_fits (elapsed : Nat) (h : φ.Fits lib s) :
  φ.Fits lib (s.later elapsed)
  := by
  cases φ with
  | underWay e => exact h
  | _ => trivial

theorem fits_begin :
  (Phase.underWay ⟨s.nextId, s.clock, none, none, [], []⟩).Fits lib s.begin
  := by
  constructor
  · apply Nat.lt_succ_self
  · intro x hx hid
    rcases Store.mem_begin.mp hx with rfl | hx
    · exact ⟨rfl, rfl, nofun, nofun⟩
    · exact absurd hid (Nat.ne_of_lt (s.old x hx))

/-- A transaction that has written nothing reads what is committed. -/
theorem readIn_cases {α : Type} (f : DateTime → Db → α) (hφ : (Phase.underWay e).Fits lib s)
    (hnothing : e.writes = []) :
  (∃ error, readIn e.tx f s = (.error error, s)) ∨
    readIn e.tx f s = (.ok (f e.time s.committed), s)
  := by
  unfold readIn
  split
  · exact .inl ⟨_, rfl⟩
  rename_i x hfound
  obtain ⟨hx, hid⟩ := Store.find_eq_some hfound
  obtain ⟨hstarted, hwrites, _⟩ := hφ.2 x hx hid
  right
  rw [Store.view, hwrites, hnothing, hstarted]
  rfl

/-- A transaction fails to write, or goes on with what it has written. -/
theorem writeIn_cases (w : DateTime → Write) (ks : List Lock) (hφ : (Phase.underWay e).Fits lib s) :
  (∃ error, writeIn e.tx w ks s = (.error error, s)) ∨ ∃ s', writeIn e.tx w ks s = (.ok (), s') ∧
    Leaves lib (some e.tx) s s' ∧ (Phase.underWay (e.write (w e.time))).Fits lib s'
  := by
  unfold writeIn
  split
  · exact .inl ⟨_, rfl⟩
  rename_i x hfound
  obtain ⟨hx, hid⟩ := Store.find_eq_some hfound
  obtain ⟨hstarted, hwrites, hsettings, hlocked⟩ := hφ.2 x hx hid
  split
  · exact .inl ⟨_, rfl⟩
  rw [hstarted]
  split
  · exact .inl ⟨_, rfl⟩
  rename_i s' hwrite
  have hwrote := Store.wrote_of_write hwrite
  refine .inr ⟨s', rfl, .write hwrote, ?_, ?_⟩
  · rw [hwrote.nextId]
    exact hφ.1
  · intro y hy hyid
    obtain ⟨x', hx', hx'id, hextended⟩ := hwrote.own
    obtain rfl : x' = x := Store.eq_of_id hx' hx (hx'id.trans hid.symm)
    obtain rfl : y = x'.extend [w e.time] ks :=
      Store.eq_of_id hy hextended (hyid.trans hx'id.symm)
    rw [hwrote.committed]
    refine ⟨hstarted, congrArg _ hwrites, hsettings, fun o ho => ?_⟩
    obtain ⟨hlock, hcounts⟩ := hlocked o ho
    exact ⟨List.mem_append_right _ hlock, hcounts⟩

/-- The lock on an owner is taken before anything is counted. -/
theorem fits_lock {o : Uuid} {s' : Registry} (hφ : (Phase.underWay e).Fits lib s)
    (hnothing : e.counts = []) (hwrite : s.write e.tx [] [lockOf lib o] = some s') :
  Leaves lib (some e.tx) s s' ∧ (Phase.underWay { e with locked := some o }).Fits lib s'
  := by
  have hwrote := Store.wrote_of_write hwrite
  refine ⟨.write hwrote, ?_, ?_⟩
  · rw [hwrote.nextId]
    exact hφ.1
  · intro y hy hyid
    obtain ⟨x, hx, hxid, hextended⟩ := hwrote.own
    obtain rfl : y = x.extend [] [lockOf lib o] :=
      Store.eq_of_id hy hextended (hyid.trans hxid.symm)
    obtain ⟨hstarted, hwrites, hsettings, _⟩ := hφ.2 x hx hxid
    rw [hwrote.committed]
    refine ⟨hstarted, hwrites, hsettings, ?_⟩
    rintro _ ⟨⟩
    refine ⟨List.mem_cons_self, fun c n hmem => ?_⟩
    rw [hnothing] at hmem
    cases hmem

/-- What is counted of a locked owner does not become more. -/
theorem fits_count {o : Uuid} {c : Count} {n : Nat} (hφ : (Phase.underWay e).Fits lib s)
    (hlocked : e.locked = some o) (hn : c.of lib o e.time s.committed ≤ n) :
  (Phase.underWay (e.count c n)).Fits lib s
  := by
  refine ⟨hφ.1, fun x hx hid => ?_⟩
  obtain ⟨hstarted, hwrites, hsettings, hown⟩ := hφ.2 x hx hid
  refine ⟨hstarted, hwrites, hsettings, fun o' ho' => ?_⟩
  obtain ⟨hlock, hcounts⟩ := hown o' ho'
  obtain rfl : o = o' := Option.some.inj (hlocked.symm.trans ho')
  refine ⟨hlock, fun c' n' hmem => ?_⟩
  rcases List.mem_cons.mp hmem with heq | hmem
  · cases heq
    exact hn
  · exact hcounts c' n' hmem

/-- What a complete transaction does when it is committed. -/
theorem of_commit {o : Uuid} {policy : OrganizationPolicy} {tx : Nat} {s' : Registry}
    (hφ : (Phase.underWay e).Fits lib s) (he : e.Ready tx o policy)
    (h : s.commit Write.apply tx = some s') :
  s'.nextId = s.nextId ∧ (∀ x ∈ s'.underWay, x ∈ s.underWay) ∧
    (∃ id, .member ⟨id, o, .owner, some e.time⟩ ∈ e.writes ∧
      Founds id o e.time s.committed s'.committed) ∧
    policyOf s.committed.instanceSettings = policy ∧
    (∃ x ∈ s.underWay, x.id = tx ∧ lockOf lib o ∈ x.locks) ∧
    ∀ c n, (c, n) ∈ e.counts → c.of lib o e.time s.committed ≤ n
  := by
  obtain ⟨x, hx, hid, db, hview, rfl⟩ := Store.of_commit h
  obtain ⟨_, hwrites, hsettings, hlocked⟩ := hφ.2 x hx (hid.trans he.locked.tx.symm)
  obtain ⟨hlock, hcounts⟩ := hlocked o he.locked.locked
  obtain ⟨row, hrow, hpolicy⟩ := he.locked.settings
  rw [Store.view, hwrites] at hview
  refine ⟨rfl, fun y hy => (Store.mem_close.mp hy).1, founds_of_replay he hview, ?_,
    ⟨x, hx, hid, hlock⟩, hcounts⟩
  rw [hsettings row hrow, hpolicy]

theorem leaves_commit {o : Uuid} {policy : OrganizationPolicy} {s' : Registry}
    (hφ : (Phase.underWay e).Fits lib s) (he : e.Ready e.tx o policy)
    (h : s.commit Write.apply e.tx = some s') :
  Leaves lib (some e.tx) s s'
  := by
  obtain ⟨hnext, hunderWay, ⟨_, _, hfounds⟩, _, ⟨x, hx, hid, hlock⟩, _⟩ := of_commit hφ he h
  have henrols := hfounds.enrols
  constructor
  · exact Nat.le_of_eq hnext.symm
  · intro y hy _ _
    exact hunderWay y hy
  · exact henrols.settings
  · intro y hy hne o' hk c now
    -- who holds the lock on another owner
    have ho : o' ≠ o := by
      rintro rfl
      have hsame : x = y := Store.eq_of_lock hx hy hlock hk
      exact hne (by rw [← hsame, hid])
    cases c with
    | held =>
        change s'.committed.held o' ≤ _
        rw [henrols.held, if_neg ho]
        exact Nat.le_refl _
    | within interval =>
        change (s'.committed.enrolmentTimes o').countP _ ≤ _
        rw [henrols.times, if_neg ho]
        exact Nat.le_refl _

/-- What a statement leaves, and where it leaves the call that has made it. -/
theorem exec_fits {t : Call} {l : List Orgs.Exchange} (q : OrgSql) (hφ : (Phase.of l).Fits lib s)
    (hasked : Asked t l (.sql q)) (haccepted : s.committed.OwnersAccepted) :
  Leaves lib (Phase.of l).tx s (q.exec lib s).2 ∧
    ((Phase.of l).next ⟨.sql q, (q.exec lib s).1⟩).Fits lib (q.exec lib s).2
  := by
  have hidle : Phase.idle q = true → Leaves lib (Phase.of l).tx s (q.exec lib s).2 ∧
      ((Phase.of l).next ⟨.sql q, (q.exec lib s).1⟩).Fits lib (q.exec lib s).2 := by
    intro hq
    have hleaves : Leaves lib none s (q.exec lib s).2 := (idle_shrinks hq haccepted).1
    rw [Phase.next_idle _ hq]
    exact ⟨hleaves.of_none _, hleaves.fits (fun _ _ => nofun) hφ⟩
  cases q with
  | begin =>
      have hstart : Phase.of l = .start := hasked
      rw [hstart]
      exact ⟨.begin _ s, fits_begin⟩
  | settings tx =>
      obtain ⟨e, hphase, rfl, hnothing⟩ := hasked
      rw [hphase] at hφ ⊢
      simp only [OrgSql.exec]
      rcases readIn_cases (fun _ db => db.instanceSettings) hφ hnothing with ⟨error, h⟩ | h
      · rw [h]
        exact ⟨.refl _ s, hφ⟩
      · rw [h]
        refine ⟨.refl _ s, hφ.1, fun x hx hid => ?_⟩
        obtain ⟨hstarted, hwrites, _, hlocked⟩ := hφ.2 x hx hid
        refine ⟨hstarted, hwrites, ?_, hlocked⟩
        rintro _ ⟨⟩
        rfl
  | lock tx o =>
      obtain ⟨e, hphase, rfl, hnothing⟩ := hasked
      rw [hphase] at hφ ⊢
      simp only [OrgSql.exec]
      split
      · exact ⟨.refl _ s, hφ⟩
      · rename_i s' hwrite
        exact fits_lock hφ hnothing hwrite
  | held tx o =>
      obtain ⟨_, e, hphase, rfl, hlocked, hnothing⟩ := hasked
      rw [hphase] at hφ ⊢
      simp only [OrgSql.exec]
      rcases readIn_cases (fun _ db => db.held o) hφ hnothing with ⟨error, h⟩ | h
      · rw [h]
        exact ⟨.refl _ s, hφ⟩
      · rw [h]
        exact ⟨.refl _ s, fits_count hφ hlocked (Nat.le_refl _)⟩
  | enrolmentsWithin tx o interval =>
      obtain ⟨_, e, hphase, rfl, hlocked, hnothing⟩ := hasked
      rw [hphase] at hφ ⊢
      simp only [OrgSql.exec]
      rcases readIn_cases (fun now db => (db.enrolmentTimes o).countP fun t =>
        decide (lib.before interval now < t)) hφ hnothing with ⟨error, h⟩ | h
      · rw [h]
        exact ⟨.refl _ s, hφ⟩
      · rw [h]
        exact ⟨.refl _ s, fits_count hφ hlocked (Nat.le_refl _)⟩
  | createActor tx row =>
      obtain ⟨e, hphase, rfl⟩ := hasked
      rw [hphase] at hφ ⊢
      simp only [OrgSql.exec]
      rcases writeIn_cases (fun _ => .actor row) [.localName row.username row.domain] hφ with
        ⟨error, h⟩ | ⟨s', h, hfits⟩
      · rw [h]
        exact ⟨.refl _ s, hφ⟩
      · rw [h]
        exact hfits
  | setClaimedDomain tx id domain =>
      obtain ⟨e, hphase, rfl⟩ := hasked
      rw [hphase] at hφ ⊢
      simp only [OrgSql.exec]
      rcases writeIn_cases (fun _ => .claimedDomain id domain) [] hφ with
        ⟨error, h⟩ | ⟨s', h, hfits⟩
      · rw [h]
        exact ⟨.refl _ s, hφ⟩
      · rw [h]
        exact hfits
  | setOrgKind tx id kind =>
      obtain ⟨e, hphase, rfl⟩ := hasked
      rw [hphase] at hφ ⊢
      simp only [OrgSql.exec]
      rcases writeIn_cases (fun _ => .orgKind id kind) [] hφ with
        ⟨error, h⟩ | ⟨s', h, hfits⟩
      · rw [h]
        exact ⟨.refl _ s, hφ⟩
      · rw [h]
        exact hfits
  | insertOwner tx id o =>
      obtain ⟨e, hphase, rfl⟩ := hasked
      rw [hphase] at hφ ⊢
      simp only [OrgSql.exec]
      rcases writeIn_cases (fun now => .member ⟨id, o, .owner, some now⟩) [] hφ with
        ⟨error, h⟩ | ⟨s', h, hfits⟩
      · rw [h]
        exact ⟨.refl _ s, hφ⟩
      · rw [h]
        exact hfits
  | insertEnrolment tx o id =>
      obtain ⟨e, hphase, rfl⟩ := hasked
      rw [hphase] at hφ ⊢
      simp only [OrgSql.exec]
      rcases writeIn_cases (fun now => .enrolment ⟨o, some id, now⟩) [] hφ with
        ⟨error, h⟩ | ⟨s', h, hfits⟩
      · rw [h]
        exact ⟨.refl _ s, hφ⟩
      · rw [h]
        exact hfits
  | commit tx =>
      obtain ⟨o, e, policy, _, hphase, he⟩ := hasked
      obtain rfl := he.locked.tx
      rw [hphase] at hφ ⊢
      simp only [OrgSql.exec]
      split
      · exact ⟨.close _ _ s, (Leaves.close none _ s).fits (fun _ _ => nofun) hφ⟩
      · rename_i s' hcommit
        exact ⟨leaves_commit hφ he hcommit, trivial⟩
  | viewer id => exact hidle rfl
  | usernameTaken domain username => exact hidle rfl
  | rollback tx => exact hidle rfl
  | findLocalByUsername username => exact hidle rfl
  | memberRole organizationId memberId => exact hidle rfl
  | invite organizationId memberId => exact hidle rfl
  | accept organizationId memberId => exact hidle rfl
  | removeMember organizationId memberId => exact hidle rfl
  | findById id => exact hidle rfl
  | tombstone id => exact hidle rfl
  | purge id => exact hidle rfl

end Statements

/-! ### What changes -/

theorem readIn_committed {α : Type} (tx : Nat) (f : DateTime → Db → α) (s : Registry) :
  (readIn tx f s).2.committed = s.committed
  := by
  unfold readIn
  split
  · rfl
  split
  · rfl
  · rfl

theorem writeIn_committed (tx : Nat) (w : DateTime → Write) (ks : List Lock) (s : Registry) :
  (writeIn tx w ks s).2.committed = s.committed
  := by
  unfold writeIn
  split
  · rfl
  split
  · rfl
  split
  · rfl
  · rename_i s' hwrite
    exact (Store.wrote_of_write hwrite).committed

/-- What is committed is changed by the calls that enrol nothing, and by a commit. -/
theorem committed_exec (q : OrgRequest) (c : (orgWorld lib).Choice q) (s : Registry) :
  ((orgWorld lib).exec q c s).2.committed = s.committed ∨
    (∃ q' elapsed, q = .sql q' ∧ Phase.idle q' = true ∧
      ((orgWorld lib).exec q c s).2 = (q'.exec lib (s.later elapsed)).2) ∨
    ∃ tx elapsed, (⟨q, ((orgWorld lib).exec q c s).1⟩ : Orgs.Exchange) =
        ⟨.sql (.commit tx), .ok ()⟩ ∧
      (s.later elapsed).commit Write.apply tx = some ((orgWorld lib).exec q c s).2
  := by
  cases q with
  | generateKeypair => exact .inl rfl
  | sealKeys => exact .inl rfl
  | newUuid => exact .inl rfl
  | respond r => exact .inl rfl
  | sql q =>
      cases c with
      | error e =>
          left
          change (q.fail s).committed = s.committed
          cases q <;> rfl
      | ok elapsed =>
          change (q.exec lib (s.later elapsed)).2.committed = s.committed ∨ _ ∨ _
          cases q with
          | begin => exact .inl rfl
          | settings tx => exact .inl (readIn_committed _ _ _)
          | held tx o => exact .inl (readIn_committed _ _ _)
          | enrolmentsWithin tx o interval => exact .inl (readIn_committed _ _ _)
          | createActor tx row => exact .inl (writeIn_committed _ _ _ _)
          | setClaimedDomain tx id domain => exact .inl (writeIn_committed _ _ _ _)
          | setOrgKind tx id kind => exact .inl (writeIn_committed _ _ _ _)
          | insertOwner tx id o => exact .inl (writeIn_committed _ _ _ _)
          | insertEnrolment tx o id => exact .inl (writeIn_committed _ _ _ _)
          | lock tx o =>
              left
              simp only [OrgSql.exec]
              split
              · rfl
              · rename_i s' hwrite
                exact (Store.wrote_of_write hwrite).committed
          | commit tx =>
              cases hcommit : (s.later elapsed).commit Write.apply tx with
              | none =>
                  left
                  simp only [OrgSql.exec, hcommit]
                  rfl
              | some s' =>
                  right
                  right
                  have hexec : OrgSql.exec lib (.commit tx) (s.later elapsed) = (.ok (), s') := by
                    simp only [OrgSql.exec, hcommit]
                  refine ⟨tx, elapsed, ?_, ?_⟩
                  · change (⟨.sql (.commit tx), (OrgSql.exec lib (.commit tx)
                      (s.later elapsed)).1⟩ : Orgs.Exchange) = _
                    rw [hexec]
                  · change _ = some (OrgSql.exec lib (.commit tx) (s.later elapsed)).2
                    rw [hcommit, hexec]
          | _ => exact .inr (.inl ⟨_, elapsed, rfl, rfl, rfl⟩)

/-! ### The ceilings -/

/-- Every owner is within the ceilings of a policy, which are those of the settings. -/
structure Within (lib : OrgLibrary) (policy : OrganizationPolicy) (db : Db) : Prop where
  settings : policyOf db.instanceSettings = policy
  accepted : db.OwnersAccepted
  held : ∀ o, 0 < policy.concurrentCap → (db.held o : Int) ≤ policy.concurrentCap
  period : ∀ o, 0 < policy.periodCapCount →
    Spaced policy.periodCapCount.toNat (since lib policy.capPeriod) (db.enrolmentTimes o)
  rate : ∀ o, 0 < policy.rateLimitCount →
    Spaced policy.rateLimitCount.toNat (since lib policy.rateLimitPeriod) (db.enrolmentTimes o)

theorem Within.shrinks {policy : OrganizationPolicy} {db db' : Db} (h : Within lib policy db)
    (hs : Shrinks db db') :
  Within lib policy db'
  := by
  constructor
  · rw [hs.settings]
    exact h.settings
  · intro r hr howner
    exact h.accepted r (hs.owners r hr howner) howner
  · intro o hpos
    exact Int.le_trans (Int.ofNat_le.mpr (hs.held o)) (h.held o hpos)
  · intro o hpos
    exact (h.period o hpos).sublist (hs.times o)
  · intro o hpos
    exact (h.rate o hpos).sublist (hs.times o)

/-- Another enrolment is spaced from the others, if fewer were counted than the ceiling. -/
theorem spaced_enrols {ceiling : Int} {period : Period} {e : Enrolling} {o : Uuid} {db db' : Db}
    (hpos : 0 < ceiling) (hbelow : e.Below (.within period.intervalArgs) ceiling)
    (hcounts : ∀ c n, (c, n) ∈ e.counts → c.of lib o e.time db ≤ n)
    (henrols : Enrols o e.time db db') (o' : Uuid)
    (h : Spaced ceiling.toNat (since lib period) (db.enrolmentTimes o')) :
  Spaced ceiling.toNat (since lib period) (db'.enrolmentTimes o')
  := by
  rw [henrols.times]
  split
  · rename_i ho
    subst ho
    obtain ⟨n, hmem, hlt⟩ := hbelow hpos
    refine ⟨?_, h⟩
    have hn : n < ceiling.toNat := by omega
    exact Nat.lt_of_le_of_lt (hcounts _ n hmem) hn
  · exact h

theorem Within.enrols {policy : OrganizationPolicy} {e : Enrolling} {o : Uuid} {db db' : Db}
    (h : Within lib policy db) (hadmitted : e.Admitted policy)
    (hcounts : ∀ c n, (c, n) ∈ e.counts → c.of lib o e.time db ≤ n)
    (henrols : Enrols o e.time db db') :
  Within lib policy db'
  := by
  constructor
  · rw [henrols.settings]
    exact h.settings
  · exact henrols.accepted h.accepted
  · intro o' hpos
    rw [henrols.held]
    split
    · rename_i ho
      subst ho
      obtain ⟨n, hmem, hlt⟩ := hadmitted.held hpos
      have hcount : db.held o' ≤ n := hcounts .held n hmem
      omega
    · exact h.held o' hpos
  · intro o' hpos
    exact spaced_enrols hpos hadmitted.period hcounts henrols o' (h.period o' hpos)
  · intro o' hpos
    exact spaced_enrols hpos hadmitted.rate hcounts henrols o' (h.rate o' hpos)

/-- Every call is in a phase that fits the state, and every owner is within the ceilings. -/
structure Ceilinged (lib : OrgLibrary) (policy : OrganizationPolicy) (s : Calls) : Prop where
  compatible : Compatible (Phase.Fits lib) Phase.Apart s.state (s.phases .start Phase.next)
  within : Within lib policy s.state.committed

section Steps

variable {s : Calls} {i : Nat} {t : Call} {q : OrgRequest}
  {k : Orgs.Answer q → Program Orgs Unit} {c : (orgWorld lib).Choice q}
  {policy : OrganizationPolicy}

theorem exchange_fits {l : List Orgs.Exchange} {s : Registry} (hφ : (Phase.of l).Fits lib s)
    (hasked : Asked t l q) (haccepted : s.committed.OwnersAccepted) :
  Leaves lib (Phase.of l).tx s ((orgWorld lib).exec q c s).2 ∧
    ((Phase.of l).next ⟨q, ((orgWorld lib).exec q c s).1⟩).Fits lib ((orgWorld lib).exec q c s).2
  := by
  cases q with
  | sql q =>
      cases c with
      | error e =>
          have hleaves : Leaves lib none s (q.fail s) := by
            cases q with
            | commit tx => apply Leaves.close
            | _ => apply Leaves.refl
          change _ ∧ ((Phase.of l).next ⟨.sql q, .error e⟩).Fits lib _
          rw [Phase.next_error]
          exact ⟨hleaves.of_none _, hleaves.fits (fun _ _ => nofun) hφ⟩
      | ok elapsed =>
          have hexec : Leaves lib (Phase.of l).tx (s.later elapsed) (q.exec lib (s.later elapsed)).2 ∧
              ((Phase.of l).next ⟨.sql q, (q.exec lib (s.later elapsed)).1⟩).Fits lib
                (q.exec lib (s.later elapsed)).2 :=
            exec_fits q (later_fits elapsed hφ) hasked haccepted
          obtain ⟨hleaves, hfits⟩ := hexec
          exact ⟨hleaves.of_later, hfits⟩
  | generateKeypair =>
      refine ⟨.refl _ s, ?_⟩
      cases hphase : Phase.of l <;> rw [hphase] at hφ <;> exact hφ
  | sealKeys =>
      refine ⟨.refl _ s, ?_⟩
      cases hphase : Phase.of l <;> rw [hphase] at hφ <;> exact hφ
  | newUuid =>
      refine ⟨.refl _ s, ?_⟩
      cases hphase : Phase.of l <;> rw [hphase] at hφ <;> exact hφ
  | respond r =>
      refine ⟨.refl _ s, ?_⟩
      rcases r with (error | id) | r
      · cases hphase : Phase.of l <;> trivial
      · cases hphase : Phase.of l <;> rw [hphase] at hφ <;> exact hφ
      · cases hphase : Phase.of l <;> rw [hphase] at hφ <;> exact hφ

theorem within_exchange (hs : Ceilinged lib policy s) (hasked : Asked t (s.history.trace i) q) :
  Within lib policy ((orgWorld lib).exec q c s.state).2.committed
  := by
  have hφ : (Phase.of (s.history.trace i)).Fits lib s.state := hs.compatible.fits i
  rcases committed_exec q c s.state with hsame | ⟨q', elapsed, rfl, hidle, hexec⟩ |
    ⟨tx, elapsed, hx, hcommit⟩
  · rw [hsame]
    exact hs.within
  · rw [hexec]
    exact hs.within.shrinks (idle_shrinks (s := s.state.later elapsed) hidle hs.within.accepted).2
  · obtain ⟨rfl, _⟩ := Interface.Exchange.mk.inj hx
    obtain ⟨o, e, policy', _, hphase, he⟩ := hasked
    rw [hphase] at hφ
    obtain ⟨_, _, ⟨_, _, hfounds⟩, hpolicy, _, hcounts⟩ :=
      of_commit (later_fits elapsed hφ) he hcommit
    obtain rfl : policy = policy' := hs.within.settings.symm.trans hpolicy
    exact hs.within.enrols he.admitted hcounts hfounds.enrols

/-- A call that goes on keeps apart from the others. -/
theorem apart_exchange {l : List Orgs.Exchange} {φ' : Phase} (hφ' : φ'.Fits lib s.state)
    (hapart : Phase.Apart (Phase.of l) φ') :
  Phase.Apart ((Phase.of l).next ⟨q, ((orgWorld lib).exec q c s.state).1⟩) φ'
  := by
  intro tx htx
  rcases Phase.next_tx htx with htx | ⟨time, hx⟩
  · exact hapart tx htx
  · -- a transaction that has just begun is new
    intro htx'
    cases q with
    | sql q =>
        cases q with
        | begin =>
            cases c with
            | error e => cases hx
            | ok elapsed =>
                obtain rfl : s.state.nextId = tx := by
                  obtain ⟨_, hanswer⟩ := Interface.Exchange.mk.inj hx
                  exact (Prod.mk.inj (Except.ok.inj (eq_of_heq hanswer))).1
                cases φ' with
                | underWay e =>
                    have hold := hφ'.1
                    rw [Option.some.inj htx'] at hold
                    exact Nat.lt_irrefl _ hold
                | _ => cases htx'
        | _ => cases hx
    | _ => cases hx

/-- An exchange leaves every call in a phase that fits. -/
theorem compatible_exchange
    (hs : Compatible (Phase.Fits lib) Phase.Apart s.state (s.phases .start Phase.next))
    (haccepted : s.state.committed.OwnersAccepted) (hasked : Asked t (s.history.trace i) q) :
  Compatible (Phase.Fits lib) Phase.Apart (s.exchange (orgWorld lib) i t q k c).state
    ((s.exchange (orgWorld lib) i t q k c).phases .start Phase.next)
  := by
  rw [Pool.phases_exchange]
  obtain ⟨hleaves, hfits⟩ := exchange_fits (c := c) (hs.fits i) hasked haccepted
  apply hs.enter i hfits
  intro φ' hφ' hapart hapart'
  refine ⟨hleaves.fits (fun tx' htx' htx => hapart tx' htx htx') hφ', ?_⟩
  have hnew := apart_exchange (c := c) hφ' hapart
  exact ⟨hnew, fun tx h h' => hnew tx h' h⟩

theorem ceilinged_exchange (hs : Ceilinged lib policy s)
    (hasked : Asked t (s.history.trace i) q) :
  Ceilinged lib policy (s.exchange (orgWorld lib) i t q k c)
  := ⟨compatible_exchange hs.compatible hs.within.accepted hasked, within_exchange hs hasked⟩

end Steps

end Organizations
