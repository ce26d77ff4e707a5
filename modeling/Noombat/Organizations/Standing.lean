import Noombat.Organizations.Outcomes

/-!
# Standing in an organisation

The history accounts for every membership: it was made by an enrolment, or by an invitation of an
owner that the invited has accepted, and was not removed since.  An organisation has an owner as
long as no account is erased that is the owner of one, and none that is erased enrols one; the
program ensures neither.
-/

namespace Organizations

open Federation (Uuid DateTime NoombatError)
open Fallible Program

variable {lib : OrgLibrary}

/-! ### What has happened -/

/-- The last that has happened makes an actor the owner of an organisation that it enrols. -/
def enrols (organizationId ownerId : Uuid) : List Event → Prop
  | [] => False
  | e :: h => e.task.owner = some ownerId ∧ (∃ tx, e.exchange = ⟨.sql (.commit tx), .ok ()⟩) ∧
      ∃ tx, ⟨.sql (.insertOwner tx organizationId ownerId), .ok ()⟩ ∈
        Interface.History.trace h e.thread

/-- A membership is removed, or goes with an actor. -/
def removes (organizationId memberId : Uuid) (e : Event) : Prop :=
  match e.exchange with
  | ⟨.sql (.removeMember o m), .ok n⟩ => 0 < n ∧ o = organizationId ∧ m = memberId
  | ⟨.sql (.purge id), .ok n⟩ => 0 < n ∧ (id = organizationId ∨ id = memberId)
  | _ => False

/-- An actor has enrolled an organisation. -/
def Enrolled (organizationId ownerId : Uuid) : List Event → Prop :=
  Past.Since (removes organizationId ownerId) (enrols organizationId ownerId)

/-- The last that has happened is an invitation by an owner of the organisation, which has been
told so and has enrolled it, or by the organisation itself. -/
def invites (organizationId memberId : Uuid) : List Event → Prop
  | [] => False
  | e :: h => ∃ inviter username, e.task = .invite organizationId (some inviter) username ∧
      e.exchange = ⟨.sql (.invite organizationId memberId), .ok (1 : Nat)⟩ ∧
      (inviter = organizationId ∨
        ⟨.sql (.memberRole organizationId inviter), .ok (some .owner)⟩ ∈
            Interface.History.trace h e.thread ∧
          Past.Once (Enrolled organizationId inviter) h)

/-- An actor accepts its own invitation. -/
def accepts (organizationId memberId : Uuid) (e : Event) : Prop :=
  e.task = .accept organizationId (some memberId) ∧
    ∃ n, 0 < n ∧ e.exchange = ⟨.sql (.accept organizationId memberId), .ok n⟩

/-- An owner has invited an actor, and its membership was not removed since. -/
def Invited (organizationId memberId : Uuid) : List Event → Prop :=
  Past.Since (removes organizationId memberId) (invites organizationId memberId)

/-- An owner has invited an actor, which has then accepted; its membership was not removed between
or since. -/
def Joined (organizationId memberId : Uuid) : List Event → Prop :=
  Past.Since (removes organizationId memberId)
    (Past.After (accepts organizationId memberId) (Invited organizationId memberId))

/-- The history accounts for a membership. -/
def Warranted (h : List Event) (r : MemberRow) : Prop :=
  match r.role, r.acceptedAt with
  | .owner, some _ => Enrolled r.organizationId r.memberId h
  | .owner, none => False
  | .recruiter, some _ => Joined r.organizationId r.memberId h
  | .recruiter, none => Invited r.organizationId r.memberId h

/-- An organisation of the instance that has not been dissolved. -/
def ActorRow.Stands (a : ActorRow) : Prop :=
  a.actorType = .organization ∧ a.isLocal = true ∧ a.erasedAt = none

instance (a : ActorRow) : Decidable a.Stands :=
  inferInstanceAs (Decidable (_ ∧ _ ∧ _))

/-- An organisation has an accepted owner that has not been erased. -/
def Db.LedBy (db : Db) (organizationId : Uuid) (r : MemberRow) : Prop :=
  r.organizationId = organizationId ∧ r.role = .owner ∧ r.acceptedAt.isSome = true ∧
    ∃ b ∈ db.actors, b.id = r.memberId ∧ b.erasedAt = none

instance (db : Db) (organizationId : Uuid) (r : MemberRow) :
    Decidable (db.LedBy organizationId r) :=
  inferInstanceAs (Decidable (_ ∧ _ ∧ _ ∧ ∃ b ∈ db.actors.rows, b.id = r.memberId ∧ _))

/-- Every organisation has an owner. -/
def Db.Led (db : Db) : Prop :=
  ∀ a ∈ db.actors, a.Stands → ∃ r ∈ db.organizationMembers, db.LedBy a.id r

/-- A statement erases no account that is the owner of another organisation, and lets none enrol
that has been erased. -/
def OrgSql.Lasts (t : Call) (db : Db) : OrgSql → Prop
  | .tombstone id => ∀ r ∈ db.organizationMembers.rows, r.memberId = id → r.role = .owner →
      ∀ a ∈ db.actors.rows, a.id = r.organizationId → a.id ≠ id → ¬ a.Stands
  | .commit _ => ∀ b ∈ db.actors.rows, t.owner = some b.id → b.erasedAt = none
  | _ => True

instance OrgSql.decidableLasts (t : Call) (db : Db) : DecidablePred (OrgSql.Lasts t db)
  | .tombstone id => inferInstanceAs (Decidable (∀ r ∈ db.organizationMembers.rows, r.memberId = id →
      r.role = .owner → ∀ a ∈ db.actors.rows, a.id = r.organizationId → a.id ≠ id → ¬ a.Stands))
  | .commit _ => inferInstanceAs (Decidable (∀ b ∈ db.actors.rows, t.owner = some b.id →
      b.erasedAt = none))
  | .viewer _ | .usernameTaken _ _ | .begin | .settings _ | .lock _ _ | .held _ _
  | .enrolmentsWithin _ _ _ | .createActor _ _ | .setClaimedDomain _ _ _ | .setOrgKind _ _ _
  | .insertOwner _ _ _ | .insertEnrolment _ _ _ | .rollback _ | .findLocalByUsername _
  | .memberRole _ _ | .invite _ _ | .accept _ _ | .removeMember _ _ | .findById _ | .purge _ =>
      isTrue trivial

/-- Every statement that is executed is such a one. -/
def Lasting : StepCondition (orgWorld lib) Call := fun _ t q c s =>
  match q, c with
  | .sql q, .ok _ => q.Lasts t s.state.committed
  | _, _ => True

instance Lasting.decidable (i : Nat) (t : Call) (s : Calls) : (q : OrgRequest) →
    (c : (orgWorld lib).Choice q) → Decidable (Lasting i t q c s)
  | .sql q, .ok _ => OrgSql.decidableLasts t s.state.committed q
  | .sql _, .error _ => isTrue trivial
  | .generateKeypair, _ | .sealKeys, _ | .newUuid, _ | .respond _, _ => isTrue trivial

/-! ### What an exchange leaves accounted for -/

theorem Warranted.cons {h : List Event} {r : MemberRow} {e : Event} (hr : Warranted h r)
    (he : ¬ removes r.organizationId r.memberId e) :
  Warranted (e :: h) r
  := by
  obtain ⟨organizationId, memberId, role, acceptedAt⟩ := r
  cases role with
  | owner =>
      cases acceptedAt with
      | none => exact hr
      | some time => exact Past.Since.cons hr he
  | recruiter =>
      cases acceptedAt with
      | none => exact Past.Since.cons hr he
      | some time => exact Past.Since.cons hr he

/-- An event leaves the memberships accounted for, and every organisation its owner. -/
def Upholds (h : List Event) (db : Db) (e : Event) : Prop :=
  (∀ r ∈ db.organizationMembers, Warranted (e :: h) r) ∧ db.Led

theorem upholds_of_same {h : List Event} {db : Db} {e : Event}
    (hw : ∀ r ∈ db.organizationMembers, Warranted h r) (hled : db.Led)
    (he : ∀ o m, ¬ removes o m e) :
  Upholds h db e
  := ⟨fun r hr => (hw r hr).cons (he _ _), hled⟩

theorem accepted_of_warranted {h : List Event} {db : Db}
    (hdb : ∀ r ∈ db.organizationMembers, Warranted h r) :
  db.OwnersAccepted
  := by
  intro r hr howner
  have hwarranted := hdb r hr
  obtain ⟨organizationId, memberId, role, acceptedAt⟩ := r
  obtain rfl := howner
  cases acceptedAt with
  | none => cases hwarranted
  | some time => rfl

/-- A transaction that makes an owner was told so. -/
theorem insertOwner_of_phase {l : List Orgs.Exchange} {e : Enrolling} {r : MemberRow}
    (h : Phase.of l = .underWay e) (hr : .member r ∈ e.writes) :
  ∃ tx, ⟨.sql (.insertOwner tx r.organizationId r.memberId), .ok ()⟩ ∈ l
  := by
  induction l generalizing e with
  | nil => cases h
  | cons x l ih =>
      rcases Phase.next_member h hr with ⟨e', hbefore, hr'⟩ | ⟨tx, rfl⟩
      · obtain ⟨tx, hmem⟩ := ih hbefore hr'
        exact ⟨tx, List.mem_cons_of_mem _ hmem⟩
      · exact ⟨tx, List.mem_cons_self⟩

/-- The rows of an actor are one. -/
theorem eq_of_id {db : Db} {a b : ActorRow} (ha : a ∈ db.actors) (hb : b ∈ db.actors)
    (h : a.id = b.id) :
  a = b
  := Table.eq_of_not_apart ha hb fun hapart => hapart.1 h

theorem eq_of_member {db : Db} {r r' : MemberRow} (hr : r ∈ db.organizationMembers)
    (hr' : r' ∈ db.organizationMembers) (horg : r.organizationId = r'.organizationId)
    (hmember : r.memberId = r'.memberId) :
  r = r'
  := Table.eq_of_not_apart hr hr' fun hapart => hapart (Prod.ext horg hmember)

section Led

variable {db : Db} {organizationId memberId id : Uuid} {now : DateTime}

/-- More members leave every organisation its owner. -/
theorem Db.Led.of_members {db' : Db} (h : db.Led) (hactors : db'.actors = db.actors)
    (hmembers : ∀ r ∈ db.organizationMembers, r.role = .owner → r.acceptedAt.isSome = true →
      r ∈ db'.organizationMembers) :
  db'.Led
  := by
  intro a ha hstands
  rw [hactors] at ha
  obtain ⟨r, hr, horg, howner, haccepted, b, hb, hid, halive⟩ := h a ha hstands
  refine ⟨r, hmembers r hr howner haccepted, horg, howner, haccepted, b, ?_, hid, halive⟩
  rw [hactors]
  exact hb

theorem led_invite {db' : Db} (h : db.Led) (hinvite : db.invite organizationId memberId = some db') :
  db'.Led
  := by
  obtain ⟨hrows, hactors, _⟩ := insertMember_eq_some hinvite
  apply h.of_members hactors
  intro r hr _ _
  rw [← Table.mem_rows, hrows]
  exact List.mem_cons_of_mem _ hr

theorem led_accept (h : db.Led) :
  (db.accept organizationId memberId now).Led
  := by
  have hactors : (db.accept organizationId memberId now).actors = db.actors := rfl
  apply h.of_members hactors
  intro r hr _ haccepted
  have hnot : ¬ Db.isOutstanding organizationId memberId r = true := by
    simp [Db.isOutstanding, Option.isNone_eq_false_iff.mpr haccepted]
  exact List.mem_map.mpr ⟨r, hr, if_neg hnot⟩

theorem led_removeMember (h : db.Led) :
  (db.removeMember organizationId memberId).Led
  := by
  have hactors : (db.removeMember organizationId memberId).actors = db.actors := rfl
  apply h.of_members hactors
  intro r hr howner _
  apply Table.mem_delete.mpr
  simp [hr, Db.isRemovable, howner]

theorem led_tombstone (h : db.Led)
    (hlasting : ∀ r ∈ db.organizationMembers.rows, r.memberId = id → r.role = .owner →
      ∀ a ∈ db.actors.rows, a.id = r.organizationId → a.id ≠ id → ¬ a.Stands) :
  (db.tombstone id now).Led
  := by
  intro a ha hstands
  -- what still stands is not what is erased
  have hother : a ∈ db.actors ∧ a.id ≠ id := by
    obtain ⟨a', ha', rfl⟩ := List.mem_map.mp ha
    split at hstands
    · cases hstands.2.2
    · rename_i hne
      rw [if_neg hne]
      exact ⟨ha', fun hid => hne (beq_iff_eq.mpr hid)⟩
  obtain ⟨r, hr, horg, howner, haccepted, b, hb, hid, halive⟩ := h a hother.1 hstands
  have hne : b.id ≠ id := by
    intro hb
    exact hlasting r hr (hid.symm.trans hb) howner a hother.1 horg.symm hother.2 hstands
  refine ⟨r, hr, horg, howner, haccepted, b, ?_, hid, halive⟩
  exact List.mem_map.mpr ⟨b, hb, if_neg fun hbid => hne (beq_iff_eq.mp hbid)⟩

theorem led_deleteActor (h : db.Led) {x : ActorRow} (hx : x ∈ db.actors) (hid : x.id = id)
    (herased : x.erasedAt.isSome = true) :
  (db.deleteActor id).Led
  := by
  intro a ha hstands
  obtain ⟨ha, hne⟩ := Table.mem_delete.mp ha
  obtain ⟨r, hr, horg, howner, haccepted, b, hb, hmember, halive⟩ := h a ha hstands
  -- who has not been erased is not the one that is purged
  have hb' : b.id ≠ id := by
    intro hbid
    obtain rfl := eq_of_id hb hx (hbid.trans hid.symm)
    rw [halive] at herased
    cases herased
  refine ⟨r, Table.mem_delete.mpr ⟨hr, ?_⟩, horg, howner, haccepted, b,
    Table.mem_delete.mpr ⟨hb, ?_⟩, hmember, halive⟩
  · rw [horg, ← hmember]
    simp only [beq_eq_false_iff_ne.mpr hb', Bool.or_false]
    exact hne
  · exact beq_eq_false_iff_ne.mpr hb'

theorem led_founds {o : Uuid} {db' : Db} (h : db.Led) (hfounds : Founds id o now db db')
    (hlasting : ∀ b ∈ db.actors.rows, b.id = o → b.erasedAt = none) :
  db'.Led
  := by
  intro a ha hstands
  by_cases hid : a.id = id
  · -- the new organisation
    obtain ⟨b, hb, howner⟩ := hfounds.owner
    refine ⟨⟨id, o, .owner, some now⟩, ?_, hid.symm, rfl, rfl, b, hb, howner, ?_⟩
    · rw [← Table.mem_rows, hfounds.members]
      exact List.mem_cons_self
    · apply Classical.byContradiction
      intro herased
      obtain ⟨b', hb', hid', herased'⟩ := hfounds.erased b hb herased
      exact herased' (hlasting b' hb' (hid'.trans howner))
  · obtain ⟨r, hr, horg, howner, haccepted, b, hb, hmember, halive⟩ :=
      h a (hfounds.others a ha hid) hstands
    obtain ⟨b', hb', hid', herased'⟩ := hfounds.kept b hb
    refine ⟨r, ?_, horg, howner, haccepted, b', hb', hid'.trans hmember, herased'.trans halive⟩
    rw [← Table.mem_rows, hfounds.members]
    exact List.mem_cons_of_mem _ hr

end Led

/-! ### What the statements leave -/

/-- Who has been told to be the owner of an organisation has enrolled it. -/
def RolesWarranted (h : List Event) : Prop :=
  ∀ i organizationId ownerId,
    ⟨.sql (.memberRole organizationId ownerId), .ok (some .owner)⟩ ∈
        Interface.History.trace h i →
      Past.Once (Enrolled organizationId ownerId) h

section Statements

variable {h : List Event} {s : Registry} {i : Nat} {t : Call}

theorem upholds_invite {organizationId memberId : Uuid}
    (hasked : Asked t (Interface.History.trace h i) (.sql (.invite organizationId memberId)))
    (hroles : RolesWarranted h) (hw : ∀ r ∈ s.committed.organizationMembers, Warranted h r)
    (hled : s.committed.Led) :
  Upholds h (OrgSql.exec lib (.invite organizationId memberId) s).2.committed
    ⟨i, t, .sql (.invite organizationId memberId),
      (OrgSql.exec lib (.invite organizationId memberId) s).1⟩
  := by
  simp only [OrgSql.exec]
  split
  · exact upholds_of_same hw hled fun _ _ => id
  split
  · exact upholds_of_same hw hled fun _ _ => id
  · rename_i db hinvite
    obtain ⟨hrows, _⟩ := insertMember_eq_some hinvite
    refine ⟨fun r hr => ?_, led_invite hled hinvite⟩
    rw [← Table.mem_rows] at hr
    change r ∈ db.organizationMembers.rows at hr
    rw [hrows] at hr
    rcases List.mem_cons.mp hr with rfl | hr
    · -- the new membership
      obtain ⟨inviter, username, htask, hmay⟩ := hasked
      apply Past.since_of_now
      refine ⟨inviter, username, htask, rfl, ?_⟩
      rcases hmay with hself | hmem
      · exact .inl hself
      · exact .inr ⟨hmem, hroles i _ _ hmem⟩
    · exact (hw r hr).cons id

theorem upholds_accept {organizationId memberId : Uuid}
    (hasked : Asked t (Interface.History.trace h i) (.sql (.accept organizationId memberId)))
    (hw : ∀ r ∈ s.committed.organizationMembers, Warranted h r) (hled : s.committed.Led) :
  Upholds h (OrgSql.exec lib (.accept organizationId memberId) s).2.committed
    ⟨i, t, .sql (.accept organizationId memberId),
      (OrgSql.exec lib (.accept organizationId memberId) s).1⟩
  := by
  refine ⟨fun r hr => ?_, led_accept hled⟩
  obtain ⟨r', hr', rfl⟩ := List.mem_map.mp hr
  have hwarranted := hw r' hr'
  split
  · rename_i hout
    have hsome : 0 < s.committed.organizationMembers.rows.countP
        (Db.isOutstanding organizationId memberId) :=
      List.countP_pos_iff.mpr ⟨r', hr', hout⟩
    obtain ⟨o, m, role, acceptedAt⟩ := r'
    simp only [Db.isOutstanding, Bool.and_eq_true, beq_iff_eq, Option.isNone_iff_eq_none] at hout
    obtain ⟨⟨rfl, rfl⟩, rfl⟩ := hout
    cases role with
    | owner => cases hwarranted
    | recruiter =>
        apply Past.since_of_now
        exact ⟨⟨hasked, _, hsome, rfl⟩, hwarranted⟩
  · exact hwarranted.cons id

theorem upholds_removeMember {organizationId memberId : Uuid}
    (hw : ∀ r ∈ s.committed.organizationMembers, Warranted h r) (hled : s.committed.Led) :
  Upholds h (OrgSql.exec lib (.removeMember organizationId memberId) s).2.committed
    ⟨i, t, .sql (.removeMember organizationId memberId),
      (OrgSql.exec lib (.removeMember organizationId memberId) s).1⟩
  := by
  refine ⟨fun r hr => ?_, led_removeMember hled⟩
  obtain ⟨hr, hkept⟩ := Table.mem_delete.mp hr
  apply (hw r hr).cons
  rintro ⟨hpos, horg, hmember⟩
  -- what is removed is the same membership
  obtain ⟨r', hr', hremovable⟩ := List.countP_pos_iff.mp hpos
  have hkey := hremovable
  simp only [Db.isRemovable, Bool.and_eq_true, beq_iff_eq] at hkey
  obtain rfl : r' = r := eq_of_member hr' hr (hkey.1.1.trans horg) (hkey.1.2.trans hmember)
  rw [hremovable] at hkept
  cases hkept

theorem upholds_purge {id : Uuid} (hw : ∀ r ∈ s.committed.organizationMembers, Warranted h r)
    (hled : s.committed.Led) :
  Upholds h (OrgSql.exec lib (.purge id) s).2.committed
    ⟨i, t, .sql (.purge id), (OrgSql.exec lib (.purge id) s).1⟩
  := by
  simp only [OrgSql.exec]
  split
  · rename_i hany
    obtain ⟨x, hx, hpurged⟩ := List.any_eq_true.mp hany
    simp only [Bool.and_eq_true, beq_iff_eq] at hpurged
    refine ⟨fun r hr => ?_, led_deleteActor hled hx hpurged.1 hpurged.2⟩
    obtain ⟨hr, hkept⟩ := Table.mem_delete.mp hr
    simp only [Bool.or_eq_false_iff, beq_eq_false_iff_ne] at hkept
    apply (hw r hr).cons
    rintro ⟨_, rfl | rfl⟩
    · exact hkept.1 rfl
    · exact hkept.2 rfl
  · apply upholds_of_same hw hled
    rintro o m ⟨hpos, _⟩
    exact Nat.lt_irrefl 0 hpos

theorem upholds_commit {tx : Nat} (hφ : (Phase.of (Interface.History.trace h i)).Fits lib s)
    (hasked : Asked t (Interface.History.trace h i) (.sql (.commit tx)))
    (hlasts : (OrgSql.commit tx).Lasts t s.committed)
    (hw : ∀ r ∈ s.committed.organizationMembers, Warranted h r) (hled : s.committed.Led) :
  Upholds h (OrgSql.exec lib (.commit tx) s).2.committed
    ⟨i, t, .sql (.commit tx), (OrgSql.exec lib (.commit tx) s).1⟩
  := by
  simp only [OrgSql.exec]
  split
  · exact upholds_of_same hw hled fun _ _ => id
  · rename_i s' hcommit
    obtain ⟨o, e, policy, ho, hphase, he⟩ := hasked
    rw [hphase] at hφ
    obtain ⟨_, _, ⟨id', hmember, hfounds⟩, _⟩ := of_commit hφ he hcommit
    constructor
    · intro r hr
      rw [← Table.mem_rows] at hr
      change r ∈ s'.committed.organizationMembers.rows at hr
      rw [hfounds.members] at hr
      rcases List.mem_cons.mp hr with rfl | hr
      · -- the owner
        apply Past.since_of_now
        exact ⟨ho, ⟨tx, rfl⟩, insertOwner_of_phase hphase hmember⟩
      · exact (hw r hr).cons id
    · apply led_founds hled hfounds
      rintro b hb rfl
      exact hlasts b hb ho

theorem upholds_exec (q : OrgSql) (hφ : (Phase.of (Interface.History.trace h i)).Fits lib s)
    (hasked : Asked t (Interface.History.trace h i) (.sql q)) (hlasts : q.Lasts t s.committed)
    (hroles : RolesWarranted h) (hw : ∀ r ∈ s.committed.organizationMembers, Warranted h r)
    (hled : s.committed.Led) :
  Upholds h (q.exec lib s).2.committed ⟨i, t, .sql q, (q.exec lib s).1⟩
  := by
  have hsame : (∀ o m, ¬ removes o m ⟨i, t, .sql q, (q.exec lib s).1⟩) →
      (q.exec lib s).2.committed = s.committed →
        Upholds h (q.exec lib s).2.committed ⟨i, t, .sql q, (q.exec lib s).1⟩ := by
    intro hnot hcommitted
    rw [hcommitted]
    exact upholds_of_same hw hled hnot
  cases q with
  | invite organizationId memberId => exact upholds_invite hasked hroles hw hled
  | accept organizationId memberId => exact upholds_accept hasked hw hled
  | removeMember organizationId memberId => exact upholds_removeMember hw hled
  | purge id => exact upholds_purge hw hled
  | commit tx => exact upholds_commit hφ hasked hlasts hw hled
  | tombstone actorId =>
      exact ⟨fun r hr => (hw r hr).cons id, led_tombstone hled hlasts⟩
  | lock tx o =>
      apply hsame (fun _ _ => id)
      simp only [OrgSql.exec]
      split
      · rfl
      · rename_i s' hwrite
        exact (Store.wrote_of_write hwrite).committed
  | settings tx => exact hsame (fun _ _ => id) (readIn_committed _ _ _)
  | held tx o => exact hsame (fun _ _ => id) (readIn_committed _ _ _)
  | enrolmentsWithin tx o interval => exact hsame (fun _ _ => id) (readIn_committed _ _ _)
  | createActor tx row => exact hsame (fun _ _ => id) (writeIn_committed _ _ _ _)
  | setClaimedDomain tx id' domain => exact hsame (fun _ _ => id) (writeIn_committed _ _ _ _)
  | setOrgKind tx id' kind => exact hsame (fun _ _ => id) (writeIn_committed _ _ _ _)
  | insertOwner tx id' o => exact hsame (fun _ _ => id) (writeIn_committed _ _ _ _)
  | insertEnrolment tx o id' => exact hsame (fun _ _ => id) (writeIn_committed _ _ _ _)
  | viewer id' => exact hsame (fun _ _ => id) rfl
  | usernameTaken domain username => exact hsame (fun _ _ => id) rfl
  | begin => exact hsame (fun _ _ => id) rfl
  | rollback tx => exact hsame (fun _ _ => id) rfl
  | findLocalByUsername username => exact hsame (fun _ _ => id) rfl
  | memberRole organizationId memberId => exact hsame (fun _ _ => id) rfl
  | findById id' => exact hsame (fun _ _ => id) rfl

end Statements

/-! ### Runs -/

/-- The memberships are accounted for, every organisation has its owner, and the calls are in
phases that fit. -/
structure Upheld (lib : OrgLibrary) (s : Calls) : Prop where
  compatible : Compatible (Phase.Fits lib) Phase.Apart s.state (s.phases .start Phase.next)
  warranted : ∀ r ∈ s.state.committed.organizationMembers, Warranted s.history r
  led : s.state.committed.Led
  roles : RolesWarranted s.history

section Steps

variable {s : Calls} {i : Nat} {t : Call} {q : OrgRequest}
  {k : Orgs.Answer q → Program Orgs Unit} {c : (orgWorld lib).Choice q}

/-- An actor is told to be the owner of an organisation only if it has enrolled it. -/
theorem enrolled_of_owner {organizationId ownerId : Uuid} (hs : Upheld lib s)
    (hx : (⟨q, ((orgWorld lib).exec q c s.state).1⟩ : Orgs.Exchange) =
      ⟨.sql (.memberRole organizationId ownerId), .ok (some .owner)⟩) :
  Enrolled organizationId ownerId s.history
  := by
  obtain ⟨rfl, hanswer⟩ := Interface.Exchange.mk.inj hx
  cases c with
  | error e => cases eq_of_heq hanswer
  | ok elapsed =>
      have hrole := Except.ok.inj (eq_of_heq hanswer)
      obtain ⟨r, hfound, howner⟩ := Option.map_eq_some_iff.mp hrole
      have hr : r ∈ s.state.committed.organizationMembers := Table.mem_of_find hfound
      have hsatisfies := Table.satisfies_of_find hfound
      simp only [Bool.and_eq_true, beq_iff_eq] at hsatisfies
      obtain ⟨⟨rfl, rfl⟩, haccepted⟩ := hsatisfies
      have hwarranted := hs.warranted r hr
      obtain ⟨organizationId, memberId, role, acceptedAt⟩ := r
      obtain rfl := howner
      obtain ⟨time, rfl⟩ := Option.isSome_iff_exists.mp haccepted
      exact hwarranted

theorem roles_exchange (hs : Upheld lib s) :
  RolesWarranted (s.exchange (orgWorld lib) i t q k c).history
  := by
  intro j organizationId ownerId hmem
  apply Past.Since.cons _ id
  by_cases hij : i = j
  · subst hij
    rw [Pool.trace_exchange_same] at hmem
    rcases List.mem_cons.mp hmem with hx | hmem
    · exact Past.since_of_now (enrolled_of_owner hs hx.symm)
    · exact hs.roles i organizationId ownerId hmem
  · rw [Pool.trace_exchange_other hij] at hmem
    exact hs.roles j organizationId ownerId hmem

theorem upheld_exchange (hs : Upheld lib s) (hasked : Asked t (s.history.trace i) q)
    (hlasting : @Lasting lib i t q c s) :
  Upheld lib (s.exchange (orgWorld lib) i t q k c)
  := by
  have hφ : (Phase.of (s.history.trace i)).Fits lib s.state := hs.compatible.fits i
  have hupholds : Upholds s.history ((orgWorld lib).exec q c s.state).2.committed
      ⟨i, t, q, ((orgWorld lib).exec q c s.state).1⟩ := by
    cases q with
    | sql q =>
        cases c with
        | error e =>
            have hsame : (q.fail s.state).committed = s.state.committed := by
              cases q <;> rfl
            change Upholds s.history (q.fail s.state).committed ⟨i, t, .sql q, .error e⟩
            rw [hsame]
            apply upholds_of_same hs.warranted hs.led
            intro o m
            cases q <;> exact id
        | ok elapsed =>
            exact upholds_exec q (later_fits elapsed hφ) hasked hlasting hs.roles hs.warranted hs.led
    | generateKeypair => exact upholds_of_same hs.warranted hs.led fun _ _ => id
    | sealKeys => exact upholds_of_same hs.warranted hs.led fun _ _ => id
    | newUuid => exact upholds_of_same hs.warranted hs.led fun _ _ => id
    | respond r => exact upholds_of_same hs.warranted hs.led fun _ _ => id
  constructor
  · exact compatible_exchange hs.compatible (accepted_of_warranted hs.warranted) hasked
  · exact hupholds.1
  · exact hupholds.2
  · exact roles_exchange hs

end Steps

/-- Before the first organisation, in every run in which no account is erased that is the owner of
one, and none that is erased enrols one: every accepted membership was made by an enrolment, or by
an invitation of an owner that the member itself has accepted, and was not removed in between;
only an enrolment makes an owner; and every organisation that has not been dissolved has an
accepted owner that has not been erased. -/
theorem standing_upheld (lib : OrgLibrary) (db : Db) (clock : DateTime)
    (hmembers : db.organizationMembers.rows = []) (hnone : ∀ a ∈ db.actors, ¬ a.Stands) (s : Calls)
    (hreach : Reaches (orgWorld lib) (Call.program lib) Lasting (.initial (.initial db clock)) s) :
  (∀ r ∈ s.state.committed.organizationMembers, r.acceptedAt.isSome = true →
      Enrolled r.organizationId r.memberId s.history ∨
        Joined r.organizationId r.memberId s.history) ∧
    (∀ r ∈ s.state.committed.organizationMembers, r.role = .owner →
      Enrolled r.organizationId r.memberId s.history) ∧
    ∀ a ∈ s.state.committed.actors, a.Stands →
      ∃ r ∈ s.state.committed.organizationMembers, s.state.committed.LedBy a.id r
  := by
  have hinv : s.Disciplined Asked ∧ Upheld lib s := by
    apply Step.inv (Upheld lib) asks_program _ _ (Pool.initial_disciplined _ _) _ hreach
    · intro s t hs
      exact ⟨hs.compatible, hs.warranted, hs.led, hs.roles⟩
    · intro s i t q k c _ hs _ hasked hlasting
      exact upheld_exchange hs hasked hlasting
    · constructor
      · constructor
        · intro i
          trivial
        · rintro i j _ tx ⟨⟩
      · intro r hr
        rw [← Table.mem_rows] at hr
        change r ∈ db.organizationMembers.rows at hr
        rw [hmembers] at hr
        cases hr
      · intro a ha hstands
        exact absurd hstands (hnone a ha)
      · intro i o m hmem
        cases hmem
  obtain ⟨_, _, hwarranted, hled, _⟩ := hinv
  refine ⟨?_, ?_, hled⟩
  · rintro ⟨o, m, role, acceptedAt⟩ hr haccepted
    obtain ⟨time, rfl⟩ := Option.isSome_iff_exists.mp haccepted
    have hr' := hwarranted _ hr
    cases role with
    | owner => exact .inl hr'
    | recruiter => exact .inr hr'
  · rintro ⟨o, m, role, acceptedAt⟩ hr howner
    have hr' := hwarranted _ hr
    obtain rfl := howner
    cases acceptedAt with
    | none => cases hr'
    | some time => exact hr'

/-! ### A founder and a recruit -/

/-- A call, and the number of exchanges that it makes. -/
def calling (i : Nat) (t : Call) (n : Nat) : List (Turn (orgWorld plainLibrary) Call) :=
  .start t :: List.replicate n (.exchange i (granting 3))

/-- A recruiter of an organisation was invited by the actor that has enrolled it, and has
accepted. -/
theorem standing_upheld_bob :
  ∃ s : Calls, Reaches (orgWorld plainLibrary) (Call.program plainLibrary) Lasting
      (.initial (.initial founders 0)) s ∧
    s.state.committed.organizationMembers.rows =
      [⟨3, 2, .recruiter, some 0⟩, ⟨3, 1, .owner, some 0⟩] ∧
    ∀ r ∈ s.state.committed.organizationMembers, r.role = .owner →
      Enrolled r.organizationId r.memberId s.history
  := by
  have hplayed : (((Pool.initial (.initial founders 0)).play (orgWorld plainLibrary)
      (Call.program plainLibrary) Lasting (enrolling 0 1 3 16 ++
        calling 1 (.invite 3 (some 1) "bob") 5 ++ calling 2 (.accept 3 (some 2)) 3)).map fun s =>
          s.state.committed.organizationMembers.rows) =
            some [⟨3, 2, .recruiter, some 0⟩, ⟨3, 1, .owner, some 0⟩] := by
    decide +kernel
  obtain ⟨s, hs, hrows⟩ := Option.map_eq_some_iff.mp hplayed
  have hreach := Pool.reaches_of_play _ _ _ hs
  refine ⟨s, hreach, hrows, ?_⟩
  have hnone : ∀ a ∈ founders.actors.rows, ¬ a.Stands := by
    decide
  exact (standing_upheld plainLibrary founders 0 rfl hnone s hreach).2.1

/-- Whoever has enrolled an organisation can have its account erased, and leaves the organisation
without an owner. -/
theorem standing_lost :
  ∃ s : Calls, Runs plainLibrary (.initial (.initial founders 0)) s ∧
    ∃ a ∈ s.state.committed.actors.rows, a.Stands ∧
      ∀ r ∈ s.state.committed.organizationMembers.rows, ¬ s.state.committed.LedBy a.id r
  := by
  have hplayed : (((Pool.initial (.initial founders 0)).play (orgWorld plainLibrary)
      (Call.program plainLibrary) (fun _ _ _ _ _ => True) (enrolling 0 1 3 16 ++
        calling 1 (.deleteActor (some 1) "alice") 5)).map fun s =>
          decide (∃ a ∈ s.state.committed.actors.rows, a.Stands ∧
            ∀ r ∈ s.state.committed.organizationMembers.rows,
              ¬ s.state.committed.LedBy a.id r)) = some true := by
    decide +kernel
  obtain ⟨s, hs, hlost⟩ := Option.map_eq_some_iff.mp hplayed
  exact ⟨s, Pool.reaches_of_play _ _ _ hs, of_decide_eq_true hlost⟩

end Organizations
