import Noombat.Identity.Roles

/-!
# The last administrator

There is always an active administrator, and every role is changed by an administrator, if

* nothing takes the role of an administrator, or the standing of one who demotes another, while
  the administrator's own request is under way,
* an account is suspended, erased or removed only while there is another active administrator,
  if it is one itself,
* no suspended administrator demotes anybody.

The program checks none of these.  The number of administrators is counted in a statement of its
own before the role is written, with those that are suspended; and a suspension or an erasure
counts nobody.
-/

namespace Roles

open Federation (Uuid DateTime NoombatError)
open Identity (InstanceRole)
open Erasure (ActorStatus)
open Fallible Program

abbrev Requests : Type :=
  Pool Accounts Call Db

/-! ### What the requests ask -/

/-- The administrator that is to change a role, and the role that is to be given. -/
def Call.changes : Call → Option (Uuid × InstanceRole)
  | setUserRole (some a) _ role => some (a, role)
  | _ => none

/-- A request was found to be of an administrator. -/
def Authenticated (a : Uuid) (l : List Accounts.Exchange) : Prop :=
  ∃ status, ⟨.viewer a, .ok (some (.admin, status))⟩ ∈ l

theorem Authenticated.cons {a : Uuid} {l : List Accounts.Exchange} (h : Authenticated a l)
    (x : Accounts.Exchange) :
  Authenticated a (x :: l)
  := by
  obtain ⟨status, hmem⟩ := h
  exact ⟨status, List.mem_cons_of_mem x hmem⟩

/-- What the exchanges of a request are, when it asks something. -/
def Asked (t : Call) (l : List Accounts.Exchange) : RoleSql → Prop
  | .viewer id => ∀ a role, t.changes = some (a, role) → id = a
  | .setInstanceRole id role => ∃ a, t.changes = some (a, role) ∧ id ≠ a ∧ Authenticated a l
  | _ => True

/-- A request that changes no role. -/
def RoleSql.KeepsRoles : RoleSql → Prop
  | .setInstanceRole _ _ => False
  | _ => True

theorem every_sql {q : RoleSql} (h : q.KeepsRoles) :
  Every RoleSql.KeepsRoles (sql q).run
  := (every_run_ask q).mpr h

theorem every_resolveViewer (token : Option Uuid) :
  Every RoleSql.KeepsRoles (resolveViewer token).run
  := by
  cases token with
  | none => apply every_run_pure
  | some id =>
      apply every_run_bind
      · rw [run_unwrapOr]
        apply every_bind
        · apply every_sql (by trivial)
        · intro r
          apply every_done
      · intro row
        apply every_run_pure

theorem every_findById (id : Uuid) :
  Every RoleSql.KeepsRoles (findById id).run
  := by
  apply every_run_bind (every_sql (by trivial))
  intro row
  cases row with
  | none => apply every_run_throw
  | some actor => apply every_run_pure

theorem every_findLocalByUsername (username : String) :
  Every RoleSql.KeepsRoles (findLocalByUsername username).run
  := by
  apply every_run_bind (every_sql (by trivial))
  intro row
  cases row with
  | none => apply every_run_throw
  | some actor => apply every_run_pure

theorem every_moderate (token : Option Uuid) (actorId : Uuid) (status : ActorStatus) :
  Every RoleSql.KeepsRoles (moderate token actorId status).run
  := by
  apply every_run_bind (every_resolveViewer token)
  intro viewer
  apply every_run_bind (every_run_ofExcept _)
  intro moderator
  apply every_run_bind
  · apply every_run_bind (every_sql (by trivial))
    intro affected
    split
    · apply every_run_throw
    · apply every_findById
  · intro actor
    apply every_run_pure

theorem every_requestDeletion (token : Option Uuid) :
  Every RoleSql.KeepsRoles (requestDeletion token).run
  := by
  apply every_run_bind (every_resolveViewer token)
  intro viewer
  apply every_run_bind (every_run_ofExcept _)
  intro actorId
  apply every_run_bind (every_sql (by trivial))
  intro existing
  cases existing with
  | none => apply every_run_throw
  | some requested =>
      cases requested with
      | none => apply every_sql (by trivial)
      | some time => apply every_run_throw

theorem every_cancelDeletion (token : Option Uuid) :
  Every RoleSql.KeepsRoles (cancelDeletion token).run
  := by
  apply every_run_bind (every_resolveViewer token)
  intro viewer
  apply every_run_bind (every_run_ofExcept _)
  intro actorId
  apply every_run_bind (every_sql (by trivial))
  intro affected
  split
  · apply every_run_throw
  · apply every_run_pure

theorem every_eraseActor (actorId : Uuid) :
  Every RoleSql.KeepsRoles (eraseActor actorId).run
  := by
  apply every_run_bind
  · apply every_run_bind (every_findById actorId)
    intro actor
    split
    · apply every_sql (by trivial)
    · apply every_run_throw
  · intro _
    apply every_sql (by trivial)

theorem every_deleteActorHandler (token : Option Uuid) (username : String) :
  Every RoleSql.KeepsRoles (deleteActorHandler token username).run
  := by
  apply every_run_bind (every_resolveViewer token)
  intro viewer
  apply every_run_bind (every_findLocalByUsername username)
  intro actor
  apply every_run_bind
  · apply every_run_bind (every_run_ofExcept _)
    intro actorId
    split
    · apply every_run_pure
    · apply every_run_bind (every_sql (by trivial))
      intro role
      cases role with
      | none => apply every_run_throw
      | some role => apply every_run_pure
  · intro role
    split
    · apply every_run_throw
    · apply every_eraseActor

theorem every_eraseAll (ids : List Uuid) :
  Every RoleSql.KeepsRoles (eraseAll ids).run
  := by
  induction ids with
  | nil => apply every_run_pure
  | cons id ids ih =>
      apply every_run_bind (every_run_attempt (every_eraseActor id))
      intro _
      exact ih

theorem every_purgeAll (ids : List Uuid) :
  Every RoleSql.KeepsRoles (purgeAll ids).run
  := by
  induction ids with
  | nil => apply every_run_pure
  | cons id ids ih =>
      apply every_run_bind
      · apply every_run_attempt
        apply every_run_bind (every_sql (by trivial))
        intro affected
        split
        · apply every_run_throw
        · apply every_run_pure
      · intro _
        exact ih

/-- Only one kind of request changes roles. -/
theorem every_handler {t : Call} (h : ∀ token username role, t ≠ .setUserRole token username role) :
  Every RoleSql.KeepsRoles t.handler.run
  := by
  cases t with
  | setUserRole token username role => exact absurd rfl (h token username role)
  | suspend token actorId => apply every_moderate
  | unsuspend token actorId => apply every_moderate
  | silence token actorId => apply every_moderate
  | requestDeletion token => apply every_requestDeletion
  | cancelDeletion token => apply every_cancelDeletion
  | deleteActor token username => apply every_deleteActorHandler
  | sweep graceDays => exact every_run_bind (every_sql (by trivial)) every_eraseAll
  | purgeRetained => exact every_run_bind (every_sql (by trivial)) every_purgeAll

theorem asks_setUserRole (token : Option Uuid) (username : String) (role : InstanceRole) :
  Asks (Asked (.setUserRole token username role)) (fun _ _ => True)
    (setUserRole token username role).run []
  := by
  cases token with
  | none =>
      rw [setUserRole, asks_run_bind, resolveViewer, asks_run_pure, onExcept_ok, asks_run_bind,
        asks_run_ofExcept]
      trivial
  | some a =>
      have hset : ∀ (target : Uuid) (l : List Accounts.Exchange), target ≠ a →
          Authenticated a l → Asks (Asked (.setUserRole (some a) username role)) (fun _ _ => True)
            (setInstanceRole target role).run l := by
        intro target l htarget hl
        rw [setInstanceRole, asks_run_bind]
        apply (asks_run_ask (RoleSql.setInstanceRole target role) _ l).mpr
        constructor
        · exact ⟨a, rfl, htarget, hl⟩
        rintro (e | affected)
        · trivial
        rw [onExcept_ok]
        split
        · rw [asks_run_throw]
          trivial
        · rw [asks_run_pure]
          trivial
      rw [setUserRole, asks_run_bind, resolveViewer, asks_run_bind, asks_run_unwrapOr]
      apply (asks_run_ask (RoleSql.viewer a) _ []).mpr
      constructor
      · rintro a' role' ⟨⟩
        rfl
      intro answer
      rw [onExcept_ok, asks_run_pure, onExcept_ok, asks_run_bind, asks_run_ofExcept]
      cases hanswer : answer.toOption.getD none with
      | none => trivial
      | some row =>
          obtain ⟨r, status⟩ := row
          obtain rfl : answer = .ok (some (r, status)) := by
            cases answer with
            | error e => cases hanswer
            | ok row => exact congrArg _ hanswer
          cases r with
          | user => trivial
          | moderator => trivial
          | admin =>
              have hl : Authenticated a [⟨.viewer a, .ok (some (.admin, status))⟩] :=
                ⟨status, List.mem_singleton_self _⟩
              simp only [Option.map_some, requireAdminApi, mayAdminister, if_true, onExcept_ok]
              rw [asks_run_bind, findLocalByUsername, asks_run_bind]
              apply (asks_run_ask (RoleSql.findLocalByUsername username) _ _).mpr
              constructor
              · trivial
              rintro (e | row)
              · trivial
              cases row with
              | none => trivial
              | some target =>
                  rw [onExcept_ok, asks_run_pure, onExcept_ok]
                  split
                  · rw [asks_run_throw]
                    trivial
                  · rename_i hne
                    split
                    · rw [asks_run_bind]
                      apply (asks_run_ask RoleSql.countAdmins _ _).mpr
                      constructor
                      · trivial
                      rintro (e | admins)
                      · trivial
                      rw [onExcept_ok]
                      split
                      · rw [asks_run_throw]
                        trivial
                      · apply hset target.id _ (Ne.symm hne) ((hl.cons _).cons _)
                    · apply hset target.id _ (Ne.symm hne) (hl.cons _)

theorem asks_program (t : Call) :
  Asks (Asked t) (fun _ _ => True) t.program []
  := by
  have hother : (∀ token username role, t ≠ .setUserRole token username role) →
      Asks (Asked t) (fun _ _ => True) t.handler.run [] := by
    intro h
    have hchanges : t.changes = none := by
      cases t with
      | setUserRole token username role => exact absurd rfl (h token username role)
      | _ => rfl
    apply Every.asks (fun _ => True) _ (every_handler h) trivial
    intro q l hq _
    constructor
    · cases q with
      | viewer id =>
          intro a role ha
          rw [hchanges] at ha
          cases ha
      | setInstanceRole id role => cases hq
      | _ => trivial
    · intro r
      trivial
  rw [Call.program, asks_bind]
  cases t with
  | setUserRole token username role => apply asks_setUserRole
  | _ =>
      apply hother
      rintro _ _ _ ⟨⟩

/-! ### What a statement takes away -/

/-- The actor that a statement takes the role of an administrator from, if it has that. -/
def RoleSql.takesRole : RoleSql → Option Uuid
  | .setInstanceRole id role => if role = .admin then none else some id
  | .purge id => some id
  | _ => none

/-- The actor that a statement makes inactive, or removes. -/
def RoleSql.takesStatus : RoleSql → Option Uuid
  | .setActorStatus id status => if isActive status then none else some id
  | .tombstone id => some id
  | .purge id => some id
  | _ => none

/-- A row that is as good as another: it has its role and, unless that may be taken, its
standing. -/
def KeepsStanding (mayTake : Prop) (r r' : ActorRow) : Prop :=
  r'.id = r.id ∧ r'.isLocal = r.isLocal ∧ (r.instanceRole = .admin → r'.instanceRole = .admin) ∧
    (¬ mayTake → isActive r.actorStatus = true → isActive r'.actorStatus = true)

theorem KeepsStanding.refl (mayTake : Prop) (r : ActorRow) :
  KeepsStanding mayTake r r
  := ⟨rfl, rfl, id, fun _ h => h⟩

theorem exists_updateWhere {mayTake : Prop} {p : ActorRow → Bool} {f : ActorRow → ActorRow}
    {db : Db} {r : ActorRow} (hr : r ∈ db.actors)
    {hf : ∀ r, (f r).id = r.id} (hkeeps : p r = true → KeepsStanding mayTake r (f r)) :
  ∃ r' ∈ (db.updateWhere p f hf).actors, KeepsStanding mayTake r r'
  := by
  refine ⟨if p r then f r else r, List.mem_map.mpr ⟨r, hr, rfl⟩, ?_⟩
  split
  · rename_i hp
    exact hkeeps hp
  · apply KeepsStanding.refl

theorem id_of_isLocalActor {id : Uuid} {r : ActorRow} (h : isLocalActor id r = true) :
  r.id = id
  := by
  simp only [isLocalActor, Bool.and_eq_true, beq_iff_eq] at h
  exact h.1

/-- An actor keeps its role and its standing, unless the statement takes them away. -/
theorem exec_standing (q : RoleSql) (c : roleWorld.Choice q) {db : Db} {r : ActorRow}
    (hr : r ∈ db.actors) (hrole : q.takesRole ≠ some r.id) :
  ∃ r' ∈ (roleWorld.exec q c db).2.actors, KeepsStanding (q.takesStatus = some r.id) r r'
  := by
  have hsame : ∃ r' ∈ db.actors, KeepsStanding (q.takesStatus = some r.id) r r' :=
    ⟨r, hr, KeepsStanding.refl _ r⟩
  cases q with
  | viewer id => exact hsame
  | findLocalByUsername username => exact hsame
  | findById id => exact hsame
  | countAdmins => exact hsame
  | deletionRequestedAt id => exact hsame
  | memberRole organizationId memberId => exact hsame
  | dueForErasure graceDays => exact hsame
  | dueForPurge => exact hsame
  | setInstanceRole id role =>
      cases c with
      | error e => exact hsame
      | ok now =>
          apply exists_updateWhere hr
          · intro hid
            have hadmin : role = .admin := by
              by_contra hne
              exact hrole (by rw [RoleSql.takesRole, if_neg hne, id_of_isLocalActor hid])
            exact ⟨rfl, rfl, fun _ => hadmin, fun _ h => h⟩
          · intro r'
            rfl
  | setActorStatus id status =>
      cases c with
      | error e => exact hsame
      | ok now =>
          apply exists_updateWhere hr
          · intro hid
            refine ⟨rfl, rfl, fun h => h, ?_⟩
            intro hstatus _
            by_contra hinactive
            exact hstatus (by rw [RoleSql.takesStatus, if_neg hinactive, id_of_isLocalActor hid])
          · intro r'
            rfl
  | requestDeletion id =>
      cases c with
      | error e => exact hsame
      | ok now =>
          apply exists_updateWhere hr
          · intro _
            exact ⟨rfl, rfl, fun h => h, fun _ h => h⟩
          · intro r'
            rfl
  | cancelDeletion id =>
      cases c with
      | error e => exact hsame
      | ok now =>
          apply exists_updateWhere hr
          · intro _
            exact ⟨rfl, rfl, fun h => h, fun _ h => h⟩
          · intro r'
            rfl
  | retireRequest id =>
      cases c with
      | error e => exact hsame
      | ok now =>
          apply exists_updateWhere hr
          · intro _
            exact ⟨rfl, rfl, fun h => h, fun _ h => h⟩
          · intro r'
            rfl
  | tombstone id =>
      cases c with
      | error e => exact hsame
      | ok now =>
          apply exists_updateWhere hr
          · intro hid
            refine ⟨rfl, rfl, fun h => h, ?_⟩
            intro hstatus
            exact absurd (congrArg some (beq_iff_eq.mp hid).symm) hstatus
          · intro r'
            rfl
  | purge id =>
      cases c with
      | error e => exact hsame
      | ok now =>
          have hid : r.id ≠ id := fun h => hrole (congrArg some h.symm)
          refine ⟨r, Table.mem_delete.mpr ⟨hr, ?_⟩, KeepsStanding.refl _ r⟩
          simp [hid]

/-! ### The condition -/

/-- A request to change a role is under way, and was found to be of an administrator. -/
def UnderWay (s : Requests) (a : Uuid) (role : InstanceRole) : Prop :=
  ∃ i t q k, s.threads[i]? = some ⟨t, .call q k⟩ ∧ t.changes = some (a, role) ∧
    Authenticated a (s.history.trace i)

/-- No statement takes away the role of an administrator whose request is under way, or the
standing of one who demotes another; no statement but such a request takes away the standing
of the last active administrator; and no suspended administrator demotes another. -/
structure Unhindered (i : Nat) (t : Call) (q : RoleSql) (c : roleWorld.Choice q) (s : Requests) :
    Prop where
  role : ∀ x, q.takesRole = some x → ∀ role, ¬ UnderWay s x role
  status : ∀ x, q.takesStatus = some x → ∀ role, role ≠ .admin → ¬ UnderWay s x role
  last : ∀ x, q.takesStatus = some x →
    ∃ r ∈ s.state.actors, r.id ≠ x ∧ r.isActiveAdmin = true
  demoter : ∀ a role, q = .viewer a → t.changes = some (a, role) → role ≠ .admin →
    ∀ r ∈ s.state.actors, r.id = a → r.isLocal = true → r.instanceRole = .admin →
      isActive r.actorStatus = true

/-! ### The invariant -/

/-- There is an active administrator, and the administrators of the requests under way are
administrators still, active ones if they demote another. -/
structure Seated (s : Requests) : Prop where
  administered : ∃ r ∈ s.state.actors, r.isActiveAdmin = true
  changing : ∀ a role, UnderWay s a role → ∃ r ∈ s.state.actors, r.id = a ∧ r.isLocal = true ∧
    r.instanceRole = .admin ∧ (role ≠ .admin → isActive r.actorStatus = true)

theorem isActiveAdmin_iff {r : ActorRow} :
  r.isActiveAdmin = true ↔
    r.isLocal = true ∧ r.instanceRole = .admin ∧ isActive r.actorStatus = true
  := by
  simp [ActorRow.isActiveAdmin, and_assoc]

variable {s : Requests} {i : Nat} {t : Call} {q : RoleSql}
  {k : Accounts.Answer q → Program Accounts Unit} {c : roleWorld.Choice q}

/-- An active administrator of whom nothing is taken. -/
theorem administered_exec {r : ActorRow} (hr : r ∈ s.state.actors) (hadmin : r.isActiveAdmin = true)
    (hrole : q.takesRole ≠ some r.id) (hstatus : q.takesStatus ≠ some r.id) :
  ∃ r' ∈ (roleWorld.exec q c s.state).2.actors, r'.isActiveAdmin = true
  := by
  obtain ⟨hlocal, hrole', hactive⟩ := isActiveAdmin_iff.mp hadmin
  obtain ⟨r', hr', _, hlocal', hkept, hstill⟩ := exec_standing q c hr hrole
  exact ⟨r', hr', isActiveAdmin_iff.mpr ⟨hlocal' ▸ hlocal, hkept hrole', hstill hstatus hactive⟩⟩

/-- A statement but the change of a role takes the role only from whom it makes inactive. -/
theorem takesRole_eq {x : Uuid} (h : q.takesRole = some x) :
  (∃ role, q = .setInstanceRole x role ∧ role ≠ .admin) ∨ q.takesStatus = some x
  := by
  cases q with
  | setInstanceRole id role =>
      left
      rw [RoleSql.takesRole, Option.ite_none_left_eq_some] at h
      obtain ⟨hne, hid⟩ := h
      obtain rfl := Option.some.inj hid
      exact ⟨role, rfl, hne⟩
  | purge id => exact .inr h
  | _ => cases h

/-- A request that has just started has not been found to be of anybody. -/
theorem seated_start (hdisc : s.Disciplined Asked) (hs : Seated s) (t : Call) :
  Seated { s with threads := s.threads ++ [⟨t, t.program⟩] }
  := by
  constructor
  · exact hs.administered
  · rintro a role ⟨j, t', q, k, hthread, hchanges, hauthenticated⟩
    rcases Nat.lt_or_ge j s.threads.length with hj | hj
    · rw [List.getElem?_append_left hj] at hthread
      exact hs.changing a role ⟨j, t', q, k, hthread, hchanges, hauthenticated⟩
    · obtain ⟨status, hmem⟩ := hauthenticated
      have htrace : s.history.trace j = [] := Step.trace_of_ge hdisc hj
      simp [htrace] at hmem

theorem seated_exchange (hs : Seated s) (hthread : s.threads[i]? = some ⟨t, .call q k⟩)
    (hasked : Asked t (s.history.trace i) q) (hunhindered : Unhindered i t q c s) :
  Seated (s.exchange roleWorld i t q k c)
  := by
  have hkept : ∀ a role, UnderWay s a role →
      ∃ r ∈ (roleWorld.exec q c s.state).2.actors, r.id = a ∧ r.isLocal = true ∧
        r.instanceRole = .admin ∧ (role ≠ .admin → isActive r.actorStatus = true) := by
    intro a role hway
    obtain ⟨r, hr, rfl, hlocal, hadmin, hactive⟩ := hs.changing a role hway
    obtain ⟨r', hr', hid, hlocal', hadmin', hstill⟩ :=
      exec_standing q c hr fun h => hunhindered.role _ h role hway
    refine ⟨r', hr', hid, hlocal' ▸ hlocal, hadmin' hadmin, ?_⟩
    intro hdemotes
    exact hstill (fun h => hunhindered.status _ h role hdemotes hway) (hactive hdemotes)
  constructor
  · -- who loses the standing, or whoever demotes, leaves another
    cases hstatus : q.takesStatus with
    | some x =>
        obtain ⟨r, hr, hne, hadmin⟩ := hunhindered.last x hstatus
        apply administered_exec hr hadmin
        · intro hrole
          rcases takesRole_eq hrole with ⟨role, rfl, _⟩ | hx
          · cases hstatus
          · exact hne (Option.some.inj (hx.symm.trans hstatus))
        · rw [hstatus]
          exact fun h => hne (Option.some.inj h).symm
    | none =>
        cases hrole : q.takesRole with
        | none =>
            obtain ⟨r, hr, hadmin⟩ := hs.administered
            apply administered_exec hr hadmin
            · rw [hrole]
              rintro ⟨⟩
            · rw [hstatus]
              rintro ⟨⟩
        | some x =>
            rcases takesRole_eq hrole with ⟨role, rfl, hdemotes⟩ | hx
            · obtain ⟨a, hchanges, hne, hauthenticated⟩ := hasked
              obtain ⟨r, hr, rfl, hlocal, hadmin, hactive⟩ := hs.changing a role
                ⟨i, t, _, k, hthread, hchanges, hauthenticated⟩
              apply administered_exec hr (isActiveAdmin_iff.mpr ⟨hlocal, hadmin, hactive hdemotes⟩)
              · rw [hrole]
                exact fun h => hne (Option.some.inj h)
              · rintro ⟨⟩
            · rw [hstatus] at hx
              cases hx
  · rintro a role ⟨j, t', q', k', hthread', hchanges, hauthenticated⟩
    by_cases hij : i = j
    · subst hij
      have hlt := (List.getElem?_eq_some_iff.mp hthread).1
      have hset : (s.exchange roleWorld i t q k c).threads[i]? =
          some ⟨t, k (roleWorld.exec q c s.state).1⟩ := by
        simp [Pool.exchange, hlt]
      obtain ⟨rfl, _⟩ := Thread.mk.inj (Option.some.inj (hset.symm.trans hthread'))
      rw [Pool.trace_exchange_same] at hauthenticated
      obtain ⟨status, hmem⟩ := hauthenticated
      rcases List.mem_cons.mp hmem with heq | hmem
      · -- the request has just been found to be of an administrator
        cases q with
        | viewer id =>
            obtain ⟨hq, hanswer⟩ := Interface.Exchange.mk.inj heq
            obtain rfl : a = id := RoleSql.viewer.inj hq
            cases c with
            | error e => cases eq_of_heq hanswer
            | ok now =>
                obtain ⟨r, hfound, hrow⟩ :=
                  Option.map_eq_some_iff.mp (Except.ok.inj (eq_of_heq hanswer)).symm
                obtain ⟨hadmin, _⟩ := Prod.mk.inj hrow
                have hr := Table.mem_of_find hfound
                have hlocal := Table.satisfies_of_find hfound
                simp only [isLocalActor, Bool.and_eq_true, beq_iff_eq] at hlocal
                refine ⟨r, hr, hlocal.1, hlocal.2, hadmin, ?_⟩
                intro hdemotes
                exact hunhindered.demoter a role rfl hchanges hdemotes r hr hlocal.1 hlocal.2 hadmin
        | _ => cases heq
      · exact hkept a role ⟨i, t, q, k, hthread, hchanges, status, hmem⟩
    · rw [Pool.trace_exchange_other hij] at hauthenticated
      have hother : s.threads[j]? = some ⟨t', .call q' k'⟩ := by
        rw [← hthread', Pool.exchange, List.getElem?_set_ne hij]
      exact hkept a role ⟨j, t', q', k', hother, hchanges, hauthenticated⟩

/-- In every run that meets the condition, from a state with an active administrator, there is
an active administrator, and whoever is about to write a role is an administrator. -/
theorem administrator_remains (db : Db) (hdb : ∃ r ∈ db.actors, r.isActiveAdmin = true)
    (s : Requests)
    (hreach : Reaches roleWorld Call.program (fun i t q c s => Unhindered i t q c s) (.initial db)
      s) :
  (∃ r ∈ s.state.actors, r.isActiveAdmin = true) ∧
    ∀ (i : Nat) (t : Call) (id : Uuid) (role : InstanceRole)
        (k : Accounts.Answer (.setInstanceRole id role) → Program Accounts Unit),
      s.threads[i]? = some ⟨t, .call (.setInstanceRole id role) k⟩ →
      ∃ a username, t = .setUserRole (some a) username role ∧
        ∃ r ∈ s.state.actors, r.id = a ∧ r.isLocal = true ∧ r.instanceRole = .admin
  := by
  have hinitial : Seated (.initial db) := by
    constructor
    · exact hdb
    · rintro a role ⟨i, t, q, k, hthread, _⟩
      simp [Pool.initial] at hthread
  obtain ⟨hdisc, hs⟩ := Step.inv_of_disciplined Seated asks_program
    (fun s t hdisc hs => seated_start hdisc hs t)
    (fun s i t q k c _ hs hthread hasked hC => seated_exchange hs hthread hasked hC)
    (Pool.initial_disciplined Asked db) hinitial hreach
  constructor
  · exact hs.administered
  · intro i t id role k hthread
    obtain ⟨a, hchanges, _, hauthenticated⟩ :=
      ((asks_call _ _ _ _).mp (hdisc.threads i t _ hthread)).1
    obtain ⟨r, hr, hid, hlocal, hadmin, _⟩ :=
      hs.changing a role ⟨i, t, _, k, hthread, hchanges, hauthenticated⟩
    cases t with
    | setUserRole token username role' =>
        cases token with
        | none => cases hchanges
        | some a' =>
            cases hchanges
            exact ⟨_, username, rfl, r, hr, hid, hlocal, hadmin⟩
    | _ => cases hchanges

/-! ### Two administrators -/

/-- Al and Bob are administrators, and Carol is a user. -/
def twoAdmins : Db where
  actors := ⟨[⟨1, "al", true, .admin, .active, none, none⟩,
    ⟨2, "bob", true, .admin, .active, none, none⟩,
    ⟨3, "carol", true, .user, .active, none, none⟩], by decide⟩

/-- Every statement is executed at the time 0. -/
def executed : (q : RoleSql) → roleWorld.Choice q
  | .memberRole _ _ => .ok none
  | .dueForPurge => .ok []
  | .viewer _ => .ok (0 : DateTime)
  | .findLocalByUsername _ => .ok (0 : DateTime)
  | .findById _ => .ok (0 : DateTime)
  | .countAdmins => .ok (0 : DateTime)
  | .setInstanceRole _ _ => .ok (0 : DateTime)
  | .setActorStatus _ _ => .ok (0 : DateTime)
  | .deletionRequestedAt _ => .ok (0 : DateTime)
  | .requestDeletion _ => .ok (0 : DateTime)
  | .cancelDeletion _ => .ok (0 : DateTime)
  | .dueForErasure _ => .ok (0 : DateTime)
  | .tombstone _ => .ok (0 : DateTime)
  | .retireRequest _ => .ok (0 : DateTime)
  | .purge _ => .ok (0 : DateTime)

/-- Each of two administrators demotes the other, after both have counted two. -/
def demotions : List (Turn roleWorld Call) :=
  [.start (.setUserRole (some 1) "bob" .user), .start (.setUserRole (some 2) "al" .user)] ++
    [0, 0, 0, 1, 1, 1, 0, 1].map fun i => .exchange i executed

/-- Two administrators demote each other, and none is left. -/
theorem administrators_demoted :
  (∃ r ∈ twoAdmins.actors, r.isActiveAdmin = true) ∧
    ∃ s, Reaches roleWorld Call.program (fun _ _ _ _ _ => True) (.initial twoAdmins) s ∧
      ¬ ∃ r ∈ s.state.actors, r.isActiveAdmin = true
  := by
  constructor
  · exact ⟨⟨1, "al", true, .admin, .active, none, none⟩, List.mem_cons_self, rfl⟩
  · have hplayed : (((Pool.initial twoAdmins).play roleWorld Call.program
        (fun _ _ _ _ _ => True) demotions).map fun s =>
          s.state.actors.rows.any (·.isActiveAdmin)) = some false := by
      decide +kernel
    obtain ⟨s, hs, hnone⟩ := Option.map_eq_some_iff.mp hplayed
    refine ⟨s, Pool.reaches_of_play _ _ _ hs, ?_⟩
    rintro ⟨r, hr, hadmin⟩
    have hany := List.any_eq_true.mpr ⟨r, hr, hadmin⟩
    rw [hnone] at hany
    cases hany

/-- A step of a request that takes nothing away. -/
def Harmless (t : Call) (q : RoleSql) : Bool :=
  q.takesRole.isNone && q.takesStatus.isNone && t.changes.all fun change => change.2 == .admin

theorem unhindered_of_harmless {i : Nat} {t : Call} {q : RoleSql} {c : roleWorld.Choice q}
    {s : Requests} (h : Harmless t q = true) :
  Unhindered i t q c s
  := by
  simp only [Harmless, Bool.and_eq_true, Option.isNone_iff_eq_none] at h
  obtain ⟨⟨hrole, hstatus⟩, hchanges⟩ := h
  constructor
  · intro x hx
    rw [hrole] at hx
    cases hx
  · intro x hx
    rw [hstatus] at hx
    cases hx
  · intro x hx
    rw [hstatus] at hx
    cases hx
  · intro a role _ ha hdemotes
    rw [ha] at hchanges
    exact absurd (beq_iff_eq.mp hchanges) hdemotes

/-- An administrator promotes a user. -/
theorem administrator_remains_al :
  ∃ s, Reaches roleWorld Call.program (fun i t q c s => Unhindered i t q c s)
      (.initial twoAdmins) s ∧
    (s.state.actors.rows.map (·.instanceRole)) = [.admin, .admin, .admin] ∧
    ∃ r ∈ s.state.actors, r.isActiveAdmin = true
  := by
  have hplayed : (((Pool.initial twoAdmins).play roleWorld Call.program
      (fun _ t q _ _ => Harmless t q = true) (.start (.setUserRole (some 1) "carol" .admin) ::
        List.replicate 3 (.exchange 0 executed))).map fun s =>
          s.state.actors.rows.map (·.instanceRole)) = some [.admin, .admin, .admin] := by
    decide +kernel
  obtain ⟨s, hs, hroles⟩ := Option.map_eq_some_iff.mp hplayed
  have hreaches : Reaches roleWorld Call.program (fun i t q c s => Unhindered i t q c s)
      (.initial twoAdmins) s :=
    Reaches.mono (fun _ _ _ _ _ => unhindered_of_harmless) (Pool.reaches_of_play _ _ _ hs)
  exact ⟨s, hreaches, hroles, (administrator_remains twoAdmins
    ⟨⟨1, "al", true, .admin, .active, none, none⟩, List.mem_cons_self, rfl⟩ s hreaches).1⟩

end Roles
