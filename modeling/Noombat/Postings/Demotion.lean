import Noombat.Postings.DomainProof
import Noombat.Postings.Publishing

/-!
# Whose postings are published

A posting is published by an organisation that controls the domain it claims, or by an account
that is no organisation.  A demotion hides the postings of the organisations that have no
verified link left.  From then on, until a link lapses or is removed, or a posting is published
all the same, what is published by an organisation is published by one that controls the domain
it claims, or that has a verified link elsewhere.
-/

namespace Postings

open Federation (Uuid DateTime NoombatError)
open Fallible Program

variable (lib : Library) (allowLocalTargets : Bool) (domain : String)

/-! ### Control of a domain -/

namespace Db

variable (db : Db)

/-- The URLs of the verified links of an actor. -/
def verifiedUrls (actorId : Uuid) : List String :=
  (db.links.rows.filter fun v => v.actorId == actorId && v.verifiedAt.isSome).map (·.url)

/-- An actor holds a verified link at the domain that it claims. -/
def Controls (a : Actor) : Prop :=
  controlsDomain lib a.claimedDomain (db.verifiedUrls a.id) = true

/-- An actor holds a verified link at another domain than the one it claims. -/
def VerifiedElsewhere (a : Actor) : Prop :=
  ∃ v ∈ db.links, v.actorId = a.id ∧ v.verifiedAt.isSome = true ∧
    ∀ d, a.claimedDomain.bind (registrableDomain lib) = some d →
      registrableDomainOfUrl lib v.url ≠ some d

/-- Whoever has published a posting and is an organisation has a verified link. -/
def Backed : Prop :=
  ∀ j ∈ db.postings, j.publishedAt.isSome = true → ∀ a ∈ db.actors, a.id = j.actorId →
    a.actorType = .organization → ∃ v ∈ db.links, v.actorId = a.id ∧ v.verifiedAt.isSome = true

/-- Whoever has a posting is there. -/
def Referenced : Prop :=
  ∀ j ∈ db.postings, ∃ a ∈ db.actors, a.id = j.actorId

instance : Decidable db.Referenced :=
  inferInstanceAs (Decidable (∀ j ∈ db.postings.rows, ∃ a ∈ db.actors.rows, a.id = j.actorId))

end Db

section Statements

variable {lib} {db : Db}

theorem mem_of_actor {id : Uuid} {a : Actor} (h : db.actor id = some a) :
  a ∈ db.actors ∧ a.id = id
  := by
  constructor
  · apply Table.mem_of_find h
  · have hid := Table.satisfies_of_find h
    exact beq_iff_eq.mp hid

/-- An organisation with a verified link controls the domain that it claims, or has a link
elsewhere. -/
theorem controls_or_elsewhere {a : Actor} {v : VerifiedLink} (hv : v ∈ db.links)
    (hactor : v.actorId = a.id) (hverified : v.verifiedAt.isSome = true) :
  db.Controls lib a ∨ db.VerifiedElsewhere lib a
  := by
  by_cases h : ∃ d, a.claimedDomain.bind (registrableDomain lib) = some d ∧
      registrableDomainOfUrl lib v.url = some d
  · obtain ⟨d, hclaimed, hurl⟩ := h
    left
    have hmem : v.url ∈ db.verifiedUrls a.id := by
      apply List.mem_map_of_mem
      apply List.mem_filter.mpr
      exact ⟨hv, by rw [hactor, hverified, beq_self_eq_true, Bool.and_true]⟩
    rw [Db.Controls, controlsDomain, hclaimed]
    apply List.any_eq_true.mpr
    use d
    constructor
    · apply List.mem_filterMap.mpr ⟨v.url, hmem, hurl⟩
    · apply beq_self_eq_true
  · right
    refine ⟨v, hv, hactor, hverified, ?_⟩
    intro d hclaimed hurl
    exact h ⟨d, hclaimed, hurl⟩

theorem mem_demoteLapsed {j : JobPosting} :
  j ∈ db.demoteLapsed.postings ↔
    ∃ j' ∈ db.postings, (if (j'.publishedAt.isSome && db.isLapsed j'.actorId) = true then
      { j' with publishedAt := none } else j') = j
  := by
  apply Table.mem_update
  intro _ _ h
  exact ⟨h, h, h⟩

/-- What is published after a demotion is published by organisations with a verified link. -/
theorem backed_demoteLapsed :
  db.demoteLapsed.Backed
  := by
  intro j hj hpublished a ha hid horg
  obtain ⟨j', hj', rfl⟩ := mem_demoteLapsed.mp hj
  split at hpublished
  · cases hpublished
  · next hstays =>
      rw [if_neg hstays] at hid
      have hlapsed : db.isLapsed j'.actorId = false := by
        rw [hpublished, Bool.true_and] at hstays
        exact Bool.eq_false_iff.mpr hstays
      have hhere : (db.actors.rows.any fun a => a.id == j'.actorId &&
          a.actorType == .organization) = true := by
        apply List.any_eq_true.mpr
        exact ⟨a, ha, by rw [hid, horg]; simp⟩
      rw [Db.isLapsed, hhere, Bool.true_and, Bool.not_eq_false'] at hlapsed
      obtain ⟨v, hv, hverified⟩ := List.any_eq_true.mp hlapsed
      rw [Bool.and_eq_true, beq_iff_eq] at hverified
      exact ⟨v, hv, by rw [hverified.1, hid], hverified.2⟩

/-- A row of a changed table is as it was, or has been changed. -/
theorem exists_of_mem_update {ρ : Type} {p : ρ → Bool} {f : ρ → ρ} {rows : List ρ} {r : ρ}
    (h : r ∈ rows.map fun r => if p r then f r else r) :
  ∃ r' ∈ rows, r = r' ∨ (p r' = true ∧ r = f r')
  := by
  obtain ⟨r', hr', rfl⟩ := List.mem_map.mp h
  refine ⟨r', hr', ?_⟩
  split
  · next hp => exact .inr ⟨hp, rfl⟩
  · exact .inl rfl

/-- A row of a table is there after a change, or has been changed. -/
theorem exists_mem_update {ρ : Type} {p : ρ → Bool} {f : ρ → ρ} {rows : List ρ} {r : ρ}
    (h : r ∈ rows) :
  ∃ r' ∈ rows.map fun r => if p r then f r else r, r' = r ∨ (p r = true ∧ r' = f r)
  := by
  refine ⟨_, List.mem_map_of_mem h, ?_⟩
  split
  · next hp => exact .inr ⟨hp, rfl⟩
  · exact .inl rfl

section Invariant

variable {db' : Db}

/-- What is published stays backed, if no organisation and no published posting is new, and the
verified links of those who have postings stay. -/
theorem Db.Backed.of (h : db.Backed)
    (hactors : ∀ a' ∈ db'.actors, ∃ a ∈ db.actors, a.id = a'.id ∧ a.actorType = a'.actorType)
    (hpostings : ∀ j' ∈ db'.postings, j'.publishedAt.isSome = true →
      ∃ j ∈ db.postings, j.actorId = j'.actorId ∧ j.publishedAt.isSome = true)
    (hlinks : ∀ v ∈ db.links, v.verifiedAt.isSome = true →
      (∃ j' ∈ db'.postings, j'.actorId = v.actorId) →
        ∃ v' ∈ db'.links, v'.actorId = v.actorId ∧ v'.verifiedAt.isSome = true) :
  db'.Backed
  := by
  intro j' hj' hpublished' a' ha' hid horg
  obtain ⟨j, hj, hactor, hpublished⟩ := hpostings j' hj' hpublished'
  obtain ⟨a, ha, haid, htype⟩ := hactors a' ha'
  obtain ⟨v, hv, hvactor, hverified⟩ := h j hj hpublished a ha (by rw [haid, hid, hactor])
    (by rw [htype, horg])
  obtain ⟨v', hv', hvactor', hverified'⟩ := hlinks v hv hverified
    ⟨j', hj', by rw [hvactor, haid, hid]⟩
  exact ⟨v', hv', by rw [hvactor', hvactor, haid], hverified'⟩

theorem Db.Referenced.of (h : db.Referenced)
    (hactors : ∀ a ∈ db.actors, ∃ a' ∈ db'.actors, a'.id = a.id)
    (hpostings : ∀ j' ∈ db'.postings, ∃ j ∈ db.postings, j.actorId = j'.actorId) :
  db'.Referenced
  := by
  intro j' hj'
  obtain ⟨j, hj, hactor⟩ := hpostings j' hj'
  obtain ⟨a, ha, haid⟩ := h j hj
  obtain ⟨a', ha', haid'⟩ := hactors a ha
  exact ⟨a', ha', by rw [haid', haid, hactor]⟩

/-- The rows of actors are there, with their types; those that are new are organisations that
are enrolled. -/
def ActorsKept (s : Sql) (db : Db) (actors : Table Actor.Apart) : Prop :=
  (∀ a ∈ db.actors, ∃ a' ∈ actors, a'.id = a.id) ∧
    ∀ a' ∈ actors, (∃ a ∈ db.actors, a.id = a'.id ∧ a.actorType = a'.actorType) ∨
      ∃ ownerId, s = .enrolOrganization a' ownerId ∧ ∀ a ∈ db.actors, a.id ≠ a'.id

theorem actorsKept_same (s : Sql) :
  ActorsKept s db db.actors
  := ⟨fun a ha => ⟨a, ha, rfl⟩, fun a ha => .inl ⟨a, ha, rfl, rfl⟩⟩

theorem actorsKept_update (s : Sql) {p : Actor → Bool} {f : Actor → Actor} {keeps}
    (hf : ∀ a, (f a).id = a.id ∧ (f a).actorType = a.actorType) :
  ActorsKept s db (db.actors.update p f keeps)
  := by
  constructor
  · intro a ha
    have hmem : ∃ a' ∈ db.actors.update p f keeps, a' = a ∨ (p a = true ∧ a' = f a) :=
      exists_mem_update ha
    obtain ⟨a', ha', rfl | ⟨_, rfl⟩⟩ := hmem
    · exact ⟨a', ha', rfl⟩
    · exact ⟨f a, ha', (hf a).1⟩
  · intro a' ha'
    left
    obtain ⟨a, ha, rfl | ⟨_, rfl⟩⟩ := exists_of_mem_update ha'
    · exact ⟨a', ha, rfl, rfl⟩
    · exact ⟨a, ha, (hf a).1.symm, (hf a).2.symm⟩

theorem actorsKept_enrol (organization : Actor) (ownerId : Uuid) :
  ActorsKept (.enrolOrganization organization ownerId) db
    (db.enrolOrganization organization ownerId).2.actors
  := by
  unfold Db.enrolOrganization
  split
  · exact actorsKept_same _
  · next actors hactors =>
      constructor
      · intro a ha
        exact ⟨a, (Table.mem_of_insert hactors).mpr (.inr ha), rfl⟩
      · intro a' ha'
        rcases (Table.mem_of_insert hactors).mp ha' with rfl | ha
        · right
          use ownerId, rfl
          intro a ha heq
          exact (Table.apart_of_insert hactors ha).1 heq.symm
        · exact .inl ⟨a', ha, rfl, rfl⟩

theorem actorsKept_exec (now : DateTime) (s : Sql) (db : Db) :
  ActorsKept s db (s.exec now db).2.actors
  := by
  cases s with
  | insertLink id actorId url =>
      rw [Sql.exec, (db.insertLink_frame now id actorId url).1]
      exact actorsKept_same _
  | insertPosting j =>
      rw [Sql.exec, (db.insertPosting_frame j).1]
      exact actorsKept_same _
  | updatePosting actorId id text =>
      rw [Sql.exec, (db.updatePosting_frame actorId id text).1]
      exact actorsKept_same _
  | insertFollow followerId followingId accepted =>
      rw [Sql.exec, (db.insertFollow_frame followerId followingId accepted).1]
      exact actorsKept_same _
  | enrolOrganization organization ownerId => exact actorsKept_enrol organization ownerId
  | setOrgKind _ _ | moveInbox _ _ _ | tombstone _ | retireDeletionRequest _ =>
      apply actorsKept_update
      · intro _ _ h
        exact ⟨h, h, h⟩
      · intro a
        exact ⟨rfl, rfl⟩
  | _ => exact actorsKept_same _

/-- No link lapses or is removed, and nothing is published by an organisation that has no
verified link. -/
def Quiet : StepCondition (postingWorld lib allowLocalTargets) Call
  | _, _, .sql (.markChecked linkId verified), _, s =>
      verified = true ∨ ∀ v ∈ s.state.links, v.id = linkId → v.verifiedAt = none
  | _, _, .sql (.deleteLink actorId id), _, s =>
      ∀ v ∈ s.state.links, v.id = id → v.actorId = actorId → v.verifiedAt = none
  | _, _, .sql (.insertPosting j), _, s =>
      j.publishedAt.isSome = true → s.state.isLapsed j.actorId = false
  | _, _, _, _, _ => True

theorem mem_insertPosting {j j' : JobPosting} (h : j' ∈ (db.insertPosting j).2.postings) :
  j' ∈ db.postings ∨ j' = j ∧ ∃ a ∈ db.actors, a.id = j'.actorId
  := by
  unfold Db.insertPosting at h
  split at h
  · exact .inl h
  · next hactor =>
      split at h
      · exact .inl h
      · next postings hpostings =>
          rcases (Table.mem_of_insert hpostings).mp h with rfl | h
          · rw [Bool.not_eq_true, Option.isNone_eq_false_iff] at hactor
            obtain ⟨a, ha⟩ := Option.isSome_iff_exists.mp hactor
            exact .inr ⟨rfl, a, mem_of_actor ha⟩
          · exact .inl h

theorem mem_updatePosting {actorId id : Uuid} {text : PostingText} {j' : JobPosting}
    (h : j' ∈ (db.updatePosting actorId id text).2.postings) :
  ∃ j ∈ db.postings, j'.actorId = j.actorId ∧ j'.publishedAt = j.publishedAt
  := by
  unfold Db.updatePosting at h
  split at h
  · exact ⟨j', h, rfl, rfl⟩
  · obtain ⟨j, hj, rfl | ⟨_, rfl⟩⟩ := exists_of_mem_update h
    · exact ⟨j', hj, rfl, rfl⟩
    · exact ⟨j, hj, rfl, rfl⟩

theorem links_insertLink (now : DateTime) (id actorId : Uuid) (url : String) {v : VerifiedLink}
    (hv : v ∈ db.links) :
  ∃ v' ∈ (db.insertLink now id actorId url).2.links, v'.actorId = v.actorId ∧
    v'.verifiedAt = v.verifiedAt
  := by
  unfold Db.insertLink
  split
  · exact ⟨v, hv, rfl, rfl⟩
  · split
    · next w _ =>
        have hmem : ∃ v' ∈ db.links.update (·.id == w.id) ({ · with lastChecked := now })
            fun _ _ h => ⟨h, h, h⟩, v' = v ∨ ((v.id == w.id) = true ∧
              v' = { v with lastChecked := now }) := exists_mem_update hv
        obtain ⟨v', hv', rfl | ⟨_, rfl⟩⟩ := hmem
        · exact ⟨v', hv', rfl, rfl⟩
        · exact ⟨_, hv', rfl, rfl⟩
    · split
      · exact ⟨v, hv, rfl, rfl⟩
      · next links hlinks =>
          exact ⟨v, (Table.mem_of_insert hlinks).mpr (.inr hv), rfl, rfl⟩

/-- A statement keeps the postings, with who has posted them; those that are new have been
inserted, and none becomes published. -/
theorem postings_exec (now : DateTime) (s : Sql) (db : Db) :
  ∀ j' ∈ (s.exec now db).2.postings,
    (∃ j ∈ db.postings, j.actorId = j'.actorId ∧
      (j'.publishedAt.isSome = true → j.publishedAt.isSome = true)) ∨
    s = .insertPosting j' ∧ ∃ a ∈ db.actors, a.id = j'.actorId
  := by
  have hsame : ∀ j' ∈ db.postings, (∃ j ∈ db.postings, j.actorId = j'.actorId ∧
      (j'.publishedAt.isSome = true → j.publishedAt.isSome = true)) ∨
      s = .insertPosting j' ∧ ∃ a ∈ db.actors, a.id = j'.actorId :=
    fun j' hj' => .inl ⟨j', hj', rfl, id⟩
  cases s with
  | insertLink id actorId url =>
      rw [Sql.exec, (db.insertLink_frame now id actorId url).2.1]
      exact hsame
  | insertFollow followerId followingId accepted =>
      rw [Sql.exec, (db.insertFollow_frame followerId followingId accepted).2.2]
      exact hsame
  | enrolOrganization organization ownerId =>
      rw [Sql.exec, (db.enrolOrganization_frame organization ownerId).2.1]
      exact hsame
  | insertPosting j =>
      intro j' hj'
      rcases mem_insertPosting hj' with hj' | ⟨rfl, ha⟩
      · exact hsame j' hj'
      · exact .inr ⟨rfl, ha⟩
  | updatePosting actorId id text =>
      intro j' hj'
      obtain ⟨j, hj, hactor, hpublished⟩ := mem_updatePosting hj'
      exact .inl ⟨j, hj, hactor.symm, fun h => hpublished ▸ h⟩
  | demoteLapsed =>
      intro j' hj'
      obtain ⟨j, hj, rfl | ⟨_, rfl⟩⟩ := exists_of_mem_update hj'
      · exact hsame j' hj
      · left
        use j, hj, rfl
        intro h
        cases h
  | deletePosting actorId id =>
      intro j' hj'
      exact hsame j' (Table.mem_delete.mp hj').1
  | tombstone actorId =>
      intro j' hj'
      exact hsame j' (Table.mem_delete.mp hj').1
  | _ => exact hsame

/-- A statement keeps the verified links of those who have postings, unless it marks them as not
verified or removes them. -/
theorem links_exec (now : DateTime) (s : Sql) (db : Db) (v : VerifiedLink) (hv : v ∈ db.links)
    (hverified : v.verifiedAt.isSome = true)
    (hposting : ∃ j' ∈ (s.exec now db).2.postings, j'.actorId = v.actorId)
    (hmark : s ≠ .markChecked v.id false) (hdelete : s ≠ .deleteLink v.actorId v.id) :
  ∃ v' ∈ (s.exec now db).2.links, v'.actorId = v.actorId ∧ v'.verifiedAt.isSome = true
  := by
  have hsame : ∃ v' ∈ db.links, v'.actorId = v.actorId ∧ v'.verifiedAt.isSome = true :=
    ⟨v, hv, rfl, hverified⟩
  cases s with
  | insertPosting j =>
      rw [Sql.exec, (db.insertPosting_frame j).2.1]
      exact hsame
  | updatePosting actorId id text =>
      rw [Sql.exec, (db.updatePosting_frame actorId id text).2.1]
      exact hsame
  | insertFollow followerId followingId accepted =>
      rw [Sql.exec, (db.insertFollow_frame followerId followingId accepted).2.1]
      exact hsame
  | enrolOrganization organization ownerId =>
      rw [Sql.exec, (db.enrolOrganization_frame organization ownerId).1]
      exact hsame
  | insertLink id actorId url =>
      obtain ⟨v', hv', hactor, hstill⟩ := links_insertLink now id actorId url hv
      exact ⟨v', hv', hactor, hstill ▸ hverified⟩
  | markChecked linkId verified =>
      have hmem : ∃ v' ∈ (db.markChecked now linkId verified).links, v' = v ∨
          ((v.id == linkId) = true ∧ v' = { v with
            verifiedAt := if verified then some now else none, lastChecked := now }) :=
        exists_mem_update hv
      obtain ⟨v', hv', rfl | ⟨hid, rfl⟩⟩ := hmem
      · exact ⟨v', hv', rfl, hverified⟩
      · cases verified with
        | false =>
            rw [beq_iff_eq] at hid
            exact absurd (by rw [hid]) hmark
        | true => exact ⟨_, hv', rfl, rfl⟩
  | deleteLink actorId id =>
      refine ⟨v, Table.mem_delete.mpr ⟨hv, ?_⟩, rfl, hverified⟩
      apply Bool.eq_false_iff.mpr
      intro h
      rw [Bool.and_eq_true, beq_iff_eq, beq_iff_eq] at h
      exact hdelete (by rw [h.1, h.2])
  | tombstone actorId =>
      obtain ⟨j', hj', hactor⟩ := hposting
      have hother := (Table.mem_delete.mp hj').2
      rw [hactor] at hother
      exact ⟨v, Table.mem_delete.mpr ⟨hv, hother⟩, rfl, hverified⟩
  | _ => exact hsame

/-- Whoever has a posting stays there, whatever is answered. -/
theorem referenced_exec (q : PostingRequest) (c : (postingWorld lib allowLocalTargets).Choice q)
    (db : Db) (h : db.Referenced) :
  ((postingWorld lib allowLocalTargets).exec q c db).2.Referenced
  := by
  cases q with
  | sql s =>
      cases c with
      | error e => exact h
      | ok now =>
          obtain ⟨hkept, _⟩ := actorsKept_exec now s db
          intro j' hj'
          have hactor : ∃ a ∈ db.actors, a.id = j'.actorId := by
            rcases postings_exec now s db j' hj' with ⟨j, hj, hactor, _⟩ | ⟨_, hactor⟩
            · rw [← hactor]
              apply h j hj
            · exact hactor
          obtain ⟨a, ha, hid⟩ := hactor
          obtain ⟨a', ha', hid'⟩ := hkept a ha
          exact ⟨a', ha', by rw [hid', hid]⟩
  | staleLinks maxAgeDays =>
      cases c with
      | error e => exact h
      | ok c => exact h
  | newUuid => exact h
  | now => exact h
  | get url => exact h

/-- While nothing lapses, what is published stays backed. -/
theorem backed_exec {s : Pool Publicity Call Db} {i : Nat} {t : Call} (q : PostingRequest)
    (c : (postingWorld lib allowLocalTargets).Choice q)
    (hC : Quiet allowLocalTargets i t q c s) (hreferenced : s.state.Referenced)
    (h : s.state.Backed) :
  ((postingWorld lib allowLocalTargets).exec q c s.state).2.Backed
  := by
  cases q with
  | staleLinks maxAgeDays =>
      cases c with
      | error e => exact h
      | ok c => exact h
  | newUuid => exact h
  | now => exact h
  | get url => exact h
  | sql st =>
      cases c with
      | error e => exact h
      | ok now =>
          intro j' hj' hpublished a' ha' hid horg
          have hold : ∃ a ∈ s.state.actors, a.id = j'.actorId ∧ a.actorType = .organization := by
            rcases (actorsKept_exec now st s.state).2 a' ha' with ⟨a, ha, haid, htype⟩ | hnew
            · exact ⟨a, ha, by rw [haid, hid], by rw [htype, horg]⟩
            · obtain ⟨ownerId, rfl, hnew⟩ := hnew
              have hrow := (s.state.enrolOrganization_frame a' ownerId).2.1
              obtain ⟨a, ha, haid⟩ := hreferenced j' (hrow ▸ hj')
              exact absurd (haid.trans hid.symm) (hnew a ha)
          obtain ⟨a, ha, haid, htype⟩ := hold
          have hlink : ∃ v ∈ s.state.links, v.actorId = j'.actorId ∧
              v.verifiedAt.isSome = true := by
            rcases postings_exec now st s.state j' hj' with ⟨j, hj, hactor, hbefore⟩ | ⟨rfl, _⟩
            · obtain ⟨v, hv, hvactor, hverified⟩ := h j hj (hbefore hpublished) a ha
                (by rw [haid, hactor]) htype
              exact ⟨v, hv, by rw [hvactor, haid], hverified⟩
            · have hlapsed := hC hpublished
              have hhere : (s.state.actors.rows.any fun a => a.id == j'.actorId &&
                  a.actorType == .organization) = true := by
                apply List.any_eq_true.mpr
                exact ⟨a, ha, by rw [haid, htype]; simp⟩
              rw [Db.isLapsed, hhere, Bool.true_and, Bool.not_eq_false'] at hlapsed
              obtain ⟨v, hv, hverified⟩ := List.any_eq_true.mp hlapsed
              rw [Bool.and_eq_true, beq_iff_eq] at hverified
              exact ⟨v, hv, hverified.1, hverified.2⟩
          obtain ⟨v, hv, hvactor, hverified⟩ := hlink
          have hkept := links_exec now st s.state v hv hverified ⟨j', hj', hvactor.symm⟩
          rw [← hvactor] at hid
          rw [hid]
          apply hkept
          · rintro rfl
            rcases hC with hC | hC
            · cases hC
            · rw [hC v hv rfl] at hverified
              cases hverified
          · rintro rfl
            rw [hC v hv rfl rfl] at hverified
            cases hverified

end Invariant

/-! ### What anyone may read -/

theorem mem_of_page {postings : List JobPosting} {limit offset : Int} {answers : List PostingAnswer}
    (h : db.page postings limit offset = .ok answers) {j : JobPosting} {kind : Option OrgKind}
    (hj : (j, kind) ∈ answers) :
  j ∈ postings
  := by
  unfold Db.page at h
  split at h
  · cases h
  · split at h
    · cases h
    · cases Except.ok.inj h
      obtain ⟨j', hj', heq⟩ := List.mem_map.mp hj
      cases Prod.mk.inj heq |>.1
      exact List.mem_mergeSort.mp (List.mem_of_mem_drop (List.mem_of_mem_take hj'))

variable {allowLocalTargets : Bool}

/-- The answers are postings that are there. -/
def Reads (db : Db) : Except NoombatError (List PostingAnswer) → Db → Prop :=
  fun r _ => ∀ answers, r = .ok answers → ∀ j kind, (j, kind) ∈ answers → j ∈ db.postings

theorem reads_error {e : NoombatError} {db' : Db} :
  Reads db (.error e) db'
  := by
  intro answers h
  cases h

theorem reads_page {postings : List JobPosting} {limit offset : Int} {db' : Db}
    (h : ∀ j ∈ postings, j ∈ db.postings) :
  Reads db (db.page postings limit offset) db'
  := by
  intro answers hanswers j kind hj
  apply h j (mem_of_page hanswers hj)

/-- A statement fails, or is made at some time. -/
theorem wp_sql {s : Sql} {Post : Except NoombatError s.Result → Db → Prop} {db : Db}
    (herror : ∀ e, Post (.error e) db)
    (hok : ∀ now, Post (s.exec now db).1 (s.exec now db).2) :
  wp (postingWorld lib allowLocalTargets) (Always _) Post (sql s).run db
  := by
  have h : wp (postingWorld lib allowLocalTargets) (Always _) Post
      (call (PostingRequest.sql s : Publicity.Request) done) db := by
    rw [wp_call]
    rintro (e | now) _
    · exact (wp_done _ _ _).mpr (herror e)
    · exact (wp_done _ _ _).mpr (hok now)
  exact h

theorem wp_okOr_none {α : Type} {e : NoombatError} {Post : Except NoombatError α → Db → Prop}
    {db : Db} (h : Post (.error e) db) :
  wp (postingWorld lib allowLocalTargets) (Always _) Post (okOr e none).run db
  := (wp_run_throw Post e db).mpr h

theorem wp_okOr_some {α : Type} {e : NoombatError} {a : α}
    {Post : Except NoombatError α → Db → Prop} {db : Db} (h : Post (.ok a) db) :
  wp (postingWorld lib allowLocalTargets) (Always _) Post (okOr e (some a)).run db
  := (wp_run_pure Post a db).mpr h

/-- What is answered to a reader is a posting that is there. -/
theorem reads_read (reader : Reader) :
  wp (postingWorld lib allowLocalTargets) (Always _) (Reads db) reader.read.run db
  := by
  cases reader with
  | listJobs orgKind limit offset =>
      rw [Reader.read]
      apply @wp_sql lib allowLocalTargets (.selectPublished orgKind limit offset)
      · intro e
        exact reads_error
      · intro now
        apply reads_page
        intro j hj
        exact (List.mem_filter.mp hj).1
  | listUserJobs username limit offset =>
      rw [Reader.read, findLocalByUsername, wp_run_bind, wp_run_bind]
      apply wp_sql
      · intro e
        exact @reads_error db e db
      · intro now
        change wp _ _ _ (okOr _ (db.actors.find _)).run db
        cases db.actors.find fun a => a.username == username && a.isLocal with
        | none => exact wp_okOr_none (@reads_error db _ db)
        | some a =>
            apply wp_okOr_some
            apply @wp_sql lib allowLocalTargets (.selectPostingsBy a.id limit offset)
            · intro e
              exact reads_error
            · intro now
              apply reads_page
              intro j hj
              exact (List.mem_filter.mp hj).1
  | getJob id =>
      rw [Reader.read, getJobRow, wp_run_bind, wp_run_bind]
      apply wp_sql
      · intro e
        exact @reads_error db e db
      · intro now
        change wp _ _ _ (okOr _ ((db.postings.find _).map db.answer)).run db
        cases h : db.postings.find (·.id == id) with
        | none => exact wp_okOr_none (@reads_error db _ db)
        | some j =>
            apply wp_okOr_some
            apply (wp_run_pure _ _ _).mpr
            intro answers hanswers j' kind hj
            cases Except.ok.inj hanswers
            cases List.mem_singleton.mp hj
            exact Table.mem_of_find h

/-! ### After a demotion -/

end Statements

/-! ### A demotion -/

/-- An actor of this instance. -/
def localActor (id : Uuid) (username : String) (actorType : ActorType)
    (claimedDomain : Option String) : Actor where
  id
  apId := username
  username
  isLocal := true
  actorType
  orgKind := some .employer
  claimedDomain
  inboxUrl := none
  sharedInboxUrl := none
  deletionRequestedAt := none
  erasedAt := none

/-- A posting that is published. -/
def publishedPosting (id actorId : Uuid) (apId : String) : JobPosting where
  title := ""
  descriptionMd := ""
  descriptionHtml := ""
  location := none
  remote := false
  salaryMin := none
  salaryMax := none
  currency := none
  requirements := none
  expiresAt := none
  id
  actorId
  apId
  publishedAt := some 0
  createdAt := 0
  createdBy := none

/-- Acme has claimed a domain and Al is no organisation; each has a posting.  Of the two links,
one is stale. -/
def market (stale fresh : VerifiedLink) : Option Db := do
  let actors ← Table.ofRows
    [localActor 1 "acme" .organization (some "acme.example"), localActor 2 "al" .individual none]
  let links ← Table.ofRows [{ stale with lastChecked := 0 }, { fresh with lastChecked := 100 }]
  let postings ← Table.ofRows [publishedPosting 5 1 "a", publishedPosting 6 2 "b"]
  return ⟨10, actors, [], links, postings, .empty, []⟩

/-- Every statement is made at the time 1, and no server answers. -/
def unanswered : (q : PostingRequest) → (postingWorld .plain false).Choice q
  | .sql _ => .ok 1
  | .staleLinks _ => .ok (1, [])
  | .newUuid => ()
  | .now => (1 : DateTime)
  | .get _ => []

/-- A round of the worker, as far as the given number of requests. -/
def roundUntil (n : Nat) : List (Turn (postingWorld .plain false) Call) :=
  .start (.reverificationRound 0) :: List.replicate n (.exchange 0 unanswered)

/-- A demotion has just been made. -/
def demotesNow : Publicity.History Call → Bool
  | ⟨_, _, ⟨.sql .demoteLapsed, .ok _⟩⟩ :: _ => true
  | _ => false

/-- A thread is about to demote. -/
def demotesNext : Option (Thread Publicity Call) → Bool
  | some ⟨_, .call (.sql .demoteLapsed) _⟩ => true
  | _ => false

/-- The postings that are answered for their own URL. -/
def obtains (id : Uuid) (db : Db) : List JobPosting :=
  match (run (postingWorld .plain false) (fun _ => unanswered) (Reader.getJob id).read.run db).1 with
  | .ok answers => answers.map Prod.fst
  | .error _ => []

theorem read_of_obtains {id : Uuid} {db : Db} {j : JobPosting} (h : obtains id db = [j]) :
  ∃ answers kind, (run (postingWorld .plain false) (fun _ => unanswered)
    (Reader.getJob id).read.run db).1 = .ok answers ∧ (j, kind) ∈ answers
  := by
  unfold obtains at h
  split at h
  · next answers hanswers =>
      obtain ⟨⟨j', kind⟩, hmem, rfl⟩ := List.mem_map.mp (h ▸ List.mem_singleton_self j)
      exact ⟨answers, kind, hanswers, hmem⟩
  · cases h

theorem eq_of_demotesNext {thread : Option (Thread Publicity Call)}
    (h : demotesNext thread = true) :
  ∃ t k, thread = some ⟨t, .call (.sql .demoteLapsed) k⟩
  := by
  unfold demotesNext at h
  split at h
  · next t k => exact ⟨t, k, rfl⟩
  · cases h

/-- The state that a round of the worker leads to, and what holds there. -/
theorem exists_round {stale fresh : VerifiedLink} {n : Nat}
    {P : Pool Publicity Call Db → Prop} [DecidablePred P]
    (h : ((market stale fresh).bind fun db =>
      ((Pool.initial db).play (postingWorld .plain false) (Call.program .plain "h.ex")
        (fun _ _ _ _ _ => True) (roundUntil n)).map fun s => decide (P s)) = some true) :
  ∃ db s, market stale fresh = some db ∧
    Reaches (postingWorld .plain false) (Call.program .plain "h.ex") (fun _ _ _ _ _ => True)
      (.initial db) s ∧ P s
  := by
  obtain ⟨db, hdb, hplayed⟩ := Option.bind_eq_some_iff.mp h
  obtain ⟨s, hs, hP⟩ := Option.map_eq_some_iff.mp hplayed
  exact ⟨db, s, hdb, Pool.reaches_of_play _ _ _ hs, of_decide_eq_true hP⟩

/-- A posting of an organisation that has lost the link at the domain it claims stays published,
while it has a verified link elsewhere. -/
theorem lapsed_organisation_published :
  ∃ db s, market ⟨9, 1, "https://acme.example/", some 0, 0⟩
      ⟨8, 1, "https://blog.ex/", some 0, 0⟩ = some db ∧
    Reaches (postingWorld .plain false) (Call.program .plain "h.ex") (fun _ _ _ _ _ => True)
      (.initial db) s ∧
    demotesNow s.history = true ∧ obtains 5 s.state = [publishedPosting 5 1 "a"] ∧
    controlsDomain .plain (some "acme.example") (s.state.verifiedUrls 1) = false
  := by
  apply exists_round (n := 5)
  decide +kernel

end Postings
