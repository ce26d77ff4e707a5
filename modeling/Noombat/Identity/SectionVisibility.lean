import Mathlib.Logic.Function.Basic
import Noombat.Federation.Downgrade
import Noombat.Identity.Authorisation
import Noombat.Table

/-!
# The visibility of profile sections

The tables of the six kinds of profile sections, the change of the visibility of a section, and
the queries by which the profile and the federated document of a member find the sections that
they show.  The queries are right about the tiers, with the exception of links on the profile;
the change of visibility names relations that the schema does not have.
-/

namespace Identity.Sections

open Authorisation (Relationship)
open Federation (Uuid DateTime NoombatError)
open Federation.Downgrade (SectionVisibility)

/-! ### Tiers -/

/-- The stored form of a tier. -/
def SectionVisibility.asStr : SectionVisibility → String
  | .public => "public"
  | .followers => "followers"
  | .connections => "connections"
  | .private => "private"

/-- The tier with a stored form; the schema admits no other texts. -/
def SectionVisibility.ofText (visibility : String) : Option SectionVisibility :=
  [SectionVisibility.public, .followers, .connections, .private].find?
    fun tier => asStr tier == visibility

open SectionVisibility (asStr ofText)

/-- Whether a section of the given tier is visible to a viewer. -/
def visibleTo (tier : SectionVisibility) (viewer : Option Uuid) (ownerId : Uuid)
    (relationship : Relationship) : Bool :=
  if viewer == some ownerId then true
  else
    match tier with
    | .public => true
    | .followers => relationship.isFollower
    | .connections => relationship.isConnection
    | .private => false

/-- The widest tier that a viewer qualifies for. -/
def sectionTierFor (viewer : Option Uuid) (ownerId : Uuid) (relationship : Relationship) :
    SectionVisibility :=
  if viewer == some ownerId then .private
  else if relationship.isConnection then .connections
  else if relationship.isFollower then .followers
  else .public

def visibilityFilter : SectionVisibility → List String
  | .private => ["public", "followers", "connections", "private"]
  | .connections => ["public", "followers", "connections"]
  | .followers => ["public", "followers"]
  | .public => ["public"]

/-! ### The tables -/

/-- The kinds of sections, in the order in which the schema has their tables. -/
inductive SectionKind where
  | experience
  | education
  | skill
  | link
  | publication
  | custom
  deriving DecidableEq

namespace SectionKind

def all : List SectionKind :=
  [experience, education, skill, link, publication, custom]

/-- The relation that holds the sections of a kind. -/
def relation : SectionKind → String
  | experience => "work_experiences"
  | education => "education_entries"
  | skill => "skills"
  | link => "verified_links"
  | publication => "scholarly_articles"
  | custom => "custom_profile_sections"

end SectionKind

/-- A section, with columns of its kind in `β`. -/
structure SectionRow (β : Type) where
  id : Uuid
  actorId : Uuid
  visibility : SectionVisibility
  /-- When a link was verified; other sections never are. -/
  verifiedAt : Option DateTime
  content : β
  deriving DecidableEq

/-- Two rows have different identifiers. -/
def SectionRow.Apart {β : Type} (r r' : SectionRow β) : Prop :=
  r.id ≠ r'.id

instance {β : Type} : DecidableRel (SectionRow.Apart (β := β)) :=
  fun _ _ => inferInstanceAs (Decidable (_ ≠ _))

abbrev Db (β : Type) : Type :=
  SectionKind → Table (SectionRow.Apart (β := β))

variable {β : Type}

/-- The section has an identifier and is an actor's. -/
def isOwn (id actorId : Uuid) (r : SectionRow β) : Bool :=
  r.id == id && r.actorId == actorId

/-- The sections, with the tier of one of them changed. -/
def Db.setVisibility (kind : SectionKind) (id actorId : Uuid) (tier : SectionVisibility)
    (db : Db β) : Db β :=
  Function.update db kind
    ((db kind).update (isOwn id actorId) (fun r => { r with visibility := tier })
      fun _ _ h => ⟨h, h, h⟩)

/-! ### The change of visibility -/

/-- `UPDATE relation SET visibility = visibility WHERE id = id AND actor_id = actorId`: the number
of rows affected. -/
def updateVisibility (relation visibility : String) (id actorId : Uuid) (db : Db β) :
    Except NoombatError Nat × Db β :=
  match SectionKind.all.find? (·.relation == relation) with
  | none => (.error (.database "relation does not exist"), db)
  | some kind =>
      let affected := (db kind).rows.countP (isOwn id actorId)
      match ofText visibility with
      | some tier => (.ok affected, db.setVisibility kind id actorId tier)
      | none =>
          if affected = 0 then (.ok 0, db)
          else (.error (.database "new row violates a check constraint"), db)

/-- The relations in which a section is looked for. -/
def tables : List String :=
  ["experiences", "educations", "publications", "verified_links", "skills",
    "custom_profile_sections"]

/-- The first of some tables that has the section is updated. -/
def updateFirst (visibility : String) (id actorId : Uuid) :
    List String → Db β → Except NoombatError Unit × Db β
  | [], db => (.error (.notFound "section" id), db)
  | table :: rest, db =>
      match updateVisibility table visibility id actorId db with
      | (.error e, db) => (.error e, db)
      | (.ok affected, db) =>
          if affected > 0 then (.ok (), db) else updateFirst visibility id actorId rest db

/-- The visibilities that may be requested. -/
def valid : List String :=
  ["public", "followers", "private"]

def updateSectionVisibility (viewer : Option Uuid) (sectionId : Uuid) (visibility : String)
    (db : Db β) : Except NoombatError Unit × Db β :=
  match viewer with
  | none => (.error .forbidden, db)
  | some actorId =>
      if valid.contains visibility then updateFirst visibility sectionId actorId tables db
      else (.error (.badRequest "visibility must be public, followers, or private"), db)

/-! ### What is shown -/

/-- The sections of a kind that an actor has, up to a tier. -/
def listSections (kind : SectionKind) (actorId : Uuid) (maxVisibility : SectionVisibility)
    (db : Db β) : List (SectionRow β) :=
  (db kind).rows.filter fun r =>
    r.actorId == actorId && (visibilityFilter maxVisibility).contains (asStr r.visibility)

/-- The links of an actor, of whatever tier. -/
def listLinks (actorId : Uuid) (db : Db β) : List (SectionRow β) :=
  (db .link).rows.filter fun r => r.actorId == actorId

/-- The sections of a kind on the profile of an actor, as a viewer gets it. -/
def profileSections (kind : SectionKind) (viewer : Option Uuid) (actorId : Uuid)
    (relationship : Relationship) (db : Db β) : List (SectionRow β) :=
  match kind with
  | .link => listLinks actorId db
  | kind => listSections kind actorId (sectionTierFor viewer actorId relationship) db

/-- The sections of a kind that are gathered for the federated document of an actor. -/
def documentSections (kind : SectionKind) (actorId : Uuid) (db : Db β) : List (SectionRow β) :=
  match kind with
  | .link => (listLinks actorId db).filter fun link =>
      link.verifiedAt.isSome && asStr link.visibility == "public"
  | kind => listSections kind actorId .public db

/-! ### What a change should do -/

/-- A change by an actor of the visibility of a section to a tier does what it should: the change
of an own section succeeds, changes nothing else, and the section is then shown to those whom the
tier admits; that of another's is refused. -/
structure Changes (kind : SectionKind) (r : SectionRow β) (tier : SectionVisibility)
    (actorId : Uuid) (db : Db β) : Prop where
  own : r.actorId = actorId →
    updateSectionVisibility (some actorId) r.id (asStr tier) db =
      (.ok (), db.setVisibility kind r.id actorId tier)
  onProfile : r.actorId = actorId → ∀ viewer relationship,
    ({ r with visibility := tier } ∈ profileSections kind viewer actorId relationship
        (updateSectionVisibility (some actorId) r.id (asStr tier) db).2 ↔
      visibleTo tier viewer actorId relationship = true)
  inDocument : r.actorId = actorId → (kind = .link → r.verifiedAt.isSome = true) →
    ({ r with visibility := tier } ∈ documentSections kind actorId
        (updateSectionVisibility (some actorId) r.id (asStr tier) db).2 ↔
      visibleTo tier none actorId Relationship.NONE = true)
  foreign : r.actorId ≠ actorId →
    ∃ e, updateSectionVisibility (some actorId) r.id (asStr tier) db = (.error e, db)

/-- The first relation that a change names is not there, so that no change succeeds. -/
theorem updateSectionVisibility_fails (viewer : Option Uuid) (sectionId : Uuid)
    (visibility : String) (db : Db β) :
  ∃ e, updateSectionVisibility viewer sectionId visibility db = (.error e, db)
  := by
  have hmissing : SectionKind.all.find? (·.relation == "experiences") = none := by decide
  unfold updateSectionVisibility
  cases viewer with
  | none => exact ⟨_, rfl⟩
  | some actorId =>
      cases valid.contains visibility with
      | false => exact ⟨_, rfl⟩
      | true =>
          use .database "relation does not exist"
          simp only [if_true, tables, updateFirst, updateVisibility, hmissing]

/-- The change of the visibility of a section does what it should just if the section is another
actor's. -/
theorem changes_iff (kind : SectionKind) (r : SectionRow β) (tier : SectionVisibility)
    (actorId : Uuid) (db : Db β) :
  Changes kind r tier actorId db ↔ r.actorId ≠ actorId
  := by
  obtain ⟨e, herror⟩ := updateSectionVisibility_fails (some actorId) r.id (asStr tier) db
  constructor
  · intro h howner
    have hok := h.own howner
    rw [herror] at hok
    cases congrArg Prod.fst hok
  · intro howner
    constructor
    · exact fun h => absurd h howner
    · exact fun h => absurd h howner
    · exact fun h => absurd h howner
    · exact fun _ => ⟨e, herror⟩

/-- A member with one skill, that is public. -/
def oneSkill : Db Unit
  | .skill => ⟨[⟨1, 7, .public, none, ()⟩], List.pairwise_singleton _ _⟩
  | _ => .empty

/-- The skill does not become private. -/
theorem oneSkill_unchanged :
  ⟨1, 7, .public, none, ()⟩ ∈ oneSkill .skill ∧
    ¬ Changes .skill ⟨1, 7, .public, none, ()⟩ .private 7 oneSkill
  := by
  constructor
  · exact List.mem_singleton.mpr rfl
  · intro h
    have hok := congrArg Prod.fst (h.own rfl)
    revert hok
    decide

end Identity.Sections
