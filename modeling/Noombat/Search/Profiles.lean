import Mathlib.Data.List.Sort
import Noombat.Identity.SectionRecords
import Noombat.Identity.SectionVisibility

/-!
# The profile of an actor in the search index

The document that stands for an actor in the search index is sent again by whatever changes what
it should hold.  Edits of sections and of the privacy settings build it from the tables; the edit
of the profile builds it without experience, education and publications, and unsuspension sends
the actor itself.
-/

namespace Search.Profiles

open Federation (Uuid DateTime)
open Federation.Downgrade (SectionVisibility)
open Identity.Employment (WorkExperience)
open Identity.Records (EducationEntry ScholarlyArticle)
open Identity.Sections (visibilityFilter)

/-! ### Actors -/

inductive ActorType where
  | individual
  | organization
  | group
  | application
  deriving DecidableEq

namespace ActorType

/-- The name of the variant. -/
def debug : ActorType → String
  | individual => "Individual"
  | organization => "Organization"
  | group => "Group"
  | application => "Application"

def asStr : ActorType → String
  | individual => "individual"
  | organization => "organization"
  | group => "group"
  | application => "application"

end ActorType

inductive ActorStatus where
  | pending
  | active
  | silenced
  | suspended
  deriving DecidableEq

namespace ActorStatus

def asStr : ActorStatus → String
  | pending => "pending"
  | active => "active"
  | silenced => "silenced"
  | suspended => "suspended"

def isActive : ActorStatus → Bool
  | active | silenced => true
  | pending | suspended => false

def isSilenced (status : ActorStatus) : Bool :=
  status == silenced

end ActorStatus

structure ActorPrivacy where
  discoverable : Bool
  indexable : Bool
  requireFollowApproval : Bool
  federateProfile : Bool
  chatmailVisible : Bool
  showFollowersCount : Bool
  cvDownload : String

structure Actor where
  id : Uuid
  actorType : ActorType
  orgKind : Option String
  apId : String
  username : String
  displayName : Option String
  headline : Option String
  location : Option String
  avatarUrl : Option String
  headerUrl : Option String
  summaryMd : Option String
  summaryHtml : Option String
  publicKeyPem : String
  publicKeyId : Option String
  ed25519PublicKey : Option String
  domain : String
  isLocal : Bool
  inboxUrl : Option String
  instanceRole : String
  actorStatus : ActorStatus
  chatRequiresReprovisioning : Bool
  chatmailAddr : Option String
  orcid : Option String
  movedTo : Option String
  actorPrivacy : ActorPrivacy
  createdAt : DateTime
  updatedAt : DateTime

namespace Actor

def isDiscoverable (actor : Actor) : Bool :=
  actor.actorPrivacy.discoverable

def isActive (actor : Actor) : Bool :=
  actor.actorStatus.isActive

def isSilenced (actor : Actor) : Bool :=
  actor.actorStatus.isSilenced

end Actor

/-! ### Sections -/

structure Skill where
  id : Uuid
  actorId : Uuid
  name : String
  visibility : String

/-- The tables of the sections that are indexed. -/
structure Sections where
  skills : List Skill
  workExperiences : List WorkExperience
  educationEntries : List EducationEntry
  scholarlyArticles : List ScholarlyArticle

/-- The row is an actor's, of a tier that is admitted. -/
def isListed (actorId : Uuid) (maxVisibility : SectionVisibility) (rowActorId : Uuid)
    (visibility : String) : Bool :=
  rowActorId == actorId && (visibilityFilter maxVisibility).contains visibility

namespace Sections

variable (sections : Sections) (actorId : Uuid) (maxVisibility : SectionVisibility)

def listSkills : List Skill :=
  (sections.skills.filter fun s => isListed actorId maxVisibility s.actorId s.visibility)
    |>.insertionSort fun s s' => s.name ≤ s'.name

def listWorkExperiences : List WorkExperience :=
  (sections.workExperiences.filter fun e =>
      isListed actorId maxVisibility e.actorId e.visibility)
    |>.insertionSort fun e e' =>
      e.sortOrder < e'.sortOrder ∨ e.sortOrder = e'.sortOrder ∧ e'.startDate ≤ e.startDate

def listEducationEntries : List EducationEntry :=
  (sections.educationEntries.filter fun e =>
      isListed actorId maxVisibility e.actorId e.visibility)
    |>.insertionSort fun e e' =>
      e.sortOrder < e'.sortOrder ∨ e.sortOrder = e'.sortOrder ∧ e'.startDate ≤ e.startDate

def listScholarlyArticles : List ScholarlyArticle :=
  (sections.scholarlyArticles.filter fun p =>
      isListed actorId maxVisibility p.actorId p.visibility)
    |>.insertionSort fun p p' =>
      p'.publishedDate = none ∨ ∃ d ∈ p.publishedDate, ∃ d' ∈ p'.publishedDate, d' ≤ d

end Sections

/-! ### The document -/

/-- What the document of an actor has from the public sections. -/
structure ProfileSearchData where
  skills : List String
  experienceTitles : List String
  experienceOrganizations : List String
  educationInstitutions : List String
  educationFields : List String
  publicationTitles : List String

def strings (l : List String) : Json :=
  .arr (l.map .str)

/-- How identifiers and moments are written. -/
structure Writing where
  uuid : Uuid → String
  rfc3339 : DateTime → String

variable (writing : Writing)

/-- The document of an actor in the index. -/
def profileDocument (actor : Actor) (data : ProfileSearchData) : Json :=
  .obj
    [("id", .str (writing.uuid actor.id)),
     ("display_name", .ofOption actor.displayName),
     ("summary", .ofOption actor.summaryHtml),
     ("skills", strings data.skills),
     ("experience_titles", strings data.experienceTitles),
     ("experience_organizations", strings data.experienceOrganizations),
     ("education_institutions", strings data.educationInstitutions),
     ("education_fields", strings data.educationFields),
     ("publication_titles", strings data.publicationTitles),
     ("location", .ofOption actor.location),
     ("orcid", .ofOption actor.orcid),
     ("actor_type", .str actor.actorType.debug),
     ("username", .str actor.username),
     ("visibility", .str "public")]

def ActorPrivacy.toValue (privacy : ActorPrivacy) : Json :=
  .obj
    [("discoverable", .bool privacy.discoverable),
     ("indexable", .bool privacy.indexable),
     ("require_follow_approval", .bool privacy.requireFollowApproval),
     ("federate_profile", .bool privacy.federateProfile),
     ("chatmail_visible", .bool privacy.chatmailVisible),
     ("show_followers_count", .bool privacy.showFollowersCount),
     ("cv_download", .str privacy.cvDownload)]

/-- The actor itself, without its private keys. -/
def Actor.toValue (actor : Actor) : Json :=
  .obj
    [("id", .str (writing.uuid actor.id)),
     ("actor_type", .str actor.actorType.asStr),
     ("org_kind", .ofOption actor.orgKind),
     ("ap_id", .str actor.apId),
     ("username", .str actor.username),
     ("display_name", .ofOption actor.displayName),
     ("headline", .ofOption actor.headline),
     ("location", .ofOption actor.location),
     ("avatar_url", .ofOption actor.avatarUrl),
     ("header_url", .ofOption actor.headerUrl),
     ("summary_md", .ofOption actor.summaryMd),
     ("summary_html", .ofOption actor.summaryHtml),
     ("public_key_pem", .str actor.publicKeyPem),
     ("public_key_id", .ofOption actor.publicKeyId),
     ("ed25519_public_key", .ofOption actor.ed25519PublicKey),
     ("domain", .str actor.domain),
     ("is_local", .bool actor.isLocal),
     ("inbox_url", .ofOption actor.inboxUrl),
     ("instance_role", .str actor.instanceRole),
     ("actor_status", .str actor.actorStatus.asStr),
     ("chat_requires_reprovisioning", .bool actor.chatRequiresReprovisioning),
     ("chatmail_addr", .ofOption actor.chatmailAddr),
     ("orcid", .ofOption actor.orcid),
     ("moved_to", .ofOption actor.movedTo),
     ("actor_privacy", actor.actorPrivacy.toValue),
     ("created_at", .str (writing.rfc3339 actor.createdAt)),
     ("updated_at", .str (writing.rfc3339 actor.updatedAt))]

/-- The document that is sent for an actor, if one is. -/
def indexProfile (actor : Actor) (data : ProfileSearchData) : Option Json :=
  if !actor.isDiscoverable then none
  else if actor.isSilenced then none
  else some (profileDocument writing actor data)

/-- What the tables have for the document of an actor. -/
def Sections.searchData (sections : Sections) (actorId : Uuid) : ProfileSearchData :=
  let skills := sections.listSkills actorId .public
  let workExperiences := sections.listWorkExperiences actorId .public
  let educationEntries := sections.listEducationEntries actorId .public
  let scholarlyArticles := sections.listScholarlyArticles actorId .public
  { skills := skills.map (·.name)
    experienceTitles := workExperiences.map (·.title)
    experienceOrganizations := workExperiences.map (·.organization)
    educationInstitutions := educationEntries.map (·.institution)
    educationFields := educationEntries.filterMap (·.fieldOfStudy)
    publicationTitles := scholarlyArticles.map (·.title) }

def reindexProfileFromDb (sections : Sections) (actor : Actor) : Option Json :=
  indexProfile writing actor (sections.searchData actor.id)

/-! ### What indexes a profile -/

structure Db where
  actors : Uuid → Option Actor
  sections : Sections

structure PatchActorBody where
  displayName : Option String
  headline : Option String
  location : Option String
  summaryMd : Option String

/-- The actor with the columns that an edit of the profile writes. -/
def PatchActorBody.apply (body : PatchActorBody) (render : String → String) (actor : Actor) :
    Actor :=
  { actor with
    displayName := body.displayName <|> actor.displayName
    headline := body.headline <|> actor.headline
    location := body.location <|> actor.location
    summaryMd := body.summaryMd <|> actor.summaryMd
    summaryHtml := body.summaryMd.map render <|> actor.summaryHtml }

inductive Trigger where
  | patchActor (body : PatchActorBody)
  /-- A section is made, edited or deleted, which leaves the tables as given. -/
  | editSection (sections : Sections)
  | savePrivacy (privacy : ActorPrivacy)
  | unsuspendActor

/-- What a trigger leaves, and the document that it sends, for an actor who is local; otherwise it
is refused. -/
def handle (render : String → String) (t : Trigger) (id : Uuid) (db : Db) :
    Option (Db × Option Json) :=
  match db.actors id with
  | none => none
  | some actor =>
      if !actor.isLocal then none
      else
        match t with
        | .patchActor body =>
            let updated := body.apply render actor
            let skills := db.sections.listSkills actor.id .public
            some ({ db with actors := Function.update db.actors id (some updated) },
              indexProfile writing updated ⟨skills.map (·.name), [], [], [], [], []⟩)
        | .editSection sections =>
            some ({ db with sections }, reindexProfileFromDb writing sections actor)
        | .savePrivacy privacy =>
            let actor := { actor with actorPrivacy := privacy }
            -- an actor who is not discoverable is removed from the index
            some ({ db with actors := Function.update db.actors id (some actor) },
              if privacy.discoverable then reindexProfileFromDb writing db.sections actor
              else none)
        | .unsuspendActor =>
            let freshActor :=
              { actor with actorStatus := .active, chatRequiresReprovisioning := true }
            some ({ db with actors := Function.update db.actors id (some freshActor) },
              if actor.isDiscoverable then some (freshActor.toValue writing) else none)

/-! ### What should be sent -/

/-- The data has every public section of an actor, and nothing else. -/
structure ProfileSearchData.IsPublic (data : ProfileSearchData) (sections : Sections)
    (actorId : Uuid) : Prop where
  skills : ∀ name, name ∈ data.skills ↔
    ∃ s ∈ sections.skills, s.actorId = actorId ∧ s.visibility = "public" ∧ s.name = name
  experienceTitles : ∀ title, title ∈ data.experienceTitles ↔
    ∃ e ∈ sections.workExperiences,
      e.actorId = actorId ∧ e.visibility = "public" ∧ e.title = title
  experienceOrganizations : ∀ organization, organization ∈ data.experienceOrganizations ↔
    ∃ e ∈ sections.workExperiences,
      e.actorId = actorId ∧ e.visibility = "public" ∧ e.organization = organization
  educationInstitutions : ∀ institution, institution ∈ data.educationInstitutions ↔
    ∃ e ∈ sections.educationEntries,
      e.actorId = actorId ∧ e.visibility = "public" ∧ e.institution = institution
  educationFields : ∀ field, field ∈ data.educationFields ↔
    ∃ e ∈ sections.educationEntries,
      e.actorId = actorId ∧ e.visibility = "public" ∧ e.fieldOfStudy = some field
  publicationTitles : ∀ title, title ∈ data.publicationTitles ↔
    ∃ p ∈ sections.scholarlyArticles,
      p.actorId = actorId ∧ p.visibility = "public" ∧ p.title = title

/-- What is sent for an actor is what indexing sends from the tables, has the public sections and
nothing else of them, and is sent only for an actor who is discoverable and active. -/
structure Agrees (render : String → String) (t : Trigger) (id : Uuid) (db : Db) : Prop where
  same : ∀ db' sent actor, handle writing render t id db = some (db', sent) →
    db'.actors id = some actor → sent = reindexProfileFromDb writing db'.sections actor
  discloses : ∀ db' doc actor, handle writing render t id db = some (db', some doc) →
    db'.actors id = some actor →
      ∃ data, doc = profileDocument writing actor data ∧ data.IsPublic db'.sections actor.id
  eligible : ∀ db' doc actor, handle writing render t id db = some (db', some doc) →
    db'.actors id = some actor → actor.isDiscoverable = true ∧ actor.isActive = true

/-- The actor has no public experience, education or publication. -/
structure OnlySkills (sections : Sections) (actorId : Uuid) : Prop where
  experience : ∀ e ∈ sections.workExperiences, e.actorId = actorId → e.visibility ≠ "public"
  education : ∀ e ∈ sections.educationEntries, e.actorId = actorId → e.visibility ≠ "public"
  publication : ∀ p ∈ sections.scholarlyArticles, p.actorId = actorId → p.visibility ≠ "public"

/-- When a trigger sends what it should for an actor. -/
def Fits (t : Trigger) (actor : Actor) (sections : Sections) : Prop :=
  match t with
  | .patchActor _ => actor.isDiscoverable = true → actor.isSilenced = false →
      actor.isActive = true ∧ OnlySkills sections actor.id
  | .editSection _ => actor.isDiscoverable = true → actor.isSilenced = false →
      actor.isActive = true
  | .savePrivacy privacy => privacy.discoverable = true → actor.isSilenced = false →
      actor.isActive = true
  | .unsuspendActor => actor.isDiscoverable = false

/-! ### The public sections -/

variable {writing : Writing} {render : String → String}

theorem isListed_public {actorId rowActorId : Uuid} {visibility : String} :
  isListed actorId .public rowActorId visibility = true ↔
    rowActorId = actorId ∧ visibility = "public"
  := by
  rw [isListed, Bool.and_eq_true, beq_iff_eq, visibilityFilter, List.contains_cons,
    List.contains_nil, Bool.or_false, beq_iff_eq]

/-- The names of the listed rows that have one are those of the public rows of the actor. -/
theorem mem_listed {ρ : Type} {rows : List ρ} (le : ρ → ρ → Prop) [DecidableRel le]
    {actorOf : ρ → Uuid} {visibilityOf : ρ → String} {actorId : Uuid}
    (nameOf : ρ → Option String) (name : String) :
  name ∈ ((rows.filter fun r => isListed actorId .public (actorOf r) (visibilityOf r))
      |>.insertionSort le).filterMap nameOf ↔
    ∃ r ∈ rows, actorOf r = actorId ∧ visibilityOf r = "public" ∧ nameOf r = some name
  := by
  rw [List.mem_filterMap]
  constructor
  · rintro ⟨r, hr, hname⟩
    rw [List.mem_insertionSort, List.mem_filter, isListed_public] at hr
    exact ⟨r, hr.1, hr.2.1, hr.2.2, hname⟩
  · rintro ⟨r, hr, hactor, hvisibility, hname⟩
    use r
    rw [List.mem_insertionSort, List.mem_filter, isListed_public]
    exact ⟨⟨hr, hactor, hvisibility⟩, hname⟩

theorem mem_listed_map {ρ : Type} {rows : List ρ} (le : ρ → ρ → Prop) [DecidableRel le]
    {actorOf : ρ → Uuid} {visibilityOf : ρ → String} {actorId : Uuid}
    (nameOf : ρ → String) (name : String) :
  name ∈ ((rows.filter fun r => isListed actorId .public (actorOf r) (visibilityOf r))
      |>.insertionSort le).map nameOf ↔
    ∃ r ∈ rows, actorOf r = actorId ∧ visibilityOf r = "public" ∧ nameOf r = name
  := by
  rw [← List.filterMap_eq_map, mem_listed]
  simp only [Function.comp_apply, Option.some.injEq]

/-- The data from the tables has every public section, and nothing else. -/
theorem searchData_isPublic (sections : Sections) (actorId : Uuid) :
  (sections.searchData actorId).IsPublic sections actorId
  := by
  constructor
  · apply mem_listed_map
  · apply mem_listed_map
  · apply mem_listed_map
  · apply mem_listed_map
  · apply mem_listed
  · apply mem_listed_map

/-- No row is listed just if none of the actor is public. -/
theorem listed_eq_nil_iff {ρ : Type} {rows : List ρ} (le : ρ → ρ → Prop) [DecidableRel le]
    {actorOf : ρ → Uuid} {visibilityOf : ρ → String} {actorId : Uuid} :
  (rows.filter fun r => isListed actorId .public (actorOf r) (visibilityOf r)).insertionSort le
      = [] ↔
    ∀ r ∈ rows, actorOf r = actorId → visibilityOf r ≠ "public"
  := by
  rw [List.eq_nil_iff_forall_not_mem]
  simp only [List.mem_insertionSort, List.mem_filter, isListed_public, not_and]

theorem onlySkills_iff (sections : Sections) (actorId : Uuid) :
  OnlySkills sections actorId ↔
    sections.searchData actorId =
      ⟨(sections.listSkills actorId .public).map (·.name), [], [], [], [], []⟩
  := by
  have hexperience : sections.listWorkExperiences actorId .public = [] ↔
      ∀ e ∈ sections.workExperiences, e.actorId = actorId → e.visibility ≠ "public" :=
    listed_eq_nil_iff _
  have heducation : sections.listEducationEntries actorId .public = [] ↔
      ∀ e ∈ sections.educationEntries, e.actorId = actorId → e.visibility ≠ "public" :=
    listed_eq_nil_iff _
  have hpublication : sections.listScholarlyArticles actorId .public = [] ↔
      ∀ p ∈ sections.scholarlyArticles, p.actorId = actorId → p.visibility ≠ "public" :=
    listed_eq_nil_iff _
  constructor
  · intro h
    rw [Sections.searchData, hexperience.mpr h.experience, heducation.mpr h.education,
      hpublication.mpr h.publication]
    rfl
  · intro h
    rw [Sections.searchData, ProfileSearchData.mk.injEq] at h
    obtain ⟨_, htitles, _, hinstitutions, _, hpublications⟩ := h
    exact ⟨hexperience.mp (List.map_eq_nil_iff.mp htitles),
      heducation.mp (List.map_eq_nil_iff.mp hinstitutions),
      hpublication.mp (List.map_eq_nil_iff.mp hpublications)⟩

/-! ### The documents -/

theorem strings_inj {l l' : List String} (h : strings l = strings l') :
  l = l'
  := by
  rw [strings, strings, Json.arr.injEq] at h
  apply List.map_injective_iff.mpr _ h
  intro s s' hs
  exact Json.str.inj hs

/-- The document of an actor determines the data in it. -/
theorem profileDocument_inj {actor : Actor} {data data' : ProfileSearchData}
    (h : profileDocument writing actor data = profileDocument writing actor data') :
  data = data'
  := by
  simp only [profileDocument, Json.obj.injEq, List.cons.injEq, Prod.mk.injEq, true_and,
    and_true] at h
  obtain ⟨hskills, htitles, horganizations, hinstitutions, hfields, hpublications⟩ := h
  obtain ⟨⟩ := data
  obtain ⟨⟩ := data'
  rw [ProfileSearchData.mk.injEq]
  exact ⟨strings_inj hskills, strings_inj htitles, strings_inj horganizations,
    strings_inj hinstitutions, strings_inj hfields, strings_inj hpublications⟩

/-- An actor itself is not its document. -/
theorem toValue_ne_profileDocument (actor actor' : Actor) (data : ProfileSearchData) :
  actor.toValue writing ≠ profileDocument writing actor' data
  := by
  intro h
  simp [Actor.toValue, profileDocument] at h

/-- A document is sent for an actor just if the actor is discoverable and not silenced. -/
theorem indexProfile_eq_some_iff {actor : Actor} {data : ProfileSearchData} {doc : Json} :
  indexProfile writing actor data = some doc ↔
    actor.isDiscoverable = true ∧ actor.isSilenced = false ∧
      profileDocument writing actor data = doc
  := by
  unfold indexProfile
  cases actor.isDiscoverable with
  | false => simp
  | true =>
      cases actor.isSilenced with
      | true => simp
      | false => simp

theorem indexProfile_eq_none_iff {actor : Actor} {data : ProfileSearchData} :
  indexProfile writing actor data = none ↔
    ¬ (actor.isDiscoverable = true ∧ actor.isSilenced = false)
  := by
  unfold indexProfile
  cases actor.isDiscoverable with
  | false => simp
  | true =>
      cases actor.isSilenced with
      | true => simp
      | false => simp

/-! ### When the triggers agree -/

section Triggers

variable {t : Trigger} {id : Uuid} {db db' : Db} {sent : Option Json} {actor actor' : Actor}

theorem agrees_of_refused (h : handle writing render t id db = none) :
  Agrees writing render t id db
  := by
  constructor
  all_goals
    intro _ _ _ hhandle
    rw [h] at hhandle
    cases hhandle

/-- A trigger agrees with indexing just if it sends the same, and only for an actor who is
discoverable and active: what indexing sends has the public sections. -/
theorem agrees_of_handle (h : handle writing render t id db = some (db', sent))
    (hactor : db'.actors id = some actor') :
  Agrees writing render t id db ↔
    sent = reindexProfileFromDb writing db'.sections actor' ∧
      (sent.isSome = true → actor'.isDiscoverable = true ∧ actor'.isActive = true)
  := by
  constructor
  · intro hagrees
    constructor
    · exact hagrees.same _ _ _ h hactor
    · intro hsome
      obtain ⟨doc, rfl⟩ := Option.isSome_iff_exists.mp hsome
      exact hagrees.eligible _ _ _ h hactor
  · rintro ⟨hsame, heligible⟩
    constructor
    · intro db₁ sent₁ actor₁ h₁ hactor₁
      obtain ⟨rfl, rfl⟩ := Prod.mk.inj (Option.some.inj (h.symm.trans h₁))
      obtain rfl := Option.some.inj (hactor.symm.trans hactor₁)
      exact hsame
    · intro db₁ doc actor₁ h₁ hactor₁
      obtain ⟨rfl, rfl⟩ := Prod.mk.inj (Option.some.inj (h.symm.trans h₁))
      obtain rfl := Option.some.inj (hactor.symm.trans hactor₁)
      obtain ⟨_, _, hdoc⟩ := indexProfile_eq_some_iff.mp hsame.symm
      exact ⟨_, hdoc.symm, searchData_isPublic db'.sections actor'.id⟩
    · intro db₁ doc actor₁ h₁ hactor₁
      obtain ⟨rfl, rfl⟩ := Prod.mk.inj (Option.some.inj (h.symm.trans h₁))
      obtain rfl := Option.some.inj (hactor.symm.trans hactor₁)
      exact heligible rfl

/-- Whatever is indexed is so only for an active actor, just if a discoverable actor who is not
silenced is active. -/
theorem eligible_iff {data : ProfileSearchData} :
  ((indexProfile writing actor data).isSome = true →
      actor.isDiscoverable = true ∧ actor.isActive = true) ↔
    (actor.isDiscoverable = true → actor.isSilenced = false → actor.isActive = true)
  := by
  have hsome : (indexProfile writing actor data).isSome = true ↔
      actor.isDiscoverable = true ∧ actor.isSilenced = false := by
    rw [← not_iff_not, Option.not_isSome_iff_eq_none, indexProfile_eq_none_iff]
  rw [hsome]
  constructor
  · intro h hdiscoverable hsilenced
    exact (h ⟨hdiscoverable, hsilenced⟩).2
  · rintro h ⟨hdiscoverable, hsilenced⟩
    exact ⟨hdiscoverable, h hdiscoverable hsilenced⟩

/-- What is sent is the same from other data just if it is not sent or the data are the same. -/
theorem indexProfile_eq_iff {data data' : ProfileSearchData} :
  indexProfile writing actor data = indexProfile writing actor data' ↔
    (actor.isDiscoverable = true → actor.isSilenced = false → data = data')
  := by
  by_cases hsent : actor.isDiscoverable = true ∧ actor.isSilenced = false
  · rw [indexProfile_eq_some_iff.mpr ⟨hsent.1, hsent.2, rfl⟩,
      indexProfile_eq_some_iff.mpr ⟨hsent.1, hsent.2, rfl⟩, Option.some.injEq]
    constructor
    · intro h _ _
      exact profileDocument_inj h
    · intro h
      rw [h hsent.1 hsent.2]
  · rw [indexProfile_eq_none_iff.mpr hsent, indexProfile_eq_none_iff.mpr hsent]
    apply iff_of_true rfl
    intro hdiscoverable hsilenced
    exact absurd ⟨hdiscoverable, hsilenced⟩ hsent

theorem agrees_patchActor (body : PatchActorBody) (hactor : db.actors id = some actor)
    (hlocal : actor.isLocal = true) :
  Agrees writing render (.patchActor body) id db ↔ Fits (.patchActor body) actor db.sections
  := by
  have hhandle : handle writing render (.patchActor body) id db =
      some ({ db with
          actors := Function.update db.actors id (some (body.apply render actor)) },
        indexProfile writing (body.apply render actor)
          ⟨(db.sections.listSkills actor.id .public).map (·.name), [], [], [], [], []⟩) := by
    rw [handle, hactor]
    simp [hlocal]
  have honly := onlySkills_iff db.sections actor.id
  rw [eq_comm] at honly
  rw [agrees_of_handle hhandle (Function.update_self _ _ _), eligible_iff, reindexProfileFromDb,
    indexProfile_eq_iff]
  constructor
  · rintro ⟨hsame, hactive⟩ hdiscoverable hsilenced
    exact ⟨hactive hdiscoverable hsilenced, honly.mpr (hsame hdiscoverable hsilenced)⟩
  · intro hfits
    constructor
    · intro hdiscoverable hsilenced
      exact honly.mp (hfits hdiscoverable hsilenced).2
    · intro hdiscoverable hsilenced
      exact (hfits hdiscoverable hsilenced).1

theorem agrees_editSection (sections : Sections) (hactor : db.actors id = some actor)
    (hlocal : actor.isLocal = true) :
  Agrees writing render (.editSection sections) id db ↔
    Fits (.editSection sections) actor db.sections
  := by
  have hhandle : handle writing render (.editSection sections) id db =
      some ({ db with sections }, reindexProfileFromDb writing sections actor) := by
    rw [handle, hactor]
    simp [hlocal]
  rw [agrees_of_handle hhandle hactor, reindexProfileFromDb, eligible_iff]
  exact and_iff_right rfl

theorem agrees_savePrivacy (privacy : ActorPrivacy) (hactor : db.actors id = some actor)
    (hlocal : actor.isLocal = true) :
  Agrees writing render (.savePrivacy privacy) id db ↔
    Fits (.savePrivacy privacy) actor db.sections
  := by
  have hhandle : handle writing render (.savePrivacy privacy) id db =
      some ({ db with
          actors := Function.update db.actors id (some { actor with actorPrivacy := privacy }) },
        reindexProfileFromDb writing db.sections { actor with actorPrivacy := privacy }) := by
    rw [handle, hactor]
    simp only [hlocal, Bool.not_true, Bool.false_eq_true, if_false, Option.some.injEq,
      Prod.mk.injEq, true_and]
    split
    · rfl
    · rename_i hprivate
      symm
      apply indexProfile_eq_none_iff.mpr
      rintro ⟨hdiscoverable, _⟩
      exact hprivate hdiscoverable
  rw [agrees_of_handle hhandle (Function.update_self _ _ _), reindexProfileFromDb, eligible_iff]
  exact and_iff_right rfl

theorem agrees_unsuspendActor (hactor : db.actors id = some actor)
    (hlocal : actor.isLocal = true) :
  Agrees writing render .unsuspendActor id db ↔ Fits .unsuspendActor actor db.sections
  := by
  have hhandle : handle writing render .unsuspendActor id db =
      some ({ db with
          actors := Function.update db.actors id
            (some { actor with actorStatus := .active, chatRequiresReprovisioning := true }) },
        if actor.isDiscoverable then
          some (Actor.toValue writing
            { actor with actorStatus := .active, chatRequiresReprovisioning := true })
        else none) := by
    rw [handle, hactor]
    simp [hlocal]
  rw [agrees_of_handle hhandle (Function.update_self _ _ _), Fits]
  cases hdiscoverable : actor.isDiscoverable with
  | true =>
      apply iff_of_false
      · rintro ⟨hsame, _⟩
        obtain ⟨_, _, hdoc⟩ := indexProfile_eq_some_iff.mp hsame.symm
        exact toValue_ne_profileDocument _ _ _ hdoc.symm
      · intro h
        cases h
  | false =>
      apply iff_of_true _ rfl
      constructor
      · symm
        apply indexProfile_eq_none_iff.mpr
        rintro ⟨h, _⟩
        rw [Actor.isDiscoverable] at h hdiscoverable
        rw [hdiscoverable] at h
        cases h
      · intro h
        cases h

/-- Whatever changes a profile sends what it should, just if the actor is a local one with the
right settings and sections. -/
theorem agrees_iff (t : Trigger) (id : Uuid) (db : Db) :
  Agrees writing render t id db ↔
    ∀ actor, db.actors id = some actor → actor.isLocal = true → Fits t actor db.sections
  := by
  cases hactor : db.actors id with
  | none =>
      apply iff_of_true
      · apply agrees_of_refused
        rw [handle, hactor]
      · intro _ h
        cases h
  | some actor =>
      simp only [Option.some.injEq, forall_eq']
      cases hlocal : actor.isLocal with
      | false =>
          apply iff_of_true
          · apply agrees_of_refused
            rw [handle, hactor]
            simp [hlocal]
          · intro h
            cases h
      | true =>
          simp only [forall_const]
          cases t with
          | patchActor body => exact agrees_patchActor body hactor hlocal
          | editSection sections => exact agrees_editSection sections hactor hlocal
          | savePrivacy privacy => exact agrees_savePrivacy privacy hactor hlocal
          | unsuspendActor => exact agrees_unsuspendActor hactor hlocal

end Triggers

/-! ### An edit of the headline -/

/-- A local actor who is discoverable. -/
def alice (actorStatus : ActorStatus) : Actor where
  id := 1
  actorType := .individual
  orgKind := none
  apId := "https://noombat.example/users/alice"
  username := "alice"
  displayName := none
  headline := none
  location := none
  avatarUrl := none
  headerUrl := none
  summaryMd := none
  summaryHtml := none
  publicKeyPem := ""
  publicKeyId := none
  ed25519PublicKey := none
  domain := "noombat.example"
  isLocal := true
  inboxUrl := none
  instanceRole := "user"
  actorStatus := actorStatus
  chatRequiresReprovisioning := false
  chatmailAddr := none
  orcid := none
  movedTo := none
  actorPrivacy := ⟨true, true, false, true, true, true, "public"⟩
  createdAt := 0
  updatedAt := 0

def engineer : WorkExperience where
  id := 2
  actorId := 1
  title := "Engineer"
  organization := "Acme"
  organizationId := none
  organizationConfirmedAt := none
  organizationConfirmedVia := none
  startDate := 0
  endDate := none
  descriptionMd := none
  descriptionHtml := none
  sortOrder := 0
  visibility := "public"

/-- Alice with a public experience. -/
def hired (actorStatus : ActorStatus) : Db where
  actors id := if id = 1 then some (alice actorStatus) else none
  sections := ⟨[], [engineer], [], []⟩

/-- The edit of the headline takes the experience out of the index; and once unsuspended, the
actor itself is in the index instead of its document. -/
theorem hired_disagrees :
  ¬ Agrees ⟨toString, toString⟩ id (.patchActor ⟨none, some "Hired", none, none⟩) 1
      (hired .active) ∧
    ¬ Agrees ⟨toString, toString⟩ id .unsuspendActor 1 (hired .suspended)
  := by
  constructor
  · intro h
    obtain ⟨_, honly⟩ := (agrees_patchActor _ rfl rfl).mp h rfl rfl
    exact honly.experience engineer (List.mem_singleton.mpr rfl) rfl rfl
  · intro h
    cases (agrees_unsuspendActor rfl rfl).mp h

end Search.Profiles
