import Noombat.Federation.Types
import Noombat.Relational

/-!
# The schema

The tables of the database that refer to actors, directly or not, their foreign keys and the
constraints on them.  Of the other columns, a row has those that the erasure of an actor
reads or writes and those on which there are constraints together with columns that refer; the
row of an actor has all that its account has entered, too.
-/

namespace Erasure

open Federation (Uuid DateTime)
open Relational

inductive Table where
  | actors
  | actorAliases
  | sessions
  | totpSecrets
  | oauthStates
  | emailVerifications
  | oauthIdentities
  | workExperiences
  | educationEntries
  | skills
  | verifiedLinks
  | scholarlyArticles
  | jobPostings
  | organizationMembers
  | organizationEnrolments
  | jobPostingReaders
  | posts
  | mediaAttachments
  | follows
  | connections
  | boosts
  | likes
  | jobApplications
  | jobApplicationGrants
  | jobApplicationAccesses
  | groupMemberships
  | events
  | eventRsvps
  | hashtags
  | postHashtags
  | hashtagFollows
  | customProfileSections
  | blocks
  | mutes
  | domainRestrictions
  | reports
  | mediaFetchOperations
  | chatmailOperations
  | chatmailBlocks
  | announcements
  | deliveryQueue
  deriving DecidableEq, Repr

/-- The columns that refer. -/
inductive Column where
  | actorId
  | linkActorId
  | organizationId
  | approvedBy
  | createdBy
  | memberId
  | ownerId
  | jobPostingId
  | postId
  | followerId
  | followingId
  | requesterId
  | addresseeId
  | applicantId
  | jobApplicationId
  | grantId
  | readerId
  | groupId
  | organiserId
  | eventId
  | hashtagId
  | targetId
  | reporterId
  | targetActorId
  | targetPostId
  | resolvedBy
  deriving DecidableEq, Repr

/-! ### The other columns -/

inductive ActorStatus where
  | pending
  | active
  | silenced
  | suspended
  deriving DecidableEq, Repr

structure ActorPrivacy where
  discoverable : Bool
  indexable : Bool
  requireFollowApproval : Bool
  federateProfile : Bool
  chatmailVisible : Bool
  showFollowersCount : Bool
  cvDownload : String
  deriving DecidableEq, Repr

inductive InstanceRole where
  | user
  | moderator
  | admin
  deriving DecidableEq, Repr

inductive OrgKind where
  | employer
  | agency
  deriving DecidableEq, Repr

inductive Visibility where
  | «public»
  | unlisted
  | followers
  | connections
  | «private»
  deriving DecidableEq, Repr

structure ActorData where
  apId : String
  isLocal : Bool
  inboxUrl : Option String := none
  sharedInboxUrl : Option String := none
  displayName : Option String := none
  headline : Option String := none
  location : Option String := none
  avatarUrl : Option String := none
  headerUrl : Option String := none
  summaryMd : Option String := none
  summaryHtml : Option String := none
  chatmailAddr : Option String := none
  chatmailCred : Option String := none
  authKeyHash : Option String := none
  ed25519PrivateKey : Option String := none
  orcid : Option String := none
  actorStatus : ActorStatus := .active
  actorPrivacy : ActorPrivacy := ⟨true, true, false, true, true, true, "public"⟩
  deletionRequestedAt : Option DateTime := none
  erasedAt : Option DateTime := none
  instanceRole : InstanceRole := .user
  email : Option String := none
  chatRequiresReprovisioning : Bool := false
  movedTo : Option String := none
  claimedDomain : Option String := none
  orgKind : Option OrgKind := none
  blurSensitiveMedia : Bool := true
  defaultPostVisibility : Visibility := .«public»
  connectionsVisibility : Visibility := .«private»
  followingVisibility : Visibility := .«private»
  followersVisibility : Visibility := .«private»
  deriving DecidableEq, Repr

inductive ConfirmedVia where
  | organisation
  | domainEmail
  deriving DecidableEq, Repr

structure WorkExperienceData where
  organizationConfirmedAt : Option DateTime
  organizationConfirmedVia : Option ConfirmedVia
  deriving DecidableEq, Repr

inductive AccessKind where
  | grantDereference
  | moderatorReview
  deriving DecidableEq, Repr

structure AccessData where
  kind : AccessKind
  reason : Option String
  deriving DecidableEq, Repr

structure ReportData where
  targetChatAddr : Option String
  reportedMessage : Option String
  reportedMessageAt : Option DateTime
  deriving DecidableEq, Repr

inductive MediaPurpose where
  | avatar
  | header
  | post
  deriving DecidableEq, Repr

structure MediaData where
  objectKey : String
  purpose : MediaPurpose
  deriving DecidableEq, Repr

structure FollowData where
  accepted : Bool
  deriving DecidableEq, Repr

structure DeliveryData where
  payload : Json
  targetInbox : String

inductive OperationState where
  | pending
  | succeeded
  | failed
  deriving DecidableEq, Repr

structure ChatmailData where
  address : String
  state : OperationState
  deriving DecidableEq, Repr

def Data : Table → Type
  | .actors => ActorData
  | .workExperiences => WorkExperienceData
  | .jobApplicationAccesses => AccessData
  | .reports => ReportData
  | .mediaAttachments => MediaData
  | .follows => FollowData
  | .deliveryQueue => DeliveryData
  | .chatmailOperations => ChatmailData
  | _ => Unit

/-! ### Constraints -/

/-- The foreign keys, in the order of the migration. -/
def foreignKeys : List (ForeignKey Table Column) :=
  [⟨.actorAliases, .actorId, .actors, .cascade⟩,
    ⟨.sessions, .actorId, .actors, .cascade⟩,
    ⟨.totpSecrets, .actorId, .actors, .cascade⟩,
    ⟨.oauthStates, .linkActorId, .actors, .cascade⟩,
    ⟨.emailVerifications, .actorId, .actors, .cascade⟩,
    ⟨.oauthIdentities, .actorId, .actors, .cascade⟩,
    ⟨.workExperiences, .actorId, .actors, .cascade⟩,
    ⟨.workExperiences, .organizationId, .actors, .setNull⟩,
    ⟨.educationEntries, .actorId, .actors, .cascade⟩,
    ⟨.skills, .actorId, .actors, .cascade⟩,
    ⟨.verifiedLinks, .actorId, .actors, .cascade⟩,
    ⟨.scholarlyArticles, .actorId, .actors, .cascade⟩,
    ⟨.jobPostings, .actorId, .actors, .cascade⟩,
    ⟨.jobPostings, .approvedBy, .actors, .setNull⟩,
    ⟨.jobPostings, .createdBy, .actors, .setNull⟩,
    ⟨.organizationMembers, .organizationId, .actors, .cascade⟩,
    ⟨.organizationMembers, .memberId, .actors, .cascade⟩,
    ⟨.organizationEnrolments, .ownerId, .actors, .cascade⟩,
    ⟨.organizationEnrolments, .organizationId, .actors, .setNull⟩,
    ⟨.jobPostingReaders, .jobPostingId, .jobPostings, .cascade⟩,
    ⟨.jobPostingReaders, .memberId, .actors, .cascade⟩,
    ⟨.posts, .actorId, .actors, .cascade⟩,
    ⟨.mediaAttachments, .actorId, .actors, .cascade⟩,
    ⟨.mediaAttachments, .postId, .posts, .cascade⟩,
    ⟨.follows, .followerId, .actors, .cascade⟩,
    ⟨.follows, .followingId, .actors, .cascade⟩,
    ⟨.connections, .requesterId, .actors, .cascade⟩,
    ⟨.connections, .addresseeId, .actors, .cascade⟩,
    ⟨.boosts, .actorId, .actors, .cascade⟩,
    ⟨.boosts, .postId, .posts, .cascade⟩,
    ⟨.likes, .actorId, .actors, .cascade⟩,
    ⟨.likes, .postId, .posts, .cascade⟩,
    ⟨.jobApplications, .applicantId, .actors, .cascade⟩,
    ⟨.jobApplications, .jobPostingId, .jobPostings, .setNull⟩,
    ⟨.jobApplicationGrants, .jobApplicationId, .jobApplications, .cascade⟩,
    ⟨.jobApplicationAccesses, .jobApplicationId, .jobApplications, .cascade⟩,
    ⟨.jobApplicationAccesses, .grantId, .jobApplicationGrants, .cascade⟩,
    ⟨.jobApplicationAccesses, .readerId, .actors, .setNull⟩,
    ⟨.groupMemberships, .groupId, .actors, .cascade⟩,
    ⟨.groupMemberships, .memberId, .actors, .cascade⟩,
    ⟨.events, .actorId, .actors, .cascade⟩,
    ⟨.events, .organiserId, .actors, .noAction⟩,
    ⟨.events, .groupId, .actors, .setNull⟩,
    ⟨.eventRsvps, .eventId, .events, .cascade⟩,
    ⟨.eventRsvps, .actorId, .actors, .cascade⟩,
    ⟨.postHashtags, .postId, .posts, .cascade⟩,
    ⟨.postHashtags, .hashtagId, .hashtags, .cascade⟩,
    ⟨.hashtagFollows, .actorId, .actors, .cascade⟩,
    ⟨.hashtagFollows, .hashtagId, .hashtags, .cascade⟩,
    ⟨.customProfileSections, .actorId, .actors, .cascade⟩,
    ⟨.blocks, .actorId, .actors, .cascade⟩,
    ⟨.blocks, .targetId, .actors, .cascade⟩,
    ⟨.mutes, .actorId, .actors, .cascade⟩,
    ⟨.mutes, .targetId, .actors, .cascade⟩,
    ⟨.domainRestrictions, .createdBy, .actors, .setNull⟩,
    ⟨.reports, .reporterId, .actors, .cascade⟩,
    ⟨.reports, .targetActorId, .actors, .cascade⟩,
    ⟨.reports, .targetPostId, .posts, .cascade⟩,
    ⟨.reports, .resolvedBy, .actors, .setNull⟩,
    ⟨.mediaFetchOperations, .postId, .posts, .cascade⟩,
    ⟨.mediaFetchOperations, .actorId, .actors, .cascade⟩,
    ⟨.chatmailOperations, .actorId, .actors, .setNull⟩,
    ⟨.chatmailBlocks, .actorId, .actors, .cascade⟩,
    ⟨.announcements, .createdBy, .actors, .setNull⟩,
    ⟨.deliveryQueue, .actorId, .actors, .cascade⟩]

/-- The columns that refer and are `NOT NULL`. -/
def notNull : Table → List Column
  | .actorAliases | .sessions | .totpSecrets | .emailVerifications | .oauthIdentities
  | .workExperiences | .educationEntries | .skills | .verifiedLinks | .scholarlyArticles
  | .jobPostings | .posts | .mediaAttachments | .customProfileSections | .chatmailBlocks
  | .deliveryQueue => [.actorId]
  | .organizationMembers => [.organizationId, .memberId]
  | .organizationEnrolments => [.ownerId]
  | .jobPostingReaders => [.jobPostingId, .memberId]
  | .follows => [.followerId, .followingId]
  | .connections => [.requesterId, .addresseeId]
  | .boosts | .likes | .mediaFetchOperations => [.actorId, .postId]
  | .jobApplications => [.applicantId]
  | .jobApplicationGrants | .jobApplicationAccesses => [.jobApplicationId]
  | .groupMemberships => [.groupId, .memberId]
  | .events => [.actorId, .organiserId]
  | .eventRsvps => [.eventId, .actorId]
  | .postHashtags => [.postId, .hashtagId]
  | .hashtagFollows => [.actorId, .hashtagId]
  | .blocks | .mutes => [.actorId, .targetId]
  | .reports => [.reporterId]
  | .actors | .oauthStates | .hashtags | .domainRestrictions | .chatmailOperations
  | .announcements => []

/-- Columns that refer and that are unique together. -/
def unique : Table → List (List Column)
  | .totpSecrets => [[.actorId]]
  | .organizationMembers => [[.organizationId, .memberId]]
  | .jobPostingReaders => [[.jobPostingId, .memberId]]
  | .follows => [[.followerId, .followingId]]
  | .boosts | .likes => [[.actorId, .postId]]
  | .jobApplications => [[.applicantId, .jobPostingId]]
  | .groupMemberships => [[.groupId, .memberId]]
  | .eventRsvps => [[.eventId, .actorId]]
  | .postHashtags => [[.postId, .hashtagId]]
  | .hashtagFollows => [[.actorId, .hashtagId]]
  | .blocks | .mutes => [[.actorId, .targetId]]
  | _ => []

/-- `confirmation_names_an_organisation` -/
def confirmationNamesAnOrganisation (r : Row Column WorkExperienceData) : Bool :=
  r.data.organizationConfirmedAt.isNone ||
    ((r.ref .organizationId).isSome && r.data.organizationConfirmedVia.isSome)

/-- `moderator_review_states_a_reason` -/
def moderatorReviewStatesAReason (r : Row Column AccessData) : Bool :=
  r.data.kind != .moderatorReview ||
    ((r.ref .readerId).isSome && r.data.reason.any fun reason => reason.toList.any (· != ' '))

/-- `report_names_a_target` -/
def reportNamesATarget (r : Row Column ReportData) : Bool :=
  (r.ref .targetActorId).isSome || (r.ref .targetPostId).isSome || r.data.targetChatAddr.isSome

/-- `quoted_message_belongs_to_a_chat_report` -/
def quotedMessageBelongsToAChatReport (r : Row Column ReportData) : Bool :=
  (r.data.reportedMessage.isNone && r.data.reportedMessageAt.isNone) ||
    r.data.targetChatAddr.isSome

/-- `quoted_message_is_bounded` -/
def quotedMessageIsBounded (r : Row Column ReportData) : Bool :=
  r.data.reportedMessage.all fun message => message.length ≤ 8192

/-- `media_purpose_matches_owner` -/
def mediaPurposeMatchesOwner (r : Row Column MediaData) : Bool :=
  r.data.purpose == .post || (r.ref .postId).isNone

/-- The `CHECK` constraints of a table. -/
def constraints : (t : Table) → Row Column (Data t) → Bool
  | .workExperiences, r => confirmationNamesAnOrganisation r
  | .jobApplicationAccesses, r => moderatorReviewStatesAReason r
  | .reports, r =>
      reportNamesATarget r && quotedMessageBelongsToAChatReport r && quotedMessageIsBounded r
  | .mediaAttachments, r => mediaPurposeMatchesOwner r
  | .connections, r => r.ref .requesterId != r.ref .addresseeId
  | _, _ => true

/-- Whether a row satisfies the `NOT NULL` and `CHECK` constraints of its table. -/
def check (t : Table) (r : Row Column (Data t)) : Bool :=
  ((notNull t).all fun c => (r.ref c).isSome) && constraints t r

/-- How many rounds of deletions can follow the deletion of a row. -/
def depth : Table → Nat
  | .actors => 4
  | .posts | .jobPostings | .jobApplications | .events | .hashtags => 3
  | .jobApplicationGrants => 2
  | _ => 1

def schema : Schema Table Column Data where
  foreignKeys := foreignKeys
  check := check
  unique := unique
  depth := depth
  descends := by decide

/-! ### Deletions -/

/-- The foreign keys that set references to null without breaking a constraint. -/
def nullable : List (Table × Column) :=
  [(.jobPostings, .approvedBy), (.jobPostings, .createdBy),
    (.organizationEnrolments, .organizationId), (.jobApplications, .jobPostingId),
    (.events, .groupId), (.domainRestrictions, .createdBy), (.reports, .resolvedBy),
    (.chatmailOperations, .actorId), (.announcements, .createdBy)]

theorem harmless_cascade (t : Table) (column : Column) :
  schema.Harmless t column .cascade
  := fun _ _ => trivial

/-- No constraint is on a nullable column. -/
theorem harmless_nullable :
  ∀ c ∈ nullable, schema.Harmless c.1 c.2 .setNull
  := by
  have hcheck (t : Table) (column : Column) (hrequired : column ∉ notNull t)
      (hconstraints : ∀ r, constraints t (r.clear column) = constraints t r) :
      schema.Harmless t column .setNull := by
    intro r hr
    change check t (r.clear column) = true
    obtain ⟨hnotNull, hsatisfied⟩ := Bool.and_eq_true_iff.mp hr
    apply Bool.and_eq_true_iff.mpr
    constructor
    · apply List.all_eq_true.mpr
      intro c hc
      have hne : c ≠ column := by
        rintro rfl
        exact hrequired hc
      rw [Row.ref_clear_of_ne hne]
      exact List.all_eq_true.mp hnotNull c hc
    · rw [hconstraints]
      exact hsatisfied
  intro c hc
  simp only [nullable, List.mem_cons, List.not_mem_nil, or_false] at hc
  obtain rfl | rfl | rfl | rfl | rfl | rfl | rfl | rfl | rfl := hc
  all_goals exact hcheck _ _ (by decide) fun r => rfl

/-- The deletion of rows other than actors cannot fail, and deletes no actor. -/
theorem schema_tame :
  schema.Tame .actors
  := by
  constructor
  · intro fk hfk htarget
    have hkinds : ∀ fk ∈ foreignKeys, fk.target ≠ .actors →
        fk.onDelete = .cascade ∨ fk.onDelete = .setNull ∧ (fk.table, fk.column) ∈ nullable := by
      decide
    obtain hcascade | ⟨hnull, hmem⟩ := hkinds fk hfk htarget
    · rw [hcascade]
      exact harmless_cascade _ _
    · rw [hnull]
      exact harmless_nullable _ hmem
  · have hsources : ∀ fk ∈ foreignKeys, fk.table ≠ .actors := by decide
    exact hsources

end Erasure
